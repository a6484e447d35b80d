import MsgTrans.Transport.SessionActor

/-!
# The callback trace of a session

What `SessionActor::run` (`session_actor.rs:480–673`) can have done in any state it reaches, over
all arrivals, batch boundaries, cancellations and panics. The invariant splits what arrived into the
messages handled so far, the rest of the batch and the mailbox, and says how the loop can have been
left. From it follow the shape of the trace and that batches do not show in it.
-/

namespace MsgTrans.Transport

open MsgTrans.Wire MsgTrans.Adapters MsgTrans.Base

namespace ActorConfig

variable (cfg : ActorConfig)

/-- What these messages make the actor do. -/
def effects (mails : List Mail) : List Effect := mails.flatMap fun mail ↦ (cfg.turn mail).effects

/-- None of these messages ends the loop. -/
def AllContinue (mails : List Mail) : Prop := ∀ mail ∈ mails, (cfg.turn mail).outcome = .continued

/-- Process messages one at a time up to the one that ends the loop, then disconnect. A mailbox
that is used up is gone. -/
def serve : List Mail → List Effect
  | [] => [.onDisconnected .normal]
  | mail :: rest =>
    (cfg.turn mail).effects ++
      match (cfg.turn mail).outcome with
      | .continued => serve rest
      | .closed reason => [.onDisconnected reason]
      | .panicked => [.onDisconnected (finalReason none)]

/-- What an actor does that takes the messages one at a time. -/
def oneAtATime (arrived : List ActorMessage) : List Effect :=
  .onConnected ::
    if cfg.connectPanics then [.onDisconnected (finalReason none)] else cfg.serve arrived.zipIdx

end ActorConfig

/-- How the loop can have been left, after which messages and with which result. -/
inductive Exit (cfg : ActorConfig) (s : ActorState) :
    List Mail → Option CloseReason → Prop where
  | connectPanicked (hconnect : cfg.connectPanics = true) : Exit cfg s [] none
  | cancelled {done : List Mail} (hcancel : s.cancelled = true)
      (hdone : done <+: s.arrived.zipIdx) (hall : cfg.AllContinue done) :
      Exit cfg s done (some .normal)
  | gone (hgone : s.sendersGone = true) (hconnect : cfg.connectPanics = false)
      (hall : cfg.AllContinue s.arrived.zipIdx) : Exit cfg s s.arrived.zipIdx (some .normal)
  | closed {done : List Mail} {mail : Mail} {reason : CloseReason}
      (hconnect : cfg.connectPanics = false) (hdone : done ++ [mail] <+: s.arrived.zipIdx)
      (hall : cfg.AllContinue done) (hmail : (cfg.turn mail).outcome = .closed reason) :
      Exit cfg s (done ++ [mail]) (some reason)
  | panicked {done : List Mail} {mail : Mail}
      (hconnect : cfg.connectPanics = false) (hdone : done ++ [mail] <+: s.arrived.zipIdx)
      (hall : cfg.AllContinue done) (hmail : (cfg.turn mail).outcome = .panicked) :
      Exit cfg s (done ++ [mail]) none

/-- The loop runs with this batch: what arrived is what was handled, the batch and the mailbox. -/
structure Serving (cfg : ActorConfig) (s : ActorState) (batch done : List Mail) : Prop where
  connect : cfg.connectPanics = false
  reason : s.closeReason = .normal
  all : cfg.AllContinue done
  split : s.arrived.zipIdx = done ++ batch ++ s.mailbox
  trace : s.trace = .onConnected :: cfg.effects done

/-- The invariant of the actor. -/
def Standing (cfg : ActorConfig) (s : ActorState) : Prop :=
  match s.phase with
  | .starting => s.trace = [] ∧ s.closeReason = .normal ∧ s.mailbox = s.arrived.zipIdx
  | .waiting => ∃ done, Serving cfg s [] done
  | .draining batch | .processing batch false => ∃ done, Serving cfg s batch done
  | .processing _ true =>
    ∃ done, Exit cfg s done (some s.closeReason) ∧ s.trace = .onConnected :: cfg.effects done
  | .leaving result =>
    ∃ done, Exit cfg s done result ∧ s.trace = .onConnected :: cfg.effects done
  | .ended result =>
    ∃ done, Exit cfg s done result ∧
      s.trace = .onConnected :: cfg.effects done ++ [.onDisconnected (finalReason result)]

/-- The callback that opens the trace, once it was made. -/
def ActorPhase.opening : ActorPhase → List Effect
  | .starting => []
  | _ => [.onConnected]

/-- The callback that ends the trace, once it was made. -/
def ActorPhase.final : ActorPhase → List Effect
  | .ended result => [.onDisconnected (finalReason result)]
  | _ => []

section Step

variable {cfg : ActorConfig} {limit : Nat} {s s' : ActorState}

@[simp] theorem effects_append (front back : List Mail) :
    cfg.effects (front ++ back) = cfg.effects front ++ cfg.effects back := List.flatMap_append

@[simp] theorem effects_singleton (mail : Mail) :
    cfg.effects [mail] = (cfg.turn mail).effects := List.flatMap_singleton ..

theorem AllContinue.snoc {done : List Mail} {mail : Mail} (hall : cfg.AllContinue done)
    (hmail : (cfg.turn mail).outcome = .continued) : cfg.AllContinue (done ++ [mail]) := by
  intro x hx
  obtain hx | hx := List.mem_append.mp hx
  · exact hall x hx
  · rw [List.mem_singleton.mp hx]
    exact hmail

private theorem zipIdx_snoc (arrived : List ActorMessage) (message : ActorMessage) :
    (arrived ++ [message]).zipIdx = arrived.zipIdx ++ [(message, arrived.length)] := by
  rw [List.zipIdx_append]
  simp

-- How the loop was left does not change when more messages arrive, the last sender goes or the
-- session is cancelled.
private theorem Exit.mono {done : List Mail} {result : Option CloseReason}
    (h : Exit cfg s done result) (hcancel : s.cancelled = true → s'.cancelled = true)
    (hgone : s.sendersGone = true → s'.sendersGone = true ∧ s'.arrived = s.arrived)
    (harrived : s.arrived.zipIdx <+: s'.arrived.zipIdx) : Exit cfg s' done result := by
  cases h with
  | connectPanicked hconnect => exact .connectPanicked hconnect
  | cancelled hc hdone hall => exact .cancelled (hcancel hc) (hdone.trans harrived) hall
  | gone hg hconnect hall =>
    obtain ⟨hg', heq⟩ := hgone hg
    rw [← heq] at hall ⊢
    exact .gone hg' hconnect hall
  | closed hconnect hdone hall hmail => exact .closed hconnect (hdone.trans harrived) hall hmail
  | panicked hconnect hdone hall hmail => exact .panicked hconnect (hdone.trans harrived) hall hmail

-- A step that only tells the actor something.
private theorem Standing.told (h : Standing cfg s) (hphase : s'.phase = s.phase)
    (hreason : s'.closeReason = s.closeReason) (htrace : s'.trace = s.trace)
    (hcancel : s.cancelled = true → s'.cancelled = true)
    (hgone : s.sendersGone = true → s'.sendersGone = true ∧ s'.arrived = s.arrived)
    {new : List Mail} (harrived : s'.arrived.zipIdx = s.arrived.zipIdx ++ new)
    (hmailbox : s'.mailbox = s.mailbox ++ new) : Standing cfg s' := by
  have hmono : ∀ {done result}, Exit cfg s done result → Exit cfg s' done result :=
    fun hexit ↦ hexit.mono hcancel hgone ⟨new, harrived.symm⟩
  have hserving : ∀ {batch done}, Serving cfg s batch done → Serving cfg s' batch done := by
    intro batch done hs
    constructor
    case connect => exact hs.connect
    case all => exact hs.all
    case reason => rw [hreason, hs.reason]
    case split => rw [harrived, hs.split, hmailbox, List.append_assoc, List.append_assoc]
    case trace => rw [htrace, hs.trace]
  unfold Standing at h ⊢
  rw [hphase]
  split at h
  next =>
    obtain ⟨ht, hr, hm⟩ := h
    exact ⟨htrace.trans ht, hreason.trans hr, by rw [hmailbox, harrived, hm]⟩
  next =>
    obtain ⟨done, hs⟩ := h
    exact ⟨done, hserving hs⟩
  next =>
    obtain ⟨done, hs⟩ := h
    exact ⟨done, hserving hs⟩
  next =>
    obtain ⟨done, hs⟩ := h
    exact ⟨done, hserving hs⟩
  next =>
    obtain ⟨done, hexit, ht⟩ := h
    rw [← hreason] at hexit
    exact ⟨done, hmono hexit, htrace.trans ht⟩
  next =>
    obtain ⟨done, hexit, ht⟩ := h
    exact ⟨done, hmono hexit, htrace.trans ht⟩
  next =>
    obtain ⟨done, hexit, ht⟩ := h
    exact ⟨done, hmono hexit, htrace.trans ht⟩

private theorem Standing.connect (h : Standing cfg s) (hs : s.connect cfg = some s') :
    Standing cfg s' := by
  unfold ActorState.connect at hs
  split at hs
  next hphase =>
    cases hs
    simp only [Standing, hphase] at h
    obtain ⟨htrace, hreason, hmailbox⟩ := h
    unfold Standing
    cases hconnect : cfg.connectPanics with
    | true => exact ⟨[], .connectPanicked hconnect, by simp [htrace, ActorConfig.effects]⟩
    | false =>
      refine ⟨[], hconnect, hreason, by simp [ActorConfig.AllContinue], hmailbox.symm, ?_⟩
      simp [htrace, ActorConfig.effects]
  next => cases hs

private theorem Standing.recv (h : Standing cfg s) (hs : s.recv = some s') : Standing cfg s' := by
  unfold ActorState.recv at hs
  split at hs
  next mail rest hphase hmailbox =>
    cases hs
    simp only [Standing, hphase] at h
    obtain ⟨done, hserving⟩ := h
    refine ⟨done, { hserving with split := ?_ }⟩
    rw [hserving.split, hmailbox]
    simp
  next hphase hmailbox =>
    simp only [Standing, hphase] at h
    obtain ⟨done, hserving⟩ := h
    have hdone : s.arrived.zipIdx = done := by
      rw [hserving.split, hmailbox]
      simp
    split at hs
    next hgone =>
      cases hs
      refine ⟨done, ?_, hserving.trace⟩
      rw [hserving.reason]
      have hall : cfg.AllContinue s.arrived.zipIdx := by
        rw [hdone]
        exact hserving.all
      have hexit : Exit cfg s s.arrived.zipIdx (some .normal) := .gone hgone hserving.connect hall
      rw [hdone] at hexit
      exact hexit.mono id (fun hg ↦ ⟨hg, rfl⟩) (List.prefix_refl _)
    next => cases hs
  next => cases hs

private theorem Standing.tryRecv (h : Standing cfg s) (hs : s.tryRecv limit = some s') :
    Standing cfg s' := by
  unfold ActorState.tryRecv at hs
  split at hs
  next batch hphase =>
    simp only [Standing, hphase] at h
    obtain ⟨done, hserving⟩ := h
    split at hs
    next =>
      split at hs
      next mail rest hmailbox =>
        cases hs
        refine ⟨done, { hserving with split := ?_ }⟩
        rw [hserving.split, hmailbox]
        simp
      next hmailbox =>
        cases hs
        exact ⟨done, { hserving with }⟩
    next =>
      cases hs
      exact ⟨done, { hserving with }⟩
  next => cases hs

private theorem Standing.turn (h : Standing cfg s) (hs : s.turn cfg = some s') :
    Standing cfg s' := by
  unfold ActorState.turn at hs
  split at hs
  next shouldBreak hphase =>
    cases hs
    cases shouldBreak with
    | true =>
      simp only [Standing, hphase] at h
      obtain ⟨done, hexit, htrace⟩ := h
      exact ⟨done, hexit.mono id (fun hg ↦ ⟨hg, rfl⟩) (List.prefix_refl _), htrace⟩
    | false =>
      simp only [Standing, hphase] at h
      obtain ⟨done, hserving⟩ := h
      exact ⟨done, { hserving with }⟩
  next mail rest hphase =>
    cases hs
    simp only [Standing, hphase] at h
    obtain ⟨done, hexit, htrace⟩ := h
    exact ⟨done, hexit.mono id (fun hg ↦ ⟨hg, rfl⟩) (List.prefix_refl _), htrace⟩
  next mail rest hphase =>
    simp only [Standing, hphase] at h
    obtain ⟨done, hserving⟩ := h
    have hsplit : s.arrived.zipIdx = done ++ [mail] ++ (rest ++ s.mailbox) := by
      rw [hserving.split]
      simp
    have htrace : s.trace ++ (cfg.turn mail).effects =
        .onConnected :: cfg.effects (done ++ [mail]) := by
      rw [hserving.trace]
      simp
    have hfront : done ++ [mail] <+: s.arrived.zipIdx := ⟨_, hsplit.symm⟩
    simp only at hs
    cases hs
    unfold Standing
    cases houtcome : (cfg.turn mail).outcome with
    | continued =>
      refine ⟨done ++ [mail], hserving.connect, hserving.reason,
        AllContinue.snoc hserving.all houtcome, ?_, htrace⟩
      rw [hsplit, List.append_assoc]
      simp
    | closed reason =>
      exact ⟨done ++ [mail], .closed hserving.connect hfront hserving.all houtcome, htrace⟩
    | panicked =>
      exact ⟨done ++ [mail], .panicked hserving.connect hfront hserving.all houtcome, htrace⟩
  next => cases hs

/-- Every step keeps the invariant. -/
theorem Standing.step (h : Standing cfg s) {l : ActorLabel} (hs : s.step cfg limit l = some s') :
    Standing cfg s' := by
  cases l with
  | arrive message =>
    simp only [ActorState.step, ActorState.arrive] at hs
    split at hs
    next hopen =>
      cases hs
      simp only [Bool.and_eq_true, Bool.not_eq_true'] at hopen
      refine h.told rfl rfl rfl id (fun hg ↦ ?_) (zipIdx_snoc _ _) rfl
      rw [hopen.2] at hg
      cases hg
    next => cases hs
  | dropSenders =>
    cases hs
    exact h.told rfl rfl rfl id (fun _ ↦ ⟨rfl, rfl⟩) (List.append_nil _).symm
      (List.append_nil _).symm
  | cancel =>
    cases hs
    exact h.told rfl rfl rfl (fun _ ↦ rfl) (fun hg ↦ ⟨hg, rfl⟩) (List.append_nil _).symm
      (List.append_nil _).symm
  | connect => exact h.connect hs
  | cancelArm =>
    simp only [ActorState.step] at hs
    split at hs
    next hc =>
      cases hs
      simp only [Standing, hc.1] at h
      obtain ⟨done, hserving⟩ := h
      refine ⟨done, ?_, hserving.trace⟩
      have hdone : done <+: s.arrived.zipIdx := by
        rw [hserving.split, List.append_assoc]
        exact List.prefix_append ..
      rw [hserving.reason]
      exact .cancelled hc.2 hdone hserving.all
    next => cases hs
  | recv => exact h.recv hs
  | tryRecv => exact h.tryRecv hs
  | turn => exact h.turn hs
  | disconnect =>
    simp only [ActorState.step, ActorState.disconnect] at hs
    split at hs
    next result hphase =>
      cases hs
      simp only [Standing, hphase] at h
      obtain ⟨done, hexit, htrace⟩ := h
      refine ⟨done, hexit.mono id (fun hg ↦ ⟨hg, rfl⟩) (List.prefix_refl _), ?_⟩
      simp only [htrace]
    next => cases hs

theorem standing_of_reachable (h : (actor cfg limit).Reachable s) : Standing cfg s :=
  h.invariant ⟨rfl, rfl, rfl⟩ fun _ _ _ hs _ hstep ↦ hs.step hstep

private theorem dropLast_snoc_continue {done : List Mail} {mail : Mail}
    (hall : cfg.AllContinue done) : cfg.AllContinue (done ++ [mail]).dropLast := by
  rw [List.dropLast_concat]
  exact hall

private theorem AllContinue.dropLast {done : List Mail} (hall : cfg.AllContinue done) :
    cfg.AllContinue done.dropLast :=
  fun mail hmail ↦ hall mail (List.mem_of_mem_dropLast hmail)

/-- A loop that was left had handled the first messages, and only the last of them can have ended
it. -/
theorem Exit.handled {done : List Mail} {result : Option CloseReason} (h : Exit cfg s done result) :
    done <+: s.arrived.zipIdx ∧ cfg.AllContinue done.dropLast := by
  cases h with
  | connectPanicked => exact ⟨List.nil_prefix, by simp [ActorConfig.AllContinue]⟩
  | cancelled hcancel hdone hall => exact ⟨hdone, AllContinue.dropLast hall⟩
  | gone hgone hconnect hall => exact ⟨List.prefix_refl _, AllContinue.dropLast hall⟩
  | closed hconnect hdone hall hmail => exact ⟨hdone, dropLast_snoc_continue hall⟩
  | panicked hconnect hdone hall hmail => exact ⟨hdone, dropLast_snoc_continue hall⟩

theorem Serving.handled {batch done : List Mail} (h : Serving cfg s batch done) :
    done <+: s.arrived.zipIdx ∧ cfg.AllContinue done.dropLast := by
  refine ⟨?_, AllContinue.dropLast h.all⟩
  rw [h.split, List.append_assoc]
  exact List.prefix_append ..

/-- The invariant in four cases: before `on_connected`, in the loop, out of it, and done. -/
theorem Standing.cases (h : Standing cfg s) :
    (s.phase = .starting ∧ s.trace = []) ∨
    (∃ batch done, s.phase.opening = [.onConnected] ∧ s.phase.final = [] ∧
      Serving cfg s batch done) ∨
    (∃ done result, s.phase.opening = [.onConnected] ∧ s.phase.final = [] ∧
      Exit cfg s done result ∧ s.trace = .onConnected :: cfg.effects done) ∨
    (∃ done result, s.phase = .ended result ∧ Exit cfg s done result ∧
      s.trace = .onConnected :: cfg.effects done ++ [.onDisconnected (finalReason result)]) := by
  unfold Standing at h
  split at h
  next hphase => exact .inl ⟨hphase, h.1⟩
  next hphase =>
    obtain ⟨done, hserving⟩ := h
    exact .inr (.inl ⟨_, done, by rw [hphase]; rfl, by rw [hphase]; rfl, hserving⟩)
  next batch hphase =>
    obtain ⟨done, hserving⟩ := h
    exact .inr (.inl ⟨_, done, by rw [hphase]; rfl, by rw [hphase]; rfl, hserving⟩)
  next batch hphase =>
    obtain ⟨done, hserving⟩ := h
    exact .inr (.inl ⟨_, done, by rw [hphase]; rfl, by rw [hphase]; rfl, hserving⟩)
  next batch hphase =>
    obtain ⟨done, hexit, htrace⟩ := h
    exact .inr (.inr (.inl ⟨done, _, by rw [hphase]; rfl, by rw [hphase]; rfl, hexit, htrace⟩))
  next result hphase =>
    obtain ⟨done, hexit, htrace⟩ := h
    exact .inr (.inr (.inl ⟨done, _, by rw [hphase]; rfl, by rw [hphase]; rfl, hexit, htrace⟩))
  next result hphase =>
    obtain ⟨done, hexit, htrace⟩ := h
    exact .inr (.inr (.inr ⟨done, result, hphase, hexit, htrace⟩))

/-- The trace is what the first messages made the actor do, between the first and the last
callback. -/
theorem Standing.handled (h : Standing cfg s) :
    ∃ done, done <+: s.arrived.zipIdx ∧ cfg.AllContinue done.dropLast ∧
      s.trace = s.phase.opening ++ cfg.effects done ++ s.phase.final := by
  obtain ⟨hphase, htrace⟩ | ⟨batch, done, hopening, hfinal, hserving⟩ |
    ⟨done, result, hopening, hfinal, hexit, htrace⟩ | ⟨done, result, hphase, hexit, htrace⟩ :=
      h.cases
  · refine ⟨[], List.nil_prefix, by simp [ActorConfig.AllContinue], ?_⟩
    rw [htrace, hphase]
    rfl
  · refine ⟨done, hserving.handled.1, hserving.handled.2, ?_⟩
    rw [hopening, hfinal, hserving.trace, List.append_nil]
    rfl
  · refine ⟨done, hexit.handled.1, hexit.handled.2, ?_⟩
    rw [hopening, hfinal, htrace, List.append_nil]
    rfl
  · refine ⟨done, hexit.handled.1, hexit.handled.2, ?_⟩
    rw [htrace, hphase]
    rfl

theorem serve_append {done rest : List Mail} (hall : cfg.AllContinue done) :
    cfg.serve (done ++ rest) = cfg.effects done ++ cfg.serve rest := by
  induction done with
  | nil => rfl
  | cons mail done ih =>
    have hmail : (cfg.turn mail).outcome = .continued := hall mail List.mem_cons_self
    have hrest : cfg.AllContinue done := fun x hx ↦ hall x (List.mem_cons_of_mem _ hx)
    rw [List.cons_append, ActorConfig.serve, hmail]
    simp only
    rw [ih hrest, ← List.append_assoc]
    rfl

/-- Messages that do not end the loop are handled the same way however the rest is cut. -/
theorem Serving.follows {batch done : List Mail} (h : Serving cfg s batch done) :
    s.trace <+: cfg.oneAtATime s.arrived := by
  rw [h.trace, ActorConfig.oneAtATime, h.connect, h.split, List.append_assoc, serve_append h.all]
  exact ⟨_, rfl⟩

/-- A loop that was not left by cancellation was left where one message at a time leaves it. -/
theorem Exit.follows {done : List Mail} {result : Option CloseReason} (h : Exit cfg s done result)
    (hcancel : s.cancelled = false) :
    .onConnected :: cfg.effects done ++ [.onDisconnected (finalReason result)] =
      cfg.oneAtATime s.arrived := by
  -- The message that ends the loop is the last one that serving them in turn handles.
  have hlast : ∀ {done mail}, cfg.connectPanics = false → done ++ [mail] <+: s.arrived.zipIdx →
      cfg.AllContinue done → ∀ {tail}, (∀ rest, cfg.serve (mail :: rest) =
        (cfg.turn mail).effects ++ tail) →
          .onConnected :: cfg.effects (done ++ [mail]) ++ tail = cfg.oneAtATime s.arrived := by
    intro done mail hconnect hdone hall tail hserve
    obtain ⟨rest, hrest⟩ := hdone
    rw [ActorConfig.oneAtATime, hconnect, ← hrest, List.append_assoc, serve_append hall,
      List.singleton_append, hserve]
    simp
  cases h with
  | connectPanicked hconnect => simp [ActorConfig.oneAtATime, hconnect, ActorConfig.effects]
  | cancelled hc hdone hall =>
    rw [hcancel] at hc
    cases hc
  | gone hgone hconnect hall =>
    have hserve : cfg.serve (s.arrived.zipIdx ++ []) = _ := serve_append hall
    rw [List.append_nil] at hserve
    rw [ActorConfig.oneAtATime, hconnect, hserve]
    rfl
  | closed hconnect hdone hall hmail =>
    refine hlast hconnect hdone hall fun rest ↦ ?_
    rw [ActorConfig.serve, hmail]
    rfl
  | panicked hconnect hdone hall hmail =>
    exact hlast hconnect hdone hall fun rest ↦ by rw [ActorConfig.serve, hmail]

/-- Without cancellation the trace is a front of what one message at a time gives, and all of it
once the actor has ended. -/
theorem Standing.follows (h : Standing cfg s) (hcancel : s.cancelled = false) :
    s.trace <+: cfg.oneAtATime s.arrived ∧
      (s.phase.final ≠ [] → s.trace = cfg.oneAtATime s.arrived) := by
  obtain ⟨hphase, htrace⟩ | ⟨batch, done, hopening, hfinal, hserving⟩ |
    ⟨done, result, hopening, hfinal, hexit, htrace⟩ | ⟨done, result, hphase, hexit, htrace⟩ :=
      h.cases
  · rw [htrace, hphase]
    exact ⟨List.nil_prefix, fun hne ↦ absurd rfl hne⟩
  · exact ⟨hserving.follows, fun hne ↦ absurd hfinal hne⟩
  · rw [htrace]
    exact ⟨⟨_, hexit.follows hcancel⟩, fun hne ↦ absurd hfinal hne⟩
  · have hall := htrace.trans (hexit.follows hcancel)
    rw [hall]
    exact ⟨List.prefix_refl _, fun _ ↦ rfl⟩

-- What a message makes the actor do is never the first or the last callback.
private theorem handle_effects (answer : Answer) (message : ActorMessage) (effect : Effect)
    (h : effect ∈ (handle cfg answer message).effects) :
    effect ≠ .onConnected ∧ ∀ reason, effect ≠ .onDisconnected reason := by
  unfold handle handlePacket Answer.callback Turn.quiet at h
  split at h
  next packet =>
    split at h
    next =>
      split at h
      next =>
        split at h
        next token => simp_all
        next => simp_all
      next => simp_all
    next => simp_all
  all_goals simp_all

/-- An actor that has not ended goes on, unless it waits and there is nothing to wake it. -/
theorem ActorState.progress (cfg : ActorConfig) (limit : Nat) (s : ActorState)
    (hend : s.phase.final = [])
    (hwait : s.phase = .waiting → s.mailbox ≠ [] ∨ s.sendersGone = true ∨ s.cancelled = true) :
    ∃ l, l.own = true ∧ (s.step cfg limit l).isSome = true := by
  cases hphase : s.phase with
  | starting =>
    refine ⟨.connect, rfl, ?_⟩
    simp [ActorState.step, ActorState.connect, hphase]
  | waiting =>
    cases hmailbox : s.mailbox with
    | cons mail rest =>
      refine ⟨.recv, rfl, ?_⟩
      simp [ActorState.step, ActorState.recv, hphase, hmailbox]
    | nil =>
      obtain hne | hgone | hcancel := hwait hphase
      · exact absurd hmailbox hne
      · refine ⟨.recv, rfl, ?_⟩
        simp [ActorState.step, ActorState.recv, hphase, hmailbox, hgone]
      · refine ⟨.cancelArm, rfl, ?_⟩
        simp [ActorState.step, hphase, hcancel]
  | draining batch =>
    refine ⟨.tryRecv, rfl, ?_⟩
    simp only [ActorState.step, ActorState.tryRecv, hphase]
    split
    · split
      · rfl
      · rfl
    · rfl
  | processing batch shouldBreak =>
    refine ⟨.turn, rfl, ?_⟩
    cases batch with
    | nil => simp [ActorState.step, ActorState.turn, hphase]
    | cons mail rest =>
      cases shouldBreak with
      | true => simp [ActorState.step, ActorState.turn, hphase]
      | false => simp [ActorState.step, ActorState.turn, hphase]
  | leaving result =>
    refine ⟨.disconnect, rfl, ?_⟩
    simp [ActorState.step, ActorState.disconnect, hphase]
  | ended result =>
    rw [hphase] at hend
    cases hend

end Step

/-- The callback trace of a session, for every number of messages in a batch and in every reachable
state. It is `on_connected`, then what the first messages of the mailbox make the actor do, in
order, then, once the actor has ended, `on_disconnected`, and neither of the two in between. Only
the last of the handled messages can be a close, so none behind a close has an effect. An actor
that has not ended takes its next step unless it waits with nothing to wake it. And unless the
session is cancelled the trace does not depend on the batches: it is what one message at a time
gives, up to where the actor is. -/
theorem session_actor_trace (cfg : ActorConfig) (limit : Nat) (s : ActorState)
    (h : (actor cfg limit).Reachable s) :
    (∃ done, done <+: s.arrived.zipIdx ∧ cfg.AllContinue done.dropLast ∧
      s.trace = s.phase.opening ++ cfg.effects done ++ s.phase.final ∧
      ∀ effect ∈ cfg.effects done,
        effect ≠ .onConnected ∧ ∀ reason, effect ≠ .onDisconnected reason) ∧
    (s.phase.final = [] →
      (s.phase = .waiting → s.mailbox ≠ [] ∨ s.sendersGone = true ∨ s.cancelled = true) →
        ∃ l, l.own = true ∧ ((actor cfg limit).step s l).isSome = true) ∧
    (s.cancelled = false → s.trace <+: cfg.oneAtATime s.arrived ∧
      (s.phase.final ≠ [] → s.trace = cfg.oneAtATime s.arrived)) := by
  have hstanding := standing_of_reachable h
  obtain ⟨done, hdone, hall, htrace⟩ := hstanding.handled
  refine ⟨⟨done, hdone, hall, htrace, fun effect heffect ↦ ?_⟩, s.progress cfg limit,
    hstanding.follows⟩
  obtain ⟨mail, -, hmail⟩ := List.mem_flatMap.mp heffect
  exact handle_effects _ _ _ hmail

/-- An actor whose registry refuses the second request and whose handler never panics. -/
def smallActor : ActorConfig where
  inboundRegistry := true
  connectPanics := false
  answer n := {
    token := if n = 0 then some ⟨some 1, 7, .inbound, 0⟩ else none
    panics := false
    result := .ok () }

/-- Two requests with one id, a close and a command behind it, in a batch of three. -/
def smallMailbox : List ActorLabel :=
  let request := Packet.request 7 [1]
  [.connect, .arrive (.inboundEvent (.data (.messageReceived request))),
    .arrive (.inboundEvent (.data (.messageReceived request))),
    .arrive (.inboundEvent (.connectionClosed .timeout)), .arrive (.sendWithReply request 0),
    .recv, .tryRecv, .tryRecv, .tryRecv, .turn, .turn, .turn, .turn, .disconnect]

theorem session_actor_trace_of_close :
    ∃ s, (actor smallActor 3).run .new smallMailbox = some s ∧
      s.trace = [.onConnected, .onRequest (Packet.request 7 [1]) ⟨some 1, 7, .inbound, 0⟩,
        .refused (Packet.request 7 [1]), .onDisconnected .timeout] ∧
      s.trace = smallActor.oneAtATime s.arrived := by
  have hrun : ((actor smallActor 3).run .new smallMailbox).isSome = true := by decide
  obtain ⟨s, hs⟩ := Option.isSome_iff_exists.mp hrun
  have hall := session_actor_trace smallActor 3 s (.of_run .start hs)
  cases hs
  exact ⟨_, rfl, rfl, (hall.2.2 rfl).2 (by simp [ActorPhase.final])⟩

end MsgTrans.Transport
