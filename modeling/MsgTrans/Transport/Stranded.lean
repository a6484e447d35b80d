import MsgTrans.Base.Custody
import MsgTrans.Transport.Mailbox

/-!
# Callers that a session leaves behind

Results on the callers of `Transport.Mailbox`. A reply channel is answered once at most. When the
actor has left its loop, a caller that still waits gets its reply or an error at its next poll,
unless its command is left in the mailbox: then it waits for good, because the handle that keeps the
command is its own.
-/

namespace MsgTrans.Transport

open MsgTrans.Wire MsgTrans.Adapters MsgTrans.Base

@[simp] theorem commands_nil : commands [] = [] := rfl

@[simp] theorem commands_append (mails mails' : List Mail) :
    commands (mails ++ mails') = commands mails ++ commands mails' := List.filterMap_append

theorem commands_singleton (mail : Mail) : commands [mail] = mail.1.reply?.toList := by
  rw [commands, List.filterMap_cons]
  cases mail.1.reply? <;> rfl

theorem commands_cons (mail : Mail) (mails : List Mail) :
    commands (mail :: mails) = mail.1.reply?.toList ++ commands mails := by
  rw [← List.singleton_append, commands_append, commands_singleton]

/-- A batch goes with the loop that works it off. -/
theorem ActorPhase.batch_eq_nil {phase : ActorPhase} (h : phase.receiving = false) :
    phase.batch = [] := by
  cases phase <;> first | rfl | cases h

section Actor

variable {cfg : ActorConfig} {limit : Nat} {s s' : ActorState}

/-- A handled command is answered, and nothing else. -/
theorem handle_replies (answer : Answer) (message : ActorMessage) :
    (handle cfg answer message).replies.map Prod.fst = message.reply?.toList := by
  cases message with
  | send packet => rfl
  | sendWithReply packet reply => rfl
  | inboundEvent event =>
    cases event with
    | connectionClosed reason => rfl
    | data event =>
      cases event with
      | connectionEstablished => rfl
      | messageSent packetId => rfl
      | transportError error => rfl
      | messageReceived packet =>
        show (handlePacket cfg answer packet).replies.map Prod.fst = []
        unfold handlePacket
        split
        · split
          · split <;> rfl
          · rfl
        · rfl

/-- So is a command behind a close. -/
theorem skip_replies (message : ActorMessage) :
    (skip message).map Prod.fst = message.reply?.toList := by
  cases message <;> rfl

/-- How often a reply channel is owed an answer or has got one. -/
def ActorState.traced (s : ActorState) (n : Nat) : Nat :=
  s.owed.count n + (s.replies.map Prod.fst).count n

/-- What the actor takes off a channel's account it pays out, or drops. -/
structure ActorState.Pays (s s' : ActorState) : Prop where
  traced (n : Nat) : s'.traced n ≤ s.traced n
  senders : s'.sendersGone = s.sendersGone
  after : s.phase.receiving = false →
    s'.phase.receiving = false ∧ s'.mailbox = s.mailbox ∧ s'.replies = s.replies

theorem ActorState.Pays.of_owed (howed : s'.owed = s.owed) (hreplies : s'.replies = s.replies)
    (hsenders : s'.sendersGone = s.sendersGone) (hreceiving : s.phase.receiving = true) :
    s.Pays s' where
  traced n := by rw [ActorState.traced, ActorState.traced, howed, hreplies]
  senders := hsenders
  after h := absurd hreceiving (Bool.eq_false_iff.mp h)

theorem ActorState.owed_eq {phase : ActorPhase} (h : s.phase = phase) :
    s.owed = commands phase.batch ++ commands s.mailbox := by
  rw [ActorState.owed, commands_append, h]

theorem ActorState.connect_pays (h : s.connect cfg = some s') : s.Pays s' := by
  unfold ActorState.connect at h
  split at h
  next hphase =>
    cases h
    refine .of_owed ?_ rfl rfl (by rw [hphase]; rfl)
    rw [ActorState.owed_eq rfl, ActorState.owed_eq hphase]
    dsimp only
    split <;> rfl
  next => cases h

theorem ActorState.recv_pays (h : s.recv = some s') : s.Pays s' := by
  unfold ActorState.recv at h
  split at h
  next mail rest hphase hmailbox =>
    cases h
    refine .of_owed ?_ rfl rfl (by rw [hphase]; rfl)
    rw [ActorState.owed_eq rfl, ActorState.owed_eq hphase, hmailbox, commands_cons mail rest,
      ← commands_singleton]
    rfl
  next hphase hmailbox =>
    obtain ⟨-, heq⟩ := Option.ite_none_right_eq_some.mp h
    cases heq
    refine .of_owed ?_ rfl rfl (by rw [hphase]; rfl)
    rw [ActorState.owed_eq rfl, ActorState.owed_eq hphase]
    rfl
  next => cases h

theorem ActorState.tryRecv_pays (h : s.tryRecv limit = some s') : s.Pays s' := by
  unfold ActorState.tryRecv at h
  split at h
  next batch hphase =>
    have hreceiving : s.phase.receiving = true := by rw [hphase]; rfl
    have hsame : { s with phase := .processing batch false : ActorState }.owed = s.owed := by
      rw [ActorState.owed_eq rfl, ActorState.owed_eq hphase]
      rfl
    split at h
    · split at h
      next mail rest hmailbox =>
        cases h
        refine .of_owed ?_ rfl rfl hreceiving
        rw [ActorState.owed, ActorState.owed, hphase, hmailbox]
        show commands (batch ++ [mail] ++ rest) = commands (batch ++ mail :: rest)
        rw [List.append_assoc, List.singleton_append]
      next =>
        cases h
        exact .of_owed hsame rfl rfl hreceiving
    · cases h
      exact .of_owed hsame rfl rfl hreceiving
  next => cases h

theorem ActorState.turn_pays (h : s.turn cfg = some s') : s.Pays s' := by
  unfold ActorState.turn at h
  split at h
  next shouldBreak hphase =>
    cases h
    refine .of_owed ?_ rfl rfl (by rw [hphase]; rfl)
    rw [ActorState.owed_eq rfl, ActorState.owed_eq hphase]
    dsimp only
    split <;> rfl
  next mail rest hphase =>
    cases h
    have hreceiving : s.phase.receiving = true := by rw [hphase]; rfl
    refine ⟨fun n ↦ ?_, rfl, fun h ↦ absurd hreceiving (Bool.eq_false_iff.mp h)⟩
    rw [ActorState.traced, ActorState.traced, ActorState.owed_eq rfl, ActorState.owed_eq hphase]
    simp only [ActorPhase.batch, commands_cons, List.map_append, skip_replies, List.count_append]
    omega
  next mail rest hphase =>
    cases h
    have hreceiving : s.phase.receiving = true := by rw [hphase]; rfl
    refine ⟨fun n ↦ ?_, rfl, fun h ↦ absurd hreceiving (Bool.eq_false_iff.mp h)⟩
    have hreplies : (cfg.turn mail).replies.map Prod.fst = mail.1.reply?.toList :=
      handle_replies _ _
    rw [ActorState.traced, ActorState.traced, ActorState.owed_eq rfl, ActorState.owed_eq hphase]
    simp only [List.map_append, hreplies, List.count_append]
    cases (cfg.turn mail).outcome <;>
      simp only [ActorPhase.batch, commands_cons, commands_nil, List.count_append,
        List.count_nil] <;> omega
  next => cases h

theorem ActorState.disconnect_pays (h : s.disconnect = some s') : s.Pays s' := by
  unfold ActorState.disconnect at h
  split at h
  next result hphase =>
    cases h
    refine ⟨fun n ↦ ?_, rfl, fun _ ↦ ⟨rfl, rfl, rfl⟩⟩
    rw [ActorState.traced, ActorState.traced, ActorState.owed_eq rfl, ActorState.owed_eq hphase]
    exact Nat.le_refl _
  next => cases h

theorem ActorState.own_pays {l : ActorLabel} (hown : l.own = true)
    (h : s.step cfg limit l = some s') : s.Pays s' := by
  cases l with
  | arrive message => cases hown
  | dropSenders => cases hown
  | cancel => cases hown
  | connect => exact connect_pays h
  | cancelArm =>
    obtain ⟨⟨hphase, -⟩, heq⟩ := Option.ite_none_right_eq_some.mp h
    cases heq
    refine .of_owed ?_ rfl rfl (by rw [hphase]; rfl)
    rw [ActorState.owed_eq rfl, ActorState.owed_eq hphase]
    rfl
  | recv => exact recv_pays h
  | tryRecv => exact tryRecv_pays h
  | turn => exact turn_pays h
  | disconnect => exact disconnect_pays h

/-- A message that enters the mailbox. -/
theorem ActorState.arrive_eq {message : ActorMessage} (h : s.arrive message = some s') :
    s.phase.receiving = true ∧ s'.phase = s.phase ∧ s'.replies = s.replies ∧
      s'.sendersGone = s.sendersGone ∧ s'.owed = s.owed ++ message.reply?.toList := by
  obtain ⟨hboth, heq⟩ := Option.ite_none_right_eq_some.mp h
  cases heq
  refine ⟨(Bool.and_eq_true_iff.mp hboth).1, rfl, rfl, rfl, ?_⟩
  rw [ActorState.owed, ActorState.owed, ← List.append_assoc, commands_append, commands_singleton]

end Actor

section Callers

variable {cfg : ActorConfig} {limit capacity : Nat} {s s' : MailboxState} {n : Nat}
  {caller : Caller}

/-- The command of the caller has been in the mailbox, as far as its phase tells. -/
def CallerPhase.entered : CallerPhase → Bool
  | .awaiting | .done _ | .cancelled => true
  | _ => false

/-- What is so in every state of a session and its callers. -/
structure MailboxState.Sound (s : MailboxState) : Prop where
  once (n : Nat) : s.actor.traced n ≤ 1
  origin (n : Nat) : s.actor.traced n ≠ 0 →
    ∃ caller, s.callers[n]? = some caller ∧ caller.phase.entered = true
  gone : s.actor.sendersGone = true → s.Deserted

namespace MailboxState

theorem sound_new : new.Sound where
  once := fun _ ↦ Nat.zero_le _
  origin := fun _ h ↦ absurd rfl h
  gone := by rintro ⟨⟩

/-- A step of one caller by which nobody gets a handle. -/
theorem Sound.enter (h : s.Sound) (registered : Bool) (phase : CallerPhase)
    (hcaller : s.callers[n]? = some caller) (hregistered : registered = true → s.registered = true)
    (hentered : caller.phase.entered = true → phase.entered = true)
    (hholds : s.Deserted → phase.holds = false) :
    ({ s with registered }.enter n caller phase).Sound := by
  constructor
  · exact h.once
  · intro m hm
    obtain ⟨other, hother, hent⟩ := h.origin m hm
    show ∃ caller', (s.callers.set n _)[m]? = some caller' ∧ _
    rw [getElem?_set_of_some hcaller]
    split
    next heq =>
      subst heq
      rw [hcaller] at hother
      cases hother
      exact ⟨_, rfl, hentered hent⟩
    next => exact ⟨other, hother, hent⟩
  · intro hgone
    have hdeserted := h.gone hgone
    refine ⟨?_, hdeserted.2.1, fun other hother ↦ ?_⟩
    · by_contra htrue
      have hmap := hregistered (Bool.eq_true_of_not_eq_false htrue)
      exact absurd hmap (Bool.eq_false_iff.mp hdeserted.1)
    · obtain hold | rfl := List.mem_or_eq_of_mem_set hother
      · exact hdeserted.2.2 other hold
      · exact hholds hdeserted

/-- A caller that returns is done, and may have taken the session out of the map. -/
theorem finish_eq (s : MailboxState) (n : Nat) (caller : Caller)
    (result : Except TransportError Unit) : ∃ registered told,
      (registered = true → s.registered = true) ∧
        s.finish n caller result = { s with registered }.enter n caller (.done told) := by
  cases result with
  | ok => exact ⟨s.registered, .ok (), id, rfl⟩
  | error e =>
    by_cases hdead : isConnectionDead e = true
    · exact ⟨false, _, fun hno ↦ absurd hno Bool.false_ne_true, if_pos hdead⟩
    · exact ⟨s.registered, _, id, if_neg hdead⟩

/-- A caller that returns gives up its handle. -/
theorem Sound.finish (h : s.Sound) (hcaller : s.callers[n]? = some caller)
    (result : Except TransportError Unit) : (s.finish n caller result).Sound := by
  obtain ⟨registered, told, hregistered, heq⟩ := s.finish_eq n caller result
  rw [heq]
  exact h.enter registered (.done told) hcaller hregistered (fun _ ↦ rfl) (fun _ ↦ rfl)

/-- The command of a caller that has not entered yet enters the mailbox. -/
theorem Sound.push (h : s.Sound) (hcaller : s.callers[n]? = some caller)
    (hholds : caller.phase.holds = true) (hentered : caller.phase.entered = false)
    (hstep : s.push n caller = some s') : s'.Sound := by
  obtain ⟨actor, harrive, rfl⟩ := Option.map_eq_some_iff.mp hstep
  obtain ⟨-, -, hreplies, hsenders, howed⟩ := ActorState.arrive_eq harrive
  have htraced : ∀ m, actor.traced m = s.actor.traced m + if m = n then 1 else 0 := by
    intro m
    rw [ActorState.traced, ActorState.traced, howed, hreplies, List.count_append]
    show _ + [n].count m + _ = _
    rw [List.count_singleton]
    simp only [beq_iff_eq, eq_comm (a := n)]
    omega
  have hzero : s.actor.traced n = 0 := by
    by_contra hne
    obtain ⟨other, hother, hent⟩ := h.origin n hne
    rw [hcaller] at hother
    cases hother
    rw [hentered] at hent
    cases hent
  constructor
  · intro m
    have honce := h.once m
    show actor.traced m ≤ 1
    rw [htraced]
    split
    next heq =>
      subst heq
      omega
    next => exact honce
  · intro m hm
    show ∃ caller', (s.callers.set n _)[m]? = some caller' ∧ _
    rw [getElem?_set_of_some hcaller]
    split
    next => exact ⟨_, rfl, rfl⟩
    next hne =>
      have hsame : actor.traced m = s.actor.traced m := by rw [htraced, if_neg hne, Nat.add_zero]
      exact h.origin m (hsame ▸ hm)
  · intro hgone
    have hdeserted := h.gone (hsenders ▸ hgone)
    have hnone := hdeserted.2.2 caller (List.mem_of_getElem? hcaller)
    exact absurd hholds (Bool.eq_false_iff.mp hnone)

/-- A step of the actor, or an arrival that asks for no reply. -/
theorem Sound.actor (h : s.Sound) {actor : ActorState}
    (htraced : ∀ n, actor.traced n ≤ s.actor.traced n)
    (hsenders : actor.sendersGone = s.actor.sendersGone) : { s with actor }.Sound where
  once n := (htraced n).trans (h.once n)
  origin n hn := h.origin n fun hzero ↦ hn (Nat.le_zero.mp (hzero ▸ htraced n))
  gone hgone := h.gone (hsenders.symm.trans hgone)

theorem onCaller_eq {phase : CallerPhase} {f : Nat → Caller → Option MailboxState}
    (h : s.onCaller n phase f = some s') :
    ∃ caller, s.callers[n]? = some caller ∧ caller.phase = phase ∧ f n caller = some s' := by
  obtain ⟨caller, hfilter, hf⟩ := Option.bind_eq_some_iff.mp h
  obtain ⟨hcaller, hphase⟩ := Option.filter_eq_some_iff.mp hfilter
  exact ⟨caller, hcaller, of_decide_eq_true hphase, hf⟩

theorem learn_eq (h : s.learn n caller = some s') :
    ∃ result, s' = s.finish n caller result := by
  unfold MailboxState.learn at h
  split at h
  next result _ => exact ⟨result, (Option.some.inj h).symm⟩
  next =>
    split at h
    next => cases h
    next => exact ⟨_, (Option.some.inj h).symm⟩

/-- Every step keeps all this. -/
theorem Sound.step (h : s.Sound) {l : MailboxLabel}
    (hstep : s.step cfg limit capacity l = some s') : s'.Sound := by
  cases l with
  | call packet =>
    cases hstep
    constructor
    · exact h.once
    · intro m hm
      obtain ⟨other, hother, hent⟩ := h.origin m hm
      refine ⟨other, ?_, hent⟩
      rw [List.getElem?_append_left (List.getElem?_eq_some_iff.mp hother).1]
      exact hother
    · intro hgone
      obtain ⟨hmap, hpump, hcallers⟩ := h.gone hgone
      refine ⟨hmap, hpump, fun caller hcaller ↦ ?_⟩
      obtain hold | hnew := List.mem_append.mp hcaller
      · exact hcallers caller hold
      · rw [List.mem_singleton.mp hnew]
        rfl
  | look n =>
    obtain ⟨caller, hcaller, hphase, hlook⟩ := onCaller_eq hstep
    cases hlook
    refine h.enter s.registered _ hcaller id ?_ fun hdeserted ↦ ?_
    · rw [hphase]
      rintro ⟨⟩
    · rw [hdeserted.1]
      rfl
  | offer n =>
    obtain ⟨caller, hcaller, hphase, hoffer⟩ := onCaller_eq hstep
    have hholds : caller.phase.holds = true := by rw [hphase]; rfl
    unfold MailboxState.offer at hoffer
    split at hoffer
    · split at hoffer
      · exact h.push hcaller hholds (by rw [hphase]; rfl) hoffer
      · cases hoffer
        refine h.enter s.registered .parked hcaller id ?_ fun hdeserted ↦ ?_
        · rw [hphase]
          rintro ⟨⟩
        · have hnone := hdeserted.2.2 caller (List.mem_of_getElem? hcaller)
          exact absurd hholds (Bool.eq_false_iff.mp hnone)
    · cases hoffer
      exact h.finish hcaller _
  | grant n =>
    obtain ⟨caller, hcaller, hphase, hgrant⟩ := onCaller_eq hstep
    obtain ⟨-, hpush⟩ := Option.ite_none_right_eq_some.mp hgrant
    exact h.push hcaller (by rw [hphase]; rfl) (by rw [hphase]; rfl) hpush
  | expire n =>
    obtain ⟨caller, hcaller, -, hexpire⟩ := onCaller_eq hstep
    cases hexpire
    exact h.finish hcaller _
  | hangUp n =>
    obtain ⟨caller, hcaller, -, hhang⟩ := onCaller_eq hstep
    obtain ⟨-, heq⟩ := Option.ite_none_left_eq_some.mp hhang
    cases heq
    exact h.finish hcaller _
  | learn n =>
    obtain ⟨caller, hcaller, -, hlearn⟩ := onCaller_eq hstep
    obtain ⟨result, rfl⟩ := learn_eq hlearn
    exact h.finish hcaller result
  | cancelCall n =>
    obtain ⟨caller, hfilter, rfl⟩ := Option.map_eq_some_iff.mp hstep
    obtain ⟨hcaller, -⟩ := Option.filter_eq_some_iff.mp hfilter
    exact h.enter s.registered .cancelled hcaller id (fun _ ↦ rfl) (fun _ ↦ rfl)
  | post message =>
    obtain ⟨⟨hreply, -⟩, hmap⟩ := Option.ite_none_right_eq_some.mp hstep
    obtain ⟨actor, harrive, rfl⟩ := Option.map_eq_some_iff.mp hmap
    obtain ⟨-, -, hreplies, hsenders, howed⟩ := ActorState.arrive_eq harrive
    refine h.actor (fun n ↦ Nat.le_of_eq ?_) hsenders
    rw [ActorState.traced, ActorState.traced, howed, hreplies, hreply, Option.toList_none,
      List.append_nil]
  | act label =>
    obtain ⟨hown, hmap⟩ := Option.ite_none_right_eq_some.mp hstep
    obtain ⟨actor, hactor, rfl⟩ := Option.map_eq_some_iff.mp hmap
    have hpays := ActorState.own_pays hown hactor
    exact h.actor hpays.traced hpays.senders
  | cancelSession =>
    cases hstep
    exact h.actor (fun n ↦ Nat.le_refl _) rfl
  | endPump =>
    cases hstep
    exact ⟨h.once, h.origin, fun hgone ↦ ⟨(h.gone hgone).1, rfl, (h.gone hgone).2.2⟩⟩
  | remove =>
    cases hstep
    exact ⟨h.once, h.origin, fun hgone ↦ ⟨rfl, (h.gone hgone).2⟩⟩
  | dropSenders =>
    obtain ⟨hdeserted, heq⟩ := Option.ite_none_right_eq_some.mp hstep
    cases heq
    have hless : ∀ n, ActorState.traced { s.actor with
        sendersGone := true
        mailbox := if s.actor.phase.receiving then s.actor.mailbox else [] } n ≤
          s.actor.traced n := by
      intro n
      rw [ActorState.traced, ActorState.traced, ActorState.owed_eq rfl, ActorState.owed_eq rfl]
      simp only [List.count_append]
      split
      · exact Nat.le_refl _
      · rw [commands_nil, List.count_nil]
        omega
    exact ⟨fun n ↦ (hless n).trans (h.once n),
      fun n hn ↦ h.origin n fun hzero ↦ hn (Nat.le_zero.mp (hzero ▸ hless n)), fun _ ↦ hdeserted⟩

theorem sound_reachable (h : (mailbox cfg limit capacity).Reachable s) : s.Sound :=
  h.invariant sound_new fun _ _ _ hs _ hstep ↦ hs.step hstep

/-- The caller waits for its reply. -/
def Awaits (s : MailboxState) (n : Nat) : Prop :=
  ∃ caller, s.callers[n]? = some caller ∧ caller.phase = .awaiting

/-- The caller waits for the reply to a command that nobody will receive. -/
structure Stranded (s : MailboxState) (n : Nat) : Prop where
  awaits : s.Awaits n
  ended : s.actor.phase.receiving = false
  left : n ∈ commands s.actor.mailbox

theorem Awaits.ne {m : Nat} (h : s.Awaits n) {other : Caller} (hother : s.callers[m]? = some other)
    (hphase : other.phase ≠ .awaiting) : m ≠ n := by
  rintro rfl
  obtain ⟨caller, hcaller, hawaiting⟩ := h
  rw [hcaller] at hother
  cases hother
  exact hphase hawaiting

/-- Steps of other callers leave a caller where it is. -/
theorem Stranded.enter {m : Nat} (h : s.Stranded n) {other : Caller}
    (hother : s.callers[m]? = some other) (hne : m ≠ n) (registered : Bool) (phase : CallerPhase) :
    ({ s with registered }.enter m other phase).Stranded n := by
  obtain ⟨caller, hcaller, hawaiting⟩ := h.awaits
  refine ⟨⟨caller, ?_, hawaiting⟩, h.ended, h.left⟩
  show (s.callers.set m _)[n]? = some caller
  rw [getElem?_set_of_some hother, if_neg (Ne.symm hne)]
  exact hcaller

theorem Stranded.finish {m : Nat} (h : s.Stranded n) {other : Caller}
    (hother : s.callers[m]? = some other) (hne : m ≠ n) (result : Except TransportError Unit) :
    (s.finish m other result).Stranded n := by
  obtain ⟨registered, told, -, heq⟩ := s.finish_eq m other result
  rw [heq]
  exact h.enter hother hne registered (.done told)

/-- A mailbox without a receiver takes nothing. -/
theorem Stranded.closed (h : s.Stranded n) (message : ActorMessage) :
    s.actor.arrive message = none := by
  unfold ActorState.arrive
  rw [h.ended, Bool.false_and]
  rfl

theorem Stranded.not_push (h : s.Stranded n) {m : Nat} {other : Caller} :
    s.push m other = none := by
  rw [MailboxState.push, h.closed]
  rfl

/-- A command that is left in the mailbox has not been answered. -/
theorem Stranded.not_learn (h : s.Stranded n) (hs : s.Sound) : s.learn n caller = none := by
  have howed : n ∈ s.actor.owed := by
    rw [ActorState.owed, commands_append]
    exact List.mem_append_right _ h.left
  have honce := hs.once n
  have hpos := List.count_pos_iff.mpr howed
  unfold ActorState.traced at honce
  have hnone : s.actor.replies.lookup n = none := by
    rw [List.lookup_eq_none_iff]
    rintro ⟨m, result⟩ hmem
    rw [bne_iff_ne]
    rintro rfl
    have hreplied := List.count_pos_iff.mpr (List.mem_map_of_mem (f := Prod.fst) hmem)
    dsimp only at hreplied
    omega
  unfold MailboxState.learn
  rw [hnone]
  exact if_pos howed

/-- Nothing but its own cancellation ends the wait of a caller that is left behind: its own handle
keeps the mailbox, and nobody reads it. -/
theorem Stranded.step (h : s.Stranded n) (hs : s.Sound) {l : MailboxLabel}
    (hl : l ≠ .cancelCall n) (hstep : s.step cfg limit capacity l = some s') : s'.Stranded n := by
  cases l with
  | call packet =>
    cases hstep
    obtain ⟨caller, hcaller, hawaiting⟩ := h.awaits
    refine ⟨⟨caller, ?_, hawaiting⟩, h.ended, h.left⟩
    rw [List.getElem?_append_left (List.getElem?_eq_some_iff.mp hcaller).1]
    exact hcaller
  | look m =>
    obtain ⟨other, hother, hphase, hlook⟩ := onCaller_eq hstep
    cases hlook
    exact h.enter hother (h.awaits.ne hother (by rw [hphase]; rintro ⟨⟩)) s.registered _
  | offer m =>
    obtain ⟨other, hother, hphase, hoffer⟩ := onCaller_eq hstep
    unfold MailboxState.offer at hoffer
    rw [h.ended, if_neg Bool.false_ne_true] at hoffer
    cases hoffer
    exact h.finish hother (h.awaits.ne hother (by rw [hphase]; rintro ⟨⟩)) _
  | grant m =>
    obtain ⟨other, -, -, hgrant⟩ := onCaller_eq hstep
    obtain ⟨-, hpush⟩ := Option.ite_none_right_eq_some.mp hgrant
    rw [h.not_push] at hpush
    cases hpush
  | expire m =>
    obtain ⟨other, hother, hphase, hexpire⟩ := onCaller_eq hstep
    cases hexpire
    exact h.finish hother (h.awaits.ne hother (by rw [hphase]; rintro ⟨⟩)) _
  | hangUp m =>
    obtain ⟨other, hother, hphase, hhang⟩ := onCaller_eq hstep
    obtain ⟨-, heq⟩ := Option.ite_none_left_eq_some.mp hhang
    cases heq
    exact h.finish hother (h.awaits.ne hother (by rw [hphase]; rintro ⟨⟩)) _
  | learn m =>
    obtain ⟨other, hother, -, hlearn⟩ := onCaller_eq hstep
    have hne : m ≠ n := by
      rintro rfl
      rw [h.not_learn hs] at hlearn
      cases hlearn
    obtain ⟨result, rfl⟩ := learn_eq hlearn
    exact h.finish hother hne result
  | cancelCall m =>
    obtain ⟨other, hfilter, rfl⟩ := Option.map_eq_some_iff.mp hstep
    obtain ⟨hother, -⟩ := Option.filter_eq_some_iff.mp hfilter
    exact h.enter hother (fun heq ↦ hl (congrArg _ heq)) s.registered .cancelled
  | post message =>
    obtain ⟨-, hmap⟩ := Option.ite_none_right_eq_some.mp hstep
    rw [h.closed] at hmap
    cases hmap
  | act label =>
    obtain ⟨hown, hmap⟩ := Option.ite_none_right_eq_some.mp hstep
    obtain ⟨actor, hactor, rfl⟩ := Option.map_eq_some_iff.mp hmap
    obtain ⟨hended, hmailbox, -⟩ := (ActorState.own_pays hown hactor).after h.ended
    refine ⟨h.awaits, hended, ?_⟩
    show n ∈ commands actor.mailbox
    rw [hmailbox]
    exact h.left
  | cancelSession =>
    cases hstep
    exact ⟨h.awaits, h.ended, h.left⟩
  | endPump =>
    cases hstep
    exact ⟨h.awaits, h.ended, h.left⟩
  | remove =>
    cases hstep
    exact ⟨h.awaits, h.ended, h.left⟩
  | dropSenders =>
    obtain ⟨hdeserted, -⟩ := Option.ite_none_right_eq_some.mp hstep
    obtain ⟨caller, hcaller, hawaiting⟩ := h.awaits
    have hnone := hdeserted.2.2 caller (List.mem_of_getElem? hcaller)
    rw [hawaiting] at hnone
    cases hnone

theorem Stranded.run (h : s.Stranded n) (hs : s.Sound) {ls : List MailboxLabel}
    (hls : .cancelCall n ∉ ls) (hrun : (mailbox cfg limit capacity).run s ls = some s') :
    s'.Stranded n := by
  induction ls generalizing s with
  | nil =>
    cases hrun
    exact h
  | cons l ls ih =>
    obtain ⟨s'', hstep, hrest⟩ := Option.bind_eq_some_iff.mp hrun
    obtain ⟨hl, hls⟩ := not_or.mp (List.mem_cons.not.mp hls)
    exact ih (h.step hs (Ne.symm hl) hstep) (hs.step hstep) hls hrest

/-- A caller whose command is in no hands returns at its next step. -/
theorem exists_learn (cfg : ActorConfig) (limit capacity : Nat)
    (hcaller : s.callers[n]? = some caller) (hphase : caller.phase = .awaiting)
    (howed : n ∉ s.actor.owed) :
    ∃ s' told, (mailbox cfg limit capacity).run s [.learn n] = some s' ∧
      s'.callers[n]? = some { caller with phase := .done told } := by
  have hlearn : ∃ result, s.learn n caller = some (s.finish n caller result) := by
    unfold MailboxState.learn
    split
    next result _ => exact ⟨result, rfl⟩
    next => exact ⟨_, if_neg howed⟩
  obtain ⟨result, hlearn⟩ := hlearn
  obtain ⟨registered, told, -, heq⟩ := s.finish_eq n caller result
  have hstep : s.step cfg limit capacity (.learn n) = some (s.finish n caller result) := by
    show (s.callers[n]?.filter (·.phase = .awaiting)).bind (s.learn n) = _
    rw [hcaller, Option.filter_some, if_pos (decide_eq_true hphase), Option.bind_some, hlearn]
  refine ⟨s.finish n caller result, told, ?_, ?_⟩
  · rw [Machine.run, show (mailbox cfg limit capacity).step s (.learn n) = _ from hstep]
    rfl
  · rw [heq]
    show (s.callers.set n _)[n]? = _
    rw [getElem?_set_of_some hcaller, if_pos rfl]

end MailboxState

end Callers

/-- Once the actor of a session has left its loop, a caller that waits for the reply to a
write-confirmed send waits for good, whatever else happens short of its own cancellation, exactly
if its command is left in the mailbox; else it returns at its next step. In no state is a reply
channel answered twice. -/
theorem send_stranded_iff (cfg : ActorConfig) (limit capacity : Nat) {s : MailboxState}
    (h : (mailbox cfg limit capacity).Reachable s) {n : Nat} {caller : Caller}
    (hcaller : s.callers[n]? = some caller) (hphase : caller.phase = .awaiting)
    (hended : s.actor.phase.receiving = false) :
    (n ∈ commands s.actor.mailbox ↔ ∀ ls s', .cancelCall n ∉ ls →
      (mailbox cfg limit capacity).run s ls = some s' → s'.Awaits n) ∧
    (n ∉ commands s.actor.mailbox → ∃ s' told,
      (mailbox cfg limit capacity).run s [.learn n] = some s' ∧
        s'.callers[n]? = some { caller with phase := .done told }) ∧
    ∀ m, (s.actor.replies.map Prod.fst).count m ≤ 1 := by
  have hsound := MailboxState.sound_reachable h
  have howed : n ∉ commands s.actor.mailbox → n ∉ s.actor.owed := by
    intro hleft hmem
    rw [ActorState.owed, commands_append] at hmem
    obtain hbatch | hmailbox := List.mem_append.mp hmem
    · rw [ActorPhase.batch_eq_nil hended] at hbatch
      cases hbatch
    · exact hleft hmailbox
  refine ⟨⟨fun hleft ls s' hls hrun ↦ ?_, fun hwaits ↦ ?_⟩, fun hleft ↦ ?_, fun m ↦ ?_⟩
  · have hstranded : s.Stranded n := ⟨⟨caller, hcaller, hphase⟩, hended, hleft⟩
    exact (hstranded.run hsound hls hrun).awaits
  · by_contra hleft
    obtain ⟨s', told, hrun, hdone⟩ := MailboxState.exists_learn cfg limit capacity hcaller hphase
      (howed hleft)
    have hno : MailboxLabel.cancelCall n ∉ [MailboxLabel.learn n] := by
      rw [List.mem_singleton]
      rintro ⟨⟩
    obtain ⟨other, hother, hawaiting⟩ := hwaits _ s' hno hrun
    rw [hdone] at hother
    cases hother
    cases hawaiting
  · exact MailboxState.exists_learn cfg limit capacity hcaller hphase (howed hleft)
  · exact (Nat.le_add_left _ _).trans (hsound.once m)

/-- An actor whose handler never panics. -/
def calmActor : ActorConfig where
  inboundRegistry := true
  connectPanics := false
  answer _ := { token := none, panics := false, result := .ok () }

/-- A close is received in a batch of its own, and a command arrives behind it. Then the actor, the
pump and the supervisor end. -/
def lateCommand : List MailboxLabel :=
  [.act .connect, .post (.inboundEvent (.connectionClosed .normal)), .call (Packet.oneWay 1 []),
    .look 0, .act .recv, .act .tryRecv, .offer 0, .act .turn, .act .turn, .act .disconnect,
    .endPump, .remove]

theorem send_stranded_of_close :
    ∃ s, (mailbox calmActor batchSize 16).run .new lateCommand = some s ∧
    s.actor.phase = .ended (some .normal) ∧ s.registered = false ∧ s.pump = false ∧
    ∀ ls s', .cancelCall 0 ∉ ls → (mailbox calmActor batchSize 16).run s ls = some s' →
      s'.Awaits 0 := by
  have hrun : ((mailbox calmActor batchSize 16).run .new lateCommand).map (fun s ↦
      ((s.actor.phase, commands s.actor.mailbox), s.registered, s.pump, s.callers)) =
      some ((.ended (some .normal), [0]), false, false, [⟨Packet.oneWay 1 [], .awaiting⟩]) := rfl
  obtain ⟨s, hs, heq⟩ := Option.map_eq_some_iff.mp hrun
  obtain ⟨hactor, hrest⟩ := Prod.mk.inj heq
  obtain ⟨hphase, hmailbox⟩ := Prod.mk.inj hactor
  obtain ⟨hregistered, hrest⟩ := Prod.mk.inj hrest
  obtain ⟨hpump, hcallers⟩ := Prod.mk.inj hrest
  have hcaller : s.callers[0]? = some ⟨Packet.oneWay 1 [], .awaiting⟩ := by
    rw [hcallers]
    rfl
  have hended : s.actor.phase.receiving = false := by
    rw [hphase]
    rfl
  have hall := send_stranded_iff calmActor batchSize 16 (Machine.Reachable.of_run .start hs)
    hcaller rfl hended
  refine ⟨s, hs, hphase, hregistered, hpump, hall.1.mp ?_⟩
  rw [hmailbox]
  exact List.mem_singleton_self 0

end MsgTrans.Transport
