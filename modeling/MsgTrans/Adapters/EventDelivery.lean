import MsgTrans.Adapters.Events

/-!
# Delivery through the event pipe

What the steps of the pipe (`events.rs:110–216`) do is said once, as a relation; the invariant of
the pipe is kept by each kind of step. It says that the consumer gets what was enqueued, in order
and once, then one closing event, then nothing.
-/

namespace MsgTrans.Adapters.Events

open MsgTrans.Wire MsgTrans.Base

/-- The event that a call puts into the queue: a received packet after normalisation, any other
event as it is. -/
inductive Carries (cfg : PipeConfig) : Kind → DataEvent → Prop where
  | message {packet packet' : Packet}
      (h : normalizeInbound cfg.codecs packet cfg.maxPayloadSize = .ok packet') :
      Carries cfg (.deliver (.messageReceived packet)) (.messageReceived packet')
  | other {event : DataEvent} (h : ∀ packet, event ≠ .messageReceived packet) :
      Carries cfg (.deliver event) event
  | diagnostic {event : DataEvent} : Carries cfg (.diagnostic event) event

/-- The event a call has in hand is the one it carries. -/
def PipeCall.Fits (cfg : PipeConfig) (c : PipeCall) : Prop :=
  match c.phase with
  | .charging packet => Carries cfg c.kind (.messageReceived packet)
  | .checking event | .sending event | .reserved event => Carries cfg c.kind event
  | .entered | .returned _ | .dropped => True

/-- What a step of the pipe does. -/
inductive PipeStep (cfg : PipeConfig) (s : PipeState) : PipeState → Prop where
  | call (kind : Kind) (hlive : s.dropped = false) :
      PipeStep cfg s { s with calls := s.calls ++ [⟨kind, .entered⟩] }
  | close (reason : CloseReason) (hlive : s.dropped = false) : PipeStep cfg s (s.close reason)
  | refuse {t : Nat} {c : PipeCall} (reason : CloseReason) (hc : s.calls[t]? = some c)
      (hrun : c.phase.finished = false) (hpermit : c.phase.holdsPermit = false) :
      PipeStep cfg s ((s.close reason).setPhase t c (.returned false))
  | advance {t : Nat} {c : PipeCall} (phase : Phase) (hc : s.calls[t]? = some c)
      (hrun : c.phase.finished = false) (hpermit : c.phase.holdsPermit = false)
      (hphase : phase.holdsPermit = false) (hret : phase ≠ .returned true)
      (hfits : c.Fits cfg → PipeCall.Fits cfg { c with phase := phase }) :
      PipeStep cfg s (s.setPhase t c phase)
  | reserve {t : Nat} {c : PipeCall} (event : DataEvent) (hc : s.calls[t]? = some c)
      (hrun : c.phase.finished = false) (hpermit : c.phase.holdsPermit = false)
      (hopen : s.rxClosed = false) (hroom : s.queue.length + s.permits < cfg.capacity)
      (hfits : c.Fits cfg → Carries cfg c.kind event) :
      PipeStep cfg s (s.setPhase t c (.reserved event))
  | push {t : Nat} {kind : Kind} {event : DataEvent}
      (hc : s.calls[t]? = some ⟨kind, .reserved event⟩) :
      PipeStep cfg s { s.setPhase t ⟨kind, .reserved event⟩ (.returned true) with
        queue := s.queue ++ [(t, event)]
        enqueued := s.enqueued ++ [(t, event)] }
  | dropPipe (hdone : ∀ c ∈ s.calls, c.phase.finished = true) :
      PipeStep cfg s { s with dropped := true }
  | listen (inNext rxClosed : Bool) (hkeep : s.rxClosed = true → rxClosed = true)
      (hclose : rxClosed = true → s.rxClosed = true ∨ s.cell.isSome = true) :
      PipeStep cfg s { s with
        inNext := inNext
        rxClosed := rxClosed }
  | take {t : Nat} {event : DataEvent} {rest : List (Nat × DataEvent)}
      (hqueue : s.queue = (t, event) :: rest) :
      PipeStep cfg s { s with
        queue := rest
        inNext := false
        received := s.received ++ [.event t event] }
  | emit (hqueue : s.queue = []) (hend : s.rxClosed = true ∨ s.dropped = true)
      (hpermits : s.permits = 0) (hfirst : s.closeEmitted = false) :
      PipeStep cfg s { s with
        inNext := false
        closeEmitted := true
        received := s.received ++ [.connectionClosed (s.cell.getD endedWithoutClose)] }
  | silent (hlast : s.closeEmitted = true) :
      PipeStep cfg s { s with
        inNext := false
        received := s.received ++ [.none] }

section Sound

variable {cfg : PipeConfig} {s s' : PipeState} {t : Nat}

private theorem enter_sound (h : s.enter cfg t = some s') : PipeStep cfg s s' := by
  unfold PipeState.enter at h
  split at h
  next packet hc =>
    split at h
    next reason hnorm =>
      cases h
      exact .refuse _ hc rfl rfl
    next packet' hnorm =>
      split at h
      · cases h
        exact .advance _ hc rfl rfl rfl (by simp) fun _ ↦ trivial
      · cases h
        exact .advance _ hc rfl rfl rfl (by simp) fun _ ↦ .message hnorm
  next event hother hc =>
    cases h
    exact .advance _ hc rfl rfl rfl (by simp) fun _ ↦ .other hother
  next => cases h

private theorem charge_sound (h : s.charge cfg t = some s') : PipeStep cfg s s' := by
  unfold PipeState.charge at h
  split at h
  next kind packet hc =>
    simp only at h
    split at h
    · cases h
      exact .refuse _ hc rfl rfl
    · cases h
      exact .advance _ hc rfl rfl rfl (by simp) id
  next => cases h

private theorem check_sound (h : s.check t = some s') : PipeStep cfg s s' := by
  unfold PipeState.check at h
  split at h
  next kind event hc =>
    cases h
    split
    · exact .advance _ hc rfl rfl rfl (by simp) fun _ ↦ trivial
    · exact .advance _ hc rfl rfl rfl (by simp) id
  next => cases h

private theorem observe_sound (h : s.observe t = some s') : PipeStep cfg s s' := by
  unfold PipeState.observe at h
  split at h
  next kind packet hc =>
    split at h
    · cases h
      exact .advance _ hc rfl rfl rfl (by simp) fun _ ↦ trivial
    · cases h
  next kind event hc =>
    split at h
    · cases h
      exact .advance _ hc rfl rfl rfl (by simp) fun _ ↦ trivial
    · cases h
  next => cases h

private theorem reserve_sound (h : s.reserve cfg t = some s') : PipeStep cfg s s' := by
  unfold PipeState.reserve at h
  split at h
  next kind event hc =>
    split at h
    next =>
      cases h
      exact .advance _ hc rfl rfl rfl (by simp) fun _ ↦ trivial
    next hopen =>
      split at h
      next hroom =>
        cases h
        exact .reserve _ hc rfl rfl (by simpa using hopen) hroom id
      next => cases h
  next event hc =>
    split at h
    next hroom =>
      cases h
      exact .reserve _ hc rfl rfl hroom.1 hroom.2 fun _ ↦ .diagnostic
    next =>
      cases h
      exact .advance _ hc rfl rfl rfl (by simp) fun _ ↦ trivial
  next => cases h

private theorem push_sound (h : s.push t = some s') : PipeStep cfg s s' := by
  unfold PipeState.push at h
  split at h
  next kind event hc =>
    cases h
    exact .push hc
  next => cases h

private theorem abandon_sound (h : s.abandon t = some s') : PipeStep cfg s s' := by
  unfold PipeState.abandon at h
  split at h
  next event hc =>
    cases h
    exact .advance _ hc rfl rfl rfl (by simp) fun _ ↦ trivial
  next kind packet hc =>
    cases h
    exact .advance _ hc rfl rfl rfl (by simp) fun _ ↦ trivial
  next kind event hc =>
    cases h
    exact .advance _ hc rfl rfl rfl (by simp) fun _ ↦ trivial
  next => cases h

private theorem recv_sound (h : s.recv = some s') : PipeStep cfg s s' := by
  unfold PipeState.recv at h
  split at h
  next =>
    split at h
    next t event rest hqueue =>
      cases h
      exact .take hqueue
    next hqueue =>
      split at h
      next hend =>
        simp only [Bool.and_eq_true, Bool.or_eq_true, beq_iff_eq] at hend
        split at h
        next hlast =>
          cases h
          exact .silent hlast
        next hfirst =>
          cases h
          exact .emit hqueue hend.1 hend.2 (by simpa using hfirst)
      next => cases h
  next => cases h

/-- Every step of the machine is one of these. -/
theorem step_sound {l : PipeLabel} (h : s.step cfg l = some s') : PipeStep cfg s s' := by
  cases l with
  | call kind =>
    simp only [PipeState.step] at h
    split at h
    next => cases h
    next hlive =>
      cases h
      exact .call kind (by simpa using hlive)
  | close reason =>
    simp only [PipeState.step] at h
    split at h
    next => cases h
    next hlive =>
      cases h
      exact .close reason (by simpa using hlive)
  | enter t => exact enter_sound h
  | charge t => exact charge_sound h
  | check t => exact check_sound h
  | observe t => exact observe_sound h
  | reserve t => exact reserve_sound h
  | push t => exact push_sound h
  | abandon t => exact abandon_sound h
  | dropPipe =>
    simp only [PipeState.step] at h
    split at h
    next hdone =>
      cases h
      exact .dropPipe (List.all_eq_true.mp hdone)
    next => cases h
  | next =>
    simp only [PipeState.step] at h
    split at h
    next => cases h
    next =>
      cases h
      refine .listen true _ (fun hclosed ↦ by simp [hclosed]) fun hclosed ↦ ?_
      simp only [Bool.or_eq_true, Bool.and_eq_true] at hclosed
      exact hclosed.imp_right (·.2)
  | recv => exact recv_sound h
  | changed =>
    simp only [PipeState.step] at h
    split at h
    next =>
      cases h
      refine .listen s.inNext _ (fun hclosed ↦ by simp [hclosed]) fun hclosed ↦ ?_
      exact Bool.or_eq_true_iff.mp hclosed
    next => cases h
  | abandonNext =>
    simp only [PipeState.step] at h
    split at h
    next =>
      cases h
      exact .listen false s.rxClosed id .inl
    next => cases h

end Sound

/-- The queued event that an output is. -/
def Output.event? : Output → Option (Nat × DataEvent)
  | .event call x => some (call, x)
  | _ => Option.none

namespace PipeState

/-- What the consumer has taken off the queue, in order. -/
def taken (s : PipeState) : List (Nat × DataEvent) := s.received.filterMap Output.event?

/-- The reason the closing event carries: the first one given to `close`, or the synthetic one. -/
def reason (s : PipeState) : CloseReason := s.published.head?.getD endedWithoutClose

/-- What the consumer gets behind the queued events: nothing yet, or one closing event and then
`None` any number of times. -/
def closing (s : PipeState) (n : Nat) : List Output :=
  if s.closeEmitted then .connectionClosed s.reason :: List.replicate n .none else []

end PipeState

/-- The invariant of the pipe. -/
structure Delivery (cfg : PipeConfig) (s : PipeState) : Prop where
  split : s.enqueued = s.taken ++ s.queue
  shape : ∃ n, s.received = s.taken.map (fun x ↦ .event x.1 x.2) ++ s.closing n
  done : s.closeEmitted = true →
    s.queue = [] ∧ s.permits = 0 ∧ (s.rxClosed = true ∨ s.dropped = true)
  cell : s.cell = s.published.head?
  closed : s.rxClosed = true → s.cell.isSome = true
  gone : s.dropped = true → ∀ c ∈ s.calls, c.phase.finished = true
  fits : ∀ c ∈ s.calls, c.Fits cfg
  source : ∀ t event, (t, event) ∈ s.enqueued →
    ∃ kind, s.calls[t]? = some ⟨kind, .returned true⟩ ∧ Carries cfg kind event
  once : (s.enqueued.map Prod.fst).Nodup
  pushed : ∀ t kind, s.calls[t]? = some ⟨kind, .returned true⟩ → t ∈ s.enqueued.map Prod.fst

theorem delivery_new (cfg : PipeConfig) : Delivery cfg .new := by
  constructor
  case shape => exact ⟨0, rfl⟩
  all_goals simp [PipeState.new, PipeState.taken]

section Step

variable {cfg : PipeConfig} {s s' : PipeState}

theorem permits_eq_zero_iff :
    s.permits = 0 ↔ ∀ c ∈ s.calls, c.phase.holdsPermit = false := by
  rw [PipeState.permits, List.countP_eq_zero]
  simp

private theorem mem_set {t : Nat} {c : PipeCall} {phase : Phase} {x : PipeCall}
    (hx : x ∈ (s.setPhase t c phase).calls) : x = { c with phase := phase } ∨ x ∈ s.calls := by
  obtain h | h := List.mem_or_eq_of_mem_set hx
  · exact .inr h
  · exact .inl h

private theorem getElem?_setPhase {t u : Nat} {c x : PipeCall} {phase : Phase}
    (hc : s.calls[t]? = some c) (hx : (s.setPhase t c phase).calls[u]? = some x) :
    (u = t ∧ x = { c with phase := phase }) ∨ (u ≠ t ∧ s.calls[u]? = some x) := by
  simp only [PipeState.setPhase] at hx
  by_cases heq : u = t
  · subst heq
    have hlt : u < s.calls.length := (List.getElem?_eq_some_iff.mp hc).1
    rw [List.getElem?_set_self hlt] at hx
    exact .inl ⟨rfl, (Option.some.inj hx).symm⟩
  · rw [List.getElem?_set_ne (Ne.symm heq)] at hx
    exact .inr ⟨heq, hx⟩

-- The fields about the calls, for a step that moves one call on without a push.
private theorem Delivery.move (h : Delivery cfg s) {t : Nat} {c : PipeCall} {phase : Phase}
    (hc : s.calls[t]? = some c) (hrun : c.phase.finished = false) (hret : phase ≠ .returned true)
    (hfits : PipeCall.Fits cfg { c with phase := phase })
    (hpermit : phase.holdsPermit = true → s.rxClosed = false) :
    Delivery cfg (s.setPhase t c phase) := by
  have hmem : c ∈ s.calls := List.mem_of_getElem? hc
  have hlive : s.dropped = false := by
    cases hd : s.dropped with
    | false => rfl
    | true =>
      rw [h.gone hd c hmem] at hrun
      cases hrun
  constructor
  case split => exact h.split
  case shape => exact h.shape
  case cell => exact h.cell
  case closed => exact h.closed
  case once => exact h.once
  case done =>
    intro hemitted
    obtain ⟨hqueue, hpermits, hend⟩ := h.done hemitted
    refine ⟨hqueue, permits_eq_zero_iff.2 fun x hx ↦ ?_, hend⟩
    obtain rfl | hx := mem_set hx
    · cases hp : phase.holdsPermit with
      | false => rfl
      | true =>
        obtain hclosed | hdropped := hend
        · rw [hpermit hp] at hclosed
          cases hclosed
        · rw [hlive] at hdropped
          cases hdropped
    · exact permits_eq_zero_iff.1 hpermits x hx
  case gone =>
    intro hdropped
    simp only [PipeState.setPhase] at hdropped
    rw [hlive] at hdropped
    cases hdropped
  case fits =>
    intro x hx
    obtain rfl | hx := mem_set hx
    · exact hfits
    · exact h.fits x hx
  case source =>
    intro u event hmem'
    obtain ⟨kind, hkind, hcarries⟩ := h.source u event hmem'
    refine ⟨kind, ?_, hcarries⟩
    have hne : t ≠ u := by
      rintro rfl
      rw [hc] at hkind
      cases hkind
      cases hrun
    rw [PipeState.setPhase, List.getElem?_set_ne hne]
    exact hkind
  case pushed =>
    intro u kind hu
    obtain ⟨-, heq⟩ | ⟨-, hu⟩ := getElem?_setPhase hc hu
    · cases c
      cases heq
      exact absurd rfl hret
    · exact h.pushed u kind hu

-- A reason is published while the pipe lives.
private theorem Delivery.publish (h : Delivery cfg s) (hlive : s.dropped = false)
    (reason : CloseReason) : Delivery cfg (s.close reason) := by
  have hhead : s.published ≠ [] → (s.published ++ [reason]).head? = s.published.head? := by
    intro hne
    rw [List.head?_append, Option.or_eq_left_of_isSome]
    exact List.isSome_head?.mpr hne
  constructor
  case split => exact h.split
  case closed => exact fun hclosed ↦ by simp [PipeState.close]
  case done => exact h.done
  case gone => exact h.gone
  case fits => exact h.fits
  case source => exact h.source
  case once => exact h.once
  case pushed => exact h.pushed
  case cell =>
    simp only [PipeState.close, h.cell, List.head?_append]
    rfl
  case shape =>
    obtain ⟨n, hshape⟩ := h.shape
    refine ⟨n, hshape.trans (congrArg _ ?_)⟩
    unfold PipeState.closing
    by_cases hemitted : s.closeEmitted = true
    · have hne : s.published ≠ [] := by
        intro hnil
        obtain hclosed | hdropped := (h.done hemitted).2.2
        · have hsome := h.closed hclosed
          rw [h.cell, hnil] at hsome
          cases hsome
        · rw [hlive] at hdropped
          cases hdropped
      have hreason : (s.close reason).reason = s.reason := by
        simp only [PipeState.reason, PipeState.close, hhead hne]
      rw [hreason]
      rfl
    · exact (if_neg hemitted).trans (if_neg hemitted).symm

-- A call with its permit pushes its event: it cannot come behind the closing event, since that
-- waits for every permit.
private theorem Delivery.push (h : Delivery cfg s) {t : Nat} {kind : Kind} {event : DataEvent}
    (hc : s.calls[t]? = some ⟨kind, .reserved event⟩) :
    Delivery cfg { s.setPhase t ⟨kind, .reserved event⟩ (.returned true) with
      queue := s.queue ++ [(t, event)]
      enqueued := s.enqueued ++ [(t, event)] } := by
  have hmem := List.mem_of_getElem? hc
  have hlt : t < s.calls.length := (List.getElem?_eq_some_iff.mp hc).1
  have hopen : ¬ s.closeEmitted = true := by
    intro hemitted
    have hnone := permits_eq_zero_iff.1 (h.done hemitted).2.1 _ hmem
    cases hnone
  have hfresh : t ∉ s.enqueued.map Prod.fst := by
    intro hin
    obtain ⟨⟨u, event'⟩, hin', rfl⟩ := List.mem_map.mp hin
    obtain ⟨kind', hkind, -⟩ := h.source u event' hin'
    rw [hc] at hkind
    cases hkind
  constructor
  case cell => exact h.cell
  case closed => exact h.closed
  case split =>
    simp only [h.split, List.append_assoc]
    rfl
  case shape =>
    obtain ⟨n, hshape⟩ := h.shape
    refine ⟨n, hshape.trans (congrArg _ ?_)⟩
    exact (if_neg hopen).trans (if_neg hopen).symm
  case done => exact fun hemitted ↦ absurd hemitted hopen
  case gone =>
    intro hdropped
    have hfinished := h.gone hdropped _ hmem
    cases hfinished
  case fits =>
    intro x hx
    obtain rfl | hx := mem_set hx
    · trivial
    · exact h.fits x hx
  case once =>
    rw [List.map_append, List.map_singleton]
    refine List.nodup_append.mpr ⟨h.once, List.nodup_singleton _, ?_⟩
    intro a ha b hb heq
    subst heq
    rw [List.mem_singleton.mp hb] at ha
    exact hfresh ha
  case source =>
    intro u event' hin
    obtain hin | hin := List.mem_append.mp hin
    · obtain ⟨kind', hkind, hcarries⟩ := h.source u event' hin
      have hne : t ≠ u := fun heq ↦ hfresh (heq ▸ List.mem_map.mpr ⟨_, hin, rfl⟩)
      refine ⟨kind', ?_, hcarries⟩
      simp only [PipeState.setPhase, List.getElem?_set_ne hne]
      exact hkind
    · cases List.mem_singleton.mp hin
      refine ⟨kind, ?_, h.fits _ hmem⟩
      simp only [PipeState.setPhase, List.getElem?_set_self hlt]
  case pushed =>
    intro u kind' hu
    rw [List.map_append]
    obtain ⟨rfl, -⟩ | ⟨-, hu⟩ := getElem?_setPhase hc hu
    · exact List.mem_append.mpr (.inr (List.mem_singleton.mpr rfl))
    · exact List.mem_append.mpr (.inl (h.pushed u kind' hu))

-- The fields that the consumer does not touch, for a `next` that returns.
private theorem Delivery.output (h : Delivery cfg s) {queue : List (Nat × DataEvent)}
    {closeEmitted : Bool} {x : Output}
    (hsplit : s.enqueued = s.taken ++ [x].filterMap Output.event? ++ queue)
    (hshape : ∃ n, s.received ++ [x] =
      (s.taken ++ [x].filterMap Output.event?).map (fun x ↦ Output.event x.1 x.2) ++
        { s with closeEmitted := closeEmitted }.closing n)
    (hdone : closeEmitted = true →
      queue = [] ∧ s.permits = 0 ∧ (s.rxClosed = true ∨ s.dropped = true)) :
    Delivery cfg { s with
      queue := queue
      inNext := false
      closeEmitted := closeEmitted
      received := s.received ++ [x] } := by
  have htaken : (s.received ++ [x]).filterMap Output.event? =
      s.taken ++ [x].filterMap Output.event? := List.filterMap_append
  constructor
  case cell => exact h.cell
  case closed => exact h.closed
  case gone => exact h.gone
  case fits => exact h.fits
  case source => exact h.source
  case once => exact h.once
  case pushed => exact h.pushed
  case done => exact hdone
  case split =>
    simp only [PipeState.taken, htaken]
    exact hsplit
  case shape =>
    simp only [PipeState.taken, htaken]
    exact hshape

-- The consumer takes the front of the queue.
private theorem Delivery.take (h : Delivery cfg s) {t : Nat} {event : DataEvent}
    {rest : List (Nat × DataEvent)} (hqueue : s.queue = (t, event) :: rest) :
    Delivery cfg { s with
      queue := rest
      inNext := false
      received := s.received ++ [.event t event] } := by
  have hopen : ¬ s.closeEmitted = true := by
    intro hemitted
    rw [(h.done hemitted).1] at hqueue
    cases hqueue
  obtain ⟨n, hshape⟩ := h.shape
  have hnil : s.closing n = [] := if_neg hopen
  rw [hnil, List.append_nil] at hshape
  refine h.output ?_ ⟨n, ?_⟩ fun hemitted ↦ absurd hemitted hopen
  · rw [h.split, hqueue, List.append_assoc]
    rfl
  · refine Eq.trans ?_ (congrArg _ hnil.symm)
    rw [List.map_append, ← hshape, List.append_nil]
    rfl

-- The closing event comes behind everything that was enqueued.
private theorem Delivery.emit (h : Delivery cfg s) (hqueue : s.queue = [])
    (hend : s.rxClosed = true ∨ s.dropped = true) (hpermits : s.permits = 0)
    (hfirst : s.closeEmitted = false) :
    Delivery cfg { s with
      inNext := false
      closeEmitted := true
      received := s.received ++ [.connectionClosed (s.cell.getD endedWithoutClose)] } := by
  obtain ⟨n, hshape⟩ := h.shape
  have hnil : s.closing n = [] := if_neg (by rw [hfirst]; simp)
  rw [hnil, List.append_nil] at hshape
  refine h.output ?_ ⟨0, ?_⟩ fun _ ↦ ⟨hqueue, hpermits, hend⟩
  · rw [h.split]
    exact congrArg (· ++ s.queue) (List.append_nil _).symm
  · simp only [PipeState.closing, PipeState.reason, ← h.cell, ↓reduceIte, List.replicate_zero]
    refine congrArg (· ++ _) (hshape.trans ?_)
    exact congrArg _ (List.append_nil _).symm

-- Then there is nothing more.
private theorem Delivery.silent (h : Delivery cfg s) (hlast : s.closeEmitted = true) :
    Delivery cfg { s with
      inNext := false
      received := s.received ++ [Output.none] } := by
  obtain ⟨n, hshape⟩ := h.shape
  refine h.output ?_ ⟨n + 1, ?_⟩ h.done
  · rw [h.split]
    exact congrArg (· ++ s.queue) (List.append_nil _).symm
  · have htaken : s.taken ++ [Output.none].filterMap Output.event? = s.taken := List.append_nil _
    have hclosing : s.closing (n + 1) = s.closing n ++ [Output.none] := by
      rw [PipeState.closing, PipeState.closing, if_pos hlast, if_pos hlast, List.replicate_succ',
        List.cons_append]
    rw [htaken]
    refine Eq.trans ?_ (congrArg _ hclosing.symm)
    rw [← List.append_assoc, ← hshape]

/-- Every step of the pipe keeps the invariant. -/
theorem Delivery.step (h : Delivery cfg s) (hstep : PipeStep cfg s s') : Delivery cfg s' := by
  cases hstep with
  | call kind hlive =>
    constructor
    case split => exact h.split
    case shape => exact h.shape
    case cell => exact h.cell
    case closed => exact h.closed
    case once => exact h.once
    case done =>
      intro hemitted
      obtain ⟨hqueue, hpermits, hend⟩ := h.done hemitted
      refine ⟨hqueue, permits_eq_zero_iff.2 fun c hc ↦ ?_, hend⟩
      obtain hc | hc := List.mem_append.mp hc
      · exact permits_eq_zero_iff.1 hpermits c hc
      · rw [List.mem_singleton.mp hc]
        rfl
    case gone =>
      intro hdropped
      rw [hlive] at hdropped
      cases hdropped
    case fits =>
      intro c hc
      obtain hc | hc := List.mem_append.mp hc
      · exact h.fits c hc
      · rw [List.mem_singleton.mp hc]
        trivial
    case source =>
      intro t event hmem
      obtain ⟨kind', hkind, hcarries⟩ := h.source t event hmem
      have hlt := (List.getElem?_eq_some_iff.mp hkind).1
      exact ⟨kind', by rw [List.getElem?_append_left hlt]; exact hkind, hcarries⟩
    case pushed =>
      intro t kind' ht
      rw [List.getElem?_append] at ht
      split at ht
      next => exact h.pushed t kind' ht
      next =>
        rw [List.getElem?_singleton] at ht
        split at ht
        · cases ht
        · cases ht
  | close reason hlive => exact h.publish hlive reason
  | @refuse t c reason hc hrun hpermit =>
    have hlive : s.dropped = false := by
      cases hd : s.dropped with
      | false => rfl
      | true =>
        rw [h.gone hd c (List.mem_of_getElem? hc)] at hrun
        cases hrun
    exact (h.publish hlive reason).move hc hrun (by simp) trivial (by simp [Phase.holdsPermit])
  | @advance t c phase hc hrun hpermit hphase hret hfits =>
    refine h.move hc hrun hret (hfits (h.fits c (List.mem_of_getElem? hc))) fun hp ↦ ?_
    rw [hphase] at hp
    cases hp
  | @reserve t c event hc hrun hpermit hopen hroom hfits =>
    exact h.move hc hrun (by simp) (hfits (h.fits c (List.mem_of_getElem? hc))) fun _ ↦ hopen
  | @push t kind event hc => exact h.push hc
  | dropPipe hdone =>
    exact { h with
      gone := fun _ ↦ hdone
      done := fun hemitted ↦ ⟨(h.done hemitted).1, (h.done hemitted).2.1, .inr rfl⟩ }
  | listen inNext rxClosed hkeep hclose =>
    exact { h with
      closed := fun hclosed ↦ (hclose hclosed).elim h.closed id
      done := fun hemitted ↦
        ⟨(h.done hemitted).1, (h.done hemitted).2.1, (h.done hemitted).2.2.imp_left hkeep⟩ }
  | @take t event rest hqueue => exact h.take hqueue
  | emit hqueue hend hpermits hfirst => exact h.emit hqueue hend hpermits hfirst
  | silent hlast => exact h.silent hlast

theorem delivery_of_reachable (h : (pipe cfg).Reachable s) : Delivery cfg s :=
  h.invariant (delivery_new cfg) fun _ _ _ hs _ hstep ↦ hs.step (step_sound hstep)

/-- How often a call has enqueued its event. -/
theorem Delivery.count (h : Delivery cfg s) {t : Nat} {c : PipeCall}
    (hc : s.calls[t]? = some c) :
    (s.enqueued.map Prod.fst).count t = if c.phase = .returned true then 1 else 0 := by
  obtain ⟨kind, phase⟩ := c
  by_cases hphase : phase = .returned true
  · subst hphase
    rw [if_pos rfl]
    exact List.count_eq_one_of_mem h.once (h.pushed t kind hc)
  · rw [if_neg hphase, List.count_eq_zero]
    intro hin
    obtain ⟨⟨u, event⟩, hin', rfl⟩ := List.mem_map.mp hin
    obtain ⟨kind', hkind, -⟩ := h.source u event hin'
    rw [hc] at hkind
    cases hkind
    exact hphase rfl

/-- A `next` call on a pipe that was closed or dropped returns once no permit is out. -/
theorem Delivery.progress (h : Delivery cfg s) (hnext : s.inNext = true) (hpermits : s.permits = 0)
    (hend : s.cell.isSome = true ∨ s.dropped = true) :
    ∃ s', ((pipe cfg).run s [.recv] = some s' ∨ (pipe cfg).run s [.changed, .recv] = some s') ∧
      s'.received.length = s.received.length + 1 := by
  -- The receive arm answers a `next` call on a channel that has ended.
  have hrecv : ∀ s : PipeState, s.inNext = true → s.permits = 0 →
      s.rxClosed = true ∨ s.dropped = true →
        ∃ s', s.recv = some s' ∧ s'.received.length = s.received.length + 1 := by
    intro s hnext hpermits hended
    have hended : (s.rxClosed || s.dropped) = true := Bool.or_eq_true_iff.mpr hended
    unfold PipeState.recv
    rw [if_pos hnext]
    split
    · exact ⟨_, rfl, by simp⟩
    · rw [if_pos (by simp [hended, hpermits])]
      split
      · exact ⟨_, rfl, by simp⟩
      · exact ⟨_, rfl, by simp⟩
  by_cases hclosed : s.rxClosed = true ∨ s.dropped = true
  · obtain ⟨s', hs', hlen⟩ := hrecv s hnext hpermits hclosed
    exact ⟨s', .inl (by simp [Machine.run, pipe, PipeState.step, hs']), hlen⟩
  · have hcell : s.cell.isSome = true := hend.resolve_right fun hd ↦ hclosed (.inr hd)
    have hopen : s.closeEmitted = false := by
      cases hemitted : s.closeEmitted with
      | false => rfl
      | true => exact absurd (h.done hemitted).2.2 hclosed
    obtain ⟨s', hs', hlen⟩ := hrecv { s with rxClosed := s.rxClosed || s.cell.isSome } hnext
      hpermits (.inl (by simp [hcell]))
    have hchanged : s.step cfg .changed =
        some { s with rxClosed := s.rxClosed || s.cell.isSome } := by
      rw [PipeState.step, if_pos (by simp [hnext, hopen, hcell])]
    refine ⟨s', .inr ?_, hlen⟩
    show (s.step cfg .changed).bind _ = _
    rw [hchanged]
    show (PipeState.recv _).bind _ = _
    rw [hs']
    rfl

end Step

/-- Delivery through the event pipe, in every reachable state: the consumer got queued events,
then, once, the closing event with the first published reason or the synthetic one, then `None`.
The queued events it got are those enqueued first, in order, and all of them once the pipe has
closed. A call has enqueued its event exactly once if it returned `true` and not at all otherwise.
The synthetic reason means that the pipe was dropped unclosed. And a closed or dropped pipe
answers every `next`. -/
theorem event_pipe_delivery (cfg : PipeConfig) (s : PipeState) (h : (pipe cfg).Reachable s) :
    (∃ n, s.received = s.taken.map (fun x ↦ .event x.1 x.2) ++ s.closing n) ∧
    s.enqueued = s.taken ++ s.queue ∧
    (s.closeEmitted = true → s.taken = s.enqueued) ∧
    (∀ t c, s.calls[t]? = some c →
      (s.enqueued.map Prod.fst).count t = if c.phase = .returned true then 1 else 0) ∧
    (∀ t event, (t, event) ∈ s.enqueued →
      ∃ kind, s.calls[t]? = some ⟨kind, .returned true⟩ ∧ Carries cfg kind event) ∧
    (s.closeEmitted = true → s.published = [] → s.dropped = true) ∧
    (s.inNext = true → s.permits = 0 → s.cell.isSome = true ∨ s.dropped = true →
      ∃ s', ((pipe cfg).run s [.recv] = some s' ∨ (pipe cfg).run s [.changed, .recv] = some s') ∧
        s'.received.length = s.received.length + 1) := by
  have hdelivery := delivery_of_reachable h
  refine ⟨hdelivery.shape, hdelivery.split, fun hemitted ↦ ?_, fun t c hc ↦ hdelivery.count hc,
    hdelivery.source, fun hemitted hnone ↦ ?_, hdelivery.progress⟩
  · rw [hdelivery.split, (hdelivery.done hemitted).1, List.append_nil]
  · refine (hdelivery.done hemitted).2.2.resolve_left fun hclosed ↦ ?_
    have hsome := hdelivery.closed hclosed
    rw [hdelivery.cell, hnone] at hsome
    cases hsome

/-- A pipe of capacity one without codecs. -/
def smallPipe : PipeConfig where
  target := ⟨64, by decide⟩
  codecs := ⟨none, none⟩
  capacity := 1
  maxPayloadSize := 64
  bufferBytes := 64

/-- A delivered packet, a close, and a consumer that calls `next` three times. -/
def smallRun : List PipeLabel :=
  [.call (.deliver (.messageReceived (Packet.oneWay 7 [1]))), .enter 0, .charge 0, .check 0,
    .reserve 0, .push 0, .close .normal, .next, .recv, .next, .recv, .next, .recv]

theorem event_pipe_delivery_of_run :
    ∃ s, (pipe smallPipe).run .new smallRun = some s ∧
      s.received = [.event 0 (.messageReceived (Packet.oneWay 7 [1])), .connectionClosed .normal,
        .none] ∧ s.taken = s.enqueued := by
  have hrun : ((pipe smallPipe).run .new smallRun).isSome = true := by decide
  obtain ⟨s, hs⟩ := Option.isSome_iff_exists.mp hrun
  have hall := event_pipe_delivery smallPipe s (.of_run .start hs)
  cases hs
  exact ⟨_, rfl, rfl, hall.2.2.1 rfl⟩

end MsgTrans.Adapters.Events
