import MsgTrans.Transport.HandlerClose

/-!
# When a handler's close of its own session gets stuck

`close_session` puts a `ConnectionClosed` into the mailbox of the session's actor and waits for a
free slot (`transport_server.rs:833–840,859–860`, `session_actor.rs:339–355`). The actor is the only
receiver, and while it is inside the callback that awaits the close it receives nothing. So the close
goes on exactly as long as no such send meets a full mailbox, and one that does never ends.
-/

namespace MsgTrans.Transport

open MsgTrans.Base

namespace HandlerState

variable {cfg : HandlerConfig} {s s' : HandlerState} {l : HandlerLabel}

/-- The actor is inside a callback that awaits the close of its own session. -/
def Awaiting (s : HandlerState) : Prop := ∃ close, s.callback = .awaiting close

/-- The close can take a step, or the actor can, which is all that it may wait for. -/
def Progress (cfg : HandlerConfig) (s : HandlerState) : Prop :=
  ∃ l : HandlerLabel, (l.ofClose = true ∨ l.ofActor = true) ∧ (s.step cfg l).isSome = true

/-- The close is parked at a full mailbox whose receiver is the actor inside the callback. -/
structure Jammed (cfg : HandlerConfig) (s : HandlerState) : Prop where
  parked : s.callback = .awaiting .parked
  receiving : s.actor.phase.receiving = true
  full : ¬s.Room cfg

/-- The send of a close meets a free slot, or no receiver, or no handle. -/
def Roomy (cfg : HandlerConfig) (s : HandlerState) (l : HandlerLabel) : Prop :=
  l = .notify → s.mapped = true → s.actor.phase.receiving = true → s.Room cfg

instance (cfg : HandlerConfig) (s : HandlerState) (l : HandlerLabel) :
    Decidable (s.Roomy cfg l) :=
  inferInstanceAs (Decidable (_ → _))

/-- A send into a full mailbox waits. -/
theorem sendEvent_eq_none {event : TransportEvent} :
    s.sendEvent cfg event = none ↔ s.actor.phase.receiving = true ∧ ¬s.Room cfg := by
  unfold sendEvent
  split
  next h => simp_all
  next h =>
    split
    next hroom => simp [hroom]
    next hroom => simp_all

/-- A send leaves the callback alone. -/
theorem sendEvent_callback {event : TransportEvent} (h : s.sendEvent cfg event = some s') :
    s'.callback = s.callback := by
  revert h
  fun_cases sendEvent cfg s event
  all_goals rintro ⟨⟩
  all_goals rfl

/-- Neither the close nor the actor takes a step out of a jam. -/
theorem Jammed.blocked (h : s.Jammed cfg) (hl : l.ofClose = true ∨ l.ofActor = true) :
    s.step cfg l = none := by
  have hsend : s.sendEvent cfg (.connectionClosed .normal) = none :=
    sendEvent_eq_none.mpr ⟨h.receiving, h.full⟩
  cases l with
  | act l' => simp [step, act, h.parked]
  | enter => simp [step, enter, h.parked]
  | leave => simp [step, leave, h.parked]
  | call => simp [step, call, h.parked]
  | start => simp [step, start, h.parked]
  | notify => simp [step, notify, h.parked]
  | wake => simp [step, wake, h.parked, hsend]
  | disconnected => simp [step, disconnected, h.parked]
  | deadline => simp [step, deadline, h.parked]
  | mark => simp [step, mark, h.parked]
  | clean => simp [step, clean, h.parked]
  | _ => exact absurd hl (by simp [HandlerLabel.ofClose, HandlerLabel.ofActor])

/-- What keeps the callback and the actor as they are keeps the jam. -/
theorem Jammed.keep (h : s.Jammed cfg) (hcallback : s'.callback = s.callback)
    (hactor : s'.actor = s.actor) : s'.Jammed cfg where
  parked := hcallback.trans h.parked
  receiving := hactor ▸ h.receiving
  full hroom := h.full (by rwa [Room, hactor] at hroom)

/-- No step ends a jam. -/
theorem Jammed.step (h : s.Jammed cfg) (hstep : s.step cfg l = some s') : s'.Jammed cfg := by
  cases l with
  | emit event =>
    change emit cfg s event = some s' at hstep
    revert hstep
    fun_cases emit cfg s event
    case case1 =>
      rintro ⟨⟩
      exact h.keep rfl rfl
    case case2 => nofun
  | pumpNext answered =>
    change pumpNext s answered = some s' at hstep
    revert hstep
    fun_cases pumpNext s answered
    all_goals rintro ⟨⟩
    all_goals exact h.keep rfl rfl
  | pumpForward =>
    change pumpForward cfg s = some s' at hstep
    revert hstep
    fun_cases pumpForward cfg s
    case case1 event _ =>
      rw [sendEvent_eq_none.mpr ⟨h.receiving, h.full⟩]
      nofun
    case case2 => nofun
  | pumpCancel =>
    change pumpCancel s = some s' at hstep
    revert hstep
    fun_cases pumpCancel s
    all_goals rintro ⟨⟩
    all_goals exact h.keep rfl rfl
  | pumpTeardown =>
    change pumpTeardown s = some s' at hstep
    revert hstep
    fun_cases pumpTeardown s
    all_goals rintro ⟨⟩
    all_goals exact h.keep rfl rfl
  | arrive message =>
    change arrive cfg s message = some s' at hstep
    revert hstep
    fun_cases arrive cfg s message
    case case1 hroom => exact absurd (of_decide_eq_true (Bool.and_eq_true_iff.mp hroom).2) h.full
    case case2 => nofun
  | dropSenders =>
    change dropSenders s = some s' at hstep
    revert hstep
    fun_cases dropSenders s
    case case1 hgone => exact absurd h.parked hgone.2.2.2
    case case2 => nofun
  | cancel =>
    cases hstep
    exact ⟨h.parked, h.receiving, h.full⟩
  | linkDown | elsewhere =>
    cases hstep
    exact h.keep rfl rfl
  | act | enter | leave | call => cases hstep.symm.trans (h.blocked (.inr rfl))
  | _ => cases hstep.symm.trans (h.blocked (.inl rfl))

/-- A jam lasts, whatever the rest of the system does. -/
theorem Jammed.run {ls : List HandlerLabel} (h : s.Jammed cfg)
    (hrun : (handling cfg).run s ls = some s') : s'.Jammed cfg :=
  Machine.run_invariant (fun _ _ _ h hstep ↦ h.step hstep) h hrun

/-- A close that is parked was parked before, or has just met a full mailbox. -/
theorem parked_cases (hstep : s.step cfg l = some s') (hparked : s'.callback = .awaiting .parked) :
    s.callback = .awaiting .parked ∨ ¬s.Roomy cfg l ∧ s'.Jammed cfg := by
  cases l with
  | notify =>
    change notify cfg s = some s' at hstep
    revert hstep
    fun_cases notify cfg s
    case case2 hcallback hmapped hsend =>
      rintro ⟨⟩
      obtain ⟨hreceiving, hfull⟩ := sendEvent_eq_none.mp hsend
      exact .inr ⟨fun hroomy ↦ hfull (hroomy rfl hmapped hreceiving), rfl, hreceiving, hfull⟩
    all_goals rintro ⟨⟩ <;> cases hparked
  | emit event =>
    change emit cfg s event = some s' at hstep
    revert hstep
    fun_cases emit cfg s event
    all_goals rintro ⟨⟩ <;> exact .inl hparked
  | pumpNext answered =>
    change pumpNext s answered = some s' at hstep
    revert hstep
    fun_cases pumpNext s answered
    all_goals rintro ⟨⟩ <;> exact .inl hparked
  | pumpCancel =>
    change pumpCancel s = some s' at hstep
    revert hstep
    fun_cases pumpCancel s
    all_goals rintro ⟨⟩ <;> exact .inl hparked
  | pumpTeardown =>
    change pumpTeardown s = some s' at hstep
    revert hstep
    fun_cases pumpTeardown s
    all_goals rintro ⟨⟩ <;> exact .inl hparked
  | arrive message =>
    change arrive cfg s message = some s' at hstep
    revert hstep
    fun_cases arrive cfg s message
    all_goals rintro ⟨⟩ <;> exact .inl hparked
  | dropSenders =>
    change dropSenders s = some s' at hstep
    revert hstep
    fun_cases dropSenders s
    all_goals rintro ⟨⟩ <;> exact .inl hparked
  | enter =>
    change enter cfg s = some s' at hstep
    revert hstep
    fun_cases enter cfg s
    all_goals rintro ⟨⟩ <;> cases hparked
  | call =>
    change call s = some s' at hstep
    revert hstep
    fun_cases call s
    all_goals rintro ⟨⟩ <;> cases hparked
  | start =>
    change start s = some s' at hstep
    revert hstep
    fun_cases start s
    all_goals rintro ⟨⟩ <;> cases hparked
  | disconnected =>
    change disconnected s = some s' at hstep
    revert hstep
    fun_cases disconnected s
    all_goals rintro ⟨⟩ <;> cases hparked
  | deadline =>
    change deadline s = some s' at hstep
    revert hstep
    fun_cases deadline s
    all_goals rintro ⟨⟩ <;> cases hparked
  | mark =>
    change mark s = some s' at hstep
    revert hstep
    fun_cases mark s
    all_goals rintro ⟨⟩ <;> cases hparked
  | clean =>
    change clean s = some s' at hstep
    revert hstep
    fun_cases clean s
    all_goals rintro ⟨⟩ <;> cases hparked
  | pumpForward =>
    change pumpForward cfg s = some s' at hstep
    revert hstep
    fun_cases pumpForward cfg s
    case case1 event _ =>
      rw [Option.map_eq_some_iff]
      rintro ⟨s₁, hsend, rfl⟩
      rw [← (sendEvent_callback hsend)]
      exact .inl hparked
    case case2 => nofun
  | act l' =>
    change act cfg s l' = some s' at hstep
    revert hstep
    fun_cases act cfg s l'
    case case1 =>
      rw [Option.map_eq_some_iff]
      rintro ⟨actor, -, rfl⟩
      exact .inl hparked
    case case2 => nofun
  | leave =>
    change leave cfg s = some s' at hstep
    revert hstep
    fun_cases leave cfg s
    case case1 =>
      rw [Option.map_eq_some_iff]
      rintro ⟨actor, -, rfl⟩
      cases hparked
    case case2 => nofun
  | wake =>
    change wake cfg s = some s' at hstep
    revert hstep
    fun_cases wake cfg s
    case case1 hbefore => exact fun _ ↦ .inl hbefore
    case case2 => nofun
  | linkDown | elsewhere | cancel =>
    cases hstep
    exact .inl hparked

/-- In every reachable state a parked close is jammed. -/
theorem jammed_of_parked (h : (handling cfg).Reachable s)
    (hparked : s.callback = .awaiting .parked) : s.Jammed cfg := by
  refine h.invariant (P := fun s ↦ s.callback = .awaiting .parked → s.Jammed cfg) nofun ?_ hparked
  intro s l s' ih _ hstep hparked
  obtain hbefore | ⟨-, hjammed⟩ := parked_cases hstep hparked
  · exact (ih hbefore).step hstep
  · exact hjammed

/-- A close that is not parked goes on. -/
theorem progress_of_awaiting (h : s.Awaiting) (hparked : s.callback ≠ .awaiting .parked) :
    s.Progress cfg := by
  obtain ⟨close, hclose⟩ := h
  cases close with
  | entered =>
    refine ⟨.start, .inl rfl, ?_⟩
    simp only [HandlerState.step, start, if_pos hclose]
    split <;> rfl
  | notifying =>
    refine ⟨.notify, .inl rfl, ?_⟩
    simp only [HandlerState.step, notify, if_pos hclose]
    split
    next => split <;> rfl
    next => rfl
  | parked => exact absurd hclose hparked
  | disconnecting => exact ⟨.deadline, .inl rfl, by simp [HandlerState.step, deadline, hclose]⟩
  | marking => exact ⟨.mark, .inl rfl, by simp [HandlerState.step, mark, hclose]⟩
  | cleaning => exact ⟨.clean, .inl rfl, by simp [HandlerState.step, clean, hclose]⟩

/-- In every reachable state a close goes on exactly if it is not parked. -/
theorem progress_iff (h : (handling cfg).Reachable s) (hawaiting : s.Awaiting) :
    s.Progress cfg ↔ s.callback ≠ .awaiting .parked := by
  refine ⟨fun ⟨l, hl, hstep⟩ hparked ↦ ?_, progress_of_awaiting hawaiting⟩
  rw [(jammed_of_parked h hparked).blocked hl] at hstep
  cases hstep

/-- A jam blocks the close and the actor. -/
theorem Jammed.not_progress (h : s.Jammed cfg) : s.Awaiting ∧ ¬s.Progress cfg := by
  refine ⟨⟨_, h.parked⟩, fun ⟨l, hl, hstep⟩ ↦ ?_⟩
  rw [h.blocked hl] at hstep
  cases hstep

/-- A send that meets a full mailbox jams the close. -/
theorem jammed_of_not_roomy (hroomy : ¬s.Roomy cfg l) (hstep : s.step cfg l = some s') :
    s'.Jammed cfg := by
  simp only [Roomy, Classical.not_imp] at hroomy
  obtain ⟨rfl, hmapped, hreceiving, hfull⟩ := hroomy
  change notify cfg s = some s' at hstep
  have hsend : s.sendEvent cfg (.connectionClosed .normal) = none :=
    sendEvent_eq_none.mpr ⟨hreceiving, hfull⟩
  simp only [notify, hmapped, hsend, if_true] at hstep
  split at hstep
  next =>
    cases hstep
    exact ⟨rfl, hreceiving, hfull⟩
  next => cases hstep

/-- The close of a handler's own session goes on in every state of a run whose every send meets a free
slot. Behind the first one that does not, neither the close nor the actor can go on any more. -/
theorem progress_of_roomy (cfg : HandlerConfig) :
    (∀ s, (handling cfg).ReachableBy (Roomy cfg) s → s.Awaiting → s.Progress cfg) ∧
      ∀ (s : HandlerState) l s' ls s'', ¬s.Roomy cfg l → s.step cfg l = some s' →
        (handling cfg).run s' ls = some s'' → s''.Awaiting ∧ ¬s''.Progress cfg := by
  constructor
  · intro s h hawaiting
    refine progress_of_awaiting hawaiting ?_
    refine h.invariant (P := fun s ↦ s.callback ≠ .awaiting .parked) nofun ?_
    intro s l s' hnot hroomy hstep hparked
    obtain hbefore | ⟨hfull, -⟩ := parked_cases hstep hparked
    · exact hnot hbefore
    · exact hfull hroomy
  · intro s l s' ls s'' hroomy hstep hrun
    exact ((jammed_of_not_roomy hroomy hstep).run hrun).not_progress

/-- A server with the default limits. -/
def defaultHandler : HandlerConfig where
  actor :=
    { inboundRegistry := true
      connectPanics := false
      answer := fun _ ↦ ⟨none, false, .ok ()⟩ }
  limit := batchSize
  capacity := 512
  pipeCapacity := 8192
  capacity_pos := by decide
  pipeCapacity_pos := by decide

/-- Events of a peer that the pump forwards one by one. -/
def forwarded (n : Nat) : List HandlerLabel :=
  (List.replicate n [.emit (.data .connectionEstablished), .pumpNext false, .pumpForward]).flatten

/-- A handler that closes its own session in its first callback. -/
def closeFirst : List HandlerLabel := [.enter, .call, .start, .notify]

/-- With a free slot the close goes on. -/
theorem progress_of_roomy_of_slot : ∃ s : HandlerState, s.Awaiting ∧ s.Progress defaultHandler := by
  have hrun : ((handling defaultHandler).runBy (Roomy defaultHandler) .new
      (forwarded 2 ++ closeFirst)).map callback = some (.awaiting .disconnecting) := by
    decide +kernel
  obtain ⟨s, hs, hcallback⟩ := Option.map_eq_some_iff.mp hrun
  have hawaiting : s.Awaiting := ⟨_, hcallback⟩
  exact ⟨s, hawaiting, (progress_of_roomy defaultHandler).1 s (.of_runBy .start hs) hawaiting⟩

/-- A session whose actor was not polled yet, with so many messages in the mailbox. -/
structure Waits (n : Nat) (s : HandlerState) : Prop where
  phase : s.actor.phase = .starting
  callback : s.callback = .outside
  mailbox : s.actor.mailbox.length = n
  pipe : s.pipe = []
  pipeEnded : s.pipeEnded = false
  pump : s.pump = .waiting
  record : s.record = some .connected
  mapped : s.mapped = true

/-- The peer fills the mailbox before the actor is polled. -/
theorem run_forwarded {n : Nat} (hn : n ≤ cfg.capacity) :
    ∃ s, (handling cfg).run .new (forwarded n) = some s ∧ s.Waits n := by
  induction n with
  | zero => exact ⟨.new, rfl, ⟨rfl, rfl, rfl, rfl, rfl, rfl, rfl, rfl⟩⟩
  | succ n ih =>
    obtain ⟨s, hrun, hs⟩ := ih (Nat.le_of_succ_le hn)
    have hroom : s.Room cfg := lt_of_eq_of_lt hs.mailbox hn
    have hreceiving : s.actor.phase.receiving = true := by rw [hs.phase]; rfl
    refine ⟨s.push (.inboundEvent (.data .connectionEstablished)), ?_, ?_⟩
    · rw [forwarded, List.replicate_succ', List.flatten_append, ← forwarded,
        Machine.run_append hrun]
      obtain ⟨actor, callback, pipe, pipeEnded, pump, record, mapped, linkDown⟩ := s
      obtain ⟨hphase, rfl, -, rfl, rfl, rfl, rfl, rfl⟩ := hs
      have hlength : actor.mailbox.length < cfg.capacity := hroom
      have hreceiving : actor.phase.receiving = true := hreceiving
      simp [Machine.run, handling, HandlerState.step, emit, pumpNext, pumpForward, sendEvent, push,
        Room, cfg.pipeCapacity_pos, hlength, hreceiving, TransportEvent.isClose]
    · exact ⟨hs.phase, hs.callback, by simp [push, hs.mailbox], hs.pipe, hs.pipeEnded, hs.pump,
        hs.record, hs.mapped⟩

/-- Whatever the capacities, the close is stuck behind as many events as the mailbox holds. -/
theorem run_closeFirst (cfg : HandlerConfig) : ∃ s, (handling cfg).run .new
    (forwarded cfg.capacity ++ closeFirst) = some s ∧ s.Jammed cfg := by
  obtain ⟨s, hrun, hs⟩ := run_forwarded (le_refl cfg.capacity)
  have hfull : ¬s.Room cfg := by
    rw [Room, hs.mailbox]
    exact lt_irrefl _
  refine ⟨{ s with
    record := some .closing
    callback := .awaiting .parked }, ?_, rfl, by rw [hs.phase]; rfl, hfull⟩
  rw [Machine.run_append hrun]
  obtain ⟨actor, callback, pipe, pipeEnded, pump, record, mapped, linkDown⟩ := s
  obtain ⟨hphase, rfl, hmailbox, rfl, rfl, rfl, rfl, rfl⟩ := hs
  have hphase : actor.phase = .starting := hphase
  have hmailbox : actor.mailbox.length = cfg.capacity := hmailbox
  simp [closeFirst, Machine.run, handling, HandlerState.step, enter, call, start, notify, sendEvent,
    tryStartClosing, ActorState.callback?, Room, hphase, hmailbox, ActorPhase.receiving]

/-- Behind as many events as the mailbox holds, the close is stuck. -/
theorem stuck_behind_full_mailbox : ∃ s, (handling defaultHandler).run .new
    (forwarded 512 ++ closeFirst) = some s ∧ s.Awaiting ∧ ¬s.Progress defaultHandler := by
  obtain ⟨s, hrun, hjammed⟩ := run_closeFirst defaultHandler
  exact ⟨s, hrun, hjammed.not_progress⟩

end HandlerState

end MsgTrans.Transport
