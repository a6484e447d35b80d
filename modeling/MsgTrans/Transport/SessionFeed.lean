import MsgTrans.Transport.Session

/-!
# What the pump feeds to the actor

The invariant of a server session (`transport_server.rs:603–650,770–842`). It follows a packet
through the queues: what arrived in the mailbox, with the event the pump has in hand, is what the
pump took off the pipe less the responses that completed a waiter. A pump that has left its loop was
cancelled, forwarded the close or found the actor gone.
-/

namespace MsgTrans.Transport

open MsgTrans.Wire MsgTrans.Adapters MsgTrans.Adapters.Events MsgTrans.Base

/-- The packet that an event brings. -/
def packetOf : DataEvent → Option Packet
  | .messageReceived packet => some packet
  | _ => none

/-- The packet that a message of the mailbox brings to the actor. -/
def ActorMessage.packet? : ActorMessage → Option Packet
  | .inboundEvent (.data event) => packetOf event
  | _ => none

/-- The packets that the pump has in hand. -/
def PumpPhase.packets : PumpPhase → List Packet
  | .handling _ (.data event) | .forwarding _ (.data event) => (packetOf event).toList
  | _ => []

/-- The pump has an event of the queue in hand. -/
def PumpPhase.Holds (pump : PumpPhase) (call : Nat) (event : DataEvent) : Prop :=
  pump = .handling (some call) (.data event) ∨ pump = .forwarding (some call) (.data event)

/-- The pump has the closing event in hand. -/
def PumpPhase.HoldsClose (pump : PumpPhase) : Prop :=
  ∃ call reason, pump = .handling call (.connectionClosed reason) ∨
    pump = .forwarding call (.connectionClosed reason)

/-- A callback panicked. -/
def ActorPhase.panicked : ActorPhase → Bool
  | .leaving none | .ended none => true
  | _ => false

/-- The packets among these accepted events, less the responses that completed a waiter. -/
def deliverable (completed : List Nat) (events : List (Nat × DataEvent)) : List Packet :=
  events.filterMap fun x ↦ if x.1 ∈ completed then none else packetOf x.2

/-- The packets among these messages of the mailbox. -/
def packetsOf (messages : List ActorMessage) : List Packet :=
  messages.filterMap ActorMessage.packet?

/-- Only responses complete a waiter. -/
def Responses (completed : List Nat) (taken : List (Nat × DataEvent)) : Prop :=
  ∀ call ∈ completed, ∃ packet,
    (call, .messageReceived packet) ∈ taken ∧ packet.header.packetType = .response

/-- A pump in its loop: what arrived in the mailbox, with the event in hand, is what came off the
pipe, and nobody but the server can have closed the session. -/
structure Running (s : SessionState) : Prop where
  all : packetsOf s.actor.arrived ++ s.pump.packets = deliverable s.completed s.pipe.taken
  hand : ∀ call event, s.pump.Holds call event →
    call ∉ s.completed ∧ ∃ before, s.pipe.taken = before ++ [(call, event)]
  close : s.pump.HoldsClose ↔ s.pipe.closeEmitted = true
  responses : Responses s.completed s.pipe.taken
  next : s.pipe.inNext = true ↔ s.pump = .polling
  senders : s.actor.sendersGone = false
  unclosed : s.serverClosed = false →
    ∀ reason, .inboundEvent (.connectionClosed reason) ∉ s.actor.arrived

/-- A pump out of its loop: it was cancelled, forwarded the close or lost the actor; and a close
that is not the server's came behind every packet. -/
structure Stopped (s : SessionState) : Prop where
  front : packetsOf s.actor.arrived <+: deliverable s.completed s.pipe.taken
  responses : Responses s.completed s.pipe.taken
  why : s.actor.cancelled = true ∨
    (∃ reason, .inboundEvent (.connectionClosed reason) ∈ s.actor.arrived) ∨
    s.actor.phase.panicked = true
  closed : s.serverClosed = false → ∀ before reason behind,
    s.actor.arrived = before ++ .inboundEvent (.connectionClosed reason) :: behind →
      s.pipe.closeEmitted = true ∧
        packetsOf s.actor.arrived = deliverable s.completed s.pipe.taken ∧ packetsOf behind = []

/-- What the pump has done. -/
def Feed (s : SessionState) : Prop := if s.pump.stopped then Stopped s else Running s

/-- The invariant of the session. -/
structure Flow (cfg : SessionConfig) (s : SessionState) : Prop where
  pipe : Delivery cfg.pipe s.pipe
  actor : Standing cfg.actor s.actor
  feed : Feed s

section Step

variable {cfg : SessionConfig} {s s' : SessionState}

theorem Feed.of_stopped (hpump : s.pump.stopped = true) (h : Stopped s) : Feed s := by
  rw [Feed, if_pos hpump]
  exact h

theorem Feed.of_running (hpump : s.pump.stopped = false) (h : Running s) : Feed s := by
  rw [Feed, if_neg (by rw [hpump]; simp)]
  exact h

theorem Feed.stopped (h : Feed s) (hpump : s.pump.stopped = true) : Stopped s := by
  rwa [Feed, if_pos hpump] at h

theorem Feed.running (h : Feed s) (hpump : s.pump.stopped = false) : Running s := by
  rwa [Feed, if_neg (by rw [hpump]; simp)] at h

/-- The feed does not change with what the pipe and the actor do on their own. -/
theorem Feed.congr (h : Feed s) (hpump : s'.pump = s.pump) (hcompleted : s'.completed = s.completed)
    (harrived : s'.actor.arrived = s.actor.arrived) (hserver : s'.serverClosed = s.serverClosed)
    (hreceived : s'.pipe.received = s.pipe.received)
    (hemitted : s'.pipe.closeEmitted = s.pipe.closeEmitted)
    (hnext : s'.pipe.inNext = s.pipe.inNext)
    (hcancel : s.actor.cancelled = true → s'.actor.cancelled = true)
    (hpanic : s.actor.phase.panicked = true → s'.actor.phase.panicked = true)
    (hgone : s.pump.stopped = false → s.actor.sendersGone = false →
      s'.actor.sendersGone = false) : Feed s' := by
  have htaken : s'.pipe.taken = s.pipe.taken := by
    rw [PipeState.taken, hreceived]
    rfl
  cases hstopped : s.pump.stopped with
  | true =>
    have hs := h.stopped hstopped
    refine .of_stopped (by rw [hpump]; exact hstopped) ?_
    constructor
    case front => rw [harrived, hcompleted, htaken]; exact hs.front
    case responses => rw [hcompleted, htaken]; exact hs.responses
    case closed => rw [hserver, harrived, hemitted, hcompleted, htaken]; exact hs.closed
    case why =>
      rw [harrived]
      exact hs.why.imp hcancel (.imp_right hpanic)
  | false =>
    have hs := h.running hstopped
    refine .of_running (by rw [hpump]; exact hstopped) ?_
    constructor
    case all => rw [harrived, hpump, hcompleted, htaken]; exact hs.all
    case hand => rw [hpump, hcompleted, htaken]; exact hs.hand
    case close => rw [hpump, hemitted]; exact hs.close
    case responses => rw [hcompleted, htaken]; exact hs.responses
    case next => rw [hpump, hnext]; exact hs.next
    case senders => exact hgone hstopped hs.senders
    case unclosed => rw [hserver, harrived]; exact hs.unclosed

-- What the adapter does on the pipe, and a wake-up of the pump, leave the consumer's part alone.
private theorem produce_frame {cfg : PipeConfig} {s s' : PipeState} {l : PipeLabel}
    (hl : produces l = true ∨ l = .changed) (h : s.step cfg l = some s') :
    s'.received = s.received ∧ s'.closeEmitted = s.closeEmitted ∧ s'.inNext = s.inNext := by
  cases l with
  | next => simp [produces] at hl
  | recv => simp [produces] at hl
  | abandonNext => simp [produces] at hl
  | _ =>
    simp only [PipeState.step, PipeState.enter, PipeState.charge, PipeState.check,
      PipeState.observe, PipeState.reserve, PipeState.push, PipeState.abandon] at h
    grind [PipeState.setPhase, PipeState.close]

-- The actor's own steps take nothing in.
private theorem own_frame {cfg : ActorConfig} {limit : Nat} {s s' : ActorState} {l : ActorLabel}
    (hl : l.own = true) (h : s.step cfg limit l = some s') :
    s'.arrived = s.arrived ∧ s'.cancelled = s.cancelled ∧ s'.sendersGone = s.sendersGone ∧
      (s.phase.panicked = true → s'.phase.panicked = true) := by
  cases l with
  | arrive message => cases hl
  | dropSenders => cases hl
  | cancel => cases hl
  | _ =>
    simp only [ActorState.step, ActorState.connect, ActorState.recv, ActorState.tryRecv,
      ActorState.turn, ActorState.disconnect] at h
    grind [ActorPhase.panicked]

/-- A message that enters the mailbox finds the actor receiving and a sender left. -/
theorem enqueue_cases {message : ActorMessage} (h : s.enqueue cfg message = some s') :
    s.actor.phase.receiving = true ∧ s.actor.sendersGone = false ∧
      s' = { s with actor := { s.actor with
        mailbox := s.actor.mailbox ++ [(message, s.actor.arrived.length)]
        arrived := s.actor.arrived ++ [message] } } ∧
      s.actor.step cfg.actor batchSize (.arrive message) = some s'.actor := by
  unfold SessionState.enqueue at h
  split at h
  next =>
    obtain ⟨actor, harrive, rfl⟩ := Option.map_eq_some_iff.mp h
    refine ⟨?_, ?_, ?_, harrive⟩
    all_goals
      unfold ActorState.arrive at harrive
      split at harrive
      next hopen =>
        simp only [Bool.and_eq_true, Bool.not_eq_true'] at hopen
        cases harrive
        first | exact hopen.1 | exact hopen.2 | rfl
      next => cases harrive
  next => cases h

-- A message of another task brings no packet.
private theorem Feed.other (h : Feed s) {message : ActorMessage}
    (hpacket : message.packet? = none) {serverClosed : Bool} {mailbox : List Mail}
    (hserver : serverClosed = false → s.serverClosed = false ∧
      ∀ reason, message ≠ .inboundEvent (.connectionClosed reason)) :
    Feed { s with
      actor := { s.actor with
        mailbox := mailbox
        arrived := s.actor.arrived ++ [message] }
      serverClosed := serverClosed } := by
  have hpackets : ∀ messages, packetsOf (messages ++ [message]) = packetsOf messages := by
    intro messages
    simp [packetsOf, List.filterMap_append, hpacket]
  cases hstopped : s.pump.stopped with
  | true =>
    have hs := h.stopped hstopped
    refine .of_stopped hstopped ?_
    constructor
    case front => simpa only [hpackets] using hs.front
    case responses => exact hs.responses
    case why =>
      refine hs.why.imp_right (.imp_left ?_)
      rintro ⟨reason, hmem⟩
      exact ⟨reason, List.mem_append.mpr (.inl hmem)⟩
    case closed =>
      intro hfalse before reason behind heq
      obtain ⟨hold, hne⟩ := hserver hfalse
      -- The close is not the new message, so it stands in what had arrived before.
      obtain ⟨back, rfl, harrived⟩ : ∃ back, behind = back ++ [message] ∧
          s.actor.arrived = before ++ .inboundEvent (.connectionClosed reason) :: back := by
        obtain rfl | ⟨back, last, rfl⟩ := List.eq_nil_or_concat' behind
        · have hlast := List.append_inj_right' heq rfl
          exact absurd (List.singleton_inj.mp hlast) (hne reason)
        · rw [← List.cons_append, ← List.append_assoc] at heq
          obtain ⟨harrived, hlast⟩ := List.append_inj' heq rfl
          rw [List.singleton_inj.mp hlast]
          exact ⟨back, rfl, harrived⟩
      obtain ⟨hemitted, hall, hback⟩ := hs.closed hold before reason back harrived
      exact ⟨hemitted, by simpa only [hpackets] using hall, by rw [hpackets, hback]⟩
  | false =>
    have hs := h.running hstopped
    refine .of_running hstopped ?_
    constructor
    case all => simpa only [hpackets] using hs.all
    case hand => exact hs.hand
    case close => exact hs.close
    case responses => exact hs.responses
    case next => exact hs.next
    case senders => exact hs.senders
    case unclosed =>
      intro hfalse reason hmem
      obtain ⟨hold, hne⟩ := hserver hfalse
      obtain hmem | hmem := List.mem_append.mp hmem
      · exact hs.unclosed hold reason hmem
      · exact hne reason (List.mem_singleton.mp hmem).symm

-- The pump leaves its loop and drops what it has in hand.
private theorem Running.stop (h : Running s) {pipe : PipeState}
    (hreceived : pipe.received = s.pipe.received)
    (hwhy : s.actor.cancelled = true ∨
      (∃ reason, .inboundEvent (.connectionClosed reason) ∈ s.actor.arrived) ∨
      s.actor.phase.panicked = true) :
    Feed { s with
      pipe := pipe
      pump := .teardown } := by
  have htaken : pipe.taken = s.pipe.taken := by
    rw [PipeState.taken, hreceived]
    rfl
  refine .of_stopped rfl ?_
  constructor
  case front =>
    rw [htaken]
    exact ⟨_, h.all⟩
  case responses =>
    rw [htaken]
    exact h.responses
  case why => exact hwhy
  case closed =>
    intro hserver before reason behind heq
    refine absurd ?_ (h.unclosed hserver reason)
    rw [heq]
    simp

theorem deliverable_append (completed : List Nat) (front back : List (Nat × DataEvent)) :
    deliverable completed (front ++ back) =
      deliverable completed front ++ deliverable completed back := List.filterMap_append

theorem deliverable_singleton {completed : List Nat} {call : Nat} (hcall : call ∉ completed)
    (event : DataEvent) : deliverable completed [(call, event)] = (packetOf event).toList := by
  cases h : packetOf event with
  | none => simp [deliverable, hcall, h]
  | some packet => simp [deliverable, hcall, h]

-- No call enqueues twice.
private theorem notMem_before {cfg : PipeConfig} {s : PipeState} (h : Delivery cfg s)
    {before behind : List (Nat × DataEvent)} {call : Nat} {event : DataEvent}
    (hsplit : s.enqueued = before ++ (call, event) :: behind) :
    call ∉ before.map Prod.fst := by
  have hnodup := h.once
  rw [hsplit, List.map_append, List.map_cons] at hnodup
  intro hmem
  exact (List.nodup_append.mp hnodup).2.2 call hmem call List.mem_cons_self rfl

-- The pump takes an event off the queue.
private theorem Running.take (h : Running s) (hpipe : Delivery cfg.pipe s.pipe)
    (hpump : s.pump = .polling) {call : Nat} {event : DataEvent} {rest : List (Nat × DataEvent)}
    (hqueue : s.pipe.queue = (call, event) :: rest) :
    Running { s with
      pipe := { s.pipe with
        queue := rest
        inNext := false
        received := s.pipe.received ++ [.event call event] }
      pump := .handling (some call) (.data event) } := by
  have htaken : (s.pipe.received ++ [Output.event call event]).filterMap Output.event? =
      s.pipe.taken ++ [(call, event)] := List.filterMap_append
  have hfresh : call ∉ s.pipe.taken.map Prod.fst := by
    have hsplit := hpipe.split
    rw [hqueue] at hsplit
    exact notMem_before hpipe hsplit
  have hcall : call ∉ s.completed := by
    intro hmem
    obtain ⟨packet, htaken, -⟩ := h.responses call hmem
    exact hfresh (List.mem_map_of_mem htaken)
  have hopen : ¬ s.pipe.closeEmitted = true := by
    rw [← h.close, hpump]
    simp [PumpPhase.HoldsClose]
  constructor
  case all =>
    have hbefore := h.all
    rw [hpump] at hbefore
    rw [PipeState.taken, htaken, deliverable_append, deliverable_singleton hcall, ← hbefore]
    simp [PumpPhase.packets]
  case hand =>
    rintro call' event' (heq | heq)
    · cases heq
      exact ⟨hcall, s.pipe.taken, htaken⟩
    · cases heq
  case close => simp [PumpPhase.HoldsClose, hopen]
  case responses =>
    intro call' hmem
    obtain ⟨packet, hmem', htype⟩ := h.responses call' hmem
    rw [PipeState.taken, htaken]
    exact ⟨packet, List.mem_append.mpr (.inl hmem'), htype⟩
  case next => simp
  case senders => exact h.senders
  case unclosed => exact h.unclosed

-- The pipe gives the pump its closing event.
private theorem Running.emit (h : Running s) (hpump : s.pump = .polling) (reason : CloseReason) :
    Running { s with
      pipe := { s.pipe with
        inNext := false
        closeEmitted := true
        received := s.pipe.received ++ [.connectionClosed reason] }
      pump := .handling none (.connectionClosed reason) } := by
  have htaken : (s.pipe.received ++ [Output.connectionClosed reason]).filterMap Output.event? =
      s.pipe.taken := by
    rw [List.filterMap_append]
    exact List.append_nil _
  constructor
  case all =>
    have hbefore := h.all
    rw [hpump] at hbefore
    rw [PipeState.taken, htaken]
    exact hbefore
  case hand => simp [PumpPhase.Holds]
  case close => simp [PumpPhase.HoldsClose]
  case responses =>
    rw [PipeState.taken, htaken]
    exact h.responses
  case next => simp
  case senders => exact h.senders
  case unclosed => exact h.unclosed

-- A response that completes a waiter goes no further.
private theorem Running.complete (h : Running s) (hpipe : Delivery cfg.pipe s.pipe) {call : Nat}
    {packet : Packet} (hpump : s.pump = .handling (some call) (.data (.messageReceived packet)))
    (htype : packet.header.packetType = .response) :
    Running { s with
      pump := .idle
      completed := s.completed ++ [call] } := by
  obtain ⟨hcall, before, htaken⟩ := h.hand call _ (.inl hpump)
  have hfresh : call ∉ before.map Prod.fst := by
    have hsplit := hpipe.split
    rw [htaken, List.append_assoc] at hsplit
    exact notMem_before hpipe hsplit
  have hothers : deliverable (s.completed ++ [call]) before = deliverable s.completed before := by
    refine List.filterMap_congr fun x hx ↦ ?_
    have hne : x.1 ≠ call := fun heq ↦ hfresh (heq ▸ List.mem_map_of_mem hx)
    simp [hne]
  have hlast : deliverable (s.completed ++ [call]) [(call, .messageReceived packet)] = [] := by
    simp [deliverable]
  constructor
  case all =>
    have hall := h.all
    rw [htaken, deliverable_append, deliverable_singleton hcall, hpump] at hall
    simp only [htaken, deliverable_append, hothers, hlast, List.append_nil]
    exact (List.append_cancel_right hall) ▸ List.append_nil _
  case hand => simp [PumpPhase.Holds]
  case close =>
    rw [← h.close, hpump]
    simp [PumpPhase.HoldsClose]
  case responses =>
    intro call' hmem
    obtain hmem | hmem := List.mem_append.mp hmem
    · exact h.responses call' hmem
    · rw [List.mem_singleton.mp hmem, htaken]
      exact ⟨packet, List.mem_append.mpr (.inr List.mem_cons_self), htype⟩
  case next =>
    rw [h.next, hpump]
    simp
  case senders => exact h.senders
  case unclosed => exact h.unclosed

-- The pump goes on with what it has in hand.
private theorem Running.move (h : Running s) {pipe : PipeState} {pump : PumpPhase}
    (hpackets : pump.packets = s.pump.packets)
    (hhand : ∀ call event, pump.Holds call event → s.pump.Holds call event)
    (hclose : pump.HoldsClose ↔ s.pump.HoldsClose)
    (hreceived : pipe.received = s.pipe.received)
    (hemitted : pipe.closeEmitted = s.pipe.closeEmitted)
    (hnext : pipe.inNext = true ↔ pump = .polling) :
    Running { s with
      pipe := pipe
      pump := pump } := by
  have htaken : pipe.taken = s.pipe.taken := by
    rw [PipeState.taken, hreceived]
    rfl
  constructor
  case all => simpa only [hpackets, htaken] using h.all
  case hand =>
    intro call event hholds
    simpa only [htaken] using h.hand call event (hhand call event hholds)
  case close => simpa only [hclose, hemitted] using h.close
  case responses => simpa only [htaken] using h.responses
  case next => exact hnext
  case senders => exact h.senders
  case unclosed => exact h.unclosed

-- An event of the queue enters the mailbox.
private theorem Running.forward (h : Running s) {call : Option Nat} {event : DataEvent}
    {mailbox : List Mail} (hpump : s.pump = .forwarding call (.data event)) :
    Running { s with
      actor := { s.actor with
        mailbox := mailbox
        arrived := s.actor.arrived ++ [.inboundEvent (.data event)] }
      pump := .idle } := by
  constructor
  case all =>
    have hall := h.all
    rw [hpump] at hall
    rw [← hall]
    cases hpacket : packetOf event with
    | none => simp [packetsOf, ActorMessage.packet?, PumpPhase.packets, hpacket]
    | some packet => simp [packetsOf, ActorMessage.packet?, PumpPhase.packets, hpacket]
  case hand => simp [PumpPhase.Holds]
  case close =>
    rw [← h.close, hpump]
    simp [PumpPhase.HoldsClose]
  case responses => exact h.responses
  case next =>
    rw [h.next, hpump]
    simp
  case senders => exact h.senders
  case unclosed =>
    intro hserver reason hmem
    obtain hmem | hmem := List.mem_append.mp hmem
    · exact h.unclosed hserver reason hmem
    · cases List.mem_singleton.mp hmem

-- The closing event enters the mailbox: it is the last thing the pump forwards.
private theorem Running.forwardClose (h : Running s) {call : Option Nat} {reason : CloseReason}
    {mailbox : List Mail} (hpump : s.pump = .forwarding call (.connectionClosed reason)) :
    Feed { s with
      actor := { s.actor with
        mailbox := mailbox
        arrived := s.actor.arrived ++ [.inboundEvent (.connectionClosed reason)] }
      pump := .teardown } := by
  have hpackets : packetsOf
      (s.actor.arrived ++ [ActorMessage.inboundEvent (.connectionClosed reason)]) =
        deliverable s.completed s.pipe.taken := by
    have hall := h.all
    rw [hpump] at hall
    rw [← hall]
    simp [packetsOf, ActorMessage.packet?, PumpPhase.packets]
  have hemitted : s.pipe.closeEmitted = true := h.close.mp ⟨call, reason, .inr hpump⟩
  refine .of_stopped rfl ?_
  constructor
  case front => exact ⟨[], by rw [List.append_nil]; exact hpackets⟩
  case responses => exact h.responses
  case why => exact .inr (.inl ⟨reason, List.mem_append.mpr (.inr List.mem_cons_self)⟩)
  case closed =>
    intro hserver before reason' behind heq
    refine ⟨hemitted, hpackets, ?_⟩
    -- No other close has arrived, so nothing stands behind this one.
    obtain rfl | ⟨back, last, rfl⟩ := List.eq_nil_or_concat' behind
    · rfl
    · rw [← List.cons_append, ← List.append_assoc] at heq
      obtain ⟨harrived, -⟩ := List.append_inj' heq rfl
      refine absurd ?_ (h.unclosed hserver reason')
      rw [harrived]
      simp

/-- Only a close ends the loop with a reason. -/
theorem handle_closed {cfg : ActorConfig} {answer : Answer} {message : ActorMessage}
    {reason : CloseReason} (h : (handle cfg answer message).outcome = .closed reason) :
    message = .inboundEvent (.connectionClosed reason) := by
  unfold handle handlePacket Answer.callback Turn.quiet at h
  grind

/-- Why an actor with a sender left is out of its loop. -/
theorem Standing.left {cfg : ActorConfig} {s : ActorState} (h : Standing cfg s)
    (hleft : s.phase.receiving = false) (hsenders : s.sendersGone = false) :
    s.cancelled = true ∨ (∃ reason, .inboundEvent (.connectionClosed reason) ∈ s.arrived) ∨
      s.phase.panicked = true := by
  obtain ⟨done, result, hexit, hresult⟩ : ∃ done result, Exit cfg s done result ∧
      (result = none → s.phase.panicked = true) := by
    cases hphase : s.phase with
    | leaving result =>
      simp only [Standing, hphase] at h
      obtain ⟨done, hexit, -⟩ := h
      exact ⟨done, result, hexit, by rintro rfl; rfl⟩
    | ended result =>
      simp only [Standing, hphase] at h
      obtain ⟨done, hexit, -⟩ := h
      exact ⟨done, result, hexit, by rintro rfl; rfl⟩
    | _ =>
      rw [hphase] at hleft
      cases hleft
  cases hexit with
  | connectPanicked => exact .inr (.inr (hresult rfl))
  | cancelled hcancel => exact .inl hcancel
  | gone hgone =>
    rw [hsenders] at hgone
    cases hgone
  | @closed done mail reason hconnect hdone hall hmail =>
    refine .inr (.inl ⟨reason, ?_⟩)
    rw [← handle_closed hmail]
    exact List.fst_mem_of_mem_zipIdx (hdone.subset (List.mem_append.mpr (.inr List.mem_cons_self)))
  | panicked => exact .inr (.inr (hresult rfl))

private theorem Flow.recv (h : Flow cfg s) (hs : s.recv = some s') : Flow cfg s' := by
  unfold SessionState.recv at hs
  split at hs
  next hpump =>
    have hrun := h.feed.running (by rw [hpump]; rfl)
    obtain ⟨pipe, hrecv, rfl⟩ := Option.map_eq_some_iff.mp hs
    have hdelivery : Delivery cfg.pipe pipe := h.pipe.step (step_sound (l := .recv) hrecv)
    refine ⟨hdelivery, h.actor, ?_⟩
    unfold PipeState.recv at hrecv
    split at hrecv
    next =>
      split at hrecv
      next call event rest hqueue =>
        cases hrecv
        simp only [List.getLast?_concat]
        exact .of_running rfl (hrun.take h.pipe hpump hqueue)
      next hqueue =>
        split at hrecv
        next =>
          split at hrecv
          next hlast =>
            -- The pump stops behind the closing event, so it never gets here.
            have hholds := hrun.close.mpr hlast
            simp [PumpPhase.HoldsClose, hpump] at hholds
          next =>
            cases hrecv
            simp only [List.getLast?_concat]
            exact .of_running rfl (hrun.emit hpump _)
        next => cases hrecv
    next => cases hrecv
  next => cases hs

private theorem Flow.pumpCancelled (h : Flow cfg s) (hs : s.pumpCancelled cfg = some s') :
    Flow cfg s' := by
  unfold SessionState.pumpCancelled at hs
  split at hs
  next hcancel =>
    split at hs
    next hpump =>
      cases hs
      exact ⟨h.pipe, h.actor, (h.feed.running (by rw [hpump]; rfl)).stop rfl (.inl hcancel)⟩
    next hpump =>
      have hrun := h.feed.running (by rw [hpump]; rfl)
      obtain ⟨pipe, hpipe, rfl⟩ := Option.map_eq_some_iff.mp hs
      refine ⟨h.pipe.step (step_sound hpipe), h.actor, hrun.stop ?_ (.inl hcancel)⟩
      simp only [PipeState.step] at hpipe
      split at hpipe
      · cases hpipe
        rfl
      · cases hpipe
    next hpump =>
      cases hs
      exact ⟨h.pipe, h.actor, (h.feed.running (by rw [hpump]; rfl)).stop rfl (.inl hcancel)⟩
    next hpump =>
      cases hs
      exact ⟨h.pipe, h.actor, (h.feed.running (by rw [hpump]; rfl)).stop rfl (.inl hcancel)⟩
    next => cases hs
  next => cases hs

private theorem Flow.dispatch (h : Flow cfg s) {completes : Bool}
    (hs : s.dispatch completes = some s') : Flow cfg s' := by
  -- An event goes on to the send.
  have hforward : ∀ {call event}, s.pump = .handling call event →
      Flow cfg { s with pump := .forwarding call event } := by
    intro call event hpump
    have hrun := h.feed.running (by rw [hpump]; rfl)
    refine ⟨h.pipe, h.actor, .of_running rfl (hrun.move ?_ ?_ ?_ rfl rfl ?_)⟩
    · rw [hpump]
      cases event <;> rfl
    · rintro call' event' (heq | heq)
      · cases heq
      · cases heq
        exact .inl hpump
    · rw [hpump]
      simp [PumpPhase.HoldsClose]
    · rw [hrun.next, hpump]
      simp
  unfold SessionState.dispatch at hs
  split at hs
  next call packet hpump =>
    split at hs
    next hcomplete =>
      cases hs
      have hrun := h.feed.running (by rw [hpump]; rfl)
      exact ⟨h.pipe, h.actor, .of_running rfl (hrun.complete h.pipe hpump hcomplete.1)⟩
    next =>
      cases hs
      exact hforward hpump
  next call event _ hpump =>
    cases hs
    exact hforward hpump
  next => cases hs

private theorem Flow.forward (h : Flow cfg s) (hs : s.forward cfg = some s') : Flow cfg s' := by
  unfold SessionState.forward at hs
  split at hs
  next call event hpump =>
    have hrun := h.feed.running (by rw [hpump]; rfl)
    split at hs
    next =>
      obtain ⟨s₁, henqueue, rfl⟩ := Option.map_eq_some_iff.mp hs
      obtain ⟨-, -, rfl, hstep⟩ := enqueue_cases henqueue
      refine ⟨h.pipe, h.actor.step hstep, ?_⟩
      cases event with
      | data event => exact .of_running rfl (hrun.forward hpump)
      | connectionClosed reason => exact hrun.forwardClose hpump
    next hleft =>
      cases hs
      refine ⟨h.pipe, h.actor, hrun.stop rfl ?_⟩
      exact h.actor.left (by simpa using hleft) hrun.senders
  next => cases hs

/-- Every step of the session keeps the invariant. -/
theorem Flow.step (h : Flow cfg s) {l : SessionLabel} (hs : s.step cfg l = some s') :
    Flow cfg s' := by
  cases l with
  | produce label =>
    simp only [SessionState.step] at hs
    split at hs
    next hproduces =>
      obtain ⟨pipe, hpipe, rfl⟩ := Option.map_eq_some_iff.mp hs
      obtain ⟨hreceived, hemitted, hnext⟩ := produce_frame (.inl hproduces) hpipe
      exact ⟨h.pipe.step (step_sound hpipe), h.actor,
        h.feed.congr rfl rfl rfl rfl hreceived hemitted hnext id id fun _ ↦ id⟩
    next => cases hs
  | command message =>
    simp only [SessionState.step] at hs
    split at hs
    next hcommand =>
      obtain ⟨-, -, rfl, hstep⟩ := enqueue_cases hs
      refine ⟨h.pipe, h.actor.step hstep, h.feed.other ?_ fun hserver ↦ ⟨hserver, ?_⟩⟩
      · cases message with
        | inboundEvent event => cases hcommand
        | send packet => rfl
        | sendWithReply packet reply => rfl
      · rintro reason rfl
        cases hcommand
    next => cases hs
  | serverClose reason =>
    obtain ⟨s₁, henqueue, rfl⟩ := Option.map_eq_some_iff.mp hs
    obtain ⟨-, -, rfl, hstep⟩ := enqueue_cases henqueue
    refine ⟨h.pipe, h.actor.step hstep, h.feed.other rfl fun hserver ↦ ?_⟩
    cases hserver
  | removeSession =>
    cases hs
    exact ⟨h.pipe, h.actor, h.feed.congr rfl rfl rfl rfl rfl rfl rfl id id fun _ ↦ id⟩
  | dropSenders =>
    simp only [SessionState.step] at hs
    split at hs
    next hdone =>
      cases hs
      have hstep : s.actor.step cfg.actor batchSize .dropSenders = some _ := rfl
      refine ⟨h.pipe, h.actor.step hstep, h.feed.congr rfl rfl rfl rfl rfl rfl rfl id id fun hrun ↦ ?_⟩
      rw [hdone.1] at hrun
      cases hrun
    next => cases hs
  | cancel =>
    cases hs
    have hstep : s.actor.step cfg.actor batchSize .cancel = some _ := rfl
    exact ⟨h.pipe, h.actor.step hstep,
      h.feed.congr rfl rfl rfl rfl rfl rfl rfl (fun _ ↦ rfl) id fun _ ↦ id⟩
  | next =>
    simp only [SessionState.step] at hs
    split at hs
    next hpump =>
      have hrun := h.feed.running (by rw [hpump]; rfl)
      obtain ⟨pipe, hpipe, rfl⟩ := Option.map_eq_some_iff.mp hs
      refine ⟨h.pipe.step (step_sound hpipe), h.actor, .of_running rfl ?_⟩
      simp only [PipeState.step] at hpipe
      split at hpipe
      · cases hpipe
      · cases hpipe
        refine hrun.move ?_ ?_ ?_ rfl rfl ?_
        · rw [hpump]
          rfl
        · simp [PumpPhase.Holds]
        · rw [hpump]
          simp [PumpPhase.HoldsClose]
        · simp
    next => cases hs
  | recv => exact h.recv hs
  | changed =>
    simp only [SessionState.step] at hs
    split at hs
    next =>
      obtain ⟨pipe, hpipe, rfl⟩ := Option.map_eq_some_iff.mp hs
      obtain ⟨hreceived, hemitted, hnext⟩ := produce_frame (.inr rfl) hpipe
      exact ⟨h.pipe.step (step_sound hpipe), h.actor,
        h.feed.congr rfl rfl rfl rfl hreceived hemitted hnext id id fun _ ↦ id⟩
    next => cases hs
  | pumpCancelled => exact h.pumpCancelled hs
  | dispatch completes => exact h.dispatch hs
  | forward => exact h.forward hs
  | tearDown =>
    simp only [SessionState.step] at hs
    split at hs
    next hpump =>
      cases hs
      have hstopped := h.feed.stopped (by rw [hpump]; rfl)
      exact ⟨h.pipe, h.actor, .of_stopped rfl { hstopped with }⟩
    next => cases hs
  | act label =>
    simp only [SessionState.step] at hs
    split at hs
    next hown =>
      obtain ⟨actor, hstep, rfl⟩ := Option.map_eq_some_iff.mp hs
      obtain ⟨harrived, hcancel, hgone, hpanic⟩ := own_frame hown hstep
      refine ⟨h.pipe, h.actor.step hstep, h.feed.congr rfl rfl harrived rfl rfl rfl rfl ?_ hpanic ?_⟩
      · exact fun hc ↦ hcancel.trans hc
      · exact fun _ hg ↦ hgone.trans hg
    next => cases hs

end Step

end MsgTrans.Transport
