import MsgTrans.Adapters.EventDelivery
import MsgTrans.Transport.ActorTrace

/-!
# One server session

Model of the tasks that `add_session_with_permit` starts for a session
(`crates/msgtrans/src/transport/transport_server.rs:603–650,770–842`): the event pipe of the
connection, the pump that forwards its events, the bounded mailbox and the actor. The adapter's
calls on the pipe, the commands and closes of other tasks, removals and cancellation are
interleaved with them. A message enters the mailbox when there is room for it; a rendezvous mailbox
counts as one of capacity one, which has more runs. The answers of `complete_waiter` are left to the
schedule. The handle of the actor is always in its map, since inserting into that map cannot fail.
-/

namespace MsgTrans.Transport

open MsgTrans.Wire MsgTrans.Adapters MsgTrans.Adapters.Events MsgTrans.Base

/-- A session: its pipe, the capacity of its mailbox, and what its handler and registry do. -/
structure SessionConfig where
  pipe : PipeConfig
  capacity : Nat
  connectPanics : Bool
  answer : Nat → Answer

/-- A server session has a registry; `transport_server.rs:585`. -/
def SessionConfig.actor (cfg : SessionConfig) : ActorConfig where
  inboundRegistry := true
  connectPanics := cfg.connectPanics
  answer := cfg.answer

/-- Where the pump stands: at the top of its loop, in the `select!` over `pipe.next()`, with an
event that `pump_one_event` has not seen, in `send_event`, out of its loop, or done. An event that
came through the queue of the pipe has the number of its call. -/
inductive PumpPhase where
  | idle
  | polling
  | handling (call : Option Nat) (event : TransportEvent)
  | forwarding (call : Option Nat) (event : TransportEvent)
  | teardown
  | finished
  deriving DecidableEq, Repr

/-- The pump has left its loop. -/
def PumpPhase.stopped : PumpPhase → Bool
  | .teardown | .finished => true
  | _ => false

/-- The session's state; `registered` says that the handle is in the server's map. The history
has the calls whose response completed a waiter and whether the server closed the session. -/
structure SessionState where
  pipe : PipeState
  pump : PumpPhase
  actor : ActorState
  registered : Bool
  serverClosed : Bool
  completed : List Nat
  deriving DecidableEq

/-- What the scheduler does next. -/
inductive SessionLabel where
  | produce (label : PipeLabel)
  | command (message : ActorMessage)
  | serverClose (reason : CloseReason)
  | removeSession
  | dropSenders
  | cancel
  | next
  | recv
  | changed
  | pumpCancelled
  | dispatch (completes : Bool)
  | forward
  | tearDown
  | act (label : ActorLabel)
  deriving DecidableEq

/-- A step of the pump or the actor. -/
def SessionLabel.own : SessionLabel → Bool
  | .next | .recv | .changed | .pumpCancelled | .dispatch _ | .forward | .tearDown => true
  | .act label => label.own
  | _ => false

/-- A label of the pipe that is not the consumer's. -/
def produces : PipeLabel → Bool
  | .next | .recv | .changed | .abandonNext => false
  | _ => true

/-- A message that other tasks send: a command, not an event. -/
def ActorMessage.isCommand : ActorMessage → Bool
  | .send _ | .sendWithReply _ _ => true
  | .inboundEvent _ => false

namespace SessionState

/-- A session whose tasks were just spawned. -/
def new : SessionState where
  pipe := .new
  pump := .idle
  actor := .new
  registered := true
  serverClosed := false
  completed := []

/-- A message enters the mailbox if there is room for it. -/
def enqueue (cfg : SessionConfig) (s : SessionState) (message : ActorMessage) :
    Option SessionState :=
  if s.actor.mailbox.length < max cfg.capacity 1 then
    (s.actor.arrive message).map fun actor ↦ { s with actor := actor }
  else none

/-- The receive arm of `pipe.next()` in the `select!`; `transport_server.rs:621–625`. -/
def recv (s : SessionState) : Option SessionState :=
  match s.pump with
  | .polling =>
    s.pipe.recv.map fun pipe ↦
      { s with
        pipe := pipe
        pump := match pipe.received.getLast? with
          | some (.event call event) => .handling (some call) (.data event)
          | some (.connectionClosed reason) => .handling none (.connectionClosed reason)
          | _ => .teardown }
  | _ => none

/-- The cancellation arms of both `select!`s; `transport_server.rs:622,628`. -/
def pumpCancelled (cfg : SessionConfig) (s : SessionState) : Option SessionState :=
  if s.actor.cancelled then
    match s.pump with
    | .idle => some { s with pump := .teardown }
    | .polling =>
      (s.pipe.step cfg.pipe .abandonNext).map fun pipe ↦
        { s with
          pipe := pipe
          pump := .teardown }
    | .handling _ _ | .forwarding _ _ => some { s with pump := .teardown }
    | _ => none
  else none

/-- The first poll of `pump_one_event`, up to the send; `transport_server.rs:776–788`. -/
def dispatch (s : SessionState) (completes : Bool) : Option SessionState :=
  match s.pump with
  | .handling (some call) (.data (.messageReceived packet)) =>
    if packet.header.packetType = .response ∧ completes then
      some { s with
        pump := .idle
        completed := s.completed ++ [call] }
    else some { s with pump := .forwarding (some call) (.data (.messageReceived packet)) }
  | .handling call event => some { s with pump := .forwarding call event }
  | _ => none

/-- The send of an event to the actor; `transport_server.rs:790–805`. -/
def forward (cfg : SessionConfig) (s : SessionState) : Option SessionState :=
  match s.pump with
  | .forwarding _ event =>
    if s.actor.phase.receiving then
      (s.enqueue cfg (.inboundEvent event)).map fun s' ↦
        { s' with
          pump := match event with
            | .connectionClosed _ => .teardown
            | .data _ => .idle }
    else some { s with pump := .teardown }
  | _ => none

/-- One step of the session or of those around it. -/
def step (cfg : SessionConfig) (s : SessionState) : SessionLabel → Option SessionState
  | .produce label =>
    if produces label then
      (s.pipe.step cfg.pipe label).map fun pipe ↦ { s with pipe := pipe }
    else none
  | .command message => if message.isCommand then s.enqueue cfg message else none
  | .serverClose reason =>
    (s.enqueue cfg (.inboundEvent (.connectionClosed reason))).map fun s' ↦
      { s' with serverClosed := true }
  | .removeSession => some { s with registered := false }
  -- The pump holds a handle as long as it runs.
  | .dropSenders =>
    if s.pump = .finished ∧ s.registered = false then
      some { s with actor := { s.actor with sendersGone := true } }
    else none
  | .cancel => some { s with actor := { s.actor with cancelled := true } }
  | .next =>
    match s.pump with
    | .idle =>
      (s.pipe.step cfg.pipe .next).map fun pipe ↦
        { s with
          pipe := pipe
          pump := .polling }
    | _ => none
  | .recv => s.recv
  | .changed =>
    match s.pump with
    | .polling => (s.pipe.step cfg.pipe .changed).map fun pipe ↦ { s with pipe := pipe }
    | _ => none
  | .pumpCancelled => s.pumpCancelled cfg
  | .dispatch completes => s.dispatch completes
  | .forward => s.forward cfg
  | .tearDown =>
    if s.pump = .teardown then
      some { s with
        pump := .finished
        registered := false }
    else none
  | .act label =>
    if label.own then
      (s.actor.step cfg.actor batchSize label).map fun actor ↦ { s with actor := actor }
    else none

end SessionState

/-- The session as a machine. -/
def session (cfg : SessionConfig) : Machine SessionState SessionLabel where
  start := .new
  step := SessionState.step cfg

end MsgTrans.Transport
