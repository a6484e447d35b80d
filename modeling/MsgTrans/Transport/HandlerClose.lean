import MsgTrans.Transport.CloseSession
import MsgTrans.Transport.SessionActor

/-!
# A handler that closes its own session

The session's runtime of `crates/msgtrans/src/transport/transport_server.rs:540–650,765–873` around
its actor (`session_actor.rs:339–355,499–673`): the event pipe of the connection, the pump, the
bounded mailbox and a callback that awaits `close_session` of the session it is called for. The
actor is inside a callback from the step that enters it to the step that leaves it, and takes no
other step in between. Other tasks may send to the actor, close or remove the session, and cancel it
at any time.
-/

namespace MsgTrans.Transport

open MsgTrans.Wire MsgTrans.Adapters MsgTrans.Adapters.Events MsgTrans.Base

/-- The actor of a session, how many messages a batch takes, and the capacities of the mailbox and of
the event pipe. -/
structure HandlerConfig where
  actor : ActorConfig
  limit : Nat
  capacity : Nat
  pipeCapacity : Nat
  capacity_pos : 0 < capacity
  pipeCapacity_pos : 0 < pipeCapacity

/-- The pump; `transport_server.rs:606–645`. -/
inductive PumpStage where
  | waiting
  | forwarding (event : TransportEvent)
  | tearing
  | ended
  deriving DecidableEq, Repr

/-- Where `close_session` stands: before the record is marked, before the send into the mailbox,
parked in that send, in `disconnect`, before `mark_closed`, before `remove_session`;
`transport_server.rs:843–873`. -/
inductive OwnClose where
  | entered
  | notifying
  | parked
  | disconnecting
  | marking
  | cleaning
  deriving DecidableEq, Repr

/-- Whether the actor is inside a callback, and whether that callback awaits a close. -/
inductive CallbackPhase where
  | outside
  | inside
  | awaiting (close : OwnClose)
  deriving DecidableEq, Repr

/-- The runtime of a session: the connection is closed or not, and the server's record and maps have
the session or not. -/
structure HandlerState where
  actor : ActorState
  callback : CallbackPhase
  pipe : List TransportEvent
  pipeEnded : Bool
  pump : PumpStage
  record : Option ConnectionState
  mapped : Bool
  linkDown : Bool
  deriving DecidableEq

/-- What the scheduler does next. -/
inductive HandlerLabel where
  | emit (event : TransportEvent)
  | linkDown
  | pumpNext (answered : Bool)
  | pumpForward
  | pumpCancel
  | pumpTeardown
  | arrive (message : ActorMessage)
  | elsewhere (record : Option ConnectionState) (mapped : Bool)
  | dropSenders
  | cancel
  | act (l : ActorLabel)
  | enter
  | leave
  | call
  | start
  | notify
  | wake
  | disconnected
  | deadline
  | mark
  | clean
  deriving DecidableEq

/-- A step of the close call. -/
def HandlerLabel.ofClose : HandlerLabel → Bool
  | .start | .notify | .wake | .disconnected | .deadline | .mark | .clean => true
  | _ => false

/-- A step of the actor, the only receiver of the mailbox. -/
def HandlerLabel.ofActor : HandlerLabel → Bool
  | .act _ | .enter | .leave | .call => true
  | _ => false

/-- The calls of `SessionHandler`; `session_actor.rs:51–101`. -/
def Effect.isCallback : Effect → Bool
  | .onConnected | .onMessage _ | .onRequest .. | .onMessageSent _ | .onError _
  | .onDisconnected _ => true
  | .send _ | .sendConfirmed _ | .unregistered _ | .refused _ => false

/-- The next step of the actor, where it is a callback. -/
def ActorState.callback? (cfg : ActorConfig) (s : ActorState) : Option ActorLabel :=
  match s.phase with
  | .starting => some .connect
  | .processing (mail :: _) false =>
    if (cfg.turn mail).effects.any Effect.isCallback then some .turn else none
  | .leaving _ => some .disconnect
  | _ => none

/-- The close event, which ends the stream; `transport_server.rs:789–794`. -/
def TransportEvent.isClose : TransportEvent → Bool
  | .connectionClosed _ => true
  | .data _ => false

/-- A response, which may complete a waiter of the server; `transport_server.rs:774–785`. -/
def TransportEvent.isResponse : TransportEvent → Bool
  | .data (.messageReceived packet) => packet.header.packetType = .response
  | _ => false

namespace HandlerState

/-- A session that the server has just added; `transport_server.rs:549–608`. -/
def new : HandlerState where
  actor := .new
  callback := .outside
  pipe := []
  pipeEnded := false
  pump := .waiting
  record := some .connected
  mapped := true
  linkDown := false

/-- The mailbox has a free slot. -/
def Room (cfg : HandlerConfig) (s : HandlerState) : Prop := s.actor.mailbox.length < cfg.capacity

instance (cfg : HandlerConfig) (s : HandlerState) : Decidable (s.Room cfg) :=
  inferInstanceAs (Decidable (_ < _))

/-- Put a message into the mailbox. -/
def push (s : HandlerState) (message : ActorMessage) : HandlerState :=
  { s with actor := { s.actor with
    mailbox := s.actor.mailbox ++ [(message, s.actor.arrived.length)]
    arrived := s.actor.arrived ++ [message] } }

/-- `send_event`: fails without a receiver, and waits for a free slot; `session_actor.rs:339–355`. -/
def sendEvent (cfg : HandlerConfig) (s : HandlerState) (event : TransportEvent) :
    Option HandlerState :=
  if !s.actor.phase.receiving then some s
  else if s.Room cfg then some (s.push (.inboundEvent event))
  else none

/-- `remove_session`; `transport_server.rs:725–752`. -/
def removeSession (s : HandlerState) : HandlerState :=
  { s with
    mapped := false
    record := none }

/-- The adapter puts an event into the pipe, which ends with the close. -/
def emit (cfg : HandlerConfig) (s : HandlerState) (event : TransportEvent) : Option HandlerState :=
  if !s.pipeEnded && s.pipe.length < cfg.pipeCapacity then
    some { s with
      pipe := s.pipe ++ [event]
      pipeEnded := event.isClose }
  else none

/-- The pump takes an event off the pipe; a response that completes a waiter goes no further;
`transport_server.rs:621–632,769–788`. -/
def pumpNext (s : HandlerState) (answered : Bool) : Option HandlerState :=
  match s.pump, s.pipe with
  | .waiting, event :: rest =>
    if answered then if event.isResponse then some { s with pipe := rest } else none
    else some { s with
      pipe := rest
      pump := .forwarding event }
  | .waiting, [] => if s.pipeEnded then some { s with pump := .tearing } else none
  | _, _ => none

/-- The pump forwards its event to the actor; `transport_server.rs:795–804`. -/
def pumpForward (cfg : HandlerConfig) (s : HandlerState) : Option HandlerState :=
  match s.pump with
  | .forwarding event =>
    (s.sendEvent cfg event).map fun s' ↦
      { s' with pump := if event.isClose || !s.actor.phase.receiving then .tearing else .waiting }
  | _ => none

/-- The cancellation arms of the pump; `transport_server.rs:621–632`. -/
def pumpCancel (s : HandlerState) : Option HandlerState :=
  match s.pump with
  | .waiting | .forwarding _ =>
    if s.actor.cancelled then some { s with pump := .tearing } else none
  | _ => none

/-- `pump_teardown`; `transport_server.rs:814–826`. -/
def pumpTeardown (s : HandlerState) : Option HandlerState :=
  match s.pump with
  | .tearing => some { s.removeSession with pump := .ended }
  | _ => none

/-- Another task sends to the actor. -/
def arrive (cfg : HandlerConfig) (s : HandlerState) (message : ActorMessage) :
    Option HandlerState :=
  if s.actor.phase.receiving && s.Room cfg then some (s.push message) else none

/-- The last handle of the session is dropped: neither the map, nor the pump, nor a close has it. -/
def dropSenders (s : HandlerState) : Option HandlerState :=
  if s.mapped = false ∧ s.pump = .ended ∧ s.callback ≠ .awaiting .notifying ∧
      s.callback ≠ .awaiting .parked then
    some { s with actor := { s.actor with sendersGone := true } }
  else none

/-- A step of the actor outside of callbacks. -/
def act (cfg : HandlerConfig) (s : HandlerState) (l : ActorLabel) : Option HandlerState :=
  if l.own && s.callback = .outside && (s.actor.callback? cfg.actor).isNone then
    (s.actor.step cfg.actor cfg.limit l).map fun actor ↦ { s with actor := actor }
  else none

/-- The actor calls its handler. -/
def enter (cfg : HandlerConfig) (s : HandlerState) : Option HandlerState :=
  if s.callback = .outside ∧ (s.actor.callback? cfg.actor).isSome then
    some { s with callback := .inside }
  else none

/-- The callback returns, or panics. -/
def leave (cfg : HandlerConfig) (s : HandlerState) : Option HandlerState :=
  match s.callback, s.actor.callback? cfg.actor with
  | .inside, some l =>
    (s.actor.step cfg.actor cfg.limit l).map fun actor ↦
      { s with
        actor := actor
        callback := .outside }
  | _, _ => none

/-- The callback awaits `close_session` of its own session. -/
def call (s : HandlerState) : Option HandlerState :=
  if s.callback = .inside then some { s with callback := .awaiting .entered } else none

/-- `try_start_closing` and the branch on it; `transport_server.rs:844–851`. -/
def start (s : HandlerState) : Option HandlerState :=
  if s.callback = .awaiting .entered then
    if (tryStartClosing s.record).1 then
      some { s with
        record := (tryStartClosing s.record).2
        callback := .awaiting .notifying }
    else some { s with callback := .inside }
  else none

/-- `notify_actor_closed` up to the first poll of its send; `transport_server.rs:833–840,859–860`. -/
def notify (cfg : HandlerConfig) (s : HandlerState) : Option HandlerState :=
  if s.callback = .awaiting .notifying then
    if s.mapped then
      match s.sendEvent cfg (.connectionClosed .normal) with
      | some s' => some { s' with callback := .awaiting .disconnecting }
      | none => some { s with callback := .awaiting .parked }
    else some { s with callback := .awaiting .disconnecting }
  else none

/-- The parked send goes on. -/
def wake (cfg : HandlerConfig) (s : HandlerState) : Option HandlerState :=
  if s.callback = .awaiting .parked then
    (s.sendEvent cfg (.connectionClosed .normal)).map fun s' ↦
      { s' with callback := .awaiting .disconnecting }
  else none

/-- `disconnect` returns: the connection is closed, or there is none to be closed;
`transport_server.rs:959–982`. -/
def disconnected (s : HandlerState) : Option HandlerState :=
  if s.callback = .awaiting .disconnecting ∧ (s.linkDown ∨ s.mapped = false) then
    some { s with callback := .awaiting .marking }
  else none

/-- The graceful deadline passes; `transport_server.rs:962,977–980`. -/
def deadline (s : HandlerState) : Option HandlerState :=
  if s.callback = .awaiting .disconnecting then some { s with callback := .awaiting .marking }
  else none

/-- `mark_closed`; `transport_server.rs:866`. -/
def mark (s : HandlerState) : Option HandlerState :=
  if s.callback = .awaiting .marking then
    some { s with
      record := markClosed s.record
      callback := .awaiting .cleaning }
  else none

/-- The last step of the close; `transport_server.rs:869–872`. -/
def clean (s : HandlerState) : Option HandlerState :=
  if s.callback = .awaiting .cleaning then some { s.removeSession with callback := .inside }
  else none

/-- One step of the session's runtime or of those around it. -/
def step (cfg : HandlerConfig) (s : HandlerState) : HandlerLabel → Option HandlerState
  | .emit event => s.emit cfg event
  | .linkDown => some { s with linkDown := true }
  | .pumpNext answered => s.pumpNext answered
  | .pumpForward => s.pumpForward cfg
  | .pumpCancel => s.pumpCancel
  | .pumpTeardown => s.pumpTeardown
  | .arrive message => s.arrive cfg message
  | .elsewhere record mapped =>
    some { s with
      record := record
      mapped := mapped }
  | .dropSenders => s.dropSenders
  | .cancel => some { s with actor := { s.actor with cancelled := true } }
  | .act l => s.act cfg l
  | .enter => s.enter cfg
  | .leave => s.leave cfg
  | .call => s.call
  | .start => s.start
  | .notify => s.notify cfg
  | .wake => s.wake cfg
  | .disconnected => s.disconnected
  | .deadline => s.deadline
  | .mark => s.mark
  | .clean => s.clean

end HandlerState

/-- The runtime of a session as a machine. -/
def handling (cfg : HandlerConfig) : Machine HandlerState HandlerLabel where
  start := .new
  step := HandlerState.step cfg

end MsgTrans.Transport
