import MsgTrans.Adapters.Events
import MsgTrans.Registry.State

/-!
# The session actor

Model of `crates/msgtrans/src/transport/session_actor.rs:28–101,412–673`. The mailbox is a queue in
the order of arrival; arrivals, cancellation and the drop of the sender handles are interleaved with
every receive and every handled message. What the actor cannot know, whether a callback panics, what
the registry answers and what a write returns, is answered for each message by its place in the
mailbox. Every callback also gets the session's id, and `on_connected` the connection's info, which
are the same throughout and left out. How many messages a batch takes is a parameter; the code's is
`batchSize`.
-/

namespace MsgTrans.Transport

open MsgTrans.Wire MsgTrans.Adapters MsgTrans.Adapters.Events MsgTrans.Base MsgTrans.Registry

/-- `TransportEvent`: what the data plane carries, or the close; `event.rs:12–31`. -/
inductive TransportEvent where
  | data (event : DataEvent)
  | connectionClosed (reason : CloseReason)
  deriving DecidableEq, Repr

/-- `ActorMessage`; a reply channel is a number; `session_actor.rs:34–44`. -/
inductive ActorMessage where
  | inboundEvent (event : TransportEvent)
  | send (packet : Packet)
  | sendWithReply (packet : Packet) (reply : Nat)
  deriving DecidableEq, Repr

/-- What the actor does that others see: the callbacks of `SessionHandler`
(`session_actor.rs:51–101`), the two kinds of writes, and the two ways to drop a request. -/
inductive Effect where
  | onConnected
  | onMessage (packet : Packet)
  | onRequest (packet : Packet) (token : RequestToken)
  | onMessageSent (packetId : UInt32)
  | onError (error : TransportError)
  | onDisconnected (reason : CloseReason)
  | send (packet : Packet)
  | sendConfirmed (packet : Packet)
  | unregistered (packet : Packet)
  | refused (packet : Packet)
  deriving DecidableEq, Repr

/-- A reply channel with what was sent on it. -/
abbrev Reply := Nat × Except TransportError Unit

/-- What a message meets when it is handled: the answer of `register`, whether its callback panics,
and what a confirmed write returns. -/
structure Answer where
  token : Option RequestToken
  panics : Bool
  result : Except TransportError Unit

/-- An actor: whether it has a registry, and what `on_connected` and the messages of the mailbox,
in order of arrival, meet. -/
structure ActorConfig where
  inboundRegistry : Bool
  connectPanics : Bool
  answer : Nat → Answer

/-- `BATCH_SIZE`; `session_actor.rs:413`. -/
def batchSize : Nat := 64

/-- The reason that `on_disconnected` gets for the result of `run_loop`, where a panic is `none`;
`session_actor.rs:487–490`. -/
def finalReason (result : Option CloseReason) : CloseReason :=
  result.getD (.error "session handler panicked")

/-- The reply to a command behind a close; `session_actor.rs:546–549`. -/
def sessionClosed : TransportError := .connection "session closed" true

/-- How the handling of a message ends. -/
inductive Outcome where
  | continued
  | closed (reason : CloseReason)
  | panicked
  deriving DecidableEq, Repr

/-- One turn of the loop over the batch. -/
structure Turn where
  effects : List Effect
  replies : List Reply
  outcome : Outcome

/-- A turn that calls the handler. -/
def Answer.callback (answer : Answer) (effect : Effect) : Turn where
  effects := [effect]
  replies := []
  outcome := if answer.panics then .panicked else .continued

/-- A turn without a callback. -/
def Turn.quiet (effects : List Effect) : Turn where
  effects := effects
  replies := []
  outcome := .continued

/-- Handle a received packet; `session_actor.rs:557–606`. -/
def handlePacket (cfg : ActorConfig) (answer : Answer) (packet : Packet) : Turn :=
  if packet.header.packetType = .request then
    if cfg.inboundRegistry then
      match answer.token with
      | some token => answer.callback (.onRequest packet token)
      | none => .quiet [.refused packet]
    else .quiet [.unregistered packet]
  else answer.callback (.onMessage packet)

/-- Handle one message; `session_actor.rs:554–659`. -/
def handle (cfg : ActorConfig) (answer : Answer) : ActorMessage → Turn
  | .inboundEvent (.data (.messageReceived packet)) => handlePacket cfg answer packet
  | .inboundEvent (.data (.messageSent packetId)) => answer.callback (.onMessageSent packetId)
  | .inboundEvent (.data (.transportError error)) => answer.callback (.onError error)
  | .inboundEvent (.data .connectionEstablished) => .quiet []
  | .inboundEvent (.connectionClosed reason) =>
    { effects := [], replies := [], outcome := .closed reason }
  | .send packet => .quiet [.send packet]
  | .sendWithReply packet reply =>
    { effects := [.sendConfirmed packet]
      replies := [(reply, answer.result)]
      outcome := .continued }

/-- Pass over one message behind a close; `session_actor.rs:544–552`. -/
def skip : ActorMessage → List Reply
  | .sendWithReply _ reply => [(reply, .error sessionClosed)]
  | .inboundEvent _ | .send _ => []

/-- A message with its place in the order of arrival. -/
abbrev Mail := ActorMessage × Nat

/-- The turn of a message. -/
def ActorConfig.turn (cfg : ActorConfig) (mail : Mail) : Turn :=
  handle cfg (cfg.answer mail.2) mail.1

/-- Where the actor stands: before `on_connected`, at the `select!`, filling a batch, working it
off, out of `run_loop` with its result, or done. A panic is the result `none`. -/
inductive ActorPhase where
  | starting
  | waiting
  | draining (batch : List Mail)
  | processing (batch : List Mail) (shouldBreak : Bool)
  | leaving (result : Option CloseReason)
  | ended (result : Option CloseReason)
  deriving DecidableEq, Repr

/-- The receiver of the mailbox lives as long as `run_loop`. -/
def ActorPhase.receiving : ActorPhase → Bool
  | .leaving _ | .ended _ => false
  | _ => true

/-- The actor with its mailbox, and the history: what arrived, what the actor did and which replies
it sent. -/
structure ActorState where
  mailbox : List Mail
  sendersGone : Bool
  cancelled : Bool
  phase : ActorPhase
  closeReason : CloseReason
  arrived : List ActorMessage
  trace : List Effect
  replies : List Reply
  deriving DecidableEq

/-- What the scheduler does next. -/
inductive ActorLabel where
  | arrive (message : ActorMessage)
  | dropSenders
  | cancel
  | connect
  | cancelArm
  | recv
  | tryRecv
  | turn
  | disconnect
  deriving DecidableEq, Repr

/-- A step of the actor's own task. -/
def ActorLabel.own : ActorLabel → Bool
  | .arrive _ | .dropSenders | .cancel => false
  | _ => true

namespace ActorState

/-- An actor that was not polled yet; `session_actor.rs:689–712`. -/
def new : ActorState where
  mailbox := []
  sendersGone := false
  cancelled := false
  phase := .starting
  closeReason := .normal
  arrived := []
  trace := []
  replies := []

/-- A message enters the mailbox. -/
def arrive (s : ActorState) (message : ActorMessage) : Option ActorState :=
  if s.phase.receiving && !s.sendersGone then
    some { s with
      mailbox := s.mailbox ++ [(message, s.arrived.length)]
      arrived := s.arrived ++ [message] }
  else none

/-- The call of `on_connected`; `session_actor.rs:506–508`. -/
def connect (cfg : ActorConfig) (s : ActorState) : Option ActorState :=
  match s.phase with
  | .starting =>
    some { s with
      phase := if cfg.connectPanics then .leaving none else .waiting
      trace := s.trace ++ [.onConnected] }
  | _ => none

/-- The wait for the first message of a batch; `session_actor.rs:525–532`. -/
def recv (s : ActorState) : Option ActorState :=
  match s.phase, s.mailbox with
  | .waiting, mail :: rest =>
    some { s with
      mailbox := rest
      phase := .draining [mail] }
  | .waiting, [] =>
    if s.sendersGone then some { s with phase := .leaving (some s.closeReason) } else none
  | _, _ => none

/-- One turn of the loop that fills the batch; `session_actor.rs:533–539`. -/
def tryRecv (limit : Nat) (s : ActorState) : Option ActorState :=
  match s.phase with
  | .draining batch =>
    if batch.length < limit then
      match s.mailbox with
      | mail :: rest =>
        some { s with
          mailbox := rest
          phase := .draining (batch ++ [mail]) }
      | [] => some { s with phase := .processing batch false }
    else some { s with phase := .processing batch false }
  | _ => none

/-- One turn of the loop over the batch; `session_actor.rs:541–665`. A panic unwinds out of
`run_loop` and drops the rest of the batch. -/
def turn (cfg : ActorConfig) (s : ActorState) : Option ActorState :=
  match s.phase with
  | .processing [] shouldBreak =>
    some { s with phase := if shouldBreak then .leaving (some s.closeReason) else .waiting }
  | .processing (mail :: rest) true =>
    some { s with
      phase := .processing rest true
      replies := s.replies ++ skip mail.1 }
  | .processing (mail :: rest) false =>
    let turn := cfg.turn mail
    some { s with
      phase := match turn.outcome with
        | .continued => .processing rest false
        | .closed _ => .processing rest true
        | .panicked => .leaving none
      closeReason := match turn.outcome with
        | .closed reason => reason
        | _ => s.closeReason
      trace := s.trace ++ turn.effects
      replies := s.replies ++ turn.replies }
  | _ => none

/-- The call of `on_disconnected`; a panic is raised again behind it; `session_actor.rs:487–496`. -/
def disconnect (s : ActorState) : Option ActorState :=
  match s.phase with
  | .leaving result =>
    some { s with
      phase := .ended result
      trace := s.trace ++ [.onDisconnected (finalReason result)] }
  | _ => none

/-- One step of the actor or of those around it. -/
def step (cfg : ActorConfig) (limit : Nat) (s : ActorState) : ActorLabel → Option ActorState
  | .arrive message => s.arrive message
  | .dropSenders => some { s with sendersGone := true }
  | .cancel => some { s with cancelled := true }
  | .connect => s.connect cfg
  | .cancelArm =>
    if s.phase = .waiting ∧ s.cancelled then
      some { s with phase := .leaving (some s.closeReason) }
    else none
  | .recv => s.recv
  | .tryRecv => s.tryRecv limit
  | .turn => s.turn cfg
  | .disconnect => s.disconnect

end ActorState

/-- The actor as a machine. -/
def actor (cfg : ActorConfig) (limit : Nat) : Machine ActorState ActorLabel where
  start := .new
  step := ActorState.step cfg limit

end MsgTrans.Transport
