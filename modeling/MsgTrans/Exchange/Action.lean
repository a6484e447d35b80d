import MsgTrans.Client.Methods
import MsgTrans.Transport.Mailbox

/-!
# The request exchange of the server: state and atomic actions

What the sessions of a `TransportServer` share as long as requests go back and forth
(`crates/msgtrans/src/transport/transport_server.rs:77–131`): the request registry, the maps of
transports and of session handles, the session ids, and what lies in the outbound queues of the
connections. There is one action for every access to one of them. A write completion is named by a
number; session ids count up from one and are naturals, since no run draws `2^64` of them.

Whether the server still admits sessions, whether a send reaches the socket, whether a slot still
holds its connection, in which order the write loops take up what is queued and how each write ends
is up to the scheduler, and so is whether a future that waits is dropped. Of the queues only
responses are followed: nothing else carries a respond claim.

The state carries a history of the claims that left their responder. No method reads it.
-/

namespace MsgTrans.Exchange

open MsgTrans.Wire MsgTrans.Adapters MsgTrans.Base MsgTrans.Registry MsgTrans.Transport
open MsgTrans.Client (Setup Awaited pollReply)

/-- A queued response with the claim in its completion; `outbound.rs:33–36`. -/
structure Outbound where
  completion : Nat
  sessionId : SessionId
  packet : Packet
  claim : RequestToken
  deriving DecidableEq

/-- One entry of the history, with the call that caused it. -/
inductive Event where
  /-- A response was handed to a connection's writer. -/
  | handed (call completion : Nat) (sessionId : SessionId) (packet : Packet) (claim : RequestToken)
  /-- A claim was resolved, with a completion if it was in one. -/
  | resolved (call : Nat) (completion : Option Nat) (claim : RequestToken) (writeConfirmed : Bool)
  deriving DecidableEq

/-- The shared state of the server's sessions. -/
structure State where
  registry : Registry.State
  sessionIdGenerator : Nat
  transports : SessionId → Bool
  sessionHandles : SessionId → Bool
  queue : List Outbound
  nextCompletion : Nat
  /-- What the observer of a completion has been told. -/
  receipts : Nat → Option (Except TransportError Unit)
  history : List Event

/-- `TransportServer::new`; `transport_server.rs:145–191`. -/
def State.new : State where
  registry := .new
  sessionIdGenerator := 1
  transports := fun _ ↦ false
  sessionHandles := fun _ ↦ false
  queue := []
  nextCompletion := 0
  receipts := fun _ ↦ none
  history := []

/-- The indivisible operations of the exchange. -/
inductive Act where
  | registry (a : Registry.Act)
  /-- A future that waits is polled again or dropped. -/
  | resume
  | generateSessionId
  /-- The admission gate; `transport_server.rs:530–537`. -/
  | admissionOpen
  | transportsInsert (sessionId : SessionId)
  | transportsGet (sessionId : SessionId)
  | transportsRemove (sessionId : SessionId)
  | handlesInsert (sessionId : SessionId)
  | handlesGet (sessionId : SessionId)
  | handlesRemove (sessionId : SessionId)
  | isConnected (sessionId : SessionId)
  /-- The outcome of a send, through the mailbox or directly. -/
  | sendResult (sessionId : SessionId) (packet : Packet)
  /-- The event enters the mailbox of the session's actor, unless the actor is gone. -/
  | sendEvent (sessionId : SessionId) (event : TransportEvent)
  | awaitReply (channel : Nat)
  /-- The slot lock of a send; `transport.rs:144–165`. -/
  | slotWriter (sessionId : SessionId)
  /-- The call of `ConnectionWriter::send_with_completion`. -/
  | handOver (sessionId : SessionId) (packet : Packet) (claim : RequestToken)
  /-- The packet enters the outbound queue or comes back. -/
  | enqueue (item : Outbound)
  | awaitReceipt (completion : Nat)
  /-- A write loop takes an item out of its queue. -/
  | dequeue
  /-- How the item ends: written, failed, or dropped unwritten. -/
  | write (item : Outbound)
  /-- A claim is marked resolved; `request_registry.rs:210,217`. -/
  | resolve (completion : Option Nat) (claim : RequestToken) (writeConfirmed : Bool)
  /-- The observer of a completion is told the result. -/
  | observe (completion : Nat) (result : Except TransportError Unit)

/-- What each operation answers. -/
@[reducible] def Act.Resp : Act → Type
  | .registry a => a.Resp
  | .resume => Bool
  | .generateSessionId => SessionId
  | .admissionOpen => Bool
  | .transportsGet _ => Bool
  | .handlesGet _ => Bool
  | .isConnected _ => Bool
  | .sendResult .. => Except TransportError Unit
  | .sendEvent .. => Bool
  | .awaitReply _ => Awaited
  | .slotWriter _ => Except TransportError Unit
  | .handOver .. => Nat
  | .enqueue _ => Except TransportError Unit
  | .awaitReceipt _ => Except TransportError Unit
  | .dequeue => Outbound
  | .write _ => Option (Except TransportError Unit)
  | _ => Unit

namespace State

/-- Append to the history. -/
def record (s : State) (e : Event) : State := { s with history := s.history ++ [e] }

/-- The completion of a response is made and handed over with it. -/
def handOver (s : State) (call : Nat) (sid : SessionId) (packet : Packet) (claim : RequestToken) :
    State :=
  { s with nextCompletion := s.nextCompletion + 1 }.record
    (.handed call s.nextCompletion sid packet claim)

/-- The item at this place of the queues is taken out. -/
def dequeue (s : State) (choice : Nat) : Option (Outbound × State) :=
  s.queue[choice]?.map fun item ↦ (item, { s with queue := s.queue.eraseIdx choice })

end State

/-- How a write ends, as the scheduler picks it; dropping the item tells nobody. -/
def writeResult (cfg : Setup) (choice : Nat) : Option (Except TransportError Unit) :=
  if choice = 1 then none else some (cfg.writeResult choice)

/-- One action of call `t`: the answer and the state behind it; `none` when it has to wait. -/
def Act.exec (cfg : Setup) (t : Nat) (a : Act) (choice : Nat) (s : State) :
    Option (a.Resp × State) :=
  match a with
  | .registry a =>
    let answer := a.exec cfg.registry t choice s.registry
    some (answer.1, { s with registry := answer.2 })
  | .resume => some (decide (choice = 0), s)
  | .generateSessionId =>
    some (s.sessionIdGenerator, { s with sessionIdGenerator := s.sessionIdGenerator + 1 })
  | .admissionOpen => some (decide (choice = 0), s)
  | .transportsInsert sid =>
    some ((), { s with transports := Function.update s.transports sid true })
  | .transportsGet sid => some (s.transports sid, s)
  | .transportsRemove sid =>
    some ((), { s with transports := Function.update s.transports sid false })
  | .handlesInsert sid =>
    some ((), { s with sessionHandles := Function.update s.sessionHandles sid true })
  | .handlesGet sid => some (s.sessionHandles sid, s)
  | .handlesRemove sid =>
    some ((), { s with sessionHandles := Function.update s.sessionHandles sid false })
  | .isConnected _ => some (decide (choice = 0), s)
  | .sendResult .. => some (cfg.writeResult choice, s)
  | .sendEvent .. => some (decide (choice = 0), s)
  | .awaitReply channel =>
    (pollReply (s.registry.channels channel) choice).map fun awaited ↦ (awaited, s)
  | .slotWriter _ => some (cfg.writeResult choice, s)
  | .handOver sid packet claim => some (s.nextCompletion, s.handOver t sid packet claim)
  | .enqueue item =>
    match cfg.writeResult choice with
    | .ok _ => some (.ok (), { s with queue := s.queue ++ [item] })
    | .error e => some (.error e, s)
  | .awaitReceipt completion => (s.receipts completion).map fun result ↦ (result, s)
  | .dequeue => s.dequeue choice
  | .write _ => some (writeResult cfg choice, s)
  | .resolve completion claim confirmed =>
    some ((), s.record (.resolved t completion claim confirmed))
  | .observe completion result =>
    some ((), { s with receipts := Function.update s.receipts completion (some result) })

end MsgTrans.Exchange
