import MsgTrans.Registry.Methods
import MsgTrans.Transport.CloseSession
import MsgTrans.Transport.SendOptions
import MsgTrans.Transport.SessionActor

/-!
# The client transport: state and atomic actions

What a `Transport` of the client shares between its tasks
(`crates/msgtrans/src/transport/transport.rs:22–60`, `client.rs:166`): the request registry, the
connection slot with its generation, the epoch counter, the connection states and the client's own
session id. There is one action for every access to one of them, so a lock is held exactly as long
as its action. A connection is named by a number and its writer by the same number; generations
count up from one and are naturals, since no run increments the 64-bit epoch `2^64` times. What a
connection does with what it is given is outside: whether it takes a packet, when it resolves the
write and what the peer answers is up to the scheduler, and so is whether a future that waits is
dropped. Rust's borrow rules are part of the state: a call on `&mut self` of the client
excludes every other call.

The state carries a history of what happened to the slot and the connections. No method reads it.
-/

namespace MsgTrans.Client

open MsgTrans.Wire MsgTrans.Adapters MsgTrans.Base MsgTrans.Registry MsgTrans.Transport

/-- `ConnectionSlot`; `transport.rs:24–34`. -/
structure ConnectionSlot where
  sessionId : SessionId
  connection : Nat
  deriving DecidableEq, Repr

/-- One entry of the history, with the call that caused it. -/
inductive Event where
  | installed (sessionId : SessionId) (connection : Nat)
  | taken (call : Nat) (sessionId : SessionId) (connection : Nat)
  | closed (call : Nat) (connection : Nat)
  | enqueued (call : Nat) (connection : Nat) (expected : Option SessionId) (packet : Packet)
  | forwarded (sessionId : SessionId) (token : Option RequestToken) (event : TransportEvent)
  deriving DecidableEq

/-- The shared state of a transport and its client. -/
structure State where
  registry : Registry.State
  slot : Option ConnectionSlot
  connectionEpoch : Nat
  states : SessionId → Option ConnectionState
  /-- `TransportClient::current_session_id`. -/
  current : Option SessionId
  /-- How many calls borrow the client. -/
  borrows : Nat
  /-- A call borrows the client mutably. -/
  borrowedMut : Bool
  history : List Event

/-- `Transport::with_context`; `transport.rs:79–96`. -/
def State.new : State where
  registry := .new
  slot := none
  connectionEpoch := 0
  states := fun _ ↦ none
  current := none
  borrows := 0
  borrowedMut := false
  history := []

/-- What a request sees when it waits for its response. -/
inductive Awaited where
  | received (packet : Packet)
  | closed
  | timedOut
  deriving DecidableEq

/-- The indivisible operations of a transport. -/
inductive Act where
  | registry (a : Registry.Act)
  /-- A future that waits is polled again or dropped. -/
  | resume
  /-- The slot lock of `set_connection`; `transport.rs:379–397`. -/
  | slotInstall (connection : Nat)
  /-- `current_session_id`; `transport.rs:357–359`. -/
  | slotSessionId
  /-- The slot lock of a send; `transport.rs:144–165`. -/
  | slotWriter (expected : Option SessionId)
  /-- The slot lock of a close; `transport.rs:201–207`. -/
  | slotTake (sessionId : SessionId)
  | connectionClose (connection : Nat)
  | connectionDrop (connection : Nat)
  | addConnection (sessionId : SessionId)
  | tryStartClosing (sessionId : SessionId)
  | markClosed (sessionId : SessionId)
  | removeConnection (sessionId : SessionId)
  | epochLoad
  /-- `Weak::upgrade` in the consumer task. -/
  | upgrade
  | forward (sessionId : SessionId) (token : Option RequestToken) (event : TransportEvent)
  /-- `ConnectionWriter::send_with_completion`, up to the enqueue. -/
  | enqueue (connection : Nat) (expected : Option SessionId) (packet : Packet)
  /-- The resolution of the write's completion. -/
  | receipt
  | awaitReply (channel : Nat)
  | currentSet (sessionId : SessionId)
  | currentTake
  /-- A call on `&self` begins, and ends. -/
  | borrow
  | release
  /-- A call on `&mut self` begins, and ends. -/
  | borrowMut
  | releaseMut

/-- The refusal of a send to another generation; `transport.rs:153–156`. -/
def replacedError : TransportError :=
  .connection "connection replaced since the request was received" false

/-- The refusal of a send without a connection; `transport.rs:162`. -/
def notConnectedError : TransportError := .connection "Not connected" false

/-- What each operation answers. -/
@[reducible] def Act.Resp : Act → Type
  | .registry a => a.Resp
  | .resume => Bool
  | .slotInstall _ => SessionId
  | .slotSessionId => Option SessionId
  | .slotWriter _ => Except TransportError Nat
  | .slotTake _ => Option Nat
  | .connectionClose _ => Bool
  | .tryStartClosing _ => Bool
  | .epochLoad => Nat
  | .upgrade => Bool
  | .enqueue .. => Except TransportError Unit
  | .receipt => Except TransportError Unit
  | .awaitReply _ => Awaited
  | .currentTake => Option SessionId
  | _ => Unit

namespace State

/-- Append to the history. -/
def record (s : State) (es : List Event) : State := { s with history := s.history ++ es }

/-- Install a connection under a new generation; the connection it replaces is dropped. -/
def slotInstall (s : State) (call connection : Nat) : State :=
  { s with
    connectionEpoch := s.connectionEpoch + 1
    slot := some ⟨s.connectionEpoch + 1, connection⟩ }.record
      (s.slot.toList.map (fun slot : ConnectionSlot ↦ Event.closed call slot.connection) ++
        [Event.installed (s.connectionEpoch + 1) connection])

/-- The writer of the slot, if it has the expected generation. -/
def slotWriter (s : State) (expected : Option SessionId) : Except TransportError Nat :=
  match s.slot with
  | none => .error notConnectedError
  | some slot =>
    if ∀ sid ∈ expected, slot.sessionId = sid then .ok slot.connection else .error replacedError

/-- Take the slot's connection, if it has this generation. -/
def slotTake (s : State) (call : Nat) (sid : SessionId) : Option Nat × State :=
  match s.slot with
  | some slot =>
    if slot.sessionId = sid then
      (some slot.connection,
        { s with slot := none }.record [.taken call sid slot.connection])
    else (none, s)
  | none => (none, s)

/-- Change the connection state of a session. -/
def setConnectionState (s : State) (sid : SessionId) (v : Option ConnectionState) : State :=
  { s with states := Function.update s.states sid v }

end State

/-- What a request that waits on this channel can see next: its response, the loss of the sender
or, whatever the channel holds, its deadline. -/
def pollReply (reply : Registry.Reply) (choice : Nat) : Option Awaited :=
  if choice = 0 then
    match reply with
    | .value packet => some (.received packet)
    | .closed => some .closed
    | .empty => none
  else some .timedOut

/-- A transport: its registry, the codecs of its build, and the errors that its connections
report. -/
structure Setup where
  registry : RegistryConfig
  codecs : Codecs
  failure : Nat → TransportError

/-- How an enqueue or a write ends, as the scheduler picks it. -/
def Setup.writeResult (cfg : Setup) (choice : Nat) : Except TransportError Unit :=
  if choice = 0 then .ok () else .error (cfg.failure choice)

/-- One action of call `t`: the answer and the state behind it; `none` when it has to wait. -/
def Act.exec (cfg : Setup) (t : Nat) (a : Act) (choice : Nat) (s : State) :
    Option (a.Resp × State) :=
  match a with
  | .registry a =>
    let answer := a.exec cfg.registry t choice s.registry
    some (answer.1, { s with registry := answer.2 })
  | .resume => some (decide (choice = 0), s)
  | .slotInstall connection => some (s.connectionEpoch + 1, s.slotInstall t connection)
  | .slotSessionId => some (s.slot.map (·.sessionId), s)
  | .slotWriter expected => some (s.slotWriter expected, s)
  | .slotTake sid => some (s.slotTake t sid)
  | .connectionClose connection => some (decide (choice = 0), s.record [.closed t connection])
  | .connectionDrop connection => some ((), s.record [.closed t connection])
  | .addConnection sid => some ((), s.setConnectionState sid (some .connected))
  | .tryStartClosing sid =>
    let answer := Transport.tryStartClosing (s.states sid)
    some (answer.1, s.setConnectionState sid answer.2)
  | .markClosed sid => some ((), s.setConnectionState sid (Transport.markClosed (s.states sid)))
  | .removeConnection sid => some ((), s.setConnectionState sid none)
  | .epochLoad => some (s.connectionEpoch, s)
  | .upgrade => some (decide (choice = 0), s)
  | .forward sid token event => some ((), s.record [.forwarded sid token event])
  | .enqueue connection expected packet =>
    match cfg.writeResult choice with
    | .ok _ => some (.ok (), s.record [.enqueued t connection expected packet])
    | .error e => some (.error e, s)
  | .receipt => some (cfg.writeResult choice, s)
  | .awaitReply channel =>
    (pollReply (s.registry.channels channel) choice).map fun awaited ↦ (awaited, s)
  | .currentSet sid => some ((), { s with current := some sid })
  | .currentTake => some (s.current, { s with current := none })
  | .borrow => if s.borrowedMut then none else some ((), { s with borrows := s.borrows + 1 })
  | .release => some ((), { s with borrows := s.borrows - 1 })
  | .borrowMut =>
    if s.borrowedMut ∨ s.borrows ≠ 0 then none else some ((), { s with borrowedMut := true })
  | .releaseMut => some ((), { s with borrowedMut := false })

end MsgTrans.Client
