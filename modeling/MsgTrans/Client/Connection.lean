import MsgTrans.Base.Threads
import MsgTrans.Client.Methods

/-!
# The client transport: connecting, disconnecting and the tasks behind a connection

`TransportClient::connect`, `disconnect` and `force_disconnect`
(`crates/msgtrans/src/transport/client.rs:245–372,548–581`) with the parts of `Transport` they run
(`transport.rs:193–457,559–706`), the consumer task of each connection's event pipe, the task that
forwards the client's events (`client.rs:699–885`) and the consumer that reads them. A thread is a
program point; one step is one access to what the threads share, and a call can be dropped at every
await. A connection goes by its generation. Whether an attempt to connect succeeds, what a
connection's pipe yields before its one closing event and what becomes of a message is the step's
choice. The client is not shut down, and what a step does to the registry is left out: nothing here
depends on it.
-/

namespace MsgTrans.Client.Connection

open MsgTrans.Base MsgTrans.Adapters MsgTrans.Registry MsgTrans.Transport

/-- What the client's queues carry: the two events that frame a connection, and any other one. -/
inductive Notice where
  | connected
  | disconnected
  | other
  deriving DecidableEq, Repr

/-- `TaggedClientEvent`. -/
structure Tagged where
  sessionId : SessionId
  notice : Notice
  deriving DecidableEq, Repr

/-- The slot, the connection states, the recorded session id and the borrows of the client. -/
structure Link where
  slot : Option SessionId
  connectionEpoch : Nat
  states : SessionId → Option ConnectionState
  /-- `TransportClient::current_session_id`. -/
  current : Option SessionId
  /-- How many calls borrow the client. -/
  borrows : Nat
  /-- A call borrows the client mutably. -/
  borrowedMut : Bool

/-- What the threads of one client share: the link, and the queues between its tasks. -/
structure Shared extends Link where
  /-- The queue of the transport; `transport.rs:53–60`. -/
  clientEvents : List Tagged
  /-- Its receiver is still there to be taken. -/
  clientEventsRx : Bool
  forwardingRunning : Bool
  /-- The queue of the client; `client.rs:180–181`. -/
  events : List Tagged
  /-- Its receiver is still there to be taken. -/
  eventReceiver : Bool
  /-- History: the connections that were closed or dropped. -/
  closed : List SessionId
  /-- History: what was put into the transport's queue. -/
  published : List Tagged
  /-- History: what the consumer of the client's events got. -/
  seen : List Tagged

/-- A new client; `client.rs:212–243`. -/
def Shared.new : Shared where
  slot := none
  connectionEpoch := 0
  states := fun _ ↦ none
  current := none
  borrows := 0
  borrowedMut := false
  clientEvents := []
  clientEventsRx := true
  forwardingRunning := false
  events := []
  eventReceiver := true
  closed := []
  published := []
  seen := []

/-- The program points of `connect`, each named after what comes next; `client.rs:245–302,327–372`,
`transport.rs:370–457`, `client.rs:699–871`. -/
inductive Connect where
  | borrowing
  | checking
  | building
  | installing
  | adding (sid : SessionId)
  | announcing (sid : SessionId)
  | spawning (sid : SessionId)
  | policing (sid : SessionId)
  | recording (sid : SessionId)
  | starting
  | takingStream
  | storing
  | returned (result : Except TransportError Unit)
  | dropped
  deriving DecidableEq, Repr

/-- The program points of `disconnect` and `force_disconnect`; `client.rs:548–581`,
`transport.rs:227–339`. -/
inductive Disconnect where
  | borrowing
  | taking
  | starting (sid : SessionId)
  | vacating (sid : SessionId)
  | closing (sid : SessionId)
  | closingAgain (sid : SessionId)
  | marking (sid : SessionId)
  | removing (sid : SessionId)
  /-- `Ok(())`, where this id was recorded. -/
  | returned (sid : SessionId)
  | refused (error : TransportError)
  | dropped
  deriving DecidableEq, Repr

/-- The program points of a connection's consumer task; `transport.rs:425–457`. Where it retires its
generation, `exit` is none inside `on_event`; behind the loop it says whether the closing event was
forwarded. An event in hand is the closing one or any other. -/
inductive Consumer where
  | waiting
  | received (closing : Bool)
  | handling
  | retiring (exit : Option Bool)
  | marking (exit : Option Bool) (taken : Bool)
  | removing (exit : Option Bool) (taken : Bool)
  | forwarding (closing : Bool)
  | drained
  | ended (forwarded : Bool)
  deriving DecidableEq, Repr

/-- The program points of the forwarding task; `client.rs:738–850`. -/
inductive Forwarder where
  | receiving
  | sending (event : Tagged)
  deriving DecidableEq, Repr

/-- A thread: a call, a task or the consumer of the client's events. -/
inductive Thread where
  | connect (point : Connect)
  | disconnect (force : Bool) (point : Disconnect)
  | consumer (sid : SessionId) (point : Consumer)
  | forwarder (point : Forwarder)
  | reader (reading : Bool)
  deriving DecidableEq, Repr

/-- What is not the program's choice: the drop of a call at an await, a failure outside, what a pipe
yields, and a message that goes no further. -/
inductive Choice where
  | go
  | drop
  | failed (error : TransportError)
  | data
  | closed
  | keep
  deriving DecidableEq, Repr

namespace Shared

/-- A call on `&mut self` ends. -/
def releaseMut (s : Shared) : Shared := { s with borrowedMut := false }

/-- A call on `&self` ends. -/
def release (s : Shared) : Shared := { s with borrows := s.borrows - 1 }

/-- A connection is closed or dropped. -/
def close (s : Shared) (sid : SessionId) : Shared := { s with closed := s.closed ++ [sid] }

/-- Change the connection state of a session. -/
def setState (s : Shared) (sid : SessionId) (v : Option ConnectionState) : Shared :=
  { s with states := Function.update s.states sid v }

/-- The slot lock of `set_connection`; a connection that it replaces is dropped;
`transport.rs:379–397`. -/
def install (s : Shared) : Shared :=
  { s with
    slot := some (s.connectionEpoch + 1)
    connectionEpoch := s.connectionEpoch + 1
    closed := s.closed ++ s.slot.toList }

/-- `forward_client_event` once there is room; `transport.rs:697–715`. -/
def publish (s : Shared) (e : Tagged) : Shared :=
  { s with clientEvents := s.clientEvents ++ [e], published := s.published ++ [e] }

end Shared

/-- The error of a connection without an event stream; `client.rs:866–869`. -/
def noStreamError : TransportError :=
  .connection "Connection does not support event streams" false

variable (capacity : Nat)

/-- One step of `connect`. -/
def connectStep : Connect → Choice → Shared → Option (Connect × Shared × List Thread)
  | .borrowing, .go, s =>
    if s.borrowedMut = true ∨ s.borrows ≠ 0 then none
    else some (.checking, { s with borrowedMut := true }, [])
  | .checking, .go, s =>
    match s.slot with
    | some sid => some (.returned (.error (alreadyConnectedError sid)), s.releaseMut, [])
    | none => some (.building, s, [])
  | .building, .go, s => some (.installing, s, [])
  | .building, .failed e, s => some (.returned (.error e), s.releaseMut, [])
  | .installing, .go, s => some (.adding (s.connectionEpoch + 1), s.install, [])
  | .adding sid, .go, s => some (.announcing sid, s.setState sid (some .connected), [])
  | .announcing sid, .go, s =>
    if s.clientEvents.length < capacity then some (.spawning sid, s.publish ⟨sid, .connected⟩, [])
    else none
  | .spawning sid, .go, s => some (.policing sid, s, [.consumer sid .waiting])
  | .policing sid, .go, s => some (.recording sid, s, [])
  | .recording sid, .go, s => some (.starting, { s with current := some sid }, [])
  | .starting, .go, s =>
    if s.forwardingRunning then some (.returned (.ok ()), s.releaseMut, [])
    else some (.takingStream, { s with forwardingRunning := true }, [])
  | .takingStream, .go, s =>
    if s.clientEventsRx then
      some (.storing, { s with clientEventsRx := false }, [.forwarder .receiving])
    else
      some (.returned (.error noStreamError), { s with forwardingRunning := false }.releaseMut, [])
  | .storing, .go, s => some (.returned (.ok ()), s.releaseMut, [])
  | .checking, .drop, s | .building, .drop, s | .installing, .drop, s | .announcing _, .drop, s
  | .policing _, .drop, s | .recording _, .drop, s | .takingStream, .drop, s | .storing, .drop, s =>
    some (.dropped, s.releaseMut, [])
  | _, _, _ => none

/-- One step of `disconnect`, or of `force_disconnect`. A graceful close that fails is followed by a
forced one. -/
def disconnectStep (force : Bool) : Disconnect → Choice → Shared → Option (Disconnect × Shared)
  | .borrowing, .go, s =>
    if s.borrowedMut then none else some (.taking, { s with borrows := s.borrows + 1 })
  | .taking, .go, s =>
    match s.current with
    | none => some (.refused notConnectedError, s.release)
    | some sid =>
      if (s.states sid).isSome then some (.starting sid, { s with current := none })
      else some (.returned sid, { s with current := none }.release)
  | .starting sid, .go, s =>
    let answer := tryStartClosing (s.states sid)
    if answer.1 then some (.vacating sid, s.setState sid answer.2)
    else some (.returned sid, s.release)
  | .vacating sid, .go, s =>
    if s.slot = some sid then some (.closing sid, { s with slot := none })
    else some (.marking sid, s)
  | .closing sid, .go, s => some (.marking sid, s.close sid)
  | .closing sid, .failed _, s =>
    some (if force then .marking sid else .closingAgain sid, s.close sid)
  | .closingAgain sid, .go, s | .closingAgain sid, .failed _, s => some (.marking sid, s.close sid)
  | .marking sid, .go, s => some (.removing sid, s.setState sid (markClosed (s.states sid)))
  | .removing sid, .go, s => some (.returned sid, (s.setState sid none).release)
  | .closing sid, .drop, s | .closingAgain sid, .drop, s => some (.dropped, (s.close sid).release)
  | .taking, .drop, s | .starting _, .drop, s | .vacating _, .drop, s | .marking _, .drop, s =>
    some (.dropped, s.release)
  | _, _, _ => none

/-- One step of a connection's consumer task. -/
def consumerStep (sid : SessionId) : Consumer → Choice → Shared → Option (Consumer × Shared)
  | .waiting, .data, s => some (.received false, s)
  | .waiting, .closed, s => some (.received true, s)
  | .received closing, .go, s =>
    -- The epoch filter; `transport.rs:432–438`.
    if s.connectionEpoch = sid then
      some (if closing then .retiring none else .handling, s)
    else some (.retiring (some false), s)
  | .handling, .go, s => some (.forwarding false, s)
  | .handling, .keep, s => some (.waiting, s)
  | .retiring exit, .go, s =>
    if s.slot = some sid then some (.marking exit true, { s with slot := none })
    else some (.marking exit false, s)
  | .marking exit taken, .go, s =>
    some (.removing exit taken, s.setState sid (markClosed (s.states sid)))
  | .removing exit taken, .go, s =>
    let s' := s.setState sid none
    some (match exit with | none => .forwarding true | some forwarded => .ended forwarded,
      if taken then s'.close sid else s')
  | .forwarding closing, .go, s =>
    if s.clientEvents.length < capacity then
      some (if closing then .drained else .waiting,
        s.publish ⟨sid, if closing then .disconnected else .other⟩)
    else none
  | .drained, .go, s => some (.retiring (some true), s)
  | _, _, _ => none

/-- One step of the forwarding task. A request without its registration goes no further. -/
def forwarderStep : Forwarder → Choice → Shared → Option (Forwarder × Shared)
  | .receiving, choice, s =>
    match s.clientEvents with
    | [] => none
    | e :: rest =>
      if choice = .keep ∧ e.notice = .other then some (.receiving, { s with clientEvents := rest })
      else some (.sending e, { s with clientEvents := rest })
  | .sending e, _, s =>
    if s.events.length < capacity then some (.receiving, { s with events := s.events ++ [e] })
    else none

/-- One step of the consumer of the client's events: it takes the receiver, then it reads. -/
def readerStep : Bool → Shared → Option (Bool × Shared)
  | false, s => if s.eventReceiver then some (true, { s with eventReceiver := false }) else none
  | true, s =>
    match s.events with
    | [] => none
    | e :: rest => some (true, { s with events := rest, seen := s.seen ++ [e] })

/-- One step of a thread, with the threads it spawns. -/
def act : Thread → Choice → Shared → Option (Thread × Shared × List Thread)
  | .connect point, choice, s =>
    (connectStep capacity point choice s).map fun r ↦ (.connect r.1, r.2.1, r.2.2)
  | .disconnect force point, choice, s =>
    (disconnectStep force point choice s).map fun r ↦ (.disconnect force r.1, r.2, [])
  | .consumer sid point, choice, s =>
    (consumerStep capacity sid point choice s).map fun r ↦ (.consumer sid r.1, r.2, [])
  | .forwarder point, choice, s =>
    (forwarderStep capacity point choice s).map fun r ↦ (.forwarder r.1, r.2, [])
  | .reader reading, _, s => (readerStep reading s).map fun r ↦ (.reader r.1, r.2, [])

/-- What may be called from outside: the three methods, and the read of the client's events. -/
def Thread.entry : Thread → Bool
  | .connect .borrowing | .disconnect _ .borrowing | .reader false => true
  | _ => false

/-- One client with queues of this capacity. -/
def client : Threads Shared Thread Choice where
  init := .new
  entry := Thread.entry
  act := act capacity

end MsgTrans.Client.Connection
