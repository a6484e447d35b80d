import MsgTrans.Base.Machine
import MsgTrans.Registry.State

/-!
# Closing a session

Model of the close calls of `TransportServer`
(`crates/msgtrans/src/transport/transport_server.rs:725–752,827–905,959–982`) and of `Transport`
(`transport.rs:182–340,378–397,466–483`) over the connection states of
`connection_state.rs:11–112`. One transport is followed through its generations; the server knows
it under the id `home`. Calls are interleaved at every point where they touch shared state, and can
be dropped at every await. The mailbox of the session's actor, removals of the session by other
tasks, reconnects and the teardown of an ended generation are up to the schedule. What the network
does during a close has no effect here, since the connection is out of its slot by then.
-/

namespace MsgTrans.Transport

open MsgTrans.Base MsgTrans.Registry

/-- `ConnectionState`; `connection_state.rs:11–20`. -/
inductive ConnectionState where
  | connected
  | closing
  | closed
  deriving DecidableEq, Repr

/-- `try_start_closing` on an entry: the answer and the entry behind it;
`connection_state.rs:52–65`. -/
def tryStartClosing : Option ConnectionState → Bool × Option ConnectionState
  | some .connected => (true, some .closing)
  | entry => (false, entry)

/-- `mark_closed` on an entry; `connection_state.rs:68–73`. -/
def markClosed (entry : Option ConnectionState) : Option ConnectionState :=
  entry.map fun _ ↦ .closed

/-- Who closes: `close_session` or `force_close_session` of the server, the same two of the
transport, or the teardown of an ended generation. -/
inductive Closer where
  | server (force : Bool)
  | transport (force : Bool)
  | retire
  deriving DecidableEq, Repr

/-- The record that a call starts with: the server's, or the transport's of a generation. -/
inductive Record where
  | server
  | generation (sid : SessionId)
  deriving DecidableEq, Repr

/-- Where a call stands. The phases with a generation are those of the transport's `close_session`,
called alone or by the server. -/
inductive ClosePhase where
  | entered
  | notifying
  | looking
  | starting (sid : SessionId)
  | taking (sid : SessionId)
  | shutting (sid : SessionId)
  | marking (sid : SessionId)
  | removing (sid : SessionId)
  | finishing
  | cleaning
  | skipped (record : Record) (found : Option ConnectionState)
  | completed
  | dropped
  deriving DecidableEq, Repr

/-- A call with its session and where it stands. -/
structure CloseCall where
  closer : Closer
  sid : SessionId
  phase : ClosePhase
  deriving DecidableEq, Repr

/-- The transport, the server's record of it and all calls. -/
structure CloseState where
  home : SessionId
  server : Option ConnectionState
  mapped : Bool
  states : SessionId → Option ConnectionState
  slot : Option SessionId
  epoch : Nat
  unrecorded : List SessionId
  receiving : Bool
  room : Bool
  calls : List CloseCall

/-- What the scheduler does next. -/
inductive CloseLabel where
  | call (closer : Closer) (sid : SessionId)
  | start (i : Nat) (stale : Bool)
  | notify (i : Nat)
  | look (i : Nat)
  | take (i : Nat)
  | shut (i : Nat)
  | mark (i : Nat)
  | remove (i : Nat)
  | timeout (i : Nat)
  | drop (i : Nat)
  | mailbox (receiving room : Bool)
  | setConnection
  | addConnection (sid : SessionId)
  | unmap
  | forget
  deriving DecidableEq, Repr

/-- The call is the server's. -/
def CloseCall.isServer (c : CloseCall) : Bool :=
  match c.closer with
  | .server _ => true
  | _ => false

/-- The future of the call is parked at an await. -/
def CloseCall.parked (c : CloseCall) : Bool :=
  match c.phase with
  | .entered | .notifying | .looking | .starting _ | .taking _ | .shutting _ | .marking _
  | .finishing => true
  | _ => false

/-- The call is inside the server's `transport.disconnect()`. -/
def CloseCall.disconnecting (c : CloseCall) : Bool :=
  match c.phase with
  | .looking | .starting _ | .taking _ | .shutting _ | .marking _ => c.isServer
  | _ => false

namespace CloseState

/-- A session that the server has just added; `transport_server.rs:549–573`. -/
def new (home : SessionId) : CloseState where
  home := home
  server := some .connected
  mapped := true
  states sid := if sid = home then some .connected else none
  slot := some home
  epoch := home
  unrecorded := []
  receiving := true
  room := true
  calls := []

/-- Move a call on. -/
def setPhase (s : CloseState) (i : Nat) (c : CloseCall) (phase : ClosePhase) : CloseState :=
  { s with calls := s.calls.set i { c with phase := phase } }

/-- Write an entry of the transport. -/
def setState (s : CloseState) (sid : SessionId) (entry : Option ConnectionState) : CloseState :=
  { s with states := Function.update s.states sid entry }

/-- `try_start_closing` and the branch on it; `transport_server.rs:844–850,878–884`,
`transport.rs:229–235,301–307`. An entry that is taken from the server's map between its lookup and
its lock is marked all the same, but no map has it. -/
def start (s : CloseState) (i : Nat) (stale : Bool) : Option CloseState :=
  match s.calls[i]? with
  | some ⟨.server force, sid, .entered⟩ =>
    let c : CloseCall := ⟨.server force, sid, .entered⟩
    if stale && s.server.isNone then some (s.setPhase i c .notifying)
    else if (tryStartClosing s.server).1 then
      some ({ s with server := (tryStartClosing s.server).2 }.setPhase i c .notifying)
    else some (s.setPhase i c (.skipped .server s.server))
  | some ⟨closer, home, .starting sid⟩ =>
    let c : CloseCall := ⟨closer, home, .starting sid⟩
    if (tryStartClosing (s.states sid)).1 then
      some ((s.setState sid (tryStartClosing (s.states sid)).2).setPhase i c (.taking sid))
    else
      some (s.setPhase i c
        (if c.isServer then .finishing else .skipped (.generation sid) (s.states sid)))
  | _ => none

/-- `notify_actor_closed`, which waits for room in the mailbox, and the lookup of the transport;
`transport_server.rs:833–840,858–860,893,960`. -/
def notify (s : CloseState) (i : Nat) : Option CloseState :=
  match s.calls[i]? with
  | some ⟨closer, sid, .notifying⟩ =>
    let c : CloseCall := ⟨closer, sid, .notifying⟩
    if s.mapped then
      if s.room || !s.receiving then some (s.setPhase i c .looking) else none
    else some (s.setPhase i c .finishing)
  | _ => none

/-- `disconnect`: the current generation of the slot; `transport.rs:182–188,357–359`. -/
def look (s : CloseState) (i : Nat) : Option CloseState :=
  match s.calls[i]? with
  | some ⟨closer, home, .looking⟩ =>
    let c : CloseCall := ⟨closer, home, .looking⟩
    match s.slot with
    | some sid => some (s.setPhase i c (.starting sid))
    | none => some (s.setPhase i c .finishing)
  | _ => none

/-- Take the slot if it still belongs to the generation; `transport.rs:199–206,257–263,318–324`. -/
def take (s : CloseState) (i : Nat) : Option CloseState :=
  match s.calls[i]? with
  | some ⟨closer, home, .taking sid⟩ =>
    let c : CloseCall := ⟨closer, home, .taking sid⟩
    if s.slot = some sid then some ({ s with slot := none }.setPhase i c (.shutting sid))
    else some (s.setPhase i c (.marking sid))
  | _ => none

/-- The connection that was taken is closed and dropped; `transport.rs:264–286,325–326`. -/
def shut (s : CloseState) (i : Nat) : Option CloseState :=
  match s.calls[i]? with
  | some ⟨closer, home, .shutting sid⟩ =>
    some (s.setPhase i ⟨closer, home, .shutting sid⟩ (.marking sid))
  | _ => none

/-- `mark_closed`; `transport.rs:211,294,335`, `transport_server.rs:866,898`. -/
def mark (s : CloseState) (i : Nat) : Option CloseState :=
  match s.calls[i]? with
  | some ⟨closer, home, .marking sid⟩ =>
    some ((s.setState sid (markClosed (s.states sid))).setPhase i ⟨closer, home, .marking sid⟩
      (.removing sid))
  | some ⟨closer, sid, .finishing⟩ =>
    some ({ s with server := markClosed s.server }.setPhase i ⟨closer, sid, .finishing⟩ .cleaning)
  | _ => none

/-- `remove_connection`, and the server's `remove_session`; `transport.rs:212,295,336`,
`transport_server.rs:725–752`. -/
def remove (s : CloseState) (i : Nat) : Option CloseState :=
  match s.calls[i]? with
  | some ⟨closer, home, .removing sid⟩ =>
    let c : CloseCall := ⟨closer, home, .removing sid⟩
    some ((s.setState sid none).setPhase i c (if c.isServer then .finishing else .completed))
  | some ⟨closer, sid, .cleaning⟩ =>
    some ({ s with
      mapped := false
      server := none }.setPhase i ⟨closer, sid, .cleaning⟩ .completed)
  | _ => none

/-- The graceful deadline of the server drops its `disconnect`; `transport_server.rs:959–982`. -/
def timeout (s : CloseState) (i : Nat) : Option CloseState :=
  match s.calls[i]? with
  | some c =>
    if c.closer = .server false ∧ c.disconnecting then some (s.setPhase i c .finishing) else none
  | none => none

/-- The caller drops the call where it is parked. -/
def drop (s : CloseState) (i : Nat) : Option CloseState :=
  match s.calls[i]? with
  | some c => if c.parked ∧ c.closer ≠ .retire then some (s.setPhase i c .dropped) else none
  | none => none

/-- One step of a call or of those around it. -/
def step (s : CloseState) : CloseLabel → Option CloseState
  | .call (.server force) _ =>
    some { s with calls := s.calls ++ [⟨.server force, s.home, .entered⟩] }
  | .call (.transport force) sid =>
    some { s with calls := s.calls ++ [⟨.transport force, sid, .starting sid⟩] }
  | .call .retire sid =>
    if sid ≤ s.epoch then some { s with calls := s.calls ++ [⟨.retire, sid, .taking sid⟩] }
    else none
  | .start i stale => s.start i stale
  | .notify i => s.notify i
  | .look i => s.look i
  | .take i => s.take i
  | .shut i => s.shut i
  | .mark i => s.mark i
  | .remove i => s.remove i
  | .timeout i => s.timeout i
  | .drop i => s.drop i
  | .mailbox receiving room =>
    some { s with
      receiving := receiving
      room := room }
  -- The new generation is installed under the lock of the slot and recorded behind it.
  | .setConnection =>
    some { s with
      epoch := s.epoch + 1
      slot := some (s.epoch + 1)
      unrecorded := (s.epoch + 1) :: s.unrecorded }
  | .addConnection sid =>
    if sid ∈ s.unrecorded then
      some { s.setState sid (some .connected) with unrecorded := s.unrecorded.erase sid }
    else none
  | .unmap => some { s with mapped := false }
  | .forget => some { s with server := none }

end CloseState

/-- A session and its close calls as a machine. -/
def closing (home : SessionId) : Machine CloseState CloseLabel where
  start := .new home
  step := CloseState.step

end MsgTrans.Transport
