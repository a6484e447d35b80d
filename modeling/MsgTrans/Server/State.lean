import MsgTrans.Adapters.Core
import MsgTrans.Base.Threads
import MsgTrans.Registry.State

/-!
# The server: shared state and program points

Data of `crates/msgtrans/src/transport/transport_server.rs:70–131` that the lifecycle of a server
works on, and the program points of its tasks and calls: `serve`, the owned startup task, the
listeners and the timeout scanner, each session's actor, pump and supervisor, `shutdown_with_timeout`
and `stop`. Concurrent maps are the lists of their keys. A task tracker is its length and whether it
is closed, a watch channel its value and how often it was set, a join handle whether the task ended
and whether by a panic. What a session sends, receives and registers is left out.
-/

namespace MsgTrans.Server

open MsgTrans.Base MsgTrans.Adapters

/-- Session ids; `lib.rs:70`. -/
abbrev SessionId := Registry.SessionId

/-- `PHASE_IDLE` to `PHASE_STOPPED`; `transport_server.rs:28–32`. -/
inductive Phase where
  | idle
  | starting
  | running
  | shuttingDown
  | stopped
  deriving DecidableEq, Repr

/-- The value of a phase constant. -/
def Phase.value : Phase → Nat
  | idle => 0
  | starting => 1
  | running => 2
  | shuttingDown => 3
  | stopped => 4

/-- Who writes the phase. -/
inductive Writer where
  | serve
  | startup
  | shutdown
  deriving DecidableEq, Repr

/-- `Semaphore::MAX_PERMITS`, `usize::MAX >> 3` on a 64-bit target. -/
def maxPermits : Nat := 2 ^ 61 - 1

/-- What the builder passes on; `server.rs:93–137`. -/
structure Config where
  /-- The cap on concurrent sessions, when one was set. -/
  maxConnections : Option Nat
  /-- How many protocols are configured. -/
  protocols : Nat
  maxConnections_pos : ∀ max ∈ maxConnections, 0 < max
  maxConnections_le : ∀ max ∈ maxConnections, max ≤ maxPermits

/-- The permits the semaphore is created with; `transport_server.rs:172,203`. -/
def Config.permits (cfg : Config) : Nat := cfg.maxConnections.getD maxPermits

/-- A `TaskTracker`: how many of its tasks are not finished, and whether it is closed. -/
structure Tracker where
  len : Nat := 0
  closed : Bool := false
  deriving DecidableEq, Repr

/-- `tracker.spawn(..)`, on a closed tracker too. -/
def Tracker.spawn (t : Tracker) : Tracker := { t with len := t.len + 1 }

/-- The end of a tracked task. -/
def Tracker.leave (t : Tracker) : Tracker := { t with len := t.len - 1 }

/-- `tracker.close()`. -/
def Tracker.close (t : Tracker) : Tracker := { t with closed := true }

/-- A joined task: it returned or it panicked. -/
inductive Joined where
  | returned
  | panicked
  deriving DecidableEq, Repr

/-- What a shutdown found; `transport_server.rs:1682–1702`, without the elapsed time. -/
structure ShutdownReport where
  sessionsClosed : Nat
  sessionsRemaining : Nat
  infraStopped : Bool
  permitsRestored : Bool
  clean : Bool
  deriving DecidableEq, Repr

/-- The shared state; `transport_server.rs:76–130`. -/
structure State where
  transports : List SessionId
  sessionHandles : List SessionId
  sessionIdGenerator : Nat
  connectionPermits : Nat
  rootCancel : Bool
  /-- The infra token's own flag; it is a child of the root. -/
  infraCancel : Bool
  sessionTracker : Tracker
  sessionCancels : List SessionId
  /-- The session tokens cancelled on their own; they are children of the root too. -/
  cancelled : List SessionId
  infraTracker : Tracker
  /-- The slot holds the startup task's handle. -/
  infraSupervisor : Bool
  /-- The startup task is finished. -/
  startupFinished : Bool
  infraFailed : Bool
  serveError : Option TransportError
  admissionOpen : Bool
  phase : Phase
  phaseNotify : Phase
  phaseVersion : Nat
  shutdownLock : Bool
  /-- The supervisors that were told to begin. -/
  started : List SessionId
  actors : SessionId → Option Joined
  pumps : SessionId → Option Joined
  /-- Every write of the phase and its writer. No step reads it. -/
  phaseWrites : List (Writer × Phase)

/-- A new server; `transport_server.rs:141–191`. -/
def State.new (cfg : Config) : State where
  transports := []
  sessionHandles := []
  sessionIdGenerator := 1
  connectionPermits := cfg.permits
  rootCancel := false
  infraCancel := false
  sessionTracker := {}
  sessionCancels := []
  cancelled := []
  infraTracker := {}
  infraSupervisor := false
  startupFinished := false
  infraFailed := false
  serveError := none
  admissionOpen := true
  phase := .idle
  phaseNotify := .idle
  phaseVersion := 0
  shutdownLock := false
  started := []
  actors := fun _ ↦ none
  pumps := fun _ ↦ none
  phaseWrites := []

namespace State

/-- `infra_cancel.is_cancelled()`. -/
def infraCancelled (s : State) : Bool := s.infraCancel || s.rootCancel

/-- A session token's `is_cancelled()`. -/
def sessionCancelled (s : State) (sid : SessionId) : Bool := s.rootCancel || decide (sid ∈ s.cancelled)

/-- `server_phase.store(phase)` or a successful compare-and-exchange. -/
def setPhase (s : State) (writer : Writer) (phase : Phase) : State :=
  { s with phase := phase, phaseWrites := s.phaseWrites ++ [(writer, phase)] }

/-- `phase_notify.send_replace(phase)`. -/
def notify (s : State) (phase : Phase) : State :=
  { s with phaseNotify := phase, phaseVersion := s.phaseVersion + 1 }

/-- `transports.remove(&sid)`. -/
def removeTransport (s : State) (sid : SessionId) : State :=
  { s with transports := s.transports.filter (· ≠ sid) }

/-- `session_handles.remove(&sid)`. -/
def removeHandle (s : State) (sid : SessionId) : State :=
  { s with sessionHandles := s.sessionHandles.filter (· ≠ sid) }

/-- A session token's `cancel()`. -/
def cancelSession (s : State) (sid : SessionId) : State :=
  { s with cancelled := sid :: s.cancelled }

/-- A permit is dropped. -/
def releasePermit (s : State) : State := { s with connectionPermits := s.connectionPermits + 1 }

end State

/-- Points of `serve`; `transport_server.rs:1062–1128`. -/
inductive ServePoint where
  | gate
  | notify
  | spawn
  | subscribe
  | check (seen : Nat)
  | changed (seen : Nat)
  | takeError
  | loadFailed
  | returned (result : Except TransportError Unit)
  | dropped
  deriving DecidableEq, Repr

/-- Points of the owned startup task; `transport_server.rs:1137–1248`. -/
inductive StartupPoint where
  | configs
  | build (left : Nat)
  | listen (left : Nat)
  | scanner
  | close
  | running
  | notify
  | failed (e : TransportError)
  | panickedGate
  | panickedCancel
  | panickedError
  | tailClose
  | tailWait
  | tailStore
  | tailNotify
  | finish
  | ended
  deriving DecidableEq, Repr

/-- Points of `add_session_with_permit`; `transport_server.rs:521–722`. -/
inductive AdmitPoint where
  | gate
  | close
  | takePipe
  | connect (piped : Bool)
  | insert (piped : Bool)
  | disconnect
  | handles (piped : Bool)
  | pump (piped acting : Bool)
  | supervise (acting : Bool)
  | cancels
  | start
  | recheck
  deriving DecidableEq, Repr

/-- Points of a listener and of the timeout scanner; `transport_server.rs:1250–1420`. -/
inductive InfraPoint where
  | accept
  | acquire
  | refuse
  | newSession
  | adding (sid : SessionId) (p : AdmitPoint)
  | release (panicked : Bool)
  | sleep
  | shutdown
  | wait
  | scan
  | guard
  | guardStore
  | guardCancel
  | leave
  | ended
  deriving DecidableEq, Repr

/-- Points of a session's pump; `transport_server.rs:602–634,801–812`. -/
inductive PumpPoint where
  | running
  | teardown
  | removeTransport
  | removeHandle
  | empty
  | finish
  | ended
  deriving DecidableEq, Repr

/-- Points of a session's supervisor; `transport_server.rs:663–704`. -/
inductive SupervisorPoint where
  | begin (acting : Bool)
  | select
  | cancelForPump
  | cancelForActor
  | awaitPump
  | awaitActor
  | removeTransport
  | removeHandle
  | removeCancel
  | permit
  | leave
  | ended
  deriving DecidableEq, Repr

/-- Points of `shutdown_with_timeout` and `report_snapshot`; `transport_server.rs:1478–1639`. -/
inductive ShutdownPoint where
  | lock
  | snapshotTracker
  | snapshotTransports (tracked : Nat)
  | snapshotPhase (remaining : Nat)
  | snapshotPermits (remaining : Nat) (infraStopped : Bool)
  | phase
  | exchange (current : Phase)
  | notify (neverServed : Bool)
  | gate (neverServed : Bool)
  | offer (neverServed : Bool)
  | cancel (neverServed : Bool)
  | close (neverServed : Bool)
  | initial (neverServed : Bool)
  | wait (neverServed : Bool) (initialSessions : Nat)
  | remaining (neverServed : Bool) (initialSessions : Nat)
  | store (closed : Nat)
  | storeNotify (closed : Nat)
  | subscribe (closed : Nat)
  | check (closed seen : Nat)
  | changed (closed seen : Nat)
  | finished (closed : Nat)
  | takeHandle (closed : Nat)
  | join (closed : Nat)
  | straggler (closed : Nat) (infraStopped : Bool)
  | stragglerWait (closed : Nat) (infraStopped : Bool)
  | reportTracker (closed : Nat) (infraStopped : Bool)
  | reportTransports (closed : Nat) (infraStopped : Bool) (tracked : Nat)
  | reportPermits (closed : Nat) (infraStopped : Bool) (remaining : Nat)
  | unlock (report : ShutdownReport)
  | returned (report : ShutdownReport)
  | dropped
  deriving DecidableEq, Repr

/-- Points of `stop` and of `remove_session`; `transport_server.rs:724–748,1432–1435`. -/
inductive UserPoint where
  | stop
  | removeTransport (sid : SessionId)
  | removeHandle (sid : SessionId)
  | returned
  deriving DecidableEq, Repr

/-- A task or a call, at one of its points. A session's actor runs or has ended. -/
inductive Task where
  | serve (p : ServePoint)
  | startup (p : StartupPoint)
  | infra (p : InfraPoint)
  | actor (sid : SessionId) (running : Bool)
  | pump (sid : SessionId) (p : PumpPoint)
  | supervisor (sid : SessionId) (p : SupervisorPoint)
  | shutdown (p : ShutdownPoint)
  | user (p : UserPoint)
  deriving DecidableEq, Repr

/-- What is not the tasks' own choice. -/
inductive Choice where
  | go
  /-- The caller drops the future at an await. -/
  | drop
  /-- Code the server calls panics. -/
  | panic
  /-- A deadline expires. -/
  | timeout
  /-- The cancellation arm of a `select!`, when it is ready. -/
  | cancelled
  /-- A fallible operation succeeds or fails. -/
  | succeeds
  | fails (e : TransportError)
  /-- Whether a connection hands over an event pipe; which ready arm a `select!` takes. -/
  | flag (b : Bool)
  deriving DecidableEq, Repr

end MsgTrans.Server
