import MsgTrans.Server.State

/-!
# The server: its tasks and calls

The steps of `crates/msgtrans/src/transport/transport_server.rs:521–764,1062–1639`, one for every
access to what the tasks share. A future may be dropped at its awaits and nowhere else, deadlines
expire at any time, and user code may panic where the source calls it. What a running actor or pump
does before it ends is not modelled here: each may end at any time, by returning or by a panic.
-/

namespace MsgTrans.Server

open MsgTrans.Base MsgTrans.Adapters

variable (cfg : Config)

/-- The refusal of a second `serve`; `transport_server.rs:1077–1080`. -/
def serveTwiceError : TransportError :=
  .configuration "server" "serve() may run once: server is already starting, running, or stopped"

/-- The report of a failed infrastructure task; `transport_server.rs:1120–1123`. -/
def infraFailedError : TransportError :=
  .configuration "server" "an infrastructure task failed; all siblings were stopped and joined"

/-- `startup panicked`; `transport_server.rs:1147–1148`. -/
def startupPanickedError : TransportError := .configuration "server" "startup panicked"

/-- `run_startup` without protocols; `transport_server.rs:1164–1167`. -/
def noProtocolsError : TransportError := .configuration "protocols" "No protocols configured"

/-- `run_startup` interrupted by a shutdown; `transport_server.rs:1188–1191`. -/
def startupCancelledError : TransportError :=
  .configuration "server" "startup cancelled by shutdown"

/-- `serve`; `transport_server.rs:1062–1128`. -/
def serveStep : ServePoint → Choice → State → Option (ServePoint × State × List Task)
  | .gate, _, s =>
    if s.phase = .idle then some (.notify, s.setPhase .serve .starting, [])
    else some (.returned (.error serveTwiceError), s, [])
  | .notify, _, s => some (.spawn, s.notify .starting, [])
  | .spawn, _, s => some (.subscribe, { s with infraSupervisor := true }, [.startup .configs])
  | .subscribe, _, s => some (.check s.phaseVersion, s, [])
  | .check seen, _, s => some (if s.phase = .stopped then .takeError else .changed seen, s, [])
  | .changed _, .drop, s => some (.dropped, s, [])
  | .changed seen, _, s =>
    if s.phaseVersion ≠ seen then some (.check s.phaseVersion, s, []) else none
  | .takeError, _, s =>
    match s.serveError with
    | some e => some (.returned (.error e), { s with serveError := none }, [])
    | none => some (.loadFailed, s, [])
  | .loadFailed, _, s =>
    some (.returned (if s.infraFailed then .error infraFailedError else .ok ()), s, [])
  | .returned _, _, _ | .dropped, _, _ => none

/-- `startup_and_supervise` around `run_startup`; `transport_server.rs:1137–1248`.
`start_protocol_listener` always returns a task. -/
def startupStep : StartupPoint → Choice → State → Option (StartupPoint × State × List Task)
  | .configs, _, s =>
    some (if cfg.protocols = 0 then .failed noProtocolsError else .build cfg.protocols, s, [])
  | .build 0, _, s => some (.listen cfg.protocols, s, [])
  | .build (n + 1), .succeeds, s => some (.build n, s, [])
  | .build (_ + 1), .fails e, s => some (.failed e, s, [])
  | .build (_ + 1), .panic, s => some (.panickedGate, s, [])
  | .build (_ + 1), .cancelled, s =>
    if s.rootCancel then some (.failed startupCancelledError, s, []) else none
  | .build (_ + 1), _, _ => none
  | .listen 0, _, s => some (.scanner, s, [])
  | .listen (n + 1), _, s =>
    some (.listen n, { s with infraTracker := s.infraTracker.spawn }, [.infra .accept])
  | .scanner, _, s =>
    some (.close, { s with infraTracker := s.infraTracker.spawn }, [.infra .wait])
  | .close, _, s => some (.running, { s with infraTracker := s.infraTracker.close }, [])
  | .running, _, s =>
    if s.phase = .starting then some (.notify, s.setPhase .startup .running, [])
    else some (.tailClose, s, [])
  | .notify, _, s => some (.tailClose, s.notify .running, [])
  | .failed e, _, s => some (.tailClose, { s with serveError := some e }, [])
  | .panickedGate, _, s => some (.panickedCancel, { s with admissionOpen := false }, [])
  | .panickedCancel, _, s => some (.panickedError, { s with rootCancel := true }, [])
  | .panickedError, _, s =>
    some (.tailClose, { s with serveError := some startupPanickedError }, [])
  | .tailClose, _, s => some (.tailWait, { s with infraTracker := s.infraTracker.close }, [])
  | .tailWait, _, s =>
    if s.infraTracker.closed ∧ s.infraTracker.len = 0 then some (.tailStore, s, []) else none
  | .tailStore, _, s => some (.tailNotify, s.setPhase .startup .stopped, [])
  | .tailNotify, _, s => some (.finish, s.notify .stopped, [])
  | .finish, _, s => some (.ended, { s with startupFinished := true }, [])
  | .ended, _, _ => none

/-- `add_session_with_permit`, for the connection that was given this id;
`transport_server.rs:521–722`. A panic or a refusal drops the permit. -/
def admitStep (sid : SessionId) :
    AdmitPoint → Choice → State → Option (InfraPoint × State × List Task)
  | .gate, _, s => some (.adding sid (if s.admissionOpen then .takePipe else .close), s, [])
  | .close, .panic, s => some (.release true, s, [])
  | .close, _, s => some (.release false, s, [])
  | .takePipe, .panic, s => some (.release true, s, [])
  | .takePipe, .flag piped, s => some (.adding sid (.connect piped), s, [])
  | .takePipe, _, _ => none
  | .connect _, .panic, s => some (.release true, s, [])
  | .connect piped, _, s => some (.adding sid (.insert piped), s, [])
  | .insert _, .fails _, s => some (.adding sid .disconnect, s, [])
  | .insert piped, _, s =>
    some (.adding sid (.handles piped),
      { s with transports := sid :: s.transports.filter (· ≠ sid) }, [])
  | .disconnect, .panic, s => some (.release true, s, [])
  | .disconnect, _, s => some (.release false, s, [])
  | .handles piped, .fails _, s => some (.adding sid (.pump piped false), s, [])
  | .handles piped, _, s =>
    some (.adding sid (.pump piped true),
      { s with sessionHandles := sid :: s.sessionHandles.filter (· ≠ sid) }, [.actor sid true])
  | .pump piped acting, _, s =>
    some (.adding sid (.supervise acting), s, [.pump sid (if piped then .running else .empty)])
  | .supervise acting, _, s =>
    some (.adding sid .cancels, { s with sessionTracker := s.sessionTracker.spawn },
      [.supervisor sid (.begin acting)])
  | .cancels, _, s =>
    some (.adding sid .start,
      { s with sessionCancels := sid :: s.sessionCancels.filter (· ≠ sid) }, [])
  | .start, _, s => some (.adding sid .recheck, { s with started := sid :: s.started }, [])
  | .recheck, _, s => some (.accept, if s.admissionOpen then s else s.cancelSession sid, [])

/-- A listener and the timeout scanner, with the guard both carry;
`transport_server.rs:34–50,1250–1420`. -/
def infraStep : InfraPoint → Choice → State → Option (InfraPoint × State × List Task)
  | .accept, .cancelled, s => if s.infraCancelled then some (.shutdown, s, []) else none
  | .accept, .succeeds, s => some (.acquire, s, [])
  | .accept, .fails _, s => some (if s.infraCancelled then .shutdown else .sleep, s, [])
  | .accept, .panic, s => some (.guard, s, [])
  | .accept, _, _ => none
  | .acquire, _, s =>
    if s.connectionPermits = 0 then some (.refuse, s, [])
    else some (.newSession, { s with connectionPermits := s.connectionPermits - 1 }, [])
  | .refuse, .panic, s => some (.guard, s, [])
  | .refuse, _, s => some (.accept, s, [])
  | .newSession, .panic, s => some (.release true, s, [])
  | .newSession, _, s =>
    some (.adding s.sessionIdGenerator .gate,
      { s with sessionIdGenerator := s.sessionIdGenerator + 1 }, [])
  | .adding sid p, choice, s => admitStep sid p choice s
  | .release panicked, _, s =>
    some (if panicked then .guard else .accept, s.releasePermit, [])
  | .sleep, _, s => some (.accept, s, [])
  | .shutdown, _, s => some (.guard, s, [])
  | .wait, .cancelled, s => if s.infraCancelled then some (.guard, s, []) else none
  | .wait, _, s => some (.scan, s, [])
  | .scan, _, s => some (.wait, s, [])
  | .guard, _, s => some (if s.infraCancelled then .leave else .guardStore, s, [])
  | .guardStore, _, s => some (.guardCancel, { s with infraFailed := true }, [])
  | .guardCancel, _, s => some (.leave, { s with infraCancel := true }, [])
  | .leave, _, s => some (.ended, { s with infraTracker := s.infraTracker.leave }, [])
  | .ended, _, _ => none

/-- A session's actor ends. -/
def actorStep (sid : SessionId) : Bool → Choice → State → Option (Bool × State)
  | true, .panic, s => some (false, { s with actors := Function.update s.actors sid (some .panicked) })
  | true, _, s => some (false, { s with actors := Function.update s.actors sid (some .returned) })
  | false, _, _ => none

/-- A session's pump and `pump_teardown`; `transport_server.rs:602–641,801–812`. -/
def pumpStep (sid : SessionId) : PumpPoint → Choice → State → Option (PumpPoint × State)
  | .running, .panic, s =>
    some (.ended, { s with pumps := Function.update s.pumps sid (some .panicked) })
  | .running, _, s => some (.teardown, s)
  | .teardown, _, s => some (if sid ∈ s.transports then .removeTransport else .finish, s)
  | .removeTransport, _, s => some (.removeHandle, s.removeTransport sid)
  | .removeHandle, _, s => some (.finish, s.removeHandle sid)
  | .empty, _, s | .finish, _, s =>
    some (.ended, { s with pumps := Function.update s.pumps sid (some .returned) })
  | .ended, _, _ => none

/-- A session's supervisor; `transport_server.rs:663–704`. -/
def supervisorStep (sid : SessionId) :
    SupervisorPoint → Choice → State → Option (SupervisorPoint × State)
  | .begin acting, _, s =>
    if sid ∈ s.started then some (if acting then .select else .awaitPump, s) else none
  | .select, .flag true, s =>
    match s.actors sid with
    | some .panicked => some (.cancelForPump, s)
    | some .returned => some (.awaitPump, s)
    | none => none
  | .select, .flag false, s =>
    match s.pumps sid with
    | some .panicked => some (.cancelForActor, s)
    | some .returned => some (.awaitActor, s)
    | none => none
  | .select, _, _ => none
  | .cancelForPump, _, s => some (.awaitPump, s.cancelSession sid)
  | .cancelForActor, _, s => some (.awaitActor, s.cancelSession sid)
  | .awaitPump, _, s => if (s.pumps sid).isSome then some (.removeTransport, s) else none
  | .awaitActor, _, s => if (s.actors sid).isSome then some (.removeTransport, s) else none
  | .removeTransport, _, s => some (.removeHandle, s.removeTransport sid)
  | .removeHandle, _, s => some (.removeCancel, s.removeHandle sid)
  | .removeCancel, _, s =>
    some (.permit, { s with sessionCancels := s.sessionCancels.filter (· ≠ sid) })
  | .permit, _, s => some (.leave, s.releasePermit)
  | .leave, _, s => some (.ended, { s with sessionTracker := s.sessionTracker.leave })
  | .ended, _, _ => none

/-- `permits_restored`; `transport_server.rs:1599–1600`. -/
def permitsRestored (s : State) : Bool :=
  match cfg.maxConnections with
  | none => true
  | some max => s.connectionPermits = max

/-- The future is dropped while it owns the lock. -/
def State.abandonShutdown (s : State) : ShutdownPoint × State :=
  (.dropped, { s with shutdownLock := false })

/-- `shutdown_with_timeout`, with `report_snapshot`; `transport_server.rs:1478–1639`. -/
def shutdownStep : ShutdownPoint → Choice → State → Option (ShutdownPoint × State)
  | .lock, .drop, s => some (.dropped, s)
  | .lock, .timeout, s => some (.snapshotTracker, s)
  | .lock, _, s => if s.shutdownLock then none else some (.phase, { s with shutdownLock := true })
  | .snapshotTracker, _, s => some (.snapshotTransports s.sessionTracker.len, s)
  | .snapshotTransports tracked, _, s => some (.snapshotPhase (max tracked s.transports.length), s)
  | .snapshotPhase remaining, _, s =>
    some (.snapshotPermits remaining (decide (s.phase = .stopped)), s)
  | .snapshotPermits remaining infraStopped, _, s =>
    some (.returned ⟨0, remaining, infraStopped, permitsRestored cfg s, false⟩, s)
  | .phase, _, s =>
    match s.phase with
    | .idle | .starting | .running => some (.exchange s.phase, s)
    | .shuttingDown | .stopped => some (.gate false, s)
  | .exchange current, _, s =>
    if s.phase = current then
      some (.notify (decide (current = .idle)), s.setPhase .shutdown .shuttingDown)
    else some (.phase, s)
  | .notify neverServed, _, s => some (.gate neverServed, s.notify .shuttingDown)
  | .gate neverServed, _, s => some (.offer neverServed, { s with admissionOpen := false })
  -- The offer goes to the mailboxes of the actors, without waiting.
  | .offer neverServed, _, s => some (.cancel neverServed, s)
  | .cancel neverServed, _, s => some (.close neverServed, { s with rootCancel := true })
  | .close neverServed, _, s =>
    some (.initial neverServed, { s with sessionTracker := s.sessionTracker.close })
  | .initial neverServed, _, s => some (.wait neverServed s.sessionTracker.len, s)
  | .wait .., .drop, s => some s.abandonShutdown
  | .wait neverServed initialSessions, .timeout, s =>
    some (.remaining neverServed initialSessions, s)
  | .wait neverServed initialSessions, _, s =>
    if s.sessionTracker.closed ∧ s.sessionTracker.len = 0 then
      some (.remaining neverServed initialSessions, s)
    else none
  | .remaining neverServed initialSessions, _, s =>
    let closed := initialSessions - s.sessionTracker.len
    some (if neverServed then .store closed else .subscribe closed, s)
  | .store closed, _, s => some (.storeNotify closed, s.setPhase .shutdown .stopped)
  | .storeNotify closed, _, s => some (.subscribe closed, s.notify .stopped)
  | .subscribe closed, _, s => some (.check closed s.phaseVersion, s)
  | .check closed seen, _, s =>
    some (if s.phase = .stopped then .finished closed else .changed closed seen, s)
  | .changed .., .drop, s => some s.abandonShutdown
  | .changed closed _, .timeout, s => some (.straggler closed false, s)
  | .changed closed seen, _, s =>
    if s.phaseVersion ≠ seen then some (.check closed s.phaseVersion, s) else none
  | .finished closed, _, s =>
    some (if s.infraSupervisor && s.startupFinished then .takeHandle closed
      else .straggler closed true, s)
  | .takeHandle closed, _, s =>
    some (if s.infraSupervisor then .join closed else .straggler closed true,
      { s with infraSupervisor := false })
  | .join _, .drop, s => some s.abandonShutdown
  | .join closed, _, s => if s.startupFinished then some (.straggler closed true, s) else none
  | .straggler closed infraStopped, _, s =>
    some (if s.sessionTracker.len = 0 then .reportTracker closed infraStopped
      else .stragglerWait closed infraStopped, s)
  | .stragglerWait .., .drop, s => some s.abandonShutdown
  | .stragglerWait closed infraStopped, .timeout, s =>
    some (.reportTracker closed infraStopped, s)
  | .stragglerWait closed infraStopped, _, s =>
    if s.sessionTracker.closed ∧ s.sessionTracker.len = 0 then
      some (.reportTracker closed infraStopped, s)
    else none
  | .reportTracker closed infraStopped, _, s =>
    some (.reportTransports closed infraStopped s.sessionTracker.len, s)
  | .reportTransports closed infraStopped tracked, _, s =>
    some (.reportPermits closed infraStopped (max tracked s.transports.length), s)
  | .reportPermits closed infraStopped remaining, _, s =>
    let restored := permitsRestored cfg s
    some (.unlock ⟨closed, remaining, infraStopped, restored,
      decide (remaining = 0) && infraStopped && restored⟩, s)
  | .unlock report, _, s => some (.returned report, { s with shutdownLock := false })
  | .returned _, _, _ | .dropped, _, _ => none

/-- `stop` and `remove_session`; `transport_server.rs:724–748,1432–1435`. -/
def userStep : UserPoint → State → Option (UserPoint × State)
  | .stop, s => some (.returned, { s with infraCancel := true })
  | .removeTransport sid, s => some (.removeHandle sid, s.removeTransport sid)
  | .removeHandle sid, s => some (.returned, s.removeHandle sid)
  | .returned, _ => none

/-- One step of any task or call. -/
def step : Task → Choice → State → Option (Task × State × List Task)
  | .serve p, choice, s => (serveStep p choice s).map fun r ↦ (.serve r.1, r.2.1, r.2.2)
  | .startup p, choice, s => (startupStep cfg p choice s).map fun r ↦ (.startup r.1, r.2.1, r.2.2)
  | .infra p, choice, s => (infraStep p choice s).map fun r ↦ (.infra r.1, r.2.1, r.2.2)
  | .actor sid running, choice, s =>
    (actorStep sid running choice s).map fun r ↦ (.actor sid r.1, r.2, [])
  | .pump sid p, choice, s => (pumpStep sid p choice s).map fun r ↦ (.pump sid r.1, r.2, [])
  | .supervisor sid p, choice, s =>
    (supervisorStep sid p choice s).map fun r ↦ (.supervisor sid r.1, r.2, [])
  | .shutdown p, choice, s => (shutdownStep cfg p choice s).map fun r ↦ (.shutdown r.1, r.2, [])
  | .user p, _, s => (userStep p s).map fun r ↦ (.user r.1, r.2, [])

/-- Calls that may be made at any time. -/
def Task.isCall : Task → Bool
  | .serve .gate | .shutdown .lock | .user .stop | .user (.removeTransport _) => true
  | _ => false

/-- A server, its calls and its tasks. -/
def server : Threads State Task Choice where
  init := .new cfg
  entry := Task.isCall
  act := step cfg

end MsgTrans.Server
