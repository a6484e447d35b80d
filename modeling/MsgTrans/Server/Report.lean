import MsgTrans.Server.Permits
import MsgTrans.Server.Phases

/-!
# The server: a clean shutdown report

What `shutdown_with_timeout`, `crates/msgtrans/src/transport/transport_server.rs:1478–1639`, has
seen by the time it reports: each look at the shared state is a step of its own, and what it saw
stays true beside any other task, so that a clean report is true when it is given and ever after.
-/

namespace MsgTrans.Server

open MsgTrans.Base

variable {cfg : Config} {s s' : State} {choice : Choice} {x y : Task} {new : List Task}

/-- A supervisor that its tracker still counts. -/
def Task.isSupervisor : Task → Bool
  | .supervisor _ .ended => false
  | .supervisor _ _ => true
  | _ => false

/-- No session is left: nothing is tracked, nothing is in the table, the permits are back. -/
def State.Settled (cfg : Config) (s : State) : Prop :=
  s.phase = .stopped ∧ s.sessionTracker.len = 0 ∧ s.transports = [] ∧ permitsRestored cfg s = true

/-- What a shutdown has seen, at each of its points. -/
def ShutdownPoint.Knows (cfg : Config) (s : State) : ShutdownPoint → Prop
  | finished _ | takeHandle _ | join _ => s.phase = .stopped
  | straggler _ infraStopped | stragglerWait _ infraStopped | reportTracker _ infraStopped =>
    infraStopped = true → s.phase = .stopped
  | reportTransports _ infraStopped tracked =>
    infraStopped = true → s.phase = .stopped ∧ (tracked = 0 → s.sessionTracker.len = 0)
  | reportPermits _ infraStopped left =>
    infraStopped = true →
      s.phase = .stopped ∧ (left = 0 → s.sessionTracker.len = 0 ∧ s.transports = [])
  | unlock report | returned report => report.clean = true → s.Settled cfg
  | _ => True

/-- What a task has seen. -/
def Task.Knows (cfg : Config) (s : State) : Task → Prop
  | .shutdown p => p.Knows cfg s
  | _ => True

/-- Nothing that a shutdown has seen at a stopped server is undone. -/
structure Settles (s s' : State) : Prop where
  phase : s.phase = .stopped → s'.phase = .stopped
  tracker : s.phase = .stopped → s.sessionTracker.len = 0 → s'.sessionTracker.len = 0
  transports : s.phase = .stopped → s.transports = [] → s'.transports = []
  permits : s.phase = .stopped → s.sessionTracker.len = 0 →
    s'.connectionPermits = s.connectionPermits

theorem Settles.settled (h : Settles s s') (hs : s.Settled cfg) : s'.Settled cfg := by
  obtain ⟨hphase, hlen, htransports, hrestored⟩ := hs
  refine ⟨h.phase hphase, h.tracker hphase hlen, h.transports hphase htransports, ?_⟩
  rw [permitsRestored, h.permits hphase hlen]
  exact hrestored

theorem Settles.knows (h : Settles s s') (hx : x.Knows cfg s) : x.Knows cfg s' := by
  cases x with
  | shutdown p =>
    cases p with
    | finished | takeHandle | join => exact h.phase hx
    | straggler | stragglerWait | reportTracker => exact fun hstopped ↦ h.phase (hx hstopped)
    | reportTransports =>
      intro hstopped
      obtain ⟨hphase, hlen⟩ := hx hstopped
      exact ⟨h.phase hphase, fun hzero ↦ h.tracker hphase (hlen hzero)⟩
    | reportPermits =>
      intro hstopped
      obtain ⟨hphase, hseen⟩ := hx hstopped
      exact ⟨h.phase hphase, fun hzero ↦
        ⟨h.tracker hphase (hseen hzero).1, h.transports hphase (hseen hzero).2⟩⟩
    | unlock | returned => exact fun hclean ↦ h.settled (hx hclean)
    | _ => trivial
  | _ => trivial

/-- A shutdown knows what it saw. -/
private theorem shutdown_knows {p p' : ShutdownPoint}
    (h : shutdownStep cfg p choice s = some (p', s')) (hp : p.Knows cfg s) : p'.Knows cfg s' := by
  revert h
  fun_cases shutdownStep cfg p choice s
  all_goals rintro ⟨⟩
  case case8 => rintro ⟨⟩
  case case30 =>
    split
    next hstopped => exact hstopped
    next => trivial
  case case26 => split <;> trivial
  case case32 => rintro ⟨⟩
  case case35 | case36 =>
    split
    · exact hp
    · exact fun _ ↦ hp
  case case38 => exact fun _ ↦ hp
  case case40 => split <;> exact hp
  case case42 | case43 | case48 => exact hp
  case case45 => exact fun hstopped ↦ ⟨hp hstopped, id⟩
  case case46 =>
    intro hstopped
    obtain ⟨hphase, hlen⟩ := hp hstopped
    refine ⟨hphase, fun hmax ↦ ?_⟩
    obtain ⟨htracked, htransports⟩ := Nat.max_eq_zero_iff.mp hmax
    exact ⟨hlen htracked, List.length_eq_zero_iff.mp htransports⟩
  case case47 =>
    intro hclean
    obtain ⟨⟨hzero, hstopped⟩, hrestored⟩ := by simpa using hclean
    obtain ⟨hphase, hseen⟩ := hp hstopped
    exact ⟨hphase, (hseen hzero).1, (hseen hzero).2, hrestored⟩
  all_goals trivial

/-- A step beside the listeners adds no session; one beside the supervisors ends none. -/
structure Keeps (s s' : State) (supervisor : Bool) : Prop where
  tracker : s'.sessionTracker.len ≤ s.sessionTracker.len
  transports : s.transports = [] → s'.transports = []
  others : supervisor = false →
    s'.connectionPermits = s.connectionPermits ∧ s'.sessionTracker.len = s.sessionTracker.len

private theorem keeps_serve {p p' : ServePoint} (h : serveStep p choice s = some (p', s', new)) :
    Keeps s s' false := by
  revert h
  fun_cases serveStep p choice s
  all_goals rintro ⟨⟩ <;> exact ⟨le_rfl, id, fun _ ↦ ⟨rfl, rfl⟩⟩

private theorem keeps_startup {p p' : StartupPoint}
    (h : startupStep cfg p choice s = some (p', s', new)) : Keeps s s' false := by
  revert h
  fun_cases startupStep cfg p choice s
  all_goals rintro ⟨⟩ <;> exact ⟨le_rfl, id, fun _ ↦ ⟨rfl, rfl⟩⟩

private theorem keeps_shutdown {p p' : ShutdownPoint}
    (h : shutdownStep cfg p choice s = some (p', s')) : Keeps s s' false := by
  revert h
  fun_cases shutdownStep cfg p choice s
  all_goals rintro ⟨⟩ <;> exact ⟨le_rfl, id, fun _ ↦ ⟨rfl, rfl⟩⟩

private theorem keeps_actor {sid : SessionId} {running running' : Bool}
    (h : actorStep sid running choice s = some (running', s')) : Keeps s s' false := by
  revert h
  fun_cases actorStep sid running choice s
  all_goals rintro ⟨⟩ <;> exact ⟨le_rfl, id, fun _ ↦ ⟨rfl, rfl⟩⟩

private theorem removeTransport_nil {sid : SessionId} (h : s.transports = []) :
    (s.removeTransport sid).transports = [] := by
  rw [State.removeTransport, h]
  rfl

private theorem keeps_user {p p' : UserPoint} (h : userStep p s = some (p', s')) :
    Keeps s s' false := by
  revert h
  fun_cases userStep p s
  case case2 => rintro ⟨⟩; exact ⟨le_rfl, removeTransport_nil, fun _ ↦ ⟨rfl, rfl⟩⟩
  all_goals rintro ⟨⟩ <;> exact ⟨le_rfl, id, fun _ ↦ ⟨rfl, rfl⟩⟩

private theorem keeps_pump {sid : SessionId} {p p' : PumpPoint}
    (h : pumpStep sid p choice s = some (p', s')) : Keeps s s' false := by
  revert h
  fun_cases pumpStep sid p choice s
  case case4 => rintro ⟨⟩; exact ⟨le_rfl, removeTransport_nil, fun _ ↦ ⟨rfl, rfl⟩⟩
  all_goals rintro ⟨⟩ <;> exact ⟨le_rfl, id, fun _ ↦ ⟨rfl, rfl⟩⟩

private theorem keeps_supervisor {sid : SessionId} {p p' : SupervisorPoint}
    (h : supervisorStep sid p choice s = some (p', s')) : Keeps s s' true := by
  revert h
  fun_cases supervisorStep sid p choice s
  case case16 => rintro ⟨⟩; exact ⟨le_rfl, removeTransport_nil, fun h ↦ absurd h.symm Bool.false_ne_true⟩
  case case20 => rintro ⟨⟩; exact ⟨Nat.sub_le _ _, id, fun h ↦ absurd h.symm Bool.false_ne_true⟩
  all_goals rintro ⟨⟩ <;> exact ⟨le_rfl, id, fun h ↦ absurd h.symm Bool.false_ne_true⟩

/-- A step of any task but a listener or scanner. -/
theorem step_keeps (h : step cfg x choice s = some (y, s', new)) (hx : x.isInfra = false) :
    Keeps s s' x.isSupervisor := by
  cases x <;> simp only [step, Option.map_eq_some_iff, Prod.mk.injEq, Prod.exists] at h
  case serve => obtain ⟨p', t, n, hp, rfl, rfl, rfl⟩ := h; exact keeps_serve hp
  case startup => obtain ⟨p', t, n, hp, rfl, rfl, rfl⟩ := h; exact keeps_startup hp
  case infra p =>
    obtain ⟨p', t, n, hp, rfl, rfl, rfl⟩ := h
    cases p with
    | ended => cases hp
    | _ => cases hx
  case actor => obtain ⟨p', t, hp, rfl, rfl, rfl⟩ := h; exact keeps_actor hp
  case pump => obtain ⟨p', t, hp, rfl, rfl, rfl⟩ := h; exact keeps_pump hp
  case supervisor p =>
    obtain ⟨p', t, hp, rfl, rfl, rfl⟩ := h
    cases p <;> first | exact keeps_supervisor hp | cases hp
  case shutdown => obtain ⟨p', t, hp, rfl, rfl, rfl⟩ := h; exact keeps_shutdown hp
  case user => obtain ⟨p', t, hp, rfl, rfl, rfl⟩ := h; exact keeps_user hp

/-- Beside a stopped server no step brings anything back. -/
theorem step_settles {R : Multiset Role} (h : step cfg x choice s = some (y, s', new))
    (hI : LifeInv s.life (x.role ::ₘ R))
    (hlen : x.isSupervisor = true → 0 < s.sessionTracker.len) : Settles s s' := by
  have hkeeps : s.phase = .stopped → Keeps s s' x.isSupervisor := fun hstopped ↦
    step_keeps h (by rw [← role_isInfra]; exact hI.over (.inl hstopped) _ (Multiset.mem_cons_self _ _))
  refine ⟨fun hstopped ↦ ?_, fun hstopped hzero ↦ ?_, fun hstopped ↦ (hkeeps hstopped).transports,
    fun hstopped hzero ↦ ((hkeeps hstopped).others ?_).1⟩
  · have hvalue := (step_moves h).value_le hI
    rw [show s.life.phase = .stopped from hstopped] at hvalue
    by_contra hne
    exact absurd (Phase.value_lt hne) (Nat.not_lt.mpr hvalue)
  · exact Nat.le_zero.mp (hzero ▸ (hkeeps hstopped).tracker)
  · by_contra hsupervisor
    exact absurd (hlen (Bool.not_eq_false _ ▸ hsupervisor)) (by rw [hzero]; exact Nat.lt_irrefl 0)

private theorem tracker_serve {p p' : ServePoint} (h : serveStep p choice s = some (p', s', new)) :
    new.countP Task.isSupervisor = 0 := by
  revert h
  fun_cases serveStep p choice s
  all_goals rintro ⟨⟩ <;> rfl

private theorem tracker_startup {p p' : StartupPoint}
    (h : startupStep cfg p choice s = some (p', s', new)) :
    new.countP Task.isSupervisor = 0 := by
  revert h
  fun_cases startupStep cfg p choice s
  all_goals rintro ⟨⟩ <;> rfl

private theorem tracker_admit {sid : SessionId} {p : AdmitPoint} {p' : InfraPoint}
    (h : admitStep sid p choice s = some (p', s', new)) :
    s'.sessionTracker.len = s.sessionTracker.len + new.countP Task.isSupervisor := by
  revert h
  fun_cases admitStep sid p choice s
  all_goals rintro ⟨⟩
  case case19 => split <;> rfl
  all_goals rfl

private theorem tracker_infra {p p' : InfraPoint}
    (h : infraStep p choice s = some (p', s', new)) :
    s'.sessionTracker.len = s.sessionTracker.len + new.countP Task.isSupervisor := by
  revert h
  fun_cases infraStep p choice s
  case case13 => exact tracker_admit
  all_goals rintro ⟨⟩ <;> rfl

private theorem tracker_supervisor {sid : SessionId} {p p' : SupervisorPoint}
    (h : supervisorStep sid p choice s = some (p', s')) :
    s'.sessionTracker.len =
      s.sessionTracker.len - if (Task.supervisor sid p').isSupervisor then 0 else 1 := by
  revert h
  fun_cases supervisorStep sid p choice s
  case case1 acting _ => rintro ⟨⟩; cases acting <;> rfl
  all_goals rintro ⟨⟩ <;> rfl

/-- The tracker counts the supervisors. -/
theorem step_tracker {n : Nat} (h : step cfg x choice s = some (y, s', new))
    (hlen : s.sessionTracker.len = n + if x.isSupervisor then 1 else 0) :
    s'.sessionTracker.len =
      n + new.countP Task.isSupervisor + if y.isSupervisor then 1 else 0 := by
  cases x <;> simp only [step, Option.map_eq_some_iff, Prod.mk.injEq, Prod.exists] at h
  case serve =>
    obtain ⟨p', t, k, hp, rfl, rfl, rfl⟩ := h
    rw [((keeps_serve hp).others rfl).2, tracker_serve hp]
    exact hlen
  case startup =>
    obtain ⟨p', t, k, hp, rfl, rfl, rfl⟩ := h
    rw [((keeps_startup hp).others rfl).2, tracker_startup hp]
    exact hlen
  case infra =>
    obtain ⟨p', t, k, hp, rfl, rfl, rfl⟩ := h
    rw [tracker_infra hp, hlen]
    rfl
  case actor =>
    obtain ⟨p', t, hp, rfl, rfl, rfl⟩ := h
    rw [((keeps_actor hp).others rfl).2]
    exact hlen
  case pump =>
    obtain ⟨p', t, hp, rfl, rfl, rfl⟩ := h
    rw [((keeps_pump hp).others rfl).2]
    exact hlen
  case supervisor sid p =>
    obtain ⟨p', t, hp, rfl, rfl, rfl⟩ := h
    rw [tracker_supervisor hp, hlen]
    cases p with
    | ended => cases hp
    | _ => cases (Task.supervisor sid p').isSupervisor <;> rfl
  case shutdown =>
    obtain ⟨p', t, hp, rfl, rfl, rfl⟩ := h
    rw [((keeps_shutdown hp).others rfl).2]
    exact hlen
  case user =>
    obtain ⟨p', t, hp, rfl, rfl, rfl⟩ := h
    rw [((keeps_user hp).others rfl).2]
    exact hlen

private theorem spawns_serve {p p' : ServePoint} (h : serveStep p choice s = some (p', s', new)) :
    ∀ z ∈ new, z.Knows cfg s' := by
  revert h
  fun_cases serveStep p choice s
  all_goals rintro ⟨⟩ <;> simp [Task.Knows]

private theorem spawns_startup {p p' : StartupPoint}
    (h : startupStep cfg p choice s = some (p', s', new)) : ∀ z ∈ new, z.Knows cfg s' := by
  revert h
  fun_cases startupStep cfg p choice s
  all_goals rintro ⟨⟩ <;> simp [Task.Knows]

private theorem spawns_admit {sid : SessionId} {p : AdmitPoint} {p' : InfraPoint}
    (h : admitStep sid p choice s = some (p', s', new)) : ∀ z ∈ new, z.Knows cfg s' := by
  revert h
  fun_cases admitStep sid p choice s
  all_goals rintro ⟨⟩ <;> simp [Task.Knows]

private theorem spawns_infra {p p' : InfraPoint} (h : infraStep p choice s = some (p', s', new)) :
    ∀ z ∈ new, z.Knows cfg s' := by
  revert h
  fun_cases infraStep p choice s
  case case13 => exact spawns_admit
  all_goals rintro ⟨⟩ <;> simp [Task.Knows]

/-- After its step a task knows what it saw; what it spawned has seen nothing. -/
theorem step_knows (h : step cfg x choice s = some (y, s', new)) (hx : x.Knows cfg s) :
    y.Knows cfg s' ∧ ∀ z ∈ new, z.Knows cfg s' := by
  cases x <;> simp only [step, Option.map_eq_some_iff, Prod.mk.injEq, Prod.exists] at h
  case serve => obtain ⟨p', t, k, hp, rfl, rfl, rfl⟩ := h; exact ⟨trivial, spawns_serve hp⟩
  case startup => obtain ⟨p', t, k, hp, rfl, rfl, rfl⟩ := h; exact ⟨trivial, spawns_startup hp⟩
  case infra => obtain ⟨p', t, k, hp, rfl, rfl, rfl⟩ := h; exact ⟨trivial, spawns_infra hp⟩
  case shutdown =>
    obtain ⟨p', t, hp, rfl, rfl, rfl⟩ := h
    exact ⟨shutdown_knows hp hx, by simp⟩
  case actor | pump | supervisor | user =>
    obtain ⟨p', t, hp, rfl, rfl, rfl⟩ := h
    exact ⟨trivial, by simp⟩

/-- The invariant of the reports. -/
structure ReportInv (cfg : Config) (s : State) (M : Multiset Task) : Prop where
  life : LifeInv s.life (M.map Task.role)
  tracker : s.sessionTracker.len = M.countP (·.isSupervisor)
  knows : ∀ x ∈ M, x.Knows cfg s

namespace ReportInv

variable {M : Multiset Task}

theorem call (h : ReportInv cfg s M) (hx : x.isCall = true) : ReportInv cfg s (x ::ₘ M) where
  life := by
    rw [Multiset.map_cons, call_role hx]
    exact h.life.cons_other
  tracker := by
    rw [Multiset.countP_cons, if_neg (by revert hx; fun_cases Task.isCall x <;> simp [Task.isSupervisor])]
    exact h.tracker
  knows z hz := by
    obtain rfl | hz := Multiset.mem_cons.mp hz
    · revert hx
      fun_cases Task.isCall z <;> simp [Task.Knows, ShutdownPoint.Knows]
    · exact h.knows z hz

theorem step (h : ReportInv cfg s (x ::ₘ M)) (hstep : Server.step cfg x choice s = some (y, s', new)) :
    ReportInv cfg s' (y ::ₘ (M + (new : Multiset Task))) := by
  have hlife := h.life
  rw [Multiset.map_cons] at hlife
  have hlen := h.tracker
  rw [Multiset.countP_cons] at hlen
  have hsettles : Settles s s' := by
    refine step_settles hstep hlife fun hx ↦ ?_
    rw [hlen, if_pos hx]
    exact Nat.succ_pos _
  obtain ⟨hy, hnew⟩ := step_knows hstep (h.knows x (Multiset.mem_cons_self _ _))
  refine ⟨?_, ?_, fun z hz ↦ ?_⟩
  · rw [Multiset.map_cons, Multiset.map_add, Multiset.map_coe]
    exact hlife.moves (step_moves hstep)
  · rw [step_tracker hstep hlen, Multiset.countP_cons, Multiset.countP_add, Multiset.coe_countP]
    simp
  · obtain rfl | hz := Multiset.mem_cons.mp hz
    · exact hy
    obtain hz | hz := Multiset.mem_add.mp hz
    · exact hsettles.knows (h.knows z (Multiset.mem_cons_of_mem hz))
    · exact hnew z (Multiset.mem_coe.mp hz)

end ReportInv

section Contract

variable {p : Pool State Task}

theorem reportInv (h : (server cfg).machine.Reachable p) : ReportInv cfg p.shared p.threads := by
  refine Threads.invariant (fun _ _ ↦ True) ⟨lifeInv_init, rfl, by simp⟩
    (fun _ _ _ hI hx ↦ hI.call hx) (fun _ _ _ _ _ _ _ hI _ hact ↦ hI.step hact)
    (Threads.reachable_restricted h fun _ _ ↦ trivial)

/-- Nothing of the server is left. -/
structure Quiet (cfg : Config) (p : Pool State Task) : Prop where
  /-- No supervisor runs. -/
  supervisors : ∀ x ∈ p.threads, x.isSupervisor = false
  /-- No actor and no pump runs. -/
  children : ∀ x ∈ p.threads, ∀ kind sid, x.holder ≠ .child kind sid
  transports : p.shared.transports = []
  /-- Under a cap every permit is back. -/
  permits : ∀ max ∈ cfg.maxConnections, p.shared.connectionPermits = max
  /-- No listener and no scanner runs. -/
  infra : ∀ x ∈ p.threads, x.isInfra = false

/-- The holder of a session is its admission or its supervisor. -/
theorem parent_task {sid : SessionId} {st : Stages} (h : x.holder = .parent sid st) :
    x.isInfra = true ∨ x.isSupervisor = true := by
  cases x with
  | infra q => cases q <;> first | exact .inl rfl | cases h
  | supervisor sid' q => cases q <;> first | exact .inr rfl | cases h
  | actor sid' running => cases running <;> cases h
  | pump sid' q => cases q <;> cases h
  | _ => cases h

theorem quiet_of_settled (h : (server cfg).machine.Reachable p) (hs : p.shared.Settled cfg) :
    Quiet cfg p := by
  obtain ⟨hphase, hlen, htransports, hrestored⟩ := hs
  have hinfra := no_infra_of_over h (.inl hphase)
  have hsupervisors : ∀ x ∈ p.threads, x.isSupervisor = false := by
    have hzero := (reportInv h).tracker.symm.trans hlen
    intro x hx
    simpa using Multiset.countP_eq_zero.mp hzero x (Multiset.mem_coe.mpr hx)
  refine ⟨hsupervisors, fun x hx kind sid hchild ↦ ?_, htransports, fun max hmax ↦ ?_, hinfra⟩
  · obtain ⟨st, hparent, -⟩ := (families h).born kind sid (mem_holders.mpr ⟨x, hx, hchild⟩)
    obtain ⟨z, hz, hparent⟩ := mem_holders.mp hparent
    obtain hi | hsup := parent_task hparent
    · rw [hinfra z hz] at hi
      cases hi
    · rw [hsupervisors z hz] at hsup
      cases hsup
  · have hcap : cfg.maxConnections = some max := hmax
    rw [permitsRestored, hcap] at hrestored
    exact of_decide_eq_true hrestored

/-- A clean report is true, then and in whatever the server does later. -/
theorem clean_report_is_true (h : (server cfg).machine.Reachable p) {report : ShutdownReport}
    (hreport : .shutdown (.returned report) ∈ p.threads) (hclean : report.clean = true)
    (turns : List (Turn Task Choice)) (p' : Pool State Task)
    (hrun : (server cfg).machine.run p turns = some p') : Quiet cfg p' := by
  have h' := Machine.Reachable.of_run h hrun
  have hmem := Threads.ended_mem hreport (fun _ _ ↦ rfl) hrun
  exact quiet_of_settled h' ((reportInv h').knows _ (Multiset.mem_coe.mpr hmem) hclean)

/-- The session ends, a shutdown ends the listener and the scanner, and reports. -/
def reportingTurns : List (Turn Task Choice) :=
  List.flatten [joiningTurns, List.replicate 2 (.run 5 .go), List.replicate 6 (.run 1 .go),
    [.start (.shutdown .lock)], List.replicate 13 (.run 7 .go),
    [.run 2 .cancelled, .run 2 .go, .run 2 .go, .run 2 .go, .run 6 .cancelled, .run 6 .go,
      .run 6 .go], List.replicate 4 (.run 1 .go), List.replicate 10 (.run 7 .go)]

/-- A server that had a session is quiet after a clean report. -/
theorem clean_report_is_true_of_reporting :
    ∃ p, (server oneSession).machine.run (server oneSession).machine.start reportingTurns = some p ∧
      Quiet oneSession p := by
  have hrun : ((server oneSession).machine.run (server oneSession).machine.start
      reportingTurns).map (·.threads.getLast?) =
        some (some (.shutdown (.returned ⟨0, 0, true, true, true⟩))) := by decide +kernel
  obtain ⟨p, hp, hlast⟩ := Option.map_eq_some_iff.mp hrun
  exact ⟨p, hp, clean_report_is_true (Machine.Reachable.of_run .start hp)
    (List.mem_of_getLast? hlast) rfl [] p rfl⟩

end Contract

end MsgTrans.Server
