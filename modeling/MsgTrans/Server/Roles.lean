import MsgTrans.Server.Tasks

/-!
# The server: the roles of its tasks

What the tasks and calls of `crates/msgtrans/src/transport/transport_server.rs:1062–1639` have to do
with the phase: who may write it, who may still start a listener or the timeout scanner, and who
waits for it through the watch channel. Every task plays one of a few roles; each step of a task is
a move of these roles, and the moves keep the phases in order.
-/

namespace MsgTrans.Server

open MsgTrans.Base

/-- What the roles see: the phase, how often the watch was set, the writes of the phase, and how
many listeners and scanners there are. -/
structure Life where
  phase : Phase
  version : Nat
  writes : List (Writer × Phase)
  infra : Nat

namespace Life

/-- The phase is written. -/
def write (l : Life) (writer : Writer) (phase : Phase) : Life :=
  { l with phase := phase, writes := l.writes ++ [(writer, phase)] }

/-- The watch is set. -/
def notify (l : Life) : Life := { l with version := l.version + 1 }

end Life

/-- What the roles see of the shared state. -/
def State.life (s : State) : Life := ⟨s.phase, s.phaseVersion, s.phaseWrites, s.infraTracker.len⟩

@[simp]
theorem State.life_setPhase (s : State) (writer : Writer) (phase : Phase) :
    (s.setPhase writer phase).life = s.life.write writer phase :=
  rfl

/-- The roles: a `serve` that won the phase and has not spawned the startup, the startup before it
found the infra tracker drained, before and after its store and after its notification, a shutdown
that moved the phase out of `Idle` before and after its own store, a shutdown between reading the
phase and exchanging it, a caller that checks the phase or sleeps until the watch is set, and a
listener or scanner. -/
inductive Role where
  | other
  | claimed
  | building
  | storing
  | notifying
  | done
  | neverServed
  | notifyingNever
  | exchanging (current : Phase)
  | waiting (seen : Nat)
  | parked (seen : Nat)
  | infra
  deriving DecidableEq, Repr

namespace Role

/-- The one startup, or the one shutdown that takes its place. -/
def owner : Role → Bool
  | claimed | building | storing | notifying | done | neverServed | notifyingNever => true
  | _ => false

/-- It may still store `Stopped`. -/
def pending : Role → Bool
  | claimed | building | storing | neverServed => true
  | _ => false

/-- It stored `Stopped` and is about to set the watch. -/
def notifier : Role → Bool
  | notifying | notifyingNever => true
  | _ => false

/-- A listener or the scanner. -/
def isInfra : Role → Bool
  | infra => true
  | _ => false

end Role

/-- The role of a shutdown call. -/
def ShutdownPoint.role : ShutdownPoint → Role
  | exchange current => .exchanging current
  | notify never | gate never | offer never | cancel never | close never | initial never
  | wait never _ | remaining never _ => if never then .neverServed else .other
  | store _ => .neverServed
  | storeNotify _ => .notifyingNever
  | check _ seen => .waiting seen
  | changed _ seen => .parked seen
  | _ => .other

/-- The role of a task or call. -/
def Task.role : Task → Role
  | serve .notify | serve .spawn => .claimed
  | serve (.check seen) => .waiting seen
  | serve (.changed seen) => .parked seen
  | startup .tailStore => .storing
  | startup .tailNotify => .notifying
  | startup .finish | startup .ended => .done
  | startup _ => .building
  | infra .ended => .other
  | infra _ => .infra
  | shutdown p => p.role
  | _ => .other

/-- The moves of the roles, with the roles they add. -/
inductive PhaseMoves : Life → Role → Life → Role → Multiset Role → Prop where
  | still {l : Life} {r : Role} {n : Nat} : PhaseMoves l r l r (.replicate n .other)
  | notify {l : Life} {r : Role} : PhaseMoves l r l.notify r 0
  | claim {l : Life} : l.phase = .idle → PhaseMoves l .other (l.write .serve .starting) .claimed 0
  | spawn {l : Life} : PhaseMoves l .claimed l .other {.building}
  | listen {l : Life} : PhaseMoves l .building { l with infra := l.infra + 1 } .building {.infra}
  | running {l : Life} : l.phase = .starting →
      PhaseMoves l .building (l.write .startup .running) .building 0
  | drained {l : Life} : l.infra = 0 → PhaseMoves l .building l .storing 0
  | store {l : Life} : PhaseMoves l .storing (l.write .startup .stopped) .notifying 0
  | notified {l : Life} : PhaseMoves l .notifying l.notify .done 0
  | leave {l : Life} : PhaseMoves l .infra { l with infra := l.infra - 1 } .other 0
  | load {l : Life} {current : Phase} : current.value < 3 →
      PhaseMoves l .other l (.exchanging current) 0
  | exchanged {l : Life} {current : Phase} : l.phase = current →
      PhaseMoves l (.exchanging current) (l.write .shutdown .shuttingDown)
        (if current = .idle then .neverServed else .other) 0
  | lost {l : Life} {current : Phase} : PhaseMoves l (.exchanging current) l .other 0
  | storeNever {l : Life} :
      PhaseMoves l .neverServed (l.write .shutdown .stopped) .notifyingNever 0
  | notifiedNever {l : Life} : PhaseMoves l .notifyingNever l.notify .other 0
  | abandon {l : Life} : PhaseMoves l .neverServed l .other 0
  | watch {l : Life} : PhaseMoves l .other l (.waiting l.version) 0
  | park {l : Life} {seen : Nat} : l.phase ≠ .stopped →
      PhaseMoves l (.waiting seen) l (.parked seen) 0
  | wake {l : Life} {seen : Nat} : PhaseMoves l (.parked seen) l (.waiting l.version) 0
  | leaveCheck {l : Life} {seen : Nat} : PhaseMoves l (.waiting seen) l .other 0
  | leavePark {l : Life} {seen : Nat} : PhaseMoves l (.parked seen) l .other 0

theorem call_role {x : Task} (h : x.isCall = true) : x.role = .other := by
  revert h
  fun_cases Task.isCall x <;> simp [Task.role, ShutdownPoint.role]

section Simulation

variable {cfg : Config} {s s' : State} {choice : Choice} {new : List Task}

private theorem serve_moves {p p' : ServePoint} (h : serveStep p choice s = some (p', s', new)) :
    PhaseMoves s.life (Task.role (.serve p)) s'.life (Task.role (.serve p'))
      (new.map Task.role : List Role) := by
  revert h
  fun_cases serveStep p choice s
  case case1 hidle => rintro ⟨⟩; exact .claim hidle
  case case3 => rintro ⟨⟩; exact .notify
  case case4 => rintro ⟨⟩; exact .spawn
  case case5 => rintro ⟨⟩; exact .watch
  case case6 =>
    rintro ⟨⟩
    by_cases hstopped : s.phase = .stopped
    · rw [if_pos hstopped]
      exact .leaveCheck
    · rw [if_neg hstopped]
      exact .park hstopped
  case case7 => rintro ⟨⟩; exact .leavePark
  case case8 => rintro ⟨⟩; exact .wake
  case case2 | case10 | case11 | case12 => rintro ⟨⟩; exact .still (n := 0)
  all_goals exact fun h ↦ nomatch h

private theorem startup_moves {p p' : StartupPoint}
    (h : startupStep cfg p choice s = some (p', s', new)) :
    PhaseMoves s.life (Task.role (.startup p)) s'.life (Task.role (.startup p'))
      (new.map Task.role : List Role) := by
  revert h
  fun_cases startupStep cfg p choice s
  case case1 =>
    rintro ⟨⟩
    split <;> exact .still (n := 0)
  case case10 | case11 => rintro ⟨⟩; exact .listen
  case case13 hstarting => rintro ⟨⟩; exact .running hstarting
  case case15 => rintro ⟨⟩; exact .notify
  case case21 hdrained => rintro ⟨⟩; exact .drained hdrained.2
  case case23 => rintro ⟨⟩; exact .store
  case case24 => rintro ⟨⟩; exact .notified
  case case7 | case8 | case22 | case26 => exact fun h ↦ nomatch h
  all_goals rintro ⟨⟩; exact .still (n := 0)

private theorem admit_moves {sid : SessionId} {p : AdmitPoint} {p' : InfraPoint}
    (h : admitStep sid p choice s = some (p', s', new)) :
    PhaseMoves s.life .infra s'.life (Task.role (.infra p')) (new.map Task.role : List Role) := by
  revert h
  fun_cases admitStep sid p choice s
  case case6 => exact fun h ↦ nomatch h
  all_goals rintro ⟨⟩
  case case14 | case15 | case16 => exact .still (n := 1)
  case case19 => split <;> exact .still (n := 0)
  all_goals exact .still (n := 0)

private theorem infra_moves {p p' : InfraPoint} (h : infraStep p choice s = some (p', s', new)) :
    PhaseMoves s.life (Task.role (.infra p)) s'.life (Task.role (.infra p'))
      (new.map Task.role : List Role) := by
  revert h
  fun_cases infraStep p choice s
  case case13 => exact admit_moves
  case case2 | case6 | case18 | case25 => exact fun h ↦ nomatch h
  all_goals rintro ⟨⟩
  case case4 | case14 | case21 => split <;> exact .still (n := 0)
  case case24 => exact .leave
  all_goals exact .still (n := 0)

private theorem supervisor_life {sid : SessionId} {p p' : SupervisorPoint}
    (h : supervisorStep sid p choice s = some (p', s')) : s'.life = s.life := by
  revert h
  fun_cases supervisorStep sid p choice s
  all_goals rintro ⟨⟩ <;> rfl

private theorem pump_life {sid : SessionId} {p p' : PumpPoint}
    (h : pumpStep sid p choice s = some (p', s')) : s'.life = s.life := by
  revert h
  fun_cases pumpStep sid p choice s
  all_goals rintro ⟨⟩ <;> rfl

private theorem actor_life {sid : SessionId} {running running' : Bool}
    (h : actorStep sid running choice s = some (running', s')) : s'.life = s.life := by
  revert h
  fun_cases actorStep sid running choice s
  all_goals rintro ⟨⟩ <;> rfl

private theorem user_life {p p' : UserPoint} (h : userStep p s = some (p', s')) :
    s'.life = s.life := by
  revert h
  fun_cases userStep p s
  all_goals rintro ⟨⟩ <;> rfl

private theorem shutdown_moves {p p' : ShutdownPoint}
    (h : shutdownStep cfg p choice s = some (p', s')) :
    PhaseMoves s.life (Task.role (.shutdown p)) s'.life (Task.role (.shutdown p')) 0 := by
  revert h
  fun_cases shutdownStep cfg p choice s
  case case3 | case25 | case34 | case39 | case44 | case49 | case50 => exact fun h ↦ nomatch h
  all_goals rintro ⟨⟩
  case case9 hphase | case10 hphase | case11 hphase =>
    exact .load (by show s.phase.value < 3; rw [hphase]; decide)
  case case14 =>
    have hmove : PhaseMoves s.life (.exchanging s.phase) _ _ 0 := .exchanged rfl
    simpa [Task.role, ShutdownPoint.role] using hmove
  case case15 => exact .lost
  case case16 => exact .notify
  case case22 neverServed _ =>
    cases neverServed
    · exact .still (n := 0)
    · exact .abandon
  case case26 neverServed _ _ => cases neverServed <;> exact .still (n := 0)
  case case27 => exact .storeNever
  case case28 => exact .notifiedNever
  case case29 => exact .watch
  case case30 =>
    by_cases hstopped : s.phase = .stopped
    · rw [if_pos hstopped]
      exact .leaveCheck
    · rw [if_neg hstopped]
      exact .park hstopped
  case case31 | case32 => exact .leavePark
  case case33 => exact .wake
  case case35 | case36 | case40 => split <;> exact .still (n := 0)
  all_goals exact .still (n := 0)

theorem step_moves {x y : Task} (h : step cfg x choice s = some (y, s', new)) :
    PhaseMoves s.life x.role s'.life y.role (new.map Task.role : List Role) := by
  cases x <;> simp only [step, Option.map_eq_some_iff, Prod.mk.injEq, Prod.exists] at h
  case serve => obtain ⟨p', t, n, hp, rfl, rfl, rfl⟩ := h; exact serve_moves hp
  case startup => obtain ⟨p', t, n, hp, rfl, rfl, rfl⟩ := h; exact startup_moves hp
  case infra => obtain ⟨p', t, n, hp, rfl, rfl, rfl⟩ := h; exact infra_moves hp
  case shutdown => obtain ⟨p', t, hp, rfl, rfl, rfl⟩ := h; exact shutdown_moves hp
  case actor =>
    obtain ⟨p', t, hp, rfl, rfl, rfl⟩ := h
    rw [actor_life hp]
    exact .still (n := 0)
  case pump =>
    obtain ⟨p', t, hp, rfl, rfl, rfl⟩ := h
    rw [pump_life hp]
    exact .still (n := 0)
  case supervisor =>
    obtain ⟨p', t, hp, rfl, rfl, rfl⟩ := h
    rw [supervisor_life hp]
    exact .still (n := 0)
  case user =>
    obtain ⟨p', t, hp, rfl, rfl, rfl⟩ := h
    rw [user_life hp]
    exact .still (n := 0)

end Simulation

end MsgTrans.Server
