import MsgTrans.Server.Roles

/-!
# The server: permits and sessions

Who holds a connection permit in `crates/msgtrans/src/transport/transport_server.rs:521–722,1250–1390`
and which actors and pumps run under it. A permit is taken for an accepted connection, passes with
its session from the admission to the supervisor, and is given back by whoever holds it last. The
steps of all tasks are moves of these holders and their children.
-/

namespace MsgTrans.Server

open MsgTrans.Base

/-- The tasks that a session's supervisor joins. -/
inductive Child where
  | actor
  | pump
  deriving DecidableEq, Repr

/-- What the holder of a session knows of a child: not spawned yet, spawned, or never to run any
more. -/
inductive Stage where
  | unborn
  | running
  | gone
  deriving DecidableEq, Repr

/-- The stages of the actor and of the pump. -/
structure Stages where
  actor : Stage
  pump : Stage
  deriving DecidableEq, Repr

namespace Stages

/-- The stage of a child. -/
def get (st : Stages) : Child → Stage
  | .actor => st.actor
  | .pump => st.pump

/-- A child's next stage. -/
def set (st : Stages) (kind : Child) (stage : Stage) : Stages :=
  match kind with
  | .actor => { st with actor := stage }
  | .pump => { st with pump := stage }

theorem get_set (st : Stages) (kind kind' : Child) (stage : Stage) :
    (st.set kind stage).get kind' = if kind' = kind then stage else st.get kind' := by
  cases kind <;> cases kind' <;> rfl

end Stages

/-- What the holders see of the shared state. -/
structure Desk where
  permits : Nat
  next : SessionId
  ended : Child → SessionId → Bool

/-- A child of a session ends. -/
def Desk.finish (d : Desk) (kind : Child) (sid : SessionId) : Desk :=
  { d with ended := fun kind' sid' ↦ decide (kind' = kind ∧ sid' = sid) || d.ended kind' sid' }

/-- What the holders see of the shared state. -/
def State.desk (s : State) : Desk where
  permits := s.connectionPermits
  next := s.sessionIdGenerator
  ended := fun kind sid ↦
    match kind with
    | .actor => (s.actors sid).isSome
    | .pump => (s.pumps sid).isSome

theorem State.desk_actors (s : State) (sid : SessionId) (joined : Joined) :
    State.desk { s with actors := Function.update s.actors sid (some joined) } =
      s.desk.finish .actor sid := by
  simp only [State.desk, Desk.finish, Desk.mk.injEq, true_and]
  funext kind sid'
  cases kind with
  | actor => by_cases hsid : sid' = sid <;> simp [hsid]
  | pump => simp

theorem State.desk_pumps (s : State) (sid : SessionId) (joined : Joined) :
    State.desk { s with pumps := Function.update s.pumps sid (some joined) } =
      s.desk.finish .pump sid := by
  simp only [State.desk, Desk.finish, Desk.mk.injEq, true_and]
  funext kind sid'
  cases kind with
  | actor => simp
  | pump => by_cases hsid : sid' = sid <;> simp [hsid]

/-- The roles: the holder of a permit for no session, the holder of a permit for a session, and a
running child of a session. -/
inductive Holder where
  | other
  | bare
  | parent (sid : SessionId) (st : Stages)
  | child (kind : Child) (sid : SessionId)
  deriving DecidableEq, Repr

namespace Holder

/-- It holds a permit. -/
def holds : Holder → Bool
  | bare | parent _ _ => true
  | _ => false

@[simp] theorem holds_other : holds other = false := rfl
@[simp] theorem holds_bare : holds bare = true := rfl
@[simp] theorem holds_parent (sid : SessionId) (st : Stages) : holds (parent sid st) = true := rfl
@[simp] theorem holds_child (kind : Child) (sid : SessionId) : holds (child kind sid) = false := rfl

end Holder

/-- An actor that was spawned, or was not because the session's handle was not registered. -/
def actorStage (acting : Bool) : Stage := if acting then .running else .gone

/-- What an admission holds. -/
def AdmitPoint.holder (sid : SessionId) : AdmitPoint → Holder
  | gate | close | takePipe | connect _ | insert _ | disconnect | handles _ =>
    .parent sid ⟨.unborn, .unborn⟩
  | pump _ acting => .parent sid ⟨actorStage acting, .unborn⟩
  | supervise acting => .parent sid ⟨actorStage acting, .running⟩
  | cancels | start | recheck => .other

/-- What a supervisor holds. -/
def SupervisorPoint.holder (sid : SessionId) : SupervisorPoint → Holder
  | begin acting => .parent sid ⟨actorStage acting, .running⟩
  | select => .parent sid ⟨.running, .running⟩
  | cancelForPump | awaitPump => .parent sid ⟨.gone, .running⟩
  | cancelForActor | awaitActor => .parent sid ⟨.running, .gone⟩
  | removeTransport | removeHandle | removeCancel | permit => .parent sid ⟨.gone, .gone⟩
  | leave | ended => .other

/-- The role of a task or call. -/
def Task.holder : Task → Holder
  | infra .newSession | infra (.release _) => .bare
  | infra (.adding sid p) => p.holder sid
  | actor sid true => .child .actor sid
  | pump _ .ended => .other
  | pump sid _ => .child .pump sid
  | supervisor sid p => p.holder sid
  | _ => .other

/-- The moves of the roles, with the roles they add. -/
inductive HolderMoves : Desk → Holder → Desk → Holder → Multiset Holder → Prop where
  | still {d : Desk} {r : Holder} {n : Nat} : HolderMoves d r d r (.replicate n .other)
  | take {d : Desk} : d.permits ≠ 0 →
      HolderMoves d .other { d with permits := d.permits - 1 } .bare 0
  | accept {d : Desk} : HolderMoves d .bare { d with next := d.next + 1 }
      (.parent d.next ⟨.unborn, .unborn⟩) 0
  | refuse {d : Desk} {sid : SessionId} :
      HolderMoves d (.parent sid ⟨.unborn, .unborn⟩) d .bare 0
  | release {d : Desk} : HolderMoves d .bare { d with permits := d.permits + 1 } .other 0
  | bear {d : Desk} {sid : SessionId} {st : Stages} (kind : Child) : st.get kind = .unborn →
      HolderMoves d (.parent sid st) d (.parent sid (st.set kind .running)) {.child kind sid}
  | without {d : Desk} {sid : SessionId} {st : Stages} (kind : Child) : st.get kind = .unborn →
      HolderMoves d (.parent sid st) d (.parent sid (st.set kind .gone)) 0
  | handOver {d : Desk} {sid : SessionId} {st : Stages} :
      HolderMoves d (.parent sid st) d .other {.parent sid st}
  | join {d : Desk} {sid : SessionId} {st : Stages} (kind : Child) : d.ended kind sid = true →
      HolderMoves d (.parent sid st) d (.parent sid (st.set kind .gone)) 0
  | finish {d : Desk} {sid : SessionId} : HolderMoves d (.parent sid ⟨.gone, .gone⟩)
      { d with permits := d.permits + 1 } .other 0
  | endChild {d : Desk} {sid : SessionId} (kind : Child) :
      HolderMoves d (.child kind sid) (d.finish kind sid) .other 0

section Simulation

variable {cfg : Config} {s s' : State} {choice : Choice} {new : List Task}

private theorem serve_desk {p p' : ServePoint} (h : serveStep p choice s = some (p', s', new)) :
    s'.desk = s.desk ∧ ∀ x ∈ new, x.holder = .other := by
  revert h
  fun_cases serveStep p choice s
  all_goals rintro ⟨⟩ <;> exact ⟨rfl, by simp [Task.holder]⟩

private theorem startup_desk {p p' : StartupPoint}
    (h : startupStep cfg p choice s = some (p', s', new)) :
    s'.desk = s.desk ∧ ∀ x ∈ new, x.holder = .other := by
  revert h
  fun_cases startupStep cfg p choice s
  all_goals rintro ⟨⟩ <;> exact ⟨rfl, by simp [Task.holder]⟩

private theorem shutdown_desk {p p' : ShutdownPoint}
    (h : shutdownStep cfg p choice s = some (p', s')) : s'.desk = s.desk := by
  revert h
  fun_cases shutdownStep cfg p choice s
  all_goals rintro ⟨⟩ <;> rfl

private theorem user_desk {p p' : UserPoint} (h : userStep p s = some (p', s')) :
    s'.desk = s.desk := by
  revert h
  fun_cases userStep p s
  all_goals rintro ⟨⟩ <;> rfl

private theorem actor_holder {sid : SessionId} {running running' : Bool}
    (h : actorStep sid running choice s = some (running', s')) :
    HolderMoves s.desk (Task.holder (.actor sid running)) s'.desk
      (Task.holder (.actor sid running')) 0 := by
  revert h
  fun_cases actorStep sid running choice s
  case case3 => rintro ⟨⟩
  all_goals
    rintro ⟨⟩
    rw [State.desk_actors]
    exact .endChild .actor

private theorem pump_holder {sid : SessionId} {p p' : PumpPoint}
    (h : pumpStep sid p choice s = some (p', s')) :
    HolderMoves s.desk (Task.holder (.pump sid p)) s'.desk (Task.holder (.pump sid p')) 0 := by
  revert h
  fun_cases pumpStep sid p choice s
  case case1 | case6 | case7 =>
    rintro ⟨⟩
    rw [State.desk_pumps]
    exact .endChild .pump
  case case2 | case4 | case5 => rintro ⟨⟩; exact .still (n := 0)
  case case3 =>
    rintro ⟨⟩
    split <;> exact .still (n := 0)
  case case8 => rintro ⟨⟩

private theorem supervisor_holder {sid : SessionId} {p p' : SupervisorPoint}
    (h : supervisorStep sid p choice s = some (p', s')) :
    HolderMoves s.desk (Task.holder (.supervisor sid p)) s'.desk
      (Task.holder (.supervisor sid p')) 0 := by
  revert h
  fun_cases supervisorStep sid p choice s
  case case2 | case5 | case8 | case9 | case13 | case15 | case21 => rintro ⟨⟩
  all_goals rintro ⟨⟩
  case case1 acting _ => cases acting <;> exact .still (n := 0)
  case case3 hended | case4 hended => exact .join .actor (by simp [State.desk, hended])
  case case6 hended | case7 hended => exact .join .pump (by simp [State.desk, hended])
  case case12 hended => exact .join .pump hended
  case case14 hended => exact .join .actor hended
  case case19 => exact .finish
  all_goals exact .still (n := 0)

private theorem admit_holder {sid : SessionId} {p : AdmitPoint} {p' : InfraPoint}
    (h : admitStep sid p choice s = some (p', s', new)) :
    HolderMoves s.desk (p.holder sid) s'.desk (Task.holder (.infra p'))
      (new.map Task.holder : List Holder) := by
  revert h
  fun_cases admitStep sid p choice s
  case case6 => rintro ⟨⟩
  all_goals rintro ⟨⟩
  case case1 => split <;> exact .still (n := 0)
  case case2 | case3 | case4 | case7 | case11 | case12 => exact .refuse
  case case13 => exact .without .actor rfl
  case case14 => exact .bear .actor rfl
  case case15 piped _ => cases piped <;> exact .bear .pump rfl
  case case16 => exact .handOver
  case case19 => split <;> exact .still (n := 0)
  all_goals exact .still (n := 0)

private theorem infra_holder {p p' : InfraPoint}
    (h : infraStep p choice s = some (p', s', new)) :
    HolderMoves s.desk (Task.holder (.infra p)) s'.desk (Task.holder (.infra p'))
      (new.map Task.holder : List Holder) := by
  revert h
  fun_cases infraStep p choice s
  case case8 hpermits => rintro ⟨⟩; exact .take hpermits
  case case11 => rintro ⟨⟩; exact .still (n := 0)
  case case12 => rintro ⟨⟩; exact .accept
  case case13 => exact admit_holder
  case case14 panicked =>
    rintro ⟨⟩
    cases panicked <;> exact .release
  case case2 | case6 | case18 | case25 => rintro ⟨⟩
  case case4 | case21 =>
    rintro ⟨⟩
    split <;> exact .still (n := 0)
  all_goals rintro ⟨⟩; exact .still (n := 0)

private theorem still_of_other {d : Desk} {r : Holder} (h : ∀ x ∈ new, x.holder = .other) :
    HolderMoves d r d r (new.map Task.holder : List Holder) := by
  have hnew : new.map Task.holder = List.replicate new.length .other :=
    List.eq_replicate_iff.mpr ⟨by simp, by simpa using h⟩
  rw [hnew, Multiset.coe_replicate]
  exact .still

/-- Every step of a task or call is a move of its role. -/
theorem step_holder {x y : Task} (h : step cfg x choice s = some (y, s', new)) :
    HolderMoves s.desk x.holder s'.desk y.holder (new.map Task.holder : List Holder) := by
  cases x <;> simp only [step, Option.map_eq_some_iff, Prod.mk.injEq, Prod.exists] at h
  case serve =>
    obtain ⟨p', t, n, hp, rfl, rfl, rfl⟩ := h
    rw [(serve_desk hp).1]
    exact still_of_other (serve_desk hp).2
  case startup =>
    obtain ⟨p', t, n, hp, rfl, rfl, rfl⟩ := h
    rw [(startup_desk hp).1]
    exact still_of_other (startup_desk hp).2
  case infra => obtain ⟨p', t, n, hp, rfl, rfl, rfl⟩ := h; exact infra_holder hp
  case actor => obtain ⟨p', t, hp, rfl, rfl, rfl⟩ := h; exact actor_holder hp
  case pump => obtain ⟨p', t, hp, rfl, rfl, rfl⟩ := h; exact pump_holder hp
  case supervisor => obtain ⟨p', t, hp, rfl, rfl, rfl⟩ := h; exact supervisor_holder hp
  case shutdown =>
    obtain ⟨p', t, hp, rfl, rfl, rfl⟩ := h
    rw [shutdown_desk hp]
    exact .still (n := 0)
  case user =>
    obtain ⟨p', t, hp, rfl, rfl, rfl⟩ := h
    rw [user_desk hp]
    exact .still (n := 0)

end Simulation

end MsgTrans.Server
