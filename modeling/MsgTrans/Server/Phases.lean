import MsgTrans.Server.Roles

/-!
# The server: its phases in order

The phase of `crates/msgtrans/src/transport/transport_server.rs:756–764,1062–1248,1478–1620` over
every run: it only rises, one startup runs at most and none after a shutdown took its place,
`Stopped` is stored only when no listener and no scanner is left, and nobody who waits for it sleeps
through it.
-/

namespace MsgTrans.Server

open MsgTrans.Base

variable {cfg : Config}

theorem Phase.value_lt {phase : Phase} (h : phase ≠ .stopped) : phase.value < 4 := by
  cases phase <;> first | decide | exact absurd rfl h

/-- The writes that a `serve` began. -/
def Life.served (l : Life) : Prop := l.writes.head? = some (.serve, .starting)

/-- The writes that a shutdown began. -/
def Life.refused (l : Life) : Prop := l.writes.head? = some (.shutdown, .shuttingDown)

/-- What a role knows. -/
def Role.Holds (l : Life) : Role → Prop
  | claimed | building | infra => l.served ∧ l.phase ≠ .stopped
  | storing => l.served ∧ l.phase ≠ .stopped ∧ l.infra = 0
  | notifying | done => l.served
  | neverServed => l.refused ∧ l.phase ≠ .stopped
  | notifyingNever => l.refused
  | exchanging current => current.value < 3
  | waiting seen | parked seen => seen ≤ l.version
  | other => True

theorem Life.served.write {l : Life} (h : l.served) (writer : Writer) (phase : Phase) :
    (l.write writer phase).served := by
  rw [Life.served] at h ⊢
  rw [Life.write, List.head?_append, h]
  rfl

theorem Life.refused.write {l : Life} (h : l.refused) (writer : Writer) (phase : Phase) :
    (l.write writer phase).refused := by
  rw [Life.refused] at h ⊢
  rw [Life.write, List.head?_append, h]
  rfl

/-- What a role knows survives a write, unless it rules the write out. -/
theorem Role.Holds.write {l : Life} {r : Role} (h : r.Holds l) (writer : Writer) (phase : Phase)
    (hphase : phase = .stopped → r.pending = false ∧ r.isInfra = false) :
    r.Holds (l.write writer phase) := by
  cases r with
  | claimed | building => exact ⟨h.1.write _ _, fun hp ↦ nomatch (hphase hp).1⟩
  | infra => exact ⟨h.1.write _ _, fun hp ↦ nomatch (hphase hp).2⟩
  | storing => exact ⟨h.1.write _ _, fun hp ↦ (nomatch (hphase hp).1), h.2.2⟩
  | neverServed => exact ⟨h.1.write _ _, fun hp ↦ nomatch (hphase hp).1⟩
  | notifying | done => exact Life.served.write h _ _
  | notifyingNever => exact Life.refused.write h _ _
  | exchanging current | waiting seen | parked seen | other => exact h

/-- The invariant of the phase and the roles. -/
structure LifeInv (l : Life) (R : Multiset Role) : Prop where
  holds : ∀ r ∈ R, r.Holds l
  infra : R.countP (·.isInfra) = l.infra
  owners : R.countP (·.owner) ≤ 1
  idle : l.phase = .idle ↔ l.writes = []
  ordered : (l.writes.map (·.2.value)).Pairwise (· < ·)
  below : ∀ w ∈ l.writes, w.2.value ≤ l.phase.value
  woken : l.phase = .stopped → 0 < R.countP (·.notifier) ∨ ∀ seen, .parked seen ∈ R → seen < l.version

namespace LifeInv

variable {l : Life} {r : Role} {R : Multiset Role}

theorem mem_owner (h : LifeInv l (r ::ₘ R)) (hr : r.owner = true) : ∀ r' ∈ R, r'.owner = false := by
  have hcount := h.owners
  rw [Multiset.countP_cons, if_pos hr] at hcount
  have hzero : R.countP (·.owner) = 0 := by omega
  intro r' hr'
  simpa using (Multiset.countP_eq_zero.mp hzero) r' hr'

/-- A role that begins nothing new takes the place of another. -/
theorem replace {r' : Role} (h : LifeInv l (r ::ₘ R)) (hholds : r'.Holds l)
    (hinfra : r'.isInfra = r.isInfra) (howner : r'.owner = true → r.owner = true)
    (hnotifier : (r.notifier = true → r'.notifier = true) ∨ ∀ seen, .parked seen ∈ R → seen < l.version)
    (hparked : ∀ seen, r' = .parked seen → l.phase ≠ .stopped) : LifeInv l (r' ::ₘ R) where
  holds x hx := by
    obtain rfl | hx := Multiset.mem_cons.mp hx
    · exact hholds
    · exact h.holds x (Multiset.mem_cons_of_mem hx)
  infra := by
    have hcount := h.infra
    rw [Multiset.countP_cons] at hcount ⊢
    rw [hinfra]
    exact hcount
  owners := by
    have hcount := h.owners
    rw [Multiset.countP_cons] at hcount ⊢
    split
    next hr => rwa [if_pos (howner hr)] at hcount
    next => exact le_trans (by omega) hcount
  idle := h.idle
  ordered := h.ordered
  below := h.below
  woken hstopped := by
    obtain hcount | hseen := h.woken hstopped
    · obtain hnotifier | hseen := hnotifier
      · left
        rw [Multiset.countP_cons] at hcount ⊢
        split at hcount
        next hr => rw [if_pos (hnotifier hr)]; omega
        next => omega
      · right
        intro seen hmem
        obtain hr | hmem := Multiset.mem_cons.mp hmem
        · exact absurd hstopped (hparked seen hr.symm)
        · exact hseen seen hmem
    · right
      intro seen hmem
      obtain hr | hmem := Multiset.mem_cons.mp hmem
      · exact absurd hstopped (hparked seen hr.symm)
      · exact hseen seen (Multiset.mem_cons_of_mem hmem)

theorem cons_other (h : LifeInv l R) : LifeInv l (.other ::ₘ R) where
  holds x hx := by
    obtain rfl | hx := Multiset.mem_cons.mp hx
    · trivial
    · exact h.holds x hx
  infra := by simpa +decide [Multiset.countP_cons] using h.infra
  owners := by simpa +decide [Multiset.countP_cons] using h.owners
  idle := h.idle
  ordered := h.ordered
  below := h.below
  woken hstopped := by simpa +decide [Multiset.countP_cons] using h.woken hstopped

theorem add_others (h : LifeInv l R) (n : Nat) : LifeInv l (R + .replicate n .other) := by
  induction n with
  | zero => simpa using h
  | succ n ih =>
    rw [Multiset.replicate_succ, Multiset.add_cons]
    exact ih.cons_other

/-- Setting the watch wakes all who sleep. -/
theorem notify (h : LifeInv l R) : LifeInv l.notify R where
  holds x hx := by
    have hx := h.holds x hx
    cases x with
    | waiting seen => exact Nat.le_succ_of_le hx
    | parked seen => exact Nat.le_succ_of_le hx
    | _ => exact hx
  infra := h.infra
  owners := h.owners
  idle := h.idle
  ordered := h.ordered
  below := h.below
  woken _ := .inr fun seen hseen ↦ Nat.lt_succ_of_le (h.holds _ hseen)

/-- A listener or the scanner is spawned. -/
theorem listen (h : LifeInv l (.building ::ₘ R)) :
    LifeInv { l with infra := l.infra + 1 } (.building ::ₘ .infra ::ₘ R) where
  holds x hx := by
    have hbuilding : Role.building.Holds l := h.holds _ (Multiset.mem_cons_self _ _)
    obtain rfl | hx := Multiset.mem_cons.mp hx
    · exact hbuilding
    obtain rfl | hx := Multiset.mem_cons.mp hx
    · exact hbuilding
    have howner := h.mem_owner rfl x hx
    have hx := h.holds x (Multiset.mem_cons_of_mem hx)
    cases x with
    | storing => cases howner
    | _ => exact hx
  infra := by simpa +decide [Multiset.countP_cons] using h.infra
  owners := by simpa +decide [Multiset.countP_cons] using h.owners
  idle := h.idle
  ordered := h.ordered
  below := h.below
  woken hstopped := absurd hstopped (h.holds _ (Multiset.mem_cons_self _ _)).2

/-- A listener or the scanner leaves its tracker. -/
theorem leave (h : LifeInv l (.infra ::ₘ R)) :
    LifeInv { l with infra := l.infra - 1 } (.other ::ₘ R) where
  holds x hx := by
    obtain rfl | hx := Multiset.mem_cons.mp hx
    · trivial
    have hx := h.holds x (Multiset.mem_cons_of_mem hx)
    cases x with
    | storing => exact ⟨hx.1, hx.2.1, by rw [hx.2.2]⟩
    | _ => exact hx
  infra := by
    have hcount := h.infra
    simp +decide only [Multiset.countP_cons, if_true, if_false] at hcount ⊢
    omega
  owners := by simpa +decide [Multiset.countP_cons] using h.owners
  idle := h.idle
  ordered := h.ordered
  below := h.below
  woken hstopped := absurd hstopped (h.holds _ (Multiset.mem_cons_self _ _)).2

/-- The phase is written, upwards. -/
theorem write {r' : Role} {writer : Writer} {phase : Phase} (h : LifeInv l (r ::ₘ R))
    (hvalue : l.phase.value < phase.value) (hholds : r'.Holds (l.write writer phase))
    (hinfra : r'.isInfra = r.isInfra) (howner : r'.owner = true → ∀ x ∈ R, x.owner = false)
    (hstopped : phase = .stopped →
      r'.notifier = true ∧ ∀ x ∈ R, x.pending = false ∧ x.isInfra = false) :
    LifeInv (l.write writer phase) (r' ::ₘ R) where
  holds x hx := by
    obtain rfl | hx := Multiset.mem_cons.mp hx
    · exact hholds
    · exact (h.holds x (Multiset.mem_cons_of_mem hx)).write _ _ fun hp ↦ (hstopped hp).2 x hx
  infra := by
    have hcount := h.infra
    rw [Multiset.countP_cons] at hcount ⊢
    rw [hinfra]
    exact hcount
  owners := by
    by_cases hr : r'.owner = true
    · rw [Multiset.countP_cons, if_pos hr,
        Multiset.countP_eq_zero.mpr fun x hx ↦ by simp [howner hr x hx]]
    · rw [Multiset.countP_cons, if_neg hr]
      exact le_trans (Multiset.countP_le_of_le _ (Multiset.le_cons_self R r)) h.owners
  idle := by
    constructor
    · intro hidle
      rw [show phase = .idle from hidle] at hvalue
      exact absurd hvalue (Nat.not_lt_zero _)
    · intro hwrites
      simp [Life.write] at hwrites
  ordered := by
    rw [Life.write, List.map_append, List.pairwise_append]
    refine ⟨h.ordered, List.pairwise_singleton _ _, ?_⟩
    intro a ha b hb
    obtain ⟨w, hw, rfl⟩ := List.mem_map.mp ha
    obtain rfl : b = phase.value := by simpa using hb
    exact lt_of_le_of_lt (h.below w hw) hvalue
  below w hw := by
    obtain hw | hw := List.mem_append.mp hw
    · exact le_trans (h.below w hw) (le_of_lt hvalue)
    · obtain rfl : w = (writer, phase) := by simpa using hw
      exact le_rfl
  woken hp := by
    rw [Multiset.countP_cons, if_pos (hstopped hp).1]
    exact .inl (Nat.succ_pos _)

/-- Before a `serve` or a shutdown wrote the phase there is neither an owner nor a listener. -/
theorem unowned (h : LifeInv l R) (hidle : l.phase = .idle) :
    ∀ x ∈ R, x.owner = false ∧ x.isInfra = false := by
  intro x hx
  have hfirst : l.writes.head? = none := by rw [h.idle.mp hidle]; rfl
  have hx := h.holds x hx
  cases x <;> simp_all [Role.Holds, Life.served, Life.refused, Role.owner, Role.isInfra]

theorem mem_pending (h : ∀ x ∈ R, x.owner = false) : ∀ x ∈ R, x.pending = false := by
  intro x hx
  have howner := h x hx
  cases x <;> first | rfl | cases howner

/-- Without a listener no role is one. -/
theorem mem_infra (h : LifeInv l R) (hzero : l.infra = 0) : ∀ x ∈ R, x.isInfra = false := by
  have hcount : R.countP (·.isInfra) = 0 := h.infra.trans hzero
  intro x hx
  simpa using (Multiset.countP_eq_zero.mp hcount) x hx

/-- After a shutdown took the place of the startup there is no listener. -/
theorem mem_refused (h : LifeInv l R) (hrefused : l.refused) : ∀ x ∈ R, x.isInfra = false := by
  intro x hx
  have hx := h.holds x hx
  cases x with
  | infra =>
    have hserved : l.served := hx.1
    rw [Life.served, show l.writes.head? = _ from hrefused] at hserved
    cases hserved
  | _ => rfl

/-- Whoever sleeps read the watch before it is set now. -/
theorem seen (h : LifeInv l (r ::ₘ R)) {n : Nat} (hn : .parked n ∈ R) : n < l.notify.version :=
  Nat.lt_succ_of_le (h.holds (.parked n) (Multiset.mem_cons_of_mem hn))

/-- Every move keeps the invariant. -/
theorem moves {l' : Life} {r' : Role} {N : Multiset Role} (h : LifeInv l (r ::ₘ R))
    (hmove : PhaseMoves l r l' r' N) : LifeInv l' (r' ::ₘ (R + N)) := by
  have hr : r.Holds l := h.holds _ (Multiset.mem_cons_self _ _)
  cases hmove with
  | @still _ n =>
    rw [← Multiset.cons_add]
    exact h.add_others n
  | notify =>
    rw [add_zero]
    exact h.notify
  | claim hidle =>
    rw [add_zero]
    have hfree := h.unowned hidle
    have hwrites := h.idle.mp hidle
    refine h.write (by rw [hidle]; decide) ⟨?_, nofun⟩ rfl
      (fun _ x hx ↦ (hfree x (Multiset.mem_cons_of_mem hx)).1) nofun
    simp [Life.served, Life.write, hwrites]
  | spawn =>
    rw [Multiset.add_comm, Multiset.singleton_add]
    have hbuilding : LifeInv l (.building ::ₘ R) := h.replace hr rfl id (.inl id) nofun
    exact hbuilding.cons_other
  | listen =>
    rw [Multiset.add_comm, Multiset.singleton_add]
    exact h.listen
  | running hstarting =>
    rw [add_zero]
    exact h.write (by rw [hstarting]; decide) ⟨hr.1.write _ _, nofun⟩ rfl
      (fun _ ↦ h.mem_owner rfl) nofun
  | drained hinfra =>
    rw [add_zero]
    exact h.replace ⟨hr.1, hr.2, hinfra⟩ rfl id (.inl id) nofun
  | store =>
    rw [add_zero]
    have howner := h.mem_owner rfl
    refine h.write (Phase.value_lt hr.2.1) (hr.1.write _ _) rfl (fun _ ↦ howner)
      fun _ ↦ ⟨rfl, fun x hx ↦ ⟨mem_pending howner x hx, ?_⟩⟩
    exact h.mem_infra hr.2.2 x (Multiset.mem_cons_of_mem hx)
  | notified =>
    rw [add_zero]
    exact h.notify.replace hr rfl id (.inr fun _ ↦ h.seen) nofun
  | leave =>
    rw [add_zero]
    exact h.leave
  | load hcurrent =>
    rw [add_zero]
    exact h.replace hcurrent rfl id (.inl nofun) nofun
  | exchanged hphase =>
    subst hphase
    rw [add_zero]
    have hvalue : l.phase.value < 3 := hr
    by_cases hidle : l.phase = .idle
    · have hfree := h.unowned hidle
      rw [if_pos hidle]
      refine h.write hvalue ⟨?_, nofun⟩ rfl
        (fun _ x hx ↦ (hfree x (Multiset.mem_cons_of_mem hx)).1) nofun
      simp [Life.refused, Life.write, h.idle.mp hidle]
    · rw [if_neg hidle]
      exact h.write hvalue trivial rfl nofun nofun
  | lost =>
    rw [add_zero]
    exact h.replace trivial rfl nofun (.inl nofun) nofun
  | storeNever =>
    rw [add_zero]
    have howner := h.mem_owner rfl
    refine h.write (Phase.value_lt hr.2) (hr.1.write _ _) rfl (fun _ ↦ howner)
      fun _ ↦ ⟨rfl, fun x hx ↦ ⟨mem_pending howner x hx, ?_⟩⟩
    exact h.mem_refused hr.1 x (Multiset.mem_cons_of_mem hx)
  | notifiedNever =>
    rw [add_zero]
    exact h.notify.replace trivial rfl nofun (.inr fun _ ↦ h.seen) nofun
  | abandon =>
    rw [add_zero]
    exact h.replace trivial rfl nofun (.inl nofun) nofun
  | watch =>
    rw [add_zero]
    exact h.replace le_rfl rfl nofun (.inl nofun) nofun
  | park hphase =>
    rw [add_zero]
    exact h.replace hr rfl nofun (.inl nofun) fun _ _ ↦ hphase
  | wake =>
    rw [add_zero]
    exact h.replace le_rfl rfl nofun (.inl nofun) nofun
  | leaveCheck | leavePark =>
    rw [add_zero]
    exact h.replace trivial rfl nofun (.inl nofun) nofun

end LifeInv

namespace PhaseMoves

variable {l l' : Life} {r r' : Role} {N R : Multiset Role}

/-- A move leaves the phase or raises it. -/
theorem value_le (hmove : PhaseMoves l r l' r' N) (h : LifeInv l (r ::ₘ R)) :
    l.phase.value ≤ l'.phase.value := by
  have hr : r.Holds l := h.holds _ (Multiset.mem_cons_self _ _)
  cases hmove with
  | claim hphase =>
    rw [hphase]
    exact Nat.zero_le _
  | running hphase =>
    rw [hphase]
    exact Nat.le_succ 1
  | exchanged hphase =>
    subst hphase
    exact le_of_lt hr
  | store => exact le_of_lt (Phase.value_lt hr.2.1)
  | storeNever => exact le_of_lt (Phase.value_lt hr.2)
  | _ => exact le_rfl

theorem refused (hmove : PhaseMoves l r l' r' N) (h : l.refused) : l'.refused := by
  cases hmove <;> first | exact h | exact Life.refused.write h _ _

/-- A move that stores `Stopped` is one of a startup that found the tracker drained, or of a
shutdown that moved the phase out of `Idle`. -/
theorem stores (hmove : PhaseMoves l r l' r' N) (h : LifeInv l (r ::ₘ R))
    (hstopped : l'.phase = .stopped) : l.phase = .stopped ∨ r = .storing ∨ l.refused := by
  have hr : r.Holds l := h.holds _ (Multiset.mem_cons_self _ _)
  cases hmove with
  | claim | running | exchanged => cases hstopped
  | store => exact .inr (.inl rfl)
  | storeNever => exact .inr (.inr hr.1)
  | _ => exact .inl hstopped

end PhaseMoves

/-- No listener and no scanner is left, and none can start. -/
def Life.Over (l : Life) (R : Multiset Role) : Prop :=
  l.phase = .stopped ∨ .storing ∈ R ∨ l.refused

theorem Life.Over.moves {l l' : Life} {r r' : Role} {N R : Multiset Role}
    (hover : l.Over (r ::ₘ R)) (h : LifeInv l (r ::ₘ R)) (hmove : PhaseMoves l r l' r' N) :
    l'.Over (r' ::ₘ (R + N)) := by
  obtain hstopped | hmem | hrefused := hover
  · left
    have hvalue := hmove.value_le h
    rw [hstopped] at hvalue
    by_contra hne
    exact absurd (Phase.value_lt hne) (Nat.not_lt.mpr hvalue)
  · obtain rfl | hmem := Multiset.mem_cons.mp hmem
    · cases hmove with
      | still | notify => exact .inr (.inl (Multiset.mem_cons_self _ _))
      | store => exact .inl rfl
    · exact .inr (.inl (Multiset.mem_cons_of_mem (Multiset.mem_add.mpr (.inl hmem))))
  · exact .inr (.inr (hmove.refused hrefused))

theorem LifeInv.over {l : Life} {R : Multiset Role} (h : LifeInv l R) (hover : l.Over R) :
    ∀ r ∈ R, r.isInfra = false := by
  obtain hstopped | hmem | hrefused := hover
  · intro r hr
    have hr := h.holds r hr
    cases r with
    | infra => exact absurd hstopped hr.2
    | _ => rfl
  · exact h.mem_infra (h.holds _ hmem).2.2
  · exact h.mem_refused hrefused

/-- The roles of all tasks and calls. -/
def roles (p : Pool State Task) : Multiset Role := (p.threads : Multiset Task).map Task.role

theorem lifeInv_init : LifeInv (State.new cfg).life 0 where
  holds := by simp
  infra := rfl
  owners := by simp
  idle := by simp [State.life, State.new]
  ordered := List.Pairwise.nil
  below := by simp [State.life, State.new]
  woken := nofun

/-- The invariant holds of every reachable state. -/
theorem lifeInv {cfg : Config} {p : Pool State Task} (h : (server cfg).machine.Reachable p) :
    LifeInv p.shared.life (roles p) := by
  refine Threads.abstracted State.life Task.role PhaseMoves (fun _ _ ↦ True) lifeInv_init ?_ (fun _ _ _ _ _ _ _ hact ↦ step_moves hact)
    (fun _ _ _ _ _ _ hI hmove ↦ hI.moves hmove)
    (Threads.reachable_restricted h fun _ _ ↦ trivial)
  intro l R x hI hx
  rw [call_role hx]
  exact hI.cons_other

/-- What every run from a reachable state keeps of its roles. -/
theorem run_roles {cfg : Config} {p p' : Pool State Task} {turns : List (Turn Task Choice)}
    {K : Life → Multiset Role → Prop} (h : (server cfg).machine.Reachable p)
    (hcall : ∀ l R, K l R → K l (.other ::ₘ R))
    (hmoves : ∀ l l' r r' N R, LifeInv l (r ::ₘ R) → K l (r ::ₘ R) → PhaseMoves l r l' r' N →
      K l' (r' ::ₘ (R + N)))
    (hp : K p.shared.life (roles p)) (hrun : (server cfg).machine.run p turns = some p') :
    K p'.shared.life (roles p') := by
  refine (Threads.abstracted_run State.life Task.role PhaseMoves
    (I := fun l R ↦ LifeInv l R ∧ K l R) ?_ (fun _ _ _ _ _ _ hact ↦ step_moves hact)
    (fun _ _ _ _ _ _ hI hmove ↦ ⟨hI.1.moves hmove, hmoves _ _ _ _ _ _ hI.1 hI.2 hmove⟩)
    ⟨lifeInv h, hp⟩ hrun).2
  intro l R x hI hx
  rw [call_role hx]
  exact ⟨hI.1.cons_other, hcall l R hI.2⟩

/-- The owned startup task, at any of its points. -/
def Task.isStartup : Task → Bool
  | .startup _ => true
  | _ => false

/-- The version of the watch that a sleeping caller has seen. -/
def Task.waits : Task → Option Nat
  | .serve (.changed seen) | .shutdown (.changed _ seen) => some seen
  | _ => none

/-- A listener or the scanner that has not ended. -/
def Task.isInfra : Task → Bool
  | .infra .ended => false
  | .infra _ => true
  | _ => false

/-- The phases of a reachable server. -/
structure PhasesInOrder (cfg : Config) (p : Pool State Task) : Prop where
  /-- Every write raised the phase. -/
  ordered : (p.shared.phaseWrites.map (·.2.value)).Pairwise (· < ·)
  /-- No run lowers it. -/
  forward : ∀ turns p', (server cfg).machine.run p turns = some p' →
    p.shared.phase.value ≤ p'.shared.phase.value
  /-- There is one startup at most, ended ones counted. -/
  once : p.threads.countP Task.isStartup ≤ 1
  /-- Once a shutdown has moved the phase out of `Idle` no run has one. -/
  refused : p.shared.phaseWrites.head? = some (.shutdown, .shuttingDown) →
    ∀ turns p', (server cfg).machine.run p turns = some p' → ∀ x ∈ p'.threads, x.isStartup = false
  /-- `Stopped` is there, or is stored by the next step, only when no listener and no scanner runs
  and no run has one later. -/
  stopped : (p.shared.phase = .stopped ∨
      ∃ turn p', (server cfg).machine.step p turn = some p' ∧ p'.shared.phase = .stopped) →
    ∀ turns p', (server cfg).machine.run p turns = some p' → ∀ x ∈ p'.threads, x.isInfra = false
  /-- Whoever sleeps while the phase is `Stopped` can wake, or the watch is still to be set by a
  task that nothing holds up. -/
  woken : p.shared.phase = .stopped → ∀ x ∈ p.threads, ∀ seen ∈ x.waits,
    (seen < p.shared.phaseVersion ∧ (step cfg x .go p.shared).isSome) ∨
      ∃ y ∈ p.threads, ∀ choice, ∃ y', step cfg y choice p.shared =
        some (y', p.shared.notify .stopped, [])

section Reading

variable {x : Task} {p : Pool State Task}

theorem mem_roles (h : x ∈ p.threads) : x.role ∈ roles p :=
  Multiset.mem_map_of_mem _ (Multiset.mem_coe.mpr h)

theorem role_isInfra (x : Task) : x.role.isInfra = x.isInfra := by
  cases x with
  | serve q | startup q | infra q => cases q <;> rfl
  | shutdown q =>
    simp only [Task.role, Task.isInfra]
    fun_cases ShutdownPoint.role q <;> rfl
  | actor | pump | supervisor | user => rfl

theorem role_of_startup (h : x.isStartup = true) :
    x.role.owner = true ∧ ∀ l, x.role.Holds l → l.served := by
  cases x with
  | startup q =>
    cases q <;> first | exact ⟨rfl, fun _ hl ↦ hl⟩ | exact ⟨rfl, fun _ hl ↦ hl.1⟩
  | _ => cases h

theorem role_of_waits {seen : Nat} (h : seen ∈ x.waits) : x.role = .parked seen := by
  revert h
  fun_cases Task.waits x <;> rintro ⟨⟩ <;> rfl

/-- A caller that saw another version than the present one wakes. -/
theorem step_of_waits {seen : Nat} {s : State} (h : seen ∈ x.waits) (hne : s.phaseVersion ≠ seen) :
    (step cfg x .go s).isSome := by
  revert h
  fun_cases Task.waits x <;> rintro ⟨⟩ <;> simp [step, serveStep, shutdownStep, hne]

/-- Whoever stored `Stopped` sets the watch in its next step, which nothing holds up. -/
theorem step_of_notifier {s : State} (h : x.role.notifier = true) (choice : Choice) :
    ∃ y, step cfg x choice s = some (y, s.notify .stopped, []) := by
  cases x with
  | startup q => cases q <;> first | exact ⟨_, rfl⟩ | cases h
  | shutdown q =>
    revert h
    simp only [Task.role]
    fun_cases ShutdownPoint.role q <;> intro hrole <;> first | exact ⟨_, rfl⟩ | cases hrole
  | serve q | infra q => cases q <;> cases h
  | _ => cases h

end Reading

section Contract

variable {p : Pool State Task}

theorem life_forward (h : (server cfg).machine.Reachable p) {turns : List (Turn Task Choice)}
    {p' : Pool State Task} (hrun : (server cfg).machine.run p turns = some p') :
    p.shared.phase.value ≤ p'.shared.phase.value :=
  run_roles (K := fun l _ ↦ p.shared.phase.value ≤ l.phase.value) h (fun _ _ hK ↦ hK)
    (fun _ _ _ _ _ _ hI hK hmove ↦ le_trans hK (hmove.value_le hI)) le_rfl hrun

theorem startups_le_one (h : (server cfg).machine.Reachable p) :
    p.threads.countP Task.isStartup ≤ 1 := by
  have howners : (p.threads.map Task.role).countP (·.owner) ≤ 1 := by
    simpa [roles] using (lifeInv h).owners
  rw [List.countP_map] at howners
  refine le_trans (List.countP_mono_left fun x _ hx ↦ ?_) howners
  exact (role_of_startup hx).1

theorem no_startup_of_refused (h : (server cfg).machine.Reachable p)
    (hrefused : p.shared.life.refused) : ∀ x ∈ p.threads, x.isStartup = false := by
  intro x hx
  by_contra hstartup
  have hserved := (role_of_startup (Bool.not_eq_false _ ▸ hstartup)).2 _
    ((lifeInv h).holds _ (mem_roles hx))
  rw [Life.served, show p.shared.life.writes.head? = _ from hrefused] at hserved
  cases hserved

theorem no_infra_of_over (h : (server cfg).machine.Reachable p)
    (hover : p.shared.life.Over (roles p)) : ∀ x ∈ p.threads, x.isInfra = false := by
  intro x hx
  rw [← role_isInfra]
  exact (lifeInv h).over hover _ (mem_roles hx)

/-- The next step stores `Stopped` only when it is over already. -/
theorem over_of_step {p' : Pool State Task} {turn : Turn Task Choice}
    (h : (server cfg).machine.Reachable p) (hstep : (server cfg).machine.step p turn = some p')
    (hstopped : p'.shared.phase = .stopped) : p.shared.life.Over (roles p) := by
  obtain ⟨x, rfl, hx, rfl⟩ | ⟨t, choice, x, y, s, new, rfl, hx, hact, rfl⟩ := Threads.step_cases hstep
  · exact .inl hstopped
  · have hmem := mem_roles (List.mem_of_getElem? hx)
    obtain ⟨R, hR⟩ := Multiset.exists_cons_of_mem hmem
    have hI := lifeInv h
    rw [hR] at hI
    obtain hphase | hrole | hrefused := (step_moves hact).stores hI hstopped
    · exact .inl hphase
    · exact .inr (.inl (hrole ▸ hmem))
    · exact .inr (.inr hrefused)

/-- Every reachable server keeps its phases in order. -/
theorem phases_in_order {cfg : Config} {p : Pool State Task}
    (h : (server cfg).machine.Reachable p) : PhasesInOrder cfg p where
  ordered := (lifeInv h).ordered
  forward _ _ hrun := life_forward h hrun
  once := startups_le_one h
  refused hfirst _ _ hrun := by
    refine no_startup_of_refused (h.of_run hrun) ?_
    exact run_roles (K := fun l _ ↦ l.refused) h (fun _ _ hK ↦ hK)
      (fun _ _ _ _ _ _ _ hK hmove ↦ hmove.refused hK) hfirst hrun
  stopped hover _ _ hrun := by
    have hover : p.shared.life.Over (roles p) := by
      obtain hphase | ⟨turn, p', hstep, hphase⟩ := hover
      · exact .inl hphase
      · exact over_of_step h hstep hphase
    refine no_infra_of_over (h.of_run hrun) ?_
    refine run_roles (K := Life.Over) h (fun l R hK ↦ ?_)
      (fun _ _ _ _ _ _ hI hK hmove ↦ hK.moves hI hmove) hover hrun
    exact hK.imp_right (.imp_left fun hmem ↦ Multiset.mem_cons_of_mem hmem)
  woken hphase x hx seen hseen := by
    obtain hnotifier | hwoken := (lifeInv h).woken hphase
    · right
      obtain ⟨r, hr, hnotifier⟩ := Multiset.countP_pos.mp hnotifier
      obtain ⟨y, hy, rfl⟩ := Multiset.mem_map.mp hr
      exact ⟨y, Multiset.mem_coe.mp hy, step_of_notifier hnotifier⟩
    · left
      have hlt : seen < p.shared.phaseVersion := hwoken seen (role_of_waits hseen ▸ mem_roles hx)
      exact ⟨hlt, step_of_waits hseen (Nat.ne_of_gt hlt)⟩

/-- One protocol and no cap. -/
def oneProtocol : Config := ⟨none, 1, by simp, by simp⟩

/-- A server starts; a shutdown ends its listener and its scanner and sleeps while the startup task
stores `Stopped`. -/
def stoppingTurns : List (Turn Task Choice) :=
  List.flatten [[.start (.serve .gate)], List.replicate 3 (.run 0 .go),
    [.run 1 .go, .run 1 .succeeds], List.replicate 8 (.run 1 .go),
    [.start (.shutdown .lock)], List.replicate 13 (.run 4 .go),
    [.run 2 .cancelled, .run 2 .go, .run 2 .go, .run 2 .go, .run 3 .cancelled, .run 3 .go,
      .run 3 .go, .run 1 .go, .run 1 .go]]

/-- A state where the phase is `Stopped` and a caller still sleeps. -/
theorem phases_in_order_of_stopping :
    ∃ p, (server oneProtocol).machine.run (server oneProtocol).machine.start stoppingTurns =
      some p ∧ p.shared.phase = .stopped ∧ p.threads.getLast? = some (.shutdown (.changed 0 3)) ∧
      PhasesInOrder oneProtocol p := by
  have hrun : ((server oneProtocol).machine.run (server oneProtocol).machine.start
      stoppingTurns).map (fun p ↦ (p.shared.phase, p.threads.getLast?)) =
        some (.stopped, some (.shutdown (.changed 0 3))) := by decide +kernel
  obtain ⟨p, hp, hends⟩ := Option.map_eq_some_iff.mp hrun
  obtain ⟨hphase, hlast⟩ := Prod.mk.inj hends
  exact ⟨p, hp, hphase, hlast, phases_in_order (Machine.Reachable.of_run .start hp)⟩

end Contract

end MsgTrans.Server
