import Mathlib.Algebra.Order.Group.Multiset
import MsgTrans.Base.Machine

/-!
# Pools of threads

General support for programs described by their program points. A thread is its local state; a
step takes one thread from its point to the next, changes the shared state and may spawn further
threads. What a thread is asked and what it is answered from outside is part of the step's choice.
An invariant speaks about the shared state and the multiset of local states, and is checked for one
thread at a time beside any others. Nothing here names an application.
-/

namespace MsgTrans.Base

/-- Threads with local states in `ℓ` over a shared state in `σ`, with choices in `κ` that are not
their own. -/
structure Threads (σ ℓ κ : Type) where
  init : σ
  /-- A call from outside may start here. -/
  entry : ℓ → Bool
  /-- One step: the next point, the shared state after it and the threads spawned; nothing where
  the thread has to wait or has ended. -/
  act : ℓ → κ → σ → Option (ℓ × σ × List ℓ)

/-- A shared state and the threads that were ever started or spawned. -/
structure Pool (σ ℓ : Type) where
  shared : σ
  threads : List ℓ

/-- What happens next: a call from outside, or one step of a thread. -/
inductive Turn (ℓ κ : Type) where
  | start (x : ℓ)
  | run (t : Nat) (choice : κ)

namespace Threads

variable {σ ℓ κ : Type} (sys : Threads σ ℓ κ)

/-- The pool as a machine. -/
def machine : Machine (Pool σ ℓ) (Turn ℓ κ) where
  start := ⟨sys.init, []⟩
  step := fun p turn ↦
    match turn with
    | .start x => if sys.entry x then some { p with threads := p.threads ++ [x] } else none
    | .run t choice =>
      match p.threads[t]? with
      | some x => (sys.act x choice p.shared).map fun r ↦
          ⟨r.2.1, p.threads.set t r.1 ++ r.2.2⟩
      | none => none

/-- Steps are taken only from points and in shared states that `may` allows. -/
def restricted (may : σ → ℓ → Prop) (p : Pool σ ℓ) : Turn ℓ κ → Prop
  | .start _ => True
  | .run t _ => ∀ x ∈ p.threads[t]?, may p.shared x

instance (may : σ → ℓ → Prop) [∀ s x, Decidable (may s x)] (p : Pool σ ℓ) (turn : Turn ℓ κ) :
    Decidable (restricted may p turn) :=
  match turn with
  | .start _ => inferInstanceAs (Decidable True)
  | .run t _ => inferInstanceAs (Decidable (∀ x ∈ p.threads[t]?, may p.shared x))

/-- Steps are taken only where `may` allows it of the shared state, all threads, the point and the
choice. -/
def permitted (may : σ → Multiset ℓ → ℓ → κ → Prop) (p : Pool σ ℓ) : Turn ℓ κ → Prop
  | .start _ => True
  | .run t choice => ∀ x ∈ p.threads[t]?, may p.shared p.threads x choice

instance (may : σ → Multiset ℓ → ℓ → κ → Prop) [∀ s M x c, Decidable (may s M x c)]
    (p : Pool σ ℓ) (turn : Turn ℓ κ) : Decidable (permitted may p turn) :=
  match turn with
  | .start _ => inferInstanceAs (Decidable True)
  | .run t choice =>
    inferInstanceAs (Decidable (∀ x ∈ p.threads[t]?, may p.shared p.threads x choice))

/-- One thread runs by itself, for these choices. -/
def alone : ℓ → List κ → σ → Option (ℓ × σ)
  | x, [], s => some (x, s)
  | x, choice :: choices, s =>
    match sys.act x choice s with
    | some (y, s', []) => alone y choices s'
    | _ => none

variable {sys} {may : σ → ℓ → Prop}

/-- Replacing one element of a list, seen as multisets. -/
theorem coe_set {xs : List ℓ} {t : Nat} {x : ℓ} (h : xs[t]? = some x) :
    ∃ F : Multiset ℓ, (xs : Multiset ℓ) = x ::ₘ F ∧
      ∀ y, ((xs.set t y : List ℓ) : Multiset ℓ) = y ::ₘ F := by
  induction xs generalizing t with
  | nil => simp at h
  | cons z zs ih =>
    cases t with
    | zero =>
      obtain rfl : z = x := by simpa using h
      exact ⟨zs, rfl, fun y ↦ rfl⟩
    | succ t =>
      obtain ⟨F, hzs, hset⟩ := ih (t := t) (by simpa using h)
      refine ⟨z ::ₘ F, ?_, fun y ↦ ?_⟩
      · rw [← Multiset.cons_coe, hzs, Multiset.cons_swap]
      · rw [List.set_cons_succ, ← Multiset.cons_coe, hset, Multiset.cons_swap]

/-- A step of the pool starts a call or takes one thread to its next point. -/
theorem step_cases {p p' : Pool σ ℓ} {turn : Turn ℓ κ} (h : sys.machine.step p turn = some p') :
    (∃ x, turn = .start x ∧ sys.entry x = true ∧
      p' = { p with threads := p.threads ++ [x] }) ∨
    (∃ t choice x y s new, turn = .run t choice ∧ p.threads[t]? = some x ∧
      sys.act x choice p.shared = some (y, s, new) ∧ p' = ⟨s, p.threads.set t y ++ new⟩) := by
  cases turn with
  | start x =>
    simp only [machine] at h
    split at h
    next hx => exact .inl ⟨x, rfl, hx, (Option.some.inj h).symm⟩
    next => cases h
  | run t choice =>
    simp only [machine] at h
    split at h
    next x hx =>
      obtain ⟨⟨y, s, new⟩, hact, hp⟩ := Option.map_eq_some_iff.mp h
      exact .inr ⟨t, choice, x, y, s, new, rfl, hx, hact, hp.symm⟩
    next => cases h

/-- After its step a thread is at its next point, and what it spawned comes last. -/
theorem run_cases {p p' : Pool σ ℓ} {t : Nat} {choice : κ}
    (h : sys.machine.step p (.run t choice) = some p') :
    ∃ x y s new, p.threads[t]? = some x ∧ sys.act x choice p.shared = some (y, s, new) ∧
      p'.shared = s ∧ p'.threads[t]? = some y ∧ p'.threads.drop p.threads.length = new := by
  obtain ⟨x, hturn, -, -⟩ | ⟨t', choice', x, y, s, new, hturn, hx, hact, rfl⟩ := step_cases h
  · cases hturn
  cases hturn
  refine ⟨x, y, s, new, hx, hact, rfl, ?_, ?_⟩
  · have ht : t < p.threads.length := (List.getElem?_eq_some_iff.mp hx).1
    rw [List.getElem?_append_left (by rwa [List.length_set]), List.getElem?_set_self ht]
  · rw [← List.length_set, List.drop_left]

/-- A thread that runs by itself leaves all others where they are. -/
theorem run_alone {ts : List ℓ} {x y : ℓ} {choices : List κ} {s s' : σ}
    (h : alone sys x choices s = some (y, s')) :
    sys.machine.run ⟨s, ts ++ [x]⟩ (choices.map (.run ts.length)) = some ⟨s', ts ++ [y]⟩ := by
  induction choices generalizing x s with
  | nil =>
    cases h
    rfl
  | cons choice choices ih =>
    rw [alone] at h
    split at h
    next z s'' hact =>
      have hstep : sys.machine.step ⟨s, ts ++ [x]⟩ (.run ts.length choice) =
          some ⟨s'', ts ++ [z]⟩ := by
        simp [machine, hact]
      rw [List.map_cons, Machine.run, hstep, Option.bind_some]
      exact ih h
    next => cases h

/-- What survives every call and every permitted step of any one thread beside any others survives
a step of the pool. -/
theorem permitted_step (may : σ → Multiset ℓ → ℓ → κ → Prop) {J : σ → Multiset ℓ → Prop}
    {p p' : Pool σ ℓ} {turn : Turn ℓ κ}
    (hstart : ∀ s M x, J s M → sys.entry x = true → J s (x ::ₘ M))
    (hact : ∀ s M x choice y s' new, J s (x ::ₘ M) → may s (x ::ₘ M) x choice →
      sys.act x choice s = some (y, s', new) → J s' (y ::ₘ (M + (new : Multiset ℓ))))
    (hp : J p.shared p.threads) (hmay : permitted may p turn)
    (hstep : sys.machine.step p turn = some p') : J p'.shared p'.threads := by
  obtain ⟨x, rfl, hx, rfl⟩ | ⟨t, choice, x, y, s, new, rfl, hx, hrun, rfl⟩ := step_cases hstep
  · show J p.shared ((p.threads ++ [x] : List ℓ) : Multiset ℓ)
    rw [← Multiset.coe_add, Multiset.coe_singleton, Multiset.add_comm, Multiset.singleton_add]
    exact hstart _ _ x hp hx
  · obtain ⟨F, hthreads, hset⟩ := coe_set hx
    have hp' : J p.shared (x ::ₘ F) := by rw [← hthreads]; exact hp
    have hmay' : may p.shared (x ::ₘ F) x choice := by rw [← hthreads]; exact hmay x hx
    show J s ((p.threads.set t y ++ new : List ℓ) : Multiset ℓ)
    rw [← Multiset.coe_add, hset, Multiset.cons_add]
    exact hact p.shared F x choice y s new hp' hmay' hrun

/-- A restriction is a permission that looks neither at the choice nor at the other threads. -/
theorem restricted_permitted {p : Pool σ ℓ} {turn : Turn ℓ κ} (h : restricted may p turn) :
    permitted (fun s _ x _ ↦ may s x) p turn := by
  cases turn with
  | start x => trivial
  | run t choice => exact h

/-- What survives every call and every step from a permitted point survives a step of the pool. -/
theorem invariant_step (may : σ → ℓ → Prop) {J : σ → Multiset ℓ → Prop} {p p' : Pool σ ℓ}
    {turn : Turn ℓ κ}
    (hstart : ∀ s M x, J s M → sys.entry x = true → J s (x ::ₘ M))
    (hact : ∀ s M x choice y s' new, J s (x ::ₘ M) → may s x →
      sys.act x choice s = some (y, s', new) → J s' (y ::ₘ (M + (new : Multiset ℓ))))
    (hp : J p.shared p.threads) (hmay : restricted may p turn)
    (hstep : sys.machine.step p turn = some p') : J p'.shared p'.threads :=
  permitted_step (fun s _ x _ ↦ may s x) hstart hact hp (restricted_permitted hmay) hstep

/-- What holds of the shared state and the threads at the start, whenever a call is made and after
every permitted step of any one thread beside any others, holds of every pool reached. -/
theorem invariant (may : σ → ℓ → Prop) {J : σ → Multiset ℓ → Prop} {p : Pool σ ℓ}
    (hinit : J sys.init 0)
    (hstart : ∀ s M x, J s M → sys.entry x = true → J s (x ::ₘ M))
    (hact : ∀ s M x choice y s' new, J s (x ::ₘ M) → may s x →
      sys.act x choice s = some (y, s', new) → J s' (y ::ₘ (M + (new : Multiset ℓ))))
    (h : sys.machine.ReachableBy (restricted may) p) : J p.shared p.threads :=
  h.invariant (P := fun p ↦ J p.shared p.threads) hinit fun _ _ _ hp hmay hstep ↦
    invariant_step may hstart hact hp hmay hstep

/-- A thread that has ended stays. -/
theorem ended_mem {p p' : Pool σ ℓ} {turns : List (Turn ℓ κ)} {x : ℓ} (hx : x ∈ p.threads)
    (hend : ∀ choice s, sys.act x choice s = none) (hrun : sys.machine.run p turns = some p') :
    x ∈ p'.threads := by
  refine Machine.run_invariant (P := fun p ↦ x ∈ p.threads) (fun p turn p' hx hstep ↦ ?_) hx hrun
  obtain ⟨y, rfl, -, rfl⟩ | ⟨t, choice, y, z, s, new, rfl, hy, hact, rfl⟩ := step_cases hstep
  · exact List.mem_append_left _ hx
  · obtain ⟨i, hi⟩ := List.mem_iff_getElem?.mp hx
    have hne : t ≠ i := by
      rintro rfl
      rw [hi] at hy
      cases hy
      rw [hend] at hact
      cases hact
    exact List.mem_append_left _ (List.mem_of_getElem? ((List.getElem?_set_ne hne).trans hi))

section Abstraction

variable {τ ρ : Type} (view : σ → τ) (role : ℓ → ρ)
  (moves : τ → ρ → τ → ρ → Multiset ρ → Prop) {I : τ → Multiset ρ → Prop}

/-- An abstraction of a pool: what is seen of the shared state, and which role a local state
plays. If every permitted step is a move of the roles, what the moves keep of the seen state and of
all roles together, a step of the pool keeps. -/
theorem abstracted_step (may : σ → ℓ → Prop) {p p' : Pool σ ℓ} {turn : Turn ℓ κ}
    (hstart : ∀ t R x, I t R → sys.entry x = true → I t (role x ::ₘ R))
    (hsim : ∀ s x choice y s' new, may s x → sys.act x choice s = some (y, s', new) →
      moves (view s) (role x) (view s') (role y) (new.map role : List ρ))
    (hmoves : ∀ t t' r r' N R, I t (r ::ₘ R) → moves t r t' r' N → I t' (r' ::ₘ (R + N)))
    (hp : I (view p.shared) ((p.threads : Multiset ℓ).map role)) (hmay : restricted may p turn)
    (hstep : sys.machine.step p turn = some p') :
    I (view p'.shared) ((p'.threads : Multiset ℓ).map role) := by
  refine invariant_step (J := fun s M ↦ I (view s) (M.map role)) may ?_ ?_ hp hmay hstep
  · intro s M x hI hx
    rw [Multiset.map_cons]
    exact hstart _ _ x hI hx
  · intro s M x choice y s' new hI hmay hact
    rw [Multiset.map_cons] at hI
    rw [Multiset.map_cons, Multiset.map_add, Multiset.map_coe]
    exact hmoves _ _ _ _ _ _ hI (hsim s x choice y s' new hmay hact)

/-- If every permitted step is a move of the roles, and the moves keep an invariant of the seen
state and of all roles together, the invariant holds of every pool reached. -/
theorem abstracted (may : σ → ℓ → Prop) {p : Pool σ ℓ} (hinit : I (view sys.init) 0)
    (hstart : ∀ t R x, I t R → sys.entry x = true → I t (role x ::ₘ R))
    (hsim : ∀ s x choice y s' new, may s x → sys.act x choice s = some (y, s', new) →
      moves (view s) (role x) (view s') (role y) (new.map role : List ρ))
    (hmoves : ∀ t t' r r' N R, I t (r ::ₘ R) → moves t r t' r' N → I t' (r' ::ₘ (R + N)))
    (h : sys.machine.ReachableBy (restricted may) p) :
    I (view p.shared) ((p.threads : Multiset ℓ).map role) :=
  h.invariant (P := fun p ↦ I (view p.shared) ((p.threads : Multiset ℓ).map role)) hinit
    fun _ _ _ hp hmay hstep ↦ abstracted_step view role moves may hstart hsim hmoves hp hmay hstep

/-- What the moves keep holds of every pool that a run reaches from one where it holds. -/
theorem abstracted_run {p p' : Pool σ ℓ} {turns : List (Turn ℓ κ)}
    (hstart : ∀ t R x, I t R → sys.entry x = true → I t (role x ::ₘ R))
    (hsim : ∀ s x choice y s' new, sys.act x choice s = some (y, s', new) →
      moves (view s) (role x) (view s') (role y) (new.map role : List ρ))
    (hmoves : ∀ t t' r r' N R, I t (r ::ₘ R) → moves t r t' r' N → I t' (r' ::ₘ (R + N)))
    (hp : I (view p.shared) ((p.threads : Multiset ℓ).map role))
    (hrun : sys.machine.run p turns = some p') :
    I (view p'.shared) ((p'.threads : Multiset ℓ).map role) :=
  Machine.run_invariant (P := fun p ↦ I (view p.shared) ((p.threads : Multiset ℓ).map role))
    (fun _ turn _ hp hstep ↦ abstracted_step view role moves (fun _ _ ↦ True) hstart
      (fun s x choice y s' new _ ↦ hsim s x choice y s' new) hmoves hp
      (match turn with | .start _ => trivial | .run _ _ => fun _ _ ↦ trivial) hstep) hp hrun

end Abstraction

/-- Restrictions that hold everywhere are none. -/
theorem reachable_restricted {p : Pool σ ℓ} (h : sys.machine.Reachable p)
    (hmay : ∀ s x, may s x) : sys.machine.ReachableBy (restricted may) p := by
  refine Machine.ReachableBy.mono h fun p turn _ ↦ ?_
  cases turn with
  | start x => trivial
  | run t choice => exact fun x _ ↦ hmay p.shared x

end Threads

end MsgTrans.Base
