import Mathlib.Data.List.Basic

/-!
# Interleaved programs over atomic actions

General support for code whose only shared effects are single indivisible operations. A
program is a tree of atomic actions with a continuation for every answer; a system runs any
number of programs over one shared state, one action at a time, in any order. An action may
be refused in a state (the caller waits) and may depend on a number chosen by the scheduler,
which stands for every source of nondeterminism outside the code. Nothing here names an
application.
-/

namespace MsgTrans.Base

/-- A sequential program over atomic actions `Act`, each answered by a value of `Resp a`. -/
inductive Prog (Act : Type) (Resp : Act → Type) (α : Type) where
  | ret (v : α)
  | act (a : Act) (k : Resp a → Prog Act Resp α)

namespace Prog

variable {Act : Type} {Resp : Act → Type} {α β : Type}

/-- Run the first program, then the one its result selects. -/
def bind : Prog Act Resp α → (α → Prog Act Resp β) → Prog Act Resp β
  | .ret v, f => f v
  | .act a k, f => .act a fun r ↦ bind (k r) f

instance : Monad (Prog Act Resp) where
  pure := .ret
  bind := bind

/-- The program that performs one action and returns its answer. -/
def perform (a : Act) : Prog Act Resp (Resp a) := .act a .ret

@[simp] theorem bind_eq (p : Prog Act Resp α) (f : α → Prog Act Resp β) :
    p.bind f = (p >>= f) := rfl

@[simp] theorem pure_eq (v : α) : (pure v : Prog Act Resp α) = .ret v := rfl

@[simp] theorem ret_bind (v : α) (f : α → Prog Act Resp β) : (.ret v >>= f) = f v := rfl

@[simp] theorem act_bind (a : Act) (k : Resp a → Prog Act Resp α) (f : α → Prog Act Resp β) :
    (.act a k >>= f) = .act a fun r ↦ k r >>= f := rfl

@[simp] theorem perform_bind (a : Act) (f : Resp a → Prog Act Resp β) :
    (perform a >>= f) = .act a f := rfl

private theorem bind_assoc' {γ : Type} (p : Prog Act Resp α) (f : α → Prog Act Resp β)
    (g : β → Prog Act Resp γ) : (p >>= f >>= g) = (p >>= fun v ↦ f v >>= g) := by
  induction p with
  | ret v => rfl
  | act a k ih =>
    simp only [act_bind]
    congr 1
    funext r
    exact ih r

private theorem bind_ret' (p : Prog Act Resp α) : (p >>= .ret) = p := by
  induction p with
  | ret v => rfl
  | act a k ih =>
    rw [act_bind]
    congr 1
    funext r
    exact ih r

instance : LawfulMonad (Prog Act Resp) :=
  LawfulMonad.mk' _ (fun p ↦ bind_ret' p) (fun _ _ ↦ rfl) bind_assoc'

/-- Along every path the program performs at most `n` actions of this kind. -/
def AtMost (f : Act → Bool) : Prog Act Resp α → Nat → Prop
  | .ret _, _ => True
  | .act a k, n => if f a then 0 < n ∧ ∀ r, (k r).AtMost f (n - 1) else ∀ r, (k r).AtMost f n

section AtMost

variable {f : Act → Bool} {n m : Nat}

theorem atMost_act_iff {a : Act} {k : Resp a → Prog Act Resp α} : (act a k).AtMost f n ↔
    if f a then 0 < n ∧ ∀ r, (k r).AtMost f (n - 1) else ∀ r, (k r).AtMost f n := Iff.rfl

theorem AtMost.mono {p : Prog Act Resp α} (h : p.AtMost f n) (hle : n ≤ m) : p.AtMost f m := by
  induction p generalizing n m with
  | ret v => trivial
  | act a k ih =>
    rw [atMost_act_iff] at h ⊢
    split at h
    next ha =>
      rw [if_pos ha]
      exact ⟨Nat.lt_of_lt_of_le h.1 hle, fun r ↦ ih r (h.2 r) (Nat.sub_le_sub_right hle 1)⟩
    next ha =>
      rw [if_neg ha]
      exact fun r ↦ ih r (h r) hle

/-- An action of another kind. -/
theorem atMost_act {a : Act} {k : Resp a → Prog Act Resp α} (ha : f a = false)
    (h : ∀ r, (k r).AtMost f n) : (act a k).AtMost f n := by
  rw [atMost_act_iff, ha]
  exact h

/-- The bounds of two programs add up. -/
theorem AtMost.bind {p : Prog Act Resp α} {k : α → Prog Act Resp β} (hp : p.AtMost f n)
    (hk : ∀ v, (k v).AtMost f m) : (p >>= k).AtMost f (n + m) := by
  induction p generalizing n with
  | ret v => exact (hk v).mono (Nat.le_add_left m n)
  | act a q ih =>
    rw [act_bind]
    rw [atMost_act_iff] at hp ⊢
    split at hp
    next ha =>
      have hn : n + m - 1 = n - 1 + m := by have := hp.1; omega
      rw [if_pos ha, hn]
      exact ⟨Nat.lt_of_lt_of_le hp.1 (Nat.le_add_right n m), fun r ↦ ih r (hp.2 r)⟩
    next ha =>
      rw [if_neg ha]
      exact fun r ↦ ih r (hp r)

/-- A program without such actions, before another. -/
theorem AtMost.before {p : Prog Act Resp α} {k : α → Prog Act Resp β} (hp : p.AtMost f 0)
    (hk : ∀ v, (k v).AtMost f n) : (p >>= k).AtMost f n := by
  have h := hp.bind hk
  rwa [Nat.zero_add] at h

/-- A program before another without such actions. -/
theorem AtMost.after {p : Prog Act Resp α} {k : α → Prog Act Resp β} (hp : p.AtMost f n)
    (hk : ∀ v, (k v).AtMost f 0) : (p >>= k).AtMost f n := hp.bind hk

end AtMost

end Prog

/-- What the shared operations do and which program each call runs. -/
structure System (Act : Type) (Resp : Act → Type) (σ Op Val : Type) where
  /-- One action of the given caller; `none` means that it has to wait. -/
  exec : Nat → (a : Act) → Nat → σ → Option (Resp a × σ)
  /-- The program a call runs. -/
  body : Op → Prog Act Resp Val

/-- A call in progress: what was called and what is left to run. -/
structure Call (Act : Type) (Resp : Act → Type) (Op Val : Type) where
  op : Op
  prog : Prog Act Resp Val

/-- A system's state: the shared state and every call ever made, by its number. -/
structure Config (Act : Type) (Resp : Act → Type) (σ Op Val : Type) where
  shared : σ
  calls : List (Call Act Resp Op Val)

/-- What the scheduler does next: a new call, or one action of an existing one. -/
inductive Label (Op : Type) where
  | start (o : Op)
  | run (t : Nat) (choice : Nat)
  deriving DecidableEq, Repr

namespace Call

variable {Act : Type} {Resp : Act → Type} {Op Val : Type}

/-- The value of a call that has returned. -/
def result? (c : Call Act Resp Op Val) : Option Val :=
  match c.prog with
  | .ret v => some v
  | .act _ _ => none

/-- A call has returned. -/
def Returned (c : Call Act Resp Op Val) : Prop := c.result?.isSome = true

theorem prog_of_result? {c : Call Act Resp Op Val} {v : Val} (h : c.result? = some v) :
    c.prog = .ret v := by
  unfold result? at h
  split at h
  next v' he => rw [he, Option.some.inj h]
  next => cases h

theorem Returned.prog_eq {c : Call Act Resp Op Val} (h : c.Returned) : ∃ v, c.prog = .ret v := by
  obtain ⟨v, hv⟩ := Option.isSome_iff_exists.mp h
  exact ⟨v, prog_of_result? hv⟩

end Call

/-- The action call `t` performs next. -/
def Config.next? {Act : Type} {Resp : Act → Type} {σ Op Val : Type}
    (c : Config Act Resp σ Op Val) (t : Nat) : Option Act :=
  match c.calls[t]? with
  | some ⟨_, .act a _⟩ => some a
  | _ => none

namespace System

variable {Act : Type} {Resp : Act → Type} {σ Op Val : Type}

/-- One scheduled step; `none` when the label names no call or one that cannot move. -/
def step (sys : System Act Resp σ Op Val) (c : Config Act Resp σ Op Val) :
    Label Op → Option (Config Act Resp σ Op Val)
  | .start o => some { c with calls := c.calls ++ [⟨o, sys.body o⟩] }
  | .run t choice =>
    match c.calls[t]? with
    | some ⟨o, .act a k⟩ =>
      (sys.exec t a choice c.shared).map fun rs ↦ ⟨rs.2, c.calls.set t ⟨o, k rs.1⟩⟩
    | _ => none

/-- What the environment of a system keeps to: when a call may be made, and in which shared
state an action may be performed. -/
structure Env (Act : Type) (Resp : Act → Type) (σ Op Val : Type) where
  mayStart : Config Act Resp σ Op Val → Op → Prop
  mayAct : Act → σ → Prop

/-- The environment allows this step. -/
def Env.Allows (env : Env Act Resp σ Op Val) (c : Config Act Resp σ Op Val) : Label Op → Prop
  | .start o => env.mayStart c o
  | .run t _ => ∀ a ∈ c.next? t, env.mayAct a c.shared

instance Env.decidableAllows (env : Env Act Resp σ Op Val) (c : Config Act Resp σ Op Val)
    (l : Label Op) [∀ o, Decidable (env.mayStart c o)] [∀ a, Decidable (env.mayAct a c.shared)] :
    Decidable (env.Allows c l) :=
  match l with
  | .start o => inferInstanceAs (Decidable (env.mayStart c o))
  | .run t _ => inferInstanceAs (Decidable (∀ a ∈ c.next? t, env.mayAct a c.shared))

/-- Run a whole schedule, as long as every step of it is allowed. -/
def runAll (sys : System Act Resp σ Op Val) (env : Env Act Resp σ Op Val)
    [∀ c l, Decidable (env.Allows c l)] :
    Config Act Resp σ Op Val → List (Label Op) → Option (Config Act Resp σ Op Val)
  | c, [] => some c
  | c, l :: ls =>
    if env.Allows c l then (sys.step c l).bind fun c' ↦ sys.runAll env c' ls else none

/-- `c'` is reached from `c` by steps the environment allows. -/
inductive Reaches (sys : System Act Resp σ Op Val) (env : Env Act Resp σ Op Val)
    (c : Config Act Resp σ Op Val) : Config Act Resp σ Op Val → Prop where
  | refl : Reaches sys env c c
  | tail {c' c'' : Config Act Resp σ Op Val} {l : Label Op} : Reaches sys env c c' →
      env.Allows c' l → sys.step c' l = some c'' → Reaches sys env c c''

variable {sys : System Act Resp σ Op Val} {env : Env Act Resp σ Op Val}
  {c c' c'' : Config Act Resp σ Op Val}

theorem Reaches.trans (h₁ : sys.Reaches env c c') (h₂ : sys.Reaches env c' c'') :
    sys.Reaches env c c'' := by
  induction h₂ with
  | refl => exact h₁
  | tail _ ha hs ih => exact .tail ih ha hs

/-- A step starts a call or performs the next action of one. -/
theorem step_cases {l : Label Op} (h : sys.step c l = some c') :
    (∃ o, l = .start o ∧ c' = { c with calls := c.calls ++ [⟨o, sys.body o⟩] }) ∨
    (∃ t choice o a k r s, l = .run t choice ∧ c.calls[t]? = some ⟨o, .act a k⟩ ∧
      sys.exec t a choice c.shared = some (r, s) ∧ c' = ⟨s, c.calls.set t ⟨o, k r⟩⟩) := by
  cases l with
  | start o =>
    left
    exact ⟨o, rfl, (Option.some.inj h).symm⟩
  | run t choice =>
    right
    simp only [step] at h
    split at h
    next o a k hc =>
      obtain ⟨⟨r, s⟩, he, hc'⟩ := Option.map_eq_some_iff.mp h
      exact ⟨t, choice, o, a, k, r, s, rfl, hc, he, hc'.symm⟩
    next => cases h

/-- A property that holds at the start and survives every allowed step holds of every state
reached. -/
theorem Reaches.invariant {P : Config Act Resp σ Op Val → Prop} (h : sys.Reaches env c c')
    (hstep : ∀ d l d', P d → env.Allows d l → sys.step d l = some d' → P d') (hc : P c) :
    P c' := by
  induction h with
  | refl => exact hc
  | tail _ ha hs ih => exact hstep _ _ _ ih ha hs

/-- A schedule that runs to its end reaches its last state. -/
theorem Reaches.of_runAll [∀ c l, Decidable (env.Allows c l)] {ls : List (Label Op)}
    (h : sys.runAll env c ls = some c') : sys.Reaches env c c' := by
  induction ls generalizing c with
  | nil =>
    rw [← Option.some.inj h]
    exact .refl
  | cons l ls ih =>
    rw [runAll] at h
    split at h
    next hl =>
      obtain ⟨d, hd, hrest⟩ := Option.bind_eq_some_iff.mp h
      exact (Reaches.tail .refl hl hd).trans (ih hrest)
    next => cases h

end System

end MsgTrans.Base
