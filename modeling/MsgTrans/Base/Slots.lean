import Mathlib.Data.List.Nodup
import Mathlib.Logic.Function.Basic

/-!
# Slots that are drained in turn

General support for wheels: numbered slots of items that are put into any of them and drained slot
by slot. An item that occurs once at most still does after other items were put, and a slot is
drained again within one round of turns. Nothing here names an application.
-/

namespace MsgTrans.Base

/-- A change of numbered slots: one is drained, or an item is put into one. -/
inductive Move (α : Type) where
  | drain (i : Nat)
  | put (i : Nat) (x : α)
  deriving DecidableEq, Repr

variable {α β : Type}

/-- No item occurs twice, in one slot or in two. -/
structure Once (w : Nat → List α) : Prop where
  nodup : ∀ i, (w i).Nodup
  apart : ∀ i j x, x ∈ w i → x ∈ w j → i = j

namespace Move

/-- The same change of other items. -/
def map (f : α → β) : Move α → Move β
  | drain i => drain i
  | put i x => put i (f x)

/-- What a change does. -/
def apply (w : Nat → List α) : Move α → Nat → List α
  | drain i => Function.update w i []
  | put i x => Function.update w i (w i ++ [x])

/-- What several changes do, one after the other. -/
def run (w : Nat → List α) (moves : List (Move α)) : Nat → List α := moves.foldl apply w

/-- The items that were put into some slot. -/
def items (moves : List (Move α)) : List α :=
  moves.filterMap fun
    | drain _ => none
    | put _ x => some x

variable {w : Nat → List α} {move : Move α} {moves moves' : List (Move α)} {x : α} {i : Nat}

@[simp] theorem run_nil (w : Nat → List α) : run w [] = w := rfl

@[simp] theorem run_cons (w : Nat → List α) (move : Move α) (moves : List (Move α)) :
    run w (move :: moves) = run (move.apply w) moves := rfl

@[simp] theorem items_nil : items ([] : List (Move α)) = [] := rfl

@[simp] theorem items_drain : items (drain i :: moves) = items moves := rfl

@[simp] theorem items_put : items (put i x :: moves) = x :: items moves := rfl

@[simp] theorem items_append : items (moves ++ moves') = items moves ++ items moves' :=
  List.filterMap_append

/-- The items of changes of other items. -/
theorem items_map (f : α → β) (moves : List (Move α)) :
    items (moves.map (Move.map f)) = (items moves).map f := by
  induction moves with
  | nil => rfl
  | cons move moves ih =>
    cases move with
    | drain i => exact ih
    | put i x => exact congrArg (f x :: ·) ih

/-- One change, seen through a function of the items. -/
theorem apply_map (f : α → β) (w : Nat → List α) (move : Move α) :
    (move.map f).apply (fun i ↦ (w i).map f) = fun i ↦ (move.apply w i).map f := by
  funext j
  cases move with
  | drain i =>
    simp only [map, apply]
    by_cases hj : j = i
    · rw [hj, Function.update_self, Function.update_self, List.map_nil]
    · rw [Function.update_of_ne hj, Function.update_of_ne hj]
  | put i x =>
    simp only [map, apply]
    by_cases hj : j = i
    · rw [hj, Function.update_self, Function.update_self, List.map_append, List.map_singleton]
    · rw [Function.update_of_ne hj, Function.update_of_ne hj]

/-- Changes, seen through a function of the items. -/
theorem run_map (f : α → β) (w : Nat → List α) (moves : List (Move α)) :
    run (fun i ↦ (w i).map f) (moves.map (Move.map f)) = fun i ↦ (run w moves i).map f := by
  induction moves generalizing w with
  | nil => rfl
  | cons move moves ih =>
    rw [List.map_cons, run_cons, run_cons, apply_map]
    exact ih _

/-- What is in a slot was there or was put. -/
theorem mem_apply (h : x ∈ move.apply w i) : x ∈ w i ∨ x ∈ items [move] := by
  cases move with
  | drain j =>
    by_cases hi : i = j
    · rw [apply, hi, Function.update_self] at h
      cases h
    · rw [apply, Function.update_of_ne hi] at h
      exact .inl h
  | put j y =>
    by_cases hi : i = j
    · rw [apply, hi, Function.update_self] at h
      exact (List.mem_append.mp h).imp (fun hx ↦ hi ▸ hx) id
    · rw [apply, Function.update_of_ne hi] at h
      exact .inl h

theorem mem_run (h : x ∈ run w moves i) : x ∈ w i ∨ x ∈ items moves := by
  induction moves generalizing w with
  | nil => exact .inl h
  | cons move moves ih =>
    rw [← List.singleton_append, items_append, List.mem_append]
    obtain hx | hx := ih h
    · exact (mem_apply hx).imp_right .inl
    · exact .inr (.inr hx)

end Move

namespace Once

variable {w : Nat → List α} {moves : List (Move α)} {x : α} {i : Nat}

theorem drain (hw : Once w) (i : Nat) : Once ((Move.drain i).apply w) := by
  have hmem : ∀ {j x}, x ∈ (Move.drain i).apply w j → x ∈ w j := fun hx ↦
    (Move.mem_apply hx).resolve_right List.not_mem_nil
  refine ⟨fun j ↦ ?_, fun j k x hj hk ↦ hw.apart j k x (hmem hj) (hmem hk)⟩
  by_cases hj : j = i
  · rw [Move.apply, hj, Function.update_self]
    exact List.nodup_nil
  · rw [Move.apply, Function.update_of_ne hj]
    exact hw.nodup j

/-- A drained item is in no slot. -/
theorem not_mem_drain (hw : Once w) (hx : x ∈ w i) (j : Nat) : x ∉ (Move.drain i).apply w j := by
  intro hj
  obtain rfl := hw.apart i j x hx ((Move.mem_apply hj).resolve_right List.not_mem_nil)
  rw [Move.apply, Function.update_self] at hj
  cases hj

/-- An item that is in no slot may be put into one. -/
theorem put (hw : Once w) (hx : ∀ j, x ∉ w j) (i : Nat) : Once ((Move.put i x).apply w) := by
  have hmem : ∀ {j y}, y ∈ (Move.put i x).apply w j → y ∈ w j ∨ y = x ∧ j = i := by
    intro j y hy
    by_cases hj : j = i
    · rw [Move.apply, hj, Function.update_self] at hy
      exact (List.mem_append.mp hy).imp (fun h ↦ hj ▸ h) fun h ↦ ⟨List.mem_singleton.mp h, hj⟩
    · rw [Move.apply, Function.update_of_ne hj] at hy
      exact .inl hy
  refine ⟨fun j ↦ ?_, fun j k y hj hk ↦ ?_⟩
  · by_cases hj : j = i
    · rw [Move.apply, hj, Function.update_self]
      refine List.nodup_append'.mpr ⟨hw.nodup i, List.nodup_singleton x, ?_⟩
      exact List.disjoint_singleton.mpr (hx i)
    · rw [Move.apply, Function.update_of_ne hj]
      exact hw.nodup j
  · obtain hold | ⟨hy, hi⟩ := hmem hj <;> obtain hold' | ⟨hy', hi'⟩ := hmem hk
    · exact hw.apart j k y hold hold'
    · exact absurd (hy' ▸ hold) (hx j)
    · exact absurd (hy ▸ hold') (hx k)
    · exact hi.trans hi'.symm

/-- Different items that are in no slot may be put into some. -/
theorem run (hw : Once w) (hnodup : (Move.items moves).Nodup)
    (hnew : ∀ x ∈ Move.items moves, ∀ i, x ∉ w i) : Once (Move.run w moves) := by
  induction moves generalizing w with
  | nil => exact hw
  | cons move moves ih =>
    cases move with
    | drain i =>
      refine ih (hw.drain i) hnodup fun x hx j hj ↦ ?_
      exact hnew x hx j ((Move.mem_apply hj).resolve_right List.not_mem_nil)
    | put i x =>
      obtain ⟨hx, hnodup⟩ := List.nodup_cons.mp hnodup
      refine ih (hw.put (hnew x List.mem_cons_self) i) hnodup fun y hy j hj ↦ ?_
      obtain hj | hj := Move.mem_apply hj
      · exact hnew y (List.mem_cons_of_mem x hy) j hj
      · exact hx (List.mem_singleton.mp hj ▸ hy)

/-- The items of the first slots are different. -/
theorem nodup_total (hw : Once w) (n : Nat) : ((List.range n).flatMap w).Nodup := by
  refine List.nodup_flatMap.mpr ⟨fun i _ ↦ hw.nodup i, ?_⟩
  refine List.nodup_range.imp fun {i j} hij x hi hj ↦ ?_
  exact hij (hw.apart i j x hi hj)

end Once

/-- A slot that had no turn in a while was drained less than one round ago. -/
theorem lt_add_of_no_turn {n i first last : Nat} (hi : i < n)
    (h : ∀ j, first < j → j ≤ last → j % n ≠ i) : last < first + n := by
  by_contra hlast
  have hlt : (first + 1) % n < n := Nat.mod_lt _ (Nat.zero_lt_of_lt hi)
  -- The first turn of the slot after `first`.
  have hturn : (first + 1 + (i + n - (first + 1) % n) % n) % n = i := by
    have hsplit := Nat.div_add_mod (first + 1) n
    generalize (first + 1) / n = q at hsplit
    generalize (first + 1) % n = r at hsplit hlt ⊢
    rw [← hsplit, Nat.add_assoc, Nat.mul_add_mod, Nat.add_mod_mod]
    have hsum : r + (i + n - r) = i + n := by omega
    rw [hsum, Nat.add_mod_right, Nat.mod_eq_of_lt hi]
  have hbound : (i + n - (first + 1) % n) % n < n := Nat.mod_lt _ (Nat.zero_lt_of_lt hi)
  exact h _ (by omega) (by omega) hturn

end MsgTrans.Base
