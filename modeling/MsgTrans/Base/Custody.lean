import Mathlib.Data.List.Count

/-!
# Tokens in the hands of parties

General support for systems whose parties hold tokens and pass them on: all tokens in the hands of
some parties, and how often each is held after one party has changed or joined. Nothing here names
an application.
-/

namespace MsgTrans.Base

variable {α τ : Type} {parties : List α} {i : Nat} {p : α}

/-- A list with one entry replaced. -/
theorem getElem?_set_of_some (h : parties[i]? = some p) (q : α) (j : Nat) :
    (parties.set i q)[j]? = if j = i then some q else parties[j]? := by
  have hlt : i < parties.length := (List.getElem?_eq_some_iff.mp h).1
  rw [List.getElem?_set]
  by_cases hj : i = j
  · rw [if_pos hj, if_pos hlt, if_pos hj.symm]
  · rw [if_neg hj, if_neg (Ne.symm hj)]

/-- The tokens that the parties hold, party by party. -/
def inHands (hold : α → List τ) (parties : List α) : List τ := parties.flatMap hold

variable {hold : α → List τ} {x : τ}

theorem mem_inHands :
    x ∈ inHands hold parties ↔ ∃ (i : Nat) (p : α), parties[i]? = some p ∧ x ∈ hold p := by
  rw [inHands, List.mem_flatMap]
  constructor
  · rintro ⟨p, hp, hx⟩
    obtain ⟨i, hi⟩ := List.getElem?_of_mem hp
    exact ⟨i, p, hi, hx⟩
  · rintro ⟨i, p, hi, hx⟩
    exact ⟨p, List.mem_of_getElem? hi, hx⟩

theorem inHands_concat (p : α) :
    inHands hold (parties ++ [p]) = inHands hold parties ++ hold p := by
  rw [inHands, List.flatMap_append, List.flatMap_singleton]
  rfl

variable [DecidableEq τ]

/-- What changes when one party is replaced is what this party holds. -/
theorem count_inHands_set (hold : α → List τ) (h : parties[i]? = some p) (q : α) (x : τ) :
    (inHands hold (parties.set i q)).count x + (hold p).count x =
      (inHands hold parties).count x + (hold q).count x := by
  induction parties generalizing i with
  | nil => cases h
  | cons p' parties ih =>
    cases i with
    | zero =>
      cases h
      rw [List.set_cons_zero, inHands, inHands, List.flatMap_cons, List.flatMap_cons,
        List.count_append, List.count_append]
      omega
    | succ i =>
      have hrest := ih (i := i) h
      rw [inHands, inHands] at hrest
      rw [List.set_cons_succ, inHands, inHands, List.flatMap_cons, List.flatMap_cons,
        List.count_append, List.count_append]
      omega

end MsgTrans.Base
