import Mathlib.Data.List.Basic
import Mathlib.Order.Basic

/-!
# Bracketed histories

General support for histories of items that open and close one after the other. A history is
bracketed when it can go on until every item, in increasing order, has opened and at once closed.
Nothing here names an application.
-/

namespace MsgTrans.Base

/-- An item opens, or it closes. -/
inductive Mark (ι : Type) where
  | opened (i : ι)
  | closed (i : ι)
  deriving DecidableEq, Repr

variable {ι : Type}

/-- One item after the other opens and closes. -/
def frames (items : List ι) : List (Mark ι) := items.flatMap fun i ↦ [.opened i, .closed i]

/-- A beginning of a history in which one item after the other, in increasing order, opens and
closes: openings and closings alternate, and an item that opened closes before the next one
opens. -/
def Bracketed [LT ι] (marks : List (Mark ι)) : Prop :=
  ∃ items : List ι, items.Pairwise (· < ·) ∧ marks <+: frames items

/-- These items have opened and closed, and then this one, if any, has opened. -/
structure Framing [LT ι] (marks : List (Mark ι)) (items : List ι) (last : Option ι) : Prop where
  eq : marks = frames items ++ last.toList.map .opened
  sorted : (items ++ last.toList).Pairwise (· < ·)

theorem frames_append (items items' : List ι) :
    frames (items ++ items') = frames items ++ frames items' := List.flatMap_append ..

/-- A beginning of a bracketed history is bracketed. -/
theorem Bracketed.initial [LT ι] {marks marks' : List (Mark ι)} (h : Bracketed marks)
    (hinit : marks' <+: marks) : Bracketed marks' := by
  obtain ⟨items, hsorted, hitems⟩ := h
  exact ⟨items, hsorted, hinit.trans hitems⟩

/-- The last opening of a bracketed history is that of the item after those that closed. -/
theorem frames_initial {items items' : List ι} {i : ι} {mark : Mark ι}
    (h : frames items ++ [.opened i, mark] <+: frames items') : mark = .closed i := by
  induction items generalizing items' with
  | nil =>
    cases items' with
    | nil => simp [frames] at h
    | cons j items' =>
      have h' : [Mark.opened i, mark] <+: Mark.opened j :: Mark.closed j :: frames items' := h
      rw [List.cons_prefix_cons, List.cons_prefix_cons] at h'
      obtain ⟨hi, hmark, -⟩ := h'
      rw [hmark, Mark.opened.inj hi]
  | cons k items ih =>
    cases items' with
    | nil => simp [frames] at h
    | cons j items' =>
      have h' : Mark.opened k :: Mark.closed k :: (frames items ++ [.opened i, mark]) <+:
          Mark.opened j :: Mark.closed j :: frames items' := h
      rw [List.cons_prefix_cons, List.cons_prefix_cons] at h'
      exact ih h'.2.2

namespace Framing

variable [LT ι] {marks : List (Mark ι)} {items : List ι} {last : Option ι} {i : ι}

theorem nil : Framing ([] : List (Mark ι)) [] none := ⟨rfl, List.Pairwise.nil⟩

/-- Such a history is bracketed. -/
theorem bracketed (h : Framing marks items last) : Bracketed marks := by
  refine ⟨items ++ last.toList, h.sorted, ?_⟩
  rw [h.eq, frames_append, List.prefix_append_right_inj]
  cases last with
  | none => exact List.prefix_rfl
  | some i => exact ⟨[.closed i], rfl⟩

/-- A later item opens when all others have closed. -/
theorem opening (h : Framing marks items none) (hlater : ∀ j ∈ items, j < i) :
    Framing (marks ++ [.opened i]) items (some i) where
  eq := by
    rw [h.eq]
    simp
  sorted := by
    have hsorted := h.sorted
    rw [Option.toList_none, List.append_nil] at hsorted
    rw [Option.toList_some, List.pairwise_append]
    refine ⟨hsorted, List.pairwise_singleton _ _, fun j hj k hk ↦ ?_⟩
    rw [List.mem_singleton.mp hk]
    exact hlater j hj

/-- The item that is open closes. -/
theorem closing (h : Framing marks items (some i)) :
    Framing (marks ++ [.closed i]) (items ++ [i]) none where
  eq := by
    rw [h.eq, frames_append]
    simp [frames]
  sorted := by
    rw [Option.toList_none, List.append_nil]
    exact h.sorted

/-- No item may open while one is open. -/
theorem not_bracketed (h : Framing marks items (some i)) (j : ι) :
    ¬ Bracketed (marks ++ [.opened j]) := by
  rintro ⟨items', -, hitems⟩
  rw [h.eq, Option.toList_some, List.map_singleton, List.append_assoc] at hitems
  cases frames_initial hitems

end Framing

end MsgTrans.Base
