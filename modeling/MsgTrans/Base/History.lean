import Mathlib.Data.List.Nodup

/-!
# Histories

General support for append-only histories: what was already recorded before an event, and
events named by a value that occurs once. Nothing here names an application.
-/

namespace MsgTrans.Base

variable {ε β : Type} {good : List ε → ε → Prop} {h : List ε}

/-- Every event of the history is good with respect to what was recorded before it. -/
def Preceded (good : List ε → ε → Prop) (h : List ε) : Prop :=
  ∀ h₁ e h₂, h = h₁ ++ e :: h₂ → good h₁ e

theorem preceded_nil : Preceded good [] := by
  intro h₁ e h₂ heq
  simp at heq

/-- Recording one more event. -/
theorem Preceded.concat (hh : Preceded good h) {x : ε} (hx : good h x) :
    Preceded good (h ++ [x]) := by
  intro h₁ e h₂ heq
  obtain rfl | ⟨init, last, rfl⟩ := List.eq_nil_or_concat h₂
  · obtain ⟨rfl, hlast⟩ := List.append_inj' heq rfl
    obtain rfl : x = e := by simpa using hlast
    exact hx
  · rw [List.concat_eq_append, ← List.cons_append, ← List.append_assoc] at heq
    exact hh h₁ e init (List.append_inj' heq rfl).1

/-- Recording events that need nothing before them. -/
theorem Preceded.append (hh : Preceded good h) {es : List ε} (hes : ∀ e ∈ es, ∀ h, good h e) :
    Preceded good (h ++ es) := by
  induction es generalizing h with
  | nil => rwa [List.append_nil]
  | cons e es ih =>
    rw [← List.singleton_append, ← List.append_assoc]
    exact ih (hh.concat (hes e (by simp) h)) fun e' he' ↦ hes e' (by simp [he'])

/-- Of two recorded events that are named by the same value, which occurs once, both are the
same event. -/
theorem eq_of_nodup_filterMap {f : ε → Option β} (hh : (h.filterMap f).Nodup) {x y : ε} {b : β}
    (hx : x ∈ h) (hy : y ∈ h) (hfx : f x = some b) (hfy : f y = some b) : x = y := by
  induction h with
  | nil => cases hx
  | cons z h ih =>
    have htail : ((h.filterMap f).Nodup) := by
      cases hz : f z with
      | none => rwa [List.filterMap_cons_none hz] at hh
      | some c =>
        rw [List.filterMap_cons_some hz] at hh
        exact hh.of_cons
    -- An event of the tail named like the head would make the value occur twice.
    have hhead : ∀ w ∈ h, f z = some b → f w = some b → False := by
      intro w hw hfz hfw
      rw [List.filterMap_cons_some hfz] at hh
      exact (List.nodup_cons.mp hh).1 (List.mem_filterMap.mpr ⟨w, hw, hfw⟩)
    obtain rfl | hx' := List.mem_cons.mp hx <;> obtain rfl | hy' := List.mem_cons.mp hy
    · rfl
    · exact (hhead y hy' hfx hfy).elim
    · exact (hhead x hx' hfy hfx).elim
    · exact ih htail hx' hy'

end MsgTrans.Base
