import Mathlib.Data.List.AList
import Mathlib.Data.Multiset.Basic
import Mathlib.Algebra.Order.Group.Multiset

/-!
# Values of a finite map

General support for maps whose contents are counted: the values of an association list as a
multiset, and what an insertion or a removal does to it. Nothing here names an application.
-/

namespace MsgTrans.Base

variable {α β : Type}

/-- A finite map from `α` to `β`. -/
abbrev Table (α β : Type) := AList fun _ : α ↦ β

namespace Table

/-- The values of a map, with multiplicity. -/
def values (m : Table α β) : Multiset β := m.entries.map Sigma.snd

@[simp] theorem values_empty : values (∅ : Table α β) = 0 := rfl

/-- There are as many values as keys. -/
theorem card_values (m : Table α β) : Multiset.card (values m) = m.entries.length := by
  simp [values]

variable [DecidableEq α]

/-- A value of the map is what some key maps to. -/
theorem mem_values {m : Table α β} {b : β} : b ∈ values m ↔ ∃ a, m.lookup a = some b := by
  rw [values, Multiset.mem_coe, List.mem_map]
  constructor
  · rintro ⟨⟨a, b'⟩, h, rfl⟩
    exact ⟨a, AList.mem_lookup_iff.mpr h⟩
  · rintro ⟨a, h⟩
    exact ⟨⟨a, b⟩, AList.mem_lookup_iff.mp h, rfl⟩

/-- Inserting at a free key adds one value. -/
theorem values_insert {m : Table α β} {a : α} (b : β) (h : m.lookup a = none) :
    values (m.insert a b) = b ::ₘ values m := by
  rw [values, AList.entries_insert_of_notMem (AList.lookup_eq_none.mp h)]
  rfl

/-- Removing a key that is present takes away exactly its value. -/
theorem values_erase {m : Table α β} {a : α} {b : β} (h : m.lookup a = some b) :
    values m = b ::ₘ values (m.erase a) := by
  have hkey : a ∈ m.entries.keys := AList.lookup_isSome.mp (by rw [h]; rfl)
  obtain ⟨b', l₁, l₂, -, hsplit, herase⟩ := List.exists_of_kerase hkey
  have hb : b' = b := by
    have hmem : (⟨a, b'⟩ : Sigma fun _ : α ↦ β) ∈ m.entries := by simp [hsplit]
    have hlook : m.lookup a = some b' := AList.mem_lookup_iff.mpr hmem
    exact Option.some.inj (hlook.symm.trans h)
  have hentries : (m.erase a).entries = l₁ ++ l₂ := herase
  rw [values, values, hsplit, hentries, hb, List.map_append, List.map_append, List.map_cons,
    Multiset.cons_coe]
  apply Multiset.coe_eq_coe.mpr
  exact List.perm_middle

/-- Removing a key that is absent changes nothing. -/
theorem erase_of_lookup_eq_none {m : Table α β} {a : α} (h : m.lookup a = none) :
    m.erase a = m := by
  apply AList.ext
  exact List.kerase_of_notMem_keys (AList.lookup_eq_none.mp h)

end Table

end MsgTrans.Base
