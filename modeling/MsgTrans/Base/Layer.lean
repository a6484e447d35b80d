import MsgTrans.Base.Ledger

/-!
# Programs of one layer inside another

General support for systems built on a component: the component's actions are some of the
system's actions, its programs run as parts of the system's programs, and its tokens are some of
the system's tokens. A program that follows the component's rules follows the system's, whatever
else its caller holds. Nothing here names an application.
-/

namespace MsgTrans.Base

variable {A B : Type} {R : A → Type} {S : B → Type} {T U α β : Type}

/-- A component's program as a program of a larger system: `i` names the component's actions
there and `f` reads their answers. -/
def Prog.lift (i : A → B) (f : ∀ a, S (i a) → R a) : Prog A R α → Prog B S α
  | .ret v => .ret v
  | .act a k => .act (i a) fun r ↦ lift i f (k (f a r))

/-- A component's program performs as many actions of a kind in the larger system. -/
theorem Prog.AtMost.lift {i : A → B} {f : ∀ a, S (i a) → R a} {g : B → Bool} {n : Nat}
    {p : Prog A R α} (h : p.AtMost (fun a ↦ g (i a)) n) : (p.lift i f).AtMost g n := by
  induction p generalizing n with
  | ret v => trivial
  | act a k ih =>
    unfold Prog.AtMost at h
    unfold Prog.lift Prog.AtMost
    split at h
    next ha =>
      rw [if_pos ha]
      exact ⟨h.1, fun r ↦ ih _ (h.2 _)⟩
    next ha =>
      rw [if_neg ha]
      exact fun r ↦ ih _ (h _)

/-- How a component's rules sit inside a system's rules: `j` names its tokens there. -/
structure Embeds (R₁ : Rules A R T) (R₂ : Rules B S U) (i : A → B) (f : ∀ a, S (i a) → R a)
    (j : T → U) : Prop where
  await : ∀ a, ¬ R₂.await (i a)
  moves : ∀ t a r e e', R₁.moves t a (f a r) e e' → R₂.moves t (i a) r (e.map j) (e'.map j)
  refuted : ∀ t a r d F, R₁.refuted t a (f a r) d → R₂.refuted t (i a) r (d.map j + F)

/-- A component's program, followed by the rest of a system's program. -/
theorem Follows.lift_bind {R₁ : Rules A R T} {R₂ : Rules B S U} {i : A → B}
    {f : ∀ a, S (i a) → R a} {j : T → U} (hR : Embeds R₁ R₂ i f j) {t : Nat} {ok₁ : T → Prop}
    {ok₂ : U → Prop} (hok : ∀ x, ok₁ x → ok₂ (j x)) {Q₁ : α → Multiset T → Prop}
    {Q₂ : β → Multiset U → Prop} {F : Multiset U} {p : Prog A R α} {k : α → Prog B S β}
    {d : Multiset T} (h : Follows R₁ t ok₁ Q₁ p d)
    (hk : ∀ v d', Q₁ v d' → Follows R₂ t ok₂ Q₂ (k v) (d'.map j + F)) :
    Follows R₂ t ok₂ Q₂ (p.lift i f >>= k) (d.map j + F) := by
  induction p generalizing d with
  | ret v => exact hk v d h
  | act a q ih =>
    refine ⟨fun hw ↦ absurd hw (hR.await a), fun r ↦ ?_⟩
    obtain hdead | ⟨e, e', G, rfl, hm, hok', hrest⟩ := h.2 (f a r)
    · exact .inl (hR.refuted t a r d F hdead)
    · refine .inr ⟨e.map j, e'.map j, G.map j + F, ?_, hR.moves t a r e e' hm, ?_, ?_⟩
      · rw [Multiset.map_add, add_assoc]
      · intro x hx
        obtain ⟨y, hy, rfl⟩ := Multiset.mem_map.mp hx
        exact hok y (hok' y hy)
      · have h' := ih (f a r) hrest
        rwa [Multiset.map_add, add_assoc] at h'

/-- The component's part of a multiset of tokens that were named there. -/
theorem part_map {f : U → Option T} {j : T → U} (hj : ∀ x, f (j x) = some x) (D : Multiset T) :
    part f (D.map j) = D := by
  induction D using Multiset.induction_on with
  | empty => simp
  | cons x D ih => rw [Multiset.map_cons, part_cons, ih, hj x, Option.elim_some,
      Multiset.singleton_add]

end MsgTrans.Base
