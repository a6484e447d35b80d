import MsgTrans.Base.Prog

/-!
# Watched programs

General support for properties of what single calls do. A watch keeps, for every call, a view of
the actions it has performed and the answers it got. The watched system carries these views beside
the shared state; no program reads them. A program conforms when, whatever possible answers it is
given, each of its actions is in order for the view it is performed under. Nothing here names an
application.
-/

namespace MsgTrans.Base

/-- What is seen of a call: nothing at first, then more with every answered action. -/
structure Watch (Act : Type) (Resp : Act → Type) (V : Type) where
  init : V
  see : V → (a : Act) → Resp a → V

namespace Watch

variable {Act : Type} {Resp : Act → Type} {V σ Op Val α β : Type} (w : Watch Act Resp V)

/-- The view of a call among the views of all calls. -/
def view (vs : List V) (t : Nat) : V := vs.getD t w.init

/-- Replace the view of one call. -/
def note (vs : List V) (t : Nat) (v : V) : List V :=
  (vs ++ List.replicate (t + 1 - vs.length) w.init).set t v

section Views

variable {w} {vs : List V} {t u : Nat} {v : V} {P : V → Prop}

@[simp] theorem view_note_self : w.view (w.note vs t v) t = v := by
  rw [view, note, List.getD_eq_getElem?_getD, List.getElem?_set_self (by simp; omega)]
  rfl

theorem view_note_ne (h : u ≠ t) : w.view (w.note vs t v) u = w.view vs u := by
  rw [view, note, view, List.getD_eq_getElem?_getD, List.getD_eq_getElem?_getD,
    List.getElem?_set_ne (Ne.symm h), List.getElem?_append]
  split
  next => rfl
  next hge =>
    rw [show vs[u]? = none from List.getElem?_eq_none (by omega), List.getElem?_replicate]
    split <;> rfl

/-- A view is one of the views, or nothing was seen of the call. -/
theorem view_mem_or (w : Watch Act Resp V) (vs : List V) (t : Nat) :
    w.view vs t ∈ vs ∨ w.view vs t = w.init := by
  rw [view, List.getD_eq_getElem?_getD]
  cases h : vs[t]? with
  | none => exact .inr rfl
  | some x => exact .inl (List.mem_of_getElem? h)

/-- What holds of every view, of the first view and of the new one. -/
theorem forall_note (hvs : ∀ x ∈ vs, P x) (hinit : P w.init) (hv : P v) :
    ∀ x ∈ w.note vs t v, P x := by
  intro x hx
  obtain hx | rfl := List.mem_or_eq_of_mem_set hx
  · obtain hx | hx := List.mem_append.mp hx
    · exact hvs x hx
    · rw [List.eq_of_mem_replicate hx]
      exact hinit
  · exact hv

/-- The new view is one of the views. -/
theorem mem_note : v ∈ w.note vs t v := by
  refine List.mem_set ?_ v
  rw [List.length_append, List.length_replicate]
  omega

/-- What holds of some view and survives the replacement. -/
theorem exists_note (hvs : ∃ x ∈ vs, P x) (hv : P (w.view vs t) → P v) :
    ∃ x ∈ w.note vs t v, P x := by
  obtain ⟨x, hx, hP⟩ := hvs
  obtain ⟨i, hi, rfl⟩ := List.mem_iff_getElem.mp hx
  have hview : w.view vs i = vs[i] := by
    rw [view, List.getD_eq_getElem?_getD, List.getElem?_eq_getElem hi]
    rfl
  by_cases hit : i = t
  · subst hit
    refine ⟨v, ?_, hv (hview ▸ hP)⟩
    exact mem_note
  · refine ⟨vs[i], List.mem_of_getElem? (i := i) ?_, hP⟩
    rw [note, List.getElem?_set_ne (Ne.symm hit), List.getElem?_append_left hi,
      List.getElem?_eq_getElem hi]

end Views

end Watch

/-- The system with the views of its calls. -/
def System.watched {Act : Type} {Resp : Act → Type} {σ Op Val V : Type}
    (sys : System Act Resp σ Op Val) (w : Watch Act Resp V) :
    System Act Resp (σ × List V) Op Val where
  exec := fun t a choice s ↦ (sys.exec t a choice s.1).map fun rs ↦
    (rs.1, rs.2, w.note s.2 t (w.see (w.view s.2 t) a rs.1))
  body := sys.body

/-- A state of the watched system without the views. -/
def Config.unwatched {Act : Type} {Resp : Act → Type} {σ Op Val V : Type}
    (c : Config Act Resp (σ × List V) Op Val) : Config Act Resp σ Op Val := ⟨c.shared.1, c.calls⟩

section Watched

variable {Act : Type} {Resp : Act → Type} {V σ Op Val α β : Type} {w : Watch Act Resp V}
  {sys : System Act Resp σ Op Val} {c c' : Config Act Resp (σ × List V) Op Val}

theorem System.watched_exec {t choice : Nat} {a : Act} {s s' : σ × List V} {r : Resp a}
    (h : (sys.watched w).exec t a choice s = some (r, s')) :
    sys.exec t a choice s.1 = some (r, s'.1) ∧
      s'.2 = w.note s.2 t (w.see (w.view s.2 t) a r) := by
  obtain ⟨⟨r', s''⟩, he, heq⟩ := Option.map_eq_some_iff.mp h
  obtain ⟨rfl, rfl⟩ := Prod.mk.inj heq
  exact ⟨he, rfl⟩

/-- A step of the watched system is a step of the system. -/
theorem System.unwatched_step {l : Label Op} (h : (sys.watched w).step c l = some c') :
    sys.step c.unwatched l = some c'.unwatched := by
  obtain ⟨o, rfl, rfl⟩ | ⟨t, choice, o, a, k, r, s, rfl, hc, he, rfl⟩ := System.step_cases h
  · rfl
  · obtain ⟨he', -⟩ := watched_exec he
    have hc' : c.unwatched.calls[t]? = some ⟨o, .act a k⟩ := hc
    have he'' : sys.exec t a choice c.unwatched.shared = some (r, s.1) := he'
    simp only [System.step, hc', he'', Option.map_some]
    rfl

/-- A run of the watched system is a run of the system. -/
theorem System.Reaches.unwatched {env : System.Env Act Resp (σ × List V) Op Val}
    {env₀ : System.Env Act Resp σ Op Val} (h : (sys.watched w).Reaches env c c')
    (henv : ∀ c l, env.Allows c l → env₀.Allows c.unwatched l) :
    sys.Reaches env₀ c.unwatched c'.unwatched := by
  induction h with
  | refl => exact .refl
  | tail _ ha hs ih => exact .tail ih (henv _ _ ha) (System.unwatched_step hs)

namespace Watch

/-- Under the view `v`, and as long as the answers are possible, every action of the program is in
order; its result and the last view satisfy `Q`. -/
def Conforms (w : Watch Act Resp V) (possible : (a : Act) → Resp a → Prop) (ok : V → Act → Prop)
    (Q : α → V → Prop) : Prog Act Resp α → V → Prop
  | .ret x, v => Q x v
  | .act a k, v => ok v a ∧ ∀ r, possible a r → Conforms w possible ok Q (k r) (w.see v a r)

variable {possible : (a : Act) → Resp a → Prop} {ok : V → Act → Prop} {Q : α → V → Prop}
  {Q' : β → V → Prop}

/-- A program that conforms, followed by one that conforms from where it ends. -/
theorem Conforms.bind {p : Prog Act Resp α} {k : α → Prog Act Resp β} {v : V}
    (hp : w.Conforms possible ok Q p v)
    (hk : ∀ x v', Q x v' → w.Conforms possible ok Q' (k x) v') :
    w.Conforms possible ok Q' (p >>= k) v := by
  induction p generalizing v with
  | ret x => exact hk x v hp
  | act a q ih => exact ⟨hp.1, fun r hr ↦ ih r (hp.2 r hr)⟩

/-- Where every action is in order, every program conforms. -/
theorem conforms_of_free (hok : ∀ v a, ok v a) (p : Prog Act Resp α) (v : V) :
    w.Conforms possible ok (fun _ _ ↦ True) p v := by
  induction p generalizing v with
  | ret x => trivial
  | act a k ih => exact ⟨hok v a, fun r _ ↦ ih r _⟩

/-- Every call conforms from the view there is of it, under what its kind of call may do. -/
structure InOrder (w : Watch Act Resp V) (possible : (a : Act) → Resp a → Prop)
    (ok : Op → V → Act → Prop) (c : Config Act Resp (σ × List V) Op Val) : Prop where
  conforms : ∀ t call, c.calls[t]? = some call →
    w.Conforms possible (ok call.op) (fun _ _ ↦ True) call.prog (w.view c.shared.2 t)
  unseen : ∀ t, c.calls.length ≤ t → w.view c.shared.2 t = w.init

variable {allowed : Op → V → Act → Prop}

/-- The next action of a call is in order for the view there is of it. -/
theorem InOrder.next (h : w.InOrder possible allowed c) {t : Nat} {o : Op} {a : Act}
    {k : Resp a → Prog Act Resp Val} (hc : c.calls[t]? = some ⟨o, .act a k⟩) :
    allowed o (w.view c.shared.2 t) a := (h.conforms t _ hc).1

/-- Before any call. -/
theorem InOrder.init {s : σ} :
    w.InOrder possible allowed (⟨(s, []), []⟩ : Config Act Resp (σ × List V) Op Val) where
  conforms := by simp
  unseen := fun t _ ↦ rfl

/-- One step, if every program conforms from the start and only possible answers are given. -/
theorem InOrder.step (h : w.InOrder possible allowed c)
    (hbody : ∀ o, w.Conforms possible (allowed o) (fun _ _ ↦ True) (sys.body o) w.init)
    (hpossible : ∀ t a choice r s', sys.exec t a choice c.shared.1 = some (r, s') → possible a r)
    {l : Label Op} (hstep : (sys.watched w).step c l = some c') :
    w.InOrder possible allowed c' := by
  obtain ⟨o, rfl, rfl⟩ | ⟨t, choice, o, a, k, r, s, rfl, hc, he, rfl⟩ := System.step_cases hstep
  · constructor
    · intro t call hc
      rw [List.getElem?_append] at hc
      split at hc
      next => exact h.conforms t call hc
      next hge =>
        rw [List.getElem?_singleton] at hc
        split at hc
        next =>
          obtain rfl := Option.some.inj hc
          show w.Conforms possible (allowed o) _ (sys.body o) (w.view c.shared.2 t)
          rw [h.unseen t (by omega)]
          exact hbody o
        next => cases hc
    · intro t ht
      rw [List.length_append] at ht
      exact h.unseen t (by omega)
  · obtain ⟨he', hviews⟩ := System.watched_exec he
    have hlt : t < c.calls.length := (List.getElem?_eq_some_iff.mp hc).1
    constructor
    · intro u call hu
      rw [hviews]
      by_cases hut : u = t
      · subst hut
        rw [List.getElem?_set_self hlt] at hu
        obtain rfl := Option.some.inj hu
        rw [view_note_self]
        exact (h.conforms u _ hc).2 r (hpossible u a choice r s.1 he')
      · rw [List.getElem?_set_ne (Ne.symm hut)] at hu
        rw [view_note_ne hut]
        exact h.conforms u call hu
    · intro u hu
      rw [List.length_set] at hu
      rw [hviews, view_note_ne (by omega)]
      exact h.unseen u hu

end Watch

end Watched

end MsgTrans.Base
