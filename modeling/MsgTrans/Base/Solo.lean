import MsgTrans.Base.Prog

/-!
# Programs run alone

General support for programs over atomic actions that run from start to end with nobody beside
them. What they did is an inductive relation with a log of the answered actions; a function runs a
program on given choices. A program without certain actions keeps whatever the others keep. Nothing
here names an application.
-/

namespace MsgTrans.Base

namespace Prog

variable {Act : Type} {Resp : Act → Type} {σ α β : Type}

/-- The answered actions of a run, in order. -/
abbrev Log (Act : Type) (Resp : Act → Type) : Type := List ((a : Act) × Resp a)

/-- The program, run alone from a state, answers a value, leaves a state and did what the log
says. -/
inductive Solo (exec : (a : Act) → Nat → σ → Resp a × σ) :
    Prog Act Resp α → σ → Log Act Resp → α → σ → Prop where
  | ret {v : α} {s : σ} : Solo exec (.ret v) s [] v s
  | act {a : Act} {k : Resp a → Prog Act Resp α} {s s' : σ} {log : Log Act Resp} {v : α}
      (choice : Nat) : Solo exec (k (exec a choice s).1) (exec a choice s).2 log v s' →
      Solo exec (.act a k) s (⟨a, (exec a choice s).1⟩ :: log) v s'

/-- Run a program on given choices; where they are used up the choice is zero. -/
def solo (exec : (a : Act) → Nat → σ → Resp a × σ) :
    Prog Act Resp α → List Nat → σ → Log Act Resp × α × σ
  | .ret v, _, s => ([], v, s)
  | .act a k, choices, s =>
    let answer := exec a (choices.headD 0) s
    let rest := solo exec (k answer.1) choices.tail answer.2
    (⟨a, answer.1⟩ :: rest.1, rest.2)

variable {exec : (a : Act) → Nat → σ → Resp a × σ} {s s' : σ} {log : Log Act Resp}

/-- A program that is run is run alone. -/
theorem solo_spec (p : Prog Act Resp α) (choices : List Nat) (s : σ) :
    Solo exec p s (p.solo exec choices s).1 (p.solo exec choices s).2.1
      (p.solo exec choices s).2.2 := by
  induction p generalizing choices s with
  | ret v => exact .ret
  | act a k ih => exact .act _ (ih _ _ _)

namespace Solo

theorem of_ret {v v' : α} (h : Solo exec (.ret v) s log v' s') : v' = v ∧ s' = s ∧ log = [] := by
  cases h
  exact ⟨rfl, rfl, rfl⟩

theorem of_act {a : Act} {k : Resp a → Prog Act Resp α} {v : α}
    (h : Solo exec (.act a k) s log v s') : ∃ choice log',
      Solo exec (k (exec a choice s).1) (exec a choice s).2 log' v s' ∧
        log = ⟨a, (exec a choice s).1⟩ :: log' := by
  cases h with
  | act choice h => exact ⟨choice, _, h, rfl⟩

theorem of_bind {p : Prog Act Resp α} {f : α → Prog Act Resp β} {v : β}
    (h : Solo exec (p >>= f) s log v s') : ∃ u s₁ log₁ log₂, Solo exec p s log₁ u s₁ ∧
      Solo exec (f u) s₁ log₂ v s' ∧ log = log₁ ++ log₂ := by
  induction p generalizing s log with
  | ret u => exact ⟨u, s, [], log, .ret, h, rfl⟩
  | act a k ih =>
    rw [act_bind] at h
    obtain ⟨choice, log', hrest, rfl⟩ := h.of_act
    obtain ⟨u, s₁, log₁, log₂, hp, hf, rfl⟩ := ih _ hrest
    exact ⟨u, s₁, _, log₂, .act choice hp, hf, rfl⟩

/-- A program that returns a function of another's answer. -/
theorem of_answer {p : Prog Act Resp α} {f : α → β} {v : β}
    (h : Solo exec (p >>= fun u ↦ pure (f u)) s log v s') :
    ∃ u log', Solo exec p s log' u s' ∧ v = f u := by
  obtain ⟨u, s₁, log₁, log₂, hp, hf, -⟩ := h.of_bind
  obtain ⟨rfl, rfl, -⟩ := hf.of_ret
  exact ⟨u, log₁, hp, rfl⟩

/-- What every action of a program keeps, the program keeps. -/
theorem keeps {f : Act → Bool} {K : σ → σ → Prop} (hrefl : ∀ s, K s s)
    (htrans : ∀ s t u, K s t → K t u → K s u)
    (hact : ∀ a choice s, f a = false → K s (exec a choice s).2) {p : Prog Act Resp α} {v : α}
    (h : Solo exec p s log v s') (hp : p.AtMost f 0) : K s s' := by
  induction h with
  | ret => exact hrefl _
  | @act a k s s' log v choice h ih =>
    unfold AtMost at hp
    split at hp
    next => exact absurd hp.1 (Nat.lt_irrefl 0)
    next ha => exact htrans _ _ _ (hact a choice s (Bool.not_eq_true _ ▸ ha)) (ih (hp _))

end Solo

/-- The program never performs an action of this kind. -/
abbrev Without (f : Act → Bool) (p : Prog Act Resp α) : Prop := p.AtMost f 0

section Without

variable {f : Act → Bool}

@[simp] theorem without_ret (v : α) : Without f (.ret v : Prog Act Resp α) := trivial

@[simp] theorem without_act {a : Act} {k : Resp a → Prog Act Resp α} :
    Without f (.act a k) ↔ f a = false ∧ ∀ r, Without f (k r) := by
  rw [Without, atMost_act_iff]
  split
  next ha => simp [ha]
  next ha => simp [ha, Without]

/-- A program without some actions is without fewer. -/
theorem Without.imp {g : Act → Bool} (hle : ∀ a, f a = false → g a = false)
    {p : Prog Act Resp α} (hp : p.Without f) : p.Without g := by
  induction p with
  | ret v => trivial
  | act a k ih =>
    obtain ⟨ha, hk⟩ := without_act.1 hp
    exact without_act.2 ⟨hle a ha, fun r ↦ ih r (hk r)⟩

/-- What a program without some actions did are others. -/
theorem Solo.log_without {exec : (a : Act) → Nat → σ → Resp a × σ} {s s' : σ}
    {log : Log Act Resp} {p : Prog Act Resp α} {v : α} (h : Solo exec p s log v s')
    (hp : p.Without f) : ∀ x ∈ log, f x.1 = false := by
  induction h with
  | ret => exact fun x hx ↦ absurd hx List.not_mem_nil
  | act choice h ih =>
    obtain ⟨ha, hk⟩ := without_act.1 hp
    intro x hx
    obtain rfl | hx := List.mem_cons.mp hx
    · exact ha
    · exact ih (hk _) x hx

theorem Without.bind {p : Prog Act Resp α} {k : α → Prog Act Resp β} (hp : p.Without f)
    (hk : ∀ v, (k v).Without f) : (p >>= k).Without f := AtMost.before hp hk

end Without

end Prog

end MsgTrans.Base
