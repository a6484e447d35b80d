import Mathlib.Data.List.Basic

/-!
# Machines that take labelled steps

General support for components described by a step function: a start state and, for every
label, the state after it or nothing where the label cannot happen. The label stands for every
choice that is not the component's own. Nothing here names an application.
-/

namespace MsgTrans.Base

/-- A start state and a step function. -/
structure Machine (σ Label : Type) where
  start : σ
  step : σ → Label → Option σ

namespace Machine

variable {σ Label : Type} (m : Machine σ Label)

/-- The states reached by steps that satisfy `allowed`. -/
inductive ReachableBy (allowed : σ → Label → Prop) : σ → Prop where
  | start : ReachableBy allowed m.start
  | step {s s' : σ} {l : Label} : ReachableBy allowed s → allowed s l → m.step s l = some s' →
      ReachableBy allowed s'

/-- The states reached by any steps. -/
abbrev Reachable (s : σ) : Prop := m.ReachableBy (fun _ _ ↦ True) s

/-- Take a list of steps. -/
def run : σ → List Label → Option σ
  | s, [] => some s
  | s, l :: ls => (m.step s l).bind fun s' ↦ run s' ls

/-- Take a list of steps, as long as every one of them is allowed. -/
def runBy (allowed : σ → Label → Prop) [∀ s l, Decidable (allowed s l)] :
    σ → List Label → Option σ
  | s, [] => some s
  | s, l :: ls => if allowed s l then (m.step s l).bind fun s' ↦ runBy allowed s' ls else none

variable {m} {allowed : σ → Label → Prop}

theorem runBy_cons [∀ s l, Decidable (allowed s l)] (s : σ) (l : Label) (ls : List Label) :
    m.runBy allowed s (l :: ls) =
      if allowed s l then (m.step s l).bind fun s' ↦ m.runBy allowed s' ls else none := rfl

/-- What holds at the start and survives every allowed step holds of every state reached. -/
theorem ReachableBy.invariant {P : σ → Prop} {s : σ} (h : m.ReachableBy allowed s)
    (hstart : P m.start)
    (hstep : ∀ s l s', P s → allowed s l → m.step s l = some s' → P s') : P s := by
  induction h with
  | start => exact hstart
  | step _ ha hs ih => exact hstep _ _ _ ih ha hs

/-- A run of two lists is a run of the second from where the first ends. -/
theorem run_append {s s' : σ} {ls ls' : List Label} (h : m.run s ls = some s') :
    m.run s (ls ++ ls') = m.run s' ls' := by
  induction ls generalizing s with
  | nil =>
    cases h
    rfl
  | cons l ls ih =>
    obtain ⟨s'', hs, hrest⟩ := Option.bind_eq_some_iff.mp h
    rw [List.cons_append, run, hs, Option.bind_some]
    exact ih hrest

/-- What every step keeps, every run keeps. -/
theorem run_invariant {P : σ → Prop} {s s' : σ} {ls : List Label}
    (hstep : ∀ s l s', P s → m.step s l = some s' → P s') (h : P s)
    (hrun : m.run s ls = some s') : P s' := by
  induction ls generalizing s with
  | nil =>
    cases hrun
    exact h
  | cons l ls ih =>
    obtain ⟨s'', hs, hrest⟩ := Option.bind_eq_some_iff.mp hrun
    exact ih (hstep s l s'' h hs) hrest

/-- Steps that are all allowed are allowed under any weaker condition. -/
theorem ReachableBy.mono {allowed' : σ → Label → Prop} {s : σ} (h : m.ReachableBy allowed s)
    (hle : ∀ s l, allowed s l → allowed' s l) : m.ReachableBy allowed' s := by
  induction h with
  | start => exact .start
  | step _ ha hs ih => exact .step ih (hle _ _ ha) hs

/-- A run of steps that are always allowed reaches its last state. -/
theorem ReachableBy.of_run {s s' : σ} {ls : List Label} (h : m.ReachableBy allowed s)
    (hls : ∀ l ∈ ls, ∀ s, allowed s l) (hrun : m.run s ls = some s') :
    m.ReachableBy allowed s' := by
  induction ls generalizing s with
  | nil =>
    cases hrun
    exact h
  | cons l ls ih =>
    obtain ⟨s'', hs, hrest⟩ := Option.bind_eq_some_iff.mp hrun
    have hl := hls l List.mem_cons_self s
    exact ih (.step h hl hs) (fun l hl ↦ hls l (List.mem_cons_of_mem _ hl)) hrest

/-- A run of allowed steps reaches its last state. -/
theorem ReachableBy.of_runBy [∀ s l, Decidable (allowed s l)] {s s' : σ} {ls : List Label}
    (h : m.ReachableBy allowed s) (hrun : m.runBy allowed s ls = some s') :
    m.ReachableBy allowed s' := by
  induction ls generalizing s with
  | nil =>
    cases hrun
    exact h
  | cons l ls ih =>
    rw [runBy_cons] at hrun
    split at hrun
    next hl =>
      obtain ⟨s'', hs, hrest⟩ := Option.bind_eq_some_iff.mp hrun
      exact ih (.step h hl hs) hrest
    next => cases hrun

/-- If allowed steps keep an invariant that implies `Q`, and every other step from the invariant
loses `Q` for good, the runs of allowed steps are those that end with `Q`. -/
theorem runBy_iff [∀ s l, Decidable (allowed s l)] {J Q : σ → Prop}
    (hkeep : ∀ s l s', J s → allowed s l → m.step s l = some s' → J s')
    (hlose : ∀ s l s', J s → ¬ allowed s l → m.step s l = some s' → ¬ Q s')
    (hQ : ∀ s, J s → Q s) (hback : ∀ s l s', m.step s l = some s' → Q s' → Q s)
    {s s' : σ} {ls : List Label} (h : J s) (hrun : m.run s ls = some s') :
    m.runBy allowed s ls = some s' ↔ Q s' := by
  induction ls generalizing s with
  | nil =>
    cases hrun
    exact ⟨fun _ ↦ hQ _ h, fun _ ↦ rfl⟩
  | cons l ls ih =>
    obtain ⟨s'', hs, hrest⟩ := Option.bind_eq_some_iff.mp hrun
    rw [runBy_cons]
    by_cases hl : allowed s l
    · rw [if_pos hl, hs, Option.bind_some]
      exact ih (hkeep s l s'' h hl hs) hrest
    · rw [if_neg hl]
      refine ⟨fun hnone ↦ (nomatch hnone), fun hQ' ↦ absurd ?_ (hlose s l s'' h hl hs)⟩
      by_contra hne
      exact run_invariant (P := fun s ↦ ¬ Q s) (fun s l s' hn hstep hq ↦ hn (hback s l s' hstep hq))
        hne hrest hQ'

/-- A run from a reachable state reaches its last state. -/
theorem Reachable.of_run {s s' : σ} {ls : List Label} (h : m.Reachable s)
    (hrun : m.run s ls = some s') : m.Reachable s' :=
  ReachableBy.of_run h (fun _ _ _ ↦ trivial) hrun

end Machine

end MsgTrans.Base
