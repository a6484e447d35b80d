import Mathlib.Algebra.BigOperators.Group.Finset.Piecewise
import Mathlib.Algebra.Order.BigOperators.Group.Multiset
import MsgTrans.Base.Prog

/-!
# Token ledgers for interleaved programs

General support for invariants of interleaved programs. Every call carries a multiset of ghost
tokens: debts it still has to pay, rights it has acquired, facts it has observed. The rules say
which tokens each answered action consumes and produces; a call follows the rules when its
program can be run symbolically under them. If every rule keeps an invariant of the shared
state and of the tokens of all calls together, the invariant holds in every reachable state.
A rule sees only the tokens it names, so a call is checked alone and an action once.
Nothing here names an application.
-/

namespace MsgTrans.Base

/-- The token rules of a set of actions. -/
structure Rules (Act : Type) (Resp : Act → Type) (Tok : Type) where
  /-- Caller `t` gives up the first tokens and gets the second when the action is answered. -/
  moves : Nat → (a : Act) → Resp a → Multiset Tok → Multiset Tok → Prop
  /-- The tokens held rule this answer out. -/
  refuted : Nat → (a : Act) → Resp a → Multiset Tok → Prop
  /-- A call may rest at this action for any time. -/
  await : Act → Prop
  /-- A call at rest may hold this token. -/
  idle : Tok → Prop

variable {Act : Type} {Resp : Act → Type} {Tok σ Op Val α : Type}

/-- Run symbolically from the tokens `d`, the program obeys the rules, acquires only tokens
that are `ok` for its caller and ends with a result and tokens satisfying `Q`. -/
def Follows (R : Rules Act Resp Tok) (t : Nat) (ok : Tok → Prop) (Q : α → Multiset Tok → Prop) :
    Prog Act Resp α → Multiset Tok → Prop
  | .ret v, d => Q v d
  | .act a k, d =>
    (R.await a → ∀ x ∈ d, R.idle x) ∧
    ∀ r, R.refuted t a r d ∨ ∃ e e' F, d = e + F ∧ R.moves t a r e e' ∧ (∀ x ∈ e', ok x) ∧
      Follows R t ok Q (k r) (e' + F)

section Follows

variable {R : Rules Act Resp Tok} {t : Nat} {ok : Tok → Prop} {Q Q' : α → Multiset Tok → Prop}

/-- A returned program has met its postcondition. -/
theorem follows_ret {v : α} {d : Multiset Tok} (h : Q v d) : Follows R t ok Q (.ret v) d := h

/-- One action that no call rests at, with a rule for each of its answers. -/
theorem follows_act {a : Act} {k : Resp a → Prog Act Resp α} {d : Multiset Tok}
    (ha : ¬ R.await a)
    (h : ∀ r, ∃ e e' F, d = e + F ∧ R.moves t a r e e' ∧ (∀ x ∈ e', ok x) ∧
      Follows R t ok Q (k r) (e' + F)) : Follows R t ok Q (.act a k) d :=
  ⟨fun h' ↦ absurd h' ha, fun r ↦ .inr (h r)⟩

/-- An action that moves the tokens it is given. -/
theorem follows_move {a : Act} {k : Resp a → Prog Act Resp α} {e F : Multiset Tok}
    (ha : ¬ R.await a)
    (h : ∀ r, ∃ e', R.moves t a r e e' ∧ (∀ x ∈ e', ok x) ∧ Follows R t ok Q (k r) (e' + F)) :
    Follows R t ok Q (.act a k) (e + F) := by
  refine follows_act ha fun r ↦ ?_
  obtain ⟨e', hm, hok, hk⟩ := h r
  exact ⟨e, e', F, rfl, hm, hok, hk⟩

/-- An action that gives up nothing. -/
theorem follows_gain {a : Act} {k : Resp a → Prog Act Resp α} {F : Multiset Tok}
    (ha : ¬ R.await a)
    (h : ∀ r, ∃ e', R.moves t a r 0 e' ∧ (∀ x ∈ e', ok x) ∧ Follows R t ok Q (k r) (e' + F)) :
    Follows R t ok Q (.act a k) F := by
  have h' := follows_move ha h
  rwa [zero_add] at h'

/-- An action that moves no token. -/
theorem follows_neutral {a : Act} {k : Resp a → Prog Act Resp α} {F : Multiset Tok}
    (ha : ¬ R.await a) (hm : ∀ r, R.moves t a r 0 0) (h : ∀ r, Follows R t ok Q (k r) F) :
    Follows R t ok Q (.act a k) F := by
  refine follows_gain ha fun r ↦ ⟨0, hm r, by simp, ?_⟩
  rw [zero_add]
  exact h r

/-- A program that follows the rules may promise less. -/
theorem Follows.mono (hQ : ∀ v d, Q v d → Q' v d) {p : Prog Act Resp α} {d : Multiset Tok}
    (h : Follows R t ok Q p d) : Follows R t ok Q' p d := by
  induction p generalizing d with
  | ret v => exact hQ v d h
  | act a k ih =>
    refine ⟨h.1, fun r ↦ (h.2 r).imp id ?_⟩
    rintro ⟨e, e', F, hd, hm, hok, hk⟩
    exact ⟨e, e', F, hd, hm, hok, ih r hk⟩

/-- A program that acquires tokens in order for it acquires tokens that are in order in another
sense, if the rules hand out only such. -/
theorem Follows.within {ok' : Tok → Prop}
    (hok : ∀ a r e e', R.moves t a r e e' → ∀ x ∈ e', ok x → ok' x) {p : Prog Act Resp α}
    {d : Multiset Tok} (h : Follows R t ok Q p d) : Follows R t ok' Q p d := by
  induction p generalizing d with
  | ret v => exact h
  | act a k ih =>
    refine ⟨h.1, fun r ↦ (h.2 r).imp id ?_⟩
    rintro ⟨e, e', F, hd, hm, hx, hk⟩
    exact ⟨e, e', F, hd, hm, fun x hx' ↦ hok a r e e' hm x hx' (hx x hx'), ih r hk⟩

end Follows

/-- The tokens of one kind, read as values of their own. -/
def part {β : Type} (f : Tok → Option β) (D : Multiset Tok) : Multiset β := D.filterMap f

section Part

variable {β : Type} {f : Tok → Option β}

@[simp] theorem part_zero : part f 0 = 0 := Multiset.filterMap_zero f

@[simp] theorem part_add (D E : Multiset Tok) : part f (D + E) = part f D + part f E :=
  Multiset.filterMap_add f D E

@[simp] theorem part_singleton (x : Tok) :
    part f {x} = (f x).elim 0 fun b ↦ {b} := by
  cases h : f x with
  | none => exact Multiset.filterMap_cons_none x 0 h
  | some b => exact Multiset.filterMap_cons_some f x 0 h

@[simp] theorem part_cons (x : Tok) (D : Multiset Tok) :
    part f (x ::ₘ D) = (f x).elim 0 (fun b ↦ {b}) + part f D := by
  rw [← Multiset.singleton_add, part_add, part_singleton]

theorem part_replicate (n : Nat) (x : Tok) :
    part f (Multiset.replicate n x) = (f x).elim 0 fun b ↦ Multiset.replicate n b := by
  induction n with
  | zero => cases f x <;> simp
  | succ n ih =>
    rw [Multiset.replicate_succ, part_cons, ih]
    cases f x with
    | none => rfl
    | some b => exact (Multiset.replicate_succ b n).symm

/-- A value of this kind is that of some token. -/
theorem mem_part {D : Multiset Tok} {b : β} : b ∈ part f D ↔ ∃ x ∈ D, f x = some b :=
  Multiset.mem_filterMap f D

/-- Tokens of other kinds contribute nothing. -/
theorem part_eq_zero {D : Multiset Tok} (h : ∀ x ∈ D, f x = none) : part f D = 0 := by
  apply Multiset.eq_zero_of_forall_notMem
  intro b hb
  obtain ⟨x, hx, hfx⟩ := mem_part.mp hb
  rw [h x hx] at hfx
  cases hfx

end Part

theorem forall_mem_zero {p : Tok → Prop} : ∀ x ∈ (0 : Multiset Tok), p x :=
  fun x hx ↦ absurd hx (Multiset.notMem_zero x)

theorem forall_mem_singleton {p : Tok → Prop} {x : Tok} (h : p x) :
    ∀ y ∈ ({x} : Multiset Tok), p y := by
  intro y hy
  rwa [Multiset.mem_singleton.mp hy]

/-- A token that a move is not about is held after it exactly when it was before. -/
theorem mem_frame {e e' F : Multiset Tok} {x : Tok} (he : x ∉ e) (he' : x ∉ e') :
    x ∈ e' + F ↔ x ∈ e + F := by
  simp [he, he']

/-- The tokens of the first `n` calls together. -/
def total (ds : Nat → Multiset Tok) (n : Nat) : Multiset Tok := ∑ t ∈ Finset.range n, ds t

theorem mem_total {ds : Nat → Multiset Tok} {n : Nat} {x : Tok} :
    x ∈ total ds n ↔ ∃ t, t < n ∧ x ∈ ds t := by
  simp [total, Multiset.mem_sum]

private theorem total_succ (ds : Nat → Multiset Tok) (n : Nat) (d : Multiset Tok) :
    total (Function.update ds n d) (n + 1) = d + total ds n := by
  rw [total, Finset.sum_range_succ, Function.update_self, add_comm]
  congr 1
  apply Finset.sum_congr rfl
  intro t ht
  rw [Function.update_of_ne]
  exact Nat.ne_of_lt (Finset.mem_range.mp ht)

private theorem total_split (ds : Nat → Multiset Tok) {n t : Nat} (ht : t < n) :
    ∃ F, total ds n = ds t + F ∧ ∀ d, total (Function.update ds t d) n = d + F := by
  have hmem : t ∈ Finset.range n := Finset.mem_range.mpr ht
  refine ⟨∑ i ∈ Finset.range n \ {t}, ds i, ?_, fun d ↦ ?_⟩
  · rw [total, ← Finset.sum_sdiff (Finset.singleton_subset_iff.mpr hmem),
      Finset.sum_singleton, add_comm]
  · exact Finset.sum_update_of_mem hmem ds d

/-- What each call promises: the tokens it begins with, those it may acquire, and its
postcondition. -/
structure Contract (Op Val Tok : Type) where
  start : Nat → Op → Multiset Tok → Prop
  ok : Nat → Op → Tok → Prop
  post : Nat → Op → Val → Multiset Tok → Prop

/-- The calls' tokens are `ds`, every call follows the rules from its own, and the invariant
holds of all of them together. -/
structure Balanced (R : Rules Act Resp Tok) (K : Contract Op Val Tok)
    (J : σ → Multiset Tok → Prop) (c : Config Act Resp σ Op Val) (ds : Nat → Multiset Tok) :
    Prop where
  follows : ∀ t call, c.calls[t]? = some call →
    Follows R t (K.ok t call.op) (K.post t call.op) call.prog (ds t)
  inScope : ∀ t call, c.calls[t]? = some call → ∀ x ∈ ds t, K.ok t call.op x
  inv : J c.shared (total ds c.calls.length)

/-- The rules keep the invariant of a system in an environment. -/
structure Sound (sys : System Act Resp σ Op Val) (env : System.Env Act Resp σ Op Val)
    (R : Rules Act Resp Tok) (K : Contract Op Val Tok) (J : σ → Multiset Tok → Prop) :
    Prop where
  act : ∀ t a choice s r s' e e' F, env.mayAct a s → sys.exec t a choice s = some (r, s') →
    R.moves t a r e e' → J s (e + F) → J s' (e' + F)
  refuted : ∀ t a choice s r s' d F, sys.exec t a choice s = some (r, s') →
    R.refuted t a r d → ¬ J s (d + F)
  start : ∀ c ds o, Balanced R K J c ds → env.mayStart c o →
    ∃ d, K.start c.calls.length o d ∧
      Follows R c.calls.length (K.ok c.calls.length o) (K.post c.calls.length o) (sys.body o) d ∧
      (∀ x ∈ d, K.ok c.calls.length o x) ∧ J c.shared (d + total ds c.calls.length)

/-- A step together with what it does to the calls' tokens. -/
inductive Tracks (sys : System Act Resp σ Op Val) (env : System.Env Act Resp σ Op Val)
    (R : Rules Act Resp Tok) (K : Contract Op Val Tok) (c : Config Act Resp σ Op Val)
    (ds : Nat → Multiset Tok) : Config Act Resp σ Op Val → (Nat → Multiset Tok) → Prop where
  | start {o : Op} {d : Multiset Tok} : env.mayStart c o → K.start c.calls.length o d →
      Tracks sys env R K c ds { c with calls := c.calls ++ [⟨o, sys.body o⟩] }
        (Function.update ds c.calls.length d)
  | run {t choice : Nat} {o : Op} {a : Act} {k : Resp a → Prog Act Resp Val} {r : Resp a} {s : σ}
      {e e' F : Multiset Tok} : c.calls[t]? = some ⟨o, .act a k⟩ → env.mayAct a c.shared →
      sys.exec t a choice c.shared = some (r, s) → ds t = e + F → R.moves t a r e e' →
      Tracks sys env R K c ds ⟨s, c.calls.set t ⟨o, k r⟩⟩ (Function.update ds t (e' + F))

section Soundness

variable {sys : System Act Resp σ Op Val} {env : System.Env Act Resp σ Op Val}
  {R : Rules Act Resp Tok} {K : Contract Op Val Tok} {J : σ → Multiset Tok → Prop}
  {c c' : Config Act Resp σ Op Val} {ds : Nat → Multiset Tok}

private theorem Balanced.start (hs : Sound sys env R K J) (h : Balanced R K J c ds) {o : Op}
    (ho : env.mayStart c o) :
    ∃ ds', Balanced R K J { c with calls := c.calls ++ [⟨o, sys.body o⟩] } ds' ∧
      Tracks sys env R K c ds { c with calls := c.calls ++ [⟨o, sys.body o⟩] } ds' := by
  obtain ⟨d, hd, hf, hok, hJ⟩ := hs.start c ds o h ho
  have hcases : ∀ {t : Nat} {call : Call Act Resp Op Val},
      (c.calls ++ [⟨o, sys.body o⟩])[t]? = some call →
      (t = c.calls.length ∧ call = ⟨o, sys.body o⟩) ∨
        (t ≠ c.calls.length ∧ c.calls[t]? = some call) := by
    intro t call hc
    rw [List.getElem?_append] at hc
    split at hc
    next hlt => exact .inr ⟨Nat.ne_of_lt hlt, hc⟩
    next hge =>
      rw [List.getElem?_singleton] at hc
      split at hc
      next h0 => exact .inl ⟨by omega, (Option.some.inj hc).symm⟩
      next => cases hc
  refine ⟨Function.update ds c.calls.length d, ⟨?_, ?_, ?_⟩, .start ho hd⟩
  · intro t call hc
    obtain ⟨rfl, rfl⟩ | ⟨hne, hc⟩ := hcases hc
    · rwa [Function.update_self]
    · rw [Function.update_of_ne hne]
      exact h.follows t call hc
  · intro t call hc
    obtain ⟨rfl, rfl⟩ | ⟨hne, hc⟩ := hcases hc
    · rwa [Function.update_self]
    · rw [Function.update_of_ne hne]
      exact h.inScope t call hc
  · simp only [List.length_append, List.length_singleton, total_succ]
    exact hJ

private theorem Balanced.run (hs : Sound sys env R K J) (h : Balanced R K J c ds) {t choice : Nat}
    {o : Op} {a : Act} {k : Resp a → Prog Act Resp Val} {r : Resp a} {s : σ}
    (hc : c.calls[t]? = some ⟨o, .act a k⟩) (hact : env.mayAct a c.shared)
    (he : sys.exec t a choice c.shared = some (r, s)) :
    ∃ ds', Balanced R K J ⟨s, c.calls.set t ⟨o, k r⟩⟩ ds' ∧
      Tracks sys env R K c ds ⟨s, c.calls.set t ⟨o, k r⟩⟩ ds' := by
  have hlt : t < c.calls.length := (List.getElem?_eq_some_iff.mp hc).1
  obtain ⟨G, htotal, hupdate⟩ := total_split ds hlt
  have hJ := h.inv
  rw [htotal] at hJ
  obtain hdead | ⟨e, e', F, hd, hm, hok, hk⟩ := (h.follows t _ hc).2 r
  · exact absurd hJ (hs.refuted t a choice c.shared r s _ G he hdead)
  have hsc := h.inScope t _ hc
  have hcases : ∀ {t' : Nat} {call : Call Act Resp Op Val},
      (c.calls.set t ⟨o, k r⟩)[t']? = some call →
      (t' = t ∧ call = ⟨o, k r⟩) ∨ (t' ≠ t ∧ c.calls[t']? = some call) := by
    intro t' call hc'
    by_cases heq : t' = t
    · subst heq
      rw [List.getElem?_set_self hlt] at hc'
      exact .inl ⟨rfl, (Option.some.inj hc').symm⟩
    · rw [List.getElem?_set_ne (Ne.symm heq)] at hc'
      exact .inr ⟨heq, hc'⟩
  refine ⟨Function.update ds t (e' + F), ⟨?_, ?_, ?_⟩, .run hc hact he hd hm⟩
  · intro t' call hc'
    obtain ⟨rfl, rfl⟩ | ⟨hne, hc'⟩ := hcases hc'
    · rwa [Function.update_self]
    · rw [Function.update_of_ne hne]
      exact h.follows t' call hc'
  · intro t' call hc'
    obtain ⟨rfl, rfl⟩ | ⟨hne, hc'⟩ := hcases hc'
    · rw [Function.update_self]
      intro x hx
      obtain hx | hx := Multiset.mem_add.mp hx
      · exact hok x hx
      · exact hsc x (by rw [hd]; exact Multiset.mem_add.mpr (.inr hx))
    · rw [Function.update_of_ne hne]
      exact h.inScope t' call hc'
  · simp only [List.length_set, hupdate, add_assoc]
    rw [hd, add_assoc] at hJ
    exact hs.act t a choice c.shared r s e e' (F + G) hact he hm hJ

/-- One allowed step keeps every call within the rules and the invariant in force. -/
theorem Balanced.step (hs : Sound sys env R K J) (h : Balanced R K J c ds) {l : Label Op}
    (ha : env.Allows c l) (hstep : sys.step c l = some c') :
    ∃ ds', Balanced R K J c' ds' ∧ Tracks sys env R K c ds c' ds' := by
  obtain ⟨o, rfl, rfl⟩ | ⟨t, choice, o, a, k, r, s, rfl, hc, he, rfl⟩ := System.step_cases hstep
  · exact h.start hs ha
  · have hnext : c.next? t = some a := by rw [Config.next?, hc]
    exact h.run hs hc (ha a hnext) he

/-- A property of the calls and their own tokens that every tracked step keeps holds, with the
balance, in every state reached. -/
theorem Balanced.reaches_with {P : Config Act Resp σ Op Val → (Nat → Multiset Tok) → Prop}
    (hs : Sound sys env R K J) (h : Balanced R K J c ds) (hP : P c ds)
    (hstep : ∀ c ds c' ds', Balanced R K J c ds → P c ds → Tracks sys env R K c ds c' ds' →
      P c' ds') (hr : sys.Reaches env c c') : ∃ ds', Balanced R K J c' ds' ∧ P c' ds' := by
  refine hr.invariant (P := fun d ↦ ∃ ds, Balanced R K J d ds ∧ P d ds) ?_ ⟨ds, h, hP⟩
  rintro d l d' ⟨ds, hd, hPd⟩ ha hl
  obtain ⟨ds', hd', ht⟩ := hd.step hs ha hl
  exact ⟨ds', hd', hstep d ds d' ds' hd hPd ht⟩

/-- Every state reached from a balanced one is balanced. -/
theorem Balanced.reaches (hs : Sound sys env R K J) (h : Balanced R K J c ds)
    (hr : sys.Reaches env c c') : ∃ ds', Balanced R K J c' ds' := by
  obtain ⟨ds', h', -⟩ := h.reaches_with (P := fun _ _ ↦ True) hs trivial
    (fun _ _ _ _ _ _ _ ↦ trivial) hr
  exact ⟨ds', h'⟩

/-- A system without calls is balanced as soon as its invariant holds. -/
theorem Balanced.init {s : σ} (h : J s 0) :
    Balanced R K J (⟨s, []⟩ : Config Act Resp σ Op Val) fun _ ↦ 0 where
  follows := by simp
  inScope := by simp
  inv := by simpa [total] using h

/-- The tokens of a call that has returned satisfy its postcondition. -/
theorem Balanced.post (h : Balanced R K J c ds) {t : Nat} {call : Call Act Resp Op Val} {v : Val}
    (hc : c.calls[t]? = some call) (hv : call.prog = .ret v) : K.post t call.op v (ds t) := by
  have hf := h.follows t call hc
  rwa [hv] at hf

/-- What an action of a call does in a balanced state: it is one of the rules' moves, on tokens that
are in order for the call before and after it. -/
theorem Balanced.acts (hs : Sound sys env R K J) (h : Balanced R K J c ds) {t choice : Nat}
    {call : Call Act Resp Op Val} (hc : c.calls[t]? = some call)
    (hstep : sys.step c (.run t choice) = some c') :
    ∃ a r e e' F, sys.exec t a choice c.shared = some (r, c'.shared) ∧ R.moves t a r e e' ∧
      J c.shared (e + F) ∧ (∀ x ∈ e, K.ok t call.op x) ∧ ∀ x ∈ e', K.ok t call.op x := by
  obtain ⟨o, hl, -⟩ | ⟨t', choice', o, a, k, r, s, hl, hc', he, rfl⟩ := System.step_cases hstep
  · cases hl
  cases hl
  obtain rfl : call = ⟨o, .act a k⟩ := Option.some.inj (hc.symm.trans hc')
  obtain ⟨G, htotal, -⟩ := total_split ds (List.getElem?_eq_some_iff.mp hc).1
  have hJ := h.inv
  rw [htotal] at hJ
  obtain hdead | ⟨e, e', F, hd, hm, hok, -⟩ := (h.follows t _ hc).2 r
  · exact absurd hJ (hs.refuted t a choice c.shared r s _ G he hdead)
  rw [hd, add_assoc] at hJ
  refine ⟨a, r, e, e', F + G, he, hm, hJ, fun x hx ↦ ?_, hok⟩
  apply h.inScope t _ hc
  rw [hd]
  exact Multiset.mem_add.mpr (.inl hx)

/-- Before an action, its caller holds the tokens one of the rules asks for. -/
theorem Balanced.next (h : Balanced R K J c ds) {t : Nat} {a : Act} (hn : c.next? t = some a)
    (r : Resp a) : ∃ d G, J c.shared (d + G) ∧
      (R.refuted t a r d ∨ ∃ e e' F, d = e + F ∧ R.moves t a r e e') := by
  unfold Config.next? at hn
  split at hn
  next o a' k hc =>
    obtain rfl := Option.some.inj hn
    obtain ⟨G, htotal, -⟩ := total_split ds (List.getElem?_eq_some_iff.mp hc).1
    have hJ := h.inv
    rw [htotal] at hJ
    refine ⟨ds t, G, hJ, ((h.follows t _ hc).2 r).imp id ?_⟩
    rintro ⟨e, e', F, hd, hm, -, -⟩
    exact ⟨e, e', F, hd, hm⟩
  next => cases hn

end Soundness

end MsgTrans.Base
