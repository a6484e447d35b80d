import MsgTrans.Transport.CloseSession

/-!
# When closing a session survives a dropped caller

A session is marked as closing once, at the start of a close call (`connection_state.rs:52–65`), and
every later call returns at once (`transport_server.rs:843–905`, `transport.rs:226–340`). So the
call that set the mark has to go on until the connection is out of its slot. It does unless it is
dropped in between, and a caller can drop it there.
-/

namespace MsgTrans.Transport

open MsgTrans.Base MsgTrans.Registry

/-- The call has marked this record as closing, or tears its generation down, and still runs. -/
def CloseCall.Holds (c : CloseCall) : Record → Prop
  | .server => c.isServer = true ∧
    match c.phase with
    | .notifying | .looking | .starting _ | .taking _ | .shutting _ | .marking _ | .removing _
    | .finishing => True
    | _ => False
  | .generation sid => c.phase = .taking sid ∨ c.phase = .shutting sid ∨ c.phase = .marking sid

namespace CloseState

/-- The entry of a record. -/
def entry (s : CloseState) : Record → Option ConnectionState
  | .server => s.server
  | .generation sid => s.states sid

/-- The session that a record is about. -/
def session (s : CloseState) : Record → SessionId
  | .server => s.home
  | .generation sid => sid

/-- The connection that a record is about is in the slot. -/
def Installed (s : CloseState) (r : Record) : Prop := s.slot = some (s.session r)

/-- A close call or a teardown that has taken charge of the record runs. -/
def Closing (s : CloseState) (r : Record) : Prop := ∃ c ∈ s.calls, c.Holds r

end CloseState

/-- The step drops no call, neither for its caller nor at the server's deadline, that has marked a
session whose connection is still installed. -/
def Kept (s : CloseState) : CloseLabel → Prop
  | .drop i | .timeout i =>
    ∀ c, s.calls[i]? = some c → ∀ r, c.Holds r → ¬ s.Installed r
  | _ => True

/-- The invariant: generations are numbered in order, and whatever is marked as closing with its
connection installed is being closed. -/
structure Guarded (s : CloseState) : Prop where
  home : s.home ≤ s.epoch
  fresh : ∀ sid, s.epoch < sid → s.states sid = none
  unrecorded : ∀ sid ∈ s.unrecorded, sid ≤ s.epoch
  guard : ∀ r, s.entry r = some .closing → s.Installed r → s.Closing r

section Step

variable {s s' : CloseState} {i : Nat} {c : CloseCall}

/-- A call that keeps what it holds keeps every record in charge. -/
theorem closing_setPhase {phase : ClosePhase} {r : Record} (hc : s.calls[i]? = some c)
    (hkeep : c.Holds r → CloseCall.Holds { c with phase := phase } r) (h : s.Closing r) :
    (s.setPhase i c phase).Closing r := by
  obtain ⟨x, hx, hholds⟩ := h
  obtain ⟨j, hj⟩ := List.getElem?_of_mem hx
  have hlt : i < s.calls.length := (List.getElem?_eq_some_iff.mp hc).1
  by_cases hij : i = j
  · subst hij
    rw [hc] at hj
    cases hj
    exact ⟨_, List.mem_of_getElem? (List.getElem?_set_self hlt), hkeep hholds⟩
  · refine ⟨x, List.mem_of_getElem? (i := j) ?_, hholds⟩
    exact (List.getElem?_set_ne hij).trans hj

/-- The call that moves on takes charge of the record. -/
theorem closing_self {phase : ClosePhase} {r : Record} (hc : s.calls[i]? = some c)
    (hholds : CloseCall.Holds { c with phase := phase } r) :
    (s.setPhase i c phase).Closing r :=
  ⟨_, List.mem_of_getElem? (List.getElem?_set_self (List.getElem?_eq_some_iff.mp hc).1), hholds⟩

-- One call moves on: each record that is marked with its connection installed is held by this
-- call, or was marked before and this call gives nothing up.
private theorem Guarded.move (h : Guarded s) (hc : s.calls[i]? = some c) {t : CloseState}
    {phase : ClosePhase} (hcalls : t.calls = s.calls) (hhome : t.home = s.home)
    (hepoch : t.epoch = s.epoch) (hunrecorded : t.unrecorded = s.unrecorded)
    (hstates : ∀ sid, s.states sid = none → t.states sid = none)
    (hslot : ∀ sid, t.slot = some sid → s.slot = some sid)
    (hmarked : ∀ r, t.entry r = some .closing → t.Installed r →
      CloseCall.Holds { c with phase := phase } r ∨
        s.entry r = some .closing ∧ (c.Holds r → CloseCall.Holds { c with phase := phase } r)) :
    Guarded (t.setPhase i c phase) := by
  have hsession : ∀ r, t.session r = s.session r := by
    intro r
    cases r with
    | server => exact hhome
    | generation sid => rfl
  constructor
  case home =>
    show t.home ≤ t.epoch
    rw [hhome, hepoch]
    exact h.home
  case fresh =>
    intro sid hsid
    replace hsid : t.epoch < sid := hsid
    rw [hepoch] at hsid
    exact hstates sid (h.fresh sid hsid)
  case unrecorded =>
    show ∀ sid ∈ t.unrecorded, sid ≤ t.epoch
    rw [hunrecorded, hepoch]
    exact h.unrecorded
  case guard =>
    intro r hentry hinstalled
    have hct : t.calls[i]? = some c := by rw [hcalls]; exact hc
    have hentry : t.entry r = some .closing := by
      cases r with
      | server => exact hentry
      | generation sid => exact hentry
    have hinstalled : t.slot = some (t.session r) := by
      cases r with
      | server => exact hinstalled
      | generation sid => exact hinstalled
    obtain hself | ⟨hbefore, hkeep⟩ := hmarked r hentry hinstalled
    · exact closing_self hct hself
    · refine closing_setPhase hct hkeep ?_
      rw [hsession] at hinstalled
      obtain ⟨x, hx, hholds⟩ := h.guard r hbefore (hslot _ hinstalled)
      exact ⟨x, by rw [hcalls]; exact hx, hholds⟩

-- The same for a call that changes no entry and takes nothing off the slot.
private theorem Guarded.advance (h : Guarded s) (hc : s.calls[i]? = some c) {phase : ClosePhase}
    (hkeep : ∀ r, s.Installed r → c.Holds r → CloseCall.Holds { c with phase := phase } r) :
    Guarded (s.setPhase i c phase) :=
  h.move hc rfl rfl rfl rfl (fun _ ↦ id) (fun _ ↦ id) fun r hentry hinstalled ↦
    .inr ⟨hentry, hkeep r hinstalled⟩

private theorem Guarded.start (h : Guarded s) {stale : Bool} (hs : s.start i stale = some s') :
    Guarded s' := by
  unfold CloseState.start at hs
  split at hs
  next force sid hc =>
    simp only at hs
    split at hs
    next =>
      cases hs
      exact h.advance hc fun r _ hholds ↦ by cases r <;> simp [CloseCall.Holds] at hholds
    next =>
      split at hs
      next hmark =>
        cases hs
        refine h.move hc rfl rfl rfl rfl (fun _ ↦ id) (fun _ ↦ id) fun r hentry _ ↦ ?_
        cases r with
        | server => exact .inl ⟨rfl, trivial⟩
        | generation sid =>
          exact .inr ⟨hentry, fun hholds ↦ by simp [CloseCall.Holds] at hholds⟩
      next =>
        cases hs
        exact h.advance hc fun r _ hholds ↦ by cases r <;> simp [CloseCall.Holds] at hholds
  next closer home sid hc =>
    simp only at hs
    split at hs
    next hmark =>
      cases hs
      have hsome : s.states sid ≠ none := by
        intro hnone
        rw [hnone] at hmark
        cases hmark
      refine h.move hc rfl rfl rfl rfl (fun sid' hnone ↦ ?_) (fun _ ↦ id) fun r hentry _ ↦ ?_
      · have hne : sid' ≠ sid := by
          rintro rfl
          exact hsome hnone
        exact (Function.update_of_ne hne ..).trans hnone
      · cases r with
        | server => exact .inr ⟨hentry, fun hholds ↦ ⟨hholds.1, trivial⟩⟩
        | generation sid' =>
          by_cases heq : sid' = sid
          · subst heq
            exact .inl (.inl rfl)
          · refine .inr ⟨(Function.update_of_ne heq ..).symm.trans hentry, fun hholds ↦ ?_⟩
            simp [CloseCall.Holds] at hholds
    next =>
      cases hs
      refine h.advance hc fun r _ hholds ↦ ?_
      cases r with
      | server =>
        obtain ⟨hserver, -⟩ := hholds
        refine ⟨hserver, ?_⟩
        simp only [hserver, ↓reduceIte]
      | generation sid' => simp [CloseCall.Holds] at hholds
  next => cases hs

private theorem Guarded.notify (h : Guarded s) (hs : s.notify i = some s') : Guarded s' := by
  unfold CloseState.notify at hs
  split at hs
  next closer sid hc =>
    -- Only the server's record is held here, and it stays held.
    have hkeep : ∀ {phase r}, phase = .looking ∨ phase = .finishing →
        CloseCall.Holds ⟨closer, sid, .notifying⟩ r → CloseCall.Holds ⟨closer, sid, phase⟩ r := by
      intro phase r hphase hholds
      cases r with
      | server =>
        obtain rfl | rfl := hphase
        · exact ⟨hholds.1, trivial⟩
        · exact ⟨hholds.1, trivial⟩
      | generation sid' => simp [CloseCall.Holds] at hholds
    simp only at hs
    split at hs
    next =>
      split at hs
      next =>
        cases hs
        exact h.advance hc fun r _ ↦ hkeep (.inl rfl)
      next => cases hs
    next =>
      cases hs
      exact h.advance hc fun r _ ↦ hkeep (.inr rfl)
  next => cases hs

private theorem Guarded.look (h : Guarded s) (hs : s.look i = some s') : Guarded s' := by
  unfold CloseState.look at hs
  split at hs
  next closer home hc =>
    simp only at hs
    split at hs
    next sid hslot =>
      cases hs
      refine h.advance hc fun r _ hholds ↦ ?_
      cases r with
      | server => exact ⟨hholds.1, trivial⟩
      | generation sid' => simp [CloseCall.Holds] at hholds
    next =>
      cases hs
      refine h.advance hc fun r _ hholds ↦ ?_
      cases r with
      | server => exact ⟨hholds.1, trivial⟩
      | generation sid' => simp [CloseCall.Holds] at hholds
  next => cases hs

private theorem Guarded.take (h : Guarded s) (hs : s.take i = some s') : Guarded s' := by
  unfold CloseState.take at hs
  split at hs
  next closer home sid hc =>
    simp only at hs
    split at hs
    next =>
      cases hs
      refine h.move hc rfl rfl rfl rfl (fun _ ↦ id) (fun _ hslot ↦ ?_) fun r _ hinstalled ↦ ?_
      · cases hslot
      · cases hinstalled
    next hslot =>
      cases hs
      refine h.advance hc fun r hinstalled hholds ↦ ?_
      cases r with
      | server => exact ⟨hholds.1, trivial⟩
      | generation sid' =>
        -- The generation this call holds is not in the slot.
        simp only [CloseCall.Holds, ClosePhase.taking.injEq, reduceCtorEq, or_false] at hholds
        subst hholds
        exact absurd hinstalled hslot
  next => cases hs

private theorem Guarded.shut (h : Guarded s) (hs : s.shut i = some s') : Guarded s' := by
  unfold CloseState.shut at hs
  split at hs
  next closer home sid hc =>
    cases hs
    refine h.advance hc fun r hinstalled hholds ↦ ?_
    cases r with
    | server => exact ⟨hholds.1, trivial⟩
    | generation sid' =>
      simp only [CloseCall.Holds, ClosePhase.shutting.injEq, reduceCtorEq, or_false,
        false_or] at hholds
      subst hholds
      exact .inr (.inr rfl)
  next => cases hs

/-- A closed entry is not one that is closing. -/
theorem markClosed_ne (entry : Option ConnectionState) : markClosed entry ≠ some .closing := by
  cases entry with
  | none => simp [markClosed]
  | some state => simp [markClosed]

private theorem Guarded.mark (h : Guarded s) (hs : s.mark i = some s') : Guarded s' := by
  unfold CloseState.mark at hs
  split at hs
  next closer home sid hc =>
    cases hs
    refine h.move hc rfl rfl rfl rfl (fun sid' hnone ↦ ?_) (fun _ ↦ id) fun r hentry _ ↦ ?_
    · by_cases heq : sid' = sid
      · subst heq
        refine (Function.update_self ..).trans ?_
        rw [hnone]
        rfl
      · exact (Function.update_of_ne heq ..).trans hnone
    · cases r with
      | server => exact .inr ⟨hentry, fun hholds ↦ ⟨hholds.1, trivial⟩⟩
      | generation sid' =>
        by_cases heq : sid' = sid
        · subst heq
          exact absurd ((Function.update_self ..).symm.trans hentry) (markClosed_ne _)
        · refine .inr ⟨(Function.update_of_ne heq ..).symm.trans hentry, fun hholds ↦ ?_⟩
          simp only [CloseCall.Holds, ClosePhase.marking.injEq, reduceCtorEq, false_or] at hholds
          exact absurd hholds.symm heq
  next closer sid hc =>
    cases hs
    refine h.move hc rfl rfl rfl rfl (fun _ ↦ id) (fun _ ↦ id) fun r hentry _ ↦ ?_
    cases r with
    | server => exact absurd hentry (markClosed_ne _)
    | generation sid' => exact .inr ⟨hentry, fun hholds ↦ by simp [CloseCall.Holds] at hholds⟩
  next => cases hs

private theorem Guarded.remove (h : Guarded s) (hs : s.remove i = some s') : Guarded s' := by
  unfold CloseState.remove at hs
  split at hs
  next closer home sid hc =>
    cases hs
    refine h.move hc rfl rfl rfl rfl (fun sid' hnone ↦ ?_) (fun _ ↦ id) fun r hentry _ ↦ ?_
    · by_cases heq : sid' = sid
      · subst heq
        exact Function.update_self ..
      · exact (Function.update_of_ne heq ..).trans hnone
    · cases r with
      | server =>
        refine .inr ⟨hentry, fun hholds ↦ ⟨hholds.1, ?_⟩⟩
        have hserver : CloseCall.isServer ⟨closer, home, .removing sid⟩ = true := hholds.1
        simp only [hserver, ↓reduceIte]
      | generation sid' =>
        by_cases heq : sid' = sid
        · subst heq
          cases (Function.update_self ..).symm.trans hentry
        · refine .inr ⟨(Function.update_of_ne heq ..).symm.trans hentry, fun hholds ↦ ?_⟩
          simp [CloseCall.Holds] at hholds
  next closer sid hc =>
    cases hs
    refine h.move hc rfl rfl rfl rfl (fun _ ↦ id) (fun _ ↦ id) fun r hentry _ ↦ ?_
    cases r with
    | server => cases hentry
    | generation sid' => exact .inr ⟨hentry, fun hholds ↦ by simp [CloseCall.Holds] at hholds⟩
  next => cases hs

/-- Every step that drops no call in charge keeps the invariant. -/
theorem Guarded.step (h : Guarded s) {l : CloseLabel} (hkept : Kept s l)
    (hs : s.step l = some s') : Guarded s' := by
  -- A new call takes charge of nothing that is not in charge already.
  have hcall : ∀ c : CloseCall, Guarded { s with calls := s.calls ++ [c] } := by
    intro c
    refine ⟨h.home, h.fresh, h.unrecorded, fun r hentry hinstalled ↦ ?_⟩
    have hclosing : s.Closing r := by
      cases r with
      | server => exact h.guard _ hentry hinstalled
      | generation sid => exact h.guard _ hentry hinstalled
    obtain ⟨x, hx, hholds⟩ := hclosing
    exact ⟨x, List.mem_append.mpr (.inl hx), hholds⟩
  -- A call that is dropped holds nothing whose connection is installed.
  have hdrop : ∀ {i c phase}, s.calls[i]? = some c → (∀ r, c.Holds r → ¬ s.Installed r) →
      Guarded (s.setPhase i c phase) :=
    fun hc hfree ↦ h.advance hc fun r hinstalled hholds ↦ absurd hinstalled (hfree r hholds)
  cases l with
  | call closer sid =>
    cases closer with
    | server force =>
      cases hs
      exact hcall _
    | transport force =>
      cases hs
      exact hcall _
    | retire =>
      simp only [CloseState.step] at hs
      split at hs
      next =>
        cases hs
        exact hcall _
      next => cases hs
  | start i stale => exact h.start hs
  | notify i => exact h.notify hs
  | look i => exact h.look hs
  | take i => exact h.take hs
  | shut i => exact h.shut hs
  | mark i => exact h.mark hs
  | remove i => exact h.remove hs
  | timeout i =>
    simp only [CloseState.step, CloseState.timeout] at hs
    split at hs
    next c hc =>
      split at hs
      next =>
        cases hs
        exact hdrop hc (hkept c hc)
      next => cases hs
    next => cases hs
  | drop i =>
    simp only [CloseState.step, CloseState.drop] at hs
    split at hs
    next c hc =>
      split at hs
      next =>
        cases hs
        exact hdrop hc (hkept c hc)
      next => cases hs
    next => cases hs
  | mailbox receiving room =>
    cases hs
    refine ⟨h.home, h.fresh, h.unrecorded, fun r hentry hinstalled ↦ ?_⟩
    cases r with
    | server => exact h.guard .server hentry hinstalled
    | generation sid => exact h.guard (.generation sid) hentry hinstalled
  | setConnection =>
    cases hs
    refine ⟨Nat.le_succ_of_le h.home, fun sid hsid ↦ h.fresh sid (Nat.lt_of_succ_lt hsid), ?_, ?_⟩
    · intro sid hsid
      obtain rfl | hsid := List.mem_cons.mp hsid
      · exact Nat.le_refl _
      · exact Nat.le_succ_of_le (h.unrecorded sid hsid)
    · -- The generation in the slot is new, so nothing is recorded about it.
      intro r hentry hinstalled
      cases r with
      | server =>
        have heq : s.epoch + 1 = s.home := Option.some.inj hinstalled
        exact absurd (heq ▸ h.home) (Nat.not_succ_le_self _)
      | generation sid =>
        have heq : s.epoch + 1 = sid := Option.some.inj hinstalled
        have hnone : s.states sid = none := h.fresh sid (heq ▸ Nat.lt_succ_self _)
        cases hnone.symm.trans hentry
  | addConnection sid =>
    simp only [CloseState.step] at hs
    split at hs
    next hmem =>
      cases hs
      refine ⟨h.home, fun sid' hsid ↦ ?_, fun sid' hsid ↦ ?_, fun r hentry hinstalled ↦ ?_⟩
      · have hle := h.unrecorded sid hmem
        have hlt : s.epoch < sid' := hsid
        have hne : sid' ≠ sid := Nat.ne_of_gt (Nat.lt_of_le_of_lt hle hlt)
        exact (Function.update_of_ne hne ..).trans (h.fresh sid' hlt)
      · exact h.unrecorded sid' (List.mem_of_mem_erase hsid)
      · cases r with
        | server => exact h.guard .server hentry hinstalled
        | generation sid' =>
          by_cases heq : sid' = sid
          · subst heq
            cases (Function.update_self ..).symm.trans hentry
          · have hbefore := (Function.update_of_ne heq ..).symm.trans hentry
            exact h.guard (.generation sid') hbefore hinstalled
    next => cases hs
  | unmap =>
    cases hs
    refine ⟨h.home, h.fresh, h.unrecorded, fun r hentry hinstalled ↦ ?_⟩
    cases r with
    | server => exact h.guard .server hentry hinstalled
    | generation sid => exact h.guard (.generation sid) hentry hinstalled
  | forget =>
    cases hs
    refine ⟨h.home, h.fresh, h.unrecorded, fun r hentry hinstalled ↦ ?_⟩
    cases r with
    | server => cases hentry
    | generation sid => exact h.guard (.generation sid) hentry hinstalled

end Step

end MsgTrans.Transport
