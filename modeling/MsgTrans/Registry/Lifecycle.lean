import MsgTrans.Registry.Specs

/-!
# Request registry: the lifecycle of a registration

What the token rules keep true of the entry map, the state atomics, the gauge and the totals,
whatever the callers do. The heart of it is one equation: the ended registrations that are
still in the map are exactly those whose winners have not removed them yet.
-/

namespace MsgTrans.Registry

open MsgTrans.Base MsgTrans.Wire

/-- The call, its right and the registration, for a step that ended one. -/
def Event.ended? : Event → Option (Nat × Caller × RequestToken)
  | .transition call caller token _ target =>
    if target.terminal then some (call, caller, token) else none
  | _ => none

/-- The call, its right and the registration, for a step that took one out of the map. -/
def Event.removed? : Event → Option (Nat × Caller × RequestToken)
  | .removed call caller token => some (call, caller, token)
  | _ => none

/-- The events a total counts: ends as `TimedOut`, ends as `SendFailed`, and ends by the drain
of a session close. -/
def Counter.counts : Counter → Event → Bool
  | .requestTimeout, .transition _ _ _ _ target => target = .timedOut
  | .responseSendFailed, .transition _ _ _ _ target => target = .sendFailed
  | .sessionClosedPending, .transition _ caller _ _ target => caller = .drain && target.terminal
  | _, _ => false

/-- Who ended which registration. -/
def endedBy (history : List Event) : Multiset (Nat × Caller × RequestToken) :=
  history.filterMap Event.ended?

/-- Who took which registration out of the map. -/
def removedBy (history : List Event) : Multiset (Nat × Caller × RequestToken) :=
  history.filterMap Event.removed?

/-- The value of a total. -/
def RequestCounters.total (c : RequestCounters) : Counter → Nat
  | .requestTimeout => c.requestTimeoutTotal
  | .duplicateResponse => c.duplicateResponseTotal
  | .sessionClosedPending => c.sessionClosedPendingTotal
  | .responseSendFailed => c.responseSendFailedTotal

/-- The registrations in the map. -/
def State.regs (s : State) : Multiset RequestToken := (Table.values s.entries).map RequestEntry.token

/-- The registration has ended. -/
def State.ended (s : State) (token : RequestToken) : Bool :=
  match s.cells token with
  | some state => state.terminal
  | none => false

theorem State.ended_of_cell {s : State} {token : RequestToken} {state : RequestState}
    (h : s.cells token = some state) : s.ended token = state.terminal := by
  simp [State.ended, h]

namespace Tok

/-- The winner of an ended registration that is still in the map. -/
def owner? : Tok → Option (Nat × Caller × RequestToken)
  | won call caller token | subbed call caller token => some (call, caller, token)
  | _ => none

/-- An ended registration that is off the gauge and still in the map. -/
def subbed? : Tok → Option RequestToken
  | subbed _ _ token => some token
  | _ => none

/-- A place on the gauge without an entry. -/
def added? : Tok → Option Unit
  | added => some ()
  | _ => none

/-- A generation that was drawn and not used. -/
def fresh? : Tok → Option Nat
  | fresh generation => some generation
  | _ => none

/-- An increment due on a total. -/
def owes? (counter : Counter) : Tok → Option Unit
  | owes c => if c = counter then some () else none
  | _ => none

end Tok

/-- What the tokens of all calls say about the entry map, the gauge and the totals. -/
structure Books where
  owners : Multiset (Nat × Caller × RequestToken)
  subbed : Nat
  added : Nat
  fresh : Multiset Nat
  owed : Counter → Nat

/-- The books of a multiset of tokens. -/
def books (D : Multiset Tok) : Books where
  owners := part Tok.owner? D
  subbed := (part Tok.subbed? D).card
  added := (part Tok.added? D).card
  fresh := part Tok.fresh? D
  owed := fun c ↦ (part (Tok.owes? c) D).card

/-- The invariant of the entry map, the gauge and the totals. -/
structure Core (s : State) (b : Books) : Prop where
  key_eq : ∀ key entry, s.entries.lookup key = some entry → entry.key = key
  registered : ∀ token ∈ s.regs, (s.cells token).isSome = true
  live : ∀ token state, s.cells token = some state → state.terminal = false → token ∈ s.regs
  owners_eq : b.owners.map (fun o ↦ o.2.2) = s.regs.filter fun token ↦ s.ended token = true
  gauge : s.counters.pendingRequests + b.subbed = s.regs.card + b.added
  generation_lt : ∀ token, (s.cells token).isSome = true → token.generation < s.nextGeneration
  fresh_lt : ∀ g ∈ b.fresh, g < s.nextGeneration
  fresh_unused : ∀ g ∈ b.fresh, ∀ token : RequestToken, token.generation = g →
    s.cells token = none
  fresh_nodup : b.fresh.Nodup
  balance : endedBy s.history = removedBy s.history + b.owners
  ended_iff : ∀ token, token ∈ (endedBy s.history).map (fun o ↦ o.2.2) ↔ s.ended token = true
  ended_nodup : ((endedBy s.history).map fun o ↦ o.2.2).Nodup
  totals : ∀ c, c ≠ .duplicateResponse →
    s.counters.total c + b.owed c = s.history.countP c.counts

/-- The event concerns neither the end of a registration nor its removal. -/
def Event.silent : Event → Bool
  | .transition _ _ _ _ target => !target.terminal
  | .removed .. => false
  | _ => true

section History

variable {h es : List Event}

theorem endedBy_append (h es : List Event) : endedBy (h ++ es) = endedBy h + endedBy es := by
  rw [endedBy, List.filterMap_append, ← Multiset.coe_add]
  rfl

theorem removedBy_append (h es : List Event) :
    removedBy (h ++ es) = removedBy h + removedBy es := by
  rw [removedBy, List.filterMap_append, ← Multiset.coe_add]
  rfl

private theorem endedBy_singleton {e : Event} {o : Nat × Caller × RequestToken}
    (he : e.ended? = some o) : endedBy [e] = {o} := by
  rw [endedBy, List.filterMap_cons_some he, List.filterMap_nil]
  rfl

private theorem endedBy_none {e : Event} (he : e.ended? = none) : endedBy [e] = 0 := by
  rw [endedBy, List.filterMap_cons_none he, List.filterMap_nil]
  rfl

private theorem removedBy_none {e : Event} (he : e.removed? = none) : removedBy [e] = 0 := by
  rw [removedBy, List.filterMap_cons_none he, List.filterMap_nil]
  rfl

private theorem Event.silent_ended {e : Event} (he : e.silent = true) : e.ended? = none := by
  cases e with
  | transition call caller token source target => cases target <;> first | rfl | cases he
  | _ => rfl

private theorem Event.silent_removed {e : Event} (he : e.silent = true) : e.removed? = none := by
  cases e with
  | removed => cases he
  | _ => rfl

private theorem Event.silent_counts {e : Event} (he : e.silent = true) (c : Counter) :
    c.counts e = false := by
  cases e with
  | transition call caller token source target =>
    cases target <;> cases c <;> first | rfl | (cases caller <;> rfl) | cases he
  | _ => cases c <;> rfl

private theorem endedBy_silent (hes : ∀ e ∈ es, e.silent = true) : endedBy es = 0 := by
  rw [endedBy, Multiset.coe_eq_zero, List.filterMap_eq_nil_iff]
  exact fun e he ↦ Event.silent_ended (hes e he)

private theorem removedBy_silent (hes : ∀ e ∈ es, e.silent = true) : removedBy es = 0 := by
  rw [removedBy, Multiset.coe_eq_zero, List.filterMap_eq_nil_iff]
  exact fun e he ↦ Event.silent_removed (hes e he)

private theorem countP_silent (hes : ∀ e ∈ es, e.silent = true) (c : Counter) :
    es.countP c.counts = 0 := by
  rw [List.countP_eq_zero]
  intro e he
  rw [Event.silent_counts (hes e he)]
  decide

end History

section Core

variable {s s' : State} {b : Books}

theorem mem_regs {token : RequestToken} :
    token ∈ s.regs ↔ ∃ key entry, s.entries.lookup key = some entry ∧ entry.token = token := by
  simp only [State.regs, Multiset.mem_map, Table.mem_values]
  constructor
  · rintro ⟨entry, ⟨key, hkey⟩, rfl⟩
    exact ⟨key, entry, hkey, rfl⟩
  · rintro ⟨key, entry, hkey, rfl⟩
    exact ⟨entry, ⟨key, hkey⟩, rfl⟩

/-- A registration in the map is found under its key. -/
theorem Core.lookup_of_mem (h : Core s b) {token : RequestToken} (hmem : token ∈ s.regs) :
    ∃ entry, s.entries.lookup token.key = some entry ∧ entry.token = token := by
  obtain ⟨key, entry, hlookup, rfl⟩ := mem_regs.mp hmem
  have hkey := h.key_eq key entry hlookup
  refine ⟨entry, ?_, rfl⟩
  rwa [RequestEntry.key_token, hkey]

/-- An operation that touches nothing the invariant is about. -/
theorem Core.frame (h : Core s b) {es : List Event} (hentries : s'.entries = s.entries)
    (hcells : s'.cells = s.cells) (hcounters : s'.counters = s.counters)
    (hgen : s'.nextGeneration = s.nextGeneration) (hhist : s'.history = s.history ++ es)
    (hes : ∀ e ∈ es, e.silent = true) : Core s' b := by
  have hregs : s'.regs = s.regs := by rw [State.regs, State.regs, hentries]
  have hended : s'.ended = s.ended := by
    funext token
    rw [State.ended, State.ended, hcells]
  have hendedBy : endedBy s'.history = endedBy s.history := by
    rw [hhist, endedBy_append, endedBy_silent hes, add_zero]
  have hremovedBy : removedBy s'.history = removedBy s.history := by
    rw [hhist, removedBy_append, removedBy_silent hes, add_zero]
  have hcount : ∀ c : Counter, s'.history.countP c.counts = s.history.countP c.counts := by
    intro c
    rw [hhist, List.countP_append, countP_silent hes, Nat.add_zero]
  constructor
  case fresh_nodup => exact h.fresh_nodup
  all_goals simp only [hentries, hcells, hcounters, hgen, hregs, hended, hendedBy, hremovedBy,
    hcount]
  exacts [h.key_eq, h.registered, h.live, h.owners_eq, h.gauge, h.generation_lt, h.fresh_lt,
    h.fresh_unused, h.balance, h.ended_iff, h.ended_nodup, h.totals]

/-- A drawn generation that is given up is forgotten. -/
theorem Core.forget (h : Core s b) {fr : Multiset Nat} (hfr : fr ≤ b.fresh) :
    Core s { b with fresh := fr } where
  key_eq := h.key_eq
  registered := h.registered
  live := h.live
  owners_eq := h.owners_eq
  gauge := h.gauge
  generation_lt := h.generation_lt
  fresh_lt := fun g hg ↦ h.fresh_lt g (Multiset.mem_of_le hfr hg)
  fresh_unused := fun g hg ↦ h.fresh_unused g (Multiset.mem_of_le hfr hg)
  fresh_nodup := Multiset.nodup_of_le hfr h.fresh_nodup
  balance := h.balance
  ended_iff := h.ended_iff
  ended_nodup := h.ended_nodup
  totals := h.totals

/-- Drawing a generation. -/
theorem Core.nextGeneration (h : Core s b) :
    Core { s with nextGeneration := s.nextGeneration + 1 }
      { b with fresh := s.nextGeneration ::ₘ b.fresh } where
  key_eq := h.key_eq
  registered := h.registered
  live := h.live
  owners_eq := h.owners_eq
  gauge := h.gauge
  generation_lt := fun token ht ↦ Nat.lt_succ_of_lt (h.generation_lt token ht)
  fresh_lt := by
    intro g hg
    obtain rfl | hg := Multiset.mem_cons.mp hg
    · exact Nat.lt_succ_self _
    · exact Nat.lt_succ_of_lt (h.fresh_lt g hg)
  fresh_unused := by
    intro g hg token hgen
    obtain rfl | hg := Multiset.mem_cons.mp hg
    · by_contra hne
      have hlt := h.generation_lt token (Option.isSome_iff_ne_none.mpr hne)
      omega
    · exact h.fresh_unused g hg token hgen
  fresh_nodup := by
    refine Multiset.nodup_cons.mpr ⟨fun hmem ↦ ?_, h.fresh_nodup⟩
    exact Nat.lt_irrefl _ (h.fresh_lt _ hmem)
  balance := h.balance
  ended_iff := h.ended_iff
  ended_nodup := h.ended_nodup
  totals := h.totals

/-- A change of the counters that keeps the gauge and the totals in balance. -/
theorem Core.counters (h : Core s b) {c : RequestCounters} {added subbed : Nat}
    {owed : Counter → Nat} (hgauge : c.pendingRequests + subbed = s.regs.card + added)
    (htotals : ∀ k, k ≠ .duplicateResponse → c.total k + owed k = s.counters.total k + b.owed k) :
    Core { s with counters := c }
      { b with added := added, subbed := subbed, owed := owed } where
  key_eq := h.key_eq
  registered := h.registered
  live := h.live
  owners_eq := h.owners_eq
  gauge := hgauge
  generation_lt := h.generation_lt
  fresh_lt := h.fresh_lt
  fresh_unused := h.fresh_unused
  fresh_nodup := h.fresh_nodup
  balance := h.balance
  ended_iff := h.ended_iff
  ended_nodup := h.ended_nodup
  totals := fun k hk ↦ (htotals k hk).trans (h.totals k hk)

/-- The gauge counts at least the winners that have not left it. -/
theorem Core.owners_le (h : Core s b) : b.owners.card ≤ s.regs.card := by
  calc b.owners.card = (b.owners.map fun o ↦ o.2.2).card := (Multiset.card_map _ _).symm
    _ = (s.regs.filter fun token ↦ s.ended token = true).card := by rw [h.owners_eq]
    _ ≤ s.regs.card := Multiset.card_le_card (Multiset.filter_le _ _)

/-- A registration enters the map. -/
theorem Core.insert (h : Core s b) {entry : RequestEntry} {fr : Multiset Nat} {added : Nat}
    {es : List Event} (hvacant : s.entries.lookup entry.key = none)
    (hfresh : b.fresh = entry.generation ::ₘ fr) (hadded : b.added = added + 1)
    (hentries : s'.entries = s.entries.insert entry.key entry)
    (hcells : s'.cells = Function.update s.cells entry.token (some .pending))
    (hcounters : s'.counters = s.counters) (hgen : s'.nextGeneration = s.nextGeneration)
    (hhist : s'.history = s.history ++ es) (hes : ∀ e ∈ es, e.silent = true) :
    Core s' { b with fresh := fr, added := added } := by
  have hfr : fr ≤ b.fresh := hfresh ▸ Multiset.le_cons_self fr entry.generation
  have hmem : entry.generation ∈ b.fresh := hfresh ▸ Multiset.mem_cons_self _ _
  have hnone : s.cells entry.token = none := h.fresh_unused _ hmem entry.token rfl
  have hregs : s'.regs = entry.token ::ₘ s.regs := by
    rw [State.regs, hentries, Table.values_insert entry hvacant, Multiset.map_cons]
    rfl
  have hcell : ∀ token, token ≠ entry.token → s'.cells token = s.cells token := by
    intro token hne
    rw [hcells, Function.update_of_ne hne]
  have hself : s'.cells entry.token = some .pending := by rw [hcells, Function.update_self]
  have hended : s'.ended = s.ended := by
    funext token
    by_cases heq : token = entry.token
    · rw [heq, State.ended, State.ended, hself, hnone]
      rfl
    · rw [State.ended, State.ended, hcell token heq]
  have hendedBy : endedBy s'.history = endedBy s.history := by
    rw [hhist, endedBy_append, endedBy_silent hes, add_zero]
  have hremovedBy : removedBy s'.history = removedBy s.history := by
    rw [hhist, removedBy_append, removedBy_silent hes, add_zero]
  have hfalse : s.ended entry.token = false := by rw [State.ended, hnone]
  constructor
  case key_eq =>
    intro key e he
    rw [hentries] at he
    by_cases heq : key = entry.key
    · subst heq
      rw [AList.lookup_insert] at he
      rw [← Option.some.inj he]
    · rw [AList.lookup_insert_ne heq] at he
      exact h.key_eq key e he
  case registered =>
    intro token hmem
    rw [hregs, Multiset.mem_cons] at hmem
    by_cases heq : token = entry.token
    · rw [heq, hself]
      rfl
    · rw [hcell token heq]
      exact h.registered token (hmem.resolve_left heq)
  case live =>
    intro token state hstate hlive
    rw [hregs, Multiset.mem_cons]
    by_cases heq : token = entry.token
    · exact .inl heq
    · rw [hcell token heq] at hstate
      exact .inr (h.live token state hstate hlive)
  case owners_eq =>
    rw [hregs, hended, Multiset.filter_cons_of_neg]
    · exact h.owners_eq
    · rw [hfalse]
      decide
  case gauge =>
    have hgauge := h.gauge
    rw [hadded] at hgauge
    rw [hcounters, hregs, Multiset.card_cons]
    show _ + b.subbed = _ + added
    omega
  case generation_lt =>
    intro token hsome
    rw [hgen]
    by_cases heq : token = entry.token
    · rw [heq]
      exact h.fresh_lt _ hmem
    · rw [hcell token heq] at hsome
      exact h.generation_lt token hsome
  case fresh_lt =>
    rw [hgen]
    exact fun g hg ↦ h.fresh_lt g (Multiset.mem_of_le hfr hg)
  case fresh_unused =>
    intro g hg token hgen'
    have hnodup := h.fresh_nodup
    rw [hfresh, Multiset.nodup_cons] at hnodup
    have hne : token ≠ entry.token := by
      rintro rfl
      rw [RequestEntry.generation_token] at hgen'
      exact hnodup.1 (hgen' ▸ hg)
    rw [hcell token hne]
    exact h.fresh_unused g (Multiset.mem_of_le hfr hg) token hgen'
  case fresh_nodup => exact Multiset.nodup_of_le hfr h.fresh_nodup
  case balance =>
    rw [hendedBy, hremovedBy]
    exact h.balance
  case ended_iff =>
    rw [hendedBy, hended]
    exact h.ended_iff
  case ended_nodup =>
    rw [hendedBy]
    exact h.ended_nodup
  case totals =>
    intro c hc
    rw [hcounters, hhist, List.countP_append, countP_silent hes, Nat.add_zero]
    exact h.totals c hc

/-- A live registration changes between live states. -/
theorem Core.claim (h : Core s b) {token : RequestToken} {source target : RequestState}
    {es : List Event} (hcell : s.cells token = some source) (hsource : source.terminal = false)
    (htarget : target.terminal = false) (hentries : s'.entries = s.entries)
    (hcells : s'.cells = Function.update s.cells token (some target))
    (hcounters : s'.counters = s.counters) (hgen : s'.nextGeneration = s.nextGeneration)
    (hhist : s'.history = s.history ++ es) (hes : ∀ e ∈ es, e.silent = true) : Core s' b := by
  have hself : s'.cells token = some target := by rw [hcells, Function.update_self]
  have hother : ∀ u, u ≠ token → s'.cells u = s.cells u := by
    intro u hne
    rw [hcells, Function.update_of_ne hne]
  have hregs : s'.regs = s.regs := by rw [State.regs, State.regs, hentries]
  have hended : s'.ended = s.ended := by
    funext u
    by_cases heq : u = token
    · rw [heq, State.ended_of_cell hself, State.ended_of_cell hcell, hsource, htarget]
    · rw [State.ended, State.ended, hother u heq]
  have hsome : ∀ u, (s'.cells u).isSome = (s.cells u).isSome := by
    intro u
    by_cases heq : u = token
    · rw [heq, hself, hcell]
      rfl
    · rw [hother u heq]
  have hendedBy : endedBy s'.history = endedBy s.history := by
    rw [hhist, endedBy_append, endedBy_silent hes, add_zero]
  have hremovedBy : removedBy s'.history = removedBy s.history := by
    rw [hhist, removedBy_append, removedBy_silent hes, add_zero]
  constructor
  case key_eq =>
    rw [hentries]
    exact h.key_eq
  case registered =>
    rw [hregs]
    exact fun u hu ↦ (hsome u).trans (h.registered u hu)
  case live =>
    intro u state hu hlive
    rw [hregs]
    by_cases heq : u = token
    · rw [heq]
      exact h.live token source hcell hsource
    · rw [hother u heq] at hu
      exact h.live u state hu hlive
  case owners_eq =>
    rw [hended, hregs]
    exact h.owners_eq
  case gauge =>
    rw [hcounters, hregs]
    exact h.gauge
  case generation_lt =>
    rw [hgen]
    exact fun u hu ↦ h.generation_lt u ((hsome u).symm.trans hu)
  case fresh_lt =>
    rw [hgen]
    exact h.fresh_lt
  case fresh_unused =>
    intro g hg u hgen'
    have hnone := h.fresh_unused g hg u hgen'
    rw [← Option.not_isSome_iff_eq_none] at hnone ⊢
    rwa [hsome u]
  case fresh_nodup => exact h.fresh_nodup
  case balance =>
    rw [hendedBy, hremovedBy]
    exact h.balance
  case ended_iff =>
    rw [hended, hendedBy]
    exact h.ended_iff
  case ended_nodup =>
    rw [hendedBy]
    exact h.ended_nodup
  case totals =>
    intro c hc
    rw [hcounters, hhist, List.countP_append, countP_silent hes, Nat.add_zero]
    exact h.totals c hc

private theorem filter_ended_cons {R : Multiset RequestToken} {f g : RequestToken → Bool}
    {token : RequestToken} (hR : R.Nodup) (hmem : token ∈ R) (hf : f token = false)
    (hg : g token = true) (hother : ∀ u, u ≠ token → g u = f u) :
    R.filter (fun u ↦ g u = true) = token ::ₘ R.filter fun u ↦ f u = true := by
  obtain ⟨R', rfl⟩ := Multiset.exists_cons_of_mem hmem
  have hnotin := (Multiset.nodup_cons.mp hR).1
  rw [Multiset.filter_cons_of_pos R' hg, Multiset.filter_cons_of_neg R' (by simp [hf])]
  congr 1
  apply Multiset.filter_congr
  intro u hu
  rw [hother u fun heq ↦ hnotin (heq ▸ hu)]

/-- The map holds a registration once. -/
theorem Core.regs_nodup (h : Core s b) : s.regs.Nodup := by
  have hkeys : (s.entries.entries.map Sigma.fst).Nodup := s.entries.keys_nodup
  have hmap : s.regs.map RequestToken.key = (s.entries.entries.map Sigma.fst : List RequestKey) := by
    rw [State.regs, Multiset.map_map, Table.values, Multiset.map_coe, List.map_map]
    congr 1
    apply List.map_congr_left
    rintro ⟨key, entry⟩ hmem
    have hlookup : s.entries.lookup key = some entry := AList.mem_lookup_iff.mpr hmem
    simp only [Function.comp_apply, RequestEntry.key_token]
    exact h.key_eq key entry hlookup
  apply Multiset.Nodup.of_map RequestToken.key
  rw [hmap]
  exact Multiset.coe_nodup.mpr hkeys

/-- A live registration ends; its winner owes the removal and the totals. -/
theorem Core.win (h : Core s b) {token : RequestToken} {source target : RequestState}
    {call : Nat} {caller : Caller} {owed : Counter → Nat} (hcell : s.cells token = some source)
    (hsource : source.terminal = false) (htarget : target.terminal = true)
    (hentries : s'.entries = s.entries)
    (hcells : s'.cells = Function.update s.cells token (some target))
    (hcounters : s'.counters = s.counters) (hgen : s'.nextGeneration = s.nextGeneration)
    (hhist : s'.history = s.history ++ [Event.transition call caller token source target])
    (howed : ∀ c, c ≠ .duplicateResponse → owed c = b.owed c +
      [Event.transition call caller token source target].countP c.counts) :
    Core s' { b with owners := (call, caller, token) ::ₘ b.owners, owed := owed } := by
  have hself : s'.cells token = some target := by rw [hcells, Function.update_self]
  have hother : ∀ u, u ≠ token → s'.cells u = s.cells u := by
    intro u hne
    rw [hcells, Function.update_of_ne hne]
  have hregs : s'.regs = s.regs := by rw [State.regs, State.regs, hentries]
  have hafter : s'.ended token = true := by rw [State.ended_of_cell hself, htarget]
  have hbefore : s.ended token = false := by rw [State.ended_of_cell hcell, hsource]
  have hsame : ∀ u, u ≠ token → s'.ended u = s.ended u := by
    intro u hne
    rw [State.ended, State.ended, hother u hne]
  have hmem : token ∈ s.regs := h.live token source hcell hsource
  have hsome : ∀ u, (s'.cells u).isSome = (s.cells u).isSome := by
    intro u
    by_cases heq : u = token
    · rw [heq, hself, hcell]
      rfl
    · rw [hother u heq]
  have hendedBy : endedBy s'.history = (call, caller, token) ::ₘ endedBy s.history := by
    have hevent : (Event.transition call caller token source target).ended? =
        some (call, caller, token) := by simp [Event.ended?, htarget]
    rw [hhist, endedBy_append, endedBy_singleton hevent, add_comm, Multiset.singleton_add]
  have hremovedBy : removedBy s'.history = removedBy s.history := by
    rw [hhist, removedBy_append, removedBy_none rfl, add_zero]
  constructor
  case key_eq =>
    rw [hentries]
    exact h.key_eq
  case registered =>
    rw [hregs]
    exact fun u hu ↦ (hsome u).trans (h.registered u hu)
  case live =>
    intro u state hu hlive
    rw [hregs]
    by_cases heq : u = token
    · exact heq ▸ hmem
    · rw [hother u heq] at hu
      exact h.live u state hu hlive
  case owners_eq =>
    rw [hregs, filter_ended_cons h.regs_nodup hmem hbefore hafter hsame, ← h.owners_eq]
    exact Multiset.map_cons _ _ _
  case gauge =>
    rw [hcounters, hregs]
    exact h.gauge
  case generation_lt =>
    rw [hgen]
    exact fun u hu ↦ h.generation_lt u ((hsome u).symm.trans hu)
  case fresh_lt =>
    rw [hgen]
    exact h.fresh_lt
  case fresh_unused =>
    intro g hg u hgen'
    have hnone := h.fresh_unused g hg u hgen'
    rw [← Option.not_isSome_iff_eq_none] at hnone ⊢
    rwa [hsome u]
  case fresh_nodup => exact h.fresh_nodup
  case balance =>
    rw [hendedBy, hremovedBy, h.balance]
    exact (Multiset.add_cons _ _ _).symm
  case ended_iff =>
    intro u
    rw [hendedBy, Multiset.map_cons, Multiset.mem_cons]
    by_cases heq : u = token
    · rw [heq, hafter]
      simp
    · rw [hsame u heq, ← h.ended_iff u]
      simp [heq]
  case ended_nodup =>
    rw [hendedBy, Multiset.map_cons, Multiset.nodup_cons]
    refine ⟨?_, h.ended_nodup⟩
    rw [h.ended_iff token, hbefore]
    decide
  case totals =>
    intro c hc
    have htotal := h.totals c hc
    have hdue := howed c hc
    rw [hcounters, hhist, List.countP_append]
    show s.counters.total c + owed c = _
    omega

/-- The winner takes its registration out of the map, and no other one. -/
theorem Core.remove (h : Core s b) {token : RequestToken} {call : Nat} {caller : Caller}
    {owners : Multiset (Nat × Caller × RequestToken)} {subbed : Nat}
    (howners : b.owners = (call, caller, token) ::ₘ owners) (hsubbed : b.subbed = subbed + 1) :
    Core (s.entriesRemove call caller token.key) { b with owners := owners, subbed := subbed } := by
  have howner : token ∈ b.owners.map fun o ↦ o.2.2 := by
    rw [howners, Multiset.map_cons]
    exact Multiset.mem_cons_self _ _
  rw [h.owners_eq, Multiset.mem_filter] at howner
  obtain ⟨hmem, hended⟩ := howner
  obtain ⟨entry, hlookup, rfl⟩ := h.lookup_of_mem hmem
  have hregs : s.regs = entry.token ::ₘ
      (Table.values (s.entries.erase entry.token.key)).map RequestEntry.token := by
    rw [State.regs, Table.values_erase hlookup, Multiset.map_cons]
  have hs' : s.entriesRemove call caller entry.token.key =
      { s with entries := s.entries.erase entry.token.key }.record
        (.removed call caller entry.token) := by
    rw [State.entriesRemove, hlookup]
  generalize s.entriesRemove call caller entry.token.key = s' at hs' ⊢
  have hentries : s'.entries = s.entries.erase entry.token.key := by rw [hs']; rfl
  have hcells : s'.cells = s.cells := by rw [hs']; rfl
  have hcounters : s'.counters = s.counters := by rw [hs']; rfl
  have hgen : s'.nextGeneration = s.nextGeneration := by rw [hs']; rfl
  have hhist : s'.history = s.history ++ [Event.removed call caller entry.token] := by rw [hs']; rfl
  have hregs' : s.regs = entry.token ::ₘ s'.regs := by rw [hregs, State.regs, hentries]
  have hended' : s'.ended = s.ended := by
    funext u
    rw [State.ended, State.ended, hcells]
  have hendedBy : endedBy s'.history = endedBy s.history := by
    rw [hhist, endedBy_append, endedBy_none rfl, add_zero]
  constructor
  case key_eq =>
    intro key e he
    rw [hentries] at he
    have hne : key ≠ entry.token.key := by
      rintro rfl
      rw [AList.lookup_erase] at he
      cases he
    rw [AList.lookup_erase_ne hne] at he
    exact h.key_eq key e he
  case registered =>
    intro u hu
    rw [hcells]
    exact h.registered u (hregs' ▸ Multiset.mem_cons_of_mem hu)
  case live =>
    intro u state hu hlive
    rw [hcells] at hu
    have hmem' := h.live u state hu hlive
    rw [hregs', Multiset.mem_cons] at hmem'
    refine hmem'.resolve_left ?_
    rintro rfl
    rw [State.ended_of_cell hu, hlive] at hended
    cases hended
  case owners_eq =>
    have howners_eq := h.owners_eq
    rw [howners, Multiset.map_cons, hregs',
      Multiset.filter_cons_of_pos (p := fun u ↦ s.ended u = true) _ hended] at howners_eq
    rw [hended']
    exact (Multiset.cons_inj_right _).mp howners_eq
  case gauge =>
    have hgauge := h.gauge
    rw [hregs', Multiset.card_cons, hsubbed] at hgauge
    rw [hcounters]
    show s.counters.pendingRequests + subbed = s'.regs.card + b.added
    omega
  case generation_lt =>
    rw [hcells, hgen]
    exact h.generation_lt
  case fresh_lt =>
    rw [hgen]
    exact h.fresh_lt
  case fresh_unused =>
    rw [hcells]
    exact h.fresh_unused
  case fresh_nodup => exact h.fresh_nodup
  case balance =>
    have hremoved : removedBy [Event.removed call caller entry.token] =
        {(call, caller, entry.token)} := rfl
    rw [hendedBy, h.balance, howners, hhist, removedBy_append, hremoved, add_assoc,
      Multiset.singleton_add]
  case ended_iff =>
    rw [hendedBy, hended']
    exact h.ended_iff
  case ended_nodup =>
    rw [hendedBy]
    exact h.ended_nodup
  case totals =>
    intro c hc
    have hnone : [Event.removed call caller entry.token].countP c.counts = 0 := by
      cases c <;> rfl
    rw [hcounters, hhist, List.countP_append, hnone, Nat.add_zero]
    exact h.totals c hc

end Core

section Recorded

variable {F : Multiset Tok} {call : Nat} {caller : Caller} {token : RequestToken}

/-- One more token adds to each part of the books what that part reads off it. -/
private theorem books_add (x : Tok) : books ({x} + F) =
    { owners := part Tok.owner? {x} + (books F).owners
      subbed := (part Tok.subbed? {x}).card + (books F).subbed
      added := (part Tok.added? {x}).card + (books F).added
      fresh := part Tok.fresh? {x} + (books F).fresh
      owed := fun c ↦ (part (Tok.owes? c) {x}).card + (books F).owed c } := by
  simp only [books, part_add, Multiset.card_add]

/-- A winner owns the registration it ended. -/
private theorem books_winner : books ({Tok.won call caller token} + F) =
    { books F with owners := (call, caller, token) ::ₘ (books F).owners } := by
  rw [books_add]
  show Books.mk ({_} + _) (0 + _) (0 + _) (0 + _) (fun _ ↦ 0 + _) = _
  simp only [Multiset.singleton_add, zero_add]

/-- A winner off the gauge still owns its registration. -/
private theorem books_subbed : books ({Tok.subbed call caller token} + F) =
    { books F with
      owners := (call, caller, token) ::ₘ (books F).owners
      subbed := (books F).subbed + 1 } := by
  rw [books_add]
  show Books.mk ({_} + _) (1 + _) (0 + _) (0 + _) (fun _ ↦ 0 + _) = _
  simp only [Multiset.singleton_add, zero_add, Nat.add_comm 1]

/-- A place on the gauge. -/
private theorem books_added :
    books ({Tok.added} + F) = { books F with added := (books F).added + 1 } := by
  rw [books_add]
  show Books.mk (0 + _) (0 + _) (1 + _) (0 + _) (fun _ ↦ 0 + _) = _
  simp only [zero_add, Nat.add_comm 1]

/-- A drawn generation. -/
private theorem books_fresh (generation : Nat) : books ({Tok.fresh generation} + F) =
    { books F with fresh := generation ::ₘ (books F).fresh } := by
  rw [books_add]
  show Books.mk (0 + _) (0 + _) (0 + _) ({_} + _) (fun _ ↦ 0 + _) = _
  simp only [Multiset.singleton_add, zero_add]

private theorem card_owes (n : Nat) (counter c : Counter) :
    (part (Tok.owes? c) (Multiset.replicate n (Tok.owes counter))).card =
      if counter = c then n else 0 := by
  rw [part_replicate, Tok.owes?]
  split <;> simp

/-- Increments due on one total. -/
private theorem books_owes (n : Nat) (counter : Counter) :
    books (Multiset.replicate n (Tok.owes counter) + F) =
      { books F with owed := fun c ↦ (books F).owed c + if counter = c then n else 0 } := by
  simp only [books, part_add, Multiset.card_add, card_owes]
  simp [part_replicate, Tok.owner?, Tok.subbed?, Tok.added?, Tok.fresh?, add_comm]

end Recorded

private theorem subbed_le_owners (D : Multiset Tok) : (books D).subbed ≤ (books D).owners.card := by
  induction D using Multiset.induction_on with
  | empty => simp [books]
  | cons x D ih =>
    simp only [books, part_cons, Multiset.card_add] at ih ⊢
    have hx : ((x.subbed?).elim 0 fun b ↦ ({b} : Multiset _)).card ≤
        ((x.owner?).elim 0 fun b ↦ ({b} : Multiset _)).card := by
      cases x <;> simp [Tok.subbed?, Tok.owner?]
    omega

/-- Whoever is about to leave the gauge is still counted by it. -/
theorem Core.gauge_pos {s : State} {call : Nat} {caller : Caller} {token : RequestToken}
    {F : Multiset Tok} (h : Core s (books ({.won call caller token} + F))) :
    0 < s.counters.pendingRequests := by
  have hle := h.owners_le
  have hgauge := h.gauge
  have hF := subbed_le_owners F
  simp only [books_winner, Multiset.card_cons] at hle hgauge
  omega

/-- Whoever takes a refused registration off the gauge is counted by it. -/
theorem Core.gauge_pos_added {s : State} {F : Multiset Tok} (h : Core s (books ({.added} + F))) :
    0 < s.counters.pendingRequests := by
  have hle := h.owners_le
  have hgauge := h.gauge
  have hF := subbed_le_owners F
  simp only [books_added] at hle hgauge
  omega

/-- Tokens the books do not record. -/
def Tok.quiet : Tok → Bool
  | .added | .fresh _ | .won .. | .subbed .. | .owes _ => false
  | _ => true

section Books

variable {e e' F : Multiset Tok} {m : Mode}

private theorem part_quiet {β : Type} {f : Tok → Option β} (hf : ∀ x, x.quiet = true → f x = none)
    (he : ∀ x ∈ e, x.quiet = true) : part f e = 0 :=
  part_eq_zero fun x hx ↦ hf x (he x hx)

/-- Quiet tokens do not change the books. -/
theorem books_quiet (he : ∀ x ∈ e, x.quiet = true) : books (e + F) = books F := by
  have howner : part Tok.owner? e = 0 :=
    part_quiet (by intro x hx; cases x <;> first | rfl | cases hx) he
  have hsubbed : part Tok.subbed? e = 0 :=
    part_quiet (by intro x hx; cases x <;> first | rfl | cases hx) he
  have hadded : part Tok.added? e = 0 :=
    part_quiet (by intro x hx; cases x <;> first | rfl | cases hx) he
  have hfresh : part Tok.fresh? e = 0 :=
    part_quiet (by intro x hx; cases x <;> first | rfl | cases hx) he
  have howes : ∀ c, part (Tok.owes? c) e = 0 := fun c ↦
    part_quiet (by intro x hx; cases x <;> first | rfl | cases hx) he
  simp [books, howner, hsubbed, hadded, hfresh, howes]

theorem quiet_idFor (key : RequestKey) : ∀ x ∈ idFor m key, x.quiet = true := by
  unfold idFor
  repeat' split
  all_goals first | exact forall_mem_singleton rfl | exact forall_mem_zero

theorem quiet_waiterFor (key : RequestKey) : ∀ x ∈ waiterFor m key, x.quiet = true := by
  unfold waiterFor
  split
  · exact forall_mem_singleton rfl
  · exact forall_mem_zero

theorem quiet_claimFor (token : RequestToken) : ∀ x ∈ claimFor m token, x.quiet = true := by
  unfold claimFor
  split
  · exact forall_mem_singleton rfl
  · exact forall_mem_zero

theorem quiet_mintFor (token : RequestToken) : ∀ x ∈ mintFor m token, x.quiet = true := by
  unfold mintFor
  split
  · exact forall_mem_singleton rfl
  · exact forall_mem_zero

theorem quiet_responseFor (call : Nat) (sid : Option SessionId) (id : UInt32) (packet : Packet)
    (used : Bool) : ∀ x ∈ responseFor m call sid id packet used, x.quiet = true := by
  unfold responseFor
  split
  · exact forall_mem_singleton rfl
  · exact forall_mem_zero

theorem quiet_senderFor (key : RequestKey) (sender : Option Nat) :
    ∀ x ∈ senderFor m key sender, x.quiet = true := by
  unfold senderFor
  repeat' split
  all_goals first | exact forall_mem_singleton rfl | exact forall_mem_zero

private theorem quiet_add (he : ∀ x ∈ e, x.quiet = true) (he' : ∀ x ∈ e', x.quiet = true) :
    ∀ x ∈ e + e', x.quiet = true := by
  intro x hx
  obtain hx | hx := Multiset.mem_add.mp hx
  · exact he x hx
  · exact he' x hx

/-- A lookup leaves the books as they are. -/
theorem Looks.books {key : RequestKey} {found : Option RequestEntry} (h : Looks key found e e') :
    books (e' + F) = books (e + F) := by
  cases h with
  | known => rfl
  | drainMiss => rw [books_quiet (forall_mem_singleton rfl), books_quiet (forall_mem_singleton rfl)]
  | drainHit =>
    rw [Multiset.insert_eq_cons, ← Multiset.singleton_add,
      books_quiet (quiet_add (forall_mem_singleton rfl) (forall_mem_singleton rfl)),
      books_quiet (forall_mem_singleton rfl)]
  | _ => rw [books_quiet forall_mem_zero, books_quiet (forall_mem_singleton rfl)]

/-- A lost transition leaves the books as they are. -/
theorem Loses.books {token : RequestToken} {caller : Caller} {source : RequestState}
    (h : Loses token caller source e e') : books (e' + F) = books (e + F) := by
  cases h with
  | known => rfl
  | drainPending => rw [books_quiet (forall_mem_singleton rfl), books_quiet (forall_mem_singleton rfl)]
  | _ => rw [books_quiet forall_mem_zero, books_quiet (forall_mem_singleton rfl)]

variable {call : Nat} {token : RequestToken} {caller : Caller} {source target : RequestState}

/-- What the winner of a transition gives up is not in the books. -/
theorem Ends.quiet (h : Ends m call token caller source target e e') :
    (∀ x ∈ e, x.quiet = true) ∧ ∀ x ∈ e', x.quiet = true := by
  cases h with
  | abort => exact ⟨forall_mem_zero, forall_mem_zero⟩
  | undo | drain => exact ⟨forall_mem_singleton rfl, forall_mem_zero⟩
  | complete _ => exact ⟨quiet_responseFor _ _ _ _ _, quiet_responseFor _ _ _ _ _⟩
  | finish => exact ⟨quiet_claimFor _, forall_mem_zero⟩

theorem Ends.source_live (h : Ends m call token caller source target e e') :
    source.terminal = false := by
  cases h <;> first | rfl | assumption

theorem Ends.target_terminal (h : Ends m call token caller source target e e') :
    target.terminal = true := by
  cases h with
  | abort _ _ hterminal _ => exact hterminal
  | finish => cases ‹Bool› <;> rfl
  | _ => rfl

/-- The totals an end makes due are those that count it. -/
theorem Ends.owed (h : Ends m call token caller source target e e') (c : Counter) :
    (part (Tok.owes? c) (owedFor caller target)).card =
      [Event.transition call caller token source target].countP c.counts := by
  cases h with
  | abort hcaller _ _ _ =>
    cases target <;> cases c <;> cases caller <;>
      simp_all [owedFor, Tok.owes?, Counter.counts, RequestState.terminal]
  | finish =>
    cases ‹Bool› <;> cases c <;>
      simp [owedFor, respondTarget, Tok.owes?, Counter.counts]
  | _ => cases c <;> simp [owedFor, Tok.owes?, Counter.counts, RequestState.terminal]

private theorem owedFor_eq (caller : Caller) (target : RequestState) :
    ∃ n counter, owedFor caller target = Multiset.replicate n (Tok.owes counter) := by
  unfold owedFor
  split
  · exact ⟨1, _, rfl⟩
  split
  · exact ⟨1, _, rfl⟩
  split
  · exact ⟨1, _, rfl⟩
  · exact ⟨0, .requestTimeout, rfl⟩

private theorem books_owedFor : books (owedFor caller target + F) =
    { books F with
      owed := fun c ↦ (books F).owed c + (part (Tok.owes? c) (owedFor caller target)).card } := by
  obtain ⟨n, counter, heq⟩ := owedFor_eq caller target
  rw [heq, books_owes]
  simp only [card_owes]

private theorem books_won (he' : ∀ x ∈ e', x.quiet = true) :
    books ({.won call caller token} + owedFor caller target + e' + F) =
      { books F with
        owners := (call, caller, token) ::ₘ (books F).owners
        owed := fun c ↦ (books F).owed c + (part (Tok.owes? c) (owedFor caller target)).card } := by
  have hperm : {.won call caller token} + owedFor caller target + e' + F =
      e' + ({.won call caller token} + (owedFor caller target + F)) := by abel
  rw [hperm, books_quiet he', books_winner, books_owedFor]

end Books

section Step

variable {cfg : RegistryConfig} {m : Mode} {call choice : Nat} {s : State} {F : Multiset Tok}

/-- A compare-and-exchange succeeds exactly in its source state. -/
theorem tryTransition_ok {caller : Caller} {token : RequestToken} {source target : RequestState}
    (h : (s.tryTransition call caller token source target).1 = .ok ()) :
    s.cells token = some source ∧ (s.tryTransition call caller token source target).2 =
      { s with cells := Function.update s.cells token (some target) }.record
        (.transition call caller token source target) := by
  unfold State.tryTransition at h ⊢
  cases hcell : s.cells token with
  | none =>
    rw [hcell] at h
    cases h
  | some current =>
    rw [hcell] at h
    by_cases heq : current = source
    · subst heq
      simp
    · simp [heq] at h

/-- A failed compare-and-exchange changes nothing and reports another state. -/
theorem tryTransition_error {caller : Caller} {token : RequestToken}
    {source target state : RequestState}
    (h : (s.tryTransition call caller token source target).1 = .error state) :
    s.cells token ≠ some source ∧ (s.tryTransition call caller token source target).2 = s := by
  unfold State.tryTransition at h ⊢
  cases hcell : s.cells token with
  | none => exact ⟨by simp, rfl⟩
  | some current =>
    rw [hcell] at h
    by_cases heq : current = source
    · simp [heq] at h
    · simp [heq]

/-- An insertion succeeds exactly under a vacant key. -/
theorem entriesInsert_true {entry : RequestEntry} (h : (s.entriesInsert call entry).1 = true) :
    s.entries.lookup entry.key = none ∧ (s.entriesInsert call entry).2 =
      { s with
        entries := s.entries.insert entry.key entry
        cells := Function.update s.cells entry.token (some .pending) }.record
          (.registered call entry.token) := by
  unfold State.entriesInsert at h ⊢
  cases hlookup : s.entries.lookup entry.key with
  | none => exact ⟨rfl, rfl⟩
  | some e =>
    rw [hlookup] at h
    cases h

theorem entriesInsert_false {entry : RequestEntry} (h : (s.entriesInsert call entry).1 = false) :
    (s.entriesInsert call entry).2 = s := by
  unfold State.entriesInsert at h ⊢
  cases hlookup : s.entries.lookup entry.key with
  | none =>
    rw [hlookup] at h
    cases h
  | some e => rfl

variable {s' : State} {e e' : Multiset Tok}

private theorem Core.quiet (h : Core s (books (e + F))) {es : List Event}
    (he : ∀ x ∈ e, x.quiet = true) (he' : ∀ x ∈ e', x.quiet = true)
    (hentries : s'.entries = s.entries) (hcells : s'.cells = s.cells)
    (hcounters : s'.counters = s.counters) (hgen : s'.nextGeneration = s.nextGeneration)
    (hhist : s'.history = s.history ++ es) (hes : ∀ x ∈ es, x.silent = true) :
    Core s' (books (e' + F)) := by
  rw [books_quiet he] at h
  rw [books_quiet he']
  exact h.frame hentries hcells hcounters hgen hhist hes

-- Operations that move no recorded token and write no event the books are about.
private theorem Core.still (h : Core s (books (e + F))) (he : ∀ x ∈ e, x.quiet = true)
    (he' : ∀ x ∈ e', x.quiet = true) (hentries : s'.entries = s.entries)
    (hcells : s'.cells = s.cells) (hcounters : s'.counters = s.counters)
    (hgen : s'.nextGeneration = s.nextGeneration) (hhist : s'.history = s.history) :
    Core s' (books (e' + F)) :=
  h.quiet he he' hentries hcells hcounters hgen (by rw [hhist, List.append_nil]) (by simp)

private theorem Core.step_insert (h : Core s (books (e + F))) {entry : RequestEntry}
    {S : Multiset Tok} (hS : ∀ x ∈ S, x.quiet = true)
    (he : e = {.fresh entry.generation} + ({.added} + S)) (he' : ∀ x ∈ e', x.quiet = true)
    (hr : (s.entriesInsert call entry).1 = true) :
    Core (s.entriesInsert call entry).2 (books (e' + F)) := by
  obtain ⟨hvacant, hs'⟩ := entriesInsert_true hr
  have hperm : e + F = S + ({.fresh entry.generation} + ({.added} + F)) := by
    rw [he]
    abel
  rw [hperm, books_quiet hS, books_fresh, books_added] at h
  rw [hs', books_quiet he']
  exact h.insert hvacant rfl rfl rfl rfl rfl rfl rfl (by simp [Event.silent])

private theorem Core.step_win (h : Core s (books (e + F))) {caller : Caller} {token : RequestToken}
    {source target : RequestState} (hends : Ends m call token caller source target e e')
    (hr : (s.tryTransition call caller token source target).1 = .ok ()) :
    Core (s.tryTransition call caller token source target).2
      (books ({.won call caller token} + owedFor caller target + e' + F)) := by
  obtain ⟨hcell, hs'⟩ := tryTransition_ok hr
  rw [hs', books_won hends.quiet.2]
  rw [books_quiet hends.quiet.1] at h
  refine h.win hcell hends.source_live hends.target_terminal rfl rfl rfl rfl rfl fun c _ ↦ ?_
  rw [hends.owed c]

private theorem Core.step_claim (h : Core s (books (e + F))) {caller : Caller}
    {token : RequestToken} (he : ∀ x ∈ e, x.quiet = true) (he' : ∀ x ∈ e', x.quiet = true)
    (hr : (s.tryTransition call caller token .pending .responding).1 = .ok ()) :
    Core (s.tryTransition call caller token .pending .responding).2 (books (e' + F)) := by
  obtain ⟨hcell, hs'⟩ := tryTransition_ok hr
  rw [books_quiet he] at h
  rw [hs', books_quiet he']
  exact h.claim hcell rfl rfl rfl rfl rfl rfl rfl (by simp [Event.silent, RequestState.terminal])

private theorem Core.step_counter {counter : Counter} {n : Nat}
    (h : Core s (books (Multiset.replicate n (Tok.owes counter) + F))) :
    Core { s with counters := s.counters.fetchAdd n counter } (books (0 + F)) := by
  rw [books_owes] at h
  rw [zero_add]
  have hgauge : (s.counters.fetchAdd n counter).pendingRequests + (books F).subbed =
      s.regs.card + (books F).added := by
    cases counter <;> exact h.gauge
  have htotals : ∀ k, (s.counters.fetchAdd n counter).total k + (books F).owed k =
      s.counters.total k + ((books F).owed k + if counter = k then n else 0) := by
    intro k
    cases counter <;> cases k <;> simp [RequestCounters.fetchAdd, RequestCounters.total] <;> omega
  exact h.counters hgauge fun k _ ↦ htotals k

private theorem Core.step_pendingSub {caller : Caller} {token : RequestToken}
    (h : Core s (books ({.won call caller token} + F))) :
    Core { s with counters := s.counters.pendingFetchSub }
      (books ({.subbed call caller token} + F)) := by
  have hpos : 0 < s.counters.pendingRequests := h.gauge_pos
  rw [books_winner] at h
  rw [books_subbed]
  have hgauge : s.counters.pendingRequests + (books F).subbed = s.regs.card + (books F).added :=
    h.gauge
  have hgauge' : s.counters.pendingFetchSub.pendingRequests + ((books F).subbed + 1) =
      s.regs.card + (books F).added := by
    simp only [RequestCounters.pendingFetchSub]
    rw [if_neg (by omega)]
    omega
  exact h.counters hgauge' fun _ _ ↦ rfl

/-- Every action keeps the invariant of the entry map, the gauge and the totals. -/
theorem Core.step {a : Act} {r : a.Resp} (h : Core s (books (e + F)))
    (hm : Moves cfg m call a r e e') (hr : (a.exec cfg call choice s).1 = r) :
    Core (a.exec cfg call choice s).2 (books (e' + F)) := by
  cases hm with
  | @nextGeneration g =>
    rw [zero_add] at h
    rw [books_fresh, ← hr]
    exact h.nextGeneration
  | pendingAdd =>
    rw [zero_add] at h
    rw [books_added]
    refine h.counters ?_ fun k _ ↦ by cases k <;> rfl
    have hgauge := h.gauge
    show s.counters.pendingRequests + 1 + _ = _
    omega
  | pendingSubRefused =>
    have hpos := h.gauge_pos_added
    rw [books_added] at h
    rw [zero_add]
    have hgauge : s.counters.pendingRequests + (books F).subbed =
        s.regs.card + ((books F).added + 1) := h.gauge
    have hgauge' : s.counters.pendingFetchSub.pendingRequests + (books F).subbed =
        s.regs.card + (books F).added := by
      simp only [RequestCounters.pendingFetchSub]
      rw [if_neg (by omega)]
      omega
    exact h.counters hgauge' fun _ _ ↦ rfl
  | pendingSubWon => exact h.step_pendingSub
  | duplicate =>
    rw [zero_add] at h ⊢
    exact h.counters h.gauge fun k hk ↦ by cases k <;> first | rfl | exact absurd rfl hk
  | counter _ => exact h.step_counter
  | @insertRefused entry =>
    have hs' := entriesInsert_false hr
    simp only [Act.exec, hs']
    rw [books_fresh] at h
    rw [zero_add]
    exact h.forget (Multiset.le_cons_self _ _)
  | insertFree _ _ =>
    exact h.step_insert (quiet_add (by simp) (quiet_idFor _)) rfl (by simp [Tok.quiet]) hr
  | insertSession _ =>
    exact h.step_insert (quiet_add (by simp [Tok.quiet]) (quiet_idFor _)) rfl
      (by simp [Tok.quiet]) hr
  | get hlooks =>
    rw [hlooks.books]
    exact h
  | @remove caller token =>
    rw [books_subbed] at h
    rw [books_quiet (quiet_waiterFor _)]
    exact h.remove rfl rfl
  | lose hloses =>
    rw [hloses.books]
    simp only [Act.exec, (tryTransition_error hr).2]
    exact h
  | claim =>
    exact h.step_claim (quiet_mintFor _) (quiet_add (quiet_mintFor _) (by simp [Tok.quiet])) hr
  | win hends _ => exact h.step_win hends hr
  | waitersInsert _ =>
    exact h.still (quiet_mintFor _)
      (quiet_add (quiet_add (quiet_mintFor _) (quiet_waiterFor _)) (quiet_senderFor _ _))
      rfl rfl rfl rfl rfl
  | waitersRemove => exact h.still (by simp) (quiet_senderFor _ _) rfl rfl rfl rfl rfl
  | waitersSettle => exact h.still (by simp [Tok.quiet]) (quiet_senderFor _ _) rfl rfl rfl rfl rfl
  | send =>
    exact h.quiet (quiet_add (quiet_senderFor _ _) (quiet_responseFor _ _ _ _ _))
      (quiet_responseFor _ _ _ _ _) rfl rfl rfl rfl rfl (by simp [Event.silent])
  | drop =>
    refine h.still (quiet_senderFor _ _) (by simp) ?_ ?_ ?_ ?_ ?_
    all_goals
      simp only [Act.exec, State.channelDrop]
      split <;> rfl
  | @openSession sid =>
    have hquiet : ∀ x ∈ openFor m sid, x.quiet = true := fun x hx ↦ by
      rw [mem_openFor hx]
      rfl
    simp only [Act.exec, State.sessionsOrInsert]
    split
    · exact h.still hquiet (by simp) rfl rfl rfl rfl rfl
    · exact h.quiet hquiet (by simp) rfl rfl rfl rfl rfl (by simp [Event.silent])
  | sessionGone =>
    exact h.quiet (by simp) (by simp [Tok.quiet]) rfl rfl rfl rfl rfl (by simp [Event.silent])
  | sessionTaken =>
    exact h.quiet (by simp) (by simp [Tok.quiet]) rfl rfl rfl rfl rfl (by simp [Event.silent])
  | index =>
    exact h.quiet (by simp [Tok.quiet]) (by simp [Tok.quiet]) rfl rfl rfl rfl rfl
      (by simp [Event.silent])
  | idExhausted =>
    simp only [Act.exec, State.nextRequestIdFetchUpdate]
    split
    · exact h.quiet (by simp) (by simp) rfl rfl rfl rfl rfl (by simp [Event.silent])
    · exact h
  | idAllocated =>
    simp only [Act.exec, State.nextRequestIdFetchUpdate]
    split
    · exact h.quiet (by simp [Tok.quiet]) (by simp [Tok.quiet]) rfl rfl rfl rfl rfl
        (by simp [Event.silent])
    · exact h.still (by simp [Tok.quiet]) (by simp [Tok.quiet]) rfl rfl rfl rfl rfl
  | isOpen => exact h
  | _ => exact h.still (by simp [Tok.quiet]) (by simp [Tok.quiet]) rfl rfl rfl rfl rfl

end Step

/-- What a token says about a runtime's session. -/
def Tok.Homed (history : List Event) : Tok → Prop
  | .sees sid rt | .closing sid rt | .draining sid rt _ _ => .opened sid rt ∈ history
  | .entering token rt _ => ∃ sid, token.sessionId = some sid ∧ .opened sid rt ∈ history
  | _ => True

/-- Every runtime belongs to one session, and so do the keys it indexes. -/
structure Home (s : State) (D : Multiset Tok) : Prop where
  opened_lt : ∀ sid rt, .opened sid rt ∈ s.history → rt < s.nextRuntime
  opened_unique : ∀ sid sid' rt, .opened sid rt ∈ s.history → .opened sid' rt ∈ s.history →
    sid = sid'
  sessions : ∀ sid rt, s.sessions.lookup sid = some rt → .opened sid rt ∈ s.history
  requests : ∀ rt, ∀ key ∈ (s.runtimes rt).requests,
    ∃ sid, key.sessionId = some sid ∧ .opened sid rt ∈ s.history
  tokens : ∀ x ∈ D, x.Homed s.history

section Home

variable {cfg : RegistryConfig} {m : Mode} {call choice : Nat} {s s' : State}
  {D D' e e' F : Multiset Tok}

private theorem Tok.Homed.mono {h h' : List Event} (hsub : h ⊆ h') {x : Tok} (hx : x.Homed h) :
    x.Homed h' := by
  cases x with
  | entering token rt indexed =>
    obtain ⟨sid, hsid, hopened⟩ := hx
    exact ⟨sid, hsid, hsub hopened⟩
  | sees | closing | draining => exact hsub hx
  | _ => trivial

private theorem Home.frame (h : Home s D) {es : List Event}
    (hnext : s'.nextRuntime = s.nextRuntime)
    (hsessions : ∀ sid rt, s'.sessions.lookup sid = some rt → s.sessions.lookup sid = some rt)
    (hrequests : ∀ rt, (s'.runtimes rt).requests ⊆ (s.runtimes rt).requests)
    (hhist : s'.history = s.history ++ es) (hes : ∀ sid rt, .opened sid rt ∉ es)
    (htok : ∀ x ∈ D', x ∈ D ∨ x.Homed s.history) : Home s' D' := by
  have hsub : s.history ⊆ s'.history := by rw [hhist]; exact List.subset_append_left _ _
  have hopened : ∀ sid rt, .opened sid rt ∈ s'.history → .opened sid rt ∈ s.history := by
    intro sid rt hmem
    rw [hhist, List.mem_append] at hmem
    exact hmem.resolve_right (hes sid rt)
  constructor
  case opened_lt =>
    rw [hnext]
    exact fun sid rt hmem ↦ h.opened_lt sid rt (hopened sid rt hmem)
  case opened_unique =>
    exact fun sid sid' rt h₁ h₂ ↦ h.opened_unique sid sid' rt (hopened _ _ h₁) (hopened _ _ h₂)
  case sessions => exact fun sid rt hmem ↦ hsub (h.sessions sid rt (hsessions sid rt hmem))
  case requests =>
    intro rt key hkey
    obtain ⟨sid, hsid, hmem⟩ := h.requests rt key (hrequests rt hkey)
    exact ⟨sid, hsid, hsub hmem⟩
  case tokens =>
    intro x hx
    obtain hx | hx := htok x hx
    · exact (h.tokens x hx).mono hsub
    · exact hx.mono hsub

-- Operations that leave sessions, runtimes and the history alone.
private theorem Home.still (h : Home s (e + F)) (hnext : s'.nextRuntime = s.nextRuntime)
    (hsessions : s'.sessions = s.sessions) (hruntimes : s'.runtimes = s.runtimes) {es : List Event}
    (hhist : s'.history = s.history ++ es) (hes : ∀ sid rt, .opened sid rt ∉ es)
    (htok : ∀ x ∈ e', x ∈ e ∨ x.Homed s.history) : Home s' (e' + F) := by
  refine h.frame hnext ?_ ?_ hhist hes ?_
  · rw [hsessions]
    exact fun _ _ h' ↦ h'
  · rw [hruntimes]
    exact fun _ ↦ List.Subset.refl _
  · intro x hx
    obtain hx | hx := Multiset.mem_add.mp hx
    · exact (htok x hx).imp_left fun h' ↦ Multiset.mem_add.mpr (.inl h')
    · exact .inl (Multiset.mem_add.mpr (.inr hx))

private theorem Looks.homed {key : RequestKey} {found : Option RequestEntry} {h : List Event}
    (hl : Looks key found e e') (he : ∀ x ∈ e, x.Homed h) : ∀ x ∈ e', x.Homed h := by
  cases hl with
  | known => exact he
  | drainMiss =>
    have hdraining := he _ (Multiset.mem_singleton_self _)
    exact forall_mem_singleton hdraining
  | drainHit =>
    have hdraining := he _ (Multiset.mem_singleton_self _)
    intro x hx
    obtain rfl | hx := Multiset.mem_cons.mp hx
    · exact hdraining
    · rw [Multiset.mem_singleton.mp hx]
      trivial
  | _ => simp

private theorem Loses.homed {token : RequestToken} {caller : Caller} {source : RequestState}
    {h : List Event} (hl : Loses token caller source e e') (he : ∀ x ∈ e, x.Homed h) :
    ∀ x ∈ e', x.Homed h := by
  cases hl with
  | known => exact he
  | drainPending => exact forall_mem_singleton trivial
  | _ => simp

private theorem homed_responseFor {h : List Event} {sid : Option SessionId} {id : UInt32}
    {packet : Packet} {used : Bool} :
    ∀ x ∈ responseFor m call sid id packet used, x.Homed h := by
  unfold responseFor
  split
  · exact forall_mem_singleton trivial
  · simp

private theorem homed_waiterFor {h : List Event} {key : RequestKey} :
    ∀ x ∈ waiterFor m key, x.Homed h := by
  unfold waiterFor
  split
  · exact forall_mem_singleton trivial
  · simp

private theorem homed_senderFor {h : List Event} {key : RequestKey} {sender : Option Nat} :
    ∀ x ∈ senderFor m key sender, x.Homed h := by
  unfold senderFor
  repeat' split
  all_goals first | exact forall_mem_singleton trivial | simp

private theorem homed_mintFor {h : List Event} {token : RequestToken} :
    ∀ x ∈ mintFor m token, x.Homed h := by
  unfold mintFor
  split
  · exact forall_mem_singleton trivial
  · simp

private theorem Ends.homed {token : RequestToken} {caller : Caller} {source target : RequestState}
    {h : List Event} (hends : Ends m call token caller source target e e') :
    ∀ x ∈ {.won call caller token} + owedFor caller target + e', x.Homed h := by
  have howed : ∀ x ∈ owedFor caller target, x.Homed h := by
    unfold owedFor
    repeat' split
    all_goals first | exact forall_mem_singleton trivial | simp
  have he' : ∀ x ∈ e', x.Homed h := by
    cases hends with
    | complete _ => exact homed_responseFor
    | _ => simp
  intro x hx
  simp only [Multiset.mem_add, Multiset.mem_singleton] at hx
  obtain (rfl | hx) | hx := hx
  · trivial
  · exact howed x hx
  · exact he' x hx

private theorem setRuntime_requests {rt : Nat} {r : SessionRuntime}
    (hr : r.requests ⊆ (s.runtimes rt).requests) (rt' : Nat) :
    ((s.setRuntime rt r).runtimes rt').requests ⊆ (s.runtimes rt').requests := by
  by_cases heq : rt' = rt
  · subst heq
    simpa [State.setRuntime] using hr
  · simp [State.setRuntime, Function.update_of_ne heq]

-- Operations on one runtime that index no new key.
private theorem Home.setRuntime (h : Home s (e + F)) {rt : Nat} {r : SessionRuntime}
    (hr : r.requests ⊆ (s.runtimes rt).requests)
    (htok : ∀ x ∈ e', x ∈ e ∨ x.Homed s.history) : Home (s.setRuntime rt r) (e' + F) := by
  refine h.frame rfl (fun _ _ h' ↦ h') (setRuntime_requests hr)
    (List.append_nil _).symm (by simp) fun x hx ↦ ?_
  obtain hx | hx := Multiset.mem_add.mp hx
  · exact (htok x hx).imp_left fun h' ↦ Multiset.mem_add.mpr (.inl h')
  · exact .inl (Multiset.mem_add.mpr (.inr hx))

private theorem Home.allocate (h : Home s (e + F)) {rt : Nat}
    (htok : ∀ x ∈ e', x.Homed s.history) :
    Home (s.nextRequestIdFetchUpdate call rt).2 (e' + F) := by
  unfold State.nextRequestIdFetchUpdate
  simp only
  split
  · have h' : Home (s.setRuntime rt { s.runtimes rt with
        nextRequestId := (s.runtimes rt).nextRequestId + 1 }) (e' + F) :=
      h.setRuntime (List.Subset.refl _) fun x hx ↦ .inr (htok x hx)
    exact h'.still rfl rfl rfl rfl (by simp) fun x hx ↦ .inl hx
  · exact h.still rfl rfl rfl (List.append_nil _).symm (by simp) fun x hx ↦ .inr (htok x hx)

private theorem Home.index {token : RequestToken} {rt : Nat}
    (h : Home s ({.entering token rt false} + F)) :
    Home (Act.exec cfg call (.requestsInsert rt token) choice s).2
      ({.entering token rt true} + F) := by
  obtain ⟨sid, hsid, hopened⟩ := h.tokens (.entering token rt false) (by simp)
  have hsub : s.history ⊆ s.history ++ [Event.indexed call token] := List.subset_append_left _ _
  have hevent : ∀ sid rt, Event.opened sid rt ∈ s.history ++ [Event.indexed call token] →
      Event.opened sid rt ∈ s.history := by
    intro sid rt hmem
    simpa using hmem
  constructor
  case opened_lt => exact fun sid rt hmem ↦ h.opened_lt sid rt (hevent _ _ hmem)
  case opened_unique =>
    exact fun sid sid' rt h₁ h₂ ↦ h.opened_unique sid sid' rt (hevent _ _ h₁) (hevent _ _ h₂)
  case sessions => exact fun sid rt hmem ↦ hsub (h.sessions sid rt hmem)
  case requests =>
    intro rt' key hkey
    have hold : key ∈ (s.runtimes rt').requests → ∃ sid, key.sessionId = some sid ∧
        Event.opened sid rt' ∈ s.history ++ [Event.indexed call token] := by
      intro hmem
      obtain ⟨sid', hsid', hopened'⟩ := h.requests rt' key hmem
      exact ⟨sid', hsid', hsub hopened'⟩
    by_cases heq : rt' = rt
    · subst heq
      simp only [Act.exec, State.setRuntime, State.record, Function.update_self, List.mem_cons,
        List.mem_filter] at hkey
      obtain rfl | ⟨hkey, -⟩ := hkey
      · exact ⟨sid, by rwa [RequestToken.sessionId_key], hsub hopened⟩
      · exact hold hkey
    · simp only [Act.exec, State.setRuntime, State.record, Function.update_of_ne heq] at hkey
      exact hold hkey
  case tokens =>
    intro x hx
    obtain hx | hx := Multiset.mem_add.mp hx
    · rw [Multiset.mem_singleton.mp hx]
      exact ⟨sid, hsid, hsub hopened⟩
    · exact (h.tokens x (Multiset.mem_add.mpr (.inr hx))).mono hsub

/-- A fact may be forgotten. -/
theorem Home.drop (h : Home s (e + F)) : Home s F :=
  ⟨h.opened_lt, h.opened_unique, h.sessions, h.requests,
    fun x hx ↦ h.tokens x (Multiset.mem_add.mpr (.inr hx))⟩

private theorem Home.openSession {sid : SessionId} (h : Home s F) :
    Home (s.sessionsOrInsert sid) F := by
  unfold State.sessionsOrInsert
  split
  · exact h
  have hsub : s.history ⊆ s.history ++ [Event.opened sid s.nextRuntime] :=
    List.subset_append_left _ _
  have hevent : ∀ sid' rt, Event.opened sid' rt ∈ s.history ++ [Event.opened sid s.nextRuntime] →
      Event.opened sid' rt ∈ s.history ∨ (sid' = sid ∧ rt = s.nextRuntime) := by
    intro sid' rt hmem
    simpa using hmem
  constructor
  case opened_lt =>
    intro sid' rt hmem
    obtain hmem | ⟨-, rfl⟩ := hevent _ _ hmem
    · exact Nat.lt_succ_of_lt (h.opened_lt sid' rt hmem)
    · exact Nat.lt_succ_self _
  case opened_unique =>
    intro sid₁ sid₂ rt h₁ h₂
    obtain g₁ | ⟨e₁, hrt⟩ := hevent _ _ h₁ <;> obtain g₂ | ⟨e₂, hrt'⟩ := hevent _ _ h₂
    · exact h.opened_unique sid₁ sid₂ rt g₁ g₂
    · exact absurd (h.opened_lt sid₁ rt g₁) (by omega)
    · exact absurd (h.opened_lt sid₂ rt g₂) (by omega)
    · rw [e₁, e₂]
  case sessions =>
    intro sid' rt hmem
    by_cases heq : sid' = sid
    · subst heq
      simp only [State.record, AList.lookup_insert, Option.some.injEq] at hmem
      subst hmem
      simp [State.record]
    · simp only [State.record, AList.lookup_insert_ne heq] at hmem
      exact hsub (h.sessions sid' rt hmem)
  case requests =>
    intro rt key hkey
    by_cases heq : rt = s.nextRuntime
    · subst heq
      simp [State.record] at hkey
    · simp only [State.record, Function.update_of_ne heq] at hkey
      obtain ⟨sid', hsid', hopened⟩ := h.requests rt key hkey
      exact ⟨sid', hsid', hsub hopened⟩
  case tokens => exact fun x hx ↦ (h.tokens x hx).mono hsub

private theorem Home.closeSession {sid : SessionId} (h : Home s F)
    (htok : ∀ x ∈ e', x.Homed s.history) :
    Home ({ s with sessions := s.sessions.erase sid }.record (.closed sid)) (e' + F) := by
  refine h.frame rfl ?_ (fun _ ↦ List.Subset.refl _) rfl (by simp) fun x hx ↦ ?_
  · intro sid' rt hmem
    by_cases heq : sid' = sid
    · subst heq
      simp [State.record] at hmem
    · simpa [State.record, AList.lookup_erase_ne heq] using hmem
  · obtain hx | hx := Multiset.mem_add.mp hx
    · exact .inr (htok x hx)
    · exact .inl hx

/-- Every action keeps runtimes with their sessions. -/
theorem Home.step {a : Act} {r : a.Resp} (h : Home s (e + F)) (hm : Moves cfg m call a r e e')
    (hr : (a.exec cfg call choice s).1 = r) : Home (a.exec cfg call choice s).2 (e' + F) := by
  have he : ∀ x ∈ e, x.Homed s.history := fun x hx ↦ h.tokens x (Multiset.mem_add.mpr (.inl hx))
  have hnil : s.history = s.history ++ [] := (List.append_nil _).symm
  cases hm with
  | insertRefused =>
    rw [Act.exec, entriesInsert_false hr]
    exact h.still rfl rfl rfl hnil (by simp) (by simp)
  | insertFree _ _ =>
    rw [Act.exec, (entriesInsert_true hr).2]
    exact h.still rfl rfl rfl rfl (by simp) (by simp [Tok.Homed])
  | @insertSession entry sid rt hsid =>
    rw [Act.exec, (entriesInsert_true hr).2]
    refine h.still rfl rfl rfl rfl (by simp) ?_
    have hopened : Tok.Homed s.history (.sees sid rt) := he _ (by simp)
    simp only [Multiset.mem_singleton, forall_eq]
    exact .inr ⟨sid, hsid, hopened⟩
  | get hlooks => exact h.still rfl rfl rfl hnil (by simp) fun x hx ↦ .inr (hlooks.homed he x hx)
  | remove =>
    simp only [Act.exec, State.entriesRemove]
    split
    · exact h.still rfl rfl rfl rfl (by simp) fun x hx ↦ .inr (homed_waiterFor x hx)
    · exact h.still rfl rfl rfl hnil (by simp) fun x hx ↦ .inr (homed_waiterFor x hx)
  | lose hloses =>
    rw [Act.exec, (tryTransition_error hr).2]
    exact h.still rfl rfl rfl hnil (by simp) fun x hx ↦ .inr (hloses.homed he x hx)
  | claim =>
    rw [Act.exec, (tryTransition_ok hr).2]
    refine h.still rfl rfl rfl rfl (by simp) fun x hx ↦ .inr ?_
    obtain hx | hx := Multiset.mem_add.mp hx
    · exact homed_mintFor x hx
    · rw [Multiset.mem_singleton.mp hx]
      trivial
  | win hends _ =>
    rw [Act.exec, (tryTransition_ok hr).2]
    exact h.still rfl rfl rfl rfl (by simp) fun x hx ↦ .inr (hends.homed x hx)
  | waitersInsert _ =>
    refine h.still rfl rfl rfl hnil (by simp) fun x hx ↦ .inr ?_
    simp only [Multiset.mem_add] at hx
    obtain (hx | hx) | hx := hx
    · exact homed_mintFor x hx
    · exact homed_waiterFor x hx
    · exact homed_senderFor x hx
  | waitersRemove =>
    exact h.still rfl rfl rfl hnil (by simp) fun x hx ↦ .inr (homed_senderFor x hx)
  | waitersSettle =>
    exact h.still rfl rfl rfl hnil (by simp) fun x hx ↦ .inr (homed_senderFor x hx)
  | send => exact h.still rfl rfl rfl rfl (by simp) fun x hx ↦ .inr (homed_responseFor x hx)
  | drop =>
    simp only [Act.exec, State.channelDrop]
    split
    all_goals exact h.still rfl rfl rfl hnil (by simp) (by simp)
  | openSession =>
    rw [zero_add]
    exact h.drop.openSession
  | sessionSeen =>
    refine h.still rfl rfl rfl hnil (by simp) ?_
    simp only [Multiset.mem_singleton, forall_eq]
    exact .inr (h.sessions _ _ hr)
  | sessionGone =>
    rw [zero_add] at h
    exact h.closeSession (by simp [Tok.Homed])
  | sessionTaken =>
    rw [zero_add] at h
    have hopened := h.sessions _ _ hr
    exact h.closeSession (by simpa [Tok.Homed] using hopened)
  | isOpen => exact h
  | @beginClose sid rt =>
    have hopened : Tok.Homed s.history (.closing sid rt) := he _ (Multiset.mem_singleton_self _)
    exact h.setRuntime (List.Subset.refl _) (by simpa [Tok.Homed] using hopened)
  | abandon _ => exact h.setRuntime (List.Subset.refl _) (by simp)
  | index => exact h.index
  | unindex => exact h.setRuntime (List.filter_subset_self _) (by simp)
  | @shard sid rt n keys =>
    have hopened : Tok.Homed s.history (.draining sid rt [] (n + 1)) :=
      he _ (Multiset.mem_singleton_self _)
    exact h.still rfl rfl rfl hnil (by simp) (by simpa [Tok.Homed] using hopened)
  | clear => exact h.setRuntime (List.nil_subset _) (by simp)
  | idExhausted => exact h.allocate (by simp)
  | idAllocated => exact h.allocate (by simp [Tok.Homed])
  | _ => exact h.still rfl rfl rfl hnil (by simp) (by simp [Tok.Homed])

end Home

end MsgTrans.Registry
