import MsgTrans.Registry.Gates

/-!
# Request registry: admission to a session

What the token rules keep true of a registration between its insertion into the entry map and
its acceptance, and which call will still look at it once its session closes. Both rest on the
index of the session's keys, so they hold as long as no index removal hits a registration that
is live and indexed.
-/

namespace MsgTrans.Registry

open MsgTrans.Base MsgTrans.Wire

/-- The registration has not ended. -/
def State.Live (s : State) (token : RequestToken) : Prop :=
  ∃ state, s.cells token = some state ∧ state.terminal = false

/-- The event put the registration into its session's index. -/
def Event.indexes (token : RequestToken) : Event → Bool
  | .indexed _ u => u = token
  | _ => false

/-- The registration was put into its session's index. -/
def State.Indexed (s : State) (token : RequestToken) : Prop :=
  ∃ event ∈ s.history, event.indexes token = true

instance (s : State) (token : RequestToken) : Decidable (s.Indexed token) :=
  inferInstanceAs (Decidable (∃ event ∈ s.history, event.indexes token = true))

theorem State.Indexed.mono {s s' : State} {token : RequestToken} (h : s.Indexed token)
    (hhist : s.history ⊆ s'.history) : s'.Indexed token := by
  obtain ⟨event, hmem, hevent⟩ := h
  exact ⟨event, hhist hmem, hevent⟩

/-- The index removal of a key spares a registration that is live and indexed. -/
def State.Spares (s : State) (key : RequestKey) : Prop :=
  ∀ entry ∈ s.entries.lookup key, s.ended entry.token = false → ¬ s.Indexed entry.token

instance (s : State) (key : RequestKey) : Decidable (s.Spares key) :=
  inferInstanceAs (Decidable (∀ entry ∈ s.entries.lookup key, _ → _))

namespace Tok

/-- A registration that is not accepted yet. -/
def entering? : Tok → Option RequestToken
  | entering token _ _ => some token
  | _ => none

/-- What a token says about the registration it names. -/
def Holds (s : State) : Tok → Prop
  | minted token => (s.cells token).isSome = true
  | entering token rt indexed => (s.cells token).isSome = true ∧
      s.cells token ≠ some .responding ∧
      (indexed = true → s.Indexed token ∧
        (s.Live token → (s.runtimes rt).isOpen = true → token.key ∈ (s.runtimes rt).requests))
  | killing _ _ token past => (s.cells token).isSome = true ∧
      (past = true → s.cells token ≠ some .pending)
  | _ => True

/-- The token says nothing about a registration's admission. -/
def plain : Tok → Bool
  | minted _ | entering .. | killing .. => false
  | _ => true

end Tok

/-- The invariant of registrations that are being admitted. -/
structure Admission (s : State) (D : Multiset Tok) : Prop where
  holds : ∀ x ∈ D, x.Holds s
  once : (part Tok.entering? D).Nodup
  apart : ∀ token ∈ part Tok.entering? D, .minted token ∉ D

section Admission

variable {cfg : RegistryConfig} {m : Mode} {call choice : Nat} {s s' : State} {x : Tok}
  {token : RequestToken} {e e' F : Multiset Tok}

theorem Tok.holds_of_plain (hx : x.plain = true) : x.Holds s := by
  cases x with
  | minted | entering | killing => cases hx
  | _ => trivial

private theorem entering_of_plain (he : ∀ x ∈ e, x.plain = true) : part Tok.entering? e = 0 := by
  refine part_eq_zero fun x hx ↦ ?_
  have hplain := he x hx
  cases x <;> first | rfl | cases hplain

/-- How the state may change under a token: nothing that is registered disappears, returns to
`Pending` or is claimed, and a key that an open runtime indexes stays indexed. -/
private theorem Tok.Holds.next (hx : x.Holds s) (hhist : s.history ⊆ s'.history)
    (hsome : ∀ token, (s.cells token).isSome = true → (s'.cells token).isSome = true)
    (hpending : ∀ token, (s.cells token).isSome = true → s.cells token ≠ some .pending →
      s'.cells token ≠ some .pending)
    (hlive : ∀ token, (s.cells token).isSome = true → s'.Live token → s.Live token)
    (hresponding : ∀ token rt indexed, x = .entering token rt indexed →
      s.cells token ≠ some .responding → s'.cells token ≠ some .responding)
    (hindex : ∀ token rt, x = .entering token rt true → s.Live token → s.Indexed token →
      (s'.runtimes rt).isOpen = true →
      (s.runtimes rt).isOpen = true ∧
        (token.key ∈ (s.runtimes rt).requests → token.key ∈ (s'.runtimes rt).requests)) :
    x.Holds s' := by
  cases x with
  | minted token => exact hsome token hx
  | entering token rt indexed =>
    obtain ⟨hcell, hnot, hkey⟩ := hx
    refine ⟨hsome token hcell, hresponding token rt indexed rfl hnot, ?_⟩
    rintro rfl
    obtain ⟨hindexed, hmem⟩ := hkey rfl
    refine ⟨hindexed.mono hhist, fun hl hopen ↦ ?_⟩
    have hl' := hlive token hcell hl
    obtain ⟨hopen', himp⟩ := hindex token rt rfl hl' hindexed hopen
    exact himp (hmem hl' hopen')
  | killing sid rt token past =>
    exact ⟨hsome token hx.1, fun hp ↦ hpending token hx.1 (hx.2 hp)⟩
  | _ => trivial

-- The state atomics and the runtimes are as they were.
private theorem Tok.Holds.same (hx : x.Holds s) {es : List Event} (hcells : s'.cells = s.cells)
    (hopen : ∀ rt, (s'.runtimes rt).isOpen = (s.runtimes rt).isOpen)
    (hrequests : ∀ rt, (s'.runtimes rt).requests = (s.runtimes rt).requests)
    (hhist : s'.history = s.history ++ es) : x.Holds s' := by
  refine hx.next (hhist ▸ List.subset_append_left _ _) ?_ ?_ ?_ ?_ ?_
  · exact fun token h ↦ hcells ▸ h
  · exact fun token _ h ↦ hcells ▸ h
  · rintro token _ ⟨state, hstate, hlive⟩
    exact ⟨state, hcells ▸ hstate, hlive⟩
  · exact fun token _ _ _ h ↦ hcells ▸ h
  · intro token rt _ _ _ h
    rw [hopen] at h
    rw [hrequests]
    exact ⟨h, fun hkey ↦ hkey⟩

-- One registration's atomic has moved on.
private theorem Tok.Holds.cell (hx : x.Holds s) {token : RequestToken}
    {source target : RequestState} {es : List Event} (hcell : s.cells token = some source)
    (htarget : target ≠ .pending) (hsource : source.terminal = false)
    (hclaim : ∀ rt indexed, x = .entering token rt indexed → target ≠ .responding)
    (hcells : s'.cells = Function.update s.cells token (some target))
    (hruntimes : s'.runtimes = s.runtimes) (hhist : s'.history = s.history ++ es) :
    x.Holds s' := by
  have hself : s'.cells token = some target := by rw [hcells, Function.update_self]
  have hother : ∀ u, u ≠ token → s'.cells u = s.cells u := fun u hne ↦ by
    rw [hcells, Function.update_of_ne hne]
  refine hx.next (hhist ▸ List.subset_append_left _ _) ?_ ?_ ?_ ?_ ?_
  · intro u hu
    by_cases heq : u = token
    · rw [heq, hself]
      rfl
    · rwa [hother u heq]
  · intro u _ hu
    by_cases heq : u = token
    · rw [heq, hself]
      simpa using htarget
    · rwa [hother u heq]
  · rintro u _ ⟨state, hstate, hlive⟩
    by_cases heq : u = token
    · exact ⟨source, heq ▸ hcell, hsource⟩
    · exact ⟨state, hother u heq ▸ hstate, hlive⟩
  · rintro u rt indexed rfl hu
    by_cases heq : u = token
    · subst heq
      rw [hself]
      simpa using hclaim rt indexed rfl
    · rwa [hother u heq]
  · intro u rt _ _ _ h
    rw [hruntimes] at h ⊢
    exact ⟨h, fun hkey ↦ hkey⟩

private theorem Admission.frame (h : Admission s (e + F)) (hold : ∀ x ∈ F, x.Holds s → x.Holds s')
    (hnew : ∀ x ∈ e', x.Holds s')
    (hentering : part Tok.entering? e' ≤ part Tok.entering? e)
    (hminted : ∀ token, .minted token ∈ e' → .minted token ∈ e) : Admission s' (e' + F) := by
  have hle : part Tok.entering? (e' + F) ≤ part Tok.entering? (e + F) := by
    rw [part_add, part_add]
    exact add_le_add_left hentering _
  refine ⟨fun x hx ↦ ?_, Multiset.nodup_of_le hle h.once, fun token hmem hmint ↦ ?_⟩
  · obtain hx | hx := Multiset.mem_add.mp hx
    · exact hnew x hx
    · exact hold x hx (h.holds x (Multiset.mem_add.mpr (.inr hx)))
  · refine h.apart token (Multiset.mem_of_le hle hmem) (Multiset.mem_add.mpr ?_)
    exact (Multiset.mem_add.mp hmint).imp_left (hminted token)

-- Operations that leave the atomics and the runtimes alone and move plain tokens.
private theorem Admission.still (h : Admission s (e + F)) {es : List Event}
    (he' : ∀ x ∈ e', x.plain = true) (hcells : s'.cells = s.cells)
    (hopen : ∀ rt, (s'.runtimes rt).isOpen = (s.runtimes rt).isOpen)
    (hrequests : ∀ rt, (s'.runtimes rt).requests = (s.runtimes rt).requests)
    (hhist : s'.history = s.history ++ es) : Admission s' (e' + F) := by
  refine h.frame (fun x _ hx ↦ hx.same hcells hopen hrequests hhist) ?_ ?_ ?_
  · exact fun x hx ↦ Tok.holds_of_plain (he' x hx)
  · rw [entering_of_plain he']
    exact Multiset.zero_le _
  · exact fun token hmem ↦ absurd (he' _ hmem) (by simp [Tok.plain])

-- Operations on one runtime: what it indexes for a live registration may only grow while it
-- is open.
private theorem Admission.runtime (h : Admission s (e + F)) {rt : Nat} {v : SessionRuntime}
    {es : List Event} (hcells : s'.cells = s.cells)
    (hruntimes : s'.runtimes = Function.update s.runtimes rt v)
    (hhist : s'.history = s.history ++ es)
    (hv : ∀ token, .entering token rt true ∈ F → s.Live token → s.Indexed token →
      v.isOpen = true → (s.runtimes rt).isOpen = true ∧
        (token.key ∈ (s.runtimes rt).requests → token.key ∈ v.requests))
    (hnew : ∀ x ∈ e', x.Holds s')
    (hentering : part Tok.entering? e' ≤ part Tok.entering? e)
    (hminted : ∀ token, .minted token ∈ e' → .minted token ∈ e) : Admission s' (e' + F) := by
  refine h.frame (fun x hxF hx ↦ ?_) hnew hentering hminted
  refine hx.next (hhist ▸ List.subset_append_left _ _) ?_ ?_ ?_ ?_ ?_
  · exact fun token h ↦ hcells ▸ h
  · exact fun token _ h ↦ hcells ▸ h
  · rintro token _ ⟨state, hstate, hlive⟩
    exact ⟨state, hcells ▸ hstate, hlive⟩
  · exact fun token _ _ _ h ↦ hcells ▸ h
  · rintro token rt' rfl hlive hindexed hopen
    rw [hruntimes] at hopen ⊢
    by_cases heq : rt' = rt
    · subst heq
      rw [Function.update_self] at hopen ⊢
      exact hv token hxF hlive hindexed hopen
    · rw [Function.update_of_ne heq] at hopen ⊢
      exact ⟨hopen, fun hkey ↦ hkey⟩

-- A registration enters the map under a token that nobody holds yet.
private theorem Admission.insert (h : Admission s (e + F)) {es : List Event}
    (hnone : s.cells token = none)
    (hcells : s'.cells = Function.update s.cells token (some .pending))
    (hruntimes : s'.runtimes = s.runtimes) (hhist : s'.history = s.history ++ es)
    (hx : x = .minted token ∨ ∃ rt, x = .entering token rt false) : Admission s' ({x} + F) := by
  have hself : s'.cells token = some .pending := by rw [hcells, Function.update_self]
  have hother : ∀ u, (s.cells u).isSome = true → s'.cells u = s.cells u := by
    intro u hu
    rw [hcells, Function.update_of_ne]
    rintro rfl
    rw [hnone] at hu
    cases hu
  have hminted : .minted token ∉ F := by
    intro hmem
    have hsome : (s.cells token).isSome = true := h.holds _ (Multiset.mem_add.mpr (.inr hmem))
    rw [hnone] at hsome
    cases hsome
  have hentering : token ∉ part Tok.entering? F := by
    intro hmem
    obtain ⟨y, hy, hy'⟩ := mem_part.mp hmem
    cases y <;> cases hy'
    have hsome := (h.holds _ (Multiset.mem_add.mpr (.inr hy))).1
    rw [hnone] at hsome
    cases hsome
  have hF : (part Tok.entering? F).Nodup :=
    Multiset.nodup_of_le (by rw [part_add]; exact Multiset.le_add_left _ _) h.once
  have hapart : ∀ u ∈ part Tok.entering? F, .minted u ∉ F := fun u hu hmem ↦
    h.apart u (by rw [part_add]; exact Multiset.mem_add.mpr (.inr hu))
      (Multiset.mem_add.mpr (.inr hmem))
  have hold : ∀ y ∈ F, y.Holds s' := by
    intro y hy
    have hy' : y.Holds s := h.holds y (Multiset.mem_add.mpr (.inr hy))
    refine hy'.next (hhist ▸ List.subset_append_left _ _) ?_ ?_ ?_ ?_ ?_
    · exact fun u hu ↦ hother u hu ▸ hu
    · exact fun u hu hp ↦ hother u hu ▸ hp
    · rintro u hu ⟨state, hstate, hlive⟩
      exact ⟨state, hother u hu ▸ hstate, hlive⟩
    · rintro u rt indexed rfl hresponding
      rwa [hother u hy'.1]
    · intro u rt _ _ _ hopen
      rw [hruntimes] at hopen ⊢
      exact ⟨hopen, fun hkey ↦ hkey⟩
  refine ⟨fun y hy ↦ ?_, ?_, ?_⟩
  · obtain hy | hy := Multiset.mem_add.mp hy
    · obtain rfl := Multiset.mem_singleton.mp hy
      obtain rfl | ⟨rt, rfl⟩ := hx
      · show (s'.cells token).isSome = true
        rw [hself]
        rfl
      · refine ⟨?_, ?_, by simp⟩
        all_goals
          rw [hself]
          simp
    · exact hold y hy
  · obtain rfl | ⟨rt, rfl⟩ := hx
    · simpa [Tok.entering?] using hF
    · simpa [Tok.entering?] using ⟨hentering, hF⟩
  · intro u hu hmint
    obtain rfl | ⟨rt, rfl⟩ := hx
    · simp only [part_add, part_singleton, Tok.entering?, Option.elim_none, zero_add] at hu
      simp only [Multiset.mem_add, Multiset.mem_singleton, Tok.minted.injEq] at hmint
      obtain rfl | hmint := hmint
      · exact hentering hu
      · exact hapart u hu hmint
    · simp only [Tok.entering?, part_add, part_singleton, Option.elim_some, Multiset.mem_add,
        Multiset.mem_singleton] at hu
      simp only [Multiset.mem_add, Multiset.mem_singleton, reduceCtorEq, false_or] at hmint
      obtain rfl | hu := hu
      · exact hminted hmint
      · exact hapart u hu hmint

/-- A live registration is found under its key. -/
theorem Core.lookup_of_live {b : Books} (h : Core s b) {token : RequestToken}
    (hlive : s.Live token) :
    ∃ entry, s.entries.lookup token.key = some entry ∧ entry.token = token := by
  obtain ⟨state, hstate, hterminal⟩ := hlive
  exact h.lookup_of_mem (h.live token state hstate hterminal)

theorem State.Live.ended {token : RequestToken} (h : s.Live token) : s.ended token = false := by
  obtain ⟨state, hstate, hterminal⟩ := h
  rw [State.ended_of_cell hstate, hterminal]

/-- An index removal that spares live registrations is not about one. -/
theorem State.Spares.ne {b : Books} {key : RequestKey} {token : RequestToken} (h : s.Spares key)
    (hcore : Core s b) (hlive : s.Live token) (hindexed : s.Indexed token) : token.key ≠ key := by
  rintro rfl
  obtain ⟨entry, hlookup, rfl⟩ := hcore.lookup_of_live hlive
  exact h entry hlookup hlive.ended hindexed

private theorem Admission.get (h : Admission s (e + F)) (hcore : Core s (books (e + F)))
    {key : RequestKey} {found : Option RequestEntry} (hfound : s.entries.lookup key = found)
    (hlooks : Looks key found e e') : Admission s (e' + F) := by
  have hnil : s.history = s.history ++ [] := (List.append_nil _).symm
  cases hlooks with
  | known => exact h
  | @drainHit sid rt n keys entry =>
    refine h.frame (fun x _ hx ↦ hx) ?_ (by simp [Tok.entering?]) (by simp)
    have hsome := hcore.registered entry.token (mem_regs.mpr ⟨key, entry, hfound, rfl⟩)
    simpa [Tok.Holds] using hsome
  | _ => exact h.still (by simp [Tok.plain]) rfl (fun _ ↦ rfl) (fun _ ↦ rfl) hnil

private theorem Admission.lose (h : Admission s (e + F)) {token : RequestToken} {caller : Caller}
    {source : RequestState} (hcell : s.cells token ≠ some source)
    (hloses : Loses token caller source e e') : Admission s (e' + F) := by
  have hnil : s.history = s.history ++ [] := (List.append_nil _).symm
  cases hloses with
  | known => exact h
  | @drainPending sid rt =>
    refine h.frame (fun x _ hx ↦ hx) ?_ (by simp [Tok.entering?]) (by simp)
    have hsome := (h.holds (.killing sid rt token false) (by simp)).1
    simpa [Tok.Holds] using ⟨hsome, hcell⟩
  | _ => exact h.still (by simp [Tok.plain]) rfl (fun _ ↦ rfl) (fun _ ↦ rfl) hnil

private theorem Ends.plain {token : RequestToken} {caller : Caller} {source target : RequestState}
    (h : Ends m call token caller source target e e') :
    ∀ x ∈ {.won call caller token} + owedFor caller target + e', x.plain = true := by
  have he' : ∀ x ∈ e', x.plain = true := by
    cases h with
    | complete _ =>
      intro x hx
      rw [mem_responseFor hx]
      rfl
    | _ => simp
  intro x hx
  simp only [Multiset.mem_add, Multiset.mem_singleton] at hx
  obtain (rfl | hx) | hx := hx
  · rfl
  · obtain ⟨counter, rfl⟩ := mem_owedFor hx
    rfl
  · exact he' x hx

private theorem Admission.win (h : Admission s (e + F)) {token : RequestToken} {caller : Caller}
    {source target : RequestState} {es : List Event}
    (hends : Ends m call token caller source target e e') (hcell : s.cells token = some source)
    (hcells : s'.cells = Function.update s.cells token (some target))
    (hruntimes : s'.runtimes = s.runtimes) (hhist : s'.history = s.history ++ es) :
    Admission s' ({.won call caller token} + owedFor caller target + e' + F) := by
  have hterminal := hends.target_terminal
  have hplain := hends.plain
  refine h.frame (fun x _ hx ↦ hx.cell hcell ?_ hends.source_live (fun rt indexed _ ↦ ?_) hcells
    hruntimes hhist) (fun x hx ↦ Tok.holds_of_plain (hplain x hx)) ?_ ?_
  · rintro rfl
    cases hterminal
  · rintro rfl
    cases hterminal
  · rw [entering_of_plain hplain]
    exact Multiset.zero_le _
  · exact fun u hmem ↦ absurd (hplain _ hmem) (by simp [Tok.plain])

private theorem Admission.claim (h : Admission s (mintFor m token + F)) (hstrict : m.strict = true)
    {es : List Event} (hcell : s.cells token = some .pending)
    (hcells : s'.cells = Function.update s.cells token (some .responding))
    (hruntimes : s'.runtimes = s.runtimes) (hhist : s'.history = s.history ++ es) :
    Admission s' (mintFor m token + {.claim token} + F) := by
  have hmint : mintFor m token = {.minted token} := by simp [mintFor, hstrict]
  rw [hmint] at h ⊢
  refine h.frame (fun x hxF hx ↦ hx.cell hcell (by decide) rfl (fun rt indexed hxeq ↦ ?_) hcells
    hruntimes hhist) ?_ (by simp [Tok.entering?]) (by simp)
  · -- An accepted registration is not entering any more.
    subst hxeq
    refine absurd (Multiset.mem_add.mpr (.inl (Multiset.mem_singleton_self _))) (h.apart token ?_)
    exact mem_part.mpr ⟨_, Multiset.mem_add.mpr (.inr hxF), rfl⟩
  · have hself : s'.cells token = some .responding := by rw [hcells, Function.update_self]
    simp [Tok.Holds, hself]

private theorem Admission.accept {token : RequestToken} {rt : Nat}
    (h : Admission s ({.entering token rt true} + F)) : Admission s ({.minted token} + F) := by
  have honce := h.once
  rw [part_add, part_singleton, Tok.entering?, Option.elim_some, Multiset.singleton_add,
    Multiset.nodup_cons] at honce
  have hsome := (h.holds (.entering token rt true) (by simp)).1
  refine ⟨fun x hx ↦ ?_, ?_, fun u hu hmint ↦ ?_⟩
  · obtain hx | hx := Multiset.mem_add.mp hx
    · rw [Multiset.mem_singleton.mp hx]
      exact hsome
    · exact h.holds x (Multiset.mem_add.mpr (.inr hx))
  · simpa [Tok.entering?] using honce.2
  · simp only [part_add, part_singleton, Tok.entering?, Option.elim_none, zero_add] at hu
    simp only [Multiset.mem_add, Multiset.mem_singleton, Tok.minted.injEq] at hmint
    obtain rfl | hmint := hmint
    · exact honce.1 hu
    · exact h.apart u (by simp [Tok.entering?, hu]) (Multiset.mem_add.mpr (.inr hmint))

private theorem Admission.openSession (h : Admission s F) (hhome : Home s F) {sid : SessionId} :
    Admission (s.sessionsOrInsert sid) F := by
  unfold State.sessionsOrInsert
  split
  · exact h
  rw [← zero_add F] at h hhome ⊢
  refine h.runtime rfl rfl rfl (fun token hmem _ _ _ ↦ ?_) (by simp) (by simp) (by simp)
  -- The runtimes of sessions that are already known are older than the new one.
  obtain ⟨sid', -, hopened⟩ := hhome.tokens _ (Multiset.mem_add.mpr (.inr hmem))
  exact absurd (hhome.opened_lt sid' _ hopened) (Nat.lt_irrefl _)

private theorem Admission.allocate (h : Admission s (e + F)) {rt : Nat}
    (he' : ∀ x ∈ e', x.plain = true) :
    Admission (s.nextRequestIdFetchUpdate call rt).2 (e' + F) := by
  unfold State.nextRequestIdFetchUpdate
  simp only
  split
  · refine h.runtime rfl rfl rfl (fun token _ _ _ hopen ↦ ⟨hopen, fun hkey ↦ hkey⟩)
      (fun x hx ↦ Tok.holds_of_plain (he' x hx)) ?_ ?_
    · rw [entering_of_plain he']
      exact Multiset.zero_le _
    · exact fun token hmem ↦ absurd (he' _ hmem) (by simp [Tok.plain])
  · exact h.still he' rfl (fun _ ↦ rfl) (fun _ ↦ rfl) (List.append_nil _).symm

/-- Every action keeps the admission of registrations in order, as long as index removals spare
live registrations. -/
theorem Admission.step {a : Act} {r : a.Resp} (h : Admission s (e + F)) (hbase : Base s (e + F))
    (hgates : Gates s (closers (e + F))) (hstrict : m.strict = true)
    (hspares : ∀ rt key, a = .requestsRemove rt key → s.Spares key)
    (hm : Moves cfg m call a r e e') (hr : (a.exec cfg call choice s).1 = r) :
    Admission (a.exec cfg call choice s).2 (e' + F) := by
  have hnil : s.history = s.history ++ [] := (List.append_nil _).symm
  have hopen : ∀ rt, (s.runtimes rt).isOpen = (s.runtimes rt).isOpen := fun _ ↦ rfl
  have hrequests : ∀ rt, (s.runtimes rt).requests = (s.runtimes rt).requests := fun _ ↦ rfl
  -- The token of a registration about to be inserted is new.
  have hunused : ∀ entry : RequestEntry, .fresh entry.generation ∈ e →
      s.cells entry.token = none := fun entry hmem ↦
    hbase.core.fresh_unused entry.generation
      (mem_part.mpr ⟨_, Multiset.mem_add.mpr (.inl hmem), rfl⟩) _ rfl
  cases hm with
  | insertRefused =>
    rw [Act.exec, entriesInsert_false hr]
    exact h.still (by simp) rfl hopen hrequests hnil
  | @insertFree entry _ _ =>
    rw [Act.exec, (entriesInsert_true hr).2]
    exact h.insert (hunused entry (by simp)) rfl rfl rfl (.inl rfl)
  | @insertSession entry _ _ _ =>
    rw [Act.exec, (entriesInsert_true hr).2]
    exact h.insert (hunused entry (by simp)) rfl rfl rfl (.inr ⟨_, rfl⟩)
  | get hlooks => exact h.get hbase.core hr hlooks
  | @remove caller token =>
    have hplain : ∀ x ∈ waiterFor m token.key, x.plain = true := fun x hx ↦ by
      rw [mem_waiterFor hx]
      rfl
    simp only [Act.exec, State.entriesRemove]
    split
    · exact h.still hplain rfl hopen hrequests rfl
    · exact h.still hplain rfl hopen hrequests hnil
  | lose hloses =>
    rw [Act.exec, (tryTransition_error hr).2]
    exact h.lose (tryTransition_error hr).1 hloses
  | claim =>
    rw [Act.exec, (tryTransition_ok hr).2]
    exact h.claim hstrict (tryTransition_ok hr).1 rfl rfl rfl
  | win hends _ =>
    rw [Act.exec, (tryTransition_ok hr).2]
    exact h.win hends (tryTransition_ok hr).1 rfl rfl rfl
  | @waitersInsert token replaced _ =>
    have hcases : ∀ x ∈ mintFor m token + waiterFor m token.key + senderFor m token.key replaced,
        x ∈ mintFor m token ∨ x.plain = true := by
      intro x hx
      simp only [Multiset.mem_add] at hx
      obtain (hx | hx) | hx := hx
      · exact .inl hx
      · rw [mem_waiterFor hx]
        exact .inr rfl
      · obtain ⟨channel, -, rfl⟩ := mem_senderFor hx
        exact .inr rfl
    refine h.frame (fun x _ hx ↦ hx.same rfl hopen hrequests hnil) (fun x hx ↦ ?_) ?_ ?_
    · obtain hx | hx := hcases x hx
      · exact (h.holds x (Multiset.mem_add.mpr (.inl hx))).same rfl hopen hrequests hnil
      · exact Tok.holds_of_plain hx
    · rw [part_eq_zero]
      · exact Multiset.zero_le _
      · intro x hx
        obtain hx | hx := hcases x hx
        · rw [mem_mintFor hx]
          rfl
        · cases x <;> first | rfl | cases hx
    · intro u hmem
      exact (hcases _ hmem).resolve_right (by simp [Tok.plain])
  | waitersRemove | waitersSettle =>
    refine h.still (fun x hx ↦ ?_) rfl hopen hrequests hnil
    obtain ⟨channel, -, rfl⟩ := mem_senderFor hx
    rfl
  | send =>
    refine h.still (fun x hx ↦ ?_) rfl hopen hrequests rfl
    rw [mem_responseFor hx]
    rfl
  | drop =>
    simp only [Act.exec, State.channelDrop]
    split
    all_goals exact h.still (by simp) rfl hopen hrequests hnil
  | openSession =>
    have h' : Admission s (0 + F) := h.still (by simp) rfl hopen hrequests hnil
    rw [zero_add] at h' ⊢
    exact h'.openSession hbase.home.drop
  | sessionGone | sessionTaken => exact h.still (by simp [Tok.plain]) rfl hopen hrequests rfl
  | isOpen => exact h
  | accept => exact h.accept
  | beginClose =>
    refine h.runtime rfl rfl hnil (fun _ _ _ _ hopen' ↦ ?_) (by simp [Tok.Holds])
      (by simp [Tok.entering?]) (by simp)
    cases hopen'
  | abandon hloose =>
    rw [hstrict] at hloose
    cases hloose
  | @index token rt =>
    refine h.runtime rfl rfl rfl (fun u _ _ _ hopen' ↦ ⟨hopen', fun hkey ↦ ?_⟩) ?_
      (by simp [Tok.entering?]) (by simp)
    · by_cases heq : u.key = token.key
      · simp [heq]
      · simp [heq, hkey]
    · obtain ⟨hsome, hnot, -⟩ := h.holds (.entering token rt false) (by simp)
      simp only [Multiset.mem_singleton, forall_eq]
      refine ⟨hsome, hnot, fun _ ↦ ⟨⟨_, List.mem_append_right _ (List.mem_singleton_self _), ?_⟩,
        fun _ _ ↦ ?_⟩⟩
      · simp [Event.indexes]
      · simp [Act.exec, State.setRuntime, State.record]
  | unindex =>
    refine h.runtime rfl rfl hnil (fun u _ hlive hindexed hopen' ↦ ⟨hopen', fun hkey ↦ ?_⟩)
      (by simp) (by simp) (by simp)
    have hne := (hspares _ _ rfl).ne hbase.core hlive hindexed
    simp [hkey, hne]
  | @clear sid rt =>
    refine h.runtime rfl rfl hnil (fun u _ _ _ hopen' ↦ ?_) (by simp) (by simp [Tok.entering?])
      (by simp)
    have hshut := hgates.draining rt (mem_part.mpr ⟨.draining sid rt [] 0, by simp, rfl⟩)
    rw [hshut] at hopen'
    cases hopen'
  | idExhausted => exact h.allocate (by simp)
  | idAllocated => exact h.allocate (by simp [Tok.plain])
  | _ => exact h.still (by simp [Tok.plain]) rfl hopen hrequests hnil

end Admission

end MsgTrans.Registry
