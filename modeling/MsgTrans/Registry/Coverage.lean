import MsgTrans.Registry.Admission

/-!
# Request registry: nothing of a closed session is forgotten

Which call will still look at a registration once its session closes, and at a waiter once its
entry is gone. A live registration is entering, or indexed by an open runtime, or ahead of the
drain of a closing one, or in the drain's hands.
-/

namespace MsgTrans.Registry

open MsgTrans.Base MsgTrans.Wire

/-- A call will look at the live registration when its session closes. -/
inductive Watched (cfg : RegistryConfig) (s : State) (D : Multiset Tok) (token : RequestToken) :
    Prop where
  | entering {rt : Nat} {indexed : Bool} (hmem : .entering token rt indexed ∈ D)
  | indexed {sid : SessionId} {rt : Nat} (hsid : token.sessionId = some sid)
      (hopened : .opened sid rt ∈ s.history) (hindexed : s.Indexed token)
      (hopen : (s.runtimes rt).isOpen = true) (hkey : token.key ∈ (s.runtimes rt).requests)
  | draining {sid : SessionId} {rt n : Nat} {keys : List RequestKey}
      (hsid : token.sessionId = some sid) (hopened : .opened sid rt ∈ s.history)
      (hindexed : s.Indexed token) (hmem : .draining sid rt keys n ∈ D)
      (hkey : token.key ∈ keys ∨
        cfg.shards - n ≤ cfg.shardOf token.key ∧ token.key ∈ (s.runtimes rt).requests)
  | killing {sid : SessionId} {rt : Nat} {past : Bool} (hsid : token.sessionId = some sid)
      (hmem : .killing sid rt token past ∈ D)

/-- Every live registration of a session is watched. -/
def Coverage (cfg : RegistryConfig) (s : State) (D : Multiset Tok) : Prop :=
  ∀ token, s.Live token → token.sessionId ≠ none → Watched cfg s D token

/-- The token can stand between a registration and its being forgotten. -/
def Tok.Watches (token : RequestToken) : Tok → Prop
  | .entering u _ _ | .killing _ _ u _ => u = token
  | .draining .. => True
  | _ => False

section Coverage

variable {cfg : RegistryConfig} {m : Mode} {call choice : Nat} {s s' : State}
  {token : RequestToken} {e e' F : Multiset Tok}

-- The state changes: no watcher is given up, and what a runtime indexes for the registration
-- stays.
private theorem Watched.next (h : Watched cfg s (e + F) token) (hhist : s.history ⊆ s'.history)
    (hopen : ∀ sid rt, .opened sid rt ∈ s.history → s.Indexed token →
      (s.runtimes rt).isOpen = true → (s'.runtimes rt).isOpen = true)
    (hrequests : ∀ sid rt, .opened sid rt ∈ s.history → s.Indexed token →
      token.key ∈ (s.runtimes rt).requests → token.key ∈ (s'.runtimes rt).requests)
    (he : ∀ x ∈ e, x.Watches token → x ∈ e') : Watched cfg s' (e' + F) token := by
  have hkeep : ∀ x ∈ e + F, x.Watches token → x ∈ e' + F := by
    intro x hx hw
    exact Multiset.mem_add.mpr ((Multiset.mem_add.mp hx).imp_left fun hx' ↦ he x hx' hw)
  cases h with
  | entering hmem => exact .entering (hkeep _ hmem rfl)
  | indexed hsid hopened hindexed hopen' hkey =>
    exact .indexed hsid (hhist hopened) (hindexed.mono hhist) (hopen _ _ hopened hindexed hopen')
      (hrequests _ _ hopened hindexed hkey)
  | draining hsid hopened hindexed hmem hkey =>
    refine .draining hsid (hhist hopened) (hindexed.mono hhist) (hkeep _ hmem trivial)
      (hkey.imp_right fun hk ↦ ?_)
    exact ⟨hk.1, hrequests _ _ hopened hindexed hk.2⟩
  | killing hsid hmem => exact .killing hsid (hkeep _ hmem rfl)

-- The tokens change: every watcher given up hands the registration on.
private theorem Watched.pass (h : Watched cfg s (e + F) token)
    (hentering : ∀ rt indexed, .entering token rt indexed ∈ e → Watched cfg s (e' + F) token)
    (hdraining : ∀ sid rt keys n, .draining sid rt keys n ∈ e → token.sessionId = some sid →
      .opened sid rt ∈ s.history → s.Indexed token →
      (token.key ∈ keys ∨
        cfg.shards - n ≤ cfg.shardOf token.key ∧ token.key ∈ (s.runtimes rt).requests) →
      Watched cfg s (e' + F) token)
    (hkilling : ∀ sid rt past, .killing sid rt token past ∈ e → token.sessionId = some sid →
      Watched cfg s (e' + F) token) : Watched cfg s (e' + F) token := by
  cases h with
  | entering hmem =>
    obtain hmem | hmem := Multiset.mem_add.mp hmem
    · exact hentering _ _ hmem
    · exact .entering (Multiset.mem_add.mpr (.inr hmem))
  | indexed hsid hopened hindexed hopen hkey => exact .indexed hsid hopened hindexed hopen hkey
  | draining hsid hopened hindexed hmem hkey =>
    obtain hmem | hmem := Multiset.mem_add.mp hmem
    · exact hdraining _ _ _ _ hmem hsid hopened hindexed hkey
    · exact .draining hsid hopened hindexed (Multiset.mem_add.mpr (.inr hmem)) hkey
  | killing hsid hmem =>
    obtain hmem | hmem := Multiset.mem_add.mp hmem
    · exact hkilling _ _ _ hmem hsid
    · exact .killing hsid (Multiset.mem_add.mpr (.inr hmem))

theorem State.Live.of_cells (hcells : s'.cells token = s.cells token) (h : s'.Live token) :
    s.Live token := by
  obtain ⟨state, hstate, hterminal⟩ := h
  exact ⟨state, hcells ▸ hstate, hterminal⟩

-- Operations that leave the atomics and the runtimes alone and give up no watcher.
private theorem Coverage.still (h : Coverage cfg s (e + F)) {es : List Event}
    (he : ∀ token, ∀ x ∈ e, ¬ x.Watches token) (hcells : s'.cells = s.cells)
    (hopen : ∀ rt, (s'.runtimes rt).isOpen = (s.runtimes rt).isOpen)
    (hrequests : ∀ rt, (s'.runtimes rt).requests = (s.runtimes rt).requests)
    (hhist : s'.history = s.history ++ es) : Coverage cfg s' (e' + F) := by
  intro token hlive hsid
  have hw := h token (hlive.of_cells (by rw [hcells])) hsid
  refine hw.next (hhist ▸ List.subset_append_left _ _) (fun _ rt _ _ hr ↦ ?_)
    (fun _ rt _ _ hr ↦ ?_) fun x hx hx' ↦ absurd hx' (he token x hx)
  · rwa [hopen]
  · rwa [hrequests]

-- Operations on one runtime that keep it open and keep what it indexes for live registrations.
private theorem Coverage.runtime (h : Coverage cfg s (e + F)) {rt : Nat}
    {v : SessionRuntime} {es : List Event} (hcells : s'.cells = s.cells)
    (hruntimes : s'.runtimes = Function.update s.runtimes rt v)
    (hhist : s'.history = s.history ++ es)
    (hopen : (∃ sid, .opened sid rt ∈ s.history) → (s.runtimes rt).isOpen = true →
      v.isOpen = true)
    (hrequests : ∀ token, s.Live token → s.Indexed token →
      (∃ sid, .opened sid rt ∈ s.history) →
      token.key ∈ (s.runtimes rt).requests → token.key ∈ v.requests)
    (he : ∀ token, ∀ x ∈ e, x.Watches token → x ∈ e') : Coverage cfg s' (e' + F) := by
  intro token hlive hsid
  have hlive' := hlive.of_cells (s := s) (by rw [hcells])
  refine (h token hlive' hsid).next (hhist ▸ List.subset_append_left _ _)
    (fun sid rt' hmem _ hr ↦ ?_) (fun sid rt' hmem hindexed hr ↦ ?_) (he token)
  · rw [hruntimes]
    by_cases heq : rt' = rt
    · subst heq
      rw [Function.update_self]
      exact hopen ⟨sid, hmem⟩ hr
    · rwa [Function.update_of_ne heq]
  · rw [hruntimes]
    by_cases heq : rt' = rt
    · subst heq
      rw [Function.update_self]
      exact hrequests token hlive' hindexed ⟨sid, hmem⟩ hr
    · rwa [Function.update_of_ne heq]

-- One registration's atomic has moved on; if it ended, it needs no watcher any more.
private theorem Coverage.cell (h : Coverage cfg s (e + F)) {source target : RequestState}
    {es : List Event} (hcell : s.cells token = some source) (hsource : source.terminal = false)
    (hcells : s'.cells = Function.update s.cells token (some target))
    (hruntimes : s'.runtimes = s.runtimes) (hhist : s'.history = s.history ++ es)
    (he : ∀ u, (u = token → target.terminal = false) → ∀ x ∈ e, x.Watches u → x ∈ e') :
    Coverage cfg s' (e' + F) := by
  intro u hlive hsid
  have hu : u = token → target.terminal = false := by
    rintro rfl
    obtain ⟨state, hstate, hterminal⟩ := hlive
    rw [hcells, Function.update_self] at hstate
    rwa [Option.some.inj hstate]
  have hlive' : s.Live u := by
    by_cases heq : u = token
    · exact ⟨source, heq ▸ hcell, hsource⟩
    · exact hlive.of_cells (by rw [hcells, Function.update_of_ne heq])
  refine (h u hlive' hsid).next (hhist ▸ List.subset_append_left _ _) (fun _ rt _ _ hr ↦ ?_)
    (fun _ rt _ _ hr ↦ ?_) (he u hu)
  · rwa [hruntimes]
  · rwa [hruntimes]

-- A registration enters the map.
private theorem Coverage.insert (h : Coverage cfg s (e + F)) (token : RequestToken)
    {es : List Event} {x : Tok}
    (he : ∀ token, ∀ x ∈ e, ¬ x.Watches token)
    (hcells : s'.cells = Function.update s.cells token (some .pending))
    (hruntimes : s'.runtimes = s.runtimes) (hhist : s'.history = s.history ++ es)
    (hx : token.sessionId = none ∨ ∃ rt, x = .entering token rt false) :
    Coverage cfg s' ({x} + F) := by
  intro u hlive hsid
  by_cases heq : u = token
  · subst heq
    obtain hnone | ⟨rt, rfl⟩ := hx
    · exact absurd hnone hsid
    · exact .entering (Multiset.mem_add.mpr (.inl (Multiset.mem_singleton_self _)))
  · have hw := h u (hlive.of_cells (by rw [hcells, Function.update_of_ne heq])) hsid
    refine hw.next (hhist ▸ List.subset_append_left _ _) (fun _ rt _ _ hr ↦ ?_)
      (fun _ rt _ _ hr ↦ ?_) fun x hx hx' ↦ absurd hx' (he u x hx)
    · rwa [hruntimes]
    · rwa [hruntimes]

-- A lookup by the drain finds the registration it is responsible for, if it is live.
private theorem Coverage.get (h : Coverage cfg s (e + F)) (hcore : Core s (books (e + F)))
    {key : RequestKey} {found : Option RequestEntry} (hfound : s.entries.lookup key = found)
    (hlooks : Looks key found e e') : Coverage cfg s (e' + F) := by
  have hnil : s.history = s.history ++ [] := (List.append_nil _).symm
  have hmiss : ∀ u, s.Live u → u.key = key → ∃ entry, found = some entry ∧ entry.token = u := by
    rintro u hlive rfl
    obtain ⟨entry, hlookup, htoken⟩ := hcore.lookup_of_live hlive
    exact ⟨entry, hfound ▸ hlookup, htoken⟩
  cases hlooks with
  | known => exact h
  | @notEntering _ token rt indexed hkey hne =>
    intro u hlive hsid
    refine (h u hlive hsid).pass (fun rt' i hmem ↦ ?_) (by simp) (by simp)
    simp only [Multiset.mem_singleton, Tok.entering.injEq] at hmem
    obtain ⟨rfl, -, -⟩ := hmem
    obtain ⟨entry, hentry, htoken⟩ := hmiss u hlive hkey
    exact absurd htoken (hne entry hentry)
  | @drainMiss sid rt n keys =>
    intro u hlive hsid
    refine (h u hlive hsid).pass (by simp) (fun sid' rt' keys' n' hmem hu hopened hindexed hkey ↦ ?_)
      (by simp)
    simp only [Multiset.mem_singleton, Tok.draining.injEq] at hmem
    obtain ⟨rfl, rfl, rfl, rfl⟩ := hmem
    refine .draining hu hopened hindexed (Multiset.mem_add.mpr (.inl (Multiset.mem_singleton_self _)))
      (hkey.imp_left fun hmem ↦ (List.mem_cons.mp hmem).resolve_left fun heq ↦ ?_)
    obtain ⟨entry, hentry, -⟩ := hmiss u hlive heq
    cases hentry
  | @drainHit sid rt n keys entry =>
    intro u hlive hsid
    refine (h u hlive hsid).pass (by simp) (fun sid' rt' keys' n' hmem hu hopened hindexed hkey ↦ ?_)
      (by simp)
    simp only [Multiset.mem_singleton, Tok.draining.injEq] at hmem
    obtain ⟨rfl, rfl, rfl, rfl⟩ := hmem
    by_cases heq : u.key = key
    · obtain ⟨entry', hentry, rfl⟩ := hmiss u hlive heq
      obtain rfl := Option.some.inj hentry
      have hmem : Tok.killing sid' rt' entry.token false ∈
          {Tok.draining sid' rt' keys n', Tok.killing sid' rt' entry.token false} + F := by simp
      exact .killing hu hmem
    · exact .draining hu hopened hindexed (by simp)
        (hkey.imp_left fun hmem ↦ (List.mem_cons.mp hmem).resolve_left heq)
  | _ => exact h.still (by simp [Tok.Watches]) rfl (fun _ ↦ rfl) (fun _ ↦ rfl) hnil

-- Whoever gives up on a registration has seen that it ended.
private theorem Coverage.lose (h : Coverage cfg s (e + F)) (hadmission : Admission s (e + F))
    {caller : Caller} {source : RequestState} (hcell : s.cells token ≠ some source)
    (hloses : Loses token caller source e e') : Coverage cfg s (e' + F) := by
  have hnil : s.history = s.history ++ [] := (List.append_nil _).symm
  -- A live registration is pending or responding.
  have hdead : s.cells token ≠ some .pending → s.cells token ≠ some .responding →
      ¬ s.Live token := by
    rintro hpending hresponding ⟨state, hstate, hterminal⟩
    cases state <;> first | exact hpending hstate | exact hresponding hstate | cases hterminal
  cases hloses with
  | known => exact h
  | @undo rt indexed =>
    have hresponding := (hadmission.holds (.entering token rt indexed) (by simp)).2.1
    intro u hlive hsid
    refine (h u hlive hsid).pass (fun rt' i hmem ↦ ?_) (by simp) (by simp)
    simp only [Multiset.mem_singleton, Tok.entering.injEq] at hmem
    obtain ⟨rfl, -, -⟩ := hmem
    exact absurd hlive (hdead hcell hresponding)
  | @drainPending sid rt =>
    intro u hlive hsid
    refine (h u hlive hsid).pass (by simp) (by simp) fun sid' rt' past hmem hu ↦ ?_
    simp only [Multiset.mem_singleton, Tok.killing.injEq] at hmem
    obtain ⟨rfl, rfl, rfl, rfl⟩ := hmem
    exact .killing hu (Multiset.mem_add.mpr (.inl (Multiset.mem_singleton_self _)))
  | @drainResponding sid rt =>
    have hpending := (hadmission.holds (.killing sid rt token true) (by simp)).2 rfl
    intro u hlive hsid
    refine (h u hlive hsid).pass (by simp) (by simp) fun sid' rt' past hmem hu ↦ ?_
    simp only [Multiset.mem_singleton, Tok.killing.injEq] at hmem
    obtain ⟨-, -, rfl, -⟩ := hmem
    exact absurd hlive (hdead hpending hcell)
  | finish => exact h.still (by simp [Tok.Watches]) rfl (fun _ ↦ rfl) (fun _ ↦ rfl) hnil

private theorem Ends.watches {caller : Caller} {source target : RequestState}
    (h : Ends m call token caller source target e e') {u : RequestToken} (hu : u ≠ token) :
    ∀ x ∈ e, ¬ x.Watches u := by
  intro x hx
  cases h with
  | abort => simp at hx
  | complete _ =>
    rw [mem_responseFor hx]
    exact fun h ↦ h
  | finish =>
    rw [mem_claimFor hx]
    exact fun h ↦ h
  | _ =>
    rw [Multiset.mem_singleton.mp hx]
    exact fun h ↦ hu h.symm

-- The closer marks the runtime: what it indexed is now the drain's.
private theorem Coverage.beginClose {sid : SessionId} {rt : Nat}
    (h : Coverage cfg s ({.closing sid rt} + F)) (hhome : Home s ({.closing sid rt} + F)) :
    Coverage cfg (s.setRuntime rt { s.runtimes rt with isOpen := false })
      ({.draining sid rt [] cfg.shards} + F) := by
  have hopened : .opened sid rt ∈ s.history := hhome.tokens (.closing sid rt) (by simp)
  have hrequests : ∀ rt', ((s.setRuntime rt { s.runtimes rt with isOpen := false }).runtimes
      rt').requests = (s.runtimes rt').requests := by
    intro rt'
    by_cases heq : rt' = rt
    · subst heq
      simp [State.setRuntime]
    · simp [State.setRuntime, Function.update_of_ne heq]
  intro u hlive hu
  cases h u hlive hu with
  | entering hmem => exact .entering (by simpa using hmem)
  | @indexed sid' rt' hsid hopened' hindexed hopen hkey =>
    by_cases heq : rt' = rt
    · subst heq
      obtain rfl := hhome.opened_unique sid' sid rt' hopened' hopened
      refine .draining hsid hopened' hindexed
        (Multiset.mem_add.mpr (.inl (Multiset.mem_singleton_self _))) (.inr ⟨by simp, ?_⟩)
      rwa [hrequests]
    · refine .indexed hsid hopened' hindexed ?_ (by rwa [hrequests])
      simpa [State.setRuntime, Function.update_of_ne heq] using hopen
  | draining hsid hopened' hindexed hmem hkey =>
    refine .draining hsid hopened' hindexed ?_ (by rwa [hrequests])
    exact Multiset.mem_add.mpr (.inr (by simpa using hmem))
  | killing hsid hmem => exact .killing hsid (by simpa using hmem)

-- The drain reads one more shard of the index.
private theorem Coverage.shard {sid : SessionId} {rt n : Nat} {keys : List RequestKey}
    (h : Coverage cfg s ({.draining sid rt [] (n + 1)} + F))
    (hkeys : ∀ key, key ∈ keys ↔
      key ∈ (s.runtimes rt).requests ∧ cfg.shardOf key = cfg.shards - (n + 1)) :
    Coverage cfg s ({.draining sid rt keys n} + F) := by
  intro u hlive hsid
  refine (h u hlive hsid).pass (by simp) (fun sid' rt' keys' n' hmem hu hopened hindexed hkey ↦ ?_)
    (by simp)
  simp only [Multiset.mem_singleton, Tok.draining.injEq] at hmem
  obtain ⟨rfl, rfl, rfl, rfl⟩ := hmem
  obtain hnil | ⟨hle, hreq⟩ := hkey
  · cases hnil
  refine .draining hu hopened hindexed
    (Multiset.mem_add.mpr (.inl (Multiset.mem_singleton_self _))) ?_
  by_cases heq : cfg.shardOf u.key = cfg.shards - (n + 1)
  · exact .inl ((hkeys _).mpr ⟨hreq, heq⟩)
  · exact .inr ⟨by omega, hreq⟩

-- The drain has read every shard, so nothing live is left in the index it clears.
private theorem Coverage.clear {sid : SessionId} {rt : Nat}
    (h : Coverage cfg s ({.draining sid rt [] 0} + F))
    (hgates : Gates s (closers ({.draining sid rt [] 0} + F))) :
    Coverage cfg (s.setRuntime rt { s.runtimes rt with requests := [] }) (0 + F) := by
  have hshut := hgates.draining rt (mem_part.mpr ⟨.draining sid rt [] 0, by simp, rfl⟩)
  have honce : rt ∉ part Tok.draining? F := by
    have hnodup := hgates.once
    rw [Closers.runtimes, Multiset.nodup_add] at hnodup
    have hnodup' : (rt ::ₘ part Tok.draining? F).Nodup := by
      simpa [closers, Tok.draining?] using hnodup.2.1
    exact (Multiset.nodup_cons.mp hnodup').1
  have hother : ∀ rt', rt' ≠ rt →
      (s.setRuntime rt { s.runtimes rt with requests := [] }).runtimes rt' = s.runtimes rt' :=
    fun rt' hne ↦ Function.update_of_ne hne _ _
  intro u hlive hu
  cases h u hlive hu with
  | entering hmem => exact .entering (by simpa using hmem)
  | @indexed sid' rt' hsid hopened hindexed hopen hkey =>
    have hne : rt' ≠ rt := by
      rintro rfl
      rw [hshut] at hopen
      cases hopen
    exact .indexed hsid hopened hindexed (by rwa [hother rt' hne]) (by rwa [hother rt' hne])
  | @draining sid' rt' n keys hsid hopened hindexed hmem hkey =>
    obtain hself | hF := Multiset.mem_add.mp hmem
    · simp only [Multiset.mem_singleton, Tok.draining.injEq] at hself
      obtain ⟨rfl, rfl, rfl, rfl⟩ := hself
      obtain hnil | ⟨hle, -⟩ := hkey
      · cases hnil
      · exact absurd (cfg.shardOf_lt u.key) (by omega)
    · have hne : rt' ≠ rt := by
        rintro rfl
        exact honce (mem_part.mpr ⟨.draining sid' rt' keys n, hF, rfl⟩)
      exact .draining hsid hopened hindexed (by simpa using hF) (by rwa [hother rt' hne])
  | killing hsid hmem => exact .killing hsid (by simpa using hmem)

/-- Every action keeps live registrations watched, as long as index removals spare them. -/
theorem Coverage.step {a : Act} {r : a.Resp} (h : Coverage cfg s (e + F)) (hbase : Base s (e + F))
    (hgates : Gates s (closers (e + F))) (hadmission : Admission s (e + F))
    (hstrict : m.strict = true) (hspares : ∀ rt key, a = .requestsRemove rt key → s.Spares key)
    (hm : Moves cfg m call a r e e') (hr : (a.exec cfg call choice s).1 = r) :
    Coverage cfg (a.exec cfg call choice s).2 (e' + F) := by
  have hnil : s.history = s.history ++ [] := (List.append_nil _).symm
  have hopen : ∀ rt, (s.runtimes rt).isOpen = (s.runtimes rt).isOpen := fun _ ↦ rfl
  have hrequests : ∀ rt, (s.runtimes rt).requests = (s.runtimes rt).requests := fun _ ↦ rfl
  cases hm with
  | counter _ =>
    refine h.still (fun token x hx ↦ ?_) rfl hopen hrequests hnil
    rw [Multiset.eq_of_mem_replicate hx]
    exact fun h ↦ h
  | insertRefused =>
    rw [Act.exec, entriesInsert_false hr]
    exact h.still (by simp [Tok.Watches]) rfl hopen hrequests hnil
  | @insertFree entry hsid _ =>
    rw [Act.exec, (entriesInsert_true hr).2]
    refine h.insert entry.token (fun token x hx ↦ ?_) rfl rfl rfl (.inl hsid)
    simp only [zero_add, Multiset.mem_add, Multiset.mem_singleton] at hx
    obtain rfl | rfl | hx := hx
    · exact fun h ↦ h
    · exact fun h ↦ h
    · obtain ⟨sid, rfl⟩ := mem_idFor hx
      exact fun h ↦ h
  | @insertSession entry sid rt _ =>
    rw [Act.exec, (entriesInsert_true hr).2]
    refine h.insert entry.token (fun token x hx ↦ ?_) rfl rfl rfl (.inr ⟨rt, rfl⟩)
    simp only [Multiset.mem_add, Multiset.mem_singleton] at hx
    obtain rfl | rfl | rfl | hx := hx
    · exact fun h ↦ h
    · exact fun h ↦ h
    · exact fun h ↦ h
    · obtain ⟨sid, rfl⟩ := mem_idFor hx
      exact fun h ↦ h
  | get hlooks => exact h.get hbase.core hr hlooks
  | remove =>
    simp only [Act.exec, State.entriesRemove]
    split
    · exact h.still (by simp [Tok.Watches]) rfl hopen hrequests rfl
    · exact h.still (by simp [Tok.Watches]) rfl hopen hrequests hnil
  | lose hloses =>
    rw [Act.exec, (tryTransition_error hr).2]
    exact h.lose hadmission (tryTransition_error hr).1 hloses
  | claim =>
    rw [Act.exec, (tryTransition_ok hr).2]
    refine h.cell (tryTransition_ok hr).1 rfl rfl rfl rfl fun u _ x hx _ ↦ ?_
    exact Multiset.mem_add.mpr (.inl hx)
  | win hends _ =>
    rw [Act.exec, (tryTransition_ok hr).2]
    refine h.cell (tryTransition_ok hr).1 hends.source_live rfl rfl rfl fun u hu x hx hx' ↦ ?_
    have hne : u ≠ _ := fun heq ↦ by
      have hlive := hu heq
      rw [hends.target_terminal] at hlive
      cases hlive
    exact absurd hx' (hends.watches hne x hx)
  | waitersInsert _ =>
    refine h.still (fun token x hx ↦ ?_) rfl hopen hrequests hnil
    rw [mem_mintFor hx]
    exact fun h ↦ h
  | send =>
    refine h.still (fun token x hx ↦ ?_) rfl hopen hrequests rfl
    obtain hx | hx := Multiset.mem_add.mp hx
    · obtain ⟨channel, -, rfl⟩ := mem_senderFor hx
      exact fun h ↦ h
    · rw [mem_responseFor hx]
      exact fun h ↦ h
  | @drop key channel =>
    have he : ∀ token : RequestToken, ∀ x ∈ senderFor m key (some channel), ¬ x.Watches token :=
      fun token x hx ↦ by
        obtain ⟨channel, -, rfl⟩ := mem_senderFor hx
        exact fun h ↦ h
    simp only [Act.exec, State.channelDrop]
    split
    all_goals exact h.still he rfl hopen hrequests hnil
  | @openSession sid =>
    have he : ∀ token : RequestToken, ∀ x ∈ openFor m sid, ¬ x.Watches token := fun token x hx ↦ by
      rw [mem_openFor hx]
      exact fun h ↦ h
    simp only [Act.exec, State.sessionsOrInsert]
    split
    · exact h.still he rfl hopen hrequests hnil
    -- The runtimes of sessions that are already known are older than the new one.
    have hnew : ¬ ∃ sid, .opened sid s.nextRuntime ∈ s.history := by
      rintro ⟨sid, hmem⟩
      exact Nat.lt_irrefl _ (hbase.home.opened_lt sid _ hmem)
    refine h.runtime rfl rfl rfl (fun hold _ ↦ absurd hold hnew)
      (fun _ _ _ hold _ ↦ absurd hold hnew) fun token x hx hw ↦ absurd hw (he token x hx)
  | sessionGone | sessionTaken => exact h.still (by simp) rfl hopen hrequests rfl
  | isOpen => exact h
  | @accept token rt =>
    intro u hlive hsid
    refine (h u hlive hsid).pass (fun rt' i hmem ↦ ?_) (by simp) (by simp)
    simp only [Multiset.mem_singleton, Tok.entering.injEq] at hmem
    obtain ⟨rfl, rfl, rfl⟩ := hmem
    obtain ⟨sid, husid, hopened⟩ := hbase.home.tokens (.entering u rt' true) (by simp)
    obtain ⟨-, -, hindex⟩ := hadmission.holds (.entering u rt' true) (by simp)
    obtain ⟨hindexed, hkey⟩ := hindex rfl
    exact .indexed husid hopened hindexed hr (hkey hlive hr)
  | beginClose => exact h.beginClose hbase.home
  | abandon hloose =>
    rw [hstrict] at hloose
    cases hloose
  | @index token rt =>
    have hswap : Coverage cfg s ({.entering token rt true} + F) := by
      intro u hlive hsid
      refine (h u hlive hsid).pass (fun rt' i hmem ↦ ?_) (by simp) (by simp)
      simp only [Multiset.mem_singleton, Tok.entering.injEq] at hmem
      obtain ⟨rfl, rfl, rfl⟩ := hmem
      exact .entering (Multiset.mem_add.mpr (.inl (Multiset.mem_singleton_self _)))
    refine hswap.runtime rfl rfl rfl (fun _ hr' ↦ hr') (fun u _ _ _ hkey ↦ ?_)
      fun _ x hx _ ↦ hx
    by_cases heq : u.key = token.key
    · simp [heq]
    · simp [heq, hkey]
  | unindex =>
    refine h.runtime rfl rfl hnil (fun _ hr' ↦ hr') (fun u hlive hindexed _ hkey ↦ ?_) (by simp)
    have hne := (hspares _ _ rfl).ne hbase.core hlive hindexed
    simp [hkey, hne]
  | shard =>
    refine h.shard fun key ↦ ?_
    rw [← hr]
    simp [Act.exec]
  | clear => exact h.clear hgates
  | idExhausted | idAllocated =>
    simp only [Act.exec, State.nextRequestIdFetchUpdate]
    split
    · exact h.runtime rfl rfl rfl (fun _ hr' ↦ hr') (fun _ _ _ _ hkey ↦ hkey)
        (by simp [Tok.Watches])
    · exact h.still (by simp [Tok.Watches]) rfl hopen hrequests hnil
  | _ => exact h.still (by simp [Tok.Watches]) rfl hopen hrequests hnil

end Coverage

/-- Every waiter has an entry, or some call will look at it. -/
def Waiting (s : State) (D : Multiset Tok) : Prop :=
  ∀ key channel, s.waiters.lookup key = some channel →
    key.direction = .outbound ∧ ((s.entries.lookup key).isSome = true ∨ .owesWaiter key ∈ D)

section Waiting

variable {cfg : RegistryConfig} {m : Mode} {call choice : Nat} {s s' : State}
  {e e' F : Multiset Tok}

private theorem Waiting.frame (h : Waiting s (e + F))
    (hwaiters : ∀ key channel, s'.waiters.lookup key = some channel →
      s.waiters.lookup key = some channel)
    (hentries : ∀ key, key.direction = .outbound → (s.entries.lookup key).isSome = true →
      (s'.entries.lookup key).isSome = true ∨ .owesWaiter key ∈ e')
    (he : ∀ key, .owesWaiter key ∈ e → (s'.waiters.lookup key).isSome = true →
      (s'.entries.lookup key).isSome = true ∨ .owesWaiter key ∈ e') : Waiting s' (e' + F) := by
  intro key channel hlookup
  obtain ⟨hdir, hold⟩ := h key channel (hwaiters key channel hlookup)
  refine ⟨hdir, ?_⟩
  rw [Multiset.mem_add]
  obtain hsome | hmem := hold
  · exact (hentries key hdir hsome).imp_right .inl
  · obtain hmem | hmem := Multiset.mem_add.mp hmem
    · exact (he key hmem (by rw [hlookup]; rfl)).imp_right .inl
    · exact .inr (.inr hmem)

-- Operations that leave the entries and the waiters alone and give up no look at the waiters.
private theorem Waiting.still (h : Waiting s (e + F)) (hwaiters : s'.waiters = s.waiters)
    (hentries : s'.entries = s.entries) (he : ∀ key, .owesWaiter key ∈ e → .owesWaiter key ∈ e') :
    Waiting s' (e' + F) := by
  refine h.frame (fun key channel hl ↦ ?_) (fun key _ hsome ↦ ?_) fun key hmem _ ↦
    .inr (he key hmem)
  · rwa [hwaiters] at hl
  · rw [hentries]
    exact .inl hsome

private theorem Waiting.insert (h : Waiting s (e + F)) {key : RequestKey} {entry : RequestEntry}
    (hwaiters : s'.waiters = s.waiters) (hentries : s'.entries = s.entries.insert key entry)
    (he : ∀ key, .owesWaiter key ∉ e) : Waiting s' (e' + F) := by
  refine h.frame (fun key channel hl ↦ ?_) (fun k _ hsome ↦ .inl ?_) fun key hmem _ ↦
    absurd hmem (he key)
  · rwa [hwaiters] at hl
  · rw [hentries]
    by_cases heq : k = key
    · rw [heq, AList.lookup_insert]
      rfl
    · rwa [AList.lookup_insert_ne heq]

private theorem Waiting.unhook (h : Waiting s (e + F)) {key : RequestKey}
    (hwaiters : s'.waiters = s.waiters.erase key) (hentries : s'.entries = s.entries)
    (he : ∀ k, .owesWaiter k ∈ e → k = key) : Waiting s' (e' + F) := by
  refine h.frame (fun k channel hl ↦ ?_) (fun k _ hsome ↦ ?_) fun k hmem hsome ↦ ?_
  · rw [hwaiters] at hl
    have hne : k ≠ key := by
      rintro rfl
      rw [AList.lookup_erase] at hl
      cases hl
    rwa [AList.lookup_erase_ne hne] at hl
  · rw [hentries]
    exact .inl hsome
  · rw [he k hmem, hwaiters, AList.lookup_erase] at hsome
    cases hsome

private theorem Waiting.hook (h : Waiting s (e + F)) (key : RequestKey) {channel : Nat}
    (hdir : key.direction = .outbound) (hwaiters : s'.waiters = s.waiters.insert key channel)
    (hentries : s'.entries = s.entries) (hnew : .owesWaiter key ∈ e')
    (he : ∀ key, .owesWaiter key ∉ e) : Waiting s' (e' + F) := by
  intro k c hl
  by_cases heq : k = key
  · subst heq
    exact ⟨hdir, .inr (Multiset.mem_add.mpr (.inl hnew))⟩
  · rw [hwaiters, AList.lookup_insert_ne heq] at hl
    obtain ⟨hdir', hold⟩ := h k c hl
    refine ⟨hdir', ?_⟩
    rw [hentries]
    refine hold.imp_right fun hmem ↦ Multiset.mem_add.mpr (.inr ?_)
    exact (Multiset.mem_add.mp hmem).resolve_left (he k)

/-- Every action leaves each waiter with an entry or with a call that will look at it. -/
theorem Waiting.step {a : Act} {r : a.Resp} (h : Waiting s (e + F)) (hstrict : m.strict = true)
    (hm : Moves cfg m call a r e e') (hr : (a.exec cfg call choice s).1 = r) :
    Waiting (a.exec cfg call choice s).2 (e' + F) := by
  cases hm with
  | counter _ =>
    refine h.still rfl rfl fun key hmem ↦ ?_
    cases Multiset.eq_of_mem_replicate hmem
  | insertRefused =>
    rw [Act.exec, entriesInsert_false hr]
    exact h.still rfl rfl (by simp)
  | insertFree _ _ =>
    rw [Act.exec, (entriesInsert_true hr).2]
    refine h.insert rfl rfl fun key hmem ↦ ?_
    simp only [zero_add, Multiset.mem_add, Multiset.mem_singleton, reduceCtorEq, false_or] at hmem
    obtain ⟨sid, hid⟩ := mem_idFor hmem
    cases hid
  | insertSession _ =>
    rw [Act.exec, (entriesInsert_true hr).2]
    refine h.insert rfl rfl fun key hmem ↦ ?_
    simp only [Multiset.mem_add, Multiset.mem_singleton, reduceCtorEq, false_or] at hmem
    obtain ⟨sid, hid⟩ := mem_idFor hmem
    cases hid
  | @get key found e e' hlooks =>
    cases hlooks with
    | known => exact h
    | @waiterSafe entry =>
      refine h.frame (fun _ _ hl ↦ hl) (fun _ _ hsome ↦ .inl hsome) fun k hmem _ ↦ .inl ?_
      obtain rfl : k = key := by simpa using hmem
      have hlookup : s.entries.lookup k = some entry := hr
      show (s.entries.lookup k).isSome = true
      rw [hlookup]
      rfl
    | _ => exact h.still rfl rfl (by simp)
  | @remove caller token =>
    have hwaiters : (s.entriesRemove call caller token.key).waiters = s.waiters := by
      unfold State.entriesRemove
      split <;> rfl
    refine h.frame (fun k _ hl ↦ ?_) (fun k hdir hsome ↦ ?_) (by simp)
    · rwa [Act.exec, hwaiters] at hl
    · by_cases heq : k = token.key
      · right
        subst heq
        rw [waiterFor, if_pos ⟨hstrict, hdir⟩]
        exact Multiset.mem_singleton_self _
      · left
        simp only [Act.exec, State.entriesRemove]
        split
        · simpa [State.record, AList.lookup_erase_ne heq] using hsome
        · exact hsome
  | lose hloses =>
    rw [Act.exec, (tryTransition_error hr).2]
    cases hloses with
    | known => exact h
    | _ => exact h.still rfl rfl (by simp)
  | claim =>
    rw [Act.exec, (tryTransition_ok hr).2]
    refine h.still rfl rfl fun key hmem ↦ ?_
    cases mem_mintFor hmem
  | win hends _ =>
    rw [Act.exec, (tryTransition_ok hr).2]
    refine h.still rfl rfl fun key hmem ↦ ?_
    cases hends with
    | abort => simp at hmem
    | complete _ => cases mem_responseFor hmem
    | finish => cases mem_claimFor hmem
    | _ => simp at hmem
  | @waitersInsert token replaced hdir =>
    refine h.hook token.key (by simpa using hdir) rfl rfl ?_ fun key hmem ↦ ?_
    · simp [waiterFor, hstrict, hdir]
    · cases mem_mintFor hmem
  | waitersRemove => exact h.unhook rfl rfl (by simp)
  | waitersSettle => exact h.unhook rfl rfl (by simp)
  | send =>
    refine h.still rfl rfl fun key hmem ↦ ?_
    obtain hmem | hmem := Multiset.mem_add.mp hmem
    · obtain ⟨channel, -, hsender⟩ := mem_senderFor hmem
      cases hsender
    · cases mem_responseFor hmem
  | @drop key channel =>
    have he : ∀ k, .owesWaiter k ∈ senderFor m key (some channel) →
        .owesWaiter k ∈ (0 : Multiset Tok) := fun k hmem ↦ by
      obtain ⟨channel', -, hsender⟩ := mem_senderFor hmem
      cases hsender
    simp only [Act.exec, State.channelDrop]
    split
    all_goals exact h.still rfl rfl he
  | @openSession sid =>
    have he : ∀ key, .owesWaiter key ∈ openFor m sid → .owesWaiter key ∈ (0 : Multiset Tok) :=
      fun key hmem ↦ by cases mem_openFor hmem
    simp only [Act.exec, State.sessionsOrInsert]
    split
    all_goals exact h.still rfl rfl he
  | isOpen => exact h
  | idExhausted | idAllocated =>
    simp only [Act.exec, State.nextRequestIdFetchUpdate]
    split
    all_goals exact h.still rfl rfl (by simp)
  | _ => exact h.still rfl rfl (by simp)

end Waiting

end MsgTrans.Registry
