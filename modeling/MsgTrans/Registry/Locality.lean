import MsgTrans.Registry.Runs

/-!
# Request registry: what a call leaves alone

A call whose tokens stay within a scope does not touch the sessions outside it: their runtimes,
their entries with the lifecycle states, and their waiters are the same after each of its steps.
-/

namespace MsgTrans.Registry

open MsgTrans.Base MsgTrans.Wire

/-- Nothing of this session has changed: it is open or closed as before, and its registrations and
waiters are the same. -/
structure State.Same (s s' : State) (sid : SessionId) : Prop where
  session : s'.sessions.lookup sid = s.sessions.lookup sid
  isOpen : ∀ rt, .opened sid rt ∈ s.history → (s'.runtimes rt).isOpen = (s.runtimes rt).isOpen
  entries : ∀ key : RequestKey, key.sessionId = some sid →
    s'.entries.lookup key = s.entries.lookup key
  cells : ∀ token : RequestToken, token.sessionId = some sid → s'.cells token = s.cells token
  waiters : ∀ key : RequestKey, key.sessionId = some sid →
    s'.waiters.lookup key = s.waiters.lookup key

section Same

variable {cfg : RegistryConfig} {m : Mode} {call choice : Nat} {s s' : State} {sid : SessionId}
  {P : Option SessionId → Prop} {e e' F : Multiset Tok}

theorem State.Same.refl : s.Same s sid := ⟨rfl, fun _ _ ↦ rfl, fun _ _ ↦ rfl, fun _ _ ↦ rfl,
  fun _ _ ↦ rfl⟩

-- Most actions change one of the five parts at most.
private theorem same_entries (hsessions : s'.sessions = s.sessions)
    (hruntimes : s'.runtimes = s.runtimes) (hwaiters : s'.waiters = s.waiters)
    (hentries : ∀ key : RequestKey, key.sessionId = some sid →
      s'.entries.lookup key = s.entries.lookup key)
    (hcells : ∀ token : RequestToken, token.sessionId = some sid →
      s'.cells token = s.cells token) : s.Same s' sid :=
  ⟨by rw [hsessions], fun _ _ ↦ by rw [hruntimes], hentries, hcells, fun _ _ ↦ by rw [hwaiters]⟩

private theorem same_runtime (rt : Nat) (v : SessionRuntime) (hsessions : s'.sessions = s.sessions)
    (hruntimes : s'.runtimes = Function.update s.runtimes rt v)
    (hv : .opened sid rt ∈ s.history → v.isOpen = (s.runtimes rt).isOpen)
    (hentries : s'.entries = s.entries) (hcells : s'.cells = s.cells)
    (hwaiters : s'.waiters = s.waiters) : s.Same s' sid := by
  refine ⟨by rw [hsessions], fun rt' hrt' ↦ ?_, fun _ _ ↦ by rw [hentries],
    fun _ _ ↦ by rw [hcells], fun _ _ ↦ by rw [hwaiters]⟩
  rw [hruntimes]
  by_cases heq : rt' = rt
  · subst heq
    rw [Function.update_self]
    exact hv hrt'
  · rw [Function.update_of_ne heq]

private theorem same_waiters (hsessions : s'.sessions = s.sessions)
    (hruntimes : s'.runtimes = s.runtimes) (hentries : s'.entries = s.entries)
    (hcells : s'.cells = s.cells)
    (hwaiters : ∀ key : RequestKey, key.sessionId = some sid →
      s'.waiters.lookup key = s.waiters.lookup key) : s.Same s' sid :=
  ⟨by rw [hsessions], fun _ _ ↦ by rw [hruntimes], fun _ _ ↦ by rw [hentries],
    fun _ _ ↦ by rw [hcells], hwaiters⟩

private theorem same_cell {token : RequestToken} {v : RequestState} (hne : token.sessionId ≠ some sid)
    (hsessions : s'.sessions = s.sessions) (hruntimes : s'.runtimes = s.runtimes)
    (hwaiters : s'.waiters = s.waiters) (hentries : s'.entries = s.entries)
    (hcells : s'.cells = Function.update s.cells token (some v)) : s.Same s' sid := by
  refine same_entries hsessions hruntimes hwaiters (fun _ _ ↦ by rw [hentries]) fun u hu ↦ ?_
  rw [hcells, Function.update_of_ne]
  rintro rfl
  exact hne hu

private theorem same_insert {entry : RequestEntry} (hne : entry.key.sessionId ≠ some sid)
    (hsessions : s'.sessions = s.sessions) (hruntimes : s'.runtimes = s.runtimes)
    (hwaiters : s'.waiters = s.waiters) (hentries : s'.entries = s.entries.insert entry.key entry)
    (hcells : s'.cells = Function.update s.cells entry.token (some .pending)) : s.Same s' sid := by
  refine same_entries hsessions hruntimes hwaiters (fun key hkey ↦ ?_) fun u hu ↦ ?_
  · rw [hentries, AList.lookup_insert_ne]
    rintro rfl
    exact hne hkey
  · rw [hcells, Function.update_of_ne]
    rintro rfl
    exact hne hu

private theorem lookup_erase_of_session {β : Type} {m : Table RequestKey β} {key key' : RequestKey}
    (hne : key.sessionId ≠ some sid) (hkey' : key'.sessionId = some sid) :
    (m.erase key).lookup key' = m.lookup key' := by
  rw [AList.lookup_erase_ne]
  rintro rfl
  exact hne hkey'

private theorem same_unhook {key : RequestKey} (hstrict : m.strict = true)
    (he' : ∀ x ∈ senderFor m key (s.waiters.lookup key), x.Within call P) (hP : ¬ P (some sid)) :
    s.Same { s with waiters := s.waiters.erase key } sid := by
  cases hw : s.waiters.lookup key with
  | none =>
    rw [Table.erase_of_lookup_eq_none hw]
    exact .refl
  | some channel =>
    have hkey : P key.sessionId := by
      rw [hw] at he'
      exact he' (.holdsSender key channel) (by simp [senderFor, hstrict])
    have hne : key.sessionId ≠ some sid := fun h ↦ hP (h ▸ hkey)
    exact same_waiters rfl rfl rfl rfl fun key' hkey' ↦ lookup_erase_of_session hne hkey'

/-- A step of a call within a scope leaves the sessions outside it alone. -/
theorem Moves.same {a : Act} {r : a.Resp} (hm : Moves cfg m call a r e e')
    (hhome : Home s (e + F)) (hstrict : m.strict = true) (hnumbered : m.numbered = true)
    (he : ∀ x ∈ e, x.Within call P) (he' : ∀ x ∈ e', x.Within call P) (hP : ¬ P (some sid))
    (hr : (a.exec cfg call choice s).1 = r) : s.Same (a.exec cfg call choice s).2 sid := by
  have hout : ∀ {o : Option SessionId}, P o → o ≠ some sid := fun ho h ↦ hP (h ▸ ho)
  -- A runtime of a session in the scope is not one of this session.
  have hforeign : ∀ {sid' : SessionId} {rt : Nat}, P (some sid') → .opened sid' rt ∈ s.history →
      .opened sid rt ∉ s.history := by
    intro sid' rt hsid' hopened hmem
    rw [hhome.opened_unique _ _ _ hopened hmem] at hsid'
    exact hP hsid'
  have hhomed : ∀ {x : Tok}, x ∈ e → x.Homed s.history := fun hx ↦
    hhome.tokens _ (Multiset.mem_add.mpr (.inl hx))
  cases hm with
  | insertRefused =>
    rw [Act.exec, entriesInsert_false hr]
    exact .refl
  | @insertFree entry hsid _ =>
    rw [Act.exec, (entriesInsert_true hr).2]
    exact same_insert (by rw [hsid]; simp) rfl rfl rfl rfl rfl
  | @insertSession entry sid' rt hsid =>
    rw [Act.exec, (entriesInsert_true hr).2]
    have hkey : P entry.key.sessionId := he' (.entering entry.token rt false) (by simp)
    exact same_insert (hout hkey) rfl rfl rfl rfl rfl
  | @remove caller token =>
    have hkey : P token.sessionId := (he (.subbed call caller token) (by simp)).2
    have hne : token.key.sessionId ≠ some sid := by
      rw [RequestToken.sessionId_key]
      exact hout hkey
    simp only [Act.exec, State.entriesRemove]
    split
    · exact same_entries rfl rfl rfl (fun key hkey ↦ lookup_erase_of_session hne hkey)
        fun _ _ ↦ rfl
    · exact .refl
  | lose _ =>
    rw [Act.exec, (tryTransition_error hr).2]
    exact .refl
  | @claim token =>
    rw [Act.exec, (tryTransition_ok hr).2]
    have htoken : P token.sessionId := he' (.claim token) (by simp)
    exact same_cell (hout htoken) rfl rfl rfl rfl rfl
  | @win caller token source target e₀ e₁ _ _ =>
    rw [Act.exec, (tryTransition_ok hr).2]
    have htoken : P token.sessionId := (he' (.won call caller token) (by simp)).2
    exact same_cell (hout htoken) rfl rfl rfl rfl rfl
  | @waitersInsert token replaced _ =>
    have htoken : P token.sessionId := he' (.minted token) (by simp [mintFor, hstrict])
    have hne : token.key.sessionId ≠ some sid := by
      rw [RequestToken.sessionId_key]
      exact hout htoken
    refine same_waiters rfl rfl rfl rfl fun key hkey ↦ ?_
    simp only [Act.exec]
    rw [AList.lookup_insert_ne]
    rintro rfl
    exact hne hkey
  | waitersRemove =>
    subst hr
    exact same_unhook hstrict he' hP
  | waitersSettle =>
    subst hr
    exact same_unhook hstrict he' hP
  | drop =>
    simp only [Act.exec, State.channelDrop]
    split <;> exact same_entries rfl rfl rfl (fun _ _ ↦ rfl) fun _ _ ↦ rfl
  | @openSession sid' =>
    have hsid' : P (some sid') := he (.unopened sid') (by simp [openFor, hnumbered])
    have hne : sid ≠ sid' := by
      rintro rfl
      exact hP hsid'
    simp only [Act.exec, State.sessionsOrInsert]
    split
    · exact .refl
    · refine ⟨AList.lookup_insert_ne hne, fun rt hrt ↦ ?_, fun _ _ ↦ rfl, fun _ _ ↦ rfl,
        fun _ _ ↦ rfl⟩
      simp only [State.record]
      rw [Function.update_of_ne (Nat.ne_of_lt (hhome.opened_lt _ _ hrt))]
  | @sessionGone sid' =>
    have hsid' : P (some sid') := he' (.gone sid') (by simp)
    have hne : sid ≠ sid' := by
      rintro rfl
      exact hP hsid'
    exact ⟨AList.lookup_erase_ne hne, fun _ _ ↦ rfl, fun _ _ ↦ rfl, fun _ _ ↦ rfl, fun _ _ ↦ rfl⟩
  | @sessionTaken sid' rt =>
    have hsid' : P (some sid') := he' (.gone sid') (by simp)
    have hne : sid ≠ sid' := by
      rintro rfl
      exact hP hsid'
    exact ⟨AList.lookup_erase_ne hne, fun _ _ ↦ rfl, fun _ _ ↦ rfl, fun _ _ ↦ rfl, fun _ _ ↦ rfl⟩
  | @beginClose sid' rt =>
    have hsid' : P (some sid') := he (.closing sid' rt) (by simp)
    have hopened : .opened sid' rt ∈ s.history := hhomed (x := .closing sid' rt) (by simp)
    exact same_runtime rt _ rfl rfl (fun h ↦ absurd h (hforeign hsid' hopened)) rfl rfl rfl
  | @abandon sid' rt _ =>
    have hsid' : P (some sid') := he (.closing sid' rt) (by simp)
    have hopened : .opened sid' rt ∈ s.history := hhomed (x := .closing sid' rt) (by simp)
    exact same_runtime rt _ rfl rfl (fun h ↦ absurd h (hforeign hsid' hopened)) rfl rfl rfl
  | index => exact same_runtime _ _ rfl rfl (fun _ ↦ rfl) rfl rfl rfl
  | unindex => exact same_runtime _ _ rfl rfl (fun _ ↦ rfl) rfl rfl rfl
  | clear => exact same_runtime _ _ rfl rfl (fun _ ↦ rfl) rfl rfl rfl
  | idExhausted =>
    simp only [Act.exec, State.nextRequestIdFetchUpdate]
    split
    · exact same_runtime _ _ rfl rfl (fun _ ↦ rfl) rfl rfl rfl
    · exact .refl
  | idAllocated =>
    simp only [Act.exec, State.nextRequestIdFetchUpdate]
    split
    · exact same_runtime _ _ rfl rfl (fun _ ↦ rfl) rfl rfl rfl
    · exact .refl
  | _ => exact same_entries rfl rfl rfl (fun _ _ ↦ rfl) fun _ _ ↦ rfl

end Same

end MsgTrans.Registry
