import MsgTrans.Base.History
import MsgTrans.Registry.Runs

/-!
# Request registry: ids of outbound requests

`next_request_id`, `request_registry.rs:433–456`, draws an id from its session's counter and
never reissues one. What the token rules keep true of it, as long as no session id is opened
twice: an id that was drawn is held by one caller or used by one registration.
-/

namespace MsgTrans.Registry

open MsgTrans.Base MsgTrans.Wire

/-- An id that was drawn and not used. -/
def Tok.id? : Tok → Option (SessionId × UInt32)
  | .id sid i => some (sid, i)
  | _ => none

/-- The session and the id of an outbound registration. -/
def RequestToken.request? (token : RequestToken) : Option (SessionId × UInt32) :=
  match token.direction, token.sessionId with
  | .outbound, some sid => some (sid, token.requestId)
  | _, _ => none

/-- The session and the id, for a step that registered an outbound request. -/
def Event.request? : Event → Option (SessionId × UInt32)
  | .registered _ token => token.request?
  | _ => none

/-- The ids that were drawn, held or used. -/
def issued (s : State) (D : Multiset Tok) : Multiset (SessionId × UInt32) :=
  part Tok.id? D + (s.history.filterMap Event.request? : List (SessionId × UInt32))

/-- The invariant of the ids. -/
structure Ids (s : State) (D : Multiset Tok) : Prop where
  unique : (issued s D).Nodup
  drawn : ∀ p ∈ issued s D, ∃ rt call, .opened p.1 rt ∈ s.history ∧
    .allocated call rt p.2 ∈ s.history ∧ p.2.toNat < (s.runtimes rt).nextRequestId.toNat
  once : ∀ sid rt rt', .opened sid rt ∈ s.history → .opened sid rt' ∈ s.history → rt = rt'

section Ids

variable {cfg : RegistryConfig} {m : Mode} {call choice : Nat} {s s' : State}
  {e e' F : Multiset Tok}

/-- The event neither opens a session nor registers a request. -/
def Event.idle : Event → Bool
  | .opened .. | .registered .. => false
  | _ => true

private theorem issued_frame {es : List Event} (hhist : s'.history = s.history ++ es)
    (hes : ∀ x ∈ es, x.request? = none) (hpart : part Tok.id? e' ≤ part Tok.id? e) :
    issued s' (e' + F) ≤ issued s (e + F) := by
  have hnil : es.filterMap Event.request? = [] := List.filterMap_eq_nil_iff.mpr hes
  unfold issued
  rw [hhist, List.filterMap_append, hnil, List.append_nil, part_add, part_add]
  exact add_le_add (add_le_add hpart le_rfl) le_rfl

private theorem Ids.frame (h : Ids s (e + F)) {es : List Event}
    (hcounter : ∀ rt, (s'.runtimes rt).nextRequestId = (s.runtimes rt).nextRequestId)
    (hhist : s'.history = s.history ++ es) (hes : ∀ x ∈ es, x.idle = true)
    (hpart : part Tok.id? e' ≤ part Tok.id? e) : Ids s' (e' + F) := by
  have hle : issued s' (e' + F) ≤ issued s (e + F) := by
    refine issued_frame hhist (fun x hx ↦ ?_) hpart
    have hidle := hes x hx
    cases x <;> first | rfl | cases hidle
  have hopened : ∀ sid rt, .opened sid rt ∈ s'.history → .opened sid rt ∈ s.history := by
    intro sid rt hmem
    rw [hhist, List.mem_append] at hmem
    exact hmem.resolve_right fun hmem' ↦ absurd (hes _ hmem') (by simp [Event.idle])
  have hsub : s.history ⊆ s'.history := hhist ▸ List.subset_append_left _ _
  refine ⟨Multiset.nodup_of_le hle h.unique, fun p hp ↦ ?_, fun sid rt rt' h₁ h₂ ↦ ?_⟩
  · obtain ⟨rt, c, ho, ha, hlt⟩ := h.drawn p (Multiset.mem_of_le hle hp)
    exact ⟨rt, c, hsub ho, hsub ha, by rwa [hcounter]⟩
  · exact h.once sid rt rt' (hopened _ _ h₁) (hopened _ _ h₂)

-- A registration uses its id up.
private theorem Ids.insert (h : Ids s (e + F)) {token : RequestToken}
    (hruntimes : s'.runtimes = s.runtimes)
    (hhist : s'.history = s.history ++ [Event.registered call token])
    (hpart : part Tok.id? e = token.request?.elim 0 (fun p ↦ {p}) + part Tok.id? e') :
    Ids s' (e' + F) := by
  have hlist : (([Event.registered call token].filterMap Event.request? :
      List (SessionId × UInt32)) : Multiset (SessionId × UInt32)) =
      token.request?.elim 0 fun p ↦ {p} := by
    cases hreq : token.request? with
    | none => simp [Event.request?, hreq]
    | some p => simp [Event.request?, hreq]
  have hissued : issued s' (e' + F) = issued s (e + F) := by
    unfold issued
    rw [hhist, List.filterMap_append, ← Multiset.coe_add, hlist, part_add, part_add, hpart]
    abel
  have hopened : ∀ sid rt, .opened sid rt ∈ s'.history → .opened sid rt ∈ s.history := by
    intro sid rt hmem
    rw [hhist, List.mem_append] at hmem
    simpa using hmem
  have hsub : s.history ⊆ s'.history := hhist ▸ List.subset_append_left _ _
  refine ⟨hissued ▸ h.unique, fun p hp ↦ ?_, fun sid rt rt' h₁ h₂ ↦ ?_⟩
  · obtain ⟨rt, c, ho, ha, hlt⟩ := h.drawn p (hissued ▸ hp)
    exact ⟨rt, c, hsub ho, hsub ha, by rwa [hruntimes]⟩
  · exact h.once sid rt rt' (hopened _ _ h₁) (hopened _ _ h₂)

-- A counter moves on by one and its value goes to the caller.
private theorem Ids.draw {sid : SessionId} {rt : Nat} {id : UInt32}
    (h : Ids s ({.sees sid rt} + F)) (hhome : Home s ({.sees sid rt} + F))
    (hr : (s.nextRequestIdFetchUpdate call rt).1 = some id) :
    Ids (s.nextRequestIdFetchUpdate call rt).2 ({.id sid id} + F) := by
  have hopened : .opened sid rt ∈ s.history := hhome.tokens (.sees sid rt) (by simp)
  unfold State.nextRequestIdFetchUpdate at hr ⊢
  simp only at hr ⊢
  by_cases hmax : (s.runtimes rt).nextRequestId ≠ 4294967295
  swap
  · simp [hmax] at hr
  rw [if_pos hmax] at hr ⊢
  obtain rfl : (s.runtimes rt).nextRequestId = id := Option.some.inj hr
  generalize hs' : (s.setRuntime rt { s.runtimes rt with
    nextRequestId := (s.runtimes rt).nextRequestId + 1 }).record
      (.allocated call rt (s.runtimes rt).nextRequestId) = s'
  have hhist : s'.history =
      s.history ++ [Event.allocated call rt (s.runtimes rt).nextRequestId] := by
    rw [← hs']
    rfl
  have hnext : (s'.runtimes rt).nextRequestId.toNat = (s.runtimes rt).nextRequestId.toNat + 1 := by
    have hlt := (s.runtimes rt).nextRequestId.toNat_lt
    have hne : (s.runtimes rt).nextRequestId.toNat ≠ 4294967295 := fun heq ↦
      hmax (UInt32.toNat_inj.mp heq)
    have hone : (1 : UInt32).toNat = 1 := rfl
    rw [← hs']
    simp only [State.record, State.setRuntime, Function.update_self, UInt32.toNat_add, hone]
    omega
  have hmono : ∀ rt', (s.runtimes rt').nextRequestId.toNat ≤
      (s'.runtimes rt').nextRequestId.toNat := by
    intro rt'
    by_cases heq : rt' = rt
    · subst heq
      omega
    · rw [← hs']
      simp [State.record, State.setRuntime, Function.update_of_ne heq]
  have hissued : issued s' ({.id sid (s.runtimes rt).nextRequestId} + F) =
      (sid, (s.runtimes rt).nextRequestId) ::ₘ issued s ({.sees sid rt} + F) := by
    have hnone : [Event.allocated call rt (s.runtimes rt).nextRequestId].filterMap
        Event.request? = [] := rfl
    simp [issued, hhist, hnone, Tok.id?]
  have hsub : s.history ⊆ s'.history := hhist ▸ List.subset_append_left _ _
  have hback : ∀ sid' rt', .opened sid' rt' ∈ s'.history → .opened sid' rt' ∈ s.history := by
    intro sid' rt' hmem
    rw [hhist, List.mem_append] at hmem
    simpa using hmem
  refine ⟨?_, fun p hp ↦ ?_, fun sid' rt₁ rt₂ h₁ h₂ ↦ ?_⟩
  · rw [hissued, Multiset.nodup_cons]
    refine ⟨fun hmem ↦ ?_, h.unique⟩
    -- Whatever was drawn from this session before is below the counter.
    obtain ⟨rt', c, ho, -, hlt⟩ := h.drawn _ hmem
    obtain rfl := h.once sid rt' rt ho hopened
    exact Nat.lt_irrefl _ hlt
  · rw [hissued, Multiset.mem_cons] at hp
    obtain rfl | hp := hp
    · refine ⟨rt, call, hsub hopened, ?_, ?_⟩
      · show _ ∈ s'.history
        simp [hhist]
      · show _ < (s'.runtimes rt).nextRequestId.toNat
        rw [hnext]
        exact Nat.lt_succ_self _
    · obtain ⟨rt', c, ho, ha, hlt⟩ := h.drawn p hp
      exact ⟨rt', c, hsub ho, hsub ha, Nat.lt_of_lt_of_le hlt (hmono rt')⟩
  · exact h.once sid' rt₁ rt₂ (hback _ _ h₁) (hback _ _ h₂)

private theorem nextRequestIdFetchUpdate_none {rt : Nat}
    (hr : (s.nextRequestIdFetchUpdate call rt).1 = none) :
    (s.nextRequestIdFetchUpdate call rt).2 = s := by
  unfold State.nextRequestIdFetchUpdate at hr ⊢
  simp only at hr ⊢
  split
  next hmax => simp [hmax] at hr
  next => rfl

-- A session id that was never opened gets a runtime of its own.
private theorem Ids.openSession (h : Ids s F) (hhome : Home s F) {sid : SessionId}
    (hnew : ∀ rt, .opened sid rt ∉ s.history) : Ids (s.sessionsOrInsert sid) F := by
  unfold State.sessionsOrInsert
  split
  · exact h
  generalize hs' : State.record _ (.opened sid s.nextRuntime) = s'
  have hhist : s'.history = s.history ++ [Event.opened sid s.nextRuntime] := by
    rw [← hs']
    rfl
  have hruntime : ∀ rt, rt ≠ s.nextRuntime → s'.runtimes rt = s.runtimes rt := by
    intro rt hne
    rw [← hs']
    exact Function.update_of_ne hne _ _
  have hsub : s.history ⊆ s'.history := hhist ▸ List.subset_append_left _ _
  have hissued : issued s' F = issued s F := by
    have hnone : [Event.opened sid s.nextRuntime].filterMap Event.request? = [] := rfl
    simp [issued, hhist, hnone]
  have hcases : ∀ sid' rt, .opened sid' rt ∈ s'.history →
      .opened sid' rt ∈ s.history ∨ (sid' = sid ∧ rt = s.nextRuntime) := by
    intro sid' rt hmem
    rw [hhist] at hmem
    simpa using hmem
  refine ⟨hissued ▸ h.unique, fun p hp ↦ ?_, fun sid' rt₁ rt₂ h₁ h₂ ↦ ?_⟩
  · obtain ⟨rt, c, ho, ha, hlt⟩ := h.drawn p (hissued ▸ hp)
    have hne : rt ≠ s.nextRuntime := by
      rintro rfl
      exact Nat.lt_irrefl _ (hhome.opened_lt _ _ ho)
    exact ⟨rt, c, hsub ho, hsub ha, by rwa [hruntime rt hne]⟩
  · obtain g₁ | ⟨rfl, rfl⟩ := hcases _ _ h₁ <;> obtain g₂ | ⟨e₂, rfl⟩ := hcases _ _ h₂
    · exact h.once sid' rt₁ rt₂ g₁ g₂
    · exact absurd g₁ (e₂ ▸ hnew rt₁)
    · exact absurd g₂ (hnew rt₂)
    · rfl

private theorem id_none (he : ∀ x ∈ e, x.id? = none) : part Tok.id? e = 0 := part_eq_zero he

private theorem Ids.still (h : Ids s (e + F)) {es : List Event}
    (he' : ∀ x ∈ e', x.id? = none)
    (hcounter : ∀ rt, (s'.runtimes rt).nextRequestId = (s.runtimes rt).nextRequestId)
    (hhist : s'.history = s.history ++ es) (hes : ∀ x ∈ es, x.idle = true) : Ids s' (e' + F) := by
  refine h.frame hcounter hhist hes ?_
  rw [id_none he']
  exact Multiset.zero_le _

private theorem counter_setRuntime {rt : Nat} {v : SessionRuntime}
    (hv : v.nextRequestId = (s.runtimes rt).nextRequestId) (rt' : Nat) :
    ((s.setRuntime rt v).runtimes rt').nextRequestId = (s.runtimes rt').nextRequestId := by
  by_cases heq : rt' = rt
  · subst heq
    simpa [State.setRuntime] using hv
  · simp [State.setRuntime, Function.update_of_ne heq]

private theorem part_idFor (hrouted : m.routed = true) (token : RequestToken) :
    part Tok.id? (idFor m token.key) = token.request?.elim 0 fun p ↦ {p} := by
  obtain ⟨sid, id, direction, generation⟩ := token
  cases direction <;> cases sid <;>
    simp [idFor, hrouted, RequestToken.request?, RequestToken.key, RequestKey.inbound,
      RequestKey.outbound, Tok.id?]

private theorem Ends.id? {token : RequestToken} {caller : Caller} {source target : RequestState}
    (h : Ends m call token caller source target e e') :
    ∀ x ∈ {.won call caller token} + owedFor caller target + e', x.id? = none := by
  have he' : ∀ x ∈ e', x.id? = none := by
    cases h with
    | complete _ =>
      intro x hx
      rw [mem_responseFor hx]
      rfl
    | _ => simp
  intro x hx
  simp only [Multiset.mem_add, Multiset.mem_singleton] at hx
  obtain (rfl | hx) | hx := hx
  · rfl
  · obtain ⟨counter, rfl⟩ := mem_owedFor hx
    rfl
  · exact he' x hx

/-- Every action keeps the ids in order, as long as no session id is opened twice. -/
theorem Ids.step {a : Act} {r : a.Resp} (h : Ids s (e + F)) (hhome : Home s (e + F))
    (hrouted : m.routed = true)
    (hfresh : ∀ sid, a = .sessionsOrInsert sid → ∀ rt, .opened sid rt ∉ s.history)
    (hm : Moves cfg m call a r e e') (hr : (a.exec cfg call choice s).1 = r) :
    Ids (a.exec cfg call choice s).2 (e' + F) := by
  have hnil : s.history = s.history ++ [] := (List.append_nil _).symm
  have hsame : ∀ rt, (s.runtimes rt).nextRequestId = (s.runtimes rt).nextRequestId := fun _ ↦ rfl
  cases hm with
  | insertRefused =>
    rw [Act.exec, entriesInsert_false hr]
    exact h.still (by simp) hsame hnil (by simp)
  | @insertFree entry hsid _ =>
    rw [Act.exec, (entriesInsert_true hr).2]
    refine h.insert rfl rfl ?_
    have hid := part_idFor hrouted entry.token
    rw [RequestEntry.key_token] at hid
    simp [hid, Tok.id?]
  | @insertSession entry sid rt hsid =>
    rw [Act.exec, (entriesInsert_true hr).2]
    refine h.insert rfl rfl ?_
    have hid := part_idFor hrouted entry.token
    rw [RequestEntry.key_token] at hid
    simp [hid, Tok.id?]
  | get hlooks =>
    cases hlooks with
    | known => exact h
    | _ => exact h.still (by simp [Tok.id?]) hsame hnil (by simp)
  | @remove caller token =>
    have hnone : ∀ x ∈ waiterFor m token.key, x.id? = none := fun x hx ↦ by
      rw [mem_waiterFor hx]
      rfl
    simp only [Act.exec, State.entriesRemove]
    split
    · exact h.still hnone hsame rfl (by simp [Event.idle])
    · exact h.still hnone hsame hnil (by simp)
  | lose hloses =>
    rw [Act.exec, (tryTransition_error hr).2]
    cases hloses with
    | known => exact h
    | _ => exact h.still (by simp [Tok.id?]) hsame hnil (by simp)
  | claim =>
    rw [Act.exec, (tryTransition_ok hr).2]
    refine h.still (fun x hx ↦ ?_) hsame rfl (by simp [Event.idle])
    obtain hx | hx := Multiset.mem_add.mp hx
    · rw [mem_mintFor hx]
      rfl
    · rw [Multiset.mem_singleton.mp hx]
      rfl
  | win hends _ =>
    rw [Act.exec, (tryTransition_ok hr).2]
    exact h.still hends.id? hsame rfl (by simp [Event.idle])
  | waitersInsert _ =>
    refine h.still (fun x hx ↦ ?_) hsame hnil (by simp)
    simp only [Multiset.mem_add] at hx
    obtain (hx | hx) | hx := hx
    · rw [mem_mintFor hx]
      rfl
    · rw [mem_waiterFor hx]
      rfl
    · obtain ⟨channel, -, rfl⟩ := mem_senderFor hx
      rfl
  | waitersRemove | waitersSettle =>
    refine h.still (fun x hx ↦ ?_) hsame hnil (by simp)
    obtain ⟨channel, -, rfl⟩ := mem_senderFor hx
    rfl
  | send =>
    refine h.still (fun x hx ↦ ?_) hsame rfl (by simp [Event.idle])
    rw [mem_responseFor hx]
    rfl
  | drop =>
    simp only [Act.exec, State.channelDrop]
    split
    all_goals exact h.still (by simp) hsame hnil (by simp)
  | openSession =>
    have h' : Ids s (0 + F) := h.still (by simp) hsame hnil (by simp)
    rw [zero_add] at h' ⊢
    exact h'.openSession hhome.drop (hfresh _ rfl)
  | sessionGone | sessionTaken => exact h.still (by simp [Tok.id?]) hsame rfl (by simp [Event.idle])
  | isOpen => exact h
  | beginClose =>
    exact h.still (by simp [Tok.id?]) (counter_setRuntime (by rfl)) hnil (by simp)
  | abandon _ => exact h.still (by simp) (counter_setRuntime (by rfl)) hnil (by simp)
  | index =>
    exact h.still (by simp [Tok.id?]) (counter_setRuntime (by rfl)) rfl (by simp [Event.idle])
  | unindex => exact h.still (by simp) (counter_setRuntime (by rfl)) hnil (by simp)
  | clear => exact h.still (by simp) (counter_setRuntime (by rfl)) hnil (by simp)
  | idExhausted =>
    have hs' : (s.nextRequestIdFetchUpdate call _).2 = s := nextRequestIdFetchUpdate_none hr
    rw [Act.exec, hs']
    exact h
  | idAllocated => exact h.draw hhome hr
  | _ => exact h.still (by simp [Tok.id?]) hsame hnil (by simp)

/-- Two outbound registrations of a session under one id are one. -/
theorem Ids.registered_event {D : Multiset Tok} (h : Ids s D) {c c' : Nat} {t u : RequestToken}
    {p : SessionId × UInt32} (ht : .registered c t ∈ s.history) (hu : .registered c' u ∈ s.history)
    (htp : t.request? = some p) (hup : u.request? = some p) : c = c' ∧ t = u := by
  have hnodup : (s.history.filterMap Event.request?).Nodup :=
    Multiset.coe_nodup.mp (Multiset.nodup_of_le (Multiset.le_add_left _ _) h.unique)
  exact Event.registered.inj (eq_of_nodup_filterMap hnodup ht hu htp hup)

/-- Only the ids that are held count. -/
theorem Ids.of_le {D D' : Multiset Tok} (h : Ids s D) (hle : part Tok.id? D' ≤ part Tok.id? D) :
    Ids s D' := by
  have hissued : issued s D' ≤ issued s D := add_le_add hle le_rfl
  exact ⟨Multiset.nodup_of_le hissued h.unique,
    fun p hp ↦ h.drawn p (Multiset.mem_of_le hissued hp), h.once⟩

end Ids

/-- A session id that was drawn and not opened. -/
def Tok.unopened? : Tok → Option SessionId
  | .unopened sid => some sid
  | _ => none

/-- The session that an event opens. -/
def Event.opens? : Event → Option SessionId
  | .opened sid _ => some sid
  | _ => none

/-- The session ids that were drawn, opened or not. -/
def drawnSessions (s : State) (D : Multiset Tok) : Multiset SessionId :=
  part Tok.unopened? D + (s.history.filterMap Event.opens? : List SessionId)

section Sessions

variable {cfg : RegistryConfig} {m : Mode} {call choice : Nat} {s : State} {e e' F : Multiset Tok}

-- Only the opening of a session opens one.
private theorem opens_of_exec {a : Act} (ha : ∀ sid, a ≠ .sessionsOrInsert sid) :
    (a.exec cfg call choice s).2.history.filterMap Event.opens? =
      s.history.filterMap Event.opens? := by
  cases a with
  | sessionsOrInsert sid => exact absurd rfl (ha sid)
  | entriesInsert entry =>
    simp only [Act.exec, State.entriesInsert]
    split <;> simp [State.record, Event.opens?]
  | entriesRemove caller key =>
    simp only [Act.exec, State.entriesRemove]
    split <;> simp [State.record, Event.opens?]
  | tryTransition caller token source target =>
    simp only [Act.exec, State.tryTransition]
    repeat' split
    all_goals simp [State.record, Event.opens?]
  | channelDrop channel =>
    simp only [Act.exec, State.channelDrop]
    split <;> rfl
  | nextRequestIdFetchUpdate rt =>
    simp only [Act.exec, State.nextRequestIdFetchUpdate]
    split <;> simp [State.record, State.setRuntime, Event.opens?]
  | channelSend | sessionsRemove | requestsInsert =>
    simp [Act.exec, State.channelSend, State.record, State.setRuntime, Event.opens?]
  | _ => rfl

-- The registry draws no session id itself.
private theorem unopened_le {a : Act} {r : a.Resp} (hm : Moves cfg m call a r e e') :
    part Tok.unopened? e' ≤ part Tok.unopened? e := by
  have hnone : (∀ x ∈ e', x.unopened? = none) →
      part Tok.unopened? e' ≤ part Tok.unopened? e := by
    intro h
    rw [part_eq_zero h]
    exact Multiset.zero_le _
  cases hm with
  | get hlooks =>
    cases hlooks with
    | known => exact le_rfl
    | _ => exact hnone (by simp [Tok.unopened?])
  | lose hloses =>
    cases hloses with
    | known => exact le_rfl
    | _ => exact hnone (by simp [Tok.unopened?])
  | isOpen => exact le_rfl
  | remove =>
    refine hnone fun x hx ↦ ?_
    rw [mem_waiterFor hx]
    rfl
  | claim =>
    refine hnone fun x hx ↦ ?_
    obtain hx | hx := Multiset.mem_add.mp hx
    · rw [mem_mintFor hx]
      rfl
    · rw [Multiset.mem_singleton.mp hx]
      rfl
  | win hends _ =>
    refine hnone fun x hx ↦ ?_
    simp only [Multiset.mem_add, Multiset.mem_singleton] at hx
    obtain (rfl | hx) | hx := hx
    · rfl
    · obtain ⟨counter, rfl⟩ := mem_owedFor hx
      rfl
    · cases hends with
      | complete _ =>
        rw [mem_responseFor hx]
        rfl
      | _ => simp at hx
  | waitersInsert _ =>
    refine hnone fun x hx ↦ ?_
    simp only [Multiset.mem_add] at hx
    obtain (hx | hx) | hx := hx
    · rw [mem_mintFor hx]
      rfl
    · rw [mem_waiterFor hx]
      rfl
    · obtain ⟨channel, -, rfl⟩ := mem_senderFor hx
      rfl
  | waitersRemove | waitersSettle =>
    refine hnone fun x hx ↦ ?_
    obtain ⟨channel, -, rfl⟩ := mem_senderFor hx
    rfl
  | send =>
    refine hnone fun x hx ↦ ?_
    rw [mem_responseFor hx]
    rfl
  | _ => exact hnone (by simp [Tok.unopened?])

/-- A session id stays drawn once, whatever the registry does with it. -/
theorem drawnSessions_le {a : Act} {r : a.Resp} (hnumbered : m.numbered = true)
    (hm : Moves cfg m call a r e e') :
    drawnSessions (a.exec cfg call choice s).2 (e' + F) ≤ drawnSessions s (e + F) := by
  unfold drawnSessions
  rw [part_add, part_add]
  by_cases ha : ∃ sid, a = .sessionsOrInsert sid
  · obtain ⟨sid, rfl⟩ := ha
    have hle := unopened_le hm
    cases hm
    simp only [Act.exec, State.sessionsOrInsert]
    split
    · exact add_le_add (add_le_add hle le_rfl) le_rfl
    · have hpart : part Tok.unopened? (openFor m sid) = {sid} := by
        simp [openFor, hnumbered, Tok.unopened?]
      have hopens : (([Event.opened sid s.nextRuntime].filterMap Event.opens? : List SessionId) :
          Multiset SessionId) = {sid} := rfl
      simp only [State.record, List.filterMap_append, ← Multiset.coe_add, hpart, hopens, part_zero]
      apply le_of_eq
      abel
  · rw [opens_of_exec fun sid h ↦ ha ⟨sid, h⟩]
    exact add_le_add (add_le_add (unopened_le hm) le_rfl) le_rfl

/-- A session id that is not opened yet was never opened. -/
theorem not_opened_of_unopened {sid : SessionId} (h : (drawnSessions s ({.unopened sid} + F)).Nodup)
    (rt : Nat) : .opened sid rt ∉ s.history := by
  intro hmem
  have hcons : drawnSessions s ({.unopened sid} + F) = sid ::ₘ drawnSessions s F := by
    simp [drawnSessions, Tok.unopened?]
  rw [hcons, Multiset.nodup_cons] at h
  refine h.1 (Multiset.mem_add.mpr (.inr (Multiset.mem_coe.mpr ?_)))
  exact List.mem_filterMap.mpr ⟨_, hmem, rfl⟩

end Sessions

section Draws

open Prog

variable {cfg : RegistryConfig} {key : RequestKey}

end Draws

end MsgTrans.Registry
