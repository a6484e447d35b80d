import MsgTrans.Registry.Replies

/-!
# Request registry: what a call has done itself

Facts about the tokens one call holds, as opposed to those of all calls together: the
registrations it was granted are its own, the ids it holds were drawn by it, and the packet it
works on is the one it was given.
-/

namespace MsgTrans.Registry

open MsgTrans.Base MsgTrans.Wire

/-- The call drew this id from the session's counter. -/
def Drew (h : List Event) (call : Nat) (p : SessionId × UInt32) : Prop :=
  ∃ rt, .opened p.1 rt ∈ h ∧ .allocated call rt p.2 ∈ h

/-- What the tokens of one call say about its own steps. -/
structure Owned (h : List Event) (call : Nat) (d : Multiset Tok) : Prop where
  registered : ∀ token ∈ part Tok.registered? d, .registered call token ∈ h
  drawn : ∀ p ∈ part Tok.id? d, Drew h call p

/-- Every outbound registration of a session is made under an id its call drew there. -/
def Sourced (h : List Event) : Prop :=
  ∀ c token p, .registered c token ∈ h → token.request? = some p → Drew h c p

section Owned

variable {cfg : RegistryConfig} {m : Mode} {call choice : Nat} {s : State} {h h' : List Event}
  {d e e' F : Multiset Tok}

theorem Drew.mono {p : SessionId × UInt32} (hp : Drew h call p) (hsub : h ⊆ h') :
    Drew h' call p := by
  obtain ⟨rt, ho, ha⟩ := hp
  exact ⟨rt, hsub ho, hsub ha⟩

theorem Owned.mono (hd : Owned h call d) (hsub : h ⊆ h') : Owned h' call d :=
  ⟨fun token ht ↦ hsub (hd.registered token ht), fun p hp ↦ (hd.drawn p hp).mono hsub⟩

/-- A call without tokens has nothing to account for. -/
theorem Owned.of_part_eq_zero (hregistered : part Tok.registered? d = 0)
    (hid : part Tok.id? d = 0) : Owned h call d := by
  refine ⟨fun token ht ↦ ?_, fun p hp ↦ ?_⟩
  · simp [hregistered] at ht
  · simp [hid] at hp

private theorem Owned.replace (hd : Owned h call (e + F)) (hsub : h ⊆ h')
    (hregistered : ∀ token ∈ part Tok.registered? e',
      token ∈ part Tok.registered? e ∨ .registered call token ∈ h')
    (hid : ∀ p ∈ part Tok.id? e', p ∈ part Tok.id? e ∨ Drew h' call p) :
    Owned h' call (e' + F) := by
  have hold := hd.mono hsub
  refine ⟨fun token ht ↦ ?_, fun p hp ↦ ?_⟩
  · rw [part_add, Multiset.mem_add] at ht
    have hcases : token ∈ part Tok.registered? (e + F) ∨ .registered call token ∈ h' := by
      rw [part_add, Multiset.mem_add]
      exact ht.elim (fun ht ↦ (hregistered token ht).imp_left .inl) (fun ht ↦ .inl (.inr ht))
    exact hcases.elim (hold.registered token) fun hmem ↦ hmem
  · rw [part_add, Multiset.mem_add] at hp
    have hcases : p ∈ part Tok.id? (e + F) ∨ Drew h' call p := by
      rw [part_add, Multiset.mem_add]
      exact hp.elim (fun hp ↦ (hid p hp).imp_left .inl) (fun hp ↦ .inl (.inr hp))
    exact hcases.elim (hold.drawn p) fun hmem ↦ hmem

/-- The token grants neither a registration nor an id. -/
def Tok.bare : Tok → Bool
  | .entering .. | .minted _ | .id .. => false
  | _ => true

private theorem Owned.still (hd : Owned h call (e + F)) (hsub : h ⊆ h')
    (he' : ∀ x ∈ e', x.bare = true ∨ x ∈ e) : Owned h' call (e' + F) := by
  refine hd.replace hsub (fun token ht ↦ .inl ?_) fun p hp ↦ .inl ?_
  · obtain ⟨x, hx, hxt⟩ := mem_part.mp ht
    obtain hbare | hx := he' x hx
    · cases x with
      | entering | minted => cases hbare
      | _ => cases hxt
    · exact mem_part.mpr ⟨x, hx, hxt⟩
  · obtain ⟨x, hx, hxp⟩ := mem_part.mp hp
    obtain hbare | hx := he' x hx
    · cases x with
      | id => cases hbare
      | _ => cases hxp
    · exact mem_part.mpr ⟨x, hx, hxp⟩

private theorem Ends.bare {token : RequestToken} {caller : Caller} {source target : RequestState}
    (hends : Ends m call token caller source target e e') :
    ∀ x ∈ {.won call caller token} + owedFor caller target + e', x.bare = true := by
  have he' : ∀ x ∈ e', x.bare = true := by
    cases hends with
    | complete _ =>
      intro x hx
      rw [mem_responseFor hx]
      rfl
    | _ => simp
  intro x hx
  simp only [Multiset.mem_add, Multiset.mem_singleton] at hx
  obtain (rfl | hx) | hx := hx
  · rfl
  · obtain ⟨counter, rfl⟩ := mem_owedFor hx
    rfl
  · exact he' x hx

/-- An allocation records the id it answers. -/
theorem nextRequestIdFetchUpdate_some {rt : Nat} {i : UInt32}
    (hr : (s.nextRequestIdFetchUpdate call rt).1 = some i) :
    .allocated call rt i ∈ (s.nextRequestIdFetchUpdate call rt).2.history := by
  unfold State.nextRequestIdFetchUpdate at hr ⊢
  simp only at hr ⊢
  split
  next hmax =>
    rw [if_pos hmax] at hr
    simp [State.record, Option.some.inj hr]
  next hmax =>
    rw [if_neg hmax] at hr
    cases hr

/-- A call's own steps account for the tokens it holds. -/
theorem Owned.step {a : Act} {r : a.Resp} (hd : Owned s.history call (e + F))
    (hsees : ∀ sid rt, .sees sid rt ∈ e → .opened sid rt ∈ s.history)
    (hm : Moves cfg m call a r e e') (hr : (a.exec cfg call choice s).1 = r) :
    Owned (a.exec cfg call choice s).2.history call (e' + F) := by
  have hsub : s.history ⊆ (a.exec cfg call choice s).2.history := Act.history_subset
  cases hm with
  | @insertFree entry _ _ =>
    refine hd.replace hsub (fun token ht ↦ .inr ?_) (by simp [Tok.id?])
    obtain rfl : token = entry.token := by simpa [Tok.registered?] using ht
    rw [Act.exec, (entriesInsert_true hr).2]
    simp [State.record]
  | @insertSession entry sid rt _ =>
    refine hd.replace hsub (fun token ht ↦ .inr ?_) (by simp [Tok.id?])
    obtain rfl : token = entry.token := by simpa [Tok.registered?] using ht
    rw [Act.exec, (entriesInsert_true hr).2]
    simp [State.record]
  | get hlooks =>
    cases hlooks with
    | known => exact hd.mono hsub
    | _ => exact hd.still hsub (by simp [Tok.bare])
  | remove =>
    refine hd.still hsub fun x hx ↦ .inl ?_
    rw [mem_waiterFor hx]
    rfl
  | lose hloses =>
    cases hloses with
    | known => exact hd.mono hsub
    | _ => exact hd.still hsub (by simp [Tok.bare])
  | claim =>
    refine hd.still hsub fun x hx ↦ ?_
    obtain hx | hx := Multiset.mem_add.mp hx
    · exact .inr hx
    · rw [Multiset.mem_singleton.mp hx]
      exact .inl rfl
  | win hends _ => exact hd.still hsub fun x hx ↦ .inl (hends.bare x hx)
  | waitersInsert _ =>
    refine hd.still hsub fun x hx ↦ ?_
    simp only [Multiset.mem_add] at hx
    obtain (hx | hx) | hx := hx
    · exact .inr hx
    · rw [mem_waiterFor hx]
      exact .inl rfl
    · obtain ⟨channel, -, rfl⟩ := mem_senderFor hx
      exact .inl rfl
  | waitersRemove | waitersSettle =>
    refine hd.still hsub fun x hx ↦ .inl ?_
    obtain ⟨channel, -, rfl⟩ := mem_senderFor hx
    rfl
  | send =>
    refine hd.still hsub fun x hx ↦ .inl ?_
    rw [mem_responseFor hx]
    rfl
  | isOpen => exact hd.mono hsub
  | accept | index =>
    exact hd.replace hsub (by simp [Tok.registered?]) (by simp [Tok.id?])
  | @idAllocated sid rt id =>
    refine hd.replace hsub (by simp [Tok.registered?]) fun p hp ↦ .inr ?_
    obtain rfl : p = (sid, id) := by simpa [Tok.id?] using hp
    exact ⟨rt, hsub (hsees sid rt (by simp)), nextRequestIdFetchUpdate_some hr⟩
  | _ => exact hd.still hsub (by simp [Tok.bare])

-- Only an insertion registers, and only the entry it inserts.
private theorem registered_cases {a : Act} {c : Nat} {token : RequestToken}
    (hmem : .registered c token ∈ (a.exec cfg call choice s).2.history) :
    .registered c token ∈ s.history ∨ ∃ entry, a = .entriesInsert entry ∧
      (s.entriesInsert call entry).1 = true ∧ c = call ∧ token = entry.token := by
  cases a with
  | entriesInsert entry =>
    cases hr : (s.entriesInsert call entry).1 with
    | false =>
      rw [Act.exec, entriesInsert_false hr] at hmem
      exact .inl hmem
    | true =>
      rw [Act.exec, (entriesInsert_true hr).2] at hmem
      simp only [State.record, List.mem_append, List.mem_singleton, Event.registered.injEq] at hmem
      exact hmem.imp_right fun h ↦ ⟨entry, rfl, hr, h⟩
  | entriesRemove caller key =>
    simp only [Act.exec, State.entriesRemove] at hmem
    split at hmem <;> simpa [State.record] using hmem
  | tryTransition caller token source target =>
    simp only [Act.exec, State.tryTransition] at hmem
    repeat' split at hmem
    all_goals simpa [State.record] using hmem
  | channelDrop channel =>
    simp only [Act.exec, State.channelDrop] at hmem
    split at hmem <;> exact .inl hmem
  | sessionsOrInsert sid =>
    simp only [Act.exec, State.sessionsOrInsert] at hmem
    split at hmem <;> simpa [State.record] using hmem
  | nextRequestIdFetchUpdate rt =>
    simp only [Act.exec, State.nextRequestIdFetchUpdate] at hmem
    split at hmem <;> simpa [State.record, State.setRuntime] using hmem
  | channelSend | sessionsRemove | requestsInsert =>
    left
    simpa [Act.exec, State.channelSend, State.record, State.setRuntime] using hmem
  | _ => exact .inl hmem

private theorem mem_idFor_of_request? (hrouted : m.routed = true) {entry : RequestEntry}
    {p : SessionId × UInt32} (hp : entry.token.request? = some p) :
    .id p.1 p.2 ∈ idFor m entry.key := by
  obtain ⟨⟨sid, i, direction⟩, biz, created, deadline, g⟩ := entry
  cases direction with
  | inbound => cases hp
  | outbound =>
    cases sid with
    | none => cases hp
    | some sid =>
      obtain rfl := Option.some.inj hp
      simp [idFor, hrouted, RequestEntry.token]

/-- The ids of a session's outbound registrations are drawn by the calls that use them. -/
theorem Sourced.step {a : Act} {r : a.Resp} (hs : Sourced s.history)
    (hd : Owned s.history call (e + F)) (hrouted : m.routed = true)
    (hm : Moves cfg m call a r e e') (hr : (a.exec cfg call choice s).1 = r) :
    Sourced (a.exec cfg call choice s).2.history := by
  have hsub : s.history ⊆ (a.exec cfg call choice s).2.history := Act.history_subset
  intro c token p hmem hp
  obtain hold | ⟨entry, rfl, hins, rfl, rfl⟩ := registered_cases hmem
  · exact (hs c token p hold hp).mono hsub
  refine (hd.drawn p (mem_part.mpr ⟨.id p.1 p.2, ?_, rfl⟩)).mono hsub
  have hid := mem_idFor_of_request? hrouted hp
  cases hm with
  | insertRefused =>
    have hfalse : (s.entriesInsert c entry).1 = false := hr
    rw [hins] at hfalse
    cases hfalse
  | insertFree => simp [hid]
  | insertSession => simp [hid]

/-- A call works on the packet it was given. -/
theorem Moves.arrival {a : Act} {r : a.Resp} (hm : Moves cfg m call a r e e') {x : Arrival}
    (hx : x ∈ part Tok.arrival? e') : ∃ y ∈ part Tok.arrival? e, y.call = x.call ∧
      y.sessionId = x.sessionId ∧ y.requestId = x.requestId ∧ y.packet = x.packet := by
  have hsame : x ∈ part Tok.arrival? e → ∃ y ∈ part Tok.arrival? e, y.call = x.call ∧
      y.sessionId = x.sessionId ∧ y.requestId = x.requestId ∧ y.packet = x.packet :=
    fun h ↦ ⟨x, h, rfl, rfl, rfl, rfl⟩
  obtain ⟨y, hy, hyx⟩ := mem_part.mp hx
  cases hm with
  | get hlooks => exact hsame (hlooks.arrival ▸ hx)
  | lose hloses => exact hsame (hloses.arrival ▸ hx)
  | isOpen => exact hsame hx
  | claim =>
    rw [part_add, part_singleton, Tok.arrival?_claim, Option.elim_none, add_zero] at hx
    exact hsame hx
  | remove =>
    rw [mem_waiterFor hy] at hyx
    cases hyx
  | @win caller token source target e e' hends _ =>
    simp only [Multiset.mem_add, Multiset.mem_singleton] at hy
    obtain (rfl | hy) | hy := hy
    · cases hyx
    · obtain ⟨counter, rfl⟩ := mem_owedFor hy
      cases hyx
    · cases hends with
      | @complete packet _ =>
        obtain rfl := mem_responseFor hy
        obtain rfl := Option.some.inj hyx
        refine ⟨⟨call, token.sessionId, token.requestId, packet, false⟩, ?_, rfl, rfl, rfl, rfl⟩
        refine mem_part.mpr ⟨.response call token.sessionId token.requestId packet false, ?_, rfl⟩
        unfold responseFor at hy ⊢
        split at hy
        next hrouted => rw [if_pos hrouted]; exact Multiset.mem_singleton_self _
        next => cases hy
      | _ => simp at hy
  | waitersInsert _ =>
    simp only [Multiset.mem_add] at hy
    obtain (hy | hy) | hy := hy
    · rw [mem_mintFor hy] at hyx
      cases hyx
    · rw [mem_waiterFor hy] at hyx
      cases hyx
    · obtain ⟨channel, -, rfl⟩ := mem_senderFor hy
      cases hyx
  | waitersRemove | waitersSettle =>
    obtain ⟨channel, -, rfl⟩ := mem_senderFor hy
    cases hyx
  | send =>
    refine hsame ?_
    rw [part_add]
    exact Multiset.mem_add.mpr (.inr hx)
  | _ => simp [Tok.arrival?] at hx

end Owned

end MsgTrans.Registry
