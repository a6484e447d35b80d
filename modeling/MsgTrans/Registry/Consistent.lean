import MsgTrans.Registry.Claims
import MsgTrans.Registry.Coverage
import MsgTrans.Registry.Runs

/-!
# Request registry: what replies and waiters belong to

The invariants of a registry whose callers are strict and whose ids are routed
(`crates/msgtrans/src/transport/request_registry.rs:433–679`), side by side, and what they say
together: a packet that was delivered completed the very registration that made the channel, and
when nothing is in progress a waiter belongs to a live registration.
-/

namespace MsgTrans.Registry

open MsgTrans.Base MsgTrans.Wire

/-- The registry and the tokens of its calls are in order. -/
structure Consistent (m : Mode) (s : State) (D : Multiset Tok) : Prop where
  base : Base s D
  ids : Ids s D
  channels : Channels m s D
  deliveries : Deliveries s (part Tok.arrival? D)
  waiting : Waiting s D
  fitting : Fitting s D

/-- A token that only the claims, the session ids and the packets that arrived are about. -/
def Tok.aside : Tok → Bool
  | .claim _ | .resolving _ | .unopened _ | .response .. => true
  | _ => false

section Consistent

variable {cfg : RegistryConfig} {m : Mode} {call choice : Nat} {s : State}
  {D e e' F : Multiset Tok}

theorem Consistent.new : Consistent m State.new 0 where
  base := Base.new
  ids := by
    refine ⟨?_, ?_, ?_⟩
    all_goals simp [State.new, issued]
  channels := by
    constructor
    all_goals simp [State.new]
  deliveries := by
    constructor
    all_goals simp [State.new, preceded_nil]
  waiting := by simp [Waiting, State.new]
  fitting := by
    constructor
    all_goals simp [State.new]

theorem Consistent.step {a : Act} {r : a.Resp} (h : Consistent m s (e + F))
    (hstrict : m.strict = true) (hrouted : m.routed = true)
    (hfresh : ∀ sid, a = .sessionsOrInsert sid → ∀ rt, .opened sid rt ∉ s.history)
    (hm : Moves cfg m call a r e e') (hr : (a.exec cfg call choice s).1 = r) :
    Consistent m (a.exec cfg call choice s).2 (e' + F) where
  base := h.base.step hm hr
  ids := h.ids.step h.base.home hrouted hfresh hm hr
  channels := h.channels.step h.base.core hstrict hm hr
  deliveries := h.deliveries.step h.channels hstrict hrouted hm hr
  waiting := h.waiting.step hstrict hm hr
  fitting := h.fitting.step h.base.core hm hr

private theorem part_aside {β : Type} {f : Tok → Option β} (hf : ∀ x, x.aside = true → f x = none)
    (he : ∀ x ∈ e, x.aside = true) : part f (e + F) = part f F := by
  rw [part_add, part_eq_zero fun x hx ↦ hf x (he x hx), zero_add]

private theorem mem_aside {x : Tok} (he : ∀ x ∈ e, x.aside = true) (hx : x.aside = false) :
    x ∈ e + F ↔ x ∈ F := by
  refine ⟨fun hmem ↦ (Multiset.mem_add.mp hmem).resolve_left fun hmem ↦ ?_,
    fun hmem ↦ Multiset.mem_add.mpr (.inr hmem)⟩
  rw [he x hmem] at hx
  cases hx

private theorem Consistent.replace (h : Consistent m s (e + F)) (he : ∀ x ∈ e, x.aside = true)
    (he' : ∀ x ∈ e', x.aside = true) (hdeliveries : Deliveries s (part Tok.arrival? (e' + F))) :
    Consistent m s (e' + F) := by
  have hpart : ∀ {β : Type} (f : Tok → Option β), (∀ x, x.aside = true → f x = none) →
      part f (e' + F) = part f (e + F) := fun f hf ↦ by
    rw [part_aside hf he', part_aside hf he]
  have hnone : ∀ {β : Type} {f : Tok → Option β} (_ : ∀ token, f (.claim token) = none)
      (_ : ∀ token, f (.resolving token) = none) (_ : ∀ sid, f (.unopened sid) = none)
      (_ : ∀ c sid id packet b, f (.response c sid id packet b) = none),
      ∀ x, x.aside = true → f x = none := by
    intro β f hclaim hresolving hunopened hresponse x hx
    cases x with
    | claim token => exact hclaim token
    | resolving token => exact hresolving token
    | unopened sid => exact hunopened sid
    | response c sid id packet b => exact hresponse c sid id packet b
    | _ => cases hx
  have hquiet : ∀ {d : Multiset Tok}, (∀ x ∈ d, x.aside = true) → ∀ x ∈ d, x.quiet = true := by
    intro d hd x hx
    have haside := hd x hx
    cases x <;> first | rfl | cases haside
  constructor
  · refine ⟨?_, ?_⟩
    · rw [books_quiet (hquiet he'), ← books_quiet (hquiet he)]
      exact h.base.core
    · refine { h.base.home with tokens := fun x hx ↦ ?_ }
      obtain hx | hx := Multiset.mem_add.mp hx
      · have haside := he' x hx
        cases x <;> trivial
      · exact h.base.home.tokens x (Multiset.mem_add.mpr (.inr hx))
  · refine h.ids.of_le (le_of_eq (hpart _ (hnone ?_ ?_ ?_ ?_)))
    · exact fun _ ↦ rfl
    · exact fun _ ↦ rfl
    · exact fun _ ↦ rfl
    · exact fun _ _ _ _ _ ↦ rfl
  · have hregistered : part Tok.registered? (e' + F) = part Tok.registered? (e + F) :=
      hpart _ (hnone (fun _ ↦ rfl) (fun _ ↦ rfl) (fun _ ↦ rfl) fun _ _ _ _ _ ↦ rfl)
    have hsender : part Tok.sender? (e' + F) = part Tok.sender? (e + F) :=
      hpart _ (hnone (fun _ ↦ rfl) (fun _ ↦ rfl) (fun _ ↦ rfl) fun _ _ _ _ _ ↦ rfl)
    refine { h.channels with accepted := ?_, sender := ?_, empty := ?_ }
    · rw [hregistered]
      exact h.channels.accepted
    all_goals rw [hsender]
    · exact h.channels.sender
    · exact h.channels.empty
  · exact hdeliveries
  · intro key channel hlookup
    obtain ⟨hdir, hcases⟩ := h.waiting key channel hlookup
    refine ⟨hdir, hcases.imp_right fun hmem ↦ ?_⟩
    rw [mem_aside he rfl] at hmem
    rwa [mem_aside he' rfl]
  · refine ⟨?_, h.fitting.events⟩
    rw [hpart Tok.owner? (hnone (fun _ ↦ rfl) (fun _ ↦ rfl) (fun _ ↦ rfl) fun _ _ _ _ _ ↦ rfl)]
    exact h.fitting.owners

/-- Claims and session ids that change hands leave the rest as it is. -/
theorem Consistent.swap (h : Consistent m s (e + F)) (he : ∀ x ∈ e, x.aside = true)
    (he' : ∀ x ∈ e', x.aside = true) (hsame : part Tok.arrival? e' = part Tok.arrival? e) :
    Consistent m s (e' + F) := by
  refine h.replace he he' ?_
  rw [part_add, hsame, ← part_add]
  exact h.deliveries

/-- A packet arrives with a call that has none yet. -/
theorem Consistent.arrive (h : Consistent m s F) {sid : Option SessionId} {id : UInt32}
    {packet : Packet} (hfresh : ∀ a ∈ part Tok.arrival? F, a.call ≠ call) :
    Consistent m s ({.response call sid id packet false} + F) := by
  have hpart : part Tok.arrival? ({.response call sid id packet false} + F) =
      ⟨call, sid, id, packet, false⟩ ::ₘ part Tok.arrival? F := by
    simp [Tok.arrival?]
  have hF : Consistent m s (0 + F) := by rwa [zero_add]
  refine hF.replace (by simp) (by simp [Tok.aside]) ?_
  rw [hpart]
  constructor
  case once =>
    rw [Multiset.map_cons, Multiset.nodup_cons]
    refine ⟨fun hmem ↦ ?_, h.deliveries.once⟩
    obtain ⟨a, ha, hcall⟩ := Multiset.mem_map.mp hmem
    exact hfresh a ha hcall
  case completed =>
    rw [Multiset.filterMap_cons_none _ _ (by rfl)]
    exact h.deliveries.completed
  case outbound => exact h.deliveries.outbound
  case delivered =>
    intro c channel p hmem
    obtain ⟨a, ha, hrest⟩ := h.deliveries.delivered c channel p hmem
    exact ⟨a, Multiset.mem_cons_of_mem ha, hrest⟩
  case ordered => exact h.deliveries.ordered

/-- What an outbound registration of a session asks for. -/
theorem request?_of_outbound {token : RequestToken} (hdir : token.direction = .outbound)
    {sid : SessionId} (hsid : token.sessionId = some sid) :
    token.request? = some (sid, token.requestId) := by
  unfold RequestToken.request?
  rw [hdir, hsid]

/-- Two outbound registrations of one session under one id are one. -/
theorem Consistent.registered_unique (h : Consistent m s D) (hbound : m.bound = true) {c c' : Nat}
    {t u : RequestToken} (ht : .registered c t ∈ s.history) (hu : .registered c' u ∈ s.history)
    (hdir : t.direction = .outbound) (hkey : t.key = u.key) : c = c' ∧ t = u := by
  have hsame : t.sessionId = u.sessionId ∧ t.requestId = u.requestId ∧
      t.direction = u.direction := by
    have hs := congrArg RequestKey.sessionId hkey
    have hi := congrArg RequestKey.requestId hkey
    have hd := congrArg RequestKey.direction hkey
    simpa using And.intro hs (And.intro hi hd)
  obtain ⟨sid, hsid⟩ := Option.ne_none_iff_exists'.mp (h.channels.bound hbound c t ht hdir)
  refine h.ids.registered_event ht hu (request?_of_outbound hdir hsid) ?_
  rw [hsame.2.1]
  exact request?_of_outbound (hsame.2.2 ▸ hdir) (hsame.1 ▸ hsid)

/-- A registration precedes what happens to it. -/
theorem Consistent.ordered (h : Consistent m s D) {c : Nat} {caller : Caller}
    {token : RequestToken} {source target : RequestState}
    (hmem : .transition c caller token source target ∈ s.history) : ∃ h₁ h₂ c',
      s.history = h₁ ++ .transition c caller token source target :: h₂ ∧
      .registered c' token ∈ h₁ := by
  obtain ⟨h₁, h₂, hsplit⟩ := List.append_of_mem hmem
  obtain ⟨c', hreg⟩ := h.deliveries.ordered h₁ _ h₂ hsplit
  exact ⟨h₁, h₂, c', hsplit, hreg⟩

/-- A completion was made with a packet that arrived for the registration. -/
theorem Consistent.completed (h : Consistent m s D) {c : Nat} {token : RequestToken}
    {source : RequestState} (hmem : .transition c .key token source .responded ∈ s.history) :
    ∃ a ∈ part Tok.arrival? D, a.call = c ∧ a.used = true ∧
      token.key = .outbound a.sessionId a.requestId := by
  have hcompleted : (c, token.sessionId, token.requestId) ∈
      (part Tok.arrival? D).filterMap Arrival.completed? := by
    rw [← h.deliveries.completed]
    exact Multiset.mem_coe.mpr (List.mem_filterMap.mpr ⟨_, hmem, rfl⟩)
  obtain ⟨a, ha, hsome⟩ := (Multiset.mem_filterMap _ _).mp hcompleted
  unfold Arrival.completed? at hsome
  split at hsome
  next hused =>
    obtain ⟨hcall, hpair⟩ := Prod.mk.inj (Option.some.inj hsome)
    obtain ⟨hsid, hid⟩ := Prod.mk.inj hpair
    refine ⟨a, ha, hcall, hused, ?_⟩
    rw [RequestToken.key, h.deliveries.outbound c token source hmem, hsid, hid]
  next => cases hsome

/-- A delivered packet completed the registration whose channel it was delivered on. -/
theorem Consistent.delivered (h : Consistent m s D) (hbound : m.bound = true) {c t : Nat}
    {token : RequestToken} {packet : Packet}
    (hdelivered : .delivered c token.generation packet ∈ s.history)
    (htoken : .registered t token ∈ s.history) :
    ∃ a ∈ part Tok.arrival? D, a.call = c ∧ a.packet = packet ∧
      token.key = .outbound a.sessionId a.requestId ∧
      ∃ source, .transition c .key token source .responded ∈ s.history := by
  obtain ⟨a, ha, rfl, hpacket, hused, c₁, u, hu, hkey, hgen⟩ :=
    h.deliveries.delivered c _ packet hdelivered
  obtain rfl := h.channels.generation _ _ _ _ hu htoken hgen
  refine ⟨a, ha, rfl, hpacket, hkey, ?_⟩
  have hcompleted : (a.call, a.sessionId, a.requestId) ∈
      s.history.filterMap Event.completed? := by
    rw [← Multiset.mem_coe, h.deliveries.completed, Multiset.mem_filterMap]
    exact ⟨a, ha, if_pos hused⟩
  obtain ⟨x, hx, hsome⟩ := List.mem_filterMap.mp hcompleted
  -- Only a completion is named so, and it names a registration under the same key.
  unfold Event.completed? at hsome
  split at hsome
  next call v source =>
    obtain ⟨rfl, hpair⟩ := Prod.mk.inj (Option.some.inj hsome)
    obtain ⟨hsid, hid⟩ := Prod.mk.inj hpair
    obtain ⟨h₁, h₂, c₂, hsplit, hreg⟩ := h.ordered hx
    have hv : .registered c₂ v ∈ s.history := by
      rw [hsplit]
      exact List.mem_append_left _ hreg
    have hdir := h.deliveries.outbound _ v source hx
    have hsame : v.key = u.key := by
      rw [hkey, RequestToken.key, hdir, hsid, hid]
    obtain ⟨-, rfl⟩ := h.registered_unique hbound hv hu hdir hsame
    exact ⟨source, hx⟩
  next => cases hsome

/-- No packet completes two registrations. -/
theorem Consistent.completes_once (h : Consistent m s D) :
    ((s.history.filterMap Event.completed?).map fun p ↦ p.1).Nodup := by
  rw [← Multiset.coe_nodup, ← Multiset.map_coe, h.deliveries.completed]
  let used : Arrival → Prop := fun a ↦ a.used = true
  have hsub : ((part Tok.arrival? D).filterMap Arrival.completed?).map (fun p ↦ p.1) =
      ((part Tok.arrival? D).filter used).map Arrival.call := by
    induction part Tok.arrival? D using Multiset.induction_on with
    | empty => rfl
    | cons a A ih =>
      cases hused : a.used with
      | true =>
        have hsome : a.completed? = some (a.call, a.sessionId, a.requestId) := if_pos hused
        rw [Multiset.filterMap_cons_some _ _ _ hsome,
          Multiset.filter_cons_of_pos (p := used) _ hused, Multiset.map_cons, Multiset.map_cons, ih]
      | false =>
        have hnone : a.completed? = none := if_neg (by simp [hused])
        rw [Multiset.filterMap_cons_none _ _ hnone,
          Multiset.filter_cons_of_neg (p := used) _ (by simp [used, hused]), ih]
  rw [hsub]
  exact Multiset.nodup_of_le (Multiset.map_le_map (Multiset.filter_le _ _)) h.deliveries.once

/-- A waiter's sender is that of the registration that is in the map under its key. -/
theorem Consistent.waiter (h : Consistent m s D) (hbound : m.bound = true) (hidle : Idle D)
    {key : RequestKey} {channel : Nat} (hlookup : s.waiters.lookup key = some channel) :
    ∃ token, token.key = key ∧ token.generation = channel ∧ token ∈ s.regs ∧
      s.ended token = false := by
  obtain ⟨hdir, hentry | howes⟩ := h.waiting key channel hlookup
  swap
  · exact (hidle _ howes).elim
  obtain ⟨entry, hentry⟩ := Option.isSome_iff_exists.mp hentry
  have hkey := h.base.core.key_eq key entry hentry
  have hmem : entry.token ∈ s.regs := mem_regs.mpr ⟨key, entry, hentry, rfl⟩
  have hkey' : entry.token.key = key := by rw [RequestEntry.key_token, hkey]
  obtain ⟨c, u, hu, hukey, hgen⟩ := h.channels.waiter key channel hlookup
  obtain ⟨c', hreg⟩ := (h.channels.known entry.token).mpr (h.base.core.registered _ hmem)
  obtain ⟨-, rfl⟩ := h.registered_unique hbound hu hreg
    (by rw [← RequestToken.direction_key, hukey, hdir]) (hukey.trans hkey'.symm)
  refine ⟨_, hkey', hgen, hmem, ?_⟩
  -- Whoever ended a registration that is still in the map would owe its removal.
  have hnone : s.regs.filter (fun token ↦ s.ended token = true) = 0 := by
    rw [← h.base.core.owners_eq, (books_idle hidle).1, Multiset.map_zero]
  have hnot := Multiset.filter_eq_nil.mp hnone _ hmem
  simpa using hnot

/-- Whoever waits for a registration that has ended has its answer, or knows that none comes. -/
theorem Consistent.answered (h : Consistent m s D) (hbound : m.bound = true) (hidle : Idle D)
    {c : Nat} {token : RequestToken} (htoken : .registered c token ∈ s.history)
    (hended : s.ended token = true) : s.channels token.generation ≠ .empty := by
  intro hempty
  obtain ⟨key, hwaiter | hsender⟩ := h.channels.empty _ hempty
  · obtain ⟨u, -, hgen, hmem, hlive⟩ := h.waiter hbound hidle hwaiter
    obtain ⟨c', hu⟩ := (h.channels.known u).mpr (h.base.core.registered u hmem)
    obtain rfl := h.channels.generation _ _ _ _ hu htoken hgen
    rw [hended] at hlive
    cases hlive
  · obtain ⟨x, hx, hsome⟩ := mem_part.mp hsender
    have hxidle := hidle x hx
    cases x with
    | holdsSender => exact hxidle
    | _ => cases hsome

end Consistent

end MsgTrans.Registry
