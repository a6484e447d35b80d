import MsgTrans.Registry.Ids

/-!
# Request registry: waiters and the packets they receive

What the token rules keep true of the oneshot channels of outbound requests: every sender
belongs to the registration it was made for, a channel is open only while its sender is in the
waiters map or in a call's hands, and whatever a receiver gets was delivered by a call that was
given that packet.
-/

namespace MsgTrans.Registry

open MsgTrans.Base MsgTrans.Wire

/-- A registration under this key made this channel. -/
def State.Issued (s : State) (key : RequestKey) (channel : Nat) : Prop :=
  ∃ call token, .registered call token ∈ s.history ∧ token.key = key ∧ token.generation = channel

/-- The registration a token says was made. -/
def Tok.registered? : Tok → Option RequestToken
  | .entering token _ _ | .minted token => some token
  | _ => none

/-- A sender in a call's hands. -/
def Tok.sender? : Tok → Option (RequestKey × Nat)
  | .holdsSender key channel => some (key, channel)
  | _ => none

/-- The invariant of the channels. -/
structure Channels (m : Mode) (s : State) (D : Multiset Tok) : Prop where
  known : ∀ token, (∃ c, .registered c token ∈ s.history) ↔ (s.cells token).isSome = true
  generation : ∀ c c' t u, .registered c t ∈ s.history → .registered c' u ∈ s.history →
    t.generation = u.generation → t = u
  bound : m.bound = true → ∀ c token, .registered c token ∈ s.history →
    token.direction = .outbound → token.sessionId ≠ none
  accepted : ∀ token ∈ part Tok.registered? D, ∃ c, .registered c token ∈ s.history
  waiter : ∀ key channel, s.waiters.lookup key = some channel → s.Issued key channel
  sender : ∀ p ∈ part Tok.sender? D, s.Issued p.1 p.2
  empty : ∀ channel, s.channels channel = .empty →
    ∃ key, s.waiters.lookup key = some channel ∨ (key, channel) ∈ part Tok.sender? D
  value : ∀ channel packet, s.channels channel = .value packet →
    ∃ c, .delivered c channel packet ∈ s.history

section Channels

variable {cfg : RegistryConfig} {m : Mode} {call choice : Nat} {s s' : State}
  {e e' F : Multiset Tok}

theorem State.Issued.mono {key : RequestKey} {channel : Nat} (h : s.Issued key channel)
    (hhist : s.history ⊆ s'.history) : s'.Issued key channel := by
  obtain ⟨c, token, hmem, hkey, hgen⟩ := h
  exact ⟨c, token, hhist hmem, hkey, hgen⟩

/-- The event registers nothing. -/
def Event.unregistered : Event → Bool
  | .registered .. => false
  | _ => true

-- Everything but the waiters and the channels, for operations that register nothing.
private theorem Channels.frame (h : Channels m s (e + F)) {es : List Event}
    (hcells : ∀ token, (s'.cells token).isSome = (s.cells token).isSome)
    (hhist : s'.history = s.history ++ es) (hes : ∀ x ∈ es, x.unregistered = true)
    (haccepted : part Tok.registered? e' ≤ part Tok.registered? e)
    (hwaiter : ∀ key channel, s'.waiters.lookup key = some channel → s.Issued key channel)
    (hsender : ∀ p ∈ part Tok.sender? e', s.Issued p.1 p.2)
    (hempty : ∀ channel, s'.channels channel = .empty →
      ∃ key, s'.waiters.lookup key = some channel ∨ (key, channel) ∈ part Tok.sender? (e' + F))
    (hvalue : ∀ channel packet, s'.channels channel = .value packet →
      ∃ c, .delivered c channel packet ∈ s'.history) : Channels m s' (e' + F) := by
  have hback : ∀ c token, .registered c token ∈ s'.history → .registered c token ∈ s.history := by
    intro c token hmem
    rw [hhist, List.mem_append] at hmem
    exact hmem.resolve_right fun hmem' ↦ absurd (hes _ hmem') (by simp [Event.unregistered])
  have hsub : s.history ⊆ s'.history := hhist ▸ List.subset_append_left _ _
  have hle : part Tok.registered? (e' + F) ≤ part Tok.registered? (e + F) := by
    rw [part_add, part_add]
    exact add_le_add haccepted le_rfl
  constructor
  case known =>
    intro token
    rw [hcells, ← h.known]
    exact ⟨fun ⟨c, hc⟩ ↦ ⟨c, hback c token hc⟩, fun ⟨c, hc⟩ ↦ ⟨c, hsub hc⟩⟩
  case generation =>
    exact fun c c' t u ht hu ↦ h.generation c c' t u (hback _ _ ht) (hback _ _ hu)
  case bound => exact fun hb c token hmem ↦ h.bound hb c token (hback _ _ hmem)
  case accepted =>
    intro token hmem
    obtain ⟨c, hc⟩ := h.accepted token (Multiset.mem_of_le hle hmem)
    exact ⟨c, hsub hc⟩
  case waiter => exact fun key channel hl ↦ (hwaiter key channel hl).mono hsub
  case sender =>
    intro p hp
    rw [part_add, Multiset.mem_add] at hp
    obtain hp | hp := hp
    · exact (hsender p hp).mono hsub
    · refine (h.sender p ?_).mono hsub
      rw [part_add]
      exact Multiset.mem_add.mpr (.inr hp)
  case empty => exact hempty
  case value => exact hvalue

/-- The token concerns no registration and no sender. -/
def Tok.mute : Tok → Bool
  | .entering .. | .minted _ | .holdsSender .. => false
  | _ => true

private theorem registered_mute (he : ∀ x ∈ e, x.mute = true) : part Tok.registered? e = 0 := by
  refine part_eq_zero fun x hx ↦ ?_
  have hmute := he x hx
  cases x <;> first | rfl | cases hmute

private theorem sender_mute (he : ∀ x ∈ e, x.mute = true) : part Tok.sender? e = 0 := by
  refine part_eq_zero fun x hx ↦ ?_
  have hmute := he x hx
  cases x <;> first | rfl | cases hmute

-- Operations that leave the waiters and the channels alone.
private theorem Channels.keep (h : Channels m s (e + F)) {es : List Event}
    (hcells : ∀ token, (s'.cells token).isSome = (s.cells token).isSome)
    (hhist : s'.history = s.history ++ es) (hes : ∀ x ∈ es, x.unregistered = true)
    (hwaiters : s'.waiters = s.waiters) (hchannels : s'.channels = s.channels)
    (haccepted : part Tok.registered? e' ≤ part Tok.registered? e)
    (hsender : part Tok.sender? e' = part Tok.sender? e) : Channels m s' (e' + F) := by
  have hsub : s.history ⊆ s'.history := hhist ▸ List.subset_append_left _ _
  refine h.frame hcells hhist hes haccepted ?_ ?_ ?_ ?_
  · rw [hwaiters]
    exact h.waiter
  · intro p hp
    refine h.sender p ?_
    rw [part_add, ← hsender]
    exact Multiset.mem_add.mpr (.inl hp)
  · intro channel hc
    rw [hchannels] at hc
    obtain ⟨key, hk⟩ := h.empty channel hc
    refine ⟨key, ?_⟩
    rw [hwaiters]
    rwa [part_add, hsender, ← part_add]
  · intro channel packet hc
    rw [hchannels] at hc
    obtain ⟨c, hc'⟩ := h.value channel packet hc
    exact ⟨c, hsub hc'⟩

-- The same with mute tokens and the atomics as they were.
private theorem Channels.still (h : Channels m s (e + F)) {es : List Event}
    (he : part Tok.sender? e = 0) (he' : ∀ x ∈ e', x.mute = true) (hcells : s'.cells = s.cells)
    (hwaiters : s'.waiters = s.waiters) (hchannels : s'.channels = s.channels)
    (hhist : s'.history = s.history ++ es) (hes : ∀ x ∈ es, x.unregistered = true) :
    Channels m s' (e' + F) := by
  refine h.keep (fun token ↦ by rw [hcells]) hhist hes hwaiters hchannels ?_ ?_
  · rw [registered_mute he']
    exact Multiset.zero_le _
  · rw [sender_mute he', he]

-- A registration enters the map.
private theorem Channels.insert (h : Channels m s (e + F)) (token : RequestToken) {x : Tok}
    (hfresh : ∀ u : RequestToken, u.generation = token.generation → s.cells u = none)
    (hbound : m.bound = true → token.direction = .outbound → token.sessionId ≠ none)
    (hcells : s'.cells = Function.update s.cells token (some .pending))
    (hwaiters : s'.waiters = s.waiters) (hchannels : s'.channels = s.channels)
    (hhist : s'.history = s.history ++ [Event.registered call token])
    (hx : x.registered? = some token) (he : part Tok.sender? e = 0) : Channels m s' ({x} + F) := by
  have hsub : s.history ⊆ s'.history := hhist ▸ List.subset_append_left _ _
  have hcases : ∀ c u, .registered c u ∈ s'.history →
      .registered c u ∈ s.history ∨ u = token := by
    intro c u hmem
    rw [hhist] at hmem
    simp only [List.mem_append, List.mem_singleton, Event.registered.injEq] at hmem
    exact hmem.imp_right And.right
  have hold : ∀ c u, .registered c u ∈ s.history → u.generation ≠ token.generation := by
    intro c u hmem heq
    have hsome := (h.known u).mp ⟨c, hmem⟩
    rw [hfresh u heq] at hsome
    cases hsome
  have hsender : part Tok.sender? ({x} + F) = part Tok.sender? (e + F) := by
    have hx' : x.sender? = none := by cases x <;> first | rfl | cases hx
    rw [part_add, part_add, he, part_singleton, hx']
    rfl
  constructor
  case known =>
    intro u
    rw [hcells]
    by_cases heq : u = token
    · subst heq
      rw [Function.update_self]
      exact ⟨fun _ ↦ rfl, fun _ ↦ ⟨call, by simp [hhist]⟩⟩
    · rw [Function.update_of_ne heq, ← h.known]
      refine ⟨fun ⟨c, hc⟩ ↦ ⟨c, (hcases c u hc).resolve_right heq⟩, fun ⟨c, hc⟩ ↦ ⟨c, hsub hc⟩⟩
  case generation =>
    intro c c' t u ht hu hgen
    obtain ht | rfl := hcases c t ht <;> obtain hu | rfl := hcases c' u hu
    · exact h.generation c c' t u ht hu hgen
    · exact absurd hgen (hold c t ht)
    · exact absurd hgen.symm (hold c' u hu)
    · rfl
  case bound =>
    intro hb c u hmem
    obtain hmem | rfl := hcases c u hmem
    · exact h.bound hb c u hmem
    · exact hbound hb
  case accepted =>
    intro u hu
    rw [part_add, part_singleton, hx, Option.elim_some, Multiset.mem_add,
      Multiset.mem_singleton] at hu
    obtain rfl | hu := hu
    · exact ⟨call, by simp [hhist]⟩
    · obtain ⟨c, hc⟩ := h.accepted u (by rw [part_add]; exact Multiset.mem_add.mpr (.inr hu))
      exact ⟨c, hsub hc⟩
  case waiter =>
    rw [hwaiters]
    exact fun key channel hl ↦ (h.waiter key channel hl).mono hsub
  case sender =>
    rw [hsender]
    exact fun p hp ↦ (h.sender p hp).mono hsub
  case empty =>
    rw [hwaiters, hchannels, hsender]
    exact h.empty
  case value =>
    rw [hchannels]
    intro channel packet hc
    obtain ⟨c, hc'⟩ := h.value channel packet hc
    exact ⟨c, hsub hc'⟩

private theorem part_senderFor (hstrict : m.strict = true) (key : RequestKey) (channel : Nat) :
    part Tok.sender? (senderFor m key (some channel)) = {(key, channel)} := by
  simp [senderFor, hstrict, Tok.sender?]

-- A sender is used up: its channel is empty no longer.
private theorem Channels.spend (h : Channels m s (e + F)) {es : List Event} (key : RequestKey)
    {channel : Nat} (reply : Reply) (hcells : s'.cells = s.cells)
    (hwaiters : s'.waiters = s.waiters)
    (hchannels : s'.channels = Function.update s.channels channel reply)
    (hhist : s'.history = s.history ++ es) (hes : ∀ x ∈ es, x.unregistered = true)
    (he : part Tok.sender? e = {(key, channel)}) (he' : ∀ x ∈ e', x.mute = true)
    (hempty : reply ≠ .empty)
    (hvalue : ∀ packet, reply = .value packet → ∃ c, .delivered c channel packet ∈ s'.history) :
    Channels m s' (e' + F) := by
  have hsub : s.history ⊆ s'.history := hhist ▸ List.subset_append_left _ _
  have hne : ∀ {ch : Nat} {r : Reply}, s'.channels ch = r → r ≠ reply →
      ch ≠ channel ∧ s.channels ch = r := by
    intro ch r hch hr
    rw [hchannels] at hch
    by_cases heq : ch = channel
    · rw [heq, Function.update_self] at hch
      exact absurd hch.symm hr
    · rw [Function.update_of_ne heq] at hch
      exact ⟨heq, hch⟩
  refine h.frame (fun token ↦ by rw [hcells]) hhist hes ?_ ?_ ?_ ?_ ?_
  · rw [registered_mute he']
    exact Multiset.zero_le _
  · rw [hwaiters]
    exact h.waiter
  · rw [sender_mute he']
    simp
  · intro ch hch
    obtain ⟨hch', hold⟩ := hne hch hempty.symm
    obtain ⟨key', hk | hk⟩ := h.empty ch hold
    · exact ⟨key', .inl (hwaiters ▸ hk)⟩
    · refine ⟨key', .inr ?_⟩
      rw [part_add, he, Multiset.mem_add, Multiset.mem_singleton] at hk
      rw [part_add]
      refine Multiset.mem_add.mpr (.inr (hk.resolve_left fun heq ↦ hch' ?_))
      exact congrArg Prod.snd heq
  · intro ch packet hch
    by_cases heq : Reply.value packet = reply
    · rw [hchannels] at hch
      by_cases hc : ch = channel
      · subst hc
        exact hvalue packet heq.symm
      · rw [Function.update_of_ne hc] at hch
        obtain ⟨c, hc'⟩ := h.value ch packet hch
        exact ⟨c, hsub hc'⟩
    · obtain ⟨c, hc'⟩ := h.value ch packet (hne hch heq).2
      exact ⟨c, hsub hc'⟩

-- The waiter of a key changes hands.
private theorem Channels.unhook (h : Channels m s (e + F)) (hstrict : m.strict = true)
    {key : RequestKey} {sender : Option Nat} (hsender : s.waiters.lookup key = sender)
    (he : part Tok.sender? e = 0) :
    Channels m { s with waiters := s.waiters.erase key } (senderFor m key sender + F) := by
  have hold : ∀ k channel, (s.waiters.erase key).lookup k = some channel →
      s.waiters.lookup k = some channel := by
    intro k channel hl
    have hne : k ≠ key := by
      rintro rfl
      rw [AList.lookup_erase] at hl
      cases hl
    rwa [AList.lookup_erase_ne hne] at hl
  refine h.frame (fun _ ↦ rfl) (List.append_nil _).symm (by simp) ?_ (fun k channel hl ↦ ?_) ?_ ?_ ?_
  · refine le_of_eq_of_le (part_eq_zero fun x hx ↦ ?_) (Multiset.zero_le _)
    obtain ⟨channel, -, rfl⟩ := mem_senderFor hx
    rfl
  · exact h.waiter k channel (hold k channel hl)
  · intro p hp
    obtain ⟨x, hx, hxp⟩ := mem_part.mp hp
    obtain ⟨channel, rfl, rfl⟩ := mem_senderFor hx
    obtain rfl := Option.some.inj hxp
    exact h.waiter key channel hsender
  · intro channel hc
    obtain ⟨k, hk | hk⟩ := h.empty channel hc
    · by_cases heq : k = key
      · subst heq
        obtain rfl := hsender.symm.trans hk
        refine ⟨k, .inr ?_⟩
        rw [part_add, part_senderFor hstrict]
        simp
      · exact ⟨k, .inl (by simpa [AList.lookup_erase_ne heq] using hk)⟩
    · rw [part_add, he, zero_add] at hk
      refine ⟨k, .inr ?_⟩
      rw [part_add]
      exact Multiset.mem_add.mpr (.inr hk)
  · exact h.value

-- A registration's sender goes into the map; the one it replaces goes to the caller.
private theorem Channels.hook {token : RequestToken} {replaced : Option Nat}
    (h : Channels m s (mintFor m token + F)) (hstrict : m.strict = true)
    (hreplaced : s.waiters.lookup token.key = replaced) :
    Channels m { s with
      waiters := s.waiters.insert token.key token.generation
      channels := Function.update s.channels token.generation .empty }
      (mintFor m token + waiterFor m token.key + senderFor m token.key replaced + F) := by
  have hmint : mintFor m token = {.minted token} := by rw [mintFor, if_pos hstrict]
  have hsilent : part Tok.sender? (mintFor m token + waiterFor m token.key) = 0 := by
    refine part_eq_zero fun x hx ↦ ?_
    obtain hx | hx := Multiset.mem_add.mp hx
    · rw [mem_mintFor hx]
      rfl
    · rw [mem_waiterFor hx]
      rfl
  have hissued : s.Issued token.key token.generation := by
    obtain ⟨c, hc⟩ := h.accepted token (mem_part.mpr ⟨.minted token, by simp [hmint], rfl⟩)
    exact ⟨c, token, hc, rfl, rfl⟩
  refine h.frame (fun _ ↦ rfl) (List.append_nil _).symm (by simp) ?_ (fun k channel hl ↦ ?_) ?_ ?_ ?_
  · rw [part_add, part_add]
    have hzero : part Tok.registered? (waiterFor m token.key) = 0 := part_eq_zero fun x hx ↦ by
      rw [mem_waiterFor hx]
      rfl
    have hzero' : part Tok.registered? (senderFor m token.key replaced) = 0 :=
      part_eq_zero fun x hx ↦ by
        obtain ⟨channel, -, rfl⟩ := mem_senderFor hx
        rfl
    rw [hzero, hzero', add_zero, add_zero]
  · by_cases heq : k = token.key
    · subst heq
      rw [AList.lookup_insert] at hl
      rwa [← Option.some.inj hl]
    · rw [AList.lookup_insert_ne heq] at hl
      exact h.waiter k channel hl
  · intro p hp
    rw [part_add, hsilent, zero_add] at hp
    obtain ⟨x, hx, hxp⟩ := mem_part.mp hp
    obtain ⟨channel, rfl, rfl⟩ := mem_senderFor hx
    obtain rfl := Option.some.inj hxp
    exact h.waiter token.key channel hreplaced
  · intro channel hc
    by_cases hgen : channel = token.generation
    · subst hgen
      exact ⟨token.key, .inl (AList.lookup_insert _)⟩
    · simp only [Function.update_of_ne hgen] at hc
      obtain ⟨k, hk | hk⟩ := h.empty channel hc
      · by_cases heq : k = token.key
        · subst heq
          obtain rfl := hreplaced.symm.trans hk
          refine ⟨token.key, .inr ?_⟩
          rw [part_add, part_add, part_senderFor hstrict]
          simp
        · exact ⟨k, .inl (by simpa [AList.lookup_insert_ne heq] using hk)⟩
      · refine ⟨k, .inr ?_⟩
        rw [part_add, hmint] at hk
        rw [part_add]
        refine Multiset.mem_add.mpr (.inr ?_)
        simpa [Tok.sender?] using hk
  · intro channel packet hc
    by_cases hgen : channel = token.generation
    · subst hgen
      simp at hc
    · simp only [Function.update_of_ne hgen] at hc
      exact h.value channel packet hc

-- A registration's atomic moves on.
private theorem Channels.cell (h : Channels m s (e + F)) {token : RequestToken}
    {source target : RequestState} {es : List Event} (hsource : s.cells token = some source)
    (hhist : s'.history = s.history ++ es) (hes : ∀ x ∈ es, x.unregistered = true)
    (hcells : s'.cells = Function.update s.cells token (some target))
    (hwaiters : s'.waiters = s.waiters) (hchannels : s'.channels = s.channels)
    (haccepted : part Tok.registered? e' ≤ part Tok.registered? e)
    (hsender : part Tok.sender? e' = part Tok.sender? e) : Channels m s' (e' + F) := by
  refine h.keep (fun u ↦ ?_) hhist hes hwaiters hchannels haccepted hsender
  rw [hcells]
  by_cases heq : u = token
  · rw [heq, Function.update_self, hsource]
    rfl
  · rw [Function.update_of_ne heq]

private theorem Ends.mute {token : RequestToken} {caller : Caller} {source target : RequestState}
    (h : Ends m call token caller source target e e') : part Tok.sender? e = 0 ∧
      ∀ x ∈ {.won call caller token} + owedFor caller target + e', x.mute = true := by
  have he' : part Tok.sender? e = 0 ∧ ∀ x ∈ e', x.mute = true := by
    cases h with
    | complete _ =>
      refine ⟨part_eq_zero fun x hx ↦ ?_, fun x hx ↦ ?_⟩
      all_goals
        rw [mem_responseFor hx]
        rfl
    | finish =>
      refine ⟨part_eq_zero fun x hx ↦ ?_, by simp⟩
      rw [mem_claimFor hx]
      rfl
    | _ => simp [Tok.sender?]
  refine ⟨he'.1, fun x hx ↦ ?_⟩
  simp only [Multiset.mem_add, Multiset.mem_singleton] at hx
  obtain (rfl | hx) | hx := hx
  · rfl
  · obtain ⟨counter, rfl⟩ := mem_owedFor hx
    rfl
  · exact he'.2 x hx

private theorem Looks.mute {key : RequestKey} {found : Option RequestEntry}
    (h : Looks key found e e') : e' = e ∨ part Tok.sender? e = 0 ∧ ∀ x ∈ e', x.mute = true := by
  cases h with
  | known => exact .inl rfl
  | _ => exact .inr (by simp [Tok.sender?, Tok.mute])

private theorem Loses.mute {token : RequestToken} {caller : Caller} {source : RequestState}
    (h : Loses token caller source e e') :
    e' = e ∨ part Tok.sender? e = 0 ∧ ∀ x ∈ e', x.mute = true := by
  cases h with
  | known => exact .inl rfl
  | _ => exact .inr (by simp [Tok.sender?, Tok.mute])

private theorem channelDrop_eq (channel : Nat) :
    s.channelDrop channel =
      { s with
        channels := Function.update s.channels channel
          (if s.channels channel = .empty then .closed else s.channels channel) } := by
  unfold State.channelDrop
  split
  next hc => rw [if_pos hc]
  next hc => rw [if_neg (by simpa using hc), Function.update_eq_self]

/-- Every action keeps the channels in order. -/
theorem Channels.step {a : Act} {r : a.Resp} (h : Channels m s (e + F))
    (hcore : Core s (books (e + F))) (hstrict : m.strict = true)
    (hm : Moves cfg m call a r e e') (hr : (a.exec cfg call choice s).1 = r) :
    Channels m (a.exec cfg call choice s).2 (e' + F) := by
  have hnil : s.history = s.history ++ [] := (List.append_nil _).symm
  cases hm with
  | counter _ =>
    refine h.still (part_eq_zero fun x hx ↦ ?_) (by simp) rfl rfl rfl hnil (by simp)
    rw [Multiset.eq_of_mem_replicate hx]
    rfl
  | insertRefused =>
    rw [Act.exec, entriesInsert_false hr]
    exact h.still (by simp [Tok.sender?]) (by simp) rfl rfl rfl hnil (by simp)
  | @insertFree entry hsid hbound =>
    rw [Act.exec, (entriesInsert_true hr).2]
    refine h.insert entry.token (hcore.fresh_unused entry.generation ?_)
      (fun hb hdir ↦ ?_) rfl rfl rfl rfl rfl ?_
    · exact mem_part.mpr ⟨.fresh entry.generation, by simp, rfl⟩
    · have hin := hbound hb
      rw [← RequestEntry.key_token, RequestToken.direction_key, hdir] at hin
      cases hin
    · refine part_eq_zero fun x hx ↦ ?_
      simp only [zero_add, Multiset.mem_add, Multiset.mem_singleton] at hx
      obtain rfl | rfl | hx := hx
      · rfl
      · rfl
      · obtain ⟨sid, rfl⟩ := mem_idFor hx
        rfl
  | @insertSession entry sid rt hsid =>
    rw [Act.exec, (entriesInsert_true hr).2]
    refine h.insert entry.token (hcore.fresh_unused entry.generation ?_)
      (fun _ _ ↦ ?_) rfl rfl rfl rfl rfl ?_
    · exact mem_part.mpr ⟨.fresh entry.generation, by simp, rfl⟩
    · rw [← RequestToken.sessionId_key, RequestEntry.key_token, hsid]
      simp
    · refine part_eq_zero fun x hx ↦ ?_
      simp only [Multiset.mem_add, Multiset.mem_singleton] at hx
      obtain rfl | rfl | rfl | hx := hx
      · rfl
      · rfl
      · rfl
      · obtain ⟨sid', rfl⟩ := mem_idFor hx
        rfl
  | get hlooks =>
    obtain rfl | ⟨he, he'⟩ := hlooks.mute
    · exact h
    · exact h.still he he' rfl rfl rfl hnil (by simp)
  | @remove caller token =>
    have hmute : ∀ x ∈ waiterFor m token.key, x.mute = true := fun x hx ↦ by
      rw [mem_waiterFor hx]
      rfl
    simp only [Act.exec, State.entriesRemove]
    split
    · exact h.still (by simp [Tok.sender?]) hmute rfl rfl rfl rfl (by simp [Event.unregistered])
    · exact h.still (by simp [Tok.sender?]) hmute rfl rfl rfl hnil (by simp)
  | lose hloses =>
    rw [Act.exec, (tryTransition_error hr).2]
    obtain rfl | ⟨he, he'⟩ := hloses.mute
    · exact h
    · exact h.still he he' rfl rfl rfl hnil (by simp)
  | claim =>
    obtain ⟨hcell, hs'⟩ := tryTransition_ok hr
    rw [Act.exec, hs']
    exact h.cell hcell rfl (by simp [Event.unregistered]) rfl rfl rfl (by simp [Tok.registered?])
      (by simp [Tok.sender?])
  | win hends _ =>
    obtain ⟨hcell, hs'⟩ := tryTransition_ok hr
    obtain ⟨he, he'⟩ := hends.mute
    rw [Act.exec, hs']
    refine h.cell hcell rfl (by simp [Event.unregistered]) rfl rfl rfl ?_ ?_
    · rw [registered_mute he']
      exact Multiset.zero_le _
    · rw [sender_mute he', he]
  | waitersInsert _ => exact h.hook hstrict hr
  | waitersRemove => exact h.unhook hstrict hr (by simp)
  | waitersSettle => exact h.unhook hstrict hr (by simp [Tok.sender?])
  | @send channel packet sid id =>
    have hresponse : ∀ x ∈ responseFor m call sid id packet true, x.mute = true := fun x hx ↦ by
      rw [mem_responseFor hx]
      rfl
    refine h.spend (.outbound sid id) (.value packet) rfl rfl rfl rfl
      (by simp [Event.unregistered]) ?_ hresponse (by simp) fun p hp ↦ ?_
    · rw [part_add, part_senderFor hstrict, sender_mute hresponse, add_zero]
    · obtain rfl : packet = p := by simpa using hp
      exact ⟨call, by simp [Act.exec, State.channelSend, State.record]⟩
  | @drop key channel =>
    rw [Act.exec, channelDrop_eq]
    refine h.spend key _ rfl rfl rfl hnil (by simp) (part_senderFor hstrict key channel)
      (by simp) ?_ ?_
    · split
      · simp
      · assumption
    · intro packet hp
      refine h.value channel packet ?_
      split at hp
      · cases hp
      · exact hp
  | @openSession sid =>
    have hsender : part Tok.sender? (openFor m sid) = 0 := part_eq_zero fun x hx ↦ by
      rw [mem_openFor hx]
      rfl
    simp only [Act.exec, State.sessionsOrInsert]
    split
    · exact h.still hsender (by simp) rfl rfl rfl hnil (by simp)
    · exact h.still hsender (by simp) rfl rfl rfl rfl (by simp [Event.unregistered])
  | sessionGone | sessionTaken =>
    exact h.still (by simp) (by simp [Tok.mute]) rfl rfl rfl rfl (by simp [Event.unregistered])
  | index =>
    exact h.keep (fun _ ↦ rfl) rfl (by simp [Event.unregistered]) rfl rfl
      (by simp [Tok.registered?]) (by simp [Tok.sender?])
  | isOpen => exact h
  | accept =>
    exact h.keep (fun _ ↦ rfl) hnil (by simp) rfl rfl (by simp [Tok.registered?])
      (by simp [Tok.sender?])
  | idExhausted | idAllocated =>
    simp only [Act.exec, State.nextRequestIdFetchUpdate]
    split
    · exact h.still (by simp [Tok.sender?]) (by simp [Tok.mute]) rfl rfl rfl rfl
        (by simp [Event.unregistered])
    · exact h.still (by simp [Tok.sender?]) (by simp [Tok.mute]) rfl rfl rfl hnil (by simp)
  | _ => exact h.still (by simp [Tok.sender?]) (by simp [Tok.mute]) rfl rfl rfl hnil (by simp)

end Channels

/-- A response packet given to a call, and whether it completed a request. -/
structure Arrival where
  call : Nat
  sessionId : Option SessionId
  requestId : UInt32
  packet : Packet
  used : Bool
  deriving DecidableEq

/-- The packet a call was given. -/
def Tok.arrival? : Tok → Option Arrival
  | .response call sid i packet used => some ⟨call, sid, i, packet, used⟩
  | _ => none

@[simp] theorem Tok.arrival?_claim (token : RequestToken) : (Tok.claim token).arrival? = none := rfl

/-- The call and the request, for a step by which a response completed a request. -/
def Event.completed? : Event → Option (Nat × Option SessionId × UInt32)
  | .transition call .key token _ .responded => some (call, token.sessionId, token.requestId)
  | _ => none

/-- The completion a used packet stands for. -/
def Arrival.completed? (a : Arrival) : Option (Nat × Option SessionId × UInt32) :=
  if a.used then some (a.call, a.sessionId, a.requestId) else none

/-- A transition concerns a registration made before it. -/
def Event.Ordered (h : List Event) : Event → Prop
  | .transition _ _ token _ _ => ∃ c, .registered c token ∈ h
  | _ => True

/-- The invariant of the packets that arrived. -/
structure Deliveries (s : State) (A : Multiset Arrival) : Prop where
  once : (A.map Arrival.call).Nodup
  completed : ((s.history.filterMap Event.completed? : List _) : Multiset _) =
    A.filterMap Arrival.completed?
  outbound : ∀ c token source, .transition c .key token source .responded ∈ s.history →
    token.direction = .outbound
  delivered : ∀ c channel packet, .delivered c channel packet ∈ s.history →
    ∃ a ∈ A, a.call = c ∧ a.packet = packet ∧ a.used = true ∧
      s.Issued (.outbound a.sessionId a.requestId) channel
  ordered : Preceded Event.Ordered s.history

section Deliveries

variable {cfg : RegistryConfig} {m : Mode} {call choice : Nat} {s s' : State} {A : Multiset Arrival}
  {e e' F : Multiset Tok}

/-- The event neither moves a registration on nor delivers a packet. -/
def Event.still : Event → Bool
  | .transition .. | .delivered .. => false
  | _ => true

private theorem Deliveries.frame (h : Deliveries s A) {es : List Event}
    (hhist : s'.history = s.history ++ es) (hes : ∀ x ∈ es, x.still = true) : Deliveries s' A := by
  have hsub : s.history ⊆ s'.history := hhist ▸ List.subset_append_left _ _
  have hnone : es.filterMap Event.completed? = [] := by
    refine List.filterMap_eq_nil_iff.mpr fun x hx ↦ ?_
    have hstill := hes x hx
    cases x <;> first | rfl | cases hstill
  constructor
  case once => exact h.once
  case completed =>
    rw [hhist, List.filterMap_append, hnone, List.append_nil]
    exact h.completed
  case outbound =>
    intro c token source hmem
    rw [hhist, List.mem_append] at hmem
    refine h.outbound c token source (hmem.resolve_right fun hmem' ↦ ?_)
    cases hes _ hmem'
  case delivered =>
    intro c channel packet hmem
    rw [hhist, List.mem_append] at hmem
    have hold := hmem.resolve_right fun hmem' ↦ by cases hes _ hmem'
    obtain ⟨a, ha, hcall, hpacket, hused, hissued⟩ := h.delivered c channel packet hold
    exact ⟨a, ha, hcall, hpacket, hused, hissued.mono hsub⟩
  case ordered =>
    rw [hhist]
    refine h.ordered.append fun x hx g ↦ ?_
    have hstill := hes x hx
    cases x with
    | transition => cases hstill
    | _ => trivial

-- A registration moves on without being completed by a response.
private theorem Deliveries.pass (h : Deliveries s A) {caller : Caller} {token : RequestToken}
    {source target : RequestState} (hreg : ∃ c, .registered c token ∈ s.history)
    (hkey : caller = .key → target ≠ .responded)
    (hhist : s'.history = s.history ++ [Event.transition call caller token source target]) :
    Deliveries s' A := by
  have hsub : s.history ⊆ s'.history := hhist ▸ List.subset_append_left _ _
  have hnone : [Event.transition call caller token source target].filterMap Event.completed? =
      [] := by
    cases caller with
    | key => cases target <;> first | rfl | exact absurd rfl (hkey rfl)
    | _ => rfl
  constructor
  case once => exact h.once
  case completed =>
    rw [hhist, List.filterMap_append, hnone, List.append_nil]
    exact h.completed
  case outbound =>
    intro c u source' hmem
    rw [hhist, List.mem_append, List.mem_singleton] at hmem
    refine h.outbound c u source' (hmem.resolve_right fun heq ↦ ?_)
    obtain ⟨-, hcaller, -, -, htarget⟩ := Event.transition.inj heq
    exact hkey hcaller.symm htarget.symm
  case delivered =>
    intro c channel packet hmem
    rw [hhist] at hmem
    have hold : .delivered c channel packet ∈ s.history := by simpa using hmem
    obtain ⟨a, ha, hcall, hpacket, hused, hissued⟩ := h.delivered c channel packet hold
    exact ⟨a, ha, hcall, hpacket, hused, hissued.mono hsub⟩
  case ordered =>
    rw [hhist]
    exact h.ordered.concat hreg

-- A response completes a request, and its packet is used.
private theorem Deliveries.complete {token : RequestToken} {source : RequestState}
    {packet : Packet}
    (h : Deliveries s (⟨call, token.sessionId, token.requestId, packet, false⟩ ::ₘ A))
    (hreg : ∃ c, .registered c token ∈ s.history) (hdir : token.direction = .outbound)
    (hhist : s'.history = s.history ++ [Event.transition call .key token source .responded]) :
    Deliveries s' (⟨call, token.sessionId, token.requestId, packet, true⟩ ::ₘ A) := by
  have hsub : s.history ⊆ s'.history := hhist ▸ List.subset_append_left _ _
  constructor
  case once => simpa using h.once
  case completed =>
    have hold := h.completed
    rw [Multiset.filterMap_cons_none _ _ (by rfl)] at hold
    rw [Multiset.filterMap_cons_some Arrival.completed? _ _ (by rfl), ← hold, hhist,
      List.filterMap_append]
    exact Multiset.coe_eq_coe.mpr List.perm_append_comm
  case outbound =>
    intro c u source' hmem
    rw [hhist, List.mem_append, List.mem_singleton] at hmem
    obtain hmem | heq := hmem
    · exact h.outbound c u source' hmem
    · obtain ⟨-, -, rfl, -⟩ := Event.transition.inj heq
      exact hdir
  case delivered =>
    intro c channel p hmem
    rw [hhist] at hmem
    have hold : .delivered c channel p ∈ s.history := by simpa using hmem
    obtain ⟨a, ha, hcall, hpacket, hused, hissued⟩ := h.delivered c channel p hold
    obtain rfl | ha := Multiset.mem_cons.mp ha
    · cases hused
    · exact ⟨a, Multiset.mem_cons_of_mem ha, hcall, hpacket, hused, hissued.mono hsub⟩
  case ordered =>
    rw [hhist]
    exact h.ordered.concat hreg

-- A packet that completed a request goes to the request's channel.
private theorem Deliveries.deliver (h : Deliveries s A) {a : Arrival} {channel : Nat} (ha : a ∈ A)
    (hused : a.used = true) (hissued : s.Issued (.outbound a.sessionId a.requestId) channel)
    (hhist : s'.history = s.history ++ [Event.delivered a.call channel a.packet]) :
    Deliveries s' A := by
  have hsub : s.history ⊆ s'.history := hhist ▸ List.subset_append_left _ _
  constructor
  case once => exact h.once
  case completed =>
    have hnone : [Event.delivered a.call channel a.packet].filterMap Event.completed? = [] := rfl
    rw [hhist, List.filterMap_append, hnone, List.append_nil]
    exact h.completed
  case outbound =>
    intro c token source hmem
    rw [hhist] at hmem
    exact h.outbound c token source (by simpa using hmem)
  case delivered =>
    intro c ch p hmem
    rw [hhist, List.mem_append, List.mem_singleton] at hmem
    obtain hmem | heq := hmem
    · obtain ⟨b, hb, hcall, hpacket, hused, hissued⟩ := h.delivered c ch p hmem
      exact ⟨b, hb, hcall, hpacket, hused, hissued.mono hsub⟩
    · obtain ⟨rfl, rfl, rfl⟩ := Event.delivered.inj heq
      exact ⟨a, ha, rfl, rfl, hused, hissued.mono hsub⟩
  case ordered =>
    rw [hhist]
    exact h.ordered.concat trivial

private theorem Deliveries.keep (h : Deliveries s (part Tok.arrival? (e + F))) {es : List Event}
    (he : part Tok.arrival? e' = part Tok.arrival? e) (hhist : s'.history = s.history ++ es)
    (hes : ∀ x ∈ es, x.still = true) : Deliveries s' (part Tok.arrival? (e' + F)) := by
  rw [part_add, he, ← part_add]
  exact h.frame hhist hes

theorem Looks.arrival {key : RequestKey} {found : Option RequestEntry}
    (h : Looks key found e e') : part Tok.arrival? e' = part Tok.arrival? e := by
  cases h with
  | known => rfl
  | _ => simp [Tok.arrival?]

theorem Loses.arrival {token : RequestToken} {caller : Caller} {source : RequestState}
    (h : Loses token caller source e e') : part Tok.arrival? e' = part Tok.arrival? e := by
  cases h with
  | known => rfl
  | _ => simp [Tok.arrival?]

private theorem arrival_eq_zero {f : Multiset Tok} (h : ∀ x ∈ f, x.arrival? = none) :
    part Tok.arrival? f = 0 := part_eq_zero h

private theorem Deliveries.step_win (h : Deliveries s (part Tok.arrival? (e + F)))
    (hrouted : m.routed = true) {caller : Caller} {token : RequestToken}
    {source target : RequestState} (hreg : ∃ c, .registered c token ∈ s.history)
    (hends : Ends m call token caller source target e e')
    (hhist : s'.history = s.history ++ [Event.transition call caller token source target]) :
    Deliveries s'
      (part Tok.arrival? ({.won call caller token} + owedFor caller target + e' + F)) := by
  have hwon : part Tok.arrival? ({.won call caller token} + owedFor caller target) = 0 := by
    refine part_eq_zero fun x hx ↦ ?_
    simp only [Multiset.mem_add, Multiset.mem_singleton] at hx
    obtain rfl | hx := hx
    · rfl
    · obtain ⟨counter, rfl⟩ := mem_owedFor hx
      rfl
  rw [add_assoc _ e' F, part_add, hwon, zero_add]
  have hpass : part Tok.arrival? e = 0 → part Tok.arrival? e' = 0 →
      (caller = .key → target ≠ .responded) → Deliveries s' (part Tok.arrival? (e' + F)) := by
    intro he he' hkey
    rw [part_add, he']
    rw [part_add, he] at h
    exact h.pass hreg hkey hhist
  cases hends with
  | abort _ htarget _ _ => exact hpass rfl rfl fun _ ↦ htarget
  | undo => exact hpass rfl rfl (by simp)
  | @complete packet hdir =>
    have hA : ∀ used, part Tok.arrival? (responseFor m call token.sessionId token.requestId packet
        used + F) = ⟨call, token.sessionId, token.requestId, packet, used⟩ ::ₘ
          part Tok.arrival? F := fun used ↦ by simp [responseFor, hrouted, Tok.arrival?]
    rw [hA] at h ⊢
    exact h.complete hreg hdir hhist
  | drain _ => exact hpass rfl rfl (by simp)
  | finish =>
    refine hpass (part_eq_zero fun x hx ↦ ?_) rfl (by simp)
    rw [mem_claimFor hx]
    rfl

/-- Every action keeps the packets in order. -/
theorem Deliveries.step {a : Act} {r : a.Resp} (h : Deliveries s (part Tok.arrival? (e + F)))
    (hchannels : Channels m s (e + F)) (hstrict : m.strict = true) (hrouted : m.routed = true)
    (hm : Moves cfg m call a r e e') (hr : (a.exec cfg call choice s).1 = r) :
    Deliveries (a.exec cfg call choice s).2 (part Tok.arrival? (e' + F)) := by
  have hnil : s.history = s.history ++ [] := (List.append_nil _).symm
  have hreg : ∀ {token : RequestToken} {state : RequestState}, s.cells token = some state →
      ∃ c, .registered c token ∈ s.history := fun {token} {state} hcell ↦
    (hchannels.known token).mpr (by rw [hcell]; rfl)
  cases hm with
  | counter _ =>
    refine h.keep ?_ hnil (by simp)
    rw [part_replicate]
    rfl
  | insertRefused =>
    rw [Act.exec, entriesInsert_false hr]
    exact h.keep (by simp [Tok.arrival?]) hnil (by simp)
  | @insertFree entry _ _ =>
    rw [Act.exec, (entriesInsert_true hr).2]
    refine h.keep ?_ rfl (by simp [Event.still])
    have hid : part Tok.arrival? (idFor m entry.key) = 0 := arrival_eq_zero fun x hx ↦ by
      obtain ⟨sid, rfl⟩ := mem_idFor hx
      rfl
    simp [hid, Tok.arrival?]
  | @insertSession entry sid rt _ =>
    rw [Act.exec, (entriesInsert_true hr).2]
    refine h.keep ?_ rfl (by simp [Event.still])
    have hid : part Tok.arrival? (idFor m entry.key) = 0 := arrival_eq_zero fun x hx ↦ by
      obtain ⟨sid', rfl⟩ := mem_idFor hx
      rfl
    simp [hid, Tok.arrival?]
  | get hlooks => exact h.keep hlooks.arrival hnil (by simp)
  | @remove caller token =>
    have hzero : part Tok.arrival? (waiterFor m token.key) = 0 := arrival_eq_zero fun x hx ↦ by
      rw [mem_waiterFor hx]
      rfl
    simp only [Act.exec, State.entriesRemove]
    split
    · exact h.keep (by simp [hzero, Tok.arrival?]) rfl (by simp [Event.still])
    · exact h.keep (by simp [hzero, Tok.arrival?]) hnil (by simp)
  | lose hloses =>
    rw [Act.exec, (tryTransition_error hr).2]
    exact h.keep hloses.arrival hnil (by simp)
  | claim =>
    obtain ⟨hcell, hs'⟩ := tryTransition_ok hr
    rw [Act.exec, hs', part_add, part_add, part_singleton, Tok.arrival?_claim, Option.elim_none,
      add_zero, ← part_add]
    exact h.pass (hreg hcell) (by simp) rfl
  | win hends _ =>
    obtain ⟨hcell, hs'⟩ := tryTransition_ok hr
    rw [Act.exec, hs']
    exact h.step_win hrouted (hreg hcell) hends rfl
  | @waitersInsert token replaced _ =>
    have hwaiter : part Tok.arrival? (waiterFor m token.key) = 0 := arrival_eq_zero fun x hx ↦ by
      rw [mem_waiterFor hx]
      rfl
    have hsender : part Tok.arrival? (senderFor m token.key replaced) = 0 :=
      arrival_eq_zero fun x hx ↦ by
        obtain ⟨channel, -, rfl⟩ := mem_senderFor hx
        rfl
    exact h.keep (by simp [hwaiter, hsender]) hnil (by simp)
  | @waitersRemove key sender | @waitersSettle key sender =>
    have hsender : part Tok.arrival? (senderFor m key sender) = 0 := arrival_eq_zero fun x hx ↦ by
      obtain ⟨channel, -, rfl⟩ := mem_senderFor hx
      rfl
    exact h.keep (by simp [hsender, Tok.arrival?]) hnil (by simp)
  | @send channel packet sid id =>
    have hsender : senderFor m (.outbound sid id) (some channel) =
        {.holdsSender (.outbound sid id) channel} := by simp [senderFor, hstrict]
    have hresponse : responseFor m call sid id packet true =
        {.response call sid id packet true} := by simp [responseFor, hrouted]
    have hissued : s.Issued (.outbound sid id) channel :=
      hchannels.sender (.outbound sid id, channel)
        (mem_part.mpr ⟨.holdsSender (.outbound sid id) channel, by simp [hsender], rfl⟩)
    have hA : part Tok.arrival? (responseFor m call sid id packet true + F) =
        ⟨call, sid, id, packet, true⟩ ::ₘ part Tok.arrival? F := by
      simp [hresponse, Tok.arrival?]
    have hzero : part Tok.arrival? {.holdsSender (.outbound sid id) channel} = 0 := rfl
    rw [hsender, add_assoc, part_add, hzero, zero_add, hA] at h
    rw [hA]
    exact h.deliver (a := ⟨call, sid, id, packet, true⟩) (Multiset.mem_cons_self _ _) rfl hissued rfl
  | @drop key channel =>
    have hsender : part Tok.arrival? (senderFor m key (some channel)) = 0 :=
      arrival_eq_zero fun x hx ↦ by
        obtain ⟨channel', -, rfl⟩ := mem_senderFor hx
        rfl
    rw [Act.exec, channelDrop_eq]
    exact h.keep (by simp [hsender]) hnil (by simp)
  | @openSession sid =>
    have hzero : part Tok.arrival? (openFor m sid) = 0 := arrival_eq_zero fun x hx ↦ by
      rw [mem_openFor hx]
      rfl
    simp only [Act.exec, State.sessionsOrInsert]
    split
    · exact h.keep (by simp [hzero]) hnil (by simp)
    · exact h.keep (by simp [hzero]) rfl (by simp [Event.still])
  | sessionGone | sessionTaken | index =>
    exact h.keep (by simp [Tok.arrival?]) rfl (by simp [Event.still])
  | isOpen => exact h
  | idExhausted | idAllocated =>
    simp only [Act.exec, State.nextRequestIdFetchUpdate]
    split
    · exact h.keep (by simp [Tok.arrival?]) rfl (by simp [Event.still])
    · exact h.keep (by simp [Tok.arrival?]) hnil (by simp)
  | _ => exact h.keep (by simp [Tok.arrival?]) hnil (by simp)

end Deliveries

end MsgTrans.Registry
