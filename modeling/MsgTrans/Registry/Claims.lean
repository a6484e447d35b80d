import MsgTrans.Registry.Provenance

/-!
# Request registry: respond claims

`begin_respond` claims a pending request (`request_registry.rs:735–763`) and `finish_respond`
resolves the claim (`request_registry.rs:768–797`). What the token rules keep true: a registration
is claimed once, and not after it ended; it stays `Responding` only as long as its claim exists;
and whoever presents a token acts on that registration alone.
-/

namespace MsgTrans.Registry

open MsgTrans.Base MsgTrans.Wire

/-- A respond claim, held or on its way into `finish_respond`. -/
def Tok.claim? : Tok → Option RequestToken
  | .claim token | .resolving token => some token
  | _ => none

/-- A respond claim that is held. -/
def Tok.held? : Tok → Option RequestToken
  | .claim token => some token
  | _ => none

/-- The registration, for a step that claimed it. -/
def Event.claimed? : Event → Option RequestToken
  | .transition _ _ token _ .responding => some token
  | _ => none

/-- A claim is not preceded by the end of the registration. -/
def Event.Unended (h : List Event) (e : Event) : Prop :=
  ∀ token ∈ e.claimed?, token ∉ (endedBy h).map fun o ↦ o.2.2

/-- The step was taken under the right of a token, and on another registration. -/
def Event.Strays : Event → Prop
  | .transition _ (.token presented) token _ _ | .removed _ (.token presented) token =>
    presented ≠ token
  | _ => False

/-- The invariant of the claims: `H` are those that exist, `G` those ever taken. -/
structure Claims (s : State) (H G : Multiset RequestToken) : Prop where
  responding : ∀ token, s.cells token = some .responding → token ∈ H
  taken : ((s.history.filterMap Event.claimed? : List _) : Multiset _) = G
  once : G.Nodup
  past : ∀ token ∈ G, ∃ state, s.cells token = some state ∧ state ≠ .pending
  unended : Preceded Event.Unended s.history

section Claims

variable {cfg : RegistryConfig} {m : Mode} {call choice : Nat} {s s' : State}
  {H G C C' : Multiset RequestToken} {e e' F : Multiset Tok}

/-- The event moves no registration on. -/
def Event.calm : Event → Bool
  | .transition .. => false
  | _ => true

private theorem claimed?_calm {x : Event} (h : x.calm = true) : x.claimed? = none := by
  cases x <;> first | rfl | cases h

private theorem Claims.frame (h : Claims s H G) {es : List Event}
    (hcells : ∀ token, (s.cells token).isSome = true → s'.cells token = s.cells token)
    (hresponding : ∀ token, s'.cells token = some .responding → s.cells token = some .responding)
    (hhist : s'.history = s.history ++ es) (hes : ∀ x ∈ es, x.calm = true) : Claims s' H G := by
  have hnone : es.filterMap Event.claimed? = [] :=
    List.filterMap_eq_nil_iff.mpr fun x hx ↦ claimed?_calm (hes x hx)
  constructor
  case responding => exact fun token ht ↦ h.responding token (hresponding token ht)
  case taken =>
    rw [hhist, List.filterMap_append, hnone, List.append_nil]
    exact h.taken
  case once => exact h.once
  case past =>
    intro token ht
    obtain ⟨state, hstate, hne⟩ := h.past token ht
    exact ⟨state, (hcells token (by rw [hstate]; rfl)).trans hstate, hne⟩
  case unended =>
    rw [hhist]
    refine h.unended.append fun x hx g token ht ↦ ?_
    rw [claimed?_calm (hes x hx)] at ht
    cases ht

-- A claim is gone; its registration moved on before.
private theorem Claims.forget {token : RequestToken} (h : Claims s ({token} + H) G)
    (hcell : s.cells token ≠ some .responding) : Claims s H G := by
  refine ⟨fun u hu ↦ ?_, h.taken, h.once, h.past, h.unended⟩
  refine (Multiset.mem_add.mp (h.responding u hu)).resolve_left fun heq ↦ hcell ?_
  rwa [← Multiset.mem_singleton.mp heq]

-- A pending registration is claimed.
private theorem Claims.claim (h : Claims s H G) {b : Books} (hcore : Core s b) {caller : Caller}
    {token : RequestToken} (hcell : s.cells token = some .pending)
    (hcells : s'.cells = Function.update s.cells token (some .responding))
    (hhist : s'.history = s.history ++ [Event.transition call caller token .pending .responding]) :
    Claims s' (token ::ₘ H) (token ::ₘ G) := by
  have hnew : token ∉ G := by
    intro ht
    obtain ⟨state, hstate, hne⟩ := h.past token ht
    exact hne (Option.some.inj (hstate.symm.trans hcell))
  constructor
  case responding =>
    intro u hu
    by_cases heq : u = token
    · exact Multiset.mem_cons.mpr (.inl heq)
    · rw [hcells, Function.update_of_ne heq] at hu
      exact Multiset.mem_cons_of_mem (h.responding u hu)
  case taken =>
    have hone : [Event.transition call caller token .pending .responding].filterMap
        Event.claimed? = [token] := rfl
    rw [hhist, List.filterMap_append, hone, ← h.taken, Multiset.cons_coe]
    exact Multiset.coe_eq_coe.mpr List.perm_append_comm
  case once => exact Multiset.nodup_cons.mpr ⟨hnew, h.once⟩
  case past =>
    intro u hu
    rw [hcells]
    by_cases heq : u = token
    · exact ⟨.responding, by rw [heq, Function.update_self], by simp⟩
    · rw [Function.update_of_ne heq]
      exact h.past u ((Multiset.mem_cons.mp hu).resolve_left heq)
  case unended =>
    rw [hhist]
    refine h.unended.concat fun u hu ↦ ?_
    obtain rfl : token = u := Option.some.inj hu
    rw [hcore.ended_iff, State.ended_of_cell hcell]
    simp [RequestState.terminal]

-- A registration ends.
private theorem Claims.win (h : Claims s H G) {caller : Caller} {token : RequestToken}
    {source target : RequestState} (htarget : target.terminal = true)
    (hcells : s'.cells = Function.update s.cells token (some target))
    (hhist : s'.history = s.history ++ [Event.transition call caller token source target]) :
    Claims s' H G := by
  have hnone : Event.claimed? (.transition call caller token source target) = none := by
    cases target <;> first | rfl | cases htarget
  constructor
  case responding =>
    intro u hu
    rw [hcells] at hu
    by_cases heq : u = token
    · rw [heq, Function.update_self] at hu
      rw [Option.some.inj hu] at htarget
      cases htarget
    · rw [Function.update_of_ne heq] at hu
      exact h.responding u hu
  case taken =>
    rw [hhist, List.filterMap_append, List.filterMap_cons_none hnone, List.filterMap_nil,
      List.append_nil]
    exact h.taken
  case once => exact h.once
  case past =>
    intro u hu
    rw [hcells]
    by_cases heq : u = token
    · refine ⟨target, by rw [heq, Function.update_self], ?_⟩
      rintro rfl
      cases htarget
    · rw [Function.update_of_ne heq]
      exact h.past u hu
  case unended =>
    rw [hhist]
    refine h.unended.concat fun u hu ↦ ?_
    rw [hnone] at hu
    cases hu

-- A registration enters the map.
private theorem Claims.insert (h : Claims s H G) {token : RequestToken}
    (hfresh : s.cells token = none)
    (hcells : s'.cells = Function.update s.cells token (some .pending))
    (hhist : s'.history = s.history ++ [Event.registered call token]) : Claims s' H G := by
  refine h.frame (fun u hu ↦ ?_) (fun u hu ↦ ?_) hhist (by simp [Event.calm])
  all_goals
    have hother : u ≠ token → s'.cells u = s.cells u := fun hne ↦ by
      rw [hcells, Function.update_of_ne hne]
  · refine hother fun heq ↦ ?_
    rw [heq, hfresh] at hu
    cases hu
  · rwa [hother fun heq ↦ ?_] at hu
    rw [heq, hcells, Function.update_self] at hu
    cases hu

private theorem Claims.keep
    (h : Claims s (part Tok.claim? (e + F) + C) (part Tok.held? (e + F) + C'))
    {es : List Event} (he : part Tok.claim? e' = part Tok.claim? e)
    (hg : part Tok.held? e' = part Tok.held? e) (hcells : s'.cells = s.cells)
    (hhist : s'.history = s.history ++ es) (hes : ∀ x ∈ es, x.calm = true) :
    Claims s' (part Tok.claim? (e' + F) + C) (part Tok.held? (e' + F) + C') := by
  rw [part_add, part_add, he, hg, ← part_add, ← part_add]
  exact h.frame (fun token _ ↦ by rw [hcells]) (fun token ht ↦ by rwa [hcells] at ht) hhist hes

/-- The token is no claim. -/
def Tok.unclaimed : Tok → Bool
  | .claim _ | .resolving _ => false
  | _ => true

private theorem part_unclaimed {f : Multiset Tok} (hf : ∀ x ∈ f, x.unclaimed = true) :
    part Tok.claim? f = 0 ∧ part Tok.held? f = 0 := by
  refine ⟨part_eq_zero fun x hx ↦ ?_, part_eq_zero fun x hx ↦ ?_⟩
  all_goals
    have h := hf x hx
    cases x <;> first | rfl | cases h

private theorem Claims.still
    (h : Claims s (part Tok.claim? (e + F) + C) (part Tok.held? (e + F) + C')) {es : List Event}
    (he : ∀ x ∈ e, x.unclaimed = true) (he' : ∀ x ∈ e', x.unclaimed = true)
    (hcells : s'.cells = s.cells) (hhist : s'.history = s.history ++ es)
    (hes : ∀ x ∈ es, x.calm = true) :
    Claims s' (part Tok.claim? (e' + F) + C) (part Tok.held? (e' + F) + C') := by
  obtain ⟨h₁, h₂⟩ := part_unclaimed he
  obtain ⟨h₁', h₂'⟩ := part_unclaimed he'
  exact h.keep (h₁'.trans h₁.symm) (h₂'.trans h₂.symm) hcells hhist hes

-- The tokens of a call that gives a claim up.
private theorem Claims.release {token : RequestToken}
    (h : Claims s (part Tok.claim? ({.resolving token} + F) + C)
      (part Tok.held? ({.resolving token} + F) + C')) (hcell : s.cells token ≠ some .responding) :
    Claims s (part Tok.claim? (0 + F) + C) (part Tok.held? (0 + F) + C') := by
  have h₁ : part Tok.claim? ({.resolving token} + F) = {token} + part Tok.claim? F := by
    simp [Tok.claim?]
  have h₂ : part Tok.held? ({.resolving token} + F) = part Tok.held? F := by simp [Tok.held?]
  rw [h₁, h₂, add_assoc] at h
  rw [zero_add]
  exact h.forget hcell

private theorem Claims.step_insert
    (h : Claims s (part Tok.claim? (e + F) + C) (part Tok.held? (e + F) + C'))
    {token : RequestToken} (hfresh : s.cells token = none)
    (hcells : s'.cells = Function.update s.cells token (some .pending))
    (hhist : s'.history = s.history ++ [Event.registered call token])
    (he : ∀ x ∈ e, x.unclaimed = true) (he' : ∀ x ∈ e', x.unclaimed = true) :
    Claims s' (part Tok.claim? (e' + F) + C) (part Tok.held? (e' + F) + C') :=
  (h.insert hfresh hcells hhist).still he he' rfl (List.append_nil _).symm (by simp)

private theorem unclaimed_won (call : Nat) (caller : Caller) (token : RequestToken)
    (target : RequestState) :
    ∀ x ∈ {.won call caller token} + owedFor caller target, x.unclaimed = true := by
  intro x hx
  simp only [Multiset.mem_add, Multiset.mem_singleton] at hx
  obtain rfl | hx := hx
  · rfl
  · obtain ⟨counter, rfl⟩ := mem_owedFor hx
    rfl

private theorem Claims.step_win
    (h : Claims s (part Tok.claim? (e + F) + C) (part Tok.held? (e + F) + C')) {caller : Caller}
    {token : RequestToken} {source target : RequestState}
    (hends : Ends m call token caller source target e e')
    (hcells : s'.cells = Function.update s.cells token (some target))
    (hhist : s'.history = s.history ++ [Event.transition call caller token source target]) :
    Claims s' (part Tok.claim? ({.won call caller token} + owedFor caller target + e' + F) + C)
      (part Tok.held? ({.won call caller token} + owedFor caller target + e' + F) + C') := by
  have hended := h.win hends.target_terminal hcells hhist
  obtain ⟨hw, hw'⟩ := part_unclaimed (unclaimed_won call caller token target)
  rw [add_assoc _ e' F, part_add _ (e' + F), part_add _ (e' + F), hw, hw', zero_add, zero_add]
  have hplain : (∀ x ∈ e, x.unclaimed = true) → (∀ x ∈ e', x.unclaimed = true) →
      Claims s' (part Tok.claim? (e' + F) + C) (part Tok.held? (e' + F) + C') := fun he he' ↦
    hended.still he he' rfl (List.append_nil _).symm (by simp)
  cases hends with
  | abort => exact hplain (by simp) (by simp)
  | undo => exact hplain (by simp [Tok.unclaimed]) (by simp)
  | complete _ =>
    refine hplain (fun x hx ↦ ?_) fun x hx ↦ ?_
    all_goals
      rw [mem_responseFor hx]
      rfl
  | drain _ => exact hplain (by simp [Tok.unclaimed]) (by simp)
  | @finish writeConfirmed =>
    by_cases hclaimed : m.claimed = true
    · rw [claimFor, if_pos hclaimed] at hended
      refine hended.release ?_
      rw [hcells, Function.update_self]
      cases writeConfirmed <;> simp [respondTarget]
    · rw [claimFor, if_neg hclaimed] at hended
      exact hended

/-- Every action keeps the claims in order. -/
theorem Claims.step {a : Act} {r : a.Resp}
    (h : Claims s (part Tok.claim? (e + F) + C) (part Tok.held? (e + F) + C'))
    (hcore : Core s (books (e + F))) (hm : Moves cfg m call a r e e')
    (hr : (a.exec cfg call choice s).1 = r) :
    Claims (a.exec cfg call choice s).2 (part Tok.claim? (e' + F) + C)
      (part Tok.held? (e' + F) + C') := by
  have hnil : s.history = s.history ++ [] := (List.append_nil _).symm
  cases hm with
  | counter _ =>
    refine h.still (fun x hx ↦ ?_) (by simp) rfl hnil (by simp)
    rw [Multiset.eq_of_mem_replicate hx]
    rfl
  | insertRefused =>
    rw [Act.exec, entriesInsert_false hr]
    exact h.still (by simp [Tok.unclaimed]) (by simp) rfl hnil (by simp)
  | @insertFree entry _ _ =>
    rw [Act.exec, (entriesInsert_true hr).2]
    refine h.step_insert (hcore.fresh_unused entry.generation
      (mem_part.mpr ⟨.fresh entry.generation, by simp, rfl⟩) entry.token rfl) rfl rfl (fun x hx ↦ ?_)
      (by simp [Tok.unclaimed])
    simp only [zero_add, Multiset.mem_add, Multiset.mem_singleton] at hx
    obtain rfl | rfl | hx := hx
    · rfl
    · rfl
    · obtain ⟨sid, rfl⟩ := mem_idFor hx
      rfl
  | @insertSession entry sid rt _ =>
    rw [Act.exec, (entriesInsert_true hr).2]
    refine h.step_insert (hcore.fresh_unused entry.generation
      (mem_part.mpr ⟨.fresh entry.generation, by simp, rfl⟩) entry.token rfl) rfl rfl (fun x hx ↦ ?_)
      (by simp [Tok.unclaimed])
    simp only [Multiset.mem_add, Multiset.mem_singleton] at hx
    obtain rfl | rfl | rfl | hx := hx
    · rfl
    · rfl
    · rfl
    · obtain ⟨sid', rfl⟩ := mem_idFor hx
      rfl
  | @get key found e e' hlooks =>
    cases hlooks with
    | known => exact h
    | @notResponding _ token hkey hne =>
      refine h.release fun hcell ↦ ?_
      -- A registration that is responding is in the map, under its own key.
      obtain ⟨entry, hlookup, htoken⟩ := hcore.lookup_of_mem (hcore.live token _ hcell rfl)
      have hfound : s.entries.lookup key = found := hr
      rw [hkey, hfound] at hlookup
      exact hne entry hlookup htoken
    | _ => exact h.still (by simp [Tok.unclaimed]) (by simp [Tok.unclaimed]) rfl hnil (by simp)
  | @remove caller token =>
    have hwaiter : ∀ x ∈ waiterFor m token.key, x.unclaimed = true := fun x hx ↦ by
      rw [mem_waiterFor hx]
      rfl
    simp only [Act.exec, State.entriesRemove]
    split
    · exact h.still (by simp [Tok.unclaimed]) hwaiter rfl rfl (by simp [Event.calm])
    · exact h.still (by simp [Tok.unclaimed]) hwaiter rfl hnil (by simp)
  | lose hloses =>
    obtain ⟨hcell, hs'⟩ := tryTransition_error hr
    rw [Act.exec, hs']
    cases hloses with
    | known => exact h
    | finish => exact h.release hcell
    | _ => exact h.still (by simp [Tok.unclaimed]) (by simp [Tok.unclaimed]) rfl hnil (by simp)
  | @claim token =>
    obtain ⟨hcell, hs'⟩ := tryTransition_ok hr
    rw [Act.exec, hs']
    have hH : part Tok.claim? (mintFor m token + {.claim token} + F) + C =
        token ::ₘ (part Tok.claim? (mintFor m token + F) + C) := by
      simp only [part_add, part_singleton, Tok.claim?, Option.elim_some, ← Multiset.singleton_add]
      abel
    have hG : part Tok.held? (mintFor m token + {.claim token} + F) + C' =
        token ::ₘ (part Tok.held? (mintFor m token + F) + C') := by
      simp only [part_add, part_singleton, Tok.held?, Option.elim_some, ← Multiset.singleton_add]
      abel
    rw [hH, hG]
    exact h.claim hcore hcell rfl rfl
  | win hends _ =>
    rw [Act.exec, (tryTransition_ok hr).2]
    exact h.step_win hends rfl rfl
  | waitersInsert _ =>
    refine h.still (fun x hx ↦ ?_) (fun x hx ↦ ?_) rfl hnil (by simp)
    · rw [mem_mintFor hx]
      rfl
    · simp only [Multiset.mem_add] at hx
      obtain (hx | hx) | hx := hx
      · rw [mem_mintFor hx]
        rfl
      · rw [mem_waiterFor hx]
        rfl
      · obtain ⟨channel, -, rfl⟩ := mem_senderFor hx
        rfl
  | waitersRemove | waitersSettle =>
    refine h.still (by simp [Tok.unclaimed]) (fun x hx ↦ ?_) rfl hnil (by simp)
    obtain ⟨channel, -, rfl⟩ := mem_senderFor hx
    rfl
  | send =>
    refine h.still (fun x hx ↦ ?_) (fun x hx ↦ ?_) rfl rfl (by simp [Event.calm])
    · obtain hx | hx := Multiset.mem_add.mp hx
      · obtain ⟨channel, -, rfl⟩ := mem_senderFor hx
        rfl
      · rw [mem_responseFor hx]
        rfl
    · rw [mem_responseFor hx]
      rfl
  | @drop key channel =>
    have hsender : ∀ x ∈ senderFor m key (some channel), x.unclaimed = true := fun x hx ↦ by
      obtain ⟨channel', -, rfl⟩ := mem_senderFor hx
      rfl
    simp only [Act.exec, State.channelDrop]
    split
    all_goals exact h.still hsender (by simp) rfl hnil (by simp)
  | @openSession sid =>
    have hopen : ∀ x ∈ openFor m sid, x.unclaimed = true := fun x hx ↦ by
      rw [mem_openFor hx]
      rfl
    simp only [Act.exec, State.sessionsOrInsert]
    split
    · exact h.still hopen (by simp) rfl hnil (by simp)
    · exact h.still hopen (by simp) rfl rfl (by simp [Event.calm])
  | sessionGone | sessionTaken | index =>
    exact h.still (by simp [Tok.unclaimed]) (by simp [Tok.unclaimed]) rfl rfl (by simp [Event.calm])
  | isOpen => exact h
  | idExhausted | idAllocated =>
    simp only [Act.exec, State.nextRequestIdFetchUpdate]
    split
    · exact h.still (by simp [Tok.unclaimed]) (by simp [Tok.unclaimed]) rfl rfl
        (by simp [Event.calm])
    · exact h.still (by simp [Tok.unclaimed]) (by simp [Tok.unclaimed]) rfl hnil (by simp)
  | _ => exact h.still (by simp [Tok.unclaimed]) (by simp [Tok.unclaimed]) rfl hnil (by simp)

end Claims

/-- Whoever presents a token acts on that registration alone. -/
structure Fitting (s : State) (D : Multiset Tok) : Prop where
  owners : ∀ o ∈ part Tok.owner? D, o.2.1.Fits o.2.2
  events : ∀ x ∈ s.history, ¬ x.Strays

section Fitting

variable {cfg : RegistryConfig} {m : Mode} {call choice : Nat} {s s' : State}
  {e e' F : Multiset Tok}

private theorem Fitting.keep (h : Fitting s (e + F)) {es : List Event}
    (hhist : s'.history = s.history ++ es) (hes : ∀ x ∈ es, ¬ x.Strays)
    (he' : ∀ o ∈ part Tok.owner? e', o ∈ part Tok.owner? e ∨ o.2.1.Fits o.2.2) :
    Fitting s' (e' + F) := by
  refine ⟨fun o ho ↦ ?_, fun x hx ↦ ?_⟩
  · have hold : ∀ o ∈ part Tok.owner? e + part Tok.owner? F, o.2.1.Fits o.2.2 := by
      rw [← part_add]
      exact h.owners
    rw [part_add, Multiset.mem_add] at ho
    obtain ho | ho := ho
    · exact (he' o ho).elim (fun ho ↦ hold o (Multiset.mem_add.mpr (.inl ho))) fun hfits ↦ hfits
    · exact hold o (Multiset.mem_add.mpr (.inr ho))
  · rw [hhist, List.mem_append] at hx
    exact hx.elim (h.events x) (hes x)

private theorem not_strays {caller : Caller} {token : RequestToken}
    (source target : RequestState) (hfits : caller.Fits token) :
    ¬ (Event.transition call caller token source target).Strays ∧
      ¬ (Event.removed call caller token).Strays := by
  cases caller with
  | token presented =>
    obtain rfl : presented = token := hfits
    simp [Event.Strays]
  | _ => simp [Event.Strays]

-- The entry under the key is the one the call ended.
private theorem entriesRemove_owner {F : Multiset Tok} {caller : Caller} {token : RequestToken}
    (hcore : Core s (books ({.subbed call caller token} + F))) :
    (s.entriesRemove call caller token.key).history =
      s.history ++ [Event.removed call caller token] := by
  have howner : token ∈ (books ({.subbed call caller token} + F)).owners.map fun o ↦ o.2.2 :=
    Multiset.mem_map.mpr ⟨(call, caller, token),
      mem_part.mpr ⟨.subbed call caller token, by simp, rfl⟩, rfl⟩
  rw [hcore.owners_eq, Multiset.mem_filter] at howner
  obtain ⟨entry, hlookup, rfl⟩ := hcore.lookup_of_mem howner.1
  rw [State.entriesRemove, hlookup]
  rfl

private theorem owner_none (h : ∀ x ∈ e', x.owner? = none) :
    ∀ o ∈ part Tok.owner? e', o ∈ part Tok.owner? e ∨ o.2.1.Fits o.2.2 := by
  rw [part_eq_zero h]
  simp

private theorem Ends.owner {token : RequestToken} {caller : Caller} {source target : RequestState}
    (hends : Ends m call token caller source target e e') {o : Nat × Caller × RequestToken}
    (ho : o ∈ part Tok.owner? ({.won call caller token} + owedFor caller target + e')) :
    o = (call, caller, token) := by
  obtain ⟨x, hx, hxo⟩ := mem_part.mp ho
  simp only [Multiset.mem_add, Multiset.mem_singleton] at hx
  obtain (rfl | hx) | hx := hx
  · exact (Option.some.inj hxo).symm
  · obtain ⟨counter, rfl⟩ := mem_owedFor hx
    cases hxo
  · cases hends with
    | complete _ =>
      rw [mem_responseFor hx] at hxo
      cases hxo
    | _ => simp at hx

/-- Every action is taken under the right of the registration it acts on. -/
theorem Fitting.step {a : Act} {r : a.Resp} (h : Fitting s (e + F))
    (hcore : Core s (books (e + F))) (hm : Moves cfg m call a r e e')
    (hr : (a.exec cfg call choice s).1 = r) : Fitting (a.exec cfg call choice s).2 (e' + F) := by
  have hnil : s.history = s.history ++ [] := (List.append_nil _).symm
  cases hm with
  | pendingSubWon =>
    refine h.keep hnil (by simp) fun o ho ↦ .inl ?_
    simpa [Tok.owner?] using ho
  | insertRefused =>
    rw [Act.exec, entriesInsert_false hr]
    exact h.keep hnil (by simp) (by simp)
  | insertFree _ _ | insertSession _ =>
    rw [Act.exec, (entriesInsert_true hr).2]
    exact h.keep rfl (by simp [Event.Strays]) (by simp [Tok.owner?])
  | get hlooks =>
    cases hlooks with
    | known => exact h
    | _ => exact h.keep hnil (by simp) (by simp [Tok.owner?])
  | @remove caller token =>
    have hfits : caller.Fits token := h.owners (call, caller, token)
      (mem_part.mpr ⟨.subbed call caller token, by simp, rfl⟩)
    refine h.keep (entriesRemove_owner hcore) ?_ (owner_none fun x hx ↦ ?_)
    · simpa using (not_strays .pending .pending hfits).2
    · rw [mem_waiterFor hx]
      rfl
  | lose hloses =>
    rw [Act.exec, (tryTransition_error hr).2]
    cases hloses with
    | known => exact h
    | _ => exact h.keep hnil (by simp) (by simp [Tok.owner?])
  | claim =>
    rw [Act.exec, (tryTransition_ok hr).2]
    refine h.keep rfl (by simp [Event.Strays]) (owner_none fun x hx ↦ ?_)
    obtain hx | hx := Multiset.mem_add.mp hx
    · rw [mem_mintFor hx]
      rfl
    · rw [Multiset.mem_singleton.mp hx]
      rfl
  | win hends hfits =>
    rw [Act.exec, (tryTransition_ok hr).2]
    refine h.keep rfl ?_ fun o ho ↦ .inr ?_
    · simpa using (not_strays _ _ hfits).1
    · rw [hends.owner ho]
      exact hfits
  | waitersInsert _ =>
    refine h.keep hnil (by simp) (owner_none fun x hx ↦ ?_)
    simp only [Multiset.mem_add] at hx
    obtain (hx | hx) | hx := hx
    · rw [mem_mintFor hx]
      rfl
    · rw [mem_waiterFor hx]
      rfl
    · obtain ⟨channel, -, rfl⟩ := mem_senderFor hx
      rfl
  | waitersRemove | waitersSettle =>
    refine h.keep hnil (by simp) (owner_none fun x hx ↦ ?_)
    obtain ⟨channel, -, rfl⟩ := mem_senderFor hx
    rfl
  | send =>
    refine h.keep rfl (by simp [Event.Strays]) (owner_none fun x hx ↦ ?_)
    rw [mem_responseFor hx]
    rfl
  | drop =>
    simp only [Act.exec, State.channelDrop]
    split
    all_goals exact h.keep hnil (by simp) (by simp)
  | openSession =>
    simp only [Act.exec, State.sessionsOrInsert]
    split
    · exact h.keep hnil (by simp) (by simp)
    · exact h.keep rfl (by simp [Event.Strays]) (by simp)
  | sessionGone | sessionTaken | index =>
    exact h.keep rfl (by simp [Event.Strays]) (by simp [Tok.owner?])
  | isOpen => exact h
  | idExhausted | idAllocated =>
    simp only [Act.exec, State.nextRequestIdFetchUpdate]
    split
    · exact h.keep rfl (by simp [Event.Strays]) (by simp [Tok.owner?])
    · exact h.keep hnil (by simp) (by simp [Tok.owner?])
  | _ => exact h.keep hnil (by simp) (by simp [Tok.owner?])

end Fitting

end MsgTrans.Registry
