import MsgTrans.Registry.Runs

/-!
# Request registry: closing a session

What the token rules keep true of the session map and of the runtimes taken out of it, as long
as no session id is opened again after it was closed. A runtime that left the map is open only
until its closer has marked it, and it has at most one closer.
-/

namespace MsgTrans.Registry

open MsgTrans.Base MsgTrans.Wire

namespace Tok

/-- A runtime taken out of the map and not marked yet. -/
def closing? : Tok → Option (SessionId × Nat)
  | closing sid rt => some (sid, rt)
  | _ => none

/-- A runtime whose keys are being drained. -/
def draining? : Tok → Option Nat
  | draining _ rt _ _ => some rt
  | _ => none

/-- A session known to be closed. -/
def gone? : Tok → Option SessionId
  | gone sid => some sid
  | _ => none

end Tok

/-- What the tokens of all calls say about closing sessions. -/
structure Closers where
  closing : Multiset (SessionId × Nat)
  draining : Multiset Nat
  gone : Multiset SessionId

/-- The closers of a multiset of tokens. -/
def closers (D : Multiset Tok) : Closers where
  closing := part Tok.closing? D
  draining := part Tok.draining? D
  gone := part Tok.gone? D

/-- The runtimes that some call is closing. -/
def Closers.runtimes (b : Closers) : Multiset Nat := b.closing.map Prod.snd + b.draining

/-- The invariant of the session map and of the runtimes taken out of it. -/
structure Gates (s : State) (b : Closers) : Prop where
  opened : ∀ sid rt, .opened sid rt ∈ s.history →
    s.sessions.lookup sid = some rt ∨ .closed sid ∈ s.history
  closed : ∀ sid, .closed sid ∈ s.history → s.sessions.lookup sid = none
  shut : ∀ sid rt, .opened sid rt ∈ s.history → .closed sid ∈ s.history →
    (s.runtimes rt).isOpen = false ∨ (sid, rt) ∈ b.closing
  gone : ∀ sid ∈ b.gone, .closed sid ∈ s.history
  draining : ∀ rt ∈ b.draining, (s.runtimes rt).isOpen = false
  once : b.runtimes.Nodup
  taken : ∀ sid rt, s.sessions.lookup sid = some rt → rt ∉ b.runtimes

section Gates

variable {cfg : RegistryConfig} {m : Mode} {call choice : Nat} {s s' : State} {b : Closers}
  {e e' F : Multiset Tok}

/-- The event concerns neither the opening nor the closing of a session. -/
def Event.indoors : Event → Bool
  | .opened .. | .closed _ => false
  | _ => true

private theorem Gates.frame (h : Gates s b) {es : List Event} (hsessions : s'.sessions = s.sessions)
    (hopen : ∀ rt, (s'.runtimes rt).isOpen = (s.runtimes rt).isOpen)
    (hhist : s'.history = s.history ++ es) (hes : ∀ x ∈ es, x.indoors = true) : Gates s' b := by
  have hopened : ∀ sid rt, .opened sid rt ∈ s'.history ↔ .opened sid rt ∈ s.history := by
    intro sid rt
    rw [hhist, List.mem_append, or_iff_left]
    exact fun hmem ↦ absurd (hes _ hmem) (by simp [Event.indoors])
  have hclosed : ∀ sid, .closed sid ∈ s'.history ↔ .closed sid ∈ s.history := by
    intro sid
    rw [hhist, List.mem_append, or_iff_left]
    exact fun hmem ↦ absurd (hes _ hmem) (by simp [Event.indoors])
  constructor
  case once => exact h.once
  all_goals simp only [hopened, hclosed, hsessions, hopen]
  exacts [h.opened, h.closed, h.shut, h.gone, h.draining, h.taken]

/-- A session id that was never closed is opened. -/
private theorem Gates.open (h : Gates s b) (hhome : Home s F) (hb : b = closers F)
    {sid : SessionId} (hnever : .closed sid ∉ s.history) : Gates (s.sessionsOrInsert sid) b := by
  unfold State.sessionsOrInsert
  split
  · exact h
  next hnone =>
  have hnew : ∀ sid', .opened sid' s.nextRuntime ∉ s.history := fun sid' hmem ↦
    Nat.lt_irrefl _ (hhome.opened_lt sid' _ hmem)
  have hruntime : ∀ rt, rt ≠ s.nextRuntime →
      Function.update s.runtimes s.nextRuntime {} rt = s.runtimes rt :=
    fun rt hne ↦ Function.update_of_ne hne _ _
  have hfree : s.nextRuntime ∉ b.runtimes := by
    subst hb
    intro hmem
    obtain hmem | hmem := Multiset.mem_add.mp hmem
    · obtain ⟨⟨sid', rt⟩, hclosing, rfl⟩ := Multiset.mem_map.mp hmem
      obtain ⟨x, hx, hx'⟩ := mem_part.mp hclosing
      cases x <;> cases hx'
      exact hnew _ (hhome.tokens _ hx)
    · obtain ⟨x, hx, hx'⟩ := mem_part.mp hmem
      cases x <;> cases hx'
      exact hnew _ (hhome.tokens _ hx)
  constructor
  case once => exact h.once
  all_goals simp only [State.record, List.mem_append, List.mem_singleton, Event.opened.injEq,
    reduceCtorEq, or_false]
  case opened =>
    rintro sid' rt (hmem | ⟨rfl, rfl⟩)
    · have hne : sid' ≠ sid := by
        rintro rfl
        obtain hlookup | hclosed := h.opened _ _ hmem
        · rw [hnone] at hlookup
          cases hlookup
        · exact hnever hclosed
      rw [AList.lookup_insert_ne hne]
      exact h.opened sid' rt hmem
    · exact .inl (AList.lookup_insert _)
  case closed =>
    intro sid' hmem
    have hne : sid' ≠ sid := by
      rintro rfl
      exact hnever hmem
    rw [AList.lookup_insert_ne hne]
    exact h.closed sid' hmem
  case shut =>
    rintro sid' rt (hmem | ⟨rfl, rfl⟩) hclosed
    · rw [hruntime rt fun heq ↦ hnew sid' (heq ▸ hmem)]
      exact h.shut sid' rt hmem hclosed
    · exact absurd hclosed hnever
  case gone => exact h.gone
  case draining =>
    intro rt hmem
    rw [hruntime rt fun heq ↦ hfree (Multiset.mem_add.mpr (.inr (heq ▸ hmem)))]
    exact h.draining rt hmem
  case taken =>
    intro sid' rt hlookup
    by_cases heq : sid' = sid
    · subst heq
      rw [AList.lookup_insert] at hlookup
      rwa [← Option.some.inj hlookup]
    · rw [AList.lookup_insert_ne heq] at hlookup
      exact h.taken sid' rt hlookup

/-- A session is taken out of the map, with whatever runtime it had. -/
private theorem Gates.close (h : Gates s b) (hhome : Home s F) {sid : SessionId}
    {removed : Multiset (SessionId × Nat)}
    (hremoved : removed = (s.sessions.lookup sid).elim 0 fun rt ↦ {(sid, rt)}) :
    Gates ({ s with sessions := s.sessions.erase sid }.record (.closed sid))
      ⟨removed + b.closing, b.draining, sid ::ₘ b.gone⟩ := by
  have herase : ∀ sid' rt, (s.sessions.erase sid).lookup sid' = some rt →
      sid' ≠ sid ∧ s.sessions.lookup sid' = some rt := by
    intro sid' rt hlookup
    have hne : sid' ≠ sid := by
      rintro rfl
      rw [AList.lookup_erase] at hlookup
      cases hlookup
    rw [AList.lookup_erase_ne hne] at hlookup
    exact ⟨hne, hlookup⟩
  have hruntimes : (Closers.mk (removed + b.closing) b.draining (sid ::ₘ b.gone)).runtimes =
      removed.map Prod.snd + b.runtimes := by
    simp [Closers.runtimes, add_assoc]
  constructor
  all_goals simp only [State.record, List.mem_append, List.mem_singleton, Event.closed.injEq,
    reduceCtorEq, or_false, hruntimes]
  case opened =>
    intro sid' rt hmem
    by_cases heq : sid' = sid
    · exact .inr (.inr heq)
    · rw [AList.lookup_erase_ne heq]
      exact (h.opened sid' rt hmem).imp_right .inl
  case closed =>
    intro sid' hmem
    by_cases heq : sid' = sid
    · rw [heq, AList.lookup_erase]
    · rw [AList.lookup_erase_ne heq]
      exact h.closed sid' (hmem.resolve_right heq)
  case shut =>
    intro sid' rt hopened hclosed
    obtain hclosed | rfl := hclosed
    · exact (h.shut sid' rt hopened hclosed).imp_right fun hmem ↦ Multiset.mem_add.mpr (.inr hmem)
    · obtain hlookup | hclosed := h.opened sid' rt hopened
      · right
        rw [hremoved, hlookup]
        simp
      · exact (h.shut sid' rt hopened hclosed).imp_right fun hmem ↦
          Multiset.mem_add.mpr (.inr hmem)
  case gone =>
    intro sid' hmem
    obtain rfl | hmem := Multiset.mem_cons.mp hmem
    · exact .inr rfl
    · exact .inl (h.gone sid' hmem)
  case draining => exact h.draining
  case once =>
    rw [hremoved]
    cases hlookup : s.sessions.lookup sid with
    | none => simpa using h.once
    | some rt => simpa using ⟨h.taken sid rt hlookup, h.once⟩
  case taken =>
    intro sid' rt hlookup
    obtain ⟨hne, hlookup⟩ := herase sid' rt hlookup
    rw [Multiset.mem_add]
    rintro (hmem | hmem)
    · rw [hremoved] at hmem
      cases hsid : s.sessions.lookup sid with
      | none => simp [hsid] at hmem
      | some rt' =>
        simp only [hsid, Option.elim_some, Multiset.map_singleton, Multiset.mem_singleton] at hmem
        subst hmem
        exact hne (hhome.opened_unique sid' sid rt (hhome.sessions _ _ hlookup)
          (hhome.sessions _ _ hsid))
    · exact h.taken sid' rt hlookup hmem

/-- A closer marks its runtime. -/
private theorem Gates.mark (h : Gates s b) (sid : SessionId) (rt : Nat)
    (rest : Multiset (SessionId × Nat)) (hclosing : b.closing = (sid, rt) ::ₘ rest) :
    Gates (s.setRuntime rt { s.runtimes rt with isOpen := false })
      ⟨rest, rt ::ₘ b.draining, b.gone⟩ := by
  have hself : ((s.setRuntime rt { s.runtimes rt with isOpen := false }).runtimes rt).isOpen =
      false := by simp [State.setRuntime]
  have hother : ∀ rt', rt' ≠ rt →
      ((s.setRuntime rt { s.runtimes rt with isOpen := false }).runtimes rt') = s.runtimes rt' :=
    fun rt' hne ↦ Function.update_of_ne hne _ _
  have hruntimes : (Closers.mk rest (rt ::ₘ b.draining) b.gone).runtimes = b.runtimes := by
    simp [Closers.runtimes, hclosing]
  constructor
  case opened => exact h.opened
  case closed => exact h.closed
  case shut =>
    intro sid' rt' hmem hclosed
    by_cases heq : rt' = rt
    · exact .inl (heq ▸ hself)
    · rw [hother rt' heq]
      refine (h.shut sid' rt' hmem hclosed).imp_right fun hmem' ↦ ?_
      rw [hclosing, Multiset.mem_cons] at hmem'
      refine hmem'.resolve_left fun hpair ↦ heq ?_
      exact (Prod.mk.inj hpair).2
  case gone => exact h.gone
  case draining =>
    intro rt' hmem
    by_cases heq : rt' = rt
    · exact heq ▸ hself
    · rw [hother rt' heq]
      exact h.draining rt' ((Multiset.mem_cons.mp hmem).resolve_left heq)
  case once =>
    rw [hruntimes]
    exact h.once
  case taken =>
    rw [hruntimes]
    exact h.taken

/-- A closer is done with its runtime. -/
private theorem Gates.finish (h : Gates s b) (rt : Nat) (rest : Multiset Nat)
    (hdraining : b.draining = rt ::ₘ rest) : Gates s { b with draining := rest } := by
  have hruntimes : b.runtimes = rt ::ₘ (Closers.mk b.closing rest b.gone).runtimes := by
    simp [Closers.runtimes, hdraining]
  constructor
  case opened => exact h.opened
  case closed => exact h.closed
  case shut => exact h.shut
  case gone => exact h.gone
  case draining =>
    intro rt' hmem
    exact h.draining rt' (hdraining ▸ Multiset.mem_cons_of_mem hmem)
  case once => exact (Multiset.nodup_cons.mp (hruntimes ▸ h.once)).2
  case taken =>
    intro sid rt' hlookup hmem
    exact h.taken sid rt' hlookup (hruntimes ▸ Multiset.mem_cons_of_mem hmem)

/-- Tokens that say nothing about closing sessions. -/
def Tok.ajar : Tok → Bool
  | .closing .. | .draining .. | .gone _ => false
  | _ => true

/-- Such tokens do not change the closers. -/
private theorem closers_ajar (he : ∀ x ∈ e, x.ajar = true) : closers (e + F) = closers F := by
  have hzero : ∀ {β : Type} {f : Tok → Option β}, (∀ x, x.ajar = true → f x = none) →
      part f e = 0 := fun hf ↦ part_eq_zero fun x hx ↦ hf x (he x hx)
  have hclosing : part Tok.closing? e = 0 := hzero fun x hx ↦ by cases x <;> first | rfl | cases hx
  have hdraining : part Tok.draining? e = 0 := hzero fun x hx ↦ by
    cases x <;> first | rfl | cases hx
  have hgone : part Tok.gone? e = 0 := hzero fun x hx ↦ by cases x <;> first | rfl | cases hx
  simp [closers, hclosing, hdraining, hgone]

private theorem Gates.still (h : Gates s (closers (e + F))) {es : List Event}
    (hclosers : closers (e' + F) = closers (e + F)) (hsessions : s'.sessions = s.sessions)
    (hopen : ∀ rt, (s'.runtimes rt).isOpen = (s.runtimes rt).isOpen)
    (hhist : s'.history = s.history ++ es) (hes : ∀ x ∈ es, x.indoors = true) :
    Gates s' (closers (e' + F)) := by
  rw [hclosers]
  exact h.frame hsessions hopen hhist hes

private theorem Looks.closers {key : RequestKey} {found : Option RequestEntry}
    (h : Looks key found e e') : closers (e' + F) = closers (e + F) := by
  cases h <;> simp [Registry.closers, Tok.closing?, Tok.draining?, Tok.gone?]

private theorem Loses.closers {token : RequestToken} {caller : Caller} {source : RequestState}
    (h : Loses token caller source e e') : closers (e' + F) = closers (e + F) := by
  cases h <;> simp [Registry.closers, Tok.closing?, Tok.draining?, Tok.gone?]

private theorem Ends.ajar {token : RequestToken} {caller : Caller} {source target : RequestState}
    (h : Ends m call token caller source target e e') :
    (∀ x ∈ e, x.ajar = true) ∧
      ∀ x ∈ {.won call caller token} + owedFor caller target + e', x.ajar = true := by
  have he : (∀ x ∈ e, x.ajar = true) ∧ ∀ x ∈ e', x.ajar = true := by
    cases h with
    | abort => simp
    | complete _ =>
      constructor
      all_goals
        intro x hx
        rw [mem_responseFor hx]
        rfl
    | finish =>
      refine ⟨fun x hx ↦ ?_, by simp⟩
      rw [mem_claimFor hx]
      rfl
    | _ => simp [Tok.ajar]
  refine ⟨he.1, fun x hx ↦ ?_⟩
  simp only [Multiset.mem_add, Multiset.mem_singleton] at hx
  obtain (rfl | hx) | hx := hx
  · rfl
  · obtain ⟨counter, rfl⟩ := mem_owedFor hx
    rfl
  · exact he.2 x hx

private theorem isOpen_setRuntime {rt : Nat} {v : SessionRuntime}
    (hv : v.isOpen = (s.runtimes rt).isOpen) (rt' : Nat) :
    ((s.setRuntime rt v).runtimes rt').isOpen = (s.runtimes rt').isOpen := by
  by_cases heq : rt' = rt
  · subst heq
    simpa [State.setRuntime] using hv
  · simp [State.setRuntime, Function.update_of_ne heq]

private theorem Gates.allocate (h : Gates s (closers (e + F))) {rt : Nat}
    (hclosers : closers (e' + F) = closers (e + F)) :
    Gates (s.nextRequestIdFetchUpdate call rt).2 (closers (e' + F)) := by
  unfold State.nextRequestIdFetchUpdate
  simp only
  split
  · exact h.still hclosers rfl (isOpen_setRuntime (by rfl)) rfl (by simp [Event.indoors])
  · rwa [hclosers]

/-- Every action keeps the session map and its closers in order, as long as no session id is
opened again after it was closed. -/
theorem Gates.step {a : Act} {r : a.Resp} (h : Gates s (closers (e + F))) (hhome : Home s (e + F))
    (hstrict : m.strict = true)
    (hfresh : ∀ sid, a = .sessionsOrInsert sid → .closed sid ∉ s.history)
    (hm : Moves cfg m call a r e e') (hr : (a.exec cfg call choice s).1 = r) :
    Gates (a.exec cfg call choice s).2 (closers (e' + F)) := by
  have hnil : s.history = s.history ++ [] := (List.append_nil _).symm
  have hajar : (∀ x ∈ e, x.ajar = true) → (∀ x ∈ e', x.ajar = true) →
      closers (e' + F) = closers (e + F) := fun he he' ↦ by
    rw [closers_ajar he, closers_ajar he']
  have hrest : ∀ rt, (s.runtimes rt).isOpen = (s.runtimes rt).isOpen := fun _ ↦ rfl
  cases hm with
  | counter _ =>
    refine h.still (hajar (fun x hx ↦ ?_) (by simp)) rfl hrest hnil (by simp)
    rw [Multiset.eq_of_mem_replicate hx]
    rfl
  | insertRefused =>
    rw [Act.exec, entriesInsert_false hr]
    exact h.still (hajar (by simp [Tok.ajar]) (by simp)) rfl hrest hnil (by simp)
  | insertFree _ _ =>
    rw [Act.exec, (entriesInsert_true hr).2]
    refine h.still (hajar (fun x hx ↦ ?_) (by simp [Tok.ajar])) rfl hrest rfl
      (by simp [Event.indoors])
    simp only [zero_add, Multiset.mem_add, Multiset.mem_singleton] at hx
    obtain rfl | rfl | hx := hx
    · rfl
    · rfl
    · obtain ⟨sid, rfl⟩ := mem_idFor hx
      rfl
  | insertSession _ =>
    rw [Act.exec, (entriesInsert_true hr).2]
    refine h.still (hajar (fun x hx ↦ ?_) (by simp [Tok.ajar])) rfl hrest rfl
      (by simp [Event.indoors])
    simp only [Multiset.mem_add, Multiset.mem_singleton] at hx
    obtain rfl | rfl | rfl | hx := hx
    · rfl
    · rfl
    · rfl
    · obtain ⟨sid, rfl⟩ := mem_idFor hx
      rfl
  | get hlooks => exact h.still hlooks.closers rfl hrest hnil (by simp)
  | remove =>
    have hclosers := hajar (by simp [Tok.ajar]) fun x hx ↦ by
      rw [mem_waiterFor hx]
      rfl
    simp only [Act.exec, State.entriesRemove]
    split
    · exact h.still hclosers rfl hrest rfl (by simp [Event.indoors])
    · exact h.still hclosers rfl hrest hnil (by simp)
  | lose hloses =>
    rw [Act.exec, (tryTransition_error hr).2]
    exact h.still hloses.closers rfl hrest hnil (by simp)
  | claim =>
    rw [Act.exec, (tryTransition_ok hr).2]
    refine h.still (hajar (fun x hx ↦ ?_) fun x hx ↦ ?_) rfl hrest rfl (by simp [Event.indoors])
    · rw [mem_mintFor hx]
      rfl
    · obtain hx | hx := Multiset.mem_add.mp hx
      · rw [mem_mintFor hx]
        rfl
      · rw [Multiset.mem_singleton.mp hx]
        rfl
  | win hends _ =>
    rw [Act.exec, (tryTransition_ok hr).2]
    exact h.still (hajar hends.ajar.1 hends.ajar.2) rfl hrest rfl (by simp [Event.indoors])
  | waitersInsert _ =>
    refine h.still (hajar (fun x hx ↦ ?_) fun x hx ↦ ?_) rfl hrest hnil (by simp)
    · rw [mem_mintFor hx]
      rfl
    · simp only [Multiset.mem_add] at hx
      obtain (hx | hx) | hx := hx
      · rw [mem_mintFor hx]
        rfl
      · rw [mem_waiterFor hx]
        rfl
      · obtain ⟨channel, -, rfl⟩ := mem_senderFor hx
        rfl
  | waitersRemove | waitersSettle =>
    refine h.still (hajar (by simp [Tok.ajar]) fun x hx ↦ ?_) rfl hrest hnil (by simp)
    obtain ⟨channel, -, rfl⟩ := mem_senderFor hx
    rfl
  | send =>
    refine h.still (hajar (fun x hx ↦ ?_) fun x hx ↦ ?_) rfl hrest rfl (by simp [Event.indoors])
    · obtain hx | hx := Multiset.mem_add.mp hx
      · obtain ⟨channel, -, rfl⟩ := mem_senderFor hx
        rfl
      · rw [mem_responseFor hx]
        rfl
    · rw [mem_responseFor hx]
      rfl
  | drop =>
    have hclosers := hajar (fun x hx ↦ by
      obtain ⟨channel, -, rfl⟩ := mem_senderFor hx
      rfl) (by simp)
    simp only [Act.exec, State.channelDrop]
    split
    all_goals exact h.still hclosers rfl hrest hnil (by simp)
  | openSession =>
    rw [closers_ajar fun x hx ↦ by rw [mem_openFor hx]; rfl] at h
    rw [zero_add]
    exact h.open hhome.drop rfl (hfresh _ rfl)
  | sessionGone =>
    rw [zero_add] at h hhome
    have hlookup : s.sessions.lookup _ = none := hr
    have hclose := h.close hhome (by rw [hlookup])
    simpa [Act.exec, closers, Tok.closing?, Tok.draining?, Tok.gone?] using hclose
  | @sessionTaken sid rt =>
    rw [zero_add] at h hhome
    have hlookup : s.sessions.lookup sid = some rt := hr
    have hclose := h.close hhome (by rw [hlookup])
    simpa [Act.exec, closers, Tok.closing?, Tok.draining?, Tok.gone?] using hclose
  | isOpen => exact h
  | @beginClose sid rt =>
    have hmark := h.mark sid rt (closers F).closing
      (by simp [closers, Tok.closing?])
    simpa [Act.exec, closers, Tok.closing?, Tok.draining?, Tok.gone?] using hmark
  | abandon hloose =>
    rw [hstrict] at hloose
    cases hloose
  | index =>
    exact h.still (hajar (by simp [Tok.ajar]) (by simp [Tok.ajar])) rfl
      (isOpen_setRuntime (by rfl)) rfl (by simp [Event.indoors])
  | unindex => exact h.still rfl rfl (isOpen_setRuntime (by rfl)) hnil (by simp)
  | shard =>
    refine h.still ?_ rfl hrest hnil (by simp)
    simp [closers, Tok.closing?, Tok.draining?, Tok.gone?]
  | @clear sid rt =>
    have hfinish := h.finish rt (closers F).draining (by simp [closers, Tok.draining?])
    have hframe : Gates (s.setRuntime rt { s.runtimes rt with requests := [] }) _ :=
      hfinish.frame rfl (isOpen_setRuntime (by rfl)) hnil (by simp)
    simpa [Act.exec, closers, Tok.closing?, Tok.draining?, Tok.gone?] using hframe
  | idExhausted => exact h.allocate rfl
  | idAllocated => exact h.allocate (hajar (by simp [Tok.ajar]) (by simp [Tok.ajar]))
  | _ => exact h.still (hajar (by simp [Tok.ajar]) (by simp [Tok.ajar])) rfl hrest hnil (by simp)

end Gates

end MsgTrans.Registry
