import MsgTrans.Registry.Coverage

/-!
# Request registry: completeness of a session close

`close_session_pending`, `request_registry.rs:872–915`, against every other operation on the
session. The callers keep to what the accept and connect paths do: a session id is not opened
again once it was closed, sessions are closed one by one, and a responder acts on a token that a
registration handed out.

The drain reads the session's index, and `remove_terminal_entry` (`request_registry.rs:973–980`)
takes a key out of that index in a step of its own, after the entry is gone from the map. If the
peer reuses the id in between, the delayed removal hits the new registration.
-/

namespace MsgTrans.Registry

open MsgTrans.Base MsgTrans.Wire

/-- Sessions are closed one by one, registrations only ever enter open ones, and responders act
on inbound registrations. -/
def Mode.sessions : Mode := { strict := true, final := true }

instance (v : Outcome) (token : RequestToken) : Decidable (v.Grants token) :=
  match v with
  | .token (some u) => decidable_of_iff (u = token) (by simp [Outcome.Grants])
  | .waiter (.ok (g, u)) =>
    decidable_of_iff (g = token.generation ∧ u = token) (by simp [Outcome.Grants])
  | .token none | .waiter (.error _) | .unit | .id _ | .flag _ | .mark _ | .count _ =>
    .isFalse (by simp [Outcome.Grants])

/-- Some call has returned this token. -/
def Granted (c : Config Act Act.Resp State Op Outcome) (token : RequestToken) : Prop :=
  ∃ call ∈ c.calls, ∃ v ∈ call.result?, v.Grants token

instance (c : Config Act Act.Resp State Op Outcome) (token : RequestToken) :
    Decidable (Granted c token) :=
  inferInstanceAs (Decidable (∃ call ∈ c.calls, ∃ v ∈ call.result?, v.Grants token))

/-- When a call may be made: `abort_all` is no operation on a session, and a responder holds the
token of an inbound registration. -/
def mayCall (c : Config Act Act.Resp State Op Outcome) : Op → Prop
  | .abortAll => False
  | .beginRespond token => token.direction = .inbound ∧ Granted c token
  | .finishRespond token _ => token.direction = .inbound
  | _ => True

instance (c : Config Act Act.Resp State Op Outcome) (o : Op) : Decidable (mayCall c o) :=
  match o with
  | .abortAll => inferInstanceAs (Decidable False)
  | .beginRespond token => inferInstanceAs (Decidable (token.direction = .inbound ∧ Granted c token))
  | .finishRespond token _ => inferInstanceAs (Decidable (token.direction = .inbound))
  | .openSession _ | .nextRequestId _ | .register .. | .tryRegisterWaiter .. | .completeWaiter ..
  | .abortWaiter .. | .markTimedOut _ | .abortRequestToken _ | .closeSessionPending _
  | .scanTimeoutBucket => inferInstanceAs (Decidable True)

/-- The session an action opens. -/
def Act.opens? : Act → Option SessionId
  | .sessionsOrInsert sid => some sid
  | _ => none

/-- The key an action takes out of its session's index. -/
def Act.unindexes? : Act → Option RequestKey
  | .requestsRemove _ key => some key
  | _ => none

/-- The environment of a session's operations: no id is opened again once it was closed, and an
index removal is performed when `unindex` allows it. -/
def sessionCalls (unindex : State → RequestKey → Prop) :
    System.Env Act Act.Resp State Op Outcome where
  mayStart := mayCall
  mayAct := fun a s ↦
    (∀ sid ∈ a.opens?, .closed sid ∉ s.history) ∧ ∀ key ∈ a.unindexes?, unindex s key

instance (unindex : State → RequestKey → Prop) (c : Config Act Act.Resp State Op Outcome) (o : Op) :
    Decidable ((sessionCalls unindex).mayStart c o) := inferInstanceAs (Decidable (mayCall c o))

instance (unindex : State → RequestKey → Prop) [∀ s key, Decidable (unindex s key)] (a : Act)
    (s : State) : Decidable ((sessionCalls unindex).mayAct a s) :=
  inferInstanceAs (Decidable ((∀ sid ∈ a.opens?, .closed sid ∉ s.history) ∧
    ∀ key ∈ a.unindexes?, unindex s key))

/-- The call registers a request on the session. -/
def Op.RegistersOn (sid : SessionId) : Op → Prop
  | .register _ s _ _ | .tryRegisterWaiter _ s _ _ => s = some sid
  | _ => False

/-- The call was refused. -/
def Outcome.Refuses (v : Outcome) : Prop := v = .token none ∨ ∃ e, v = .waiter (.error e)

/-- Session-close completeness: once a close of the session and every call on it have returned,
neither map holds anything of the session, and every later registration is refused. -/
def CloseComplete (cfg : RegistryConfig) (env : System.Env Act Act.Resp State Op Outcome) : Prop :=
  ∀ c sid, (system cfg).Reaches env ⟨State.new, []⟩ c →
    (∃ call ∈ c.calls, call.op = .closeSessionPending sid) →
    (∀ call ∈ c.calls, call.op.Touches (some sid) → call.Returned) →
    (∀ key, key.sessionId = some sid →
      c.shared.entries.lookup key = none ∧ c.shared.waiters.lookup key = none) ∧
    ∀ c', (system cfg).Reaches env c c' → ∀ t call v, c.calls.length ≤ t →
      c'.calls[t]? = some call → call.op.RegistersOn sid → call.result? = some v → v.Refuses

/-- The invariant behind it. -/
structure Kept (cfg : RegistryConfig) (s : State) (D : Multiset Tok) : Prop where
  base : Base s D
  gates : Gates s (closers D)
  admission : Admission s D
  coverage : Coverage cfg s D
  waiting : Waiting s D

section Kept

variable {cfg : RegistryConfig} {call choice : Nat} {s : State} {D e e' F : Multiset Tok}

theorem Kept.step {m : Mode} {a : Act} {r : a.Resp} (h : Kept cfg s (e + F))
    (hstrict : m.strict = true) (ha : (sessionCalls State.Spares).mayAct a s)
    (hm : Moves cfg m call a r e e') (hr : (a.exec cfg call choice s).1 = r) :
    Kept cfg (a.exec cfg call choice s).2 (e' + F) := by
  have hfresh : ∀ sid, a = .sessionsOrInsert sid → .closed sid ∉ s.history := by
    rintro sid rfl
    exact ha.1 sid rfl
  have hspares : ∀ rt key, a = .requestsRemove rt key → s.Spares key := by
    rintro rt key rfl
    exact ha.2 key rfl
  exact
    { base := h.base.step hm hr
      gates := h.gates.step h.base.home hstrict hfresh hm hr
      admission := h.admission.step h.base h.gates hstrict hspares hm hr
      coverage := h.coverage.step h.base h.gates h.admission hstrict hspares hm hr
      waiting := h.waiting.step hstrict hm hr }

theorem Kept.new : Kept cfg State.new 0 where
  base := Base.new
  gates := by constructor <;> simp [State.new, closers, Closers.runtimes]
  admission := by constructor <;> simp
  coverage := by
    rintro token ⟨state, hstate, -⟩
    cases hstate
  waiting := by
    intro key channel hlookup
    simp [State.new] at hlookup

/-- A fact that holds already may be assumed once more. -/
private theorem Kept.assume {x : Tok} (h : Kept cfg s D)
    (hx : x ∈ D ∧ (∃ token, x = .minted token) ∨
      ∃ sid, x = .gone sid ∧ .closed sid ∈ s.history) : Kept cfg s ({x} + D) := by
  have hquiet : ∀ y ∈ ({x} : Multiset Tok), y.quiet = true := by
    obtain ⟨-, token, rfl⟩ | ⟨sid, rfl, -⟩ := hx <;> simp [Tok.quiet]
  have hhomed : x.Homed s.history := by
    obtain ⟨-, token, rfl⟩ | ⟨sid, rfl, -⟩ := hx <;> trivial
  have hentering : part Tok.entering? ({x} + D) = part Tok.entering? D := by
    obtain ⟨-, token, rfl⟩ | ⟨sid, rfl, -⟩ := hx <;> simp [Tok.entering?]
  have hmem : ∀ {y : Tok}, y ∈ D → y ∈ {x} + D := fun hy ↦ Multiset.mem_add.mpr (.inr hy)
  constructor
  case base =>
    refine h.base.assume hquiet fun y hy ↦ ?_
    rwa [Multiset.mem_singleton.mp hy]
  case gates =>
    obtain ⟨-, token, rfl⟩ | ⟨sid, rfl, hclosed⟩ := hx
    · simpa [closers, Tok.closing?, Tok.draining?, Tok.gone?] using h.gates
    · have hb : closers ({.gone sid} + D) = { closers D with gone := sid ::ₘ (closers D).gone } := by
        simp [closers, Tok.closing?, Tok.draining?, Tok.gone?]
      rw [hb]
      refine ⟨h.gates.opened, h.gates.closed, h.gates.shut, fun sid' hmem' ↦ ?_, h.gates.draining,
        h.gates.once, h.gates.taken⟩
      obtain rfl | hmem' := Multiset.mem_cons.mp hmem'
      · exact hclosed
      · exact h.gates.gone sid' hmem'
  case admission =>
    refine ⟨fun y hy ↦ ?_, by rw [hentering]; exact h.admission.once, fun token ht hmint ↦ ?_⟩
    · obtain hy | hy := Multiset.mem_add.mp hy
      · rw [Multiset.mem_singleton.mp hy]
        obtain ⟨hD, -⟩ | ⟨sid, rfl, -⟩ := hx
        · exact h.admission.holds x hD
        · trivial
      · exact h.admission.holds y hy
    · rw [hentering] at ht
      refine h.admission.apart token ht ?_
      obtain heq | hmint := Multiset.mem_add.mp hmint
      · obtain ⟨hD, -⟩ | ⟨sid, rfl, -⟩ := hx
        · rwa [Multiset.mem_singleton.mp heq]
        · simp at heq
      · exact hmint
  case coverage =>
    intro token hlive hsid
    cases h.coverage token hlive hsid with
    | entering hw => exact .entering (hmem hw)
    | indexed hsid' hopened hindexed hopen hkey =>
      exact .indexed hsid' hopened hindexed hopen hkey
    | draining hsid' hopened hindexed hw hkey =>
      exact .draining hsid' hopened hindexed (hmem hw) hkey
    | killing hsid' hw => exact .killing hsid' (hmem hw)
  case waiting =>
    intro key channel hlookup
    obtain ⟨hdir, hold⟩ := h.waiting key channel hlookup
    exact ⟨hdir, hold.imp_right hmem⟩

end Kept

/-- The registrations of the calls that `late` names, on sessions closed before, are refused. -/
def lateContract (late : Nat → SessionId → Prop) : Contract Op Outcome Tok where
  start := contract.start
  ok := contract.ok
  post := fun t o v d ↦ Settled o v d ∧ ∀ sid, late t sid → o.RegistersOn sid → v.Refuses

theorem touches_of_registersOn {o : Op} {sid : SessionId} (h : o.RegistersOn sid) :
    o.Touches (some sid) := by
  cases o with
  | register | tryRegisterWaiter => exact h.symm
  | _ => exact h.elim

section Sound

variable {cfg : RegistryConfig} {late : Nat → SessionId → Prop} {t : Nat}

/-- A registration that begins on a closed session is refused. -/
private theorem registration_refused {o : Op} {sid : SessionId} (ho : o.RegistersOn sid) :
    Keeps cfg .sessions t o.Touches
      (fun v d ↦ Settled o v d ∧ v.Refuses) (o.body cfg) {.gone sid} := by
  have hgone : Idle {.gone sid} := by simp [Idle, Tok.idle]
  cases o with
  | register id s bizType timeout =>
    obtain rfl : s = some sid := ho
    refine registerImpl_gone rfl rfl (by simp) ⟨⟨hgone, by simp, ?_⟩, .inl rfl⟩
    simp [Outcome.Grants]
  | tryRegisterWaiter id s bizType timeout =>
    obtain rfl : s = some sid := ho
    simp only [Op.body, tryRegisterWaiter, bind_assoc]
    refine registerImpl_gone rfl rfl (by simp) ⟨⟨hgone, by simp, ?_⟩, .inr ⟨_, rfl⟩⟩
    simp [Outcome.Grants]
  | _ => exact ho.elim

private theorem sound_sessions (cfg : RegistryConfig) (late : Nat → SessionId → Prop) :
    Sound (system cfg) (sessionCalls State.Spares) (rules cfg .sessions) (lateContract late)
      fun s D ↦ Kept cfg s D ∧ ∀ t sid, late t sid → .closed sid ∈ s.history where
  act := by
    rintro t a choice s r s' e e' F ha hexec hm ⟨hJ, hlate⟩
    obtain ⟨rfl, rfl⟩ := Prod.mk.inj (Option.some.inj hexec)
    refine ⟨hJ.step rfl ha hm rfl, fun t sid hl ↦ ?_⟩
    exact Act.history_subset (hlate t sid hl)
  refuted := by
    rintro t a choice s r s' d F hexec href ⟨hJ, -⟩
    obtain ⟨rfl, rfl⟩ := Prod.mk.inj (Option.some.inj hexec)
    refine hJ.base.not_refuted (fun _ sid hgone ↦ ?_) rfl href
    refine hJ.gates.closed sid (hJ.gates.gone sid (mem_part.mpr ⟨.gone sid, ?_, rfl⟩))
    exact Multiset.mem_add.mpr (.inl hgone)
  start := by
    rintro c ds o h ho
    obtain ⟨hJ, hlate⟩ := h.inv
    by_cases hreg : ∃ sid, late c.calls.length sid ∧ o.RegistersOn sid
    · obtain ⟨sid, hl, hsid⟩ := hreg
      refine ⟨{.gone sid}, trivial,
        (registration_refused hsid).mono fun v d hd ↦ ⟨hd.1, fun _ _ _ ↦ hd.2⟩, ?_,
        hJ.assume (.inr ⟨sid, rfl, hlate _ sid hl⟩), hlate⟩
      simpa [lateContract, contract, Tok.Within] using touches_of_registersOn hsid
    · have hfair : o.Fair := by
        cases o with
        | abortAll => exact ho
        | beginRespond => exact ho.1
        | finishRespond => exact ho
        | _ => trivial
      have hbody : Follows (rules cfg .sessions) c.calls.length
          ((lateContract late).ok c.calls.length o) ((lateContract late).post c.calls.length o)
          (o.body cfg) (o.start .sessions) :=
        (body_keeps rfl rfl rfl o (fun _ _ ↦ rfl) fun _ ↦ hfair).mono fun v d hd ↦
          ⟨hd, fun sid hl hsid ↦ absurd ⟨sid, hl, hsid⟩ hreg⟩
      cases o with
      | beginRespond token =>
        have hstart : Op.start .sessions (.beginRespond token) = {.minted token} := rfl
        rw [hstart] at hbody
        refine ⟨_, trivial, hbody, by simp [lateContract, contract, Tok.Within, Op.Touches],
          hJ.assume (.inl ⟨?_, token, rfl⟩), hlate⟩
        -- The responder's token was returned by a registration that accepted it.
        obtain ⟨call, hcall, v, hv, hgrants⟩ := ho.2
        obtain ⟨t, ht, rfl⟩ := List.getElem_of_mem hcall
        have hpost := h.post (List.getElem?_eq_getElem ht) (Call.prog_of_result? hv)
        exact mem_total.mpr ⟨t, ht, hpost.1.granted token hgrants⟩
      | _ => exact ⟨0, trivial, hbody, by simp, by rw [zero_add]; exact hJ, hlate⟩

end Sound

section Closed

variable {cfg : RegistryConfig} {c : Config Act Act.Resp State Op Outcome} {sid : SessionId}

/-- With every call on the session returned, no token is owed on its account. -/
private theorem idle_of_touches {R : Rules Act Act.Resp Tok} {J : State → Multiset Tok → Prop}
    {late : Nat → SessionId → Prop} {ds : Nat → Multiset Tok}
    (h : Balanced R (lateContract late) J c ds)
    (hall : ∀ call ∈ c.calls, call.op.Touches (some sid) → call.Returned) {x : Tok}
    (hx : x ∈ total ds c.calls.length)
    (hscope : ∀ t P, x.Within t P → P (some sid)) : x.idle := by
  obtain ⟨t, ht, hx⟩ := mem_total.mp hx
  have hc : c.calls[t]? = some c.calls[t] := List.getElem?_eq_getElem ht
  have htouches := hscope t _ (h.inScope t _ hc x hx)
  obtain ⟨v, hv⟩ := (hall _ (List.getElem_mem ht) htouches).prog_eq
  exact (h.post hc hv).1.idle x hx

/-- Neither map holds anything of a closed session on which nobody works. -/
private theorem Kept.empty {D : Multiset Tok} (h : Kept cfg c.shared D)
    (hclosed : .closed sid ∈ c.shared.history)
    (hidle : ∀ x ∈ D, (∀ t P, x.Within t P → P (some sid)) → x.idle) {key : RequestKey}
    (hkey : key.sessionId = some sid) :
    c.shared.entries.lookup key = none ∧ c.shared.waiters.lookup key = none := by
  have hentries : c.shared.entries.lookup key = none := by
    by_contra hne
    obtain ⟨entry, hlookup⟩ := Option.ne_none_iff_exists'.mp hne
    have hmem : entry.token ∈ c.shared.regs := mem_regs.mpr ⟨key, entry, hlookup, rfl⟩
    have hsid : entry.token.sessionId = some sid := by
      rw [← RequestToken.sessionId_key, RequestEntry.key_token, h.base.core.key_eq _ _ hlookup,
        hkey]
    by_cases hended : c.shared.ended entry.token = true
    · -- The winner of an ended registration has not removed it yet.
      have howner : entry.token ∈ (books D).owners.map fun o ↦ o.2.2 := by
        rw [h.base.core.owners_eq]
        exact Multiset.mem_filter.mpr ⟨hmem, hended⟩
      obtain ⟨⟨t, caller, token⟩, ho, htoken⟩ := Multiset.mem_map.mp howner
      obtain rfl : token = entry.token := htoken
      obtain ⟨x, hx, hx'⟩ := mem_part.mp ho
      cases x <;> cases hx'
      all_goals exact hidle _ hx fun t' P hP ↦ hsid ▸ hP.2
    · -- A live registration is watched, and every watcher is at work on the session.
      have hlive : c.shared.Live entry.token := by
        obtain ⟨state, hstate⟩ := Option.isSome_iff_exists.mp (h.base.core.registered _ hmem)
        refine ⟨state, hstate, ?_⟩
        rwa [State.ended_of_cell hstate, Bool.not_eq_true] at hended
      cases h.coverage entry.token hlive (by rw [hsid]; simp) with
      | entering hw => exact hidle _ hw fun t P hP ↦ hsid ▸ hP
      | indexed hsid' hopened _ hopen _ =>
        obtain rfl := Option.some.inj (hsid.symm.trans hsid')
        obtain hshut | hclosing := h.gates.shut _ _ hopened hclosed
        · rw [hshut] at hopen
          cases hopen
        · obtain ⟨x, hx, hx'⟩ := mem_part.mp hclosing
          cases x <;> cases hx'
          exact hidle _ hx fun t P hP ↦ hP
      | draining hsid' _ _ hw _ =>
        obtain rfl := Option.some.inj (hsid.symm.trans hsid')
        exact hidle _ hw fun t P hP ↦ hP
      | killing hsid' hw =>
        obtain rfl := Option.some.inj (hsid.symm.trans hsid')
        exact hidle _ hw fun t P hP ↦ hP
  refine ⟨hentries, ?_⟩
  by_contra hne
  obtain ⟨channel, hlookup⟩ := Option.ne_none_iff_exists'.mp hne
  obtain ⟨-, hsome | hmem⟩ := h.waiting key channel hlookup
  · rw [hentries] at hsome
    cases hsome
  · exact hidle _ hmem fun t P hP ↦ hkey ▸ hP

end Closed

/-- A close is complete in every run in which index removals spare the registrations that are
live and indexed. -/
theorem session_close_complete (cfg : RegistryConfig) :
    CloseComplete cfg (sessionCalls State.Spares) := by
  intro c sid hreach ⟨call, hcall, hop⟩ hall
  obtain ⟨ds, h⟩ := (Balanced.init ⟨Kept.new, by simp⟩).reaches
    (sound_sessions cfg fun _ _ ↦ False) hreach
  obtain ⟨hkept, -⟩ := h.inv
  -- The close that has returned left the session gone.
  have hclosed : .closed sid ∈ c.shared.history := by
    obtain ⟨t, ht, rfl⟩ := List.getElem_of_mem hcall
    obtain ⟨v, hv⟩ := (hall _ hcall (by rw [hop]; rfl)).prog_eq
    have hgone := (h.post (List.getElem?_eq_getElem ht) hv).1.gone sid hop
    exact hkept.gates.gone sid (mem_part.mpr ⟨_, mem_total.mpr ⟨t, ht, hgone⟩, rfl⟩)
  refine ⟨fun key hkey ↦ hkept.empty hclosed (fun x hx ↦ idle_of_touches h hall hx) hkey, ?_⟩
  -- From here on, every registration on the session begins after its close.
  intro c' hreach' t call v ht hc' hreg hv
  let late : Nat → SessionId → Prop := fun t s ↦ c.calls.length ≤ t ∧ s = sid
  have hlate : Balanced (rules cfg .sessions) (lateContract late)
      (fun s D ↦ Kept cfg s D ∧ ∀ t s', late t s' → .closed s' ∈ s.history) c ds := by
    refine ⟨fun t call hc ↦ (h.follows t call hc).mono fun v d hd ↦ ⟨hd.1, ?_⟩, h.inScope,
      hkept, fun t s' hl ↦ hl.2 ▸ hclosed⟩
    rintro s' ⟨hle, -⟩
    exact absurd (List.getElem?_eq_some_iff.mp hc).1 (by omega)
  obtain ⟨ds', h'⟩ := hlate.reaches (sound_sessions cfg late) hreach'
  exact (h'.post hc' (Call.prog_of_result? hv)).2 sid ⟨ht, rfl⟩ hreg

/-- A close that finds a pending request. -/
def closeRun : List (Label Op) :=
  ([.start (.openSession 1), .run 0 0, .start (.register 7 (some 1) 0 5)] : List (Label Op)) ++
  List.replicate 11 (Label.run 1 0) ++ ([.start (.closeSessionPending 1)] : List (Label Op)) ++
  List.replicate 10 (Label.run 2 0)

private theorem closeRun_ends :
    ((system (.newWithTiming 8 1)).runAll (sessionCalls State.Spares)
      ⟨State.new, []⟩ closeRun).any (fun c ↦
        c.calls.any (fun call ↦ call.op = .closeSessionPending 1) &&
        c.calls.all (fun call ↦ call.result?.isSome) &&
        c.shared.counters.sessionClosedPendingTotal = 1) = true := by
  decide +kernel

theorem session_close_of_pending : ∃ c, (system (.newWithTiming 8 1)).Reaches
    (sessionCalls State.Spares) ⟨State.new, []⟩ c ∧
      c.shared.counters.sessionClosedPendingTotal = 1 ∧
      c.shared.entries.lookup (.inbound (some 1) 7) = none := by
  obtain ⟨c, hc, hend⟩ := (Option.any_eq_true _ _).mp closeRun_ends
  simp only [Bool.and_eq_true, List.any_eq_true, List.all_eq_true, decide_eq_true_eq] at hend
  obtain ⟨⟨hclose, hall⟩, htotal⟩ := hend
  have hreach := System.Reaches.of_runAll hc
  exact ⟨c, hreach, htotal, ((session_close_complete _ c 1 hreach hclose
    fun call hcall _ ↦ hall call hcall).1 _ rfl).1⟩

/-- The peer reuses an id while the index removal of its first request is still to come: the
second registration is complete when the removal takes its key out of the index, and the close
does not see it. -/
def reuseRun : List (Label Op) :=
  ([.start (.openSession 1), .run 0 0, .start (.register 7 (some 1) 0 5)] : List (Label Op)) ++
  List.replicate 11 (Label.run 1 0) ++
  ([.start (.beginRespond ⟨some 1, 7, .inbound, 1⟩), .run 2 0, .run 2 0,
    .start (.finishRespond ⟨some 1, 7, .inbound, 1⟩ true)] : List (Label Op)) ++
  List.replicate 4 (Label.run 3 0) ++
  ([.start (.register 7 (some 1) 0 5)] : List (Label Op)) ++
  List.replicate 11 (Label.run 4 0) ++
  ([.run 3 0, .run 3 0, .start (.closeSessionPending 1)] : List (Label Op)) ++
  List.replicate 4 (Label.run 5 0)

private theorem reuseRun_ends :
    ((system (.newWithTiming 8 1)).runAll (sessionCalls fun _ _ ↦ True)
      ⟨State.new, []⟩ reuseRun).any (fun c ↦
        c.calls.any (fun call ↦ call.op = .closeSessionPending 1) &&
        c.calls.all (fun call ↦ call.result?.isSome) &&
        (c.shared.entries.lookup (.inbound (some 1) 7)).isSome) = true := by
  decide +kernel

/-- A delayed index removal leaves a registration behind in a closed session. -/
theorem session_close_forgets :
    ¬ CloseComplete (.newWithTiming 8 1) (sessionCalls fun _ _ ↦ True) := by
  intro hcomplete
  obtain ⟨c, hc, hend⟩ := (Option.any_eq_true _ _).mp reuseRun_ends
  simp only [Bool.and_eq_true, List.any_eq_true, List.all_eq_true, decide_eq_true_eq] at hend
  obtain ⟨⟨hclose, hall⟩, hleft⟩ := hend
  have hreach := System.Reaches.of_runAll hc
  have hempty := (hcomplete c 1 hreach hclose fun call hcall _ ↦ hall call hcall).1
    (.inbound (some 1) 7) rfl
  rw [hempty.1] at hleft
  cases hleft

end MsgTrans.Registry
