import MsgTrans.Registry.Lifecycle

/-!
# Request registry: runs of concurrent calls

The registry as a system: any number of calls of its methods, on any keys and tokens, each
atomic action one step, in any order. The lifecycle of every registration and the pending gauge
are shown correct in every reachable state.
-/

namespace MsgTrans.Registry

open MsgTrans.Base MsgTrans.Wire

/-- A call of one of the registry's methods. -/
inductive Op where
  | openSession (sessionId : SessionId)
  | nextRequestId (sessionId : Option SessionId)
  | register (requestId : UInt32) (sessionId : Option SessionId) (bizType : UInt8)
      (timeout : Duration)
  | tryRegisterWaiter (requestId : UInt32) (sessionId : Option SessionId) (bizType : UInt8)
      (timeout : Duration)
  | completeWaiter (sessionId : Option SessionId) (requestId : UInt32) (packet : Packet)
  | abortWaiter (sessionId : Option SessionId) (requestId : UInt32)
  | abortAll
  | beginRespond (token : RequestToken)
  | finishRespond (token : RequestToken) (writeConfirmed : Bool)
  | markTimedOut (key : RequestKey)
  | abortRequestToken (token : RequestToken)
  | closeSessionPending (sessionId : SessionId)
  | scanTimeoutBucket
  deriving DecidableEq

/-- What a call returns. -/
inductive Outcome where
  | unit
  | id (id : Option UInt32)
  | token (token : Option RequestToken)
  | waiter (result : Except DuplicateRequest (Nat × RequestToken))
  | flag (b : Bool)
  | mark (result : MarkResult)
  | count (n : Nat)

/-- The program of a call. -/
def Op.body (cfg : RegistryConfig) : Op → Task Outcome
  | .openSession sid => do
    Registry.openSession sid
    pure .unit
  | .nextRequestId sid => do
    let id ← Registry.nextRequestId sid
    pure (.id id)
  | .register id sid bizType timeout => do
    let token ← Registry.register cfg id sid bizType timeout
    pure (.token token)
  | .tryRegisterWaiter id sid bizType timeout => do
    let result ← Registry.tryRegisterWaiter cfg id sid bizType timeout
    pure (.waiter result)
  | .completeWaiter sid id packet => do
    let completed ← Registry.completeWaiter sid id packet
    pure (.flag completed)
  | .abortWaiter sid id => do
    let aborted ← Registry.abortWaiter sid id
    pure (.flag aborted)
  | .abortAll => do
    let aborted ← Registry.abortAll cfg
    pure (.count aborted)
  | .beginRespond token => do
    let result ← Registry.beginRespond token
    pure (.mark result)
  | .finishRespond token writeConfirmed => do
    let result ← Registry.finishRespond token writeConfirmed
    pure (.mark result)
  | .markTimedOut key => do
    let result ← Registry.markTimedOut key
    pure (.mark result)
  | .abortRequestToken token => do
    let aborted ← Registry.abortRequestToken token
    pure (.flag aborted)
  | .closeSessionPending sid => do
    let closed ← Registry.closeSessionPending cfg sid
    pure (.count closed)
  | .scanTimeoutBucket => do
    let timedOut ← Registry.scanTimeoutBucket cfg
    pure (.count timedOut)

/-- The registry and its callers. No operation of the registry ever has to wait. -/
def system (cfg : RegistryConfig) : System Act Act.Resp State Op Outcome where
  exec := fun call a choice s ↦ some (a.exec cfg call choice s)
  body := Op.body cfg

/-- The sessions a call works on: those it names; for the scan and `abort_all`, every one. -/
def Op.Touches : Op → Option SessionId → Prop
  | .openSession sid | .closeSessionPending sid => fun s ↦ s = some sid
  | .nextRequestId sid | .register _ sid _ _ | .tryRegisterWaiter _ sid _ _
  | .completeWaiter sid _ _ | .abortWaiter sid _ => fun s ↦ s = sid
  | .beginRespond token | .finishRespond token _ | .abortRequestToken token =>
    fun s ↦ s = token.sessionId
  | .markTimedOut key => fun s ↦ s = key.sessionId
  | .abortAll | .scanTimeoutBucket => fun _ ↦ True

/-- The result hands this token out. -/
def Outcome.Grants (v : Outcome) (token : RequestToken) : Prop :=
  v = .token (some token) ∨ v = .waiter (.ok (token.generation, token))

/-- What a returned call leaves: no debts, the closed session gone, the token it granted
accepted. -/
structure Settled (o : Op) (v : Outcome) (d : Multiset Tok) : Prop where
  idle : Idle d
  gone : ∀ sid, o = .closeSessionPending sid → .gone sid ∈ d
  granted : ∀ token, v.Grants token → .minted token ∈ d

/-- The tokens a call starts with. -/
def Op.start (m : Mode) : Op → Multiset Tok
  | .beginRespond token => mintFor m token
  | _ => 0

/-- The call keeps the promises of a strict mode: responders act on inbound requests, and
sessions are closed one by one. -/
def Op.Fair : Op → Prop
  | .abortAll => False
  | .beginRespond token | .finishRespond token _ => token.direction = .inbound
  | _ => True

section Bodies

variable {cfg : RegistryConfig} {m : Mode} {t : Nat}

variable {P : Option SessionId → Prop} {o : Op} {v : Outcome} {d : Multiset Tok}

private theorem keeps_settled (hd : Idle d) (ho : ∀ sid, o ≠ .closeSessionPending sid)
    (hv : ∀ token, ¬ v.Grants token) : Keeps cfg m t P (Settled o) (pure v) d :=
  ⟨hd, fun sid h ↦ absurd h (ho sid), fun token h ↦ absurd h (hv token)⟩

private theorem keeps_granted {token : RequestToken} (ho : ∀ sid, o ≠ .closeSessionPending sid)
    (hv : ∀ u, v.Grants u → u = token) : Keeps cfg m t P (Settled o) (pure v) {.minted token} :=
  ⟨by simp [Idle, Tok.idle], fun sid h ↦ absurd h (ho sid), fun u h ↦ by simp [hv u h]⟩

private theorem idle_mintFor (token : RequestToken) : Idle (mintFor m token) := by
  unfold mintFor
  split <;> simp [Idle, Tok.idle]

/-- Every call follows the rules, in every mode that leaves routing and claims open; one that opens
a session does so where session ids are not drawn from a counter. -/
theorem body_keeps (hrouted : m.routed = false) (hbound : m.bound = false)
    (hclaimed : m.claimed = false) (o : Op)
    (hnumbered : ∀ sid, o = .openSession sid → m.numbered = false) (hfair : m.strict = true → o.Fair) :
    Keeps cfg m t o.Touches (Settled o) (o.body cfg) (o.start m) := by
  have hid : ∀ key, idFor m key = 0 := fun key ↦ by simp [idFor, hrouted]
  have hresponse : ∀ sid id packet used, responseFor m t sid id packet used = 0 :=
    fun _ _ _ _ ↦ by simp [responseFor, hrouted]
  have hclaim : ∀ token, claimFor m token = 0 := fun token ↦ by simp [claimFor, hclaimed]
  have hzero : Idle 0 := by simp [Idle]
  cases o with
  | openSession sid =>
    show Keeps cfg m t _ _ _ 0
    have h : Keeps cfg m t (Op.openSession sid).Touches (Settled (.openSession sid))
        (openSession sid >>= fun _ ↦ pure .unit) (openFor m sid + 0) :=
      openSession_spec (keeps_settled hzero (by simp) (by simp [Outcome.Grants]))
    rwa [openFor, if_neg (by simp [hnumbered sid rfl]), add_zero] at h
  | nextRequestId sid =>
    show Keeps cfg m t _ _ _ 0
    refine nextRequestId_spec rfl (fun G hG ↦ ?_) (fun _ id ↦ ?_) fun s id _ ↦ ?_
    · rw [add_zero]
      exact keeps_settled hG (by simp) (by simp [Outcome.Grants])
    · exact keeps_settled hzero (by simp) (by simp [Outcome.Grants])
    · exact keeps_settled (by simp [Idle, Tok.idle]) (by simp) (by simp [Outcome.Grants])
  | register id sid bizType timeout =>
    show Keeps cfg m t _ _ _ 0
    have h : Keeps cfg m t (Op.register id sid bizType timeout).Touches
        (Settled (.register id sid bizType timeout))
        (registerImpl cfg (.inbound sid id) bizType timeout true >>= fun token ↦
          pure (.token token)) (idFor m (.inbound sid id) + 0) := by
      refine registerImpl_spec rfl (by simp [hbound]) (fun G hG ↦ ?_) fun token _ ↦ ?_
      · rw [add_zero]
        exact keeps_settled hG (by simp) (by simp [Outcome.Grants])
      · exact keeps_granted (by simp) (by simp +contextual [Outcome.Grants])
    rwa [hid, add_zero] at h
  | tryRegisterWaiter id sid bizType timeout =>
    show Keeps cfg m t _ _ _ 0
    have h : Keeps cfg m t (Op.tryRegisterWaiter id sid bizType timeout).Touches
        (Settled (.tryRegisterWaiter id sid bizType timeout))
        (tryRegisterWaiter cfg id sid bizType timeout >>= fun result ↦
          pure (.waiter result)) (idFor m (.outbound sid id) + 0) := by
      refine tryRegisterWaiter_spec rfl (by simp [hbound]) (fun e G hG ↦ ?_) fun token _ ↦ ?_
      · rw [add_zero]
        exact keeps_settled hG (by simp) (by simp [Outcome.Grants])
      · exact keeps_granted (by simp) (by simp +contextual [Outcome.Grants])
    rwa [hid, add_zero] at h
  | completeWaiter sid id packet =>
    show Keeps cfg m t _ _ _ 0
    have h : Keeps cfg m t (Op.completeWaiter sid id packet).Touches
        (Settled (.completeWaiter sid id packet))
        (completeWaiter sid id packet >>= fun completed ↦ pure (.flag completed))
        (responseFor m t sid id packet false + 0) := by
      refine completeWaiter_spec rfl ?_ ?_
      all_goals
        rw [hresponse, add_zero]
        exact keeps_settled hzero (by simp) (by simp [Outcome.Grants])
    rwa [hresponse, add_zero] at h
  | abortWaiter sid id =>
    exact abortWaiter_spec rfl fun b ↦ keeps_settled hzero (by simp) (by simp [Outcome.Grants])
  | abortAll =>
    have hloose : m.strict = false := by
      by_contra hstrict
      exact hfair (by simpa using hstrict)
    refine abortAll_spec hloose (fun _ ↦ trivial) fun n G hG ↦ ?_
    rw [show Op.start m .abortAll = 0 from rfl, add_zero]
    exact keeps_settled hG (by simp) (by simp [Outcome.Grants])
  | beginRespond token =>
    show Keeps cfg m t _ _ _ (mintFor m token)
    rw [← add_zero (mintFor m token)]
    refine beginRespond_spec rfl ?_ fun r _ ↦ ?_
    · refine keeps_settled ?_ (by simp) (by simp [Outcome.Grants])
      intro x hx
      simp only [add_zero, Multiset.mem_add, Multiset.mem_singleton] at hx
      obtain rfl | hx := hx
      · trivial
      · exact idle_mintFor token x hx
    · rw [add_zero]
      exact keeps_settled (idle_mintFor token) (by simp) (by simp [Outcome.Grants])
  | finishRespond token writeConfirmed =>
    show Keeps cfg m t _ _ _ 0
    have h : Keeps cfg m t (Op.finishRespond token writeConfirmed).Touches
        (Settled (.finishRespond token writeConfirmed))
        (finishRespond token writeConfirmed >>= fun result ↦ pure (.mark result))
        (claimFor m token + 0) :=
      finishRespond_spec rfl hfair fun r ↦
        keeps_settled hzero (by simp) (by simp [Outcome.Grants])
    rwa [hclaim, add_zero] at h
  | markTimedOut key =>
    exact markTimedOut_spec rfl fun r ↦ keeps_settled hzero (by simp) (by simp [Outcome.Grants])
  | abortRequestToken token =>
    exact abortRequestToken_spec rfl fun b ↦
      keeps_settled hzero (by simp) (by simp [Outcome.Grants])
  | closeSessionPending sid =>
    refine closeSessionPending_spec rfl fun closed ↦ ?_
    show Settled _ _ ({.gone sid} + 0)
    exact ⟨by simp [Idle, Tok.idle], by simp +contextual, by simp [Outcome.Grants]⟩
  | scanTimeoutBucket =>
    exact scanTimeoutBucket_spec (fun _ ↦ trivial) fun n ↦
      keeps_settled hzero (by simp) (by simp [Outcome.Grants])

end Bodies

/-- What the registry's calls promise each other. -/
def contract : Contract Op Outcome Tok where
  start := fun _ _ _ ↦ True
  ok := fun t o ↦ Tok.Within t o.Touches
  post := fun _ ↦ Settled

/-- The invariant of every registry, whatever its callers do. -/
structure Base (s : State) (D : Multiset Tok) : Prop where
  core : Core s (books D)
  home : Home s D

section Sound

variable {cfg : RegistryConfig} {m : Mode} {call choice : Nat} {s : State} {a : Act} {r : a.Resp}
  {e e' F D : Multiset Tok}

theorem Base.step (h : Base s (e + F)) (hm : Moves cfg m call a r e e')
    (hr : (a.exec cfg call choice s).1 = r) : Base (a.exec cfg call choice s).2 (e' + F) :=
  ⟨h.core.step hm hr, h.home.step hm hr⟩

/-- Tokens that owe nothing and whose sessions are as they say may be handed out. -/
theorem Base.assume (h : Base s D) (hquiet : ∀ x ∈ e, x.quiet = true)
    (hhomed : ∀ x ∈ e, x.Homed s.history) : Base s (e + D) := by
  refine ⟨?_, { h.home with tokens := fun x hx ↦ ?_ }⟩
  · rw [books_quiet hquiet]
    exact h.core
  · obtain hx | hx := Multiset.mem_add.mp hx
    · exact hhomed x hx
    · exact h.home.tokens x hx

/-- An answer that the tokens rule out is not given, as long as closed sessions stay closed. -/
theorem Base.not_refuted (h : Base s (D + F))
    (hgone : m.final = true → ∀ sid, .gone sid ∈ D → s.sessions.lookup sid = none)
    (hr : (a.exec cfg call choice s).1 = r) : ¬ Refuted m a r D := by
  intro href
  cases href with
  | misplaced hkey => exact hkey (h.core.key_eq _ _ hr)
  | stray hdraining hmem hne =>
    have hopened := h.home.tokens _ (Multiset.mem_add.mpr (.inl hdraining))
    rw [← hr] at hmem
    simp only [Act.exec, mem_arrange, List.mem_filter] at hmem
    obtain ⟨sid', hsid', hopened'⟩ := h.home.requests _ _ hmem.1
    rw [hsid', h.home.opened_unique _ _ _ hopened' hopened] at hne
    exact hne rfl
  | reopened hfinal hmem =>
    have hsome : s.sessions.lookup _ = some _ := hr
    rw [hgone hfinal _ hmem] at hsome
    cases hsome

theorem Base.new : Base State.new 0 := by
  refine ⟨⟨?_, ?_, ?_, ?_, ?_, ?_, ?_, ?_, ?_, ?_, ?_, ?_, ?_⟩, ⟨?_, ?_, ?_, ?_, ?_⟩⟩
  all_goals simp [State.new, State.regs, books, endedBy, removedBy, State.ended]
  intro c _
  cases c <;> rfl

end Sound

/-- Callers that promise nothing. -/
def Mode.loose : Mode := {}

/-- The environment in which any call may be made at any time. -/
def anyCalls : System.Env Act Act.Resp State Op Outcome where
  mayStart := fun _ _ ↦ True
  mayAct := fun _ _ ↦ True

instance (c : Config Act Act.Resp State Op Outcome) (o : Op) :
    Decidable (anyCalls.mayStart c o) := inferInstanceAs (Decidable True)

instance (a : Act) (s : State) : Decidable (anyCalls.mayAct a s) :=
  inferInstanceAs (Decidable True)

private theorem sound_loose (cfg : RegistryConfig) :
    Sound (system cfg) anyCalls (rules cfg .loose) contract Base where
  act := by
    intro t a choice s r s' e e' F _ hexec hm hJ
    obtain ⟨rfl, rfl⟩ := Prod.mk.inj (Option.some.inj hexec)
    exact hJ.step hm rfl
  refuted := by
    intro t a choice s r s' d F hexec href hJ
    obtain ⟨rfl, rfl⟩ := Prod.mk.inj (Option.some.inj hexec)
    exact hJ.not_refuted (by simp [Mode.loose]) rfl href
  start := by
    intro c ds o h _
    have hstart : o.start .loose = 0 := by cases o <;> rfl
    refine ⟨0, trivial, ?_, by simp, ?_⟩
    · rw [← hstart]
      exact body_keeps rfl rfl rfl o (fun _ _ ↦ rfl) (by simp [Mode.loose])
    · rw [zero_add]
      exact h.inv

/-- In every reachable state the bookkeeping holds with the tokens of all calls. -/
theorem balanced_of_reaches {cfg : RegistryConfig} {c : Config Act Act.Resp State Op Outcome}
    (hc : (system cfg).Reaches anyCalls ⟨State.new, []⟩ c) :
    ∃ ds, Balanced (rules cfg .loose) contract Base c ds :=
  (Balanced.init Base.new).reaches (sound_loose cfg) hc

/-- When every call has returned, nothing is owed. -/
theorem idle_of_returned {R : Rules Act Act.Resp Tok} {J : State → Multiset Tok → Prop}
    {c : Config Act Act.Resp State Op Outcome} {ds : Nat → Multiset Tok}
    (h : Balanced R contract J c ds) (hall : ∀ call ∈ c.calls, call.Returned) :
    Idle (total ds c.calls.length) := by
  intro x hx
  obtain ⟨t, ht, hx⟩ := mem_total.mp hx
  have hc : c.calls[t]? = some c.calls[t] := List.getElem?_eq_getElem ht
  obtain ⟨v, hv⟩ := (hall _ (List.getElem_mem ht)).prog_eq
  exact (h.post hc hv).idle x hx

/-- Idle tokens leave nothing on the books. -/
theorem books_idle {D : Multiset Tok} (hD : Idle D) :
    (books D).owners = 0 ∧ (books D).subbed = 0 ∧ (books D).added = 0 ∧ ∀ c, (books D).owed c = 0 := by
  refine ⟨part_eq_zero ?_, Multiset.card_eq_zero.mpr (part_eq_zero ?_),
    Multiset.card_eq_zero.mpr (part_eq_zero ?_),
    fun c ↦ Multiset.card_eq_zero.mpr (part_eq_zero ?_)⟩
  all_goals
    intro x hx
    have hidle := hD x hx
    cases x <;> first | rfl | exact hidle.elim

/-- The registry's bookkeeping is right in this state. -/
structure LifecycleOk (c : Config Act Act.Resp State Op Outcome) : Prop where
  /-- No registration ends twice. -/
  ends_once : ((endedBy c.shared.history).map fun o ↦ o.2.2).Nodup
  /-- Whatever a call took out of the map is a registration it ended itself. -/
  removes_own : removedBy c.shared.history ≤ endedBy c.shared.history
  /-- A call about to remove an entry by key finds there the registration it ended. -/
  removes_found : ∀ t caller key, c.next? t = some (.entriesRemove caller key) →
    ∃ entry, c.shared.entries.lookup key = some entry ∧
      (t, caller, entry.token) ∈ endedBy c.shared.history
  /-- The gauge is positive before every decrement. -/
  no_underflow : ∀ t, c.next? t = some .pendingFetchSub → 0 < c.shared.counters.pendingRequests
  /-- With no call in progress, the winner of every end has removed its registration, the gauge
  is the size of the map and the totals count the ends they are for. -/
  quiescent : (∀ call ∈ c.calls, call.Returned) →
    removedBy c.shared.history = endedBy c.shared.history ∧
    c.shared.counters.pendingRequests = c.shared.entries.entries.length ∧
    c.shared.counters.requestTimeoutTotal =
      c.shared.history.countP Counter.requestTimeout.counts ∧
    c.shared.counters.responseSendFailedTotal =
      c.shared.history.countP Counter.responseSendFailed.counts ∧
    c.shared.counters.sessionClosedPendingTotal =
      c.shared.history.countP Counter.sessionClosedPending.counts

/-- Lifecycle and gauge: in every reachable state of any number of concurrent calls on any keys
and tokens, the registry's bookkeeping is right. -/
theorem lifecycle_and_gauge (cfg : RegistryConfig) {c : Config Act Act.Resp State Op Outcome}
    (hc : (system cfg).Reaches anyCalls ⟨State.new, []⟩ c) : LifecycleOk c := by
  obtain ⟨ds, h⟩ := balanced_of_reaches hc
  have hcore := h.inv.core
  constructor
  case ends_once => exact hcore.ended_nodup
  case removes_own =>
    rw [hcore.balance]
    exact Multiset.le_add_right _ _
  case removes_found =>
    intro t caller key hn
    obtain ⟨d, G, hJ, href | ⟨e, e', F, rfl, hm⟩⟩ := h.next hn ()
    · cases href
    · cases hm with
      | @remove caller token =>
        have howner : (t, caller, token) ∈ (books ({.subbed t caller token} + F + G)).owners :=
          mem_part.mpr ⟨.subbed t caller token, by simp, rfl⟩
        have hended := Multiset.mem_map_of_mem (fun o ↦ o.2.2) howner
        rw [hJ.core.owners_eq, Multiset.mem_filter] at hended
        obtain ⟨entry, hlookup, htoken⟩ := hJ.core.lookup_of_mem hended.1
        refine ⟨entry, hlookup, ?_⟩
        rw [htoken, hJ.core.balance]
        exact Multiset.mem_add.mpr (.inr howner)
  case no_underflow =>
    intro t hn
    obtain ⟨d, G, hJ, href | ⟨e, e', F, rfl, hm⟩⟩ := h.next hn ()
    · cases href
    · have hcore' := hJ.core
      rw [add_assoc] at hcore'
      cases hm with
      | pendingSubRefused => exact hcore'.gauge_pos_added
      | pendingSubWon => exact hcore'.gauge_pos
  case quiescent =>
    intro hall
    obtain ⟨howners, hsubbed, hadded, howed⟩ := books_idle (idle_of_returned h hall)
    have htotal : ∀ k, k ≠ .duplicateResponse →
        c.shared.counters.total k = c.shared.history.countP k.counts := by
      intro k hk
      have := hcore.totals k hk
      rwa [howed k, Nat.add_zero] at this
    refine ⟨?_, ?_, htotal .requestTimeout (by simp), htotal .responseSendFailed (by simp),
      htotal .sessionClosedPending (by simp)⟩
    · have hbalance := hcore.balance
      rw [howners, add_zero] at hbalance
      exact hbalance.symm
    · have hgauge := hcore.gauge
      rw [hsubbed, hadded, Nat.add_zero, Nat.add_zero, State.regs, Multiset.card_map,
        Table.card_values] at hgauge
      exact hgauge

/-- A run in which an inbound request is registered and times out. -/
def timeoutRun : List (Label Op) :=
  .start (.register 7 none 0 5) :: List.replicate 7 (.run 0 0) ++
    .start (.markTimedOut (.inbound none 7)) :: List.replicate 6 (.run 1 0)

theorem lifecycle_of_timeout : ∃ c,
    (system (.newWithTiming 8 1)).Reaches anyCalls ⟨State.new, []⟩ c ∧
      c.shared.counters.requestTimeoutTotal = 1 ∧ LifecycleOk c := by
  have hrun : ((system (.newWithTiming 8 1)).runAll anyCalls ⟨State.new, []⟩ timeoutRun).map
      (fun c ↦ c.shared.counters.requestTimeoutTotal) = some 1 := by decide
  obtain ⟨c, hc, htotal⟩ := Option.map_eq_some_iff.mp hrun
  have hreach := System.Reaches.of_runAll hc
  exact ⟨c, hreach, htotal, lifecycle_and_gauge _ hreach⟩

end MsgTrans.Registry
