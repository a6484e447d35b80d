import MsgTrans.Base.History
import MsgTrans.Client.Rules
import MsgTrans.Registry.Locality

/-!
# The client transport: generations of the connection slot

A `Transport` and any number of calls of its methods, in any order and interleaved at every access
to what they share. What belongs to one generation does not touch another, as
`docs/ARCHITECTURE_2.0.md:116–122` promises. The rest of the transport's users, the responders, the
timeout scanner and requests that register themselves, make any calls of the registry they like.
-/

namespace MsgTrans.Client

open MsgTrans.Wire MsgTrans.Adapters MsgTrans.Base MsgTrans.Registry MsgTrans.Transport

/-- A call of one of the transport's methods, or of the registry by one of its users. -/
inductive Op where
  | setConnection (connection : Nat)
  | closeSession (sessionId : SessionId)
  | forceCloseSession (sessionId : SessionId)
  | retireGeneration (sessionId : SessionId)
  | onEvent (sessionId : SessionId) (event : TransportEvent)
  | consume (sessionId : SessionId) (events : List TransportEvent)
  | sendConfirmedWith (packet : Packet) (expected : Option SessionId)
  | send (packet : Packet)
  | registry (o : Registry.Op)
  deriving DecidableEq

/-- What a call returns. -/
inductive Outcome where
  | unit
  | session (sessionId : SessionId)
  | sent (result : Except Failure Unit)
  | registry (v : Registry.Outcome)

/-- The program of a call. -/
def Op.body (cfg : Setup) : Op → Task Outcome
  | .setConnection connection => do
    let sid ← Client.setConnection connection
    pure (.session sid)
  | .closeSession sid => do
    Client.closeSession cfg sid
    pure .unit
  | .forceCloseSession sid => do
    Client.forceCloseSession cfg sid
    pure .unit
  | .retireGeneration sid => do
    Client.retireGeneration sid
    pure .unit
  | .onEvent sid event => do
    Client.onEvent cfg sid event
    pure .unit
  | .consume sid events => do
    Client.consume cfg sid events
    pure .unit
  | .sendConfirmedWith packet expected => do
    let result ← Client.sendConfirmedWith packet expected
    pure (.sent result)
  | .send packet => do
    let result ← Client.send packet
    pure (.sent result)
  | .registry o => do
    let v ← onRegistry (o.body cfg.registry)
    pure (.registry v)

/-- A transport and its callers. -/
def transport (cfg : Setup) : System Act Act.Resp State Op Outcome where
  exec := Act.exec cfg
  body := Op.body cfg

/-- The generation whose end a call brings about or whose events it handles. -/
def Op.generation? : Op → Option SessionId
  | .closeSession sid | .forceCloseSession sid | .retireGeneration sid | .onEvent sid _
  | .consume sid _ => some sid
  | _ => none

/-- The sessions a call works on. -/
def Op.Touches (o : Op) (sid : Option SessionId) : Prop :=
  match o with
  | .registry o => o.Touches sid
  | o => ∀ generation ∈ o.generation?, sid = some generation

/-- The calls that the transport's users make on its registry. Sessions are opened and closed by
the transport alone, and a responder holds the token of an inbound request. -/
def Requesting : Registry.Op → Prop
  | .openSession _ | .closeSessionPending _ | .abortAll => False
  | .beginRespond token | .finishRespond token _ => token.direction = .inbound
  | _ => True

namespace Event

/-- The generation that an event installs. -/
def installs? : Event → Option SessionId
  | .installed sid _ => some sid
  | _ => none

/-- The connection that an event installs. -/
def brings? : Event → Option Nat
  | .installed _ connection => some connection
  | _ => none

end Event

instance (o : Registry.Op) : Decidable (Requesting o) :=
  match o with
  | .openSession _ | .closeSessionPending _ | .abortAll => inferInstanceAs (Decidable False)
  | .beginRespond token | .finishRespond token _ =>
    inferInstanceAs (Decidable (token.direction = .inbound))
  | .nextRequestId _ | .register .. | .tryRegisterWaiter .. | .completeWaiter ..
  | .abortWaiter .. | .markTimedOut _ | .abortRequestToken _ | .scanTimeoutBucket =>
    inferInstanceAs (Decidable True)

/-- The connection that is handed to a call. -/
def Op.hands? : Op → Option Nat
  | .setConnection connection => some connection
  | _ => none

/-- The connection was handed over before, to a call or to the slot. -/
def Handed (c : Base.Config Act Act.Resp State Op Outcome) (connection : Nat) : Prop :=
  (∃ call ∈ c.calls, call.op.hands? = some connection) ∨
    connection ∈ c.shared.history.filterMap Event.brings?

instance (c : Base.Config Act Act.Resp State Op Outcome) (connection : Nat) :
    Decidable (Handed c connection) :=
  inferInstanceAs (Decidable ((∃ call ∈ c.calls, call.op.hands? = some connection) ∨
    connection ∈ c.shared.history.filterMap Event.brings?))

/-- When a call may be made. A connection is a box, so it is handed over once. -/
def mayCall (c : Base.Config Act Act.Resp State Op Outcome) : Op → Prop
  | .setConnection connection => ¬ Handed c connection
  | .registry o => Requesting o
  | _ => True

instance (c : Base.Config Act Act.Resp State Op Outcome) (o : Op) : Decidable (mayCall c o) :=
  match o with
  | .setConnection connection => inferInstanceAs (Decidable (¬ Handed c connection))
  | .registry o => inferInstanceAs (Decidable (Requesting o))
  | .closeSession _ | .forceCloseSession _ | .retireGeneration _ | .onEvent .. | .consume ..
  | .sendConfirmedWith .. | .send _ => inferInstanceAs (Decidable True)

/-- The calls of a transport and its users. -/
def callers : System.Env Act Act.Resp State Op Outcome where
  mayStart := mayCall
  mayAct := fun _ _ ↦ True

instance (c : Base.Config Act Act.Resp State Op Outcome) (o : Op) :
    Decidable (callers.mayStart c o) := inferInstanceAs (Decidable (mayCall c o))

instance (a : Act) (s : State) : Decidable (callers.mayAct a s) :=
  inferInstanceAs (Decidable True)

/-- Session ids are drawn from the epoch. -/
def Mode.generations : Mode where
  registry := { strict := true, numbered := true }

/-- The connection that a call is about to install. -/
def Tok.installing? : Tok → Option Nat
  | .installing connection => some connection
  | _ => none

/-- What a token says about the history. -/
def Tok.Backed (history : List Event) : Tok → Prop
  | .writer (some sid) connection | .taken sid connection => .installed sid connection ∈ history
  | .queued call connection expected packet =>
    .enqueued call connection expected packet ∈ history
  | _ => True

/-- The invariant of the slot and its generations. -/
structure Bound (s : State) (D : Multiset Tok) : Prop where
  base : Registry.Base s.registry (part Tok.inner? D)
  slot : ∀ slot ∈ s.slot, .installed slot.sessionId slot.connection ∈ s.history
  tokens : ∀ x ∈ D, x.Backed s.history
  enqueued : ∀ call connection sid packet,
    .enqueued call connection (some sid) packet ∈ s.history → .installed sid connection ∈ s.history
  increasing : (s.history.filterMap Event.installs?).Pairwise (· < ·)
  below : ∀ sid ∈ s.history.filterMap Event.installs?, sid ≤ s.connectionEpoch
  owned : (part Tok.installing? D + (s.history.filterMap Event.brings? : List Nat)).Nodup

section Bound

variable {cfg : Setup} {m : Mode} {call choice : Nat} {s s' : State} {e e' F : Multiset Tok}

private theorem Tok.Backed.mono {h h' : List Event} {x : Tok} (hx : x.Backed h) (hsub : h ⊆ h') :
    x.Backed h' := by
  cases x with
  | writer expected connection =>
    cases expected with
    | none => trivial
    | some sid => exact hsub hx
  | taken | queued => exact hsub hx
  | _ => trivial

/-- The event installs nothing, and what it enqueues is on an installed connection. -/
def Event.Plain (h : List Event) : Event → Prop
  | .installed .. => False
  | .enqueued _ connection (some sid) _ => .installed sid connection ∈ h
  | _ => True

private theorem filterMap_plain {β : Type} {f : Event → Option β} {es : List Event}
    (hf : ∀ x, (∀ sid connection, x ≠ .installed sid connection) → f x = none)
    (hes : ∀ x ∈ es, x.Plain s.history) (hhist : s'.history = s.history ++ es) :
    s'.history.filterMap f = s.history.filterMap f := by
  have hnil : es.filterMap f = [] := by
    apply List.filterMap_eq_nil_iff.mpr
    intro x hx
    apply hf
    rintro sid connection rfl
    exact hes _ hx
  rw [hhist, List.filterMap_append, hnil, List.append_nil]

-- A step that installs nothing.
private theorem Bound.frame (h : Bound s (e + F)) {es : List Event}
    (hbase : Registry.Base s'.registry (part Tok.inner? (e' + F)))
    (hslot : ∀ slot ∈ s'.slot, slot ∈ s.slot) (hepoch : s'.connectionEpoch = s.connectionEpoch)
    (hhist : s'.history = s.history ++ es) (hes : ∀ x ∈ es, x.Plain s.history)
    (he' : ∀ x ∈ e', x.Backed s'.history)
    (hinst : part Tok.installing? e' ≤ part Tok.installing? e) : Bound s' (e' + F) := by
  have hsub : s.history ⊆ s'.history := hhist ▸ List.subset_append_left _ _
  have hinstalls : s'.history.filterMap Event.installs? = s.history.filterMap Event.installs? := by
    refine filterMap_plain (fun x hx ↦ ?_) hes hhist
    cases x <;> first | rfl | exact absurd rfl (hx _ _)
  have hbrings : s'.history.filterMap Event.brings? = s.history.filterMap Event.brings? := by
    refine filterMap_plain (fun x hx ↦ ?_) hes hhist
    cases x <;> first | rfl | exact absurd rfl (hx _ _)
  refine ⟨hbase, fun slot hs ↦ hsub (h.slot slot (hslot slot hs)), fun x hx ↦ ?_,
    fun c connection sid packet hmem ↦ ?_, ?_, ?_, ?_⟩
  · obtain hx | hx := Multiset.mem_add.mp hx
    · exact he' x hx
    · exact (h.tokens x (Multiset.mem_add.mpr (.inr hx))).mono hsub
  · rw [hhist, List.mem_append] at hmem
    obtain hmem | hmem := hmem
    · exact hsub (h.enqueued c connection sid packet hmem)
    · exact hsub (hes _ hmem)
  · rw [hinstalls]
    exact h.increasing
  · rw [hinstalls, hepoch]
    exact h.below
  · rw [hbrings]
    refine Multiset.nodup_of_le ?_ h.owned
    rw [part_add, part_add]
    exact add_le_add (add_le_add hinst le_rfl) le_rfl

-- A step that leaves the registry and its tokens alone.
private theorem Bound.still (h : Bound s (e + F)) {es : List Event}
    (hreg : s'.registry = s.registry) (he : part Tok.inner? e' = part Tok.inner? e)
    (hslot : ∀ slot ∈ s'.slot, slot ∈ s.slot) (hepoch : s'.connectionEpoch = s.connectionEpoch)
    (hhist : s'.history = s.history ++ es) (hes : ∀ x ∈ es, x.Plain s.history)
    (he' : ∀ x ∈ e', x.Backed s'.history)
    (hinst : part Tok.installing? e' ≤ part Tok.installing? e) : Bound s' (e' + F) := by
  refine h.frame ?_ hslot hepoch hhist hes he' hinst
  have hb := h.base
  rw [part_add] at hb
  rwa [hreg, part_add, he]

-- A step that moves no token.
private theorem Bound.neutral (h : Bound s (0 + F)) {es : List Event}
    (hreg : s'.registry = s.registry) (hslot : ∀ slot ∈ s'.slot, slot ∈ s.slot)
    (hepoch : s'.connectionEpoch = s.connectionEpoch) (hhist : s'.history = s.history ++ es)
    (hes : ∀ x ∈ es, x.Plain s.history) : Bound s' (0 + F) :=
  h.still hreg rfl hslot hepoch hhist hes (by simp) le_rfl

-- A new connection gets the next generation.
private theorem Bound.install {connection : Nat} (h : Bound s ({.installing connection} + F)) :
    Bound (s.slotInstall call connection)
      ({.registry (.unopened (s.connectionEpoch + 1))} + F) := by
  have hhist : (s.slotInstall call connection).history = s.history ++
      (s.slot.toList.map (fun slot : ConnectionSlot ↦ Event.closed call slot.connection) ++
        [Event.installed (s.connectionEpoch + 1) connection]) := rfl
  have hclosed : ∀ {β : Type} (f : Event → Option β), (∀ c n, f (.closed c n) = none) →
      (s.slot.toList.map fun slot : ConnectionSlot ↦ Event.closed call slot.connection).filterMap f
        = [] := by
    intro β f hf
    apply List.filterMap_eq_nil_iff.mpr
    intro x hx
    obtain ⟨slot, -, rfl⟩ := List.mem_map.mp hx
    exact hf _ _
  have hinstalls : (s.slotInstall call connection).history.filterMap Event.installs? =
      s.history.filterMap Event.installs? ++ [s.connectionEpoch + 1] := by
    rw [hhist, List.filterMap_append, List.filterMap_append, hclosed _ fun _ _ ↦ rfl]
    rfl
  have hbrings : (s.slotInstall call connection).history.filterMap Event.brings? =
      s.history.filterMap Event.brings? ++ [connection] := by
    rw [hhist, List.filterMap_append, List.filterMap_append, hclosed _ fun _ _ ↦ rfl]
    rfl
  have hsub : s.history ⊆ (s.slotInstall call connection).history := by
    rw [hhist]
    exact List.subset_append_left _ _
  refine ⟨?_, fun slot hslot ↦ ?_, fun x hx ↦ ?_, fun c n sid packet hmem ↦ ?_, ?_, ?_, ?_⟩
  · have hb : Registry.Base s.registry (part Tok.inner? F) := by
      simpa [Tok.inner?] using h.base
    have hnew : Registry.Base s.registry ({.unopened (s.connectionEpoch + 1)} +
        part Tok.inner? F) := hb.assume (by simp [Tok.quiet]) (by simp [Tok.Homed])
    show Registry.Base s.registry _
    simpa [Tok.inner?] using hnew
  · obtain rfl : (⟨s.connectionEpoch + 1, connection⟩ : ConnectionSlot) = slot :=
      Option.some.inj hslot
    rw [hhist]
    simp
  · obtain hx | hx := Multiset.mem_add.mp hx
    · rw [Multiset.mem_singleton.mp hx]
      trivial
    · exact (h.tokens x (Multiset.mem_add.mpr (.inr hx))).mono hsub
  · have hold : .enqueued c n (some sid) packet ∈ s.history := by
      rw [hhist] at hmem
      simpa using hmem
    exact hsub (h.enqueued c n sid packet hold)
  · rw [hinstalls, List.pairwise_append]
    refine ⟨h.increasing, List.pairwise_singleton _ _, fun sid hsid n hn ↦ ?_⟩
    rw [List.mem_singleton.mp hn]
    exact Nat.lt_succ_of_le (h.below sid hsid)
  · intro sid hsid
    rw [hinstalls, List.mem_append, List.mem_singleton] at hsid
    obtain hsid | rfl := hsid
    · exact Nat.le_succ_of_le (h.below sid hsid)
    · exact Nat.le_refl _
  · have hold := h.owned
    rw [part_add, part_singleton] at hold ⊢
    rw [hbrings, ← Multiset.coe_add, Multiset.coe_singleton]
    have hsame : (Tok.installing? (.installing connection)).elim (0 : Multiset Nat) (fun b ↦ {b}) +
        part Tok.installing? F + (s.history.filterMap Event.brings? : List Nat) =
      (Tok.installing? (.registry (.unopened (s.connectionEpoch + 1)))).elim 0 (fun b ↦ {b}) +
        part Tok.installing? F +
          (((s.history.filterMap Event.brings? : List Nat) : Multiset Nat) + {connection}) := by
      simp only [Tok.installing?, Option.elim_some, Option.elim_none]
      abel
    rwa [hsame] at hold

-- The registry's steps are its own.
private theorem Bound.registry {a : Registry.Act} {r : a.Resp} {d d' : Multiset Registry.Tok}
    (h : Bound s (d.map .registry + F)) (hm : Registry.Moves cfg.registry m.registry call a r d d')
    (hr : (a.exec cfg.registry call choice s.registry).1 = r) :
    Bound { s with registry := (a.exec cfg.registry call choice s.registry).2 }
      (d'.map .registry + F) := by
  have hnone : ∀ d : Multiset Registry.Tok, part Tok.installing? (d.map .registry) = 0 := by
    intro d
    apply part_eq_zero
    intro x hx
    obtain ⟨y, -, rfl⟩ := Multiset.mem_map.mp hx
    rfl
  have hb := h.base
  rw [part_add, part_registry] at hb
  have hnil : s.history = s.history ++ [] := (List.append_nil _).symm
  refine h.frame ?_ (fun _ hs ↦ hs) rfl hnil (by simp) ?_ ?_
  · rw [part_add, part_registry]
    exact hb.step hm hr
  · intro x hx
    obtain ⟨y, -, rfl⟩ := Multiset.mem_map.mp hx
    trivial
  · rw [hnone, hnone]

/-- A writer is handed out of a filled slot, of the expected generation. -/
theorem slotWriter_ok {expected : Option SessionId} {connection : Nat}
    (h : s.slotWriter expected = .ok connection) :
    ∃ slot, s.slot = some slot ∧ slot.connection = connection ∧
      ∀ sid ∈ expected, slot.sessionId = sid := by
  unfold State.slotWriter at h
  split at h
  next => cases h
  next slot hslot =>
    split at h
    next hexpected => exact ⟨slot, hslot, Except.ok.inj h, hexpected⟩
    next => cases h

/-- A connection that was taken was in the slot of its generation. -/
theorem slotTake_some {sid : SessionId} {connection : Nat}
    (h : s.slotTake call sid = (some connection, s')) :
    s.slot = some ⟨sid, connection⟩ ∧
      s' = { s with slot := none }.record [.taken call sid connection] := by
  unfold State.slotTake at h
  split at h
  next slot hslot =>
    split at h
    next hsid =>
      obtain ⟨hc, rfl⟩ := Prod.mk.inj h
      obtain rfl := Option.some.inj hc
      rw [hslot, ← hsid]
      exact ⟨rfl, rfl⟩
    next => cases h
  next => cases h

/-- A slot of another generation is left alone. -/
theorem slotTake_none {sid : SessionId} (h : s.slotTake call sid = (none, s')) :
    s' = s := by
  unfold State.slotTake at h
  split at h
  next slot hslot =>
    split at h
    next => cases h
    next => exact (Prod.mk.inj h).2.symm
  next => exact (Prod.mk.inj h).2.symm

/-- An enqueue records what it put on the queue; one that fails changes nothing. -/
theorem exec_enqueue {connection : Nat} {expected : Option SessionId} {packet : Packet}
    {r : Except TransportError Unit}
    (h : Act.exec cfg call (.enqueue connection expected packet) choice s = some (r, s')) :
    (r = .ok () ∧ s' = s.record [.enqueued call connection expected packet]) ∨
      (∃ err, r = .error err) ∧ s' = s := by
  simp only [Act.exec] at h
  split at h
  next =>
    obtain ⟨rfl, rfl⟩ := Prod.mk.inj (Option.some.inj h)
    exact .inl ⟨rfl, rfl⟩
  next err _ =>
    obtain ⟨rfl, rfl⟩ := Prod.mk.inj (Option.some.inj h)
    exact .inr ⟨⟨err, rfl⟩, rfl⟩

/-- Every action keeps the invariant. -/
theorem Bound.step {a : Act} {r : a.Resp} (h : Bound s (e + F))
    (hm : Moves cfg m call a r e e') (hr : a.exec cfg call choice s = some (r, s')) :
    Bound s' (e' + F) := by
  have hself : ∀ slot ∈ s.slot, slot ∈ s.slot := fun _ hs ↦ hs
  have hnil : s.history = s.history ++ [] := (List.append_nil _).symm
  have hall : ∀ x ∈ ([] : List Event), x.Plain s.history := by simp
  -- A writer that was taken under an expectation is that generation's.
  have hplain : ∀ {expected : Option SessionId} {connection : Nat} {packet : Packet},
      (Tok.writer expected connection).Backed s.history →
      ∀ x ∈ [Event.enqueued call connection expected packet], x.Plain s.history := by
    intro expected connection packet hw x hx
    rw [List.mem_singleton.mp hx]
    cases expected with
    | none => trivial
    | some sid => exact hw
  cases hm with
  | registry hreg =>
    obtain ⟨hans, rfl⟩ := Prod.mk.inj (Option.some.inj hr)
    exact h.registry hreg hans
  | install _ =>
    obtain ⟨rfl, rfl⟩ := Prod.mk.inj (Option.some.inj hr)
    exact h.install
  | installOwned =>
    obtain ⟨rfl, rfl⟩ := Prod.mk.inj (Option.some.inj hr)
    rw [add_assoc] at h ⊢
    exact h.install
  | takeNone =>
    rw [slotTake_none (Option.some.inj hr)]
    exact h
  | @take sid connection =>
    obtain ⟨hslot, rfl⟩ := slotTake_some (Option.some.inj hr)
    have hinstalled := h.slot _ hslot
    refine h.still rfl (by simp [Tok.inner?]) (by simp [State.record]) rfl rfl
      (by simp [Event.Plain]) ?_ (by simp [Tok.installing?])
    intro x hx
    rw [Multiset.mem_singleton.mp hx]
    exact List.mem_append_left _ hinstalled
  | @writer expected connection =>
    obtain ⟨hw, rfl⟩ := Prod.mk.inj (Option.some.inj hr)
    obtain ⟨slot, hslot, rfl, hexpected⟩ := slotWriter_ok hw
    refine h.still rfl (by simp [Tok.inner?]) hself rfl hnil hall ?_ (by simp [Tok.installing?])
    intro x hx
    rw [Multiset.mem_singleton.mp hx]
    cases expected with
    | none => trivial
    | some sid =>
      have hinstalled := h.slot slot hslot
      rwa [hexpected sid rfl] at hinstalled
  | close =>
    obtain ⟨-, rfl⟩ := Prod.mk.inj (Option.some.inj hr)
    refine h.still rfl rfl hself rfl rfl (by simp [Event.Plain]) (fun x hx ↦ ?_) le_rfl
    exact (h.tokens x (Multiset.mem_add.mpr (.inl hx))).mono (List.subset_append_left _ _)
  | drop =>
    obtain ⟨-, rfl⟩ := Prod.mk.inj (Option.some.inj hr)
    exact h.still rfl (by simp [Tok.inner?]) hself rfl rfl (by simp [Event.Plain]) (by simp)
      (by simp [Tok.installing?])
  | enqueueRefused =>
    obtain ⟨hok, -⟩ | ⟨-, rfl⟩ := exec_enqueue hr
    · cases hok
    · exact h.still rfl (by simp [Tok.inner?]) hself rfl hnil hall (by simp)
        (by simp [Tok.installing?])
  | @enqueue connection expected packet _ =>
    obtain ⟨-, rfl⟩ | ⟨⟨err, hbad⟩, -⟩ := exec_enqueue hr
    · refine h.still rfl (by simp [Tok.inner?]) hself rfl rfl ?_
        (by simp [Tok.Backed, State.record]) (by simp [Tok.installing?])
      exact hplain (h.tokens _ (Multiset.mem_add.mpr (.inl (Multiset.mem_singleton_self _))))
    · cases hbad
  | @enqueueRequest connection sid packet token _ =>
    obtain ⟨-, rfl⟩ | ⟨⟨err, hbad⟩, -⟩ := exec_enqueue hr
    · refine h.still rfl (by simp [Tok.inner?]) hself rfl rfl ?_
        (by simp [Tok.Backed, State.record]) (by simp [Tok.installing?])
      exact hplain (h.tokens _ (by simp))
    · cases hbad
  | sessionNone | sessionSome =>
    obtain ⟨-, rfl⟩ := Prod.mk.inj (Option.some.inj hr)
    exact h.still rfl (by simp [Tok.inner?]) hself rfl hnil hall (by simp [Tok.Backed])
      (by simp [Tok.installing?])
  | borrow _ =>
    simp only [Act.exec] at hr
    split at hr
    next => cases hr
    next =>
      obtain ⟨-, rfl⟩ := Prod.mk.inj (Option.some.inj hr)
      exact h.still rfl (by simp [Tok.inner?]) hself rfl hnil hall (by simp [Tok.Backed])
        (by simp [Tok.installing?])
  | borrowMut =>
    simp only [Act.exec] at hr
    split at hr
    next => cases hr
    next =>
      obtain ⟨-, rfl⟩ := Prod.mk.inj (Option.some.inj hr)
      exact h.still rfl (by simp [Tok.inner?]) hself rfl hnil hall (by simp [Tok.Backed])
        (by simp [Tok.installing?])
  | release | releaseMut =>
    obtain ⟨-, rfl⟩ := Prod.mk.inj (Option.some.inj hr)
    exact h.still rfl (by simp [Tok.inner?]) hself rfl hnil hall (by simp)
      (by simp [Tok.installing?])
  | awaitReply =>
    obtain ⟨awaited, -, hs⟩ := Option.map_eq_some_iff.mp hr
    obtain ⟨-, rfl⟩ := Prod.mk.inj hs
    exact h
  | forward =>
    obtain ⟨-, rfl⟩ := Prod.mk.inj (Option.some.inj hr)
    exact h.neutral rfl hself rfl rfl (by simp [Event.Plain])
  | _ =>
    obtain ⟨-, rfl⟩ := Prod.mk.inj (Option.some.inj hr)
    exact h.neutral rfl hself rfl hnil hall

theorem Bound.new : Bound State.new 0 where
  base := Base.new
  slot := by simp [State.new]
  tokens := by simp
  enqueued := by simp [State.new]
  increasing := by simp [State.new]
  below := by simp [State.new]
  owned := by simp [State.new]

/-- A connection that was never handed over may be. -/
theorem Bound.hand {connection : Nat} {D : Multiset Tok} (h : Bound s D)
    (hfree : connection ∉ part Tok.installing? D)
    (hnew : connection ∉ s.history.filterMap Event.brings?) :
    Bound s ({.installing connection} + D) := by
  refine { h with base := ?_, tokens := fun x hx ↦ ?_, owned := ?_ }
  · simpa [Tok.inner?] using h.base
  · obtain hx | hx := Multiset.mem_add.mp hx
    · rw [Multiset.mem_singleton.mp hx]
      trivial
    · exact h.tokens x hx
  · rw [part_add, part_singleton, add_assoc]
    refine Multiset.nodup_cons.mpr ⟨fun hmem ↦ ?_, h.owned⟩
    obtain hmem | hmem := Multiset.mem_add.mp hmem
    · exact hfree hmem
    · exact hnew (Multiset.mem_coe.mp hmem)

/-- A token that owes nothing may be handed to a call of the registry. -/
theorem Bound.grant {x : Registry.Tok} {D : Multiset Tok} (h : Bound s D)
    (hquiet : x.quiet = true) (hhomed : x.Homed s.registry.history) :
    Bound s ({.registry x} + D) := by
  have hb : Registry.Base s.registry ({x} + part Tok.inner? D) :=
    h.base.assume (by simpa using hquiet) (by simpa using hhomed)
  refine { h with base := ?_, tokens := fun y hy ↦ ?_, owned := ?_ }
  · simpa [Tok.inner?] using hb
  · obtain hy | hy := Multiset.mem_add.mp hy
    · rw [Multiset.mem_singleton.mp hy]
      trivial
    · exact h.tokens y hy
  · simpa [Tok.installing?] using h.owned

/-- An answer that the registry's rules exclude is not given. -/
theorem Bound.not_refuted {a : Registry.Act} {r : a.Resp} {d : Multiset Registry.Tok}
    (h : Bound s (d.map .registry + F)) (hfinal : m.registry.final = false)
    (hr : (a.exec cfg.registry call choice s.registry).1 = r) :
    ¬ Registry.Refuted m.registry a r d := by
  have hb := h.base
  rw [part_add, part_registry] at hb
  exact hb.not_refuted (fun hf ↦ by rw [hfinal] at hf; cases hf) hr

end Bound

/-- The tokens a call starts with. -/
def Op.start (m : Mode) (call : Nat) : Op → Multiset Tok
  | .setConnection connection => {.installing connection}
  | .onEvent sid event => arrivalFor m call sid event
  | .consume sid events => arrivalsFor m call sid events
  | .registry o => (o.start m.registry).map .registry
  | _ => 0

/-- Only the call that a connection was handed to is about to install it. -/
def Tok.Carried (hands : Option Nat) : Tok → Prop
  | .installing connection => hands = some connection
  | _ => True

/-- What the calls promise: a send that succeeds has enqueued its packet. -/
def contract : Contract Op Outcome Tok where
  start := fun t o d ↦ d = o.start .generations t
  ok := fun t o x ↦ x.Within t o.Touches ∧ x.Carried o.hands?
  post := fun t o v d ↦ ∀ packet expected, o = .sendConfirmedWith packet expected →
    v = .sent (.ok ()) → ∃ connection, .queued t connection expected packet ∈ d

section Calls

variable {cfg : Setup} {t : Nat}

/-- Nobody borrows the client here. -/
def Unshared (D : Multiset Tok) : Prop := ∀ seen, .sharing seen ∉ D

private theorem post_of_ne {o : Op} {v : Outcome} {d : Multiset Tok}
    (ho : ∀ packet expected, o ≠ .sendConfirmedWith packet expected) :
    contract.post t o v d := fun packet expected h ↦ absurd h (ho packet expected)

private theorem touches_generation {o : Op} {sid : SessionId} (hg : o.generation? = some sid) :
    o.Touches (some sid) := by
  cases o <;> cases hg <;> simp [Op.Touches, Op.generation?]

/-- Every call follows the rules. -/
theorem Op.body_keeps (o : Op) (ho : ∀ o', o = .registry o' → Requesting o') :
    Keeps cfg .generations t o.Touches (contract.post t o) (o.body cfg)
      (o.start .generations t) := by
  have hret : ∀ {v : Outcome} {d : Multiset Tok},
      (∀ packet expected, o ≠ .sendConfirmedWith packet expected) →
      Keeps cfg .generations t o.Touches (contract.post t o) (pure v) d := fun ho ↦
    follows_ret (post_of_ne ho)
  cases o with
  | setConnection connection =>
    have hP : ∀ sid, (Op.setConnection connection).Touches sid := by
      simp [Op.Touches, Op.generation?]
    have hm : ∀ sid, Moves cfg .generations t (.slotInstall connection) sid
        {.installing connection} ({.registry (.unopened sid)} + 0) := fun sid ↦ .install rfl
    rw [Op.start, ← add_zero {Tok.installing connection}]
    exact setConnection_spec hP rfl hm (by simp) fun sid ↦ hret (by simp)
  | closeSession sid | forceCloseSession sid =>
    exact close_spec (touches_generation rfl) fun G ↦ hret (by simp)
  | retireGeneration sid =>
    exact retireGeneration_spec (touches_generation rfl) (hret (by simp))
  | onEvent sid event =>
    rw [Op.start, ← add_zero (arrivalFor _ _ _ _)]
    exact onEvent_spec (touches_generation rfl) fun G ↦ hret (by simp)
  | consume sid events =>
    rw [Op.start, ← add_zero (arrivalsFor _ _ _ _)]
    exact consume_spec (touches_generation rfl) fun G ↦ hret (by simp)
  | sendConfirmedWith packet expected =>
    have hstart : Op.start .generations t (.sendConfirmedWith packet expected) = 0 + 0 := rfl
    rw [hstart]
    refine sendConfirmedWith_spec (fun connection ↦ .inr ⟨0, ?_, by simp⟩) (fun err G ↦ ?_)
      fun connection e' ↦ ?_
    · rw [add_zero, add_zero]
      exact .enqueue (by simp [Mode.generations])
    · exact follows_ret fun packet' expected' _ h ↦ by cases h
    · refine follows_ret fun packet' expected' ho' _ ↦ ?_
      cases ho'
      exact ⟨connection, by simp⟩
  | send packet =>
    exact send_spec (by simp [Mode.generations]) fun r G ↦ hret (by simp)
  | registry o =>
    have hfair : o.Fair := by
      have hreq := ho o rfl
      cases o <;> first | exact hreq | trivial
    have hopen : ∀ sid, o = .openSession sid → Mode.generations.registry.numbered = false := by
      rintro sid rfl
      exact (ho _ rfl).elim
    have hbody : Registry.Keeps cfg.registry Mode.generations.registry t o.Touches
        (Settled o) (o.body cfg.registry) (o.start Mode.generations.registry) :=
      Registry.body_keeps rfl rfl rfl o hopen fun _ ↦ hfair
    rw [Op.start, ← add_zero ((o.start _).map _)]
    exact onRegistry_spec hbody fun v d _ ↦ hret (by simp)

/-- The rules hand out no connection. -/
theorem carried_of_moves {m : Mode} {a : Act} {r : a.Resp} {e e' : Multiset Tok}
    {hands : Option Nat} (hm : Moves cfg m t a r e e') : ∀ x ∈ e', x.Carried hands := by
  cases hm with
  | registry _ =>
    intro x hx
    obtain ⟨y, -, rfl⟩ := Multiset.mem_map.mp hx
    trivial
  | _ => simp [Tok.Carried]

private theorem Unshared.step {m : Mode} {a : Act} {r : a.Resp} {e e' F : Multiset Tok}
    (h : Unshared (e + F)) (hm : Moves cfg m t a r e e') (hexclusive : m.exclusive = false) :
    Unshared (e' + F) := by
  have hF : Unshared F := fun b hb ↦ h b (Multiset.mem_add.mpr (.inr hb))
  have he : ∀ b, .sharing b ∉ e := fun b hb ↦ h b (Multiset.mem_add.mpr (.inl hb))
  intro b hb
  obtain hb | hb := Multiset.mem_add.mp hb
  · cases hm with
    | registry _ => simp at hb
    | sessionNone | sessionSome => exact he _ (Multiset.mem_singleton_self _)
    | borrow h' =>
      rw [hexclusive] at h'
      cases h'
    | _ => simp at hb
  · exact hF b hb

private theorem arrivalsFor_eq_zero (sid : SessionId) (events : List TransportEvent) :
    arrivalsFor .generations t sid events = 0 := by
  have hone : ∀ event, arrivalFor .generations t sid event = 0 := by
    intro event
    unfold arrivalFor
    split <;> rfl
  induction events with
  | nil => rfl
  | cons event events ih =>
    rw [arrivalsFor, List.map_cons, List.sum_cons, hone, zero_add]
    exact ih

private theorem start_cases (o : Op) (ho : ∀ o', o = .registry o' → Requesting o') :
    o.start .generations t = 0 ∨
      (∃ connection, o = .setConnection connection ∧
        o.start .generations t = {.installing connection}) ∨
      ∃ token, o = .registry (.beginRespond token) ∧
        o.start .generations t = {.registry (.minted token)} := by
  cases o with
  | setConnection connection => exact .inr (.inl ⟨connection, rfl, rfl⟩)
  | onEvent sid event =>
    left
    have h := arrivalsFor_eq_zero (t := t) sid [event]
    rwa [arrivalsFor, List.map_singleton, List.sum_singleton] at h
  | consume sid events => exact .inl (arrivalsFor_eq_zero sid events)
  | registry o =>
    cases o with
    | beginRespond token => exact .inr (.inr ⟨token, rfl, rfl⟩)
    | _ => exact .inl rfl
  | _ => exact .inl rfl

/-- The rules keep the invariant of the slot. -/
theorem sound_generations (cfg : Setup) :
    Sound (transport cfg) callers (rules cfg .generations) contract
      fun s D ↦ Bound s D ∧ Unshared D where
  act := by
    intro t a choice s r s' e e' F _ hexec hm hJ
    exact ⟨hJ.1.step hm hexec, hJ.2.step hm rfl⟩
  refuted := by
    intro t a choice s r s' d F hexec href hJ
    cases href with
    | registry href =>
      obtain ⟨hans, -⟩ := Prod.mk.inj (Option.some.inj hexec)
      have hbound := hJ.1
      rw [add_assoc] at hbound
      exact hbound.not_refuted rfl hans href
    | connected hmem | replaced hmem _ | wired hmem =>
      exact hJ.2 _ (Multiset.mem_add.mpr (.inl hmem))
  start := by
    intro c ds o h ho
    have hreq : ∀ o', o = .registry o' → Requesting o' := by
      rintro o' rfl
      exact ho
    have hbody : Follows (rules cfg .generations) c.calls.length (contract.ok c.calls.length o)
        (contract.post c.calls.length o) (o.body cfg) (o.start .generations c.calls.length) :=
      (Op.body_keeps o hreq).within fun a r e e' hm x hx hok ↦ ⟨hok, carried_of_moves hm x hx⟩
    have hinv := h.inv
    have hunshared : ∀ {x : Tok}, (∀ b, .sharing b ≠ x) →
        Unshared ({x} + total ds c.calls.length) := by
      intro x hx b hb
      obtain hb | hb := Multiset.mem_add.mp hb
      · exact hx b (Multiset.mem_singleton.mp hb)
      · exact hinv.2 b hb
    refine ⟨_, rfl, hbody, ?_⟩
    obtain hstart | ⟨connection, rfl, hstart⟩ | ⟨token, rfl, hstart⟩ :=
      start_cases (t := c.calls.length) o hreq
    · rw [hstart, zero_add]
      exact ⟨by simp, hinv⟩
    · rw [hstart]
      refine ⟨by simp [contract, Tok.Within, Tok.Carried, Op.hands?], ?_, hunshared (by simp)⟩
      refine hinv.1.hand (fun hmem ↦ ?_) fun hmem ↦ ho (.inr hmem)
      obtain ⟨x, hx, hinst⟩ := mem_part.mp hmem
      obtain ⟨t, ht, hx⟩ := mem_total.mp hx
      have hc : c.calls[t]? = some c.calls[t] := List.getElem?_eq_getElem ht
      cases x with
      | installing n =>
        cases hinst
        exact ho (.inl ⟨_, List.getElem_mem ht, (h.inScope t _ hc _ hx).2⟩)
      | _ => cases hinst
    · rw [hstart]
      refine ⟨by simp [contract, Tok.Within, Registry.Tok.Within, Tok.Carried, Op.Touches,
        Registry.Op.Touches], hinv.1.grant rfl trivial, hunshared (by simp)⟩

end Calls

/-- Every generation but this one keeps its slot, its connection and its requests. -/
structure Spared (sid : SessionId) (s s' : State) : Prop where
  slot : ∀ slot ∈ s.slot, slot.sessionId ≠ sid → s'.slot = some slot
  connection : ∀ other connection call, other ≠ sid → .installed other connection ∈ s.history →
    .closed call connection ∈ s'.history → .closed call connection ∈ s.history
  requests : ∀ other, other ≠ sid → s.registry.Same s'.registry other

section Spared

variable {cfg : Setup} {m : Mode} {call choice : Nat} {s s' : State} {e e' F : Multiset Tok}
  {sid : SessionId}

private theorem spared_of_eq {es : List Event} (hslot : s'.slot = s.slot)
    (hreg : s'.registry = s.registry) (hhist : s'.history = s.history ++ es)
    (hes : ∀ c n, .closed c n ∈ es → ∀ other, .installed other n ∈ s.history → other = sid) :
    Spared sid s s' := by
  refine ⟨fun slot hs _ ↦ hslot.trans hs, fun other n c hne hinst hmem ↦ ?_, fun other _ ↦ ?_⟩
  · rw [hhist, List.mem_append] at hmem
    exact hmem.resolve_right fun hmem' ↦ hne (hes c n hmem' other hinst)
  · rw [hreg]
    exact .refl

private theorem touches_eq {o : Op} {found : Option SessionId} (hsid : o.generation? = some sid)
    (h : o.Touches found) : found = some sid := by
  cases o <;> cases hsid <;> exact h _ rfl

/-- A connection is installed once. -/
theorem Bound.installed_unique {D : Multiset Tok} (h : Bound s D) {sid sid' : SessionId} {n : Nat}
    (h₁ : .installed sid n ∈ s.history) (h₂ : .installed sid' n ∈ s.history) : sid = sid' := by
  have hnodup : (s.history.filterMap Event.brings?).Nodup :=
    Multiset.coe_nodup.mp (Multiset.nodup_of_le (Multiset.le_add_left _ _) h.owned)
  exact (Event.installed.inj (eq_of_nodup_filterMap hnodup h₁ h₂ rfl rfl)).1

/-- One action of a call of a generation spares the others. -/
theorem Moves.spares {a : Act} {r : a.Resp} {o : Op} (hm : Moves cfg m call a r e e')
    (h : Bound s (e + F)) (hstrict : m.registry.strict = true)
    (hnumbered : m.registry.numbered = true) (hsid : o.generation? = some sid)
    (he : ∀ x ∈ e, contract.ok call o x) (he' : ∀ x ∈ e', contract.ok call o x)
    (hr : a.exec cfg call choice s = some (r, s')) : Spared sid s s' := by
  have hnil : s.history = s.history ++ [] := (List.append_nil _).symm
  -- What the call closes is a connection it took out of its own slot.
  have hclosed : ∀ {sid' n}, .taken sid' n ∈ e → ∀ c n', .closed c n' ∈ [Event.closed call n] →
      ∀ other, .installed other n' ∈ s.history → other = sid := by
    intro sid' n hmem c n' hmem' other hother
    cases List.mem_singleton.mp hmem'
    have htaken : .installed sid' n ∈ s.history := h.tokens _ (Multiset.mem_add.mpr (.inl hmem))
    rw [h.installed_unique hother htaken]
    exact Option.some.inj (touches_eq hsid (he _ hmem).1)
  have hinstall : ∀ {n}, .installing n ∉ e := by
    intro n hmem
    have hhands : o.hands? = some n := (he _ hmem).2
    cases o with
    | setConnection _ => cases hsid
    | _ => cases hhands
  cases hm with
  | @registry a r d d' hreg =>
    obtain ⟨hans, rfl⟩ := Prod.mk.inj (Option.some.inj hr)
    have hb := h.base
    rw [part_add, part_registry] at hb
    refine ⟨fun slot hs _ ↦ hs, fun _ _ _ _ _ hmem ↦ hmem, fun other hother ↦ ?_⟩
    have hP : ¬ o.Touches (some other) := fun hT ↦
      hother (Option.some.inj (touches_eq hsid hT))
    exact hreg.same hb.home hstrict hnumbered
      (fun x hx ↦ (he _ (Multiset.mem_map_of_mem _ hx)).1)
      (fun x hx ↦ (he' _ (Multiset.mem_map_of_mem _ hx)).1) hP hans
  | install _ => exact absurd (Multiset.mem_singleton_self _) hinstall
  | installOwned =>
    exact absurd (Multiset.mem_add.mpr (.inl (Multiset.mem_singleton_self _))) hinstall
  | takeNone =>
    rw [slotTake_none (Option.some.inj hr)]
    exact spared_of_eq rfl rfl hnil (by simp)
  | @take sid' n =>
    obtain ⟨hslot, rfl⟩ := slotTake_some (Option.some.inj hr)
    have hown : sid' = sid :=
      Option.some.inj (touches_eq hsid (he' _ (Multiset.mem_singleton_self _)).1)
    refine ⟨fun slot hs hne ↦ ?_, fun _ _ _ _ _ hmem ↦ ?_, fun _ _ ↦ .refl⟩
    · obtain rfl := Option.some.inj (hs.symm.trans hslot)
      exact absurd hown hne
    · simpa [State.record] using hmem
  | close =>
    obtain ⟨-, rfl⟩ := Prod.mk.inj (Option.some.inj hr)
    exact spared_of_eq rfl rfl rfl (hclosed (Multiset.mem_singleton_self _))
  | drop =>
    obtain ⟨-, rfl⟩ := Prod.mk.inj (Option.some.inj hr)
    exact spared_of_eq rfl rfl rfl (hclosed (Multiset.mem_singleton_self _))
  | enqueueRefused | enqueue _ | enqueueRequest _ =>
    obtain ⟨-, rfl⟩ | ⟨-, rfl⟩ := exec_enqueue hr
    · exact spared_of_eq rfl rfl rfl (by simp)
    · exact spared_of_eq rfl rfl hnil (by simp)
  | borrow _ | borrowMut =>
    simp only [Act.exec] at hr
    split at hr
    next => cases hr
    next =>
      obtain ⟨-, rfl⟩ := Prod.mk.inj (Option.some.inj hr)
      exact spared_of_eq rfl rfl hnil (by simp)
  | awaitReply =>
    obtain ⟨awaited, -, hs⟩ := Option.map_eq_some_iff.mp hr
    obtain ⟨-, rfl⟩ := Prod.mk.inj hs
    exact spared_of_eq rfl rfl hnil (by simp)
  | forward =>
    obtain ⟨-, rfl⟩ := Prod.mk.inj (Option.some.inj hr)
    exact spared_of_eq rfl rfl rfl (by simp)
  | _ =>
    obtain ⟨-, rfl⟩ := Prod.mk.inj (Option.some.inj hr)
    exact spared_of_eq rfl rfl hnil (by simp)

end Spared

/-- The generations of the slot are kept apart in this state. -/
structure GenerationsApart (cfg : Setup) (c : Base.Config Act Act.Resp State Op Outcome) : Prop where
  /-- A packet sent to a generation is enqueued on the connection installed as that generation. -/
  enqueued : ∀ call connection sid packet,
    .enqueued call connection (some sid) packet ∈ c.shared.history →
      .installed sid connection ∈ c.shared.history
  /-- A send to a generation that returns without an error has enqueued its packet there. -/
  sent : ∀ t call packet sid, c.calls[t]? = some call →
    call.op = .sendConfirmedWith packet (some sid) → call.result? = some (.sent (.ok ())) →
    ∃ connection, .installed sid connection ∈ c.shared.history ∧
      .enqueued t connection (some sid) packet ∈ c.shared.history
  /-- Whatever a call of one generation does next, the other generations keep their slot, their
  connection and their requests. -/
  spared : ∀ t choice call sid c', c.calls[t]? = some call → call.op.generation? = some sid →
    (transport cfg).step c (.run t choice) = some c' → Spared sid c.shared c'.shared
  /-- Generations are installed in increasing order, each with a connection of its own. -/
  increasing : (c.shared.history.filterMap Event.installs?).Pairwise (· < ·)
  unique : ∀ sid sid' connection, .installed sid connection ∈ c.shared.history →
    .installed sid' connection ∈ c.shared.history → sid = sid'

/-- In every reachable state of any number of calls, in any interleaving, what belongs to one
generation of the slot does not touch another. -/
theorem generations_apart (cfg : Setup) {c : Base.Config Act Act.Resp State Op Outcome}
    (hc : (transport cfg).Reaches callers ⟨.new, []⟩ c) : GenerationsApart cfg c := by
  have hinit : Bound State.new 0 ∧ Unshared 0 := ⟨Bound.new, by simp [Unshared]⟩
  obtain ⟨ds, h⟩ := (Balanced.init hinit).reaches (sound_generations cfg) hc
  have hbound := h.inv.1
  constructor
  case enqueued => exact hbound.enqueued
  case sent =>
    intro t call packet sid hcall hop hresult
    obtain ⟨connection, hmem⟩ :=
      h.post hcall (Call.prog_of_result? hresult) packet (some sid) hop rfl
    have hlt := (List.getElem?_eq_some_iff.mp hcall).1
    have henqueued : .enqueued t connection (some sid) packet ∈ c.shared.history :=
      hbound.tokens _ (mem_total.mpr ⟨t, hlt, hmem⟩)
    exact ⟨connection, hbound.enqueued _ _ _ _ henqueued, henqueued⟩
  case spared =>
    intro t choice call sid c' hcall hgen hstep
    obtain ⟨a, r, e, e', F, hexec, hm, hJ, he, he'⟩ :=
      h.acts (sound_generations cfg) hcall hstep
    exact hm.spares hJ.1 rfl rfl hgen he he' hexec
  case increasing => exact hbound.increasing
  case unique => exact fun _ _ _ h₁ h₂ ↦ hbound.installed_unique h₁ h₂

/-- A transport whose build has no codecs. -/
def plainSetup : Setup where
  registry := .newWithTiming 8 1
  codecs := ⟨none, none⟩
  failure := fun _ ↦ notConnectedError

/-- A reconnect, a late close of the first generation and a send to the second. -/
def lateCloseRun : List (Label Op) :=
  Label.start (Op.setConnection 10) :: List.replicate 4 (Label.run 0 0) ++
    Label.start (Op.setConnection 11) :: List.replicate 4 (Label.run 1 0) ++
    Label.start (Op.closeSession 1) :: List.replicate 10 (Label.run 2 0) ++
    Label.start (Op.sendConfirmedWith (.oneWay 5 []) (some 2)) :: List.replicate 6 (Label.run 3 0)

private theorem lateCloseRun_ends :
    ((transport plainSetup).runAll callers ⟨.new, []⟩ lateCloseRun).any (fun c ↦
      c.calls.all (fun call ↦ call.result?.isSome) &&
      c.shared.slot = some ⟨2, 11⟩ &&
      c.shared.history.contains (.enqueued 3 11 (some 2) (.oneWay 5 []))) = true := by
  decide +kernel

theorem generations_apart_of_late_close : ∃ c,
    (transport plainSetup).Reaches callers ⟨.new, []⟩ c ∧ (∀ call ∈ c.calls, call.Returned) ∧
      c.shared.slot = some ⟨2, 11⟩ ∧
      .enqueued 3 11 (some 2) (.oneWay 5 []) ∈ c.shared.history ∧
      GenerationsApart plainSetup c := by
  obtain ⟨c, hc, hend⟩ := (Option.any_eq_true _ _).mp lateCloseRun_ends
  simp only [Bool.and_eq_true, List.all_eq_true, decide_eq_true_eq, List.contains_iff_mem] at hend
  obtain ⟨⟨hall, hslot⟩, hmem⟩ := hend
  have hreach := System.Reaches.of_runAll hc
  exact ⟨c, hreach, hall, hslot, hmem, generations_apart _ hreach⟩

end MsgTrans.Client
