import MsgTrans.Client.Requests
import MsgTrans.Client.Sharing
import MsgTrans.Registry.Provenance

/-!
# The client transport: whose ids the requests carry

A `TransportClient`, the consumer tasks of its connections, its responders and its timeout scanner,
in any order and interleaved at every access to what they share. Every request that reaches a
connection carries an id that its call drew from the counter of that connection's session and
registered there.
-/

namespace MsgTrans.Client

open MsgTrans.Wire MsgTrans.Adapters MsgTrans.Base MsgTrans.Registry MsgTrans.Transport

/-- The right to enqueue one request. -/
def Tok.ticket? : Tok → Option Unit
  | .ticket => some ()
  | _ => none

namespace Event

/-- This call enqueued a request. -/
def requestOf (call : Nat) : Event → Bool
  | .enqueued c _ _ packet => c = call && packet.header.packetType = .request
  | _ => false

/-- The session and the id of an enqueued request that was sent to a session. -/
def outbound? : Event → Option (SessionId × UInt32)
  | .enqueued _ _ (some sid) packet =>
    if packet.header.packetType = .request then some (sid, packet.header.messageId) else none
  | _ => none

end Event

/-- What one call has done itself: it drew and registered what its tokens say, and enqueued at most
one request. -/
structure Account (s : State) (call : Nat) (d : Multiset Tok) : Prop where
  owned : Owned s.registry.history call (part Tok.inner? d)
  ticket : (part Tok.ticket? d).card + s.history.countP (Event.requestOf call) ≤ 1

/-- A request was sent to a session, under an id that its call registered there. -/
def Registered (s : State) (call : Nat) (expected : Option SessionId) (packet : Packet) : Prop :=
  ∃ sid token, expected = some sid ∧ .registered call token ∈ s.registry.history ∧
    token.key = .outbound (some sid) packet.header.messageId

/-- The requests that were enqueued. -/
structure Requested (s : State) : Prop where
  sourced : Sourced s.registry.history
  registered : ∀ call connection expected packet,
    .enqueued call connection expected packet ∈ s.history →
      packet.header.packetType = .request → Registered s call expected packet
  once : (s.history.filterMap Event.outbound?).Nodup

section Account

variable {cfg : Setup} {m : Mode} {call choice : Nat} {s s' : State} {d e e' F : Multiset Tok}

/-- What an action adds to the history: a request under the rule for requests, or nothing that is a
request. -/
theorem Moves.history_cases {a : Act} {r : a.Resp} (hm : Moves cfg m call a r e e')
    (hexclusive : m.exclusive = true) (hr : a.exec cfg call choice s = some (r, s')) :
    (∃ connection sid packet token,
      e = {.writer (some sid) connection} + ({.ticket} + {.registry (.minted token)}) ∧
      e' = {.queued call connection (some sid) packet} + {.registry (.minted token)} ∧
      token.key = .outbound (some sid) packet.header.messageId ∧
      s' = s.record [.enqueued call connection (some sid) packet]) ∨
    (∃ es, s'.history = s.history ++ es ∧ (∀ x ∈ es, ∀ c, x.requestOf c = false) ∧
      part Tok.ticket? e' = part Tok.ticket? e) := by
  have hnil : s.history = s.history ++ [] := (List.append_nil _).symm
  cases hm with
  | registry _ =>
    obtain ⟨-, rfl⟩ := Prod.mk.inj (Option.some.inj hr)
    have hnone : ∀ d : Multiset Registry.Tok, part Tok.ticket? (d.map .registry) = 0 := by
      intro d
      apply part_eq_zero
      intro x hx
      obtain ⟨y, -, rfl⟩ := Multiset.mem_map.mp hx
      rfl
    exact .inr ⟨[], hnil, by simp, by rw [hnone, hnone]⟩
  | install _ | installOwned =>
    obtain ⟨-, rfl⟩ := Prod.mk.inj (Option.some.inj hr)
    refine .inr ⟨_, rfl, fun x hx c ↦ ?_, by simp [Tok.ticket?]⟩
    obtain hx | hx := List.mem_append.mp hx
    · obtain ⟨slot, -, rfl⟩ := List.mem_map.mp hx
      rfl
    · rw [List.mem_singleton.mp hx]
      rfl
  | takeNone =>
    rw [slotTake_none (Option.some.inj hr)]
    exact .inr ⟨[], hnil, by simp, rfl⟩
  | take =>
    obtain ⟨-, rfl⟩ := slotTake_some (Option.some.inj hr)
    exact .inr ⟨_, rfl, by simp [Event.requestOf], by simp [Tok.ticket?]⟩
  | enqueueRefused =>
    obtain ⟨hok, -⟩ | ⟨-, rfl⟩ := exec_enqueue hr
    · cases hok
    · exact .inr ⟨[], hnil, by simp, by simp [Tok.ticket?]⟩
  | @enqueue connection expected packet hpacket =>
    obtain ⟨-, rfl⟩ | ⟨⟨err, hbad⟩, -⟩ := exec_enqueue hr
    · refine .inr ⟨_, rfl, ?_, by simp [Tok.ticket?]⟩
      simp [Event.requestOf, hpacket hexclusive]
    · cases hbad
  | @enqueueRequest connection sid packet token hkey =>
    obtain ⟨-, rfl⟩ | ⟨⟨err, hbad⟩, -⟩ := exec_enqueue hr
    · exact .inl ⟨connection, sid, packet, token, rfl, rfl, hkey, rfl⟩
    · cases hbad
  | borrow _ | borrowMut =>
    simp only [Act.exec] at hr
    split at hr
    next => cases hr
    next =>
      obtain ⟨-, rfl⟩ := Prod.mk.inj (Option.some.inj hr)
      exact .inr ⟨[], hnil, by simp, by simp [Tok.ticket?]⟩
  | awaitReply =>
    obtain ⟨awaited, -, hs⟩ := Option.map_eq_some_iff.mp hr
    obtain ⟨-, rfl⟩ := Prod.mk.inj hs
    exact .inr ⟨[], hnil, by simp, rfl⟩
  | close | drop | forward =>
    obtain ⟨-, rfl⟩ := Prod.mk.inj (Option.some.inj hr)
    exact .inr ⟨_, rfl, by simp [Event.requestOf], by simp [Tok.ticket?]⟩
  | _ =>
    obtain ⟨-, rfl⟩ := Prod.mk.inj (Option.some.inj hr)
    exact .inr ⟨[], hnil, by simp, by simp [Tok.ticket?]⟩

/-- The registry's history only grows. -/
theorem Moves.registry_subset {a : Act} {r : a.Resp} (hm : Moves cfg m call a r e e')
    (hr : a.exec cfg call choice s = some (r, s')) :
    s.registry.history ⊆ s'.registry.history := by
  obtain ⟨b, v, d, d', -, -, -, -, rfl⟩ | ⟨connection, G, -, -, rfl⟩ | ⟨-, hreg, -⟩ :=
    hm.registry_cases hr
  · exact Registry.Act.history_subset
  · exact List.Subset.refl _
  · rw [hreg]
    exact List.Subset.refl _

private theorem owned_of_part {h : List Registry.Event} {D D' : Multiset Registry.Tok}
    (hD : Owned h call D)
    (hregistered : part Registry.Tok.registered? D' = part Registry.Tok.registered? D)
    (hid : part Registry.Tok.id? D' = part Registry.Tok.id? D) : Owned h call D' :=
  ⟨hregistered ▸ hD.registered, hid ▸ hD.drawn⟩

-- What a call knows about its own registrations and ids stays true of its next tokens.
private theorem owned_step {a : Act} {r : a.Resp}
    (h : Owned s.registry.history call (part Tok.inner? (e + F)))
    (hhome : ∀ sid rt, .registry (.sees sid rt) ∈ e → .opened sid rt ∈ s.registry.history)
    (hm : Moves cfg m call a r e e') (hr : a.exec cfg call choice s = some (r, s')) :
    Owned s'.registry.history call (part Tok.inner? (e' + F)) := by
  obtain ⟨b, v, d, d', rfl, rfl, hreg, hans, rfl⟩ | ⟨connection, G, rfl, rfl, rfl⟩ |
    ⟨he, hreg, -⟩ := hm.registry_cases hr
  · rw [part_add, part_registry] at h ⊢
    refine h.step (fun sid rt hmem ↦ hhome sid rt ?_) hreg hans
    exact Multiset.mem_map_of_mem _ hmem
  · show Owned s.registry.history call _
    refine owned_of_part h ?_ ?_
    · simp [Tok.inner?, Registry.Tok.registered?]
    · simp [Tok.inner?, Registry.Tok.id?]
  · rw [hreg, part_add, he, ← part_add]
    exact h

private theorem countP_append_eq {es : List Event} {c : Nat}
    (hhist : s'.history = s.history ++ es) (hes : ∀ x ∈ es, x.requestOf c = false) :
    s'.history.countP (Event.requestOf c) = s.history.countP (Event.requestOf c) := by
  have hzero : es.countP (Event.requestOf c) = 0 :=
    List.countP_eq_zero.mpr fun x hx ↦ by simp [hes x hx]
  rw [hhist, List.countP_append, hzero, add_zero]

/-- A call accounts for its own steps. -/
theorem Account.step {a : Act} {r : a.Resp} (h : Account s call (e + F))
    (hhome : ∀ sid rt, .registry (.sees sid rt) ∈ e → .opened sid rt ∈ s.registry.history)
    (hexclusive : m.exclusive = true) (hm : Moves cfg m call a r e e')
    (hr : a.exec cfg call choice s = some (r, s')) : Account s' call (e' + F) := by
  refine ⟨owned_step h.owned hhome hm hr, ?_⟩
  have hold := h.ticket
  obtain ⟨connection, sid, packet, token, rfl, rfl, -, rfl⟩ | ⟨es, hhist, hes, he⟩ :=
    hm.history_cases hexclusive hr
  · have hcount : (s.record [.enqueued call connection (some sid) packet]).history.countP
        (Event.requestOf call) ≤ s.history.countP (Event.requestOf call) + 1 := by
      simp only [State.record, List.countP_append]
      exact Nat.add_le_add_left List.countP_le_length _
    simp only [part_add, part_singleton, Tok.ticket?, Option.elim_some, Option.elim_none,
      Multiset.card_add, Multiset.card_singleton, Multiset.card_zero] at hold ⊢
    omega
  · rw [countP_append_eq hhist fun x hx ↦ hes x hx call, part_add, he, ← part_add]
    exact hold

/-- A call enqueues no request of another. -/
theorem Moves.countP_other {a : Act} {r : a.Resp} {c : Nat} (hm : Moves cfg m call a r e e')
    (hexclusive : m.exclusive = true) (hr : a.exec cfg call choice s = some (r, s'))
    (hc : c ≠ call) :
    s'.history.countP (Event.requestOf c) = s.history.countP (Event.requestOf c) := by
  obtain ⟨connection, sid, packet, token, -, -, -, rfl⟩ | ⟨es, hhist, hes, -⟩ :=
    hm.history_cases hexclusive hr
  · refine countP_append_eq rfl fun x hx ↦ ?_
    rw [List.mem_singleton.mp hx]
    simp [Event.requestOf, Ne.symm hc]
  · exact countP_append_eq hhist fun x hx ↦ hes x hx c

/-- The steps of one call do not touch the account of another. -/
theorem Account.other {a : Act} {r : a.Resp} {c : Nat} (h : Account s c d) (hc : c ≠ call)
    (hexclusive : m.exclusive = true) (hm : Moves cfg m call a r e e')
    (hr : a.exec cfg call choice s = some (r, s')) : Account s' c d := by
  refine ⟨h.owned.mono (hm.registry_subset hr), ?_⟩
  rw [hm.countP_other hexclusive hr hc]
  exact h.ticket

private theorem outbound?_eq_none {x : Event} (h : ∀ c, x.requestOf c = false) :
    x.outbound? = none := by
  cases x with
  | enqueued c connection expected packet =>
    have hpacket := h c
    cases expected with
    | none => rfl
    | some sid =>
      have hne : packet.header.packetType ≠ .request := by simpa [Event.requestOf] using hpacket
      exact if_neg hne
  | _ => rfl

private theorem request?_of_key {token : RequestToken} {sid : SessionId} {id : UInt32}
    (h : token.key = .outbound (some sid) id) : token.request? = some (sid, id) := by
  obtain ⟨sid', id', direction, generation⟩ := token
  cases direction with
  | inbound => cases h
  | outbound =>
    cases h
    rfl

private theorem Registered.mono {c : Nat} {expected : Option SessionId} {packet : Packet}
    (h : Registered s c expected packet)
    (hsub : s.registry.history ⊆ s'.registry.history) : Registered s' c expected packet := by
  obtain ⟨sid, token, hexpected, hmem, hkey⟩ := h
  exact ⟨sid, token, hexpected, hsub hmem, hkey⟩

-- The pair of a request that a call may still enqueue is new.
private theorem Requested.fresh {sid : SessionId} {packet : Packet} {token : RequestToken}
    (h : Requested s) {D : Multiset Registry.Tok} (hids : Ids s.registry D)
    (hkey : token.key = .outbound (some sid) packet.header.messageId)
    (htoken : .registered call token ∈ s.registry.history)
    (hnone : s.history.countP (Event.requestOf call) = 0) :
    (sid, packet.header.messageId) ∉ s.history.filterMap Event.outbound? := by
  intro hmem
  obtain ⟨x, hx, hout⟩ := List.mem_filterMap.mp hmem
  cases x with
  | enqueued c connection expected packet' =>
    cases expected with
    | none => cases hout
    | some sid' =>
      simp only [Event.outbound?] at hout
      split at hout
      next hpacket =>
        obtain ⟨rfl, hid⟩ := Prod.mk.inj (Option.some.inj hout)
        obtain ⟨_, token', hsid, hmem', hkey'⟩ := h.registered c connection _ packet' hx hpacket
        cases hsid
        rw [hid] at hkey'
        have hsame := hids.registered_event htoken hmem' (request?_of_key hkey)
          (request?_of_key hkey')
        have hcall : Event.requestOf call (.enqueued c connection (some sid') packet') = true := by
          simp [Event.requestOf, hpacket, hsame.1]
        exact List.countP_eq_zero.mp hnone _ hx hcall
      next => cases hout
  | _ => cases hout

/-- Every action keeps the enqueued requests in order. -/
theorem Requested.step {a : Act} {r : a.Resp} (h : Requested s) (haccount : Account s call (e + F))
    {D : Multiset Registry.Tok} (hids : Ids s.registry D) (hexclusive : m.exclusive = true)
    (hrouted : m.registry.routed = true) (hm : Moves cfg m call a r e e')
    (hr : a.exec cfg call choice s = some (r, s')) : Requested s' := by
  have hsub := hm.registry_subset hr
  have hsourced : Sourced s'.registry.history := by
    obtain ⟨b, v, d, d', rfl, -, hreg, hans, rfl⟩ | ⟨connection, G, -, -, rfl⟩ | ⟨-, hreg, -⟩ :=
      hm.registry_cases hr
    · have howned := haccount.owned
      rw [part_add, part_registry] at howned
      exact h.sourced.step howned hrouted hreg hans
    · exact h.sourced
    · rw [hreg]
      exact h.sourced
  obtain ⟨connection, sid, packet, token, rfl, rfl, hkey, rfl⟩ | ⟨es, hhist, hes, -⟩ :=
    hm.history_cases hexclusive hr
  · have htoken : .registered call token ∈ s.registry.history := by
      apply haccount.owned.registered
      simp [Tok.inner?, Registry.Tok.registered?]
    have hnone : s.history.countP (Event.requestOf call) = 0 := by
      have hticket := haccount.ticket
      simp only [part_add, part_singleton, Tok.ticket?, Option.elim_some, Option.elim_none,
        Multiset.card_add, Multiset.card_singleton, Multiset.card_zero] at hticket
      omega
    refine ⟨hsourced, fun c n expected packet' hmem hpacket ↦ ?_, ?_⟩
    · obtain hmem | hmem := List.mem_append.mp hmem
      · exact h.registered c n expected packet' hmem hpacket
      · cases List.mem_singleton.mp hmem
        exact ⟨sid, token, rfl, htoken, hkey⟩
    · simp only [State.record, List.filterMap_append]
      refine List.nodup_append.mpr ⟨h.once, ?_, fun p hp q hq hpq ↦ ?_⟩
      · simp only [List.filterMap_cons, List.filterMap_nil]
        split <;> simp
      · subst hpq
        have hq' : p = (sid, packet.header.messageId) := by
          simp only [List.filterMap_cons, List.filterMap_nil, Event.outbound?] at hq
          split at hq
          next => cases hq
          next heq =>
            split at heq
            next => rw [List.mem_singleton.mp hq, ← Option.some.inj heq]
            next => cases heq
        rw [hq'] at hp
        exact h.fresh hids hkey htoken hnone hp
  · have hnone : es.filterMap Event.outbound? = [] :=
      List.filterMap_eq_nil_iff.mpr fun x hx ↦ outbound?_eq_none (hes x hx)
    refine ⟨hsourced, fun c n expected packet hmem hpacket ↦ ?_, ?_⟩
    · rw [hhist, List.mem_append] at hmem
      obtain hmem | hmem := hmem
      · exact (h.registered c n expected packet hmem hpacket).mono hsub
      · have hfalse := hes _ hmem c
        simp [Event.requestOf, hpacket] at hfalse
    · rw [hhist, List.filterMap_append, hnone, List.append_nil]
      exact h.once

end Account

section Draws

open Prog

variable {cfg : Setup}

end Draws

/-- A call of the client, or of a task behind it. -/
inductive ClientOp where
  | connect (connection : Nat)
  | disconnect (force : Bool)
  | request (data : Bytes)
  | requestWithOptions (data : Bytes) (options : SendOptions) (timeout : Option Duration)
  | sendMessage (data : Bytes)
  | sendDetached (data : Bytes)
  | sendWithOptions (data : Bytes) (options : SendOptions)
  /-- The consumer task of a connection. -/
  | consume (sessionId : SessionId) (events : List TransportEvent)
  /-- The answer to an inbound request; `client.rs:779–822`. -/
  | respond (packet : Packet) (sessionId : SessionId)
  | registry (o : Registry.Op)
  deriving DecidableEq

/-- What a call returns. -/
inductive ClientOutcome where
  | unit
  | connected (result : Except Failure SessionId)
  | response (result : Except Failure Bytes)
  | sent (result : Except Failure Unit)
  | registry (v : Registry.Outcome)

/-- The program of a call. -/
def ClientOp.body (cfg : Setup) : ClientOp → Task ClientOutcome
  | .connect connection => do
    let result ← Client.connect connection
    pure (.connected result)
  | .disconnect force => do
    let result ← Client.disconnect cfg force
    pure (.sent result)
  | .request data => do
    let result ← Client.request cfg data
    pure (.response result)
  | .requestWithOptions data options timeout => do
    let result ← Client.requestWithOptions cfg data options timeout
    pure (.response result)
  | .sendMessage data => do
    let result ← Client.sendMessage data
    pure (.sent result)
  | .sendDetached data => do
    let result ← Client.sendDetached data
    pure (.sent result)
  | .sendWithOptions data options => do
    let result ← Client.sendWithOptions cfg data options
    pure (.sent result)
  | .consume sid events => do
    Client.consume cfg sid events
    pure .unit
  | .respond packet sid => do
    let result ← Client.sendConfirmedWith packet (some sid)
    pure (.sent result)
  | .registry o => do
    let v ← onRegistry (o.body cfg.registry)
    pure (.registry v)

/-- A client and its callers. -/
def client (cfg : Setup) : System Act Act.Resp State ClientOp ClientOutcome where
  exec := Act.exec cfg
  body := ClientOp.body cfg

/-- The calls that responders and the timeout scanner make on the registry. -/
def Background : Registry.Op → Prop
  | .beginRespond _ | .finishRespond .. | .abortRequestToken _ | .scanTimeoutBucket => True
  | _ => False

instance (o : Registry.Op) : Decidable (Background o) := by
  unfold Background
  split <;> infer_instance

/-- The connection that is handed to a call. -/
def ClientOp.hands? : ClientOp → Option Nat
  | .connect connection => some connection
  | _ => none

/-- When a call may be made: a protocol builds a new connection for every `connect`, and a responder
sends a response. -/
def mayInvoke (c : Base.Config Act Act.Resp State ClientOp ClientOutcome) : ClientOp → Prop
  | .connect connection => (∀ call ∈ c.calls, call.op.hands? ≠ some connection) ∧
    connection ∉ c.shared.history.filterMap Event.brings?
  | .respond packet _ => packet.header.packetType = .response
  | .registry o => Background o
  | _ => True

instance (c : Base.Config Act Act.Resp State ClientOp ClientOutcome) (o : ClientOp) :
    Decidable (mayInvoke c o) :=
  match o with
  | .connect connection => inferInstanceAs (Decidable ((∀ call ∈ c.calls,
      call.op.hands? ≠ some connection) ∧ connection ∉ c.shared.history.filterMap Event.brings?))
  | .respond packet _ => inferInstanceAs (Decidable (packet.header.packetType = .response))
  | .registry o => inferInstanceAs (Decidable (Background o))
  | .disconnect _ | .request _ | .requestWithOptions .. | .sendMessage _ | .sendDetached _
  | .sendWithOptions .. | .consume .. => inferInstanceAs (Decidable True)

/-- The users of a client. -/
def users : System.Env Act Act.Resp State ClientOp ClientOutcome where
  mayStart := mayInvoke
  mayAct := fun _ _ ↦ True

instance (c : Base.Config Act Act.Resp State ClientOp ClientOutcome) (o : ClientOp) :
    Decidable (users.mayStart c o) := inferInstanceAs (Decidable (mayInvoke c o))

instance (a : Act) (s : State) : Decidable (users.mayAct a s) :=
  inferInstanceAs (Decidable True)

/-- The tokens a call starts with. -/
def ClientOp.start (call : Nat) : ClientOp → Multiset Tok
  | .connect connection => {.installing connection}
  | .request _ | .requestWithOptions .. => {.ticket}
  | .consume sid events => arrivalsFor .client call sid events
  | _ => 0

/-- The call makes a request. -/
def ClientOp.requests : ClientOp → Bool
  | .request _ | .requestWithOptions .. => true
  | _ => false

/-- What the calls promise: nothing but to keep to the rules, and to enqueue requests only where they
make one. -/
def clientContract : Contract ClientOp ClientOutcome Tok where
  start := fun t o d ↦ d = o.start t
  ok := fun t o x ↦ (x.Within t (fun _ ↦ True) ∧ x.Carried o.hands?) ∧
    (x = .ticket → o.requests = true)
  post := fun _ _ _ _ ↦ True

section Calls

variable {cfg : Setup} {t : Nat}

/-- Every call follows the rules. -/
theorem ClientOp.body_keeps (o : ClientOp) (hbackground : ∀ o', o = .registry o' → Background o')
    (hresponse : ∀ packet sid, o = .respond packet sid → packet.header.packetType = .response) :
    Keeps cfg .client t (fun _ ↦ True) (fun _ _ ↦ True) (o.body cfg) (o.start t) := by
  have hret : ∀ {v : ClientOutcome} {d : Multiset Tok},
      Keeps cfg .client t (fun _ ↦ True) (fun _ _ ↦ True) (pure v) d := follows_ret trivial
  have hP : ∀ sid : Option SessionId, (fun _ ↦ True : Option SessionId → Prop) sid :=
    fun _ ↦ trivial
  cases o with
  | connect connection =>
    rw [start, ← add_zero ({Tok.installing connection} : Multiset Tok)]
    exact connect_spec hP fun r G ↦ hret
  | disconnect force => exact disconnect_spec hP fun r G ↦ hret
  | request data =>
    rw [start, ← add_zero ({Tok.ticket} : Multiset Tok)]
    exact request_spec hP fun r G ↦ hret
  | requestWithOptions data options timeout =>
    rw [start, ← add_zero ({Tok.ticket} : Multiset Tok)]
    exact requestWithOptions_spec hP fun r G ↦ hret
  | sendMessage data => exact sendMessage_spec fun r G ↦ hret
  | sendDetached data => exact sendDetached_spec fun r G ↦ hret
  | sendWithOptions data options => exact sendWithOptions_spec fun r G ↦ hret
  | consume sid events =>
    rw [start, ← add_zero (arrivalsFor _ _ _ _)]
    exact consume_spec trivial fun G ↦ hret
  | respond packet sid =>
    have hpacket : packet.header.packetType ≠ .request := by
      rw [hresponse packet sid rfl]
      decide
    exact sendConfirmedWith_plain hpacket fun r G ↦ hret
  | registry o =>
    have hbody : Registry.Keeps cfg.registry Mode.client.registry t (fun _ ↦ True)
        (fun _ _ ↦ True) (o.body cfg.registry) 0 := by
      have hend : ∀ {v : Registry.Outcome} {d : Multiset Registry.Tok},
          Registry.Keeps cfg.registry Mode.client.registry t (fun _ ↦ True) (fun _ _ ↦ True)
            (pure v) d := follows_ret trivial
      have hb := hbackground o rfl
      cases o with
      | beginRespond token =>
        exact beginRespond_spec (F := 0) trivial hend fun _ _ ↦ hend
      | finishRespond token confirmed =>
        exact finishRespond_spec (F := 0) trivial (by simp [Mode.client]) fun _ ↦ hend
      | abortRequestToken token => exact abortRequestToken_spec trivial fun _ ↦ hend
      | scanTimeoutBucket => exact scanTimeoutBucket_spec hP fun _ ↦ hend
      | _ => exact hb.elim
    exact onRegistry_free hbody fun v d _ ↦ hret

/-- The invariant of a client. -/
structure Kept (s : State) (D : Multiset Tok) : Prop where
  bound : Bound s D
  borrowed : Borrowed s D
  numbered : Numbered s D

/-- The token says nothing about the state: a ticket, or a response that arrived. -/
def Tok.inert : Tok → Bool
  | .ticket | .registry (.response ..) => true
  | _ => false

private theorem mem_arrivals {sid : SessionId} {events : List TransportEvent} {x : Tok}
    (hx : x ∈ arrivalsFor .client t sid events) :
    ∃ id packet, x = .registry (.response t (some sid) id packet false) := by
  induction events with
  | nil => cases hx
  | cons event events ih =>
    rw [arrivalsFor, List.map_cons, List.sum_cons] at hx
    obtain hx | hx := Multiset.mem_add.mp hx
    · unfold arrivalFor at hx
      split at hx
      next packet =>
        obtain ⟨y, hy, rfl⟩ := Multiset.mem_map.mp hx
        rw [mem_responseFor hy]
        exact ⟨_, _, rfl⟩
      next => cases hx
    · exact ih hx

private theorem part_inert {β : Type} {f : Tok → Option β} {d : Multiset Tok}
    (hd : ∀ x ∈ d, x.inert = true) (hf : ∀ x, x.inert = true → f x = none) : part f d = 0 :=
  part_eq_zero fun x hx ↦ hf x (hd x hx)

private theorem response_of_inert {d : Multiset Tok} (hd : ∀ x ∈ d, x.inert = true)
    {y : Registry.Tok} (hy : y ∈ part Tok.inner? d) :
    ∃ c sid id packet b, y = .response c sid id packet b := by
  obtain ⟨x, hx, hxy⟩ := mem_part.mp hy
  have hinert := hd x hx
  cases x with
  | registry z =>
    cases hxy
    cases y with
    | response c sid id packet b => exact ⟨c, sid, id, packet, b, rfl⟩
    | _ => cases hinert
  | _ => cases hxy

-- Tokens that say nothing about the state may be handed to a call.
private theorem Kept.grant {s : State} {d D : Multiset Tok} (h : Kept s D)
    (hd : ∀ x ∈ d, x.inert = true) : Kept s (d + D) := by
  obtain ⟨hbound, hborrowed, hnumbered⟩ := h
  have hpart : ∀ {β : Type} (f : Tok → Option β), (∀ x, x.inert = true → f x = none) →
      part f (d + D) = part f D := by
    intro β f hf
    rw [part_add, part_inert hd hf, zero_add]
  have hregistry : ∀ {β : Type} (f : Registry.Tok → Option β),
      (∀ c sid id packet b, f (.response c sid id packet b) = none) →
      part f (part Tok.inner? (d + D)) = part f (part Tok.inner? D) := by
    intro β f hf
    rw [part_add, part_add, part_eq_zero, zero_add]
    intro y hy
    obtain ⟨c, sid, id, packet, b, rfl⟩ := response_of_inert hd hy
    exact hf c sid id packet b
  have hdrawn : drawnSessions s.registry (part Tok.inner? (d + D)) =
      drawnSessions s.registry (part Tok.inner? D) := by
    rw [drawnSessions, hregistry _ fun _ _ _ _ _ ↦ rfl]
    rfl
  refine ⟨{ hbound with base := ?_, tokens := fun x hx ↦ ?_, owned := ?_ }, ⟨?_, ?_, ?_, ?_⟩,
    ⟨?_, ?_, ?_⟩⟩
  · rw [part_add]
    refine hbound.base.assume (fun y hy ↦ ?_) fun y hy ↦ ?_
    all_goals
      obtain ⟨c, sid, id, packet, b, rfl⟩ := response_of_inert hd hy
      trivial
  · obtain hx | hx := Multiset.mem_add.mp hx
    · have hinert := hd x hx
      cases x with
      | registry | ticket => trivial
      | _ => cases hinert
    · exact hbound.tokens x hx
  · rw [hpart _ (by rintro (_ | _) h <;> first | rfl | cases h)]
    exact hbound.owned
  · rw [hpart _ (by rintro (_ | _) h <;> first | rfl | cases h)]
    exact hborrowed.sharing
  · rw [hpart _ (by rintro (_ | _) h <;> first | rfl | cases h)]
    exact hborrowed.owning
  · exact hborrowed.apart
  · rw [hpart _ (by rintro (_ | _) h <;> first | rfl | cases h)]
    exact hborrowed.seen
  · refine hnumbered.ids.of_le (le_of_eq ?_)
    exact hregistry _ fun _ _ _ _ _ ↦ rfl
  · rw [hdrawn]
    exact hnumbered.once
  · rw [hdrawn]
    exact hnumbered.below

-- A connection that was never handed over may be.
private theorem Kept.hand {s : State} {connection : Nat} {D : Multiset Tok} (h : Kept s D)
    (hfree : connection ∉ part Tok.installing? D)
    (hnew : connection ∉ s.history.filterMap Event.brings?) :
    Kept s ({.installing connection} + D) := by
  obtain ⟨hbound, hborrowed, hnumbered⟩ := h
  have hb := hborrowed
  have hn := hnumbered
  rw [← zero_add D] at hb hn
  refine ⟨hbound.hand hfree hnew, ?_, ?_⟩
  · exact hb.frame rfl rfl (fun _ hs ↦ hs) (by simp [Tok.sharing?]) (by simp [Tok.owning?])
  · exact hn.still rfl (by simp [Tok.inner?]) rfl

private theorem clientStart_cases (o : ClientOp) :
    (∃ connection, o = .connect connection ∧ o.start t = {.installing connection}) ∨
      ∀ x ∈ o.start t, x.inert = true ∧ x.Within t fun _ ↦ True := by
  cases o with
  | connect connection => exact .inl ⟨connection, rfl, rfl⟩
  | consume sid events =>
    right
    intro x hx
    obtain ⟨id, packet, rfl⟩ := mem_arrivals hx
    exact ⟨rfl, rfl, trivial⟩
  | request | requestWithOptions => exact .inr (by simp [ClientOp.start, Tok.inert, Tok.Within])
  | _ => exact .inr (by simp [ClientOp.start])

/-- What the calls have done themselves. -/
structure Accounts (c : Base.Config Act Act.Resp State ClientOp ClientOutcome)
    (ds : Nat → Multiset Tok) : Prop where
  accounts : ∀ t, t < c.calls.length → Account c.shared t (ds t)
  callers : ∀ t connection expected packet,
    .enqueued t connection expected packet ∈ c.shared.history →
      packet.header.packetType = .request →
      ∃ call, c.calls[t]? = some call ∧ call.op.requests = true
  requested : Requested c.shared

private theorem account_start {s : State} (o : ClientOp)
    (hunused : s.history.countP (Event.requestOf t) = 0) : Account s t (o.start t) := by
  have hregistry : ∀ {β : Type} (f : Registry.Tok → Option β),
      (∀ c sid id packet b, f (.response c sid id packet b) = none) →
      part f (part Tok.inner? (o.start t)) = 0 := by
    intro β f hf
    obtain ⟨connection, rfl, hstart⟩ | hinert := clientStart_cases (t := t) o
    · simp [hstart, Tok.inner?]
    · refine part_eq_zero fun y hy ↦ ?_
      obtain ⟨c, sid, id, packet, b, rfl⟩ := response_of_inert (fun x hx ↦ (hinert x hx).1) hy
      exact hf c sid id packet b
  refine ⟨.of_part_eq_zero (hregistry _ fun _ _ _ _ _ ↦ rfl) (hregistry _ fun _ _ _ _ _ ↦ rfl), ?_⟩
  rw [hunused, add_zero]
  cases o with
  | consume sid events =>
    rw [part_eq_zero]
    · simp
    · intro x hx
      obtain ⟨id, packet, rfl⟩ := mem_arrivals hx
      rfl
  | request | requestWithOptions => simp [ClientOp.start, Tok.ticket?]
  | _ => simp [ClientOp.start, Tok.ticket?]

-- A call that was not made has enqueued nothing.
private theorem Accounts.unused {c : Base.Config Act Act.Resp State ClientOp ClientOutcome}
    {ds : Nat → Multiset Tok} (h : Accounts c ds) {t : Nat} (ht : c.calls.length ≤ t) :
    c.shared.history.countP (Event.requestOf t) = 0 := by
  refine List.countP_eq_zero.mpr fun x hx hrequest ↦ ?_
  cases x with
  | enqueued call connection expected packet =>
    simp only [Event.requestOf, Bool.and_eq_true, decide_eq_true_eq] at hrequest
    obtain ⟨rfl, hpacket⟩ := hrequest
    obtain ⟨call, hcall, -⟩ := h.callers _ connection expected packet hx hpacket
    have hlt := (List.getElem?_eq_some_iff.mp hcall).1
    omega
  | _ => cases hrequest

-- What is enqueued next is enqueued by a call that makes a request.
private theorem Accounts.callers_run {c : Base.Config Act Act.Resp State ClientOp ClientOutcome}
    {ds : Nat → Multiset Tok} (hb : Balanced (rules cfg .client) clientContract Kept c ds)
    (h : Accounts c ds) {choice : Nat} {o : ClientOp} {a : Act} {k : a.Resp → Task ClientOutcome}
    {r : a.Resp} {s : State} {e e' F : Multiset Tok} (hc : c.calls[t]? = some ⟨o, .act a k⟩)
    (hexec : a.exec cfg t choice c.shared = some (r, s)) (hd : ds t = e + F)
    (hm : Moves cfg .client t a r e e') (t' connection : Nat) (expected : Option SessionId)
    (packet : Packet) (hmem : .enqueued t' connection expected packet ∈ s.history)
    (hpacket : packet.header.packetType = .request) :
    ∃ call, c.calls[t']? = some call ∧ call.op.requests = true := by
  obtain ⟨n, sid, packet', token, rfl, -, -, rfl⟩ | ⟨es, hhist, hes, -⟩ := hm.history_cases rfl hexec
  · obtain hmem | hmem := List.mem_append.mp hmem
    · exact h.callers t' connection expected packet hmem hpacket
    · cases List.mem_singleton.mp hmem
      have hticket : .ticket ∈ ds t := by simp [hd]
      exact ⟨_, hc, (hb.inScope t _ hc _ hticket).2 rfl⟩
  · rw [hhist, List.mem_append] at hmem
    obtain hmem | hmem := hmem
    · exact h.callers t' connection expected packet hmem hpacket
    · have hfalse := hes _ hmem t'
      simp [Event.requestOf, hpacket] at hfalse

private theorem Accounts.step {c c' : Base.Config Act Act.Resp State ClientOp ClientOutcome}
    {ds ds' : Nat → Multiset Tok} (hb : Balanced (rules cfg .client) clientContract Kept c ds)
    (h : Accounts c ds)
    (ht : Tracks (client cfg) users (rules cfg .client) clientContract c ds c' ds') :
    Accounts c' ds' := by
  cases ht with
  | @start o d _ hd =>
    refine ⟨fun t ht ↦ ?_, fun t connection expected packet hmem hpacket ↦ ?_, h.requested⟩
    · by_cases heq : t = c.calls.length
      · subst heq
        rw [Function.update_self, show d = o.start c.calls.length from hd]
        exact account_start o (h.unused (Nat.le_refl _))
      · rw [Function.update_of_ne heq]
        refine h.accounts t ?_
        simp only [List.length_append, List.length_singleton] at ht
        omega
    · obtain ⟨call, hcall, hrequests⟩ := h.callers t connection expected packet hmem hpacket
      have hlt := (List.getElem?_eq_some_iff.mp hcall).1
      exact ⟨call, by rw [List.getElem?_append_left hlt, hcall], hrequests⟩
  | @run t choice o a k r s e e' F hc _ hexec hd hm =>
    have hlt : t < c.calls.length := (List.getElem?_eq_some_iff.mp hc).1
    have haccount := h.accounts t hlt
    rw [hd] at haccount
    have hhome : ∀ sid rt, .registry (.sees sid rt) ∈ e →
        .opened sid rt ∈ c.shared.registry.history := by
      intro sid rt hmem
      have htotal : .registry (.sees sid rt) ∈ total ds c.calls.length := by
        refine mem_total.mpr ⟨t, hlt, ?_⟩
        rw [hd]
        exact Multiset.mem_add.mpr (.inl hmem)
      exact hb.inv.bound.base.home.tokens _ (mem_part.mpr ⟨_, htotal, rfl⟩)
    refine ⟨fun t' ht' ↦ ?_, fun t' connection expected packet hmem hpacket ↦ ?_, ?_⟩
    · by_cases heq : t' = t
      · subst heq
        rw [Function.update_self]
        exact haccount.step hhome rfl hm hexec
      · rw [Function.update_of_ne heq]
        rw [List.length_set] at ht'
        exact (h.accounts t' ht').other heq rfl hm hexec
    · obtain ⟨call, hcall, hrequests⟩ :=
        h.callers_run hb hc hexec hd hm t' connection expected packet hmem hpacket
      by_cases heq : t' = t
      · subst heq
        rw [hc] at hcall
        cases hcall
        exact ⟨_, List.getElem?_set_self hlt, hrequests⟩
      · exact ⟨call, by rw [List.getElem?_set_ne (Ne.symm heq), hcall], hrequests⟩
    · exact h.requested.step haccount hb.inv.numbered.ids rfl rfl hm hexec

end Calls

private theorem accounts_init {ds : Nat → Multiset Tok} :
    Accounts (⟨.new, []⟩ : Base.Config Act Act.Resp State ClientOp ClientOutcome) ds := by
  refine ⟨by simp, by simp [State.new], ⟨?_, ?_, ?_⟩⟩
  all_goals simp [State.new, Registry.State.new, Sourced]

end MsgTrans.Client
