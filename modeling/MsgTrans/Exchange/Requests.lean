import MsgTrans.Client.Generations
import MsgTrans.Exchange.Ownership

/-!
# The request exchange of the server: whose answers the requests get

Requests of a server on any of its sessions, the response packets that come in there, late, twice or
under ids that the peer made up, timeouts, dropped futures and closed sessions, in any order and
interleaved at every access to what they share
(`crates/msgtrans/src/transport/transport_server.rs:324–513,770–806`). Every answer is a response
that arrived on the session of the request, under the id the request drew there, after the request
was registered.
-/

namespace MsgTrans.Exchange

open MsgTrans.Wire MsgTrans.Adapters MsgTrans.Base MsgTrans.Registry MsgTrans.Transport
open MsgTrans.Client (Setup plainSetup)

/-- The call made this request on the session, under an id it drew from the session's counter. -/
structure Asked (h : List Registry.Event) (t : Nat) (sid : SessionId) (token : RequestToken) :
    Prop where
  key : token.key = .outbound (some sid) token.requestId
  drew : Drew h t (sid, token.requestId)
  registered : .registered t token ∈ h

/-- Call `u` processed this packet for the session. -/
def Processed (c : Config Act Act.Resp State ServerOp ServerOutcome) (u : Nat) (sid : SessionId)
    (packet : Packet) : Prop :=
  ∃ pump, c.calls[u]? = some pump ∧ pump.op.Pumps sid packet

section Replies

variable {cfg : Setup} {c : Config Act Act.Resp State ServerOp ServerOutcome}
  {ds : Nat → Multiset Tok}

-- A packet in the calls' hands was processed by the call that came with it.
private theorem processed_of_arrival (h : Accounts c ds) {a : Arrival}
    (ha : a ∈ part Registry.Tok.arrival? (part Tok.inner? (total ds c.calls.length))) :
    ∃ sid, a.sessionId = some sid ∧ a.requestId = a.packet.header.messageId ∧
      Processed c a.call sid a.packet := by
  obtain ⟨y, hy, harrival⟩ := mem_part.mp ha
  obtain ⟨x, hx, hinner⟩ := mem_part.mp hy
  obtain ⟨t, ht, hx⟩ := mem_total.mp hx
  have hc : c.calls[t]? = some c.calls[t] := List.getElem?_eq_getElem ht
  have hmem : a ∈ part Registry.Tok.arrival? (part Tok.inner? (ds t)) :=
    mem_part.mpr ⟨y, mem_part.mpr ⟨x, hx, hinner⟩, harrival⟩
  obtain ⟨rfl, sid, hsid, hid, hpumps⟩ := h.pumped t _ hc a hmem
  exact ⟨sid, hsid, hid, _, hc, hpumps⟩

/-- The tokens of a call are among all tokens. -/
theorem mem_total_of_call {t : Nat} {call : Call Act Act.Resp ServerOp ServerOutcome}
    {x : Tok} (hc : c.calls[t]? = some call) (hx : x ∈ ds t) : x ∈ total ds c.calls.length :=
  mem_total.mpr ⟨t, (List.getElem?_eq_some_iff.mp hc).1, hx⟩

/-- A completion is the work of a call that processed a response for the request's session under the
request's id. -/
theorem completed_of_balanced (hb : Balanced (rules cfg) serverContract Kept c ds)
    (h : Accounts c ds) {u : Nat} {token : RequestToken} {source : RequestState}
    (hmem : .transition u .key token source .responded ∈ c.shared.registry.history) :
    ∃ sid packet, Processed c u sid packet ∧
      token.key = .outbound (some sid) packet.header.messageId := by
  obtain ⟨a, ha, rfl, -, hkey⟩ := hb.inv.registry.completed hmem
  obtain ⟨sid, hsid, hid, hprocessed⟩ := processed_of_arrival h ha
  refine ⟨sid, a.packet, hprocessed, ?_⟩
  rw [hkey, hsid, hid]

/-- Nothing was completed before that is completed now. -/
theorem unended_of_completed {D : Multiset Registry.Tok} {s : Registry.State}
    (h : Consistent serverMode s D) {u : Nat} {token : RequestToken} {source : RequestState}
    {h₁ h₂ : List Registry.Event}
    (hsplit : s.history = h₁ ++ .transition u .key token source .responded :: h₂) :
    token ∉ (endedBy h₁).map fun o ↦ o.2.2 := by
  have honce := h.base.core.ended_nodup
  have hhere : endedBy [.transition u .key token source .responded] =
      {(u, Caller.key, token)} := rfl
  rw [hsplit, List.append_cons, endedBy_append, endedBy_append, hhere, Multiset.map_add,
    Multiset.map_add, Multiset.map_singleton, add_assoc, Multiset.nodup_add] at honce
  obtain ⟨-, -, hdisjoint⟩ := honce
  intro hmem
  exact Multiset.disjoint_left.mp hdisjoint hmem (by simp)

/-- An answered request got the payload of a packet of its own. -/
theorem answered_of_balanced (hb : Balanced (rules cfg) serverContract Kept c ds)
    (h : Accounts c ds) {t : Nat} {call : Call Act Act.Resp ServerOp ServerOutcome} {data : Bytes}
    (hc : c.calls[t]? = some call) (hv : call.result? = some (.response (.ok data))) :
    ∃ sid token u packet source h₁ h₂, call.op.requestsOn? = some sid ∧
      Asked c.shared.registry.history t sid token ∧ Processed c u sid packet ∧
      packet.header.messageId = token.requestId ∧ packet.payload = data ∧
      c.shared.registry.history = h₁ ++ .transition u .key token source .responded :: h₂ ∧
      .registered t token ∈ h₁ := by
  have hpost := hb.post hc (Call.prog_of_result? hv)
  obtain ⟨sid, response, hop, hpayload, token, hdir, hsid, hminted, hgot⟩ := hpost.answered data rfl
  have hkey : token.key = .outbound (some sid) token.requestId := by
    rw [RequestToken.key, hdir, hsid]
  have hregistered : .registered t token ∈ c.shared.registry.history := by
    refine (h.owned t (List.getElem?_eq_some_iff.mp hc).1).registered token ?_
    exact mem_part.mpr ⟨.minted token, mem_part.mpr ⟨_, hminted, rfl⟩, rfl⟩
  obtain ⟨u, hdelivered⟩ := hb.inv.completions.facts _ (mem_total_of_call hc hgot)
  obtain ⟨a, ha, rfl, rfl, hakey, source, hcompleted⟩ :=
    hb.inv.registry.delivered rfl hdelivered hregistered
  obtain ⟨sid', hsid', hid, hprocessed⟩ := processed_of_arrival h ha
  have hsame : (RequestKey.outbound (some sid) token.requestId) =
      .outbound (some sid') a.packet.header.messageId := by
    rw [← hkey, hakey, hsid', hid]
  obtain ⟨hsids, hids⟩ : sid = sid' ∧ token.requestId = a.packet.header.messageId := by
    injection hsame with hs hi
    exact ⟨Option.some.inj hs, hi⟩
  subst hsids
  obtain ⟨h₁, h₂, t', hsplit, hfirst⟩ := hb.inv.registry.ordered hcompleted
  have hold : .registered t' token ∈ c.shared.registry.history := by
    rw [hsplit]
    exact List.mem_append_left _ hfirst
  obtain ⟨rfl, -⟩ := hb.inv.registry.registered_unique rfl hold hregistered hdir rfl
  have hdrew := h.sourced t' token _ hregistered (request?_of_outbound hdir hsid)
  exact ⟨sid, token, _, a.packet, source, h₁, h₂, hop, ⟨hkey, hdrew, hregistered⟩, hprocessed,
    hids.symm, hpayload, hsplit, hfirst⟩

end Replies

/-- Every answer belongs to its request. -/
structure RepliesOwned (c : Config Act Act.Resp State ServerOp ServerOutcome) : Prop where
  /-- An answered request registered an id that it drew from the counter of its session. A call that
  processed a response under that id on that session completed it, later than it was registered, and
  the answer is the payload of that response. -/
  answered : ∀ (t : Nat) (call : Call Act Act.Resp ServerOp ServerOutcome) (data : Bytes),
    c.calls[t]? = some call → call.result? = some (.response (.ok data)) →
      ∃ sid token u packet source h₁ h₂, call.op.requestsOn? = some sid ∧
        Asked c.shared.registry.history t sid token ∧ Processed c u sid packet ∧
        packet.header.messageId = token.requestId ∧ packet.payload = data ∧
        c.shared.registry.history = h₁ ++ .transition u .key token source .responded :: h₂ ∧
        .registered t token ∈ h₁
  /-- A response completes nothing but the one request of its session under its id, and that only as
  long as the request has not ended. -/
  completes : ∀ u token source h₁ h₂,
    c.shared.registry.history = h₁ ++ .transition u .key token source .responded :: h₂ →
      (∃ sid packet, Processed c u sid packet ∧
        token.key = .outbound (some sid) packet.header.messageId) ∧
      token ∉ (endedBy h₁).map (fun o ↦ o.2.2) ∧
      ∀ t token', .registered t token' ∈ c.shared.registry.history → token'.key = token.key →
        token' = token
  /-- No response completes two requests, and no request ends twice. -/
  once : ((c.shared.registry.history.filterMap Registry.Event.completed?).map fun p ↦ p.1).Nodup ∧
    ((endedBy c.shared.registry.history).map fun o ↦ o.2.2).Nodup
  /-- When every call has returned, a waiter is that of a request that has not ended. -/
  waiting : (∀ call ∈ c.calls, call.Returned) → ∀ key channel,
    c.shared.registry.waiters.lookup key = some channel →
      ∃ token ∈ c.shared.registry.regs, token.key = key ∧ token.generation = channel ∧
        c.shared.registry.ended token = false
  /-- Whoever waits for a request that has ended then has its answer, or knows that none comes. -/
  released : (∀ call ∈ c.calls, call.Returned) → ∀ t token,
    .registered t token ∈ c.shared.registry.history → c.shared.registry.ended token = true →
      c.shared.registry.channels token.generation ≠ .empty

/-- In every reachable state of a server's sessions, every answer belongs to its request. -/
theorem replies_owned (cfg : Setup) {c : Config Act Act.Resp State ServerOp ServerOutcome}
    (hc : (exchange cfg).Reaches anyTasks ⟨.new, []⟩ c) : RepliesOwned c := by
  obtain ⟨ds, hb, h⟩ := accounts_of_reaches hc
  have hregistry := hb.inv.registry
  constructor
  case answered => exact fun t call data hcall hv ↦ answered_of_balanced hb h hcall hv
  case completes =>
    intro u token source h₁ h₂ hsplit
    have hmem : .transition u .key token source .responded ∈ c.shared.registry.history := by
      rw [hsplit]
      simp
    refine ⟨completed_of_balanced hb h hmem, unended_of_completed hregistry hsplit,
      fun t token' htoken' hkey ↦ ?_⟩
    obtain ⟨g₁, g₂, t', hsplit', hfirst⟩ := hregistry.ordered hmem
    have htoken : .registered t' token ∈ c.shared.registry.history := by
      rw [hsplit']
      exact List.mem_append_left _ hfirst
    have hdir := hregistry.deliveries.outbound u token source hmem
    obtain ⟨-, heq⟩ := hregistry.registered_unique rfl htoken htoken' hdir hkey.symm
    exact heq.symm
  case once => exact ⟨hregistry.completes_once, hregistry.base.core.ended_nodup⟩
  case waiting =>
    intro hall key channel hlookup
    obtain ⟨token, hkey, hgen, hmem, hlive⟩ :=
      hregistry.waiter rfl (rest_of_returned hb hall).idle hlookup
    exact ⟨token, hmem, hkey, hgen, hlive⟩
  case released =>
    exact fun hall t token htoken hended ↦
      hregistry.answered rfl (rest_of_returned hb hall).idle htoken hended

/-- Requests under one id on two sessions, answered the other way round, and a late duplicate. -/
def crossedRun : List (Label ServerOp) :=
  Label.start ServerOp.addSession :: List.replicate 5 (Label.run 0 0) ++
    Label.start ServerOp.addSession :: List.replicate 5 (Label.run 1 0) ++
    Label.start (ServerOp.request 1 [5]) :: List.replicate 18 (Label.run 2 0) ++
    Label.start (ServerOp.request 2 [6]) :: List.replicate 18 (Label.run 3 0) ++
    Label.start (ServerOp.pumpOneEvent 2 (.data (.messageReceived (.response 1 [8])))) ::
      List.replicate 8 (Label.run 4 0) ++
    Label.start (ServerOp.pumpOneEvent 1 (.data (.messageReceived (.response 1 [7])))) ::
      List.replicate 8 (Label.run 5 0) ++
    Label.start (ServerOp.pumpOneEvent 1 (.data (.messageReceived (.response 1 [9])))) ::
      List.replicate 4 (Label.run 6 0) ++
    [.run 2 0, .run 3 0]

/-- What the calls of that run return. -/
def crossedResults : List (Option ServerOutcome) :=
  [some (.session 1), some (.session 2), some (.response (.ok [7])), some (.response (.ok [8])),
    some (.flag true), some (.flag true), some (.flag true)]

private theorem crossedRun_ends :
    ((exchange plainSetup).runAll anyTasks ⟨.new, []⟩ crossedRun).any (fun c ↦
      c.calls.all (fun call ↦ call.result?.isSome) &&
      c.calls.map (fun call ↦ call.result?) = crossedResults &&
      c.shared.registry.history.contains (.registered 2 ⟨some 1, 1, .outbound, 1⟩) &&
      c.shared.registry.history.contains (.registered 3 ⟨some 2, 1, .outbound, 2⟩)) = true := by
  decide +kernel

theorem replies_owned_of_crossed : ∃ c,
    (exchange plainSetup).Reaches anyTasks ⟨.new, []⟩ c ∧ (∀ call ∈ c.calls, call.Returned) ∧
      c.calls.map (fun call ↦ call.result?) = crossedResults ∧
      .registered 2 ⟨some 1, 1, .outbound, 1⟩ ∈ c.shared.registry.history ∧
      .registered 3 ⟨some 2, 1, .outbound, 2⟩ ∈ c.shared.registry.history ∧ RepliesOwned c := by
  obtain ⟨c, hc, hend⟩ := (Option.any_eq_true _ _).mp crossedRun_ends
  simp only [Bool.and_eq_true, decide_eq_true_eq, List.contains_iff_mem, List.all_eq_true] at hend
  obtain ⟨⟨⟨hall, hresults⟩, hfirst⟩, hsecond⟩ := hend
  have hreach := System.Reaches.of_runAll hc
  exact ⟨c, hreach, hall, hresults, hfirst, hsecond, replies_owned _ hreach⟩

end MsgTrans.Exchange
