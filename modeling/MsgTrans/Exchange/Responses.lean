import MsgTrans.Exchange.Requests

/-!
# The request exchange of the server: how often a request is answered

Requests that come in on any sessions, with handlers that answer them, drop their responders or are
dropped at an await, writes that succeed, fail or are dropped with their queue, timeouts and closed
sessions, in any order and interleaved at every access to what they share
(`crates/msgtrans/src/transport/session_actor.rs:246–309,558–592`, `request_registry.rs:735–870`,
`connection.rs:46–86`). A claim is taken at most once, before the request has ended; it is handed on
with its response and resolved where the response ends.
-/

namespace MsgTrans.Exchange

open MsgTrans.Wire MsgTrans.Adapters MsgTrans.Base MsgTrans.Registry MsgTrans.Transport
open MsgTrans.Client (Setup plainSetup)

/-- The claims that were taken. -/
def State.claimed (s : State) : Multiset RequestToken :=
  (s.registry.history.filterMap Registry.Event.claimed? : List RequestToken)

section Responses

variable {cfg : Setup} {c : Config Act Act.Resp State ServerOp ServerOutcome}
  {ds : Nat → Multiset Tok} {s : State} {D : Multiset Tok}

/-- A claim that was resolved in its completion was resolved. -/
theorem completed_le (s : State) : s.completed.map (fun p ↦ p.2) ≤ s.resolved := by
  have hsub : ∀ h : List Event,
      ((h.filterMap Event.completed?).map fun p ↦ p.2).Sublist (h.filterMap Event.resolved?) := by
    intro h
    induction h with
    | nil => simp
    | cons x h ih =>
      cases x with
      | handed => exact ih
      | resolved call completion claim b =>
        cases completion with
        | none => exact ih.cons claim
        | some n => exact ih.cons_cons claim
  exact Multiset.coe_le.mpr (hsub s.history).subperm

/-- The claims of the responses that were handed over are held or resolved. -/
theorem Kept.handed_le (h : Kept s D) :
    s.handed.map (fun p ↦ p.2.2) ≤ claimsHeld s D + s.resolved := by
  have hmap : s.handed.map (fun p ↦ p.2.2) =
      (s.handed.map fun p ↦ p.2).map fun p ↦ p.2 := by
    rw [Multiset.map_map]
    rfl
  rw [hmap, h.completions.balance, Multiset.map_add]
  exact add_le_add le_rfl (completed_le s)

/-- Every claim that is held or resolved was taken. -/
theorem Kept.held_le (h : Kept s D) : claimsHeld s D + s.resolved ≤ s.claimed := by
  have htaken := h.claims.taken
  rw [State.claimed, htaken]
  exact Multiset.le_add_left _ _

theorem Kept.claimed_nodup (h : Kept s D) : s.claimed.Nodup := by
  rw [State.claimed, h.claims.taken]
  exact h.claims.once

-- A claim was taken by a step of its registration, which had not ended.
private theorem taken_of_claimed (h : Kept s D) {claim : RequestToken} (hmem : claim ∈ s.claimed) :
    ∃ h₁ h₂ u caller source,
      s.registry.history = h₁ ++ .transition u caller claim source .responding :: h₂ ∧
      claim ∉ (endedBy h₁).map fun o ↦ o.2.2 := by
  obtain ⟨x, hx, hsome⟩ := List.mem_filterMap.mp (Multiset.mem_coe.mp hmem)
  obtain ⟨h₁, h₂, hsplit⟩ := List.append_of_mem hx
  have hunended := h.claims.unended h₁ x h₂ hsplit claim hsome
  unfold Registry.Event.claimed? at hsome
  split at hsome
  next u caller token source =>
    obtain rfl := Option.some.inj hsome
    exact ⟨h₁, h₂, u, caller, source, hsplit, hunended⟩
  next => cases hsome

private theorem mem_handed {t completion : Nat} {sid : SessionId} {packet : Packet}
    {claim : RequestToken} (hmem : .handed t completion sid packet claim ∈ s.history) :
    (t, completion, claim) ∈ s.handed :=
  Multiset.mem_coe.mpr (List.mem_filterMap.mpr ⟨_, hmem, rfl⟩)

-- A response was handed over by a call that dispatches requests of its key.
private theorem dispatches_of_handed (hb : Balanced (rules cfg) serverContract Kept c ds)
    {t completion : Nat} {claim : RequestToken}
    (hmem : (t, completion, claim) ∈ c.shared.handed) :
    ∃ call, c.calls[t]? = some call ∧ call.op.Asks claim := by
  rw [← hb.inv.completions.callers] at hmem
  obtain ⟨x, hx, hsome⟩ := mem_part.mp hmem
  obtain ⟨t', ht', hx⟩ := mem_total.mp hx
  have hc : c.calls[t']? = some c.calls[t'] := List.getElem?_eq_getElem ht'
  have hscope := hb.inScope t' _ hc x hx
  cases x with
  | awaits call n token =>
    cases hsome
    obtain ⟨rfl, hasks⟩ : t = t' ∧ c.calls[t'].op.Asks claim := hscope
    exact ⟨_, hc, hasks⟩
  | _ => cases hsome

/-- What is known of a response that was handed over. -/
theorem handed_of_balanced (hb : Balanced (rules cfg) serverContract Kept c ds)
    (h : Accounts c ds) {t completion : Nat} {sid : SessionId} {packet : Packet}
    {claim : RequestToken} (hmem : .handed t completion sid packet claim ∈ c.shared.history) :
    (∃ call, c.calls[t]? = some call ∧ call.op.Dispatches sid packet.header.messageId) ∧
      packet.header.packetType = .response ∧
      claim.key = .inbound (some sid) packet.header.messageId ∧
      .registered t claim ∈ c.shared.registry.history ∧
      ∃ h₁ h₂ u caller source,
        c.shared.registry.history =
          h₁ ++ .transition u caller claim source .responding :: h₂ ∧
        claim ∉ (endedBy h₁).map fun o ↦ o.2.2 := by
  obtain ⟨hkey, htype⟩ := hb.inv.completions.sound _ hmem
  obtain ⟨call, hc, sid', id', hdispatches, hkey'⟩ := dispatches_of_handed hb (mem_handed hmem)
  have hsame : RequestKey.inbound (some sid) packet.header.messageId =
      .inbound (some sid') id' := hkey.symm.trans hkey'
  obtain ⟨hsids, hids⟩ : sid = sid' ∧ packet.header.messageId = id' := by
    injection hsame with hs hi
    exact ⟨Option.some.inj hs, hi⟩
  subst hsids
  rw [← hids] at hdispatches
  have hclaimed : claim ∈ c.shared.claimed := by
    refine Multiset.mem_of_le (hb.inv.handed_le.trans hb.inv.held_le) ?_
    exact Multiset.mem_map_of_mem (fun p : Nat × Nat × RequestToken ↦ p.2.2) (mem_handed hmem)
  exact ⟨⟨call, hc, hdispatches⟩, htype, hkey, h.responders _ hmem,
    taken_of_claimed hb.inv hclaimed⟩

/-- A response that its call was told is written had its write confirmed. -/
theorem written_of_balanced (hb : Balanced (rules cfg) serverContract Kept c ds) {t : Nat}
    {call : Call Act Act.Resp ServerOp ServerOutcome} (hc : c.calls[t]? = some call)
    (hv : call.result? = some (.responded (some (.ok .written)))) :
    ∃ completion sid packet claim u, .handed t completion sid packet claim ∈ c.shared.history ∧
      .resolved u (some completion) claim true ∈ c.shared.history := by
  have hpost := hb.post hc (Call.prog_of_result? hv)
  obtain ⟨claim, completion, hawaits, htold⟩ := hpost.written rfl
  obtain ⟨u, claim', hresolved⟩ := hb.inv.completions.facts _ (mem_total_of_call hc htold)
  have hhanded : (t, completion, claim) ∈ c.shared.handed := by
    rw [← hb.inv.completions.callers]
    exact mem_part.mpr ⟨_, mem_total_of_call hc hawaits, rfl⟩
  have hcompleted : (completion, claim') ∈ c.shared.completed :=
    Multiset.mem_coe.mpr (List.mem_filterMap.mpr ⟨_, hresolved, rfl⟩)
  have hpair : (completion, claim') ∈ c.shared.handed.map fun p ↦ p.2 := by
    rw [hb.inv.completions.balance]
    exact Multiset.mem_add.mpr (.inr hcompleted)
  -- The completion is that of one response only.
  obtain ⟨p, hp, hpeq⟩ := Multiset.mem_map.mp hpair
  have hone : p = (t, completion, claim) :=
    Multiset.inj_on_of_nodup_map hb.inv.completions.once p hp _ hhanded (by rw [hpeq])
  subst hone
  obtain rfl : claim = claim' := congrArg Prod.snd hpeq
  obtain ⟨x, hx, hsome⟩ := List.mem_filterMap.mp (Multiset.mem_coe.mp hhanded)
  cases x with
  | handed t' n sid packet token =>
    cases hsome
    exact ⟨completion, sid, packet, claim, u, hx, hresolved⟩
  | resolved => cases hsome

-- At rest a claim is in the queue or resolved.
private theorem rest_claims {s : State} {D : Multiset Tok} (h : Rest D) :
    part Registry.Tok.claim? (part Tok.inner? D) = 0 ∧
      part Registry.Tok.held? (part Tok.inner? D) = 0 ∧
      claimsHeld s D = s.queued.map fun p ↦ p.2 := by
  have hinner : ∀ y ∈ part Tok.inner? D, y.claim? = none ∧ y.held? = none := by
    intro y hy
    obtain ⟨x, hx, hsome⟩ := mem_part.mp hy
    have hrest := h x hx
    cases x with
    | registry z =>
      cases hsome
      obtain ⟨hidle, hclaim⟩ := hrest
      cases y with
      | claim token => exact absurd rfl (hclaim token)
      | resolving => exact hidle.elim
      | _ => exact ⟨rfl, rfl⟩
    | _ => cases hsome
  have hlent : part Tok.lent? D = 0 := part_eq_zero fun x hx ↦ by
    have hrest := h x hx
    cases x with
    | lent => exact hrest.elim
    | _ => rfl
  refine ⟨part_eq_zero fun y hy ↦ (hinner y hy).1, part_eq_zero fun y hy ↦ (hinner y hy).2, ?_⟩
  rw [claimsHeld, inTransit, hlent, zero_add]

end Responses

/-- Every request is answered at most once, and every claim finds its end. -/
structure ResponsesOwned (c : Config Act Act.Resp State ServerOp ServerOutcome) : Prop where
  /-- A response was handed to a writer by the call that dispatched and registered the request, and
  the registration was claimed before, when it had not ended. -/
  handed : ∀ t completion sid packet claim,
    .handed t completion sid packet claim ∈ c.shared.history →
      (∃ call, c.calls[t]? = some call ∧ call.op.Dispatches sid packet.header.messageId) ∧
      packet.header.packetType = .response ∧
      claim.key = .inbound (some sid) packet.header.messageId ∧
      .registered t claim ∈ c.shared.registry.history ∧
      ∃ h₁ h₂ u caller source,
        c.shared.registry.history =
          h₁ ++ .transition u caller claim source .responding :: h₂ ∧
        claim ∉ (endedBy h₁).map fun o ↦ o.2.2
  /-- For no registration are two responses handed over. -/
  once : (c.shared.handed.map fun p ↦ p.2.2).Nodup
  /-- No claim is taken twice, none is resolved twice, and only claims that were taken are. -/
  claims : c.shared.claimed.Nodup ∧ c.shared.resolved ≤ c.shared.claimed
  /-- Whoever was told that a response is written had its claim resolved by a confirmed write. -/
  written : ∀ (t : Nat) (call : Call Act Act.Resp ServerOp ServerOutcome),
    c.calls[t]? = some call → call.result? = some (.responded (some (.ok .written))) →
      ∃ completion sid packet claim u,
        .handed t completion sid packet claim ∈ c.shared.history ∧
        .resolved u (some completion) claim true ∈ c.shared.history
  /-- When every call has returned, a claim that was taken is resolved or waits in a queue, and only
  registrations with a claim in a queue are still in `Responding`. -/
  settled : (∀ call ∈ c.calls, call.Returned) →
    c.shared.claimed = c.shared.queued.map (fun p ↦ p.2) + c.shared.resolved ∧
    ∀ token, c.shared.registry.cells token = some .responding →
      ∃ item ∈ c.shared.queue, item.claim = token
  /-- Whoever presents a token moves on and takes out that registration alone. -/
  fitting : ∀ x ∈ c.shared.registry.history, ¬ x.Strays

/-- In every reachable state of a server's sessions, every request is answered at most once. -/
theorem responses_owned (cfg : Setup) {c : Config Act Act.Resp State ServerOp ServerOutcome}
    (hc : (exchange cfg).Reaches anyTasks ⟨.new, []⟩ c) : ResponsesOwned c := by
  obtain ⟨ds, hb, h⟩ := accounts_of_reaches hc
  constructor
  case handed => exact fun t completion sid packet claim hmem ↦ handed_of_balanced hb h hmem
  case once =>
    exact Multiset.nodup_of_le (hb.inv.handed_le.trans hb.inv.held_le) hb.inv.claimed_nodup
  case claims =>
    exact ⟨hb.inv.claimed_nodup, (Multiset.le_add_left _ _).trans hb.inv.held_le⟩
  case written => exact fun t call hcall hv ↦ written_of_balanced hb hcall hv
  case settled =>
    intro hall
    obtain ⟨hclaim, hheld, hqueued⟩ := rest_claims (s := c.shared) (rest_of_returned hb hall)
    have hclaims := hb.inv.claims
    unfold ClaimsKept at hclaims
    rw [hclaim, hheld, hqueued, zero_add, zero_add] at hclaims
    refine ⟨hclaims.taken, fun token hcell ↦ ?_⟩
    obtain ⟨p, hp, rfl⟩ := Multiset.mem_map.mp (hclaims.responding token hcell)
    obtain ⟨item, hitem, rfl⟩ := List.mem_map.mp (Multiset.mem_coe.mp hp)
    exact ⟨item, hitem, rfl⟩
  case fitting => exact hb.inv.registry.fitting.events

/-- A request is answered and the response written; another under the same id is dropped while its
response is queued, and the response with it. -/
def answeredRun : List (Label ServerOp) :=
  Label.start ServerOp.addSession :: List.replicate 5 (Label.run 0 0) ++
    Label.start (ServerOp.dispatch 1 (.request 7 [1]) (some ([2], ⟨none, none, none⟩))) ::
      List.replicate 19 (Label.run 1 0) ++
    Label.start ServerOp.writeNext :: List.replicate 10 (Label.run 2 0) ++
    List.replicate 2 (Label.run 1 0) ++
    Label.start (ServerOp.dispatch 1 (.request 7 [1]) (some ([3], ⟨none, none, none⟩))) ::
      List.replicate 18 (Label.run 3 0) ++
    .run 3 1 :: List.replicate 2 (Label.run 3 0) ++
    Label.start ServerOp.writeNext :: .run 4 0 :: .run 4 1 :: List.replicate 9 (Label.run 4 0)

/-- What the calls of that run return. -/
def answeredResults : List (Option ServerOutcome) :=
  [some (.session 1), some (.responded (some (.ok .written))), some .unit,
    some (.responded (some (.error .cancelled))), some .unit]

private theorem answeredRun_ends :
    ((exchange plainSetup).runAll anyTasks ⟨.new, []⟩ answeredRun).any (fun c ↦
      c.calls.all (fun call ↦ call.result?.isSome) &&
      c.calls.map (fun call ↦ call.result?) = answeredResults &&
      c.shared.history.contains (.resolved 2 (some 0) ⟨some 1, 7, .inbound, 1⟩ true) &&
      c.shared.history.contains (.resolved 4 (some 1) ⟨some 1, 7, .inbound, 2⟩ false)) = true := by
  decide +kernel

theorem responses_owned_of_answered : ∃ c,
    (exchange plainSetup).Reaches anyTasks ⟨.new, []⟩ c ∧ (∀ call ∈ c.calls, call.Returned) ∧
      c.calls.map (fun call ↦ call.result?) = answeredResults ∧
      .resolved 2 (some 0) ⟨some 1, 7, .inbound, 1⟩ true ∈ c.shared.history ∧
      .resolved 4 (some 1) ⟨some 1, 7, .inbound, 2⟩ false ∈ c.shared.history ∧
      ResponsesOwned c := by
  obtain ⟨c, hc, hend⟩ := (Option.any_eq_true _ _).mp answeredRun_ends
  simp only [Bool.and_eq_true, decide_eq_true_eq, List.contains_iff_mem, List.all_eq_true] at hend
  obtain ⟨⟨⟨hall, hresults⟩, hwritten⟩, hdropped⟩ := hend
  have hreach := System.Reaches.of_runAll hc
  exact ⟨c, hreach, hall, hresults, hwritten, hdropped, responses_owned _ hreach⟩

end MsgTrans.Exchange
