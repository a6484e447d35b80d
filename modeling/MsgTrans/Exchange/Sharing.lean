import MsgTrans.Exchange.Calls
import MsgTrans.Registry.Consistent

/-!
# The request exchange of the server: ids, claims and completions

The invariants of the sessions of a server. The registry is in order, no session id is opened twice,
and every respond claim is in exactly one place: with the call that took it, in a completion on its
way, in the queue, or resolved.
-/

namespace MsgTrans.Exchange

open MsgTrans.Wire MsgTrans.Adapters MsgTrans.Base MsgTrans.Registry MsgTrans.Transport
open MsgTrans.Client (Setup Awaited pollReply)

/-- A claim in a completion that a call has in hand. -/
def Tok.lent? : Tok → Option (Nat × RequestToken)
  | .lent completion claim => some (completion, claim)
  | _ => none

/-- A response that was handed over. -/
def Tok.awaits? : Tok → Option (Nat × Nat × RequestToken)
  | .awaits call completion claim => some (call, completion, claim)
  | _ => none

/-- The response an event hands over. -/
def Event.handed? : Event → Option (Nat × Nat × RequestToken)
  | .handed call completion _ _ claim => some (call, completion, claim)
  | .resolved .. => none

/-- The claim an event resolves, with the completion it was in. -/
def Event.completed? : Event → Option (Nat × RequestToken)
  | .resolved _ (some completion) claim _ => some (completion, claim)
  | _ => none

/-- The claim an event resolves. -/
def Event.resolved? : Event → Option RequestToken
  | .resolved _ _ claim _ => some claim
  | .handed .. => none

/-- A queued response as its completion and the claim in it. -/
def Outbound.entry (item : Outbound) : Nat × RequestToken := (item.completion, item.claim)

namespace State

/-- The responses that were handed over. -/
def handed (s : State) : Multiset (Nat × Nat × RequestToken) :=
  (s.history.filterMap Event.handed? : List (Nat × Nat × RequestToken))

/-- The completions that were resolved, with their claims. -/
def completed (s : State) : Multiset (Nat × RequestToken) :=
  (s.history.filterMap Event.completed? : List (Nat × RequestToken))

/-- The claims that were resolved. -/
def resolved (s : State) : Multiset RequestToken :=
  (s.history.filterMap Event.resolved? : List RequestToken)

/-- What is queued. -/
def queued (s : State) : Multiset (Nat × RequestToken) :=
  (s.queue.map Outbound.entry : List (Nat × RequestToken))

end State

/-- The completions that nobody has resolved yet. -/
def inTransit (s : State) (D : Multiset Tok) : Multiset (Nat × RequestToken) :=
  part Tok.lent? D + s.queued

/-- What an action does, by the tokens it moves. -/
inductive Effect (cfg : Setup) (call choice : Nat) (s : State) :
    State → Multiset Tok → Multiset Tok → Prop where
  | registry {b : Registry.Act} {v : b.Resp} {d d' : Multiset Registry.Tok} :
      Registry.Moves cfg.registry serverMode call b v d d' →
      (b.exec cfg.registry call choice s.registry).1 = v →
      Effect cfg call choice s
        { s with registry := (b.exec cfg.registry call choice s.registry).2 }
        (d.map .registry) (d'.map .registry)
  | generate : Effect cfg call choice s
      { s with sessionIdGenerator := s.sessionIdGenerator + 1 } 0
      {.registry (.unopened s.sessionIdGenerator)}
  | received {channel : Nat} {packet : Packet} :
      s.registry.channels channel = .value packet →
      Effect cfg call choice s s 0 {.got channel packet}
  | handOver {sid : SessionId} {packet : Packet} {claim : RequestToken} :
      claim.key = .inbound (some sid) packet.header.messageId →
      packet.header.packetType = .response →
      Effect cfg call choice s (s.handOver call sid packet claim)
        ({.registry (.claim claim)} + {.registry (.minted claim)})
        ({.lent s.nextCompletion claim} + ({.awaits call s.nextCompletion claim} +
          {.registry (.minted claim)}))
  | enqueue {item : Outbound} : Effect cfg call choice s { s with queue := s.queue ++ [item] }
      {.lent item.completion item.claim} 0
  | dequeue {item : Outbound} {i : Nat} : s.queue[i]? = some item →
      Effect cfg call choice s { s with queue := s.queue.eraseIdx i } 0
        {.lent item.completion item.claim}
  | receipt {completion : Nat} : s.receipts completion = some (.ok ()) →
      Effect cfg call choice s s 0 {.told completion}
  | resolveUnsent {claim : RequestToken} {writeConfirmed : Bool} :
      Effect cfg call choice s (s.record (.resolved call none claim writeConfirmed))
        {.registry (.claim claim)} {.registry (.resolving claim)}
  | resolve {completion : Nat} {claim : RequestToken} {writeConfirmed : Bool} :
      Effect cfg call choice s (s.record (.resolved call (some completion) claim writeConfirmed))
        {.lent completion claim}
        ({.registry (.resolving claim)} + {.settled completion writeConfirmed})
  | observe {completion : Nat} {result : Except TransportError Unit} {e : Multiset Tok} :
      (result = .ok () → .settled completion true ∈ e) →
      Effect cfg call choice s
        { s with receipts := Function.update s.receipts completion (some result) } e e
  | still {s' : State} : s'.registry = s.registry →
      s'.sessionIdGenerator = s.sessionIdGenerator → s'.queue = s.queue →
      s'.nextCompletion = s.nextCompletion → s'.receipts = s.receipts → s'.history = s.history →
      Effect cfg call choice s s' 0 0

section Effects

variable {cfg : Setup} {call choice : Nat} {s s' : State} {e e' F : Multiset Tok}

/-- Every action that keeps to the rules has one of these effects. -/
theorem Moves.effect {a : Act} {r : a.Resp} (hm : Moves cfg call a r e e')
    (hr : a.exec cfg call choice s = some (r, s')) : Effect cfg call choice s s' e e' := by
  cases hm with
  | registry hreg =>
    obtain ⟨hans, rfl⟩ := Prod.mk.inj (Option.some.inj hr)
    exact .registry hreg hans
  | generate =>
    obtain ⟨rfl, rfl⟩ := Prod.mk.inj (Option.some.inj hr)
    exact .generate
  | unanswered =>
    obtain ⟨awaited, -, hs⟩ := Option.map_eq_some_iff.mp hr
    obtain ⟨-, rfl⟩ := Prod.mk.inj hs
    exact .still rfl rfl rfl rfl rfl rfl
  | @received channel packet =>
    obtain ⟨awaited, hpoll, hs⟩ := Option.map_eq_some_iff.mp hr
    obtain ⟨rfl, rfl⟩ := Prod.mk.inj hs
    refine .received ?_
    unfold pollReply at hpoll
    repeat' split at hpoll
    all_goals cases hpoll
    assumption
  | handOver hkey htype =>
    obtain ⟨rfl, rfl⟩ := Prod.mk.inj (Option.some.inj hr)
    exact .handOver hkey htype
  | enqueueRefused =>
    simp only [Act.exec] at hr
    split at hr
    all_goals cases hr
    exact .still rfl rfl rfl rfl rfl rfl
  | enqueue =>
    simp only [Act.exec] at hr
    split at hr
    all_goals cases hr
    exact .enqueue
  | receiptFailed =>
    obtain ⟨receipt, -, hs⟩ := Option.map_eq_some_iff.mp hr
    obtain ⟨-, rfl⟩ := Prod.mk.inj hs
    exact .still rfl rfl rfl rfl rfl rfl
  | receipt =>
    obtain ⟨receipt, hreceipt, hs⟩ := Option.map_eq_some_iff.mp hr
    obtain ⟨rfl, rfl⟩ := Prod.mk.inj hs
    exact .receipt hreceipt
  | dequeue =>
    obtain ⟨item, hitem, hs⟩ := Option.map_eq_some_iff.mp hr
    obtain ⟨rfl, rfl⟩ := Prod.mk.inj hs
    exact .dequeue hitem
  | resolveUnsent =>
    obtain ⟨-, rfl⟩ := Prod.mk.inj (Option.some.inj hr)
    exact .resolveUnsent
  | resolve =>
    obtain ⟨-, rfl⟩ := Prod.mk.inj (Option.some.inj hr)
    exact .resolve
  | observeFailure =>
    obtain ⟨-, rfl⟩ := Prod.mk.inj (Option.some.inj hr)
    exact .observe fun hok ↦ by cases hok
  | observe =>
    obtain ⟨-, rfl⟩ := Prod.mk.inj (Option.some.inj hr)
    exact .observe fun _ ↦ by simp
  | _ =>
    obtain ⟨-, rfl⟩ := Prod.mk.inj (Option.some.inj hr)
    exact .still rfl rfl rfl rfl rfl rfl

/-- The histories only grow. -/
theorem Effect.history_subset (h : Effect cfg call choice s s' e e') :
    s.registry.history ⊆ s'.registry.history ∧ s.history ⊆ s'.history := by
  cases h with
  | registry => exact ⟨Registry.Act.history_subset, List.Subset.refl _⟩
  | handOver | resolveUnsent | resolve =>
    exact ⟨List.Subset.refl _, List.subset_append_left _ _⟩
  | still hreg _ _ _ _ hhist =>
    rw [hreg, hhist]
    exact ⟨List.Subset.refl _, List.Subset.refl _⟩
  | _ => exact ⟨List.Subset.refl _, List.Subset.refl _⟩

/-- Outside the registry only claims and session ids change hands among its tokens. -/
theorem Effect.registry_cases (h : Effect cfg call choice s s' e e') :
    (∃ (b : Registry.Act) (v : b.Resp) (d d' : Multiset Registry.Tok),
      e = d.map .registry ∧ e' = d'.map .registry ∧
      Registry.Moves cfg.registry serverMode call b v d d' ∧
      (b.exec cfg.registry call choice s.registry).1 = v ∧
      s' = { s with registry := (b.exec cfg.registry call choice s.registry).2 }) ∨
    (s'.registry = s.registry ∧ ∃ d d' G, part Tok.inner? e = d + G ∧
      part Tok.inner? e' = d' + G ∧ (∀ x ∈ d, x.aside = true ∧ x.arrival? = none) ∧
      ∀ x ∈ d', x.aside = true ∧ x.arrival? = none) := by
  cases h with
  | registry hm hans => exact .inl ⟨_, _, _, _, rfl, rfl, hm, hans, rfl⟩
  | generate =>
    refine .inr ⟨rfl, 0, {.unopened s.sessionIdGenerator}, 0, ?_⟩
    simp [Tok.inner?, Registry.Tok.aside, Registry.Tok.arrival?]
  | @handOver sid packet claim _ _ =>
    refine .inr ⟨rfl, {.claim claim}, 0, {.minted claim}, ?_⟩
    simp [Tok.inner?, Registry.Tok.aside, Registry.Tok.arrival?]
  | @resolveUnsent claim _ =>
    refine .inr ⟨rfl, {.claim claim}, {.resolving claim}, 0, ?_⟩
    simp [Tok.inner?, Registry.Tok.aside, Registry.Tok.arrival?]
  | @resolve completion claim _ =>
    refine .inr ⟨rfl, 0, {.resolving claim}, 0, ?_⟩
    simp [Tok.inner?, Registry.Tok.aside, Registry.Tok.arrival?]
  | @observe completion result _ _ => exact .inr ⟨rfl, 0, 0, part Tok.inner? e, by simp⟩
  | still hreg => exact .inr ⟨hreg, 0, 0, 0, by simp⟩
  | _ =>
    refine .inr ⟨rfl, 0, 0, 0, ?_⟩
    simp [Tok.inner?]

/-- The registry's tokens are none of the exchange's own. -/
theorem part_outer {β : Type} {f : Tok → Option β} (hf : ∀ x, f (.registry x) = none)
    (d : Multiset Registry.Tok) : part f (d.map .registry) = 0 := by
  refine part_eq_zero fun x hx ↦ ?_
  obtain ⟨y, -, rfl⟩ := Multiset.mem_map.mp hx
  exact hf y

end Effects

/-- No session id is drawn twice, and all that were drawn are below the next one. -/
structure Drawn (s : State) (D : Multiset Tok) : Prop where
  once : (drawnSessions s.registry (part Tok.inner? D)).Nodup
  below : ∀ sid ∈ drawnSessions s.registry (part Tok.inner? D), sid < s.sessionIdGenerator

section Drawn

variable {cfg : Setup} {call choice : Nat} {s s' : State} {e e' F : Multiset Tok}

theorem Drawn.new : Drawn State.new 0 := by
  constructor
  all_goals simp [State.new, Registry.State.new, drawnSessions]

-- Only the draw of a session id and the registry itself are about session ids.
private theorem Drawn.frame (h : Drawn s (e + F)) (hreg : s'.registry = s.registry)
    (hgen : s'.sessionIdGenerator = s.sessionIdGenerator)
    (he : part Registry.Tok.unopened? (part Tok.inner? e') =
      part Registry.Tok.unopened? (part Tok.inner? e)) : Drawn s' (e' + F) := by
  have hsame : drawnSessions s'.registry (part Tok.inner? (e' + F)) =
      drawnSessions s.registry (part Tok.inner? (e + F)) := by
    rw [drawnSessions, drawnSessions, hreg, part_add, part_add, part_add, part_add, he]
  refine ⟨?_, ?_⟩
  · rw [hsame]
    exact h.once
  · rw [hsame, hgen]
    exact h.below

theorem Drawn.step (h : Drawn s (e + F)) (heffect : Effect cfg call choice s s' e e') :
    Drawn s' (e' + F) := by
  cases heffect with
  | @registry b v d d' hm hans =>
    obtain ⟨honce, hbelow⟩ := h
    rw [part_add, part_registry] at honce hbelow
    have hle : drawnSessions (b.exec cfg.registry call choice s.registry).2
        (d' + part Tok.inner? F) ≤ drawnSessions s.registry (d + part Tok.inner? F) :=
      drawnSessions_le rfl hm
    refine ⟨?_, ?_⟩
    all_goals rw [part_add, part_registry]
    · exact Multiset.nodup_of_le hle honce
    · exact fun sid hsid ↦ hbelow sid (Multiset.mem_of_le hle hsid)
  | generate =>
    obtain ⟨honce, hbelow⟩ := h
    rw [zero_add] at honce hbelow
    have hnew : drawnSessions s.registry
        (part Tok.inner? ({.registry (.unopened s.sessionIdGenerator)} + F)) =
        s.sessionIdGenerator ::ₘ drawnSessions s.registry (part Tok.inner? F) := by
      simp [drawnSessions, Tok.inner?, Registry.Tok.unopened?]
    refine ⟨?_, ?_⟩
    · show (drawnSessions s.registry _).Nodup
      rw [hnew, Multiset.nodup_cons]
      exact ⟨fun hmem ↦ Nat.lt_irrefl _ (hbelow _ hmem), honce⟩
    · show ∀ sid ∈ drawnSessions s.registry _, sid < s.sessionIdGenerator + 1
      rw [hnew]
      intro sid hsid
      obtain rfl | hsid := Multiset.mem_cons.mp hsid
      · exact Nat.lt_succ_self _
      · exact Nat.lt_succ_of_lt (hbelow sid hsid)
  | still hreg hgen _ _ _ _ => exact h.frame hreg hgen rfl
  | _ => exact h.frame rfl rfl (by simp [Tok.inner?, Registry.Tok.unopened?])

end Drawn

/-- What an event says about the packet it hands over. -/
def Event.Sound : Event → Prop
  | .handed _ _ sid packet claim =>
    claim.key = .inbound (some sid) packet.header.messageId ∧
      packet.header.packetType = .response
  | .resolved .. => True

/-- What a token says about the past. -/
def Tok.Holds (s : State) : Tok → Prop
  | .got channel packet => ∃ c, .delivered c channel packet ∈ s.registry.history
  | .settled completion b => ∃ c claim, .resolved c (some completion) claim b ∈ s.history
  | .told completion => ∃ c claim, .resolved c (some completion) claim true ∈ s.history
  | _ => True

/-- Every response that was handed over is in transit or resolved, under a completion of its own,
and a receipt says what became of it. -/
structure Completions (s : State) (D : Multiset Tok) : Prop where
  balance : s.handed.map (fun p ↦ p.2) = inTransit s D + s.completed
  once : (s.handed.map fun p ↦ p.2.1).Nodup
  below : ∀ p ∈ s.handed, p.2.1 < s.nextCompletion
  callers : part Tok.awaits? D = s.handed
  sound : ∀ x ∈ s.history, x.Sound
  receipts : ∀ completion, s.receipts completion = some (.ok ()) →
    ∃ c claim, .resolved c (some completion) claim true ∈ s.history
  facts : ∀ x ∈ D, x.Holds s

section Completions

variable {cfg : Setup} {m : Registry.Mode} {call choice : Nat} {s s' : State}
  {e e' F : Multiset Tok}

theorem Completions.new : Completions State.new 0 := by
  constructor
  all_goals simp [State.new, State.handed, State.completed, State.queued, inTransit]

theorem Tok.Holds.mono {x : Tok} (h : x.Holds s)
    (hregistry : s.registry.history ⊆ s'.registry.history) (hhist : s.history ⊆ s'.history) :
    x.Holds s' := by
  cases x with
  | got channel packet =>
    obtain ⟨c, hc⟩ := h
    exact ⟨c, hregistry hc⟩
  | settled completion b =>
    obtain ⟨c, claim, hc⟩ := h
    exact ⟨c, claim, hhist hc⟩
  | told completion =>
    obtain ⟨c, claim, hc⟩ := h
    exact ⟨c, claim, hhist hc⟩
  | _ => trivial

-- The facts that were known stay known.
private theorem Completions.facts_step (h : Completions s (e + F))
    (heffect : Effect cfg call choice s s' e e') (hnew : ∀ x ∈ e', x ∉ e → x.Holds s') :
    ∀ x ∈ e' + F, x.Holds s' := by
  obtain ⟨hregistry, hhist⟩ := heffect.history_subset
  intro x hx
  by_cases hold : x ∈ e + F
  · exact (h.facts x hold).mono hregistry hhist
  · rw [Multiset.mem_add] at hx hold
    push Not at hold
    exact hnew x (hx.resolve_right hold.2) hold.1

/-- A step that hands nothing over and resolves nothing. -/
private theorem Completions.frame (h : Completions s (e + F))
    (htransit : inTransit s' (e' + F) = inTransit s (e + F))
    (hawaits : part Tok.awaits? e' = part Tok.awaits? e) (hhist : s'.history = s.history)
    (hnext : s'.nextCompletion = s.nextCompletion)
    (hreceipts : ∀ completion, s'.receipts completion = some (.ok ()) →
      ∃ c claim, .resolved c (some completion) claim true ∈ s'.history)
    (hfacts : ∀ x ∈ e' + F, x.Holds s') : Completions s' (e' + F) := by
  have hhanded : s'.handed = s.handed := by rw [State.handed, State.handed, hhist]
  have hcompleted : s'.completed = s.completed := by
    rw [State.completed, State.completed, hhist]
  refine ⟨?_, ?_, ?_, ?_, ?_, hreceipts, hfacts⟩
  · rw [hhanded, htransit, hcompleted]
    exact h.balance
  · rw [hhanded]
    exact h.once
  · rw [hhanded, hnext]
    exact h.below
  · rw [hhanded, ← h.callers, part_add, part_add, hawaits]
  · rw [hhist]
    exact h.sound

private theorem inTransit_frame (hqueue : s'.queue = s.queue)
    (he : part Tok.lent? e' = part Tok.lent? e) :
    inTransit s' (e' + F) = inTransit s (e + F) := by
  rw [inTransit, inTransit, State.queued, State.queued, hqueue, part_add, part_add, he]

private theorem queued_append (item : Outbound) :
    ({ s with queue := s.queue ++ [item] } : State).queued = s.queued + {item.entry} := by
  rw [State.queued, List.map_append]
  rfl

private theorem queued_eraseIdx {i : Nat} {item : Outbound} (hitem : s.queue[i]? = some item) :
    s.queued = {item.entry} + ({ s with queue := s.queue.eraseIdx i } : State).queued := by
  obtain ⟨hi, rfl⟩ := List.getElem?_eq_some_iff.mp hitem
  rw [State.queued, Multiset.singleton_add, State.queued, Multiset.cons_coe, ← List.map_cons]
  exact Multiset.coe_eq_coe.mpr ((List.getElem_cons_eraseIdx_perm hi).symm.map _)

private theorem handed_record (x : Event) :
    (s.record x).handed = s.handed + (x.handed?.elim 0 fun p ↦ {p}) := by
  rw [State.handed, State.record, List.filterMap_append]
  cases x <;> rfl

private theorem completed_record (x : Event) :
    (s.record x).completed = s.completed + (x.completed?.elim 0 fun p ↦ {p}) := by
  rw [State.completed, State.record, List.filterMap_append]
  cases x with
  | handed => rfl
  | resolved call completion claim b => cases completion <;> rfl

-- A response is handed over under the next completion.
private theorem Completions.handOver {sid : SessionId} {packet : Packet} {claim : RequestToken}
    (h : Completions s ({.registry (.claim claim)} + {.registry (.minted claim)} + F))
    (hkey : claim.key = .inbound (some sid) packet.header.messageId)
    (htype : packet.header.packetType = .response) (hfacts : ∀ x ∈ F, x.Holds s) :
    Completions (s.handOver call sid packet claim)
      ({.lent s.nextCompletion claim} + ({.awaits call s.nextCompletion claim} +
        {.registry (.minted claim)}) + F) := by
  have hhanded : (s.handOver call sid packet claim).handed =
      s.handed + {(call, s.nextCompletion, claim)} := handed_record _
  have hcompleted : (s.handOver call sid packet claim).completed = s.completed :=
    (completed_record _).trans (add_zero _)
  have hqueued : (s.handOver call sid packet claim).queued = s.queued := rfl
  have hbalance := h.balance
  have hcallers := h.callers
  rw [inTransit] at hbalance
  simp only [part_add, part_singleton, Tok.lent?, Tok.awaits?, Option.elim_none, zero_add]
    at hbalance hcallers
  constructor
  case balance =>
    rw [hhanded, hcompleted, inTransit, hqueued, Multiset.map_add, hbalance]
    simp only [part_add, part_singleton, Tok.lent?, Option.elim_none, Option.elim_some,
      Multiset.map_singleton, add_zero]
    abel
  case once =>
    rw [hhanded, Multiset.map_add, Multiset.map_singleton, add_comm, Multiset.singleton_add,
      Multiset.nodup_cons]
    refine ⟨fun hmem ↦ ?_, h.once⟩
    obtain ⟨p, hp, heq⟩ := Multiset.mem_map.mp hmem
    exact Nat.ne_of_lt (h.below p hp) heq
  case below =>
    intro p hp
    show p.2.1 < s.nextCompletion + 1
    rw [hhanded, Multiset.mem_add, Multiset.mem_singleton] at hp
    obtain hp | rfl := hp
    · exact Nat.lt_succ_of_lt (h.below p hp)
    · exact Nat.lt_succ_self _
  case callers =>
    rw [hhanded, ← hcallers]
    simp only [part_add, part_singleton, Tok.awaits?, Option.elim_none, Option.elim_some,
      zero_add, add_zero]
    exact add_comm _ _
  case sound =>
    intro x hx
    obtain hx | hx := List.mem_append.mp hx
    · exact h.sound x hx
    · rw [List.mem_singleton.mp hx]
      exact ⟨hkey, htype⟩
  case receipts =>
    intro completion hreceipt
    obtain ⟨c, claim', hc⟩ := h.receipts completion hreceipt
    exact ⟨c, claim', List.mem_append_left _ hc⟩
  case facts =>
    intro x hx
    simp only [Multiset.mem_add, Multiset.mem_singleton] at hx
    obtain (rfl | rfl | rfl) | hx := hx
    · trivial
    · trivial
    · trivial
    · exact (hfacts x hx).mono (List.Subset.refl _) (List.subset_append_left _ _)

-- A claim is resolved, with the completion it is in or on its own.
private theorem Completions.resolve {completion : Option Nat} {claim : RequestToken} {b : Bool}
    (h : Completions s (e + F))
    (hlent : part Tok.lent? e = part Tok.lent? e' +
      (completion.elim 0 fun n ↦ {(n, claim)}))
    (hawaits : part Tok.awaits? e' = part Tok.awaits? e)
    (hfacts : ∀ x ∈ e' + F, x.Holds (s.record (.resolved call completion claim b))) :
    Completions (s.record (.resolved call completion claim b)) (e' + F) := by
  have hhanded : (s.record (.resolved call completion claim b)).handed = s.handed :=
    (handed_record _).trans (add_zero _)
  have hcompleted : (s.record (.resolved call completion claim b)).completed =
      s.completed + (completion.elim 0 fun n ↦ {(n, claim)}) := by
    rw [completed_record]
    cases completion <;> rfl
  have hbalance := h.balance
  rw [inTransit, part_add, hlent] at hbalance
  constructor
  case balance =>
    rw [hhanded, hcompleted, inTransit, hbalance, part_add,
      show (s.record (.resolved call completion claim b)).queued = s.queued from rfl]
    abel
  case once =>
    rw [hhanded]
    exact h.once
  case below =>
    rw [hhanded]
    exact h.below
  case callers => rw [hhanded, ← h.callers, part_add, part_add, hawaits]
  case sound =>
    intro x hx
    obtain hx | hx := List.mem_append.mp hx
    · exact h.sound x hx
    · rw [List.mem_singleton.mp hx]
      trivial
  case receipts =>
    intro n hreceipt
    obtain ⟨c, claim', hc⟩ := h.receipts n hreceipt
    exact ⟨c, claim', List.mem_append_left _ hc⟩
  case facts => exact hfacts

/-- Every action keeps the completions in order. -/
theorem Completions.step (h : Completions s (e + F))
    (hchannels : Channels m s.registry (part Tok.inner? (e + F)))
    (heffect : Effect cfg call choice s s' e e') : Completions s' (e' + F) := by
  have hfacts := h.facts_step heffect
  cases heffect with
  | registry hm _ =>
    have hparts : ∀ {β : Type} (f : Tok → Option β) (d d' : Multiset Registry.Tok),
        (∀ x, f (.registry x) = none) →
        part f (d'.map .registry) = part f (d.map .registry) := fun f d d' hf ↦ by
      rw [part_outer hf, part_outer hf]
    refine h.frame (inTransit_frame rfl (hparts _ _ _ fun _ ↦ rfl)) (hparts _ _ _ fun _ ↦ rfl) rfl
      rfl h.receipts (hfacts fun x hx _ ↦ ?_)
    obtain ⟨y, -, rfl⟩ := Multiset.mem_map.mp hx
    trivial
  | generate =>
    refine h.frame (inTransit_frame rfl (by simp [Tok.lent?])) (by simp [Tok.awaits?]) rfl rfl
      h.receipts (hfacts ?_)
    simp [Tok.Holds]
  | received hvalue =>
    refine h.frame (inTransit_frame rfl (by simp [Tok.lent?])) (by simp [Tok.awaits?]) rfl rfl
      h.receipts (hfacts ?_)
    simpa [Tok.Holds] using hchannels.value _ _ hvalue
  | handOver hkey htype =>
    exact h.handOver hkey htype fun x hx ↦ h.facts x (Multiset.mem_add.mpr (.inr hx))
  | enqueue =>
    refine h.frame ?_ (by simp [Tok.awaits?]) rfl rfl h.receipts (hfacts (by simp))
    rw [inTransit, inTransit, queued_append, part_add, part_add, part_zero, part_singleton]
    simp only [Tok.lent?, Option.elim_some, Outbound.entry]
    abel
  | dequeue hitem =>
    refine h.frame ?_ (by simp [Tok.awaits?]) rfl rfl h.receipts (hfacts (by simp [Tok.Holds]))
    rw [inTransit, inTransit, queued_eraseIdx hitem, part_add, part_add, part_zero,
      part_singleton]
    simp only [Tok.lent?, Option.elim_some, Outbound.entry]
    abel
  | receipt hreceipt =>
    refine h.frame (inTransit_frame rfl (by simp [Tok.lent?])) (by simp [Tok.awaits?]) rfl rfl
      h.receipts (hfacts ?_)
    simpa [Tok.Holds] using h.receipts _ hreceipt
  | resolveUnsent =>
    exact h.resolve (by simp [Tok.lent?]) (by simp [Tok.awaits?])
      (hfacts (by simp [Tok.Holds]))
  | @resolve completion claim b =>
    refine h.resolve (by simp [Tok.lent?]) (by simp [Tok.awaits?]) (hfacts fun x hx _ ↦ ?_)
    obtain hx | hx := Multiset.mem_add.mp hx
    · rw [Multiset.mem_singleton.mp hx]
      trivial
    · rw [Multiset.mem_singleton.mp hx]
      exact ⟨call, claim, by simp [State.record]⟩
  | @observe n result _ hsettled =>
    refine h.frame (inTransit_frame rfl rfl) rfl rfl rfl (fun completion hreceipt ↦ ?_)
      (hfacts fun x hx hne ↦ absurd hx hne)
    show ∃ c claim, _ ∈ s.history
    simp only [Function.update_apply] at hreceipt
    split at hreceipt
    next heq =>
      subst heq
      exact h.facts _ (Multiset.mem_add.mpr (.inl (hsettled (Option.some.inj hreceipt))))
    next => exact h.receipts completion hreceipt
  | still _ _ hqueue hnext hreceipts hhist =>
    refine h.frame (inTransit_frame hqueue rfl) rfl hhist hnext (fun completion hreceipt ↦ ?_)
      (hfacts (by simp))
    rw [hhist]
    exact h.receipts completion (hreceipts ▸ hreceipt)

end Completions

/-- The claims that somebody holds, in a completion or not. -/
def claimsHeld (s : State) (D : Multiset Tok) : Multiset RequestToken :=
  (inTransit s D).map fun p ↦ p.2

/-- Every claim that was taken is held or resolved. -/
def ClaimsKept (s : State) (D : Multiset Tok) : Prop :=
  Claims s.registry (part Registry.Tok.claim? (part Tok.inner? D) + claimsHeld s D)
    (part Registry.Tok.held? (part Tok.inner? D) + (claimsHeld s D + s.resolved))

section Claims

variable {cfg : Setup} {call choice : Nat} {s s' : State} {e e' F : Multiset Tok}

theorem ClaimsKept.new : ClaimsKept State.new 0 := by
  constructor
  all_goals simp [State.new, Registry.State.new, claimsHeld, inTransit, State.queued,
    State.resolved, preceded_nil]

-- A claim that changes hands is the same claim.
private theorem ClaimsKept.swap (h : ClaimsKept s (e + F)) (hreg : s'.registry = s.registry)
    (hheld : part Registry.Tok.claim? (part Tok.inner? e') + claimsHeld s' (e' + F) =
      part Registry.Tok.claim? (part Tok.inner? e) + claimsHeld s (e + F))
    (htaken : part Registry.Tok.held? (part Tok.inner? e') +
        (claimsHeld s' (e' + F) + s'.resolved) =
      part Registry.Tok.held? (part Tok.inner? e) + (claimsHeld s (e + F) + s.resolved)) :
    ClaimsKept s' (e' + F) := by
  have hleft : part Registry.Tok.claim? (part Tok.inner? (e' + F)) + claimsHeld s' (e' + F) =
      part Registry.Tok.claim? (part Tok.inner? (e + F)) + claimsHeld s (e + F) := by
    rw [part_add, part_add, add_right_comm, hheld, part_add, part_add, add_right_comm]
  have hright : part Registry.Tok.held? (part Tok.inner? (e' + F)) +
      (claimsHeld s' (e' + F) + s'.resolved) =
      part Registry.Tok.held? (part Tok.inner? (e + F)) +
        (claimsHeld s (e + F) + s.resolved) := by
    rw [part_add, part_add, add_right_comm, htaken, part_add, part_add, add_right_comm]
  unfold ClaimsKept
  rw [hleft, hright, hreg]
  exact h

private theorem claimsHeld_add : claimsHeld s (e + F) =
    (part Tok.lent? e).map (fun p ↦ p.2) + ((part Tok.lent? F).map (fun p ↦ p.2) +
      s.queued.map fun p ↦ p.2) := by
  rw [claimsHeld, inTransit, part_add, Multiset.map_add, Multiset.map_add, add_assoc]

private theorem queued_record (x : Event) : (s.record x).queued = s.queued := rfl

private theorem resolved_record (x : Event) :
    (s.record x).resolved = s.resolved + (x.resolved?.elim 0 fun claim ↦ {claim}) := by
  rw [State.resolved, State.record, List.filterMap_append]
  cases x <;> rfl

/-- Every action keeps the claims in order. -/
theorem ClaimsKept.step (h : ClaimsKept s (e + F))
    (hcore : Core s.registry (books (part Tok.inner? (e + F))))
    (heffect : Effect cfg call choice s s' e e') : ClaimsKept s' (e' + F) := by
  cases heffect with
  | @registry b v d d' hm hans =>
    have hheld : ∀ d : Multiset Registry.Tok, claimsHeld s (d.map .registry + F) =
        claimsHeld s (0 + F) := fun d ↦ by
      rw [claimsHeld_add, claimsHeld_add, part_outer (fun _ ↦ rfl), part_zero]
    unfold ClaimsKept at h
    rw [part_add, part_registry] at hcore
    rw [part_add, part_registry, hheld] at h
    have hstep := h.step hcore hm hans
    rw [← hheld d'] at hstep
    unfold ClaimsKept
    rw [part_add, part_registry]
    exact hstep
  | @handOver sid packet claim _ _ =>
    have hqueued : (s.handOver call sid packet claim).queued = s.queued := rfl
    have hresolved : (s.handOver call sid packet claim).resolved = s.resolved :=
      (resolved_record _).trans (add_zero _)
    refine h.swap rfl ?_ ?_
    all_goals
      rw [claimsHeld_add, claimsHeld_add]
      simp [hqueued, hresolved, Tok.inner?, Tok.lent?, Registry.Tok.claim?, Registry.Tok.held?]
  | enqueue =>
    refine h.swap rfl ?_ ?_
    all_goals
      rw [claimsHeld_add, claimsHeld_add, queued_append]
      simp [Tok.inner?, Tok.lent?, Outbound.entry, State.resolved, -Multiset.singleton_add]
      abel
  | dequeue hitem =>
    refine h.swap rfl ?_ ?_
    all_goals
      rw [claimsHeld_add, claimsHeld_add, queued_eraseIdx hitem]
      simp [Tok.inner?, Tok.lent?, Outbound.entry, State.resolved, -Multiset.singleton_add]
      abel
  | resolveUnsent | resolve =>
    refine h.swap rfl ?_ ?_
    all_goals
      rw [claimsHeld_add, claimsHeld_add]
      simp [queued_record, resolved_record, Event.resolved?, Tok.inner?, Tok.lent?,
        Registry.Tok.claim?, Registry.Tok.held?, -Multiset.singleton_add]
    abel
  | still hreg _ hqueue _ _ hhist =>
    refine h.swap hreg ?_ ?_
    all_goals
      rw [claimsHeld_add, claimsHeld_add]
      simp [State.queued, State.resolved, hqueue, hhist]
  | _ =>
    refine h.swap rfl ?_ ?_
    all_goals
      rw [claimsHeld_add, claimsHeld_add]
      simp [State.queued, State.resolved, Tok.inner?, Tok.lent?, Registry.Tok.claim?,
        Registry.Tok.held?]

end Claims

/-- The invariant of a server's sessions. -/
structure Kept (s : State) (D : Multiset Tok) : Prop where
  registry : Consistent serverMode s.registry (part Tok.inner? D)
  drawn : Drawn s D
  completions : Completions s D
  claims : ClaimsKept s D

section Kept

variable {cfg : Setup} {call choice : Nat} {s s' : State} {e e' F : Multiset Tok}

theorem Kept.new : Kept State.new 0 :=
  ⟨by rw [part_zero]; exact Consistent.new, Drawn.new, Completions.new, ClaimsKept.new⟩

private theorem consistent_step (h : Consistent serverMode s.registry (part Tok.inner? (e + F)))
    (hdrawn : Drawn s (e + F)) (heffect : Effect cfg call choice s s' e e') :
    Consistent serverMode s'.registry (part Tok.inner? (e' + F)) := by
  obtain ⟨b, v, d, d', rfl, rfl, hm, hans, rfl⟩ | ⟨hreg, d, d', G, he, he', hd, hd'⟩ :=
    heffect.registry_cases
  · have honce := hdrawn.once
    rw [part_add, part_registry] at h honce ⊢
    refine h.step rfl rfl (fun sid hb ↦ ?_) hm hans
    subst hb
    cases hm
    exact not_opened_of_unopened honce
  · have hnone : ∀ {d : Multiset Registry.Tok}, (∀ x ∈ d, x.aside = true ∧ x.arrival? = none) →
        part Registry.Tok.arrival? d = 0 := fun hd ↦ part_eq_zero fun x hx ↦ (hd x hx).2
    rw [part_add, he, add_assoc] at h
    rw [hreg, part_add, he', add_assoc]
    refine h.swap (fun x hx ↦ (hd x hx).1) (fun x hx ↦ (hd' x hx).1) ?_
    rw [hnone hd, hnone hd']

/-- Every action keeps the invariant. -/
theorem Kept.step (h : Kept s (e + F)) (heffect : Effect cfg call choice s s' e e') :
    Kept s' (e' + F) where
  registry := consistent_step h.registry h.drawn heffect
  drawn := h.drawn.step heffect
  completions := h.completions.step h.registry.channels heffect
  claims := h.claims.step h.registry.base.core heffect

/-- A claim in the queue is one of an inbound request. -/
theorem Kept.inbound {D : Multiset Tok} (h : Kept s D) {item : Outbound} (hitem : item ∈ s.queue) :
    item.claim.direction = .inbound := by
  have htransit : item.entry ∈ inTransit s D :=
    Multiset.mem_add.mpr (.inr (Multiset.mem_coe.mpr (List.mem_map_of_mem hitem)))
  have hhanded : item.entry ∈ s.handed.map fun p ↦ p.2 := by
    rw [h.completions.balance]
    exact Multiset.mem_add.mpr (.inl htransit)
  obtain ⟨p, hp, heq⟩ := Multiset.mem_map.mp hhanded
  obtain ⟨x, hx, hsome⟩ := List.mem_filterMap.mp (Multiset.mem_coe.mp hp)
  cases x with
  | handed c completion sid packet claim =>
    obtain rfl := Option.some.inj hsome
    obtain rfl : claim = item.claim := congrArg Prod.snd heq
    rw [← RequestToken.direction_key, (h.completions.sound _ hx).1]
    rfl
  | resolved => cases hsome

/-- A response packet arrives with a call that has none yet. -/
theorem Kept.arrive {D : Multiset Tok} (h : Kept s D) {sid : SessionId} {id : UInt32}
    {packet : Packet} (hfresh : ∀ a ∈ part Registry.Tok.arrival? (part Tok.inner? D),
      a.call ≠ call) :
    Kept s ({.registry (.response call (some sid) id packet false)} + D) := by
  have hclaims := h.claims
  have hdrawn : drawnSessions s.registry (part Tok.inner?
      ({.registry (.response call (some sid) id packet false)} + D)) =
      drawnSessions s.registry (part Tok.inner? D) := by
    simp [drawnSessions, Tok.inner?, Registry.Tok.unopened?]
  have hheld : claimsHeld s ({.registry (.response call (some sid) id packet false)} + D) =
      claimsHeld s D := by
    simp [claimsHeld, inTransit, Tok.lent?]
  constructor
  case registry =>
    rw [part_add, part_singleton]
    exact h.registry.arrive hfresh
  case drawn =>
    refine ⟨?_, ?_⟩
    all_goals rw [hdrawn]
    · exact h.drawn.once
    · exact h.drawn.below
  case completions =>
    refine { h.completions with balance := ?_, callers := ?_, facts := fun x hx ↦ ?_ }
    · rw [h.completions.balance]
      simp [inTransit, Tok.lent?]
    · rw [part_add, part_singleton]
      simpa [Tok.awaits?] using h.completions.callers
    · obtain hx | hx := Multiset.mem_add.mp hx
      · rw [Multiset.mem_singleton.mp hx]
        trivial
      · exact h.completions.facts x hx
  case claims =>
    unfold ClaimsKept at hclaims ⊢
    rw [hheld]
    simpa [Tok.inner?, Registry.Tok.claim?, Registry.Tok.held?] using hclaims

/-- A call begins with the packet it processes, or with nothing. -/
theorem start_cases (t : Nat) (o : ServerOp) : o.start t = 0 ∨
    ∃ sid packet, o.Pumps sid packet ∧
      o.start t = {.registry (.response t (some sid) packet.header.messageId packet false)} := by
  cases o with
  | pumpOneEvent sid event =>
    cases event with
    | data event =>
      cases event with
      | messageReceived packet =>
        by_cases hresponse : packet.header.packetType = .response
        · exact .inr ⟨sid, packet, ⟨rfl, hresponse⟩, if_pos hresponse⟩
        · exact .inl (if_neg hresponse)
      | _ => exact .inl rfl
    | connectionClosed => exact .inl rfl
  | _ => exact .inl rfl

/-- The rules keep the invariant of a server's sessions. -/
theorem sound_exchange (cfg : Setup) :
    Sound (exchange cfg) anyTasks (rules cfg) serverContract Kept where
  act := fun _ _ _ _ _ _ _ _ _ _ hexec hm hJ ↦ hJ.step (hm.effect hexec)
  refuted := by
    intro t a choice s r s' d F hexec href hJ
    cases href with
    | @registry b v d G href =>
      obtain ⟨hans, -⟩ := Prod.mk.inj (Option.some.inj hexec)
      have hbase := hJ.registry.base
      rw [add_assoc, part_add, part_registry] at hbase
      exact hbase.not_refuted (fun hfinal ↦ by cases hfinal) hans href
    | outward hdir =>
      obtain ⟨item, hitem, hs⟩ := Option.map_eq_some_iff.mp hexec
      obtain ⟨rfl, -⟩ := Prod.mk.inj hs
      exact hdir (hJ.inbound (List.mem_of_getElem? hitem))
  start := by
    intro c ds o h _
    refine ⟨_, rfl, o.body_keeps, ?_, ?_⟩
    · obtain hstart | ⟨sid, packet, -, hstart⟩ := start_cases c.calls.length o
      all_goals
        rw [hstart]
        simp [serverContract, Tok.Within, Registry.Tok.Within]
    obtain hstart | ⟨sid, packet, -, hstart⟩ := start_cases c.calls.length o
    · rw [hstart, zero_add]
      exact h.inv
    · rw [hstart]
      refine h.inv.arrive fun a ha ↦ ?_
      -- A packet is in the hands of the call it came with.
      obtain ⟨y, hy, hsome⟩ := mem_part.mp ha
      obtain ⟨x, hx, hinner⟩ := mem_part.mp hy
      obtain ⟨t, ht, hx⟩ := mem_total.mp hx
      have hscope := h.inScope t _ (List.getElem?_eq_getElem ht) x hx
      cases x with
      | registry z =>
        cases hinner
        cases y with
        | response c' sid' id packet' used =>
          cases hsome
          have hcall : c' = t := hscope.1
          exact fun heq ↦ Nat.ne_of_lt ht (hcall.symm.trans heq)
        | _ => cases hsome
      | _ => cases hinner

end Kept

end MsgTrans.Exchange
