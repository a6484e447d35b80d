import MsgTrans.Exchange.Sharing
import MsgTrans.Registry.Provenance

/-!
# The request exchange of the server: what a call has done itself

Facts about the tokens of one call, as opposed to those of all calls together: the registrations and
the ids it holds are its own, a packet in its hands is the one it came with, and a response that it
handed over answers a request that it registered.
-/

namespace MsgTrans.Exchange

open MsgTrans.Wire MsgTrans.Adapters MsgTrans.Base MsgTrans.Registry MsgTrans.Transport
open MsgTrans.Client (Setup)

/-- The packet came with this call. -/
def Pumped (t : Nat) (o : ServerOp) (a : Arrival) : Prop :=
  a.call = t ∧ ∃ sid, a.sessionId = some sid ∧ a.requestId = a.packet.header.messageId ∧
    o.Pumps sid a.packet

/-- A response is handed over by the call that registered the request. -/
def Event.Responds (h : List Registry.Event) : Event → Prop
  | .handed call _ _ _ claim => .registered call claim ∈ h
  | .resolved .. => True

/-- What the calls have done themselves. -/
structure Accounts (c : Config Act Act.Resp State ServerOp ServerOutcome)
    (ds : Nat → Multiset Tok) : Prop where
  owned : ∀ t, t < c.calls.length →
    Owned c.shared.registry.history t (part Tok.inner? (ds t))
  sourced : Sourced c.shared.registry.history
  pumped : ∀ t call, c.calls[t]? = some call →
    ∀ a ∈ part Registry.Tok.arrival? (part Tok.inner? (ds t)), Pumped t call.op a
  responders : ∀ x ∈ c.shared.history, x.Responds c.shared.registry.history

section Steps

variable {cfg : Setup} {call choice : Nat} {s s' : State} {e e' F : Multiset Tok}

-- Claims and session ids grant neither a registration nor a request id.
private theorem owned_swap {h : List Registry.Event} {d d' G : Multiset Registry.Tok}
    (hd : Owned h call (d + G)) (hd' : ∀ x ∈ d', x.aside = true) : Owned h call (d' + G) := by
  have hregistered : part Registry.Tok.registered? d' = 0 := part_eq_zero fun x hx ↦ by
    have haside := hd' x hx
    cases x <;> first | rfl | cases haside
  have hid : part Registry.Tok.id? d' = 0 := part_eq_zero fun x hx ↦ by
    have haside := hd' x hx
    cases x <;> first | rfl | cases haside
  refine ⟨fun token htoken ↦ hd.registered token ?_, fun p hp ↦ hd.drawn p ?_⟩
  · rw [part_add, hregistered, zero_add] at htoken
    rw [part_add]
    exact Multiset.mem_add.mpr (.inr htoken)
  · rw [part_add, hid, zero_add] at hp
    rw [part_add]
    exact Multiset.mem_add.mpr (.inr hp)

/-- A call accounts for its own steps. -/
theorem owned_step (h : Owned s.registry.history call (part Tok.inner? (e + F)))
    (hhome : ∀ sid rt, .registry (.sees sid rt) ∈ e → .opened sid rt ∈ s.registry.history)
    (heffect : Effect cfg call choice s s' e e') :
    Owned s'.registry.history call (part Tok.inner? (e' + F)) := by
  obtain ⟨b, v, d, d', rfl, rfl, hm, hans, rfl⟩ | ⟨hreg, d, d', G, he, he', -, hd'⟩ :=
    heffect.registry_cases
  · rw [part_add, part_registry] at h ⊢
    refine h.step (fun sid rt hmem ↦ hhome sid rt ?_) hm hans
    exact Multiset.mem_map_of_mem _ hmem
  · rw [part_add, he, add_assoc] at h
    rw [hreg, part_add, he', add_assoc]
    exact owned_swap h fun x hx ↦ (hd' x hx).1

/-- Every outbound request stays registered under an id that its call drew. -/
theorem sourced_step (h : Sourced s.registry.history)
    (howned : Owned s.registry.history call (part Tok.inner? (e + F)))
    (heffect : Effect cfg call choice s s' e e') : Sourced s'.registry.history := by
  obtain ⟨b, v, d, d', rfl, rfl, hm, hans, rfl⟩ | ⟨hreg, -⟩ := heffect.registry_cases
  · rw [part_add, part_registry] at howned
    exact h.step howned rfl hm hans
  · rw [hreg]
    exact h

/-- A call works on the packet it came with. -/
theorem pumped_step {o : ServerOp}
    (h : ∀ a ∈ part Registry.Tok.arrival? (part Tok.inner? (e + F)), Pumped call o a)
    (heffect : Effect cfg call choice s s' e e') :
    ∀ a ∈ part Registry.Tok.arrival? (part Tok.inner? (e' + F)), Pumped call o a := by
  intro a ha
  rw [part_add, part_add, Multiset.mem_add] at ha
  have hframe : ∀ b ∈ part Registry.Tok.arrival? (part Tok.inner? e), Pumped call o b := by
    intro b hb
    apply h
    rw [part_add, part_add]
    exact Multiset.mem_add.mpr (.inl hb)
  obtain ha | ha := ha
  swap
  · apply h
    rw [part_add, part_add]
    exact Multiset.mem_add.mpr (.inr ha)
  obtain ⟨b, v, d, d', rfl, rfl, hm, -, -⟩ | ⟨-, d, d', G, he, he', -, hd'⟩ :=
    heffect.registry_cases
  · rw [part_registry] at ha hframe
    obtain ⟨y, hy, hcall, hsid, hid, hpacket⟩ := hm.arrival ha
    obtain ⟨hycall, sid, hysid, hyid, hpumps⟩ := hframe y hy
    refine ⟨hcall ▸ hycall, sid, hsid ▸ hysid, ?_, hpacket ▸ hpumps⟩
    rw [← hid, ← hpacket]
    exact hyid
  · rw [he', part_add, part_eq_zero fun x hx ↦ (hd' x hx).2, zero_add] at ha
    apply hframe
    rw [he, part_add]
    exact Multiset.mem_add.mpr (.inr ha)

/-- A response answers a request of the call that hands it over. -/
theorem responders_step (h : ∀ x ∈ s.history, x.Responds s.registry.history)
    (howned : Owned s.registry.history call (part Tok.inner? (e + F)))
    (heffect : Effect cfg call choice s s' e e') :
    ∀ x ∈ s'.history, x.Responds s'.registry.history := by
  have hsub := heffect.history_subset.1
  have hmono : ∀ x ∈ s.history, x.Responds s'.registry.history := by
    intro x hx
    have hold := h x hx
    cases x with
    | handed => exact hsub hold
    | resolved => trivial
  cases heffect with
  | @handOver sid packet claim _ _ =>
    intro x hx
    obtain hx | hx := List.mem_append.mp hx
    · exact hmono x hx
    · rw [List.mem_singleton.mp hx]
      apply howned.registered
      simp [Tok.inner?, Registry.Tok.registered?]
  | resolveUnsent | resolve =>
    intro x hx
    obtain hx | hx := List.mem_append.mp hx
    · exact hmono x hx
    · rw [List.mem_singleton.mp hx]
      trivial
  | still _ _ _ _ _ hhist =>
    intro x hx
    rw [hhist] at hx
    exact hmono x hx
  | _ => exact hmono

end Steps

section Accounts

variable {cfg : Setup} {c c' : Config Act Act.Resp State ServerOp ServerOutcome}
  {ds ds' : Nat → Multiset Tok}

private theorem accounts_init :
    Accounts (⟨.new, []⟩ : Config Act Act.Resp State ServerOp ServerOutcome) ds := by
  constructor
  all_goals simp [State.new, Registry.State.new, Sourced]

private theorem owned_start {h : List Registry.Event} (t : Nat) (o : ServerOp) :
    Owned h t (part Tok.inner? (o.start t)) := by
  obtain hstart | ⟨sid, packet, -, hstart⟩ := start_cases t o
  all_goals
    rw [hstart]
    apply Owned.of_part_eq_zero
  all_goals simp [Tok.inner?, Registry.Tok.registered?, Registry.Tok.id?]

private theorem pumped_start (t : Nat) (o : ServerOp) :
    ∀ a ∈ part Registry.Tok.arrival? (part Tok.inner? (o.start t)), Pumped t o a := by
  obtain hstart | ⟨sid, packet, hpumps, hstart⟩ := start_cases t o
  · simp [hstart]
  · intro a ha
    rw [hstart] at ha
    have ha' : a = ⟨t, some sid, packet.header.messageId, packet, false⟩ := by
      simpa [Tok.inner?, Registry.Tok.arrival?] using ha
    rw [ha']
    exact ⟨rfl, sid, rfl, rfl, hpumps⟩

private theorem Accounts.step (hb : Balanced (rules cfg) serverContract Kept c ds)
    (h : Accounts c ds)
    (ht : Tracks (exchange cfg) anyTasks (rules cfg) serverContract c ds c' ds') :
    Accounts c' ds' := by
  cases ht with
  | @start o d _ hd =>
    obtain rfl : d = o.start c.calls.length := hd
    refine ⟨fun t ht ↦ ?_, h.sourced, fun t call hc ↦ ?_, h.responders⟩
    · by_cases heq : t = c.calls.length
      · subst heq
        rw [Function.update_self]
        exact owned_start _ o
      · rw [Function.update_of_ne heq]
        refine h.owned t ?_
        simp only [List.length_append, List.length_singleton] at ht
        omega
    · by_cases heq : t = c.calls.length
      · subst heq
        obtain rfl : call = ⟨o, (exchange cfg).body o⟩ := by simpa using hc.symm
        rw [Function.update_self]
        exact pumped_start _ o
      · rw [Function.update_of_ne heq]
        have hlt : t < c.calls.length := by
          have hlen := (List.getElem?_eq_some_iff.mp hc).1
          simp only [List.length_append, List.length_singleton] at hlen
          omega
        rw [List.getElem?_append_left hlt] at hc
        exact h.pumped t call hc
  | @run t choice o a k r s e e' F hc _ hexec hd hm =>
    have hlt : t < c.calls.length := (List.getElem?_eq_some_iff.mp hc).1
    have heffect := Moves.effect hm hexec
    have howned := h.owned t hlt
    have hpumped := h.pumped t _ hc
    rw [hd] at howned hpumped
    have hhome : ∀ sid rt, .registry (.sees sid rt) ∈ e →
        .opened sid rt ∈ c.shared.registry.history := by
      intro sid rt hmem
      have htotal : .registry (.sees sid rt) ∈ total ds c.calls.length := by
        refine mem_total.mpr ⟨t, hlt, ?_⟩
        rw [hd]
        exact Multiset.mem_add.mpr (.inl hmem)
      exact hb.inv.registry.base.home.tokens _ (mem_part.mpr ⟨_, htotal, rfl⟩)
    refine ⟨fun t' ht' ↦ ?_, sourced_step h.sourced howned heffect, fun t' call hc' ↦ ?_,
      responders_step h.responders howned heffect⟩
    · by_cases heq : t' = t
      · subst heq
        rw [Function.update_self]
        exact owned_step howned hhome heffect
      · rw [Function.update_of_ne heq]
        rw [List.length_set] at ht'
        exact (h.owned t' ht').mono heffect.history_subset.1
    · by_cases heq : t' = t
      · subst heq
        rw [List.getElem?_set_self hlt] at hc'
        cases hc'
        rw [Function.update_self]
        exact pumped_step hpumped heffect
      · rw [Function.update_of_ne heq]
        rw [List.getElem?_set_ne (Ne.symm heq)] at hc'
        exact h.pumped t' call hc'

/-- In every reachable state the calls' tokens are in order and account for what they did. -/
theorem accounts_of_reaches (hc : (exchange cfg).Reaches anyTasks ⟨.new, []⟩ c) :
    ∃ ds, Balanced (rules cfg) serverContract Kept c ds ∧ Accounts c ds :=
  (Balanced.init Kept.new).reaches_with (sound_exchange cfg) accounts_init
    (fun _ _ _ _ hb hP ht ↦ hP.step hb ht) hc

/-- When every call has returned, the registry is owed nothing and nobody holds a claim. -/
theorem rest_of_returned (hb : Balanced (rules cfg) serverContract Kept c ds)
    (hall : ∀ call ∈ c.calls, call.Returned) : Rest (total ds c.calls.length) := by
  intro x hx
  obtain ⟨t, ht, hx⟩ := mem_total.mp hx
  have hc : c.calls[t]? = some c.calls[t] := List.getElem?_eq_getElem ht
  obtain ⟨v, hv⟩ := (hall _ (List.getElem_mem ht)).prog_eq
  exact (hb.post hc hv).rest x hx

/-- What rests is idle for the registry. -/
theorem Rest.idle {D : Multiset Tok} (h : Rest D) : Idle (part Tok.inner? D) := by
  intro y hy
  obtain ⟨x, hx, hsome⟩ := mem_part.mp hy
  have hrest := h x hx
  cases x with
  | registry z =>
    cases hsome
    exact hrest.1
  | _ => cases hsome

end Accounts

end MsgTrans.Exchange
