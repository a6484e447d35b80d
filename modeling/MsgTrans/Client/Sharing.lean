import MsgTrans.Client.Generations
import MsgTrans.Registry.Ids

/-!
# The client transport: borrows and numbers

Two invariants of a `TransportClient` whose calls borrow it as Rust has them do. Its connection slot
is filled under `&mut self` alone (`crates/msgtrans/src/transport/client.rs:245`), so what a call on
`&self` has read there can be emptied under it but not replaced. Session ids come from the epoch and
request ids from the counter of their session, and neither is handed out twice.
-/

namespace MsgTrans.Client

open MsgTrans.Wire MsgTrans.Adapters MsgTrans.Base MsgTrans.Registry MsgTrans.Transport

/-- What a call that borrows the client has seen in the slot still holds: a slot that was empty is
empty, and one that was filled is empty or holds the same generation. -/
def State.Shows (s : State) : Seen → Prop
  | .nothing => True
  | .empty => s.slot = none
  | .session sid => ∀ slot ∈ s.slot, slot.sessionId = sid

/-- What a borrowing call has seen. -/
def Tok.sharing? : Tok → Option Seen
  | .sharing seen => some seen
  | _ => none

/-- A mutable borrow. -/
def Tok.owning? : Tok → Option Unit
  | .owning => some ()
  | _ => none

/-- The invariant of the borrows: a mutable borrow is alone, and the slot is filled under none
but one. -/
structure Borrowed (s : State) (D : Multiset Tok) : Prop where
  sharing : (part Tok.sharing? D).card = s.borrows
  owning : (part Tok.owning? D).card = if s.borrowedMut then 1 else 0
  apart : s.borrowedMut = true → s.borrows = 0
  seen : ∀ seen ∈ part Tok.sharing? D, s.Shows seen

section Borrowed

variable {cfg : Setup} {m : Mode} {call choice : Nat} {s s' : State} {e e' F : Multiset Tok}

theorem Borrowed.new : Borrowed State.new 0 := by
  constructor <;> simp [State.new]

private theorem State.Shows.shrink {seen : Seen} (h : s.Shows seen)
    (hslot : ∀ slot ∈ s'.slot, slot ∈ s.slot) : s'.Shows seen := by
  cases seen with
  | nothing => trivial
  | empty =>
    have hnone : s.slot = none := h
    rw [hnone] at hslot
    exact Option.eq_none_iff_forall_not_mem.mpr fun slot hs ↦ by cases hslot slot hs
  | session sid => exact fun slot hs ↦ h slot (hslot slot hs)

/-- A step that neither borrows nor fills the slot. -/
theorem Borrowed.frame (h : Borrowed s (e + F)) (hborrows : s'.borrows = s.borrows)
    (hmut : s'.borrowedMut = s.borrowedMut) (hslot : ∀ slot ∈ s'.slot, slot ∈ s.slot)
    (hsharing : part Tok.sharing? e' = part Tok.sharing? e)
    (howning : part Tok.owning? e' = part Tok.owning? e) : Borrowed s' (e' + F) := by
  have hs : part Tok.sharing? (e' + F) = part Tok.sharing? (e + F) := by
    rw [part_add, part_add, hsharing]
  have ho : part Tok.owning? (e' + F) = part Tok.owning? (e + F) := by
    rw [part_add, part_add, howning]
  refine ⟨?_, ?_, ?_, ?_⟩
  · rw [hs, hborrows]
    exact h.sharing
  · rw [ho, hmut]
    exact h.owning
  · rw [hmut, hborrows]
    exact h.apart
  · rw [hs]
    exact fun seen hseen ↦ (h.seen seen hseen).shrink hslot

-- A look at the slot replaces what was seen there.
private theorem Borrowed.look {seen seen' : Seen} (h : Borrowed s ({.sharing seen} + F))
    (hshows : s.Shows seen') : Borrowed s ({.sharing seen'} + F) := by
  have hcons : ∀ b, part Tok.sharing? ({.sharing b} + F) = b ::ₘ part Tok.sharing? F := fun b ↦ by
    simp [Tok.sharing?]
  refine ⟨?_, ?_, h.apart, fun b hb ↦ ?_⟩
  · have hcard := h.sharing
    rw [hcons, Multiset.card_cons] at hcard ⊢
    exact hcard
  · have hcard := h.owning
    simpa [Tok.owning?] using hcard
  · rw [hcons, Multiset.mem_cons] at hb
    obtain rfl | hb := hb
    · exact hshows
    · refine h.seen b ?_
      rw [hcons]
      exact Multiset.mem_cons_of_mem hb

-- While a call owns the client nobody has seen anything.
private theorem Borrowed.alone (h : Borrowed s ({.owning} + F)) :
    s.borrowedMut = true ∧ part Tok.sharing? F = 0 := by
  have hone : (part Tok.owning? ({.owning} + F)).card = (part Tok.owning? F).card + 1 := by
    simp [Tok.owning?, add_comm]
  have hmut : s.borrowedMut = true := by
    by_contra hne
    have hcard := h.owning
    rw [if_neg hne, hone] at hcard
    omega
  refine ⟨hmut, ?_⟩
  have hcard := h.sharing
  rw [h.apart hmut] at hcard
  simpa [Tok.sharing?] using hcard

/-- Every action keeps the borrows in order, as long as the callers of the client borrow it. -/
theorem Borrowed.step {a : Act} {r : a.Resp} (h : Borrowed s (e + F))
    (hexclusive : m.exclusive = true) (hm : Moves cfg m call a r e e')
    (hr : a.exec cfg call choice s = some (r, s')) : Borrowed s' (e' + F) := by
  have hself : ∀ slot ∈ s.slot, slot ∈ s.slot := fun _ hs ↦ hs
  cases hm with
  | @registry a r d d' _ =>
    obtain ⟨-, rfl⟩ := Prod.mk.inj (Option.some.inj hr)
    have hnone : ∀ {β : Type} (f : Tok → Option β) (d : Multiset Registry.Tok),
        (∀ x, f (.registry x) = none) → part f (d.map .registry) = 0 := by
      intro β f d hf
      apply part_eq_zero
      intro x hx
      obtain ⟨y, -, rfl⟩ := Multiset.mem_map.mp hx
      exact hf y
    refine h.frame rfl rfl hself ?_ ?_
    all_goals rw [hnone _ _ fun _ ↦ rfl, hnone _ _ fun _ ↦ rfl]
  | install hm =>
    rw [hexclusive] at hm
    cases hm
  | @installOwned sid connection =>
    obtain ⟨rfl, rfl⟩ := Prod.mk.inj (Option.some.inj hr)
    have hown : Borrowed s ({.owning} + ({.installing connection} + F)) := by
      rwa [add_left_comm, ← add_assoc]
    have hnone : part Tok.sharing? F = 0 := by
      simpa [Tok.sharing?] using hown.alone.2
    refine ⟨?_, ?_, h.apart, ?_⟩
    · have hcard := h.sharing
      show _ = s.borrows
      simpa [Tok.sharing?] using hcard
    · have hcard := h.owning
      show _ = if s.borrowedMut then 1 else 0
      simpa [Tok.owning?] using hcard
    · simp [Tok.sharing?, hnone]
  | @sessionNone seen =>
    obtain ⟨hnone, rfl⟩ := Prod.mk.inj (Option.some.inj hr)
    exact h.look (Option.map_eq_none_iff.mp hnone)
  | @sessionSome seen sid =>
    obtain ⟨hsome, rfl⟩ := Prod.mk.inj (Option.some.inj hr)
    refine h.look fun slot hs ↦ ?_
    rw [hs, Option.map_some] at hsome
    exact Option.some.inj hsome
  | takeNone =>
    rw [slotTake_none (Option.some.inj hr)]
    exact h
  | take =>
    obtain ⟨-, rfl⟩ := slotTake_some (Option.some.inj hr)
    exact h.frame rfl rfl (by simp [State.record]) (by simp [Tok.sharing?]) (by simp [Tok.owning?])
  | enqueueRefused | enqueue _ | enqueueRequest _ =>
    obtain ⟨-, rfl⟩ | ⟨-, rfl⟩ := exec_enqueue hr
    all_goals exact h.frame rfl rfl hself (by simp [Tok.sharing?]) (by simp [Tok.owning?])
  | borrow _ =>
    simp only [Act.exec] at hr
    split at hr
    next => cases hr
    next hmut =>
      obtain ⟨-, rfl⟩ := Prod.mk.inj (Option.some.inj hr)
      rw [zero_add] at h
      refine ⟨?_, ?_, fun h' ↦ absurd h' hmut, ?_⟩
      · have hcard := h.sharing
        simp [Tok.sharing?, hcard, add_comm]
      · have hcard := h.owning
        simpa [Tok.owning?] using hcard
      · intro seen hseen
        have hcases : seen = .nothing ∨ seen ∈ part Tok.sharing? F := by
          simpa [Tok.sharing?] using hseen
        obtain rfl | hseen := hcases
        · trivial
        · exact (h.seen seen hseen).shrink hself
  | @release seen =>
    obtain ⟨-, rfl⟩ := Prod.mk.inj (Option.some.inj hr)
    have hcard : (part Tok.sharing? F).card + 1 = s.borrows := by
      rw [← h.sharing]
      simp [Tok.sharing?, add_comm]
    refine ⟨?_, ?_, fun hmut ↦ ?_, fun b hb ↦ ?_⟩
    · rw [zero_add]
      show _ = s.borrows - 1
      omega
    · have hcard := h.owning
      simpa [Tok.owning?] using hcard
    · have hzero := h.apart hmut
      omega
    · rw [zero_add] at hb
      refine (h.seen b ?_).shrink hself
      rw [part_add]
      exact Multiset.mem_add.mpr (.inr hb)
  | borrowMut =>
    simp only [Act.exec] at hr
    split at hr
    next => cases hr
    next hfree =>
      obtain ⟨-, rfl⟩ := Prod.mk.inj (Option.some.inj hr)
      push Not at hfree
      rw [zero_add] at h
      refine ⟨?_, ?_, fun _ ↦ hfree.2, ?_⟩
      · have hcard := h.sharing
        simpa [Tok.sharing?] using hcard
      · have hcard := h.owning
        rw [if_neg hfree.1] at hcard
        simpa [Tok.owning?] using hcard
      · intro seen hseen
        refine (h.seen seen ?_).shrink hself
        simpa [Tok.sharing?] using hseen
  | releaseMut =>
    obtain ⟨-, rfl⟩ := Prod.mk.inj (Option.some.inj hr)
    obtain ⟨hmut, hnone⟩ := h.alone
    refine ⟨?_, ?_, by simp, ?_⟩
    · have hcard := h.sharing
      simpa [Tok.sharing?] using hcard
    · have hcard := h.owning
      rw [if_pos hmut] at hcard
      simpa [Tok.owning?] using hcard
    · simp [hnone]
  | awaitReply =>
    obtain ⟨awaited, -, hs⟩ := Option.map_eq_some_iff.mp hr
    obtain ⟨-, rfl⟩ := Prod.mk.inj hs
    exact h
  | _ =>
    obtain ⟨-, rfl⟩ := Prod.mk.inj (Option.some.inj hr)
    exact h.frame rfl rfl hself (by simp [Tok.sharing?]) (by simp [Tok.owning?])

/-- What a call has seen in the slot holds. -/
theorem Borrowed.shows (h : Borrowed s F) {seen : Seen} (hmem : .sharing seen ∈ F) :
    s.Shows seen := h.seen seen (mem_part.mpr ⟨_, hmem, rfl⟩)

end Borrowed

/-- The invariant of the ids: every session id is opened once, and every request id is drawn and
used once. -/
structure Numbered (s : State) (D : Multiset Tok) : Prop where
  ids : Ids s.registry (part Tok.inner? D)
  once : (drawnSessions s.registry (part Tok.inner? D)).Nodup
  below : ∀ sid ∈ drawnSessions s.registry (part Tok.inner? D), sid ≤ s.connectionEpoch

section Numbered

variable {cfg : Setup} {m : Mode} {call choice : Nat} {s s' : State} {e e' F : Multiset Tok}

theorem Numbered.new : Numbered State.new 0 := by
  refine ⟨⟨?_, ?_, ?_⟩, ?_, ?_⟩
  all_goals simp [State.new, Registry.State.new, issued, drawnSessions]

/-- A step that leaves the registry alone. -/
theorem Numbered.still (h : Numbered s (e + F)) (hreg : s'.registry = s.registry)
    (he : part Tok.inner? e' = part Tok.inner? e)
    (hepoch : s'.connectionEpoch = s.connectionEpoch) : Numbered s' (e' + F) := by
  have hpart : part Tok.inner? (e' + F) = part Tok.inner? (e + F) := by
    rw [part_add, part_add, he]
  refine ⟨?_, ?_, ?_⟩
  · rw [hpart, hreg]
    exact h.ids
  · rw [hpart, hreg]
    exact h.once
  · rw [hpart, hreg, hepoch]
    exact h.below

-- The next session id is above all that were drawn.
private theorem Numbered.install {connection : Nat} (h : Numbered s ({.installing connection} + F)) :
    Numbered (s.slotInstall call connection)
      ({.registry (.unopened (s.connectionEpoch + 1))} + F) := by
  have hold : part Tok.inner? ({.installing connection} + F) = part Tok.inner? F := by
    simp [Tok.inner?]
  have hnew : part Tok.inner? ({.registry (.unopened (s.connectionEpoch + 1))} + F) =
      {.unopened (s.connectionEpoch + 1)} + part Tok.inner? F := by
    simp [Tok.inner?]
  have hdrawn : drawnSessions s.registry ({.unopened (s.connectionEpoch + 1)} +
      part Tok.inner? F) =
      (s.connectionEpoch + 1) ::ₘ drawnSessions s.registry (part Tok.inner? F) := by
    simp [drawnSessions, Tok.unopened?]
  obtain ⟨hids, honce, hbelow⟩ := h
  rw [hold] at hids honce hbelow
  refine ⟨?_, ?_, ?_⟩
  · rw [hnew]
    exact hids.of_le (by simp [Registry.Tok.id?])
  · rw [hnew]
    show (drawnSessions s.registry _).Nodup
    rw [hdrawn, Multiset.nodup_cons]
    exact ⟨fun hmem ↦ Nat.not_succ_le_self _ (hbelow _ hmem), honce⟩
  · rw [hnew]
    show ∀ sid ∈ drawnSessions s.registry _, sid ≤ s.connectionEpoch + 1
    rw [hdrawn]
    intro sid hsid
    obtain rfl | hsid := Multiset.mem_cons.mp hsid
    · exact Nat.le_refl _
    · exact Nat.le_succ_of_le (hbelow sid hsid)

/-- What an action does to the registry: it is the registry's own, it installs a connection, or it
leaves the registry and its tokens alone. -/
theorem Moves.registry_cases {a : Act} {r : a.Resp} (hm : Moves cfg m call a r e e')
    (hr : a.exec cfg call choice s = some (r, s')) :
    (∃ (b : Registry.Act) (v : b.Resp) (d d' : Multiset Registry.Tok), e = d.map .registry ∧
      e' = d'.map .registry ∧ Registry.Moves cfg.registry m.registry call b v d d' ∧
      (b.exec cfg.registry call choice s.registry).1 = v ∧
      s' = { s with registry := (b.exec cfg.registry call choice s.registry).2 }) ∨
    (∃ (connection : Nat) (G : Multiset Tok), e = {.installing connection} + G ∧
      e' = {.registry (.unopened (s.connectionEpoch + 1))} + G ∧
      s' = s.slotInstall call connection) ∨
    (part Tok.inner? e' = part Tok.inner? e ∧ s'.registry = s.registry ∧
      s'.connectionEpoch = s.connectionEpoch) := by
  cases hm with
  | @registry b v d d' hreg =>
    obtain ⟨hans, rfl⟩ := Prod.mk.inj (Option.some.inj hr)
    exact .inl ⟨b, v, d, d', rfl, rfl, hreg, hans, rfl⟩
  | @install sid connection _ =>
    obtain ⟨rfl, rfl⟩ := Prod.mk.inj (Option.some.inj hr)
    exact .inr (.inl ⟨connection, 0, (add_zero _).symm, (add_zero _).symm, rfl⟩)
  | @installOwned sid connection =>
    obtain ⟨rfl, rfl⟩ := Prod.mk.inj (Option.some.inj hr)
    exact .inr (.inl ⟨connection, {.owning}, rfl, rfl, rfl⟩)
  | takeNone =>
    rw [slotTake_none (Option.some.inj hr)]
    exact .inr (.inr ⟨rfl, rfl, rfl⟩)
  | take =>
    obtain ⟨-, rfl⟩ := slotTake_some (Option.some.inj hr)
    exact .inr (.inr ⟨by simp [Tok.inner?], rfl, rfl⟩)
  | enqueueRefused | enqueue _ | enqueueRequest _ =>
    obtain ⟨-, rfl⟩ | ⟨-, rfl⟩ := exec_enqueue hr
    all_goals exact .inr (.inr ⟨by simp [Tok.inner?], rfl, rfl⟩)
  | borrow _ | borrowMut =>
    simp only [Act.exec] at hr
    split at hr
    next => cases hr
    next =>
      obtain ⟨-, rfl⟩ := Prod.mk.inj (Option.some.inj hr)
      exact .inr (.inr ⟨by simp [Tok.inner?], rfl, rfl⟩)
  | awaitReply =>
    obtain ⟨awaited, -, hs⟩ := Option.map_eq_some_iff.mp hr
    obtain ⟨-, rfl⟩ := Prod.mk.inj hs
    exact .inr (.inr ⟨rfl, rfl, rfl⟩)
  | _ =>
    obtain ⟨-, rfl⟩ := Prod.mk.inj (Option.some.inj hr)
    exact .inr (.inr ⟨by simp [Tok.inner?], rfl, rfl⟩)

/-- Every action keeps the ids in order. -/
theorem Numbered.step {a : Act} {r : a.Resp} (h : Numbered s (e + F)) (hbound : Bound s (e + F))
    (hrouted : m.registry.routed = true) (hnumbered : m.registry.numbered = true)
    (hm : Moves cfg m call a r e e') (hr : a.exec cfg call choice s = some (r, s')) :
    Numbered s' (e' + F) := by
  obtain ⟨b, v, d, d', rfl, rfl, hreg, hans, rfl⟩ | ⟨connection, G, rfl, rfl, rfl⟩ |
    ⟨he, hreg, hepoch⟩ := hm.registry_cases hr
  · have hhome := hbound.base.home
    obtain ⟨hids, honce, hbelow⟩ := h
    rw [part_add, part_registry] at hhome hids honce hbelow
    have hle : drawnSessions (b.exec cfg.registry call choice s.registry).2
        (d' + part Tok.inner? F) ≤ drawnSessions s.registry (d + part Tok.inner? F) :=
      drawnSessions_le hnumbered hreg
    refine ⟨?_, ?_, ?_⟩
    all_goals rw [part_add, part_registry]
    · refine hids.step hhome hrouted (fun sid hb ↦ ?_) hreg hans
      subst hb
      cases hreg
      rw [openFor, if_pos hnumbered] at honce
      exact not_opened_of_unopened honce
    · exact Multiset.nodup_of_le hle honce
    · exact fun sid hsid ↦ hbelow sid (Multiset.mem_of_le hle hsid)
  · rw [add_assoc] at h ⊢
    exact h.install
  · exact h.still hreg he hepoch

end Numbered

end MsgTrans.Client
