import MsgTrans.Registry.Refinement
import MsgTrans.Registry.Renaming

/-!
# Request registry: isolation

Operations on other requests and other sessions leave no trace. Take what was done to a registry of
`crates/msgtrans/src/transport/request_registry.rs:404–999` and leave out the operations on keys and
sessions that are not looked at: those that are left answer as before, up to the names of the
generations, which all sessions share.
-/

namespace MsgTrans.Registry

/-- What is looked at: some keys, and sessions that include the sessions of these keys. -/
structure Focus where
  keys : RequestKey → Bool
  sessions : Option SessionId → Bool
  home : ∀ key, keys key = true → sessions key.sessionId = true

namespace Focus

/-- One session and its keys. -/
def session (sid : Option SessionId) : Focus where
  keys key := key.sessionId = sid
  sessions sid' := sid' = sid
  home _ h := h

/-- The operation is on something that is looked at, or on everything. -/
def keeps (F : Focus) : Op → Bool
  | .openSession sid | .closeSessionPending sid => F.sessions (some sid)
  | .nextRequestId sid => F.sessions sid
  | o => o.key?.all F.keys

/-- The answer of the operation is about what is looked at. -/
def Concerns (F : Focus) : Op → Prop
  | .scanTimeoutBucket | .abortAll => False
  | .closeSessionPending sid => ∀ key : RequestKey, key.sessionId = some sid → F.keys key = true
  | _ => True

end Focus

/-- The operations that are kept. -/
def Focus.kept (F : Focus) (deeds : List Deed) : List Deed :=
  deeds.filter fun deed ↦ F.keeps deed.op

/-- The operations that are kept, each with its answer. -/
def Focus.answers (F : Focus) (deeds : List Deed) (vs : List Outcome) : List (Op × Outcome) :=
  ((deeds.map (·.op)).zip vs).filter fun p ↦ F.keeps p.1

/-- Two registries look alike: the second has the same slots, doors and answers in the channels of
the keys that are looked at, under renamed generations, and no waiters elsewhere. -/
structure Agrees (F : Focus) (ρ : Nat ↪ Nat) (mine : Set Nat) (V W : View) : Prop where
  slots : ∀ key, F.keys key = true → W.slots key = (V.slots key).rename ρ
  doors : ∀ sid, F.sessions (some sid) = true → W.doors sid = V.doors sid
  tick : W.tick = V.tick
  nextId : F.sessions none = true → W.nextId = V.nextId
  replies : ∀ c ∈ mine, W.replies (ρ c) = V.replies c
  issued : ∀ c ∈ mine, c < V.generation
  waiters : ∀ key c, (V.slots key).waiter = some c →
    c < V.generation ∧ (c ∈ mine ↔ F.keys key = true)
  blank : ∀ key, F.keys key = false → (W.slots key).waiter = none

/-- A slot that is served keeps its waiter or loses it. -/
theorem Slot.waiter_serve (slot : Slot) (o : Op) :
    (slot.serve o).2.1.waiter = slot.waiter ∨ (slot.serve o).2.1.waiter = none := by
  have hsettle : ∀ m (won : Slot → Slot), Sheds won → (slot.settle m won).waiter = slot.waiter ∨
      (slot.settle m won).waiter = none := by
    intro m won hwon
    unfold settle
    split
    · exact hwon slot
    · exact .inl rfl
  cases o with
  | completeWaiter | markTimedOut | abortRequestToken => exact hsettle _ _ fun _ ↦ .inr rfl
  | abortWaiter => exact .inr rfl
  | beginRespond | finishRespond => exact hsettle _ _ fun _ ↦ .inl rfl
  | _ => exact .inl rfl

theorem Slot.sheds_close : Sheds close := by
  intro slot
  show (if slot.listed = true then slot.drain else slot).waiter = _ ∨
    (if slot.listed = true then slot.drain else slot).waiter = none
  split
  · exact sheds_drain slot
  · exact .inl rfl

theorem Slot.sheds_abort : Sheds abort := by
  intro slot
  show (if slot.entry.isSome = true then slot.abandon else slot).waiter = _ ∨
    (if slot.entry.isSome = true then slot.abandon else slot).waiter = none
  split
  · exact sheds_abandon slot
  · exact .inl rfl

theorem Slot.sheds_scan {cfg : RegistryConfig} {tick : Nat} {now : Instant} {i : Nat} :
    Sheds (scan cfg tick now i) :=
  fun slot ↦ (sheds_visit.iterate (slot.scheduled i))
    { slot with scheduled := Function.update slot.scheduled i 0 }

/-- The operation uses a generation up. -/
def View.mints (V : View) : Op → Bool
  | .register _ sid _ _ | .tryRegisterWaiter _ sid _ _ => V.admits sid
  | _ => false

/-- What a registration does. -/
theorem View.enroll_cases (V : View) (key : RequestKey) (bizType : UInt8) (now : Instant)
    (timeout : Duration) (after : RequestEntry → Slot → Slot) :
    (V.admits key.sessionId = false ∧ V.enroll key bizType now timeout after = (none, V)) ∨
    (V.admits key.sessionId = true ∧ (V.slots key).entry.isSome = true ∧
      V.enroll key bizType now timeout after =
        (none, { V with generation := V.generation + 1 })) ∨
    (V.admits key.sessionId = true ∧ (V.slots key).entry.isSome = false ∧
      V.enroll key bizType now timeout after =
        (some (RequestEntry.mk key bizType now (now + timeout) V.generation).token,
          { V with generation := V.generation + 1 }.set key
            (after ⟨key, bizType, now, now + timeout, V.generation⟩
              ((V.slots key).enroll ⟨key, bizType, now, now + timeout, V.generation⟩)))) := by
  unfold enroll
  cases hadmits : V.admits key.sessionId with
  | false => exact .inl ⟨rfl, rfl⟩
  | true =>
    cases hentry : (V.slots key).entry.isSome with
    | true => exact .inr (.inl ⟨rfl, rfl, rfl⟩)
    | false => exact .inr (.inr ⟨rfl, rfl, rfl⟩)

namespace Agrees

variable {F : Focus} {ρ : Nat ↪ Nat} {mine : Set Nat} {V W : View} {key : RequestKey}

/-- A slot that is not looked at changes. -/
theorem setOff (h : Agrees F ρ mine V W) (hkey : F.keys key = false) (slot : Slot)
    (hslot : ∀ c, slot.waiter = some c → c < V.generation ∧ c ∉ mine) :
    Agrees F ρ mine (V.set key slot) W where
  slots key' hkey' := by
    have hne : key' ≠ key := by
      rintro rfl
      exact Bool.false_ne_true (hkey.symm.trans hkey')
    rw [View.set_slots_of_ne slot hne]
    exact h.slots key' hkey'
  doors := h.doors
  tick := h.tick
  nextId := h.nextId
  replies := h.replies
  issued := h.issued
  waiters key' c hc := by
    by_cases hne : key' = key
    · subst hne
      rw [View.set_slots_self] at hc
      obtain ⟨hlt, hmine⟩ := hslot c hc
      exact ⟨hlt, iff_of_false hmine (Bool.eq_false_iff.mp hkey)⟩
    · rw [View.set_slots_of_ne slot hne] at hc
      exact h.waiters key' c hc
  blank := h.blank

/-- A channel of a waiter that is not looked at changes. -/
theorem ringOff (h : Agrees F ρ mine V W) (waiter : Option Nat) (effect : Reply → Reply)
    (hwaiter : ∀ c, waiter = some c → c ∉ mine) : Agrees F ρ mine (V.ring waiter effect) W := by
  cases waiter with
  | none => exact h
  | some channel =>
    refine ⟨h.slots, h.doors, h.tick, h.nextId, fun c hc ↦ ?_, h.issued, h.waiters, h.blank⟩
    have hne : c ≠ channel := fun heq ↦ hwaiter channel rfl (heq ▸ hc)
    show _ = Function.update V.replies channel _ c
    rw [Function.update_of_ne hne]
    exact h.replies c hc

/-- A slot that is looked at changes on both sides. -/
theorem setOn (h : Agrees F ρ mine V W) (hkey : F.keys key = true) (slot : Slot)
    (hslot : ∀ c, slot.waiter = some c → c < V.generation ∧ c ∈ mine) :
    Agrees F ρ mine (V.set key slot) (W.set key (slot.rename ρ)) where
  slots key' hkey' := by
    by_cases hne : key' = key
    · rw [hne, View.set_slots_self, View.set_slots_self]
    · rw [View.set_slots_of_ne _ hne, View.set_slots_of_ne _ hne]
      exact h.slots key' hkey'
  doors := h.doors
  tick := h.tick
  nextId := h.nextId
  replies := h.replies
  issued := h.issued
  waiters key' c hc := by
    by_cases hne : key' = key
    · subst hne
      rw [View.set_slots_self] at hc
      obtain ⟨hlt, hmine⟩ := hslot c hc
      exact ⟨hlt, iff_of_true hmine hkey⟩
    · rw [View.set_slots_of_ne slot hne] at hc
      exact h.waiters key' c hc
  blank key' hkey' := by
    have hne : key' ≠ key := by
      rintro rfl
      exact Bool.false_ne_true (hkey'.symm.trans hkey)
    rw [View.set_slots_of_ne _ hne]
    exact h.blank key' hkey'

/-- A channel of a waiter that is looked at changes on both sides. -/
theorem ringOn (h : Agrees F ρ mine V W) (waiter : Option Nat) (effect : Reply → Reply)
    (hwaiter : ∀ c, waiter = some c → c ∈ mine) :
    Agrees F ρ mine (V.ring waiter effect) (W.ring (waiter.map ρ) effect) := by
  cases waiter with
  | none => exact h
  | some channel =>
    refine ⟨h.slots, h.doors, h.tick, h.nextId, fun c hc ↦ ?_, h.issued, h.waiters, h.blank⟩
    show Function.update W.replies (ρ channel) _ (ρ c) = Function.update V.replies channel _ c
    by_cases hne : c = channel
    · rw [hne, Function.update_self, Function.update_self, h.replies channel (hwaiter channel rfl)]
    · rw [Function.update_of_ne hne, Function.update_of_ne (ρ.injective.ne hne)]
      exact h.replies c hc

/-- A door that is not looked at changes. -/
theorem setDoorOff (h : Agrees F ρ mine V W) {sid : SessionId}
    (hsid : F.sessions (some sid) = false)
    (door : Option UInt32) :
    Agrees F ρ mine { V with doors := Function.update V.doors sid door } W := by
  refine ⟨h.slots, fun sid' hsid' ↦ ?_, h.tick, h.nextId, h.replies, h.issued, h.waiters, h.blank⟩
  have hne : sid' ≠ sid := by
    rintro rfl
    exact Bool.false_ne_true (hsid.symm.trans hsid')
  show W.doors sid' = Function.update V.doors sid door sid'
  rw [Function.update_of_ne hne]
  exact h.doors sid' hsid'

/-- A door changes on both sides. -/
theorem setDoorOn (h : Agrees F ρ mine V W) (sid : SessionId) (door : Option UInt32) :
    Agrees F ρ mine { V with doors := Function.update V.doors sid door }
      { W with doors := Function.update W.doors sid door } := by
  refine ⟨h.slots, fun sid' hsid' ↦ ?_, h.tick, h.nextId, h.replies, h.issued, h.waiters, h.blank⟩
  show Function.update W.doors sid door sid' = Function.update V.doors sid door sid'
  by_cases hne : sid' = sid
  · rw [hne, Function.update_self, Function.update_self]
  · rw [Function.update_of_ne hne, Function.update_of_ne hne]
    exact h.doors sid' hsid'

/-- Generations are used up. -/
theorem mint (h : Agrees F ρ mine V W) {n m : Nat} (hn : V.generation ≤ n) :
    Agrees F ρ mine { V with generation := n } { W with generation := m } :=
  ⟨h.slots, h.doors, h.tick, h.nextId, h.replies,
    fun c hc ↦ Nat.lt_of_lt_of_le (h.issued c hc) hn,
    fun key c hc ↦ ⟨Nat.lt_of_lt_of_le (h.waiters key c hc).1 hn, (h.waiters key c hc).2⟩, h.blank⟩

/-- Both registries go over all slots. -/
theorem sweep (h : Agrees F ρ mine V W) {f g : RequestKey → Slot → Slot}
    (hf : ∀ key, Sheds (f key)) (hg : ∀ key, Sheds (g key))
    (hcommute : ∀ key slot, F.keys key = true → g key (slot.rename ρ) = (f key slot).rename ρ) :
    Agrees F ρ mine (V.sweep f) (W.sweep g) := by
  have hslots : ∀ key, F.keys key = true →
      g key (W.slots key) = (f key (V.slots key)).rename ρ := by
    intro key hkey
    rw [h.slots key hkey]
    exact hcommute key _ hkey
  have hlost : ∀ c ∈ mine, V.Loses f c ↔ W.Loses g (ρ c) := by
    intro c hc
    constructor
    · rintro ⟨key, hwaiter, hgone⟩
      have hkey := (h.waiters key c hwaiter).2.mp hc
      refine ⟨key, ?_, ?_⟩
      · rw [h.slots key hkey]
        exact congrArg (Option.map ρ) hwaiter
      · rw [hslots key hkey]
        show Option.map ρ _ ≠ Option.map ρ (some c)
        exact (Option.map_injective ρ.injective).ne hgone
    · rintro ⟨key, hwaiter, hgone⟩
      cases hkey : F.keys key with
      | false =>
        rw [h.blank key hkey] at hwaiter
        cases hwaiter
      | true =>
        rw [h.slots key hkey] at hwaiter
        rw [hslots key hkey] at hgone
        refine ⟨key, Option.map_injective ρ.injective hwaiter, fun heq ↦ hgone ?_⟩
        exact congrArg (Option.map ρ) heq
  refine ⟨hslots, h.doors, h.tick, h.nextId, fun c hc ↦ ?_, h.issued, fun key c hc ↦ ?_,
    fun key hkey ↦ ?_⟩
  · classical
    show (if W.Loses g (ρ c) then (W.replies (ρ c)).hangUp else W.replies (ρ c)) =
      if V.Loses f c then (V.replies c).hangUp else V.replies c
    rw [h.replies c hc]
    by_cases hloses : V.Loses f c
    · rw [if_pos hloses, if_pos ((hlost c hc).mp hloses)]
    · rw [if_neg hloses, if_neg fun h' ↦ hloses ((hlost c hc).mpr h')]
  · change (f key (V.slots key)).waiter = some c at hc
    rcases hf key (V.slots key) with heq | heq
    · exact h.waiters key c (heq ▸ hc)
    · rw [heq] at hc
      cases hc
  · show (g key (W.slots key)).waiter = none
    rcases hg key (W.slots key) with heq | heq
    · rw [heq]
      exact h.blank key hkey
    · exact heq

/-- Both registries take in a channel that no waiter has. -/
theorem adopt (h : Agrees F ρ mine V W) {c : Nat} (hc : c < V.generation)
    (hfresh : ∀ key, (V.slots key).waiter ≠ some c) :
    Agrees F ρ (insert c mine) (V.ring (some c) fun _ ↦ .empty)
      (W.ring (some (ρ c)) fun _ ↦ .empty) where
  slots := h.slots
  doors := h.doors
  tick := h.tick
  nextId := h.nextId
  replies c' hc' := by
    show Function.update W.replies (ρ c) _ (ρ c') = Function.update V.replies c _ c'
    by_cases hne : c' = c
    · rw [hne, Function.update_self, Function.update_self]
    · rw [Function.update_of_ne hne, Function.update_of_ne (ρ.injective.ne hne)]
      exact h.replies c' (Set.mem_of_mem_insert_of_ne hc' hne)
  issued c' hc' := by
    rcases Set.mem_insert_iff.mp hc' with rfl | hmem
    · exact hc
    · exact h.issued c' hmem
  waiters key c' hc' := by
    have hne : c' ≠ c := by
      rintro rfl
      exact hfresh key hc'
    obtain ⟨hlt, hmine⟩ := h.waiters key c' hc'
    exact ⟨hlt, (Set.mem_insert_iff.trans (or_iff_right hne)).trans hmine⟩
  blank := h.blank

/-- A waiter is put in where nobody looks. -/
theorem hookOff (h : Agrees F ρ mine V W) (hkey : F.keys key = false) {c : Nat}
    (hc : c < V.generation) (hmine : c ∉ mine) : Agrees F ρ mine (V.hook key c) W := by
  have hset : Agrees F ρ mine (V.set key { V.slots key with waiter := some c }) W :=
    h.setOff hkey _ fun c' hc' ↦ by
      obtain rfl := Option.some.inj hc'
      exact ⟨hc, hmine⟩
  refine (hset.ringOff _ _ fun c' hc' ↦ ?_).ringOff _ _ fun c' hc' hmem ↦ ?_
  · rwa [← Option.some.inj hc']
  · exact Bool.false_ne_true (hkey.symm.trans ((h.waiters key c' hc').2.mp hmem))

/-- A waiter is put in on both sides. -/
theorem hookOn (h : Agrees F ρ mine V W) (hkey : F.keys key = true) {c : Nat}
    (hc : c < V.generation) (hfresh : ∀ key, (V.slots key).waiter ≠ some c) :
    Agrees F ρ (insert c mine) (V.hook key c) (W.hook key (ρ c)) := by
  have hslot : (W.slots key) = (V.slots key).rename ρ := h.slots key hkey
  have hset := (h.adopt hc hfresh).setOn hkey { V.slots key with waiter := some c }
    fun c' hc' ↦ by
      obtain rfl := Option.some.inj hc'
      exact ⟨hc, Set.mem_insert _ _⟩
  rw [View.set_ring, View.set_ring] at hset
  have hring := hset.ringOn (V.slots key).waiter Reply.hangUp
    fun c' hc' ↦ Set.mem_insert_of_mem _ ((h.waiters key c' hc').2.mpr hkey)
  unfold View.hook
  rw [hslot]
  exact hring

/-- An operation on a key that is not looked at. -/
theorem serveOff (h : Agrees F ρ mine V W) (hkey : F.keys key = false) (o : Op) :
    Agrees F ρ mine (V.serve key o).2 W := by
  have hold : ∀ c, (V.slots key).waiter = some c → c < V.generation ∧ c ∉ mine := fun c hc ↦
    ⟨(h.waiters key c hc).1, fun hmem ↦
      Bool.false_ne_true (hkey.symm.trans ((h.waiters key c hc).2.mp hmem))⟩
  refine (h.setOff hkey _ fun c hc ↦ hold c ?_).ringOff _ _ fun c hc ↦ (hold c hc).2
  rcases (V.slots key).waiter_serve o with heq | heq
  · rwa [← heq]
  · rw [heq] at hc
    cases hc

/-- An operation on a key that is looked at. -/
theorem serveOn (h : Agrees F ρ mine V W) (hkey : F.keys key = true) (o : Op) :
    (W.serve key (o.rename ρ)).1 = (V.serve key o).1.rename ρ ∧
      Agrees F ρ mine (V.serve key o).2 (W.serve key (o.rename ρ)).2 := by
  have hserve : (W.slots key).serve (o.rename ρ) = (((V.slots key).serve o).1,
      ((V.slots key).serve o).2.1.rename ρ, ((V.slots key).serve o).2.2) := by
    rw [h.slots key hkey, Slot.serve_rename]
  have hold : ∀ c, (V.slots key).waiter = some c → c < V.generation ∧ c ∈ mine := fun c hc ↦
    ⟨(h.waiters key c hc).1, (h.waiters key c hc).2.mpr hkey⟩
  have hwaiter : (W.slots key).waiter = (V.slots key).waiter.map ρ := by
    rw [h.slots key hkey]
    rfl
  dsimp only [View.serve]
  rw [hserve, hwaiter, Slot.rename_serve]
  refine ⟨rfl, ?_⟩
  refine (h.setOn hkey _ fun c hc ↦ hold c ?_).ringOn _ _ fun c hc ↦ (hold c hc).2
  rcases (V.slots key).waiter_serve o with heq | heq
  · rwa [← heq]
  · rw [heq] at hc
    cases hc

/-- The wheel is nothing to the waiter. -/
theorem waiter_schedule (bucket : RequestEntry → Nat) (entry : RequestEntry) (slot : Slot) :
    ((fun entry slot ↦ slot.schedule (bucket entry) : RequestEntry → Slot → Slot) entry
      slot).waiter = slot.waiter := rfl

theorem waiter_plain (entry : RequestEntry) (slot : Slot) :
    ((fun _ slot ↦ slot : RequestEntry → Slot → Slot) entry slot).waiter = slot.waiter := rfl

/-- A registration that is not looked at. -/
theorem enrollOff (h : Agrees F ρ mine V W) (hkey : F.keys key = false) (bizType : UInt8)
    (now : Instant) (timeout : Duration) {after : RequestEntry → Slot → Slot}
    (hafter : ∀ entry slot, (after entry slot).waiter = slot.waiter) :
    Agrees F ρ mine (V.enroll key bizType now timeout after).2 W := by
  obtain ⟨-, heq⟩ | ⟨-, -, heq⟩ | ⟨-, -, heq⟩ := V.enroll_cases key bizType now timeout after
  all_goals rw [heq]
  · exact h
  · exact h.mint (Nat.le_succ _)
  · refine (h.mint (Nat.le_succ _)).setOff hkey _ fun c hc ↦ ?_
    rw [hafter] at hc
    obtain ⟨hlt, hmine⟩ := h.waiters key c hc
    exact ⟨Nat.lt_succ_of_lt hlt, fun hmem ↦
      Bool.false_ne_true (hkey.symm.trans (hmine.mp hmem))⟩

/-- A registration with a waiter that is not looked at. -/
theorem awaitOff (h : Agrees F ρ mine V W) {requestId : UInt32} {sid : Option SessionId}
    (hkey : F.keys (.outbound sid requestId) = false) (bizType : UInt8) (now : Instant)
    (timeout : Duration) :
    Agrees F ρ mine (V.await requestId sid bizType now timeout).2 W := by
  have henroll := h.enrollOff hkey bizType now timeout waiter_plain
  unfold View.await
  obtain ⟨-, heq⟩ | ⟨-, -, heq⟩ | ⟨-, -, heq⟩ :=
    V.enroll_cases (.outbound sid requestId) bizType now timeout fun _ slot ↦ slot
  all_goals rw [heq] at henroll ⊢
  · exact henroll
  · exact henroll
  · exact henroll.hookOff hkey (Nat.lt_succ_self _) fun hmem ↦
      Nat.lt_irrefl _ (h.issued _ hmem)

/-- The same sessions are open. -/
theorem admits_eq (h : Agrees F ρ mine V W) {sid : Option SessionId}
    (hsid : F.sessions sid = true) :
    W.admits sid = V.admits sid := by
  cases sid with
  | none => rfl
  | some sid =>
    show (W.doors sid).isSome = (V.doors sid).isSome
    rw [h.doors sid hsid]

/-- The same operations use generations up. -/
theorem mints_eq (h : Agrees F ρ mine V W) {deed : Deed} (hkeep : F.keeps deed.op = true) :
    W.mints (deed.rename ρ).op = V.mints deed.op := by
  obtain ⟨o, now⟩ := deed
  cases o with
  | register id sid bizType timeout => exact h.admits_eq (F.home _ hkeep)
  | tryRegisterWaiter id sid bizType timeout => exact h.admits_eq (F.home _ hkeep)
  | _ => rfl

/-- A registration that is looked at. -/
theorem enrollOn (h : Agrees F ρ mine V W) (hkey : F.keys key = true) (bizType : UInt8)
    (now : Instant) (timeout : Duration) {after : RequestEntry → Slot → Slot}
    (hafter : ∀ entry slot, (after entry slot).waiter = slot.waiter)
    (hcommute : ∀ entry slot, after (entry.rename ρ) (slot.rename ρ) = (after entry slot).rename ρ)
    (hρ : V.admits key.sessionId = true → ρ V.generation = W.generation) :
    (W.enroll key bizType now timeout after).1 =
        (V.enroll key bizType now timeout after).1.map (·.rename ρ) ∧
      Agrees F ρ mine (V.enroll key bizType now timeout after).2
        (W.enroll key bizType now timeout after).2 := by
  have hadmits := h.admits_eq (F.home key hkey)
  have hsome : (W.slots key).entry.isSome = (V.slots key).entry.isSome := by
    rw [h.slots key hkey]
    exact Option.isSome_map
  obtain ⟨hclosed, heq⟩ | ⟨hopen, hold, heq⟩ | ⟨hopen, hnew, heq⟩ :=
    V.enroll_cases key bizType now timeout after
  all_goals
    rw [heq]
    unfold View.enroll
    rw [hadmits]
  · rw [hclosed]
    exact ⟨rfl, h⟩
  · rw [hopen, hsome, hold]
    exact ⟨rfl, h.mint (Nat.le_succ _)⟩
  · rw [hopen, hsome, hnew, ← hρ hopen]
    refine ⟨rfl, ?_⟩
    have hset := (h.mint (Nat.le_succ V.generation) (m := W.generation + 1)).setOn hkey
      (after ⟨key, bizType, now, now + timeout, V.generation⟩
        ((V.slots key).enroll ⟨key, bizType, now, now + timeout, V.generation⟩)) fun c hc ↦ by
          rw [hafter] at hc
          obtain ⟨hlt, hmine⟩ := h.waiters key c hc
          exact ⟨Nat.lt_succ_of_lt hlt, hmine.mpr hkey⟩
    rw [← hcommute, ← Slot.enroll_rename, ← h.slots key hkey, ← hρ hopen] at hset
    exact hset

/-- A registration with a waiter that is looked at. -/
theorem awaitOn (h : Agrees F ρ mine V W) {requestId : UInt32} {sid : Option SessionId}
    (hkey : F.keys (.outbound sid requestId) = true) (bizType : UInt8) (now : Instant)
    (timeout : Duration) (hρ : V.admits sid = true → ρ V.generation = W.generation) :
    Outcome.waiter (W.await requestId sid bizType now timeout).1 =
        (Outcome.waiter (V.await requestId sid bizType now timeout).1).rename ρ ∧
      ∃ mine', Agrees F ρ mine' (V.await requestId sid bizType now timeout).2
        (W.await requestId sid bizType now timeout).2 ∧ mine ⊆ mine' ∧
          ∀ c token, (V.await requestId sid bizType now timeout).1 = .ok (c, token) →
            c ∈ mine' := by
  obtain ⟨hanswer, henroll⟩ :=
    h.enrollOn hkey bizType now timeout waiter_plain (fun _ _ ↦ rfl) hρ
  unfold View.await
  generalize W.enroll (.outbound sid requestId) bizType now timeout (fun _ slot ↦ slot) = enrolled
    at hanswer henroll ⊢
  obtain ⟨granted, W'⟩ := enrolled
  obtain ⟨-, heq⟩ | ⟨-, -, heq⟩ | ⟨-, -, heq⟩ :=
    V.enroll_cases (.outbound sid requestId) bizType now timeout fun _ slot ↦ slot
  all_goals
    rw [heq] at hanswer henroll ⊢
    obtain rfl : granted = _ := hanswer
  · exact ⟨rfl, mine, henroll, subset_rfl, fun _ _ hok ↦ by cases hok⟩
  · exact ⟨rfl, mine, henroll, subset_rfl, fun _ _ hok ↦ by cases hok⟩
  · refine ⟨rfl, _, henroll.hookOn hkey (Nat.lt_succ_self _) fun key hwaiter ↦ ?_,
      Set.subset_insert _ _, fun c token hok ↦ ?_⟩
    swap
    · cases hok
      exact Set.mem_insert _ _
    by_cases hne : key = .outbound sid requestId
    · rw [hne, View.set_slots_self] at hwaiter
      exact Nat.lt_irrefl _ (h.waiters _ _ hwaiter).1
    · rw [View.set_slots_of_ne _ hne] at hwaiter
      exact Nat.lt_irrefl _ (h.waiters _ _ hwaiter).1

/-- The allocation of an id that is not looked at. -/
theorem allocateOff (h : Agrees F ρ mine V W) {sid : Option SessionId}
    (hsid : F.sessions sid = false) : Agrees F ρ mine (V.allocate sid).2 W := by
  cases sid with
  | none =>
    exact ⟨h.slots, h.doors, h.tick, fun hnone ↦ absurd (hsid.symm.trans hnone) Bool.false_ne_true,
      h.replies, h.issued, h.waiters, h.blank⟩
  | some sid =>
    simp only [View.allocate]
    split
    next => exact h
    next =>
      split
      next => exact h.setDoorOff hsid _
      next => exact h

/-- The allocation of an id that is looked at. -/
theorem allocateOn (h : Agrees F ρ mine V W) {sid : Option SessionId}
    (hsid : F.sessions sid = true) : (W.allocate sid).1 = (V.allocate sid).1 ∧
      Agrees F ρ mine (V.allocate sid).2 (W.allocate sid).2 := by
  cases sid with
  | none =>
    refine ⟨congrArg some (h.nextId hsid), ?_⟩
    exact ⟨h.slots, h.doors, h.tick, fun hnone ↦ congrArg (· + 1) (h.nextId hnone), h.replies,
      h.issued, h.waiters, h.blank⟩
  | some sid =>
    simp only [View.allocate, h.doors sid hsid]
    split
    next => exact ⟨rfl, h⟩
    next =>
      split
      next => exact ⟨rfl, h.setDoorOn sid _⟩
      next => exact ⟨rfl, h⟩

/-- The closing of a session that is not looked at. -/
theorem closeOff (h : Agrees F ρ mine V W) {sid : SessionId}
    (hsid : F.sessions (some sid) = false) : Agrees F ρ mine (V.close sid).2 W := by
  unfold View.close
  split
  · exact h
  · have hsweep := h.sweep
      (f := fun key slot ↦ if key.sessionId = some sid then slot.close else slot)
      (g := fun _ slot ↦ slot) (fun key slot ↦ ?_) (fun _ _ ↦ .inl rfl) (fun key slot hkey ↦ ?_)
    · rw [View.sweep_id] at hsweep
      exact hsweep.setDoorOff hsid none
    · dsimp only
      split
      · exact Slot.sheds_close slot
      · exact .inl rfl
    · have hne : key.sessionId ≠ some sid := by
        intro heq
        have hhome := F.home key hkey
        rw [heq, hsid] at hhome
        exact Bool.false_ne_true hhome
      rw [if_neg hne]

/-- The closing of a session that is looked at. -/
theorem closeOn (h : Agrees F ρ mine V W) {sid : SessionId} (hsid : F.sessions (some sid) = true) :
    ((∀ key : RequestKey, key.sessionId = some sid → F.keys key = true) →
      (W.close sid).1 = (V.close sid).1) ∧ Agrees F ρ mine (V.close sid).2 (W.close sid).2 := by
  unfold View.close
  rw [h.doors sid hsid]
  split
  · exact ⟨fun _ ↦ rfl, h⟩
  · refine ⟨fun hfull ↦ ?_, ?_⟩
    · refine congrArg Set.ncard (Set.ext fun key ↦ and_congr_right fun hkey ↦ ?_)
      rw [h.slots key (hfull key hkey), Slot.dies_rename]
      rfl
    · have hpass : ∀ key : RequestKey, Sheds fun slot ↦
          if key.sessionId = some sid then slot.close else slot := by
        intro key slot
        dsimp only
        split
        · exact Slot.sheds_close slot
        · exact .inl rfl
      refine (h.sweep hpass hpass fun key slot _ ↦ ?_).setDoorOn sid none
      split
      · exact slot.close_rename
      · rfl

/-- Both registries scan their next bucket. -/
theorem scanOn (h : Agrees F ρ mine V W) (cfg : RegistryConfig) (now : Instant) :
    Agrees F ρ mine (V.scan cfg now).2 (W.scan cfg now).2 := by
  unfold View.scan
  rw [h.tick]
  have hsweep := h.sweep (fun _ ↦ Slot.sheds_scan) (fun _ ↦ Slot.sheds_scan) fun _ slot _ ↦
    slot.scan_rename cfg ((V.tick + 1) % 2 ^ 64) now ((V.tick + 1) % 2 ^ 64 % cfg.bucketCount)
  exact ⟨hsweep.slots, hsweep.doors, rfl, hsweep.nextId, hsweep.replies, hsweep.issued,
    hsweep.waiters, hsweep.blank⟩

/-- Both registries abort everything. -/
theorem abortOn (h : Agrees F ρ mine V W) : Agrees F ρ mine V.abortAll.2 W.abortAll.2 := by
  have hsweep := h.sweep (fun _ ↦ Slot.sheds_abort) (fun _ ↦ Slot.sheds_abort) fun _ slot _ ↦
    slot.abort_rename
  exact ⟨hsweep.slots, fun _ _ ↦ rfl, hsweep.tick, hsweep.nextId, hsweep.replies, hsweep.issued,
    hsweep.waiters, hsweep.blank⟩

/-- An operation that is left out. -/
theorem skip (h : Agrees F ρ mine V W) (cfg : RegistryConfig) {deed : Deed}
    (hkeep : F.keeps deed.op = false) : Agrees F ρ mine (V.step cfg deed).2 W := by
  obtain ⟨o, now⟩ := deed
  cases o with
  | openSession sid => exact h.setDoorOff hkeep _
  | nextRequestId sid => exact h.allocateOff hkeep
  | register id sid bizType timeout =>
    exact h.enrollOff hkeep bizType now timeout
      (waiter_schedule fun entry ↦ bucketFor cfg V.tick now entry.deadlineAt)
  | tryRegisterWaiter id sid bizType timeout => exact h.awaitOff hkeep bizType now timeout
  | closeSessionPending sid => exact h.closeOff hkeep
  | scanTimeoutBucket | abortAll => exact absurd hkeep Bool.noConfusion
  | completeWaiter | abortWaiter | beginRespond | finishRespond | markTimedOut
  | abortRequestToken => exact h.serveOff hkeep _

/-- An operation that is kept. -/
theorem step (h : Agrees F ρ mine V W) (cfg : RegistryConfig) {deed : Deed}
    (hkeep : F.keeps deed.op = true)
    (hρ : V.mints deed.op = true → ρ V.generation = W.generation) :
    (F.Concerns deed.op → (W.step cfg (deed.rename ρ)).1 = (V.step cfg deed).1.rename ρ) ∧
      ∃ mine', Agrees F ρ mine' (V.step cfg deed).2 (W.step cfg (deed.rename ρ)).2 ∧
        mine ⊆ mine' ∧
          ∀ c token, (V.step cfg deed).1 = .waiter (.ok (c, token)) → c ∈ mine' := by
  obtain ⟨o, now⟩ := deed
  have hserve : ∀ key o c token, (V.serve key o).1 = .waiter (.ok (c, token)) → c ∈ mine := by
    intro key o c token hanswer
    cases o <;> cases hanswer
  cases o with
  | openSession sid =>
    refine ⟨fun _ ↦ rfl, mine, ?_, subset_rfl, fun _ _ hanswer ↦ by cases hanswer⟩
    show Agrees F ρ mine _
      { W with doors := Function.update W.doors sid (some ((W.doors sid).getD 1)) }
    rw [h.doors sid hkeep]
    exact h.setDoorOn sid _
  | nextRequestId sid =>
    obtain ⟨hanswer, hagrees⟩ := h.allocateOn hkeep
    exact ⟨fun _ ↦ congrArg Outcome.id hanswer, mine, hagrees, subset_rfl,
      fun _ _ hanswer ↦ by cases hanswer⟩
  | register id sid bizType timeout =>
    obtain ⟨hanswer, hagrees⟩ := h.enrollOn hkeep bizType now timeout
      (waiter_schedule fun entry ↦ bucketFor cfg V.tick now entry.deadlineAt) (fun _ _ ↦ rfl) hρ
    have hstep : W.step cfg (Deed.rename ρ ⟨.register id sid bizType timeout, now⟩) =
        (W.enroll (.inbound sid id) bizType now timeout fun entry slot ↦
          slot.schedule (bucketFor cfg V.tick now entry.deadlineAt)).map .token (fun W ↦ W) := by
      rw [← h.tick]
      rfl
    rw [hstep]
    exact ⟨fun _ ↦ congrArg Outcome.token hanswer, mine, hagrees, subset_rfl,
      fun _ _ hanswer ↦ by cases hanswer⟩
  | tryRegisterWaiter id sid bizType timeout =>
    obtain ⟨hanswer, mine', hagrees, hsubset, hmine⟩ := h.awaitOn hkeep bizType now timeout hρ
    exact ⟨fun _ ↦ hanswer, mine', hagrees, hsubset,
      fun c token hok ↦ hmine c token (Outcome.waiter.inj hok)⟩
  | closeSessionPending sid =>
    obtain ⟨hanswer, hagrees⟩ := h.closeOn hkeep
    exact ⟨fun hfull ↦ congrArg Outcome.count (hanswer hfull), mine, hagrees, subset_rfl,
      fun _ _ hanswer ↦ by cases hanswer⟩
  | scanTimeoutBucket =>
    exact ⟨False.elim, mine, h.scanOn cfg now, subset_rfl, fun _ _ hanswer ↦ by cases hanswer⟩
  | abortAll =>
    exact ⟨False.elim, mine, h.abortOn, subset_rfl, fun _ _ hanswer ↦ by cases hanswer⟩
  | completeWaiter sid id packet =>
    obtain ⟨hanswer, hagrees⟩ := h.serveOn hkeep (.completeWaiter sid id packet)
    exact ⟨fun _ ↦ hanswer, mine, hagrees, subset_rfl, hserve _ _⟩
  | abortWaiter sid id =>
    obtain ⟨hanswer, hagrees⟩ := h.serveOn hkeep (.abortWaiter sid id)
    exact ⟨fun _ ↦ hanswer, mine, hagrees, subset_rfl, hserve _ _⟩
  | beginRespond token =>
    obtain ⟨hanswer, hagrees⟩ := h.serveOn hkeep (.beginRespond token)
    exact ⟨fun _ ↦ hanswer, mine, hagrees, subset_rfl, hserve _ _⟩
  | finishRespond token confirmed =>
    obtain ⟨hanswer, hagrees⟩ := h.serveOn hkeep (.finishRespond token confirmed)
    exact ⟨fun _ ↦ hanswer, mine, hagrees, subset_rfl, hserve _ _⟩
  | markTimedOut key =>
    obtain ⟨hanswer, hagrees⟩ := h.serveOn hkeep (.markTimedOut key)
    exact ⟨fun _ ↦ hanswer, mine, hagrees, subset_rfl, hserve _ _⟩
  | abortRequestToken token =>
    obtain ⟨hanswer, hagrees⟩ := h.serveOn hkeep (.abortRequestToken token)
    exact ⟨fun _ ↦ hanswer, mine, hagrees, subset_rfl, hserve _ _⟩

end Agrees

/-- A registration is what uses a generation up. -/
theorem View.generation_step (cfg : RegistryConfig) (V : View) (deed : Deed) :
    (V.step cfg deed).2.generation = V.generation + if V.mints deed.op then 1 else 0 := by
  have hring : ∀ (V : View) waiter effect, (V.ring waiter effect).generation = V.generation := by
    intro V waiter effect
    cases waiter <;> rfl
  have henroll : ∀ key bizType now timeout after,
      (V.enroll key bizType now timeout after).2.generation =
        V.generation + if V.admits key.sessionId then 1 else 0 := by
    intro key bizType now timeout after
    obtain ⟨hadmits, heq⟩ | ⟨hadmits, -, heq⟩ | ⟨hadmits, -, heq⟩ :=
      V.enroll_cases key bizType now timeout after
    all_goals
      rw [heq, hadmits]
      rfl
  obtain ⟨o, now⟩ := deed
  cases o with
  | register id sid bizType timeout =>
    exact henroll (.inbound sid id) bizType now timeout fun entry slot ↦
      slot.schedule (bucketFor cfg V.tick now entry.deadlineAt)
  | tryRegisterWaiter id sid bizType timeout =>
    have hawait : (V.await id sid bizType now timeout).2.generation =
        (V.enroll (.outbound sid id) bizType now timeout fun _ slot ↦ slot).2.generation := by
      unfold View.await
      split
      next heq => rw [heq]
      next heq =>
        rw [heq, hook, hring, hring]
        rfl
    exact hawait.trans (henroll _ _ _ _ _)
  | nextRequestId sid =>
    cases sid with
    | none => rfl
    | some sid =>
      simp only [step, allocate]
      split
      next => rfl
      next =>
        split <;> rfl
  | closeSessionPending sid =>
    simp only [step, View.close]
    split <;> rfl
  | openSession | scanTimeoutBucket | abortAll => rfl
  | completeWaiter | abortWaiter | beginRespond | finishRespond | markTimedOut
  | abortRequestToken => exact hring _ _ _

/-- The generations that the operations kept use up. -/
noncomputable def Focus.minted (F : Focus) (cfg : RegistryConfig) (V : View) : List Deed → List Nat
  | [] => []
  | deed :: deeds =>
    if F.keeps deed.op ∧ V.mints deed.op then
      V.generation :: F.minted cfg (V.step cfg deed).2 deeds
    else F.minted cfg (V.step cfg deed).2 deeds

/-- Generations go up. -/
theorem Focus.minted_ge (F : Focus) (cfg : RegistryConfig) (deeds : List Deed) :
    ∀ V : View, ∀ g ∈ F.minted cfg V deeds, V.generation ≤ g := by
  induction deeds with
  | nil => exact fun _ _ hg ↦ absurd hg List.not_mem_nil
  | cons deed deeds ih =>
    intro V g hg
    have hstep := V.generation_step cfg deed
    have hle : V.generation ≤ (V.step cfg deed).2.generation := by omega
    unfold minted at hg
    split at hg
    next =>
      obtain rfl | hg := List.mem_cons.mp hg
      · exact Nat.le_refl _
      · exact Nat.le_trans hle (ih _ g hg)
    next => exact Nat.le_trans hle (ih _ g hg)

theorem Focus.nodup_minted (F : Focus) (cfg : RegistryConfig) (deeds : List Deed) :
    ∀ V : View, (F.minted cfg V deeds).Nodup := by
  induction deeds with
  | nil => exact fun _ ↦ List.nodup_nil
  | cons deed deeds ih =>
    intro V
    unfold minted
    split
    next h =>
      refine List.nodup_cons.mpr ⟨fun hmem ↦ ?_, ih _⟩
      have hge := F.minted_ge cfg deeds _ _ hmem
      rw [V.generation_step, if_pos h.2] at hge
      exact Nat.not_succ_le_self _ hge
    next => exact ih _

/-- Numbers without repetition can be renamed to successive ones. -/
theorem exists_renaming {l : List Nat} (hl : l.Nodup) (n : Nat) :
    ∃ ρ : Nat ↪ Nat, l.map ρ = List.range' n l.length := by
  let f : Nat → Nat := fun x ↦ if x ∈ l then n + l.idxOf x else n + l.length + x
  have hf : Function.Injective f := by
    intro x y hxy
    simp only [f] at hxy
    by_cases hx : x ∈ l <;> by_cases hy : y ∈ l
    · rw [if_pos hx, if_pos hy] at hxy
      exact (List.idxOf_inj hx).mp (Nat.add_left_cancel hxy)
    · rw [if_pos hx, if_neg hy] at hxy
      have hlt := List.idxOf_lt_length_of_mem hx
      omega
    · rw [if_neg hx, if_pos hy] at hxy
      have hlt := List.idxOf_lt_length_of_mem hy
      omega
    · rw [if_neg hx, if_neg hy] at hxy
      omega
  refine ⟨⟨f, hf⟩, List.ext_getElem (by simp) fun i hi hi' ↦ ?_⟩
  have hlt : i < l.length := by simpa using hi
  rw [List.getElem_map, List.getElem_range']
  show f l[i] = _
  simp only [f, if_pos (List.getElem_mem hlt), hl.idxOf_getElem i hlt]
  omega

/-- The operations kept answer alike in the run without the others. -/
theorem Agrees.run {F : Focus} {ρ : Nat ↪ Nat} (cfg : RegistryConfig) (deeds : List Deed) :
    ∀ {mine : Set Nat} {V W : View}, Agrees F ρ mine V W →
      (F.minted cfg V deeds).map ρ = List.range' W.generation (F.minted cfg V deeds).length →
      List.Forall₂ (fun p v ↦ F.keeps p.1 = true ∧ (F.Concerns p.1 → v = p.2.rename ρ))
        (F.answers deeds (V.run cfg deeds).1)
        (W.run cfg ((F.kept deeds).map (·.rename ρ))).1 ∧
      ∃ mine', Agrees F ρ mine' (V.run cfg deeds).2
          (W.run cfg ((F.kept deeds).map (·.rename ρ))).2 ∧
        mine ⊆ mine' ∧ ∀ p ∈ F.answers deeds (V.run cfg deeds).1, ∀ c token,
          p.2 = .waiter (.ok (c, token)) → c ∈ mine' := by
  induction deeds with
  | nil => exact fun h _ ↦ ⟨.nil, _, h, subset_rfl, fun p hp ↦ absurd hp List.not_mem_nil⟩
  | cons deed deeds ih =>
    intro mine V W h hρ
    cases hkeep : F.keeps deed.op with
    | false =>
      have hskip := h.skip cfg hkeep
      have hminted : F.minted cfg V (deed :: deeds) = F.minted cfg (V.step cfg deed).2 deeds := by
        rw [Focus.minted, if_neg fun h ↦ Bool.false_ne_true (hkeep.symm.trans h.1)]
      rw [hminted] at hρ
      have hkept : F.kept (deed :: deeds) = F.kept deeds :=
        List.filter_cons_of_neg (by rw [hkeep]; exact Bool.false_ne_true)
      have hanswers : F.answers (deed :: deeds) (V.run cfg (deed :: deeds)).1 =
          F.answers deeds ((V.step cfg deed).2.run cfg deeds).1 :=
        List.filter_cons_of_neg (by rw [hkeep]; exact Bool.false_ne_true)
      rw [hkept, hanswers]
      exact ih hskip hρ
    | true =>
      have hmints : W.mints (deed.rename ρ).op = V.mints deed.op := h.mints_eq hkeep
      -- The next generation that is kept is renamed to the next one of the other registry.
      have hnext : (V.mints deed.op = true → ρ V.generation = W.generation) ∧
          (F.minted cfg (V.step cfg deed).2 deeds).map ρ =
            List.range' (W.step cfg (deed.rename ρ)).2.generation
              (F.minted cfg (V.step cfg deed).2 deeds).length := by
        rw [W.generation_step, hmints]
        rw [Focus.minted] at hρ
        cases hmint : V.mints deed.op with
        | false =>
          rw [if_neg fun h ↦ Bool.false_ne_true (hmint.symm.trans h.2)] at hρ
          exact ⟨fun h ↦ absurd h Bool.false_ne_true, hρ⟩
        | true =>
          rw [if_pos ⟨hkeep, hmint⟩, List.map_cons, List.length_cons, List.range'_succ] at hρ
          obtain ⟨hfirst, hrest⟩ := List.cons.inj hρ
          exact ⟨fun _ ↦ hfirst, hrest⟩
      obtain ⟨hanswer, mine₁, h₁, hsubset₁, hmine₁⟩ := h.step cfg hkeep hnext.1
      obtain ⟨hanswers, mine', h', hsubset, hmine⟩ := ih h₁ hnext.2
      have hkept : F.kept (deed :: deeds) = deed :: F.kept deeds := List.filter_cons_of_pos hkeep
      have hcons : F.answers (deed :: deeds) (V.run cfg (deed :: deeds)).1 =
          (deed.op, (V.step cfg deed).1) :: F.answers deeds ((V.step cfg deed).2.run cfg deeds).1 :=
        List.filter_cons_of_pos hkeep
      rw [hkept, hcons]
      refine ⟨.cons ⟨hkeep, hanswer⟩ hanswers, mine', h', hsubset₁.trans hsubset,
        fun p hp c token hok ↦ ?_⟩
      obtain rfl | hp := List.mem_cons.mp hp
      · exact hsubset (hmine₁ c token hok)
      · exact hmine p hp c token hok

/-- What a registry looks like through a focus depends on nothing else. -/
theorem Focus.isolates (F : Focus) {cfg : RegistryConfig}
    (hshard : ∀ sid, cfg.sessionShardOf sid < cfg.shards) {deeds : List Deed} {vs : List Outcome}
    {s' : State} (h : Serves cfg State.new deeds vs s')
    (hsorted : deeds.Pairwise (·.time ≤ ·.time)) :
    ∃ (ρ : Nat ↪ Nat) (vs' : List Outcome) (t' : State),
      Serves cfg State.new ((F.kept deeds).map (·.rename ρ)) vs' t' ∧
      List.Forall₂ (fun p v ↦ F.keeps p.1 = true ∧ (F.Concerns p.1 → v = p.2.rename ρ))
        (F.answers deeds vs) vs' ∧
      (∀ key, F.keys key = true → t'.slot key = (s'.slot key).rename ρ) ∧
      (∀ sid, F.sessions (some sid) = true → t'.view.doors sid = s'.view.doors sid) ∧
      ∀ p ∈ F.answers deeds vs, ∀ c token, p.2 = .waiter (.ok (c, token)) →
        t'.channels (ρ c) = s'.channels c := by
  obtain ⟨ρ, hρ⟩ := exists_renaming (F.nodup_minted cfg deeds State.new.view)
    State.new.view.generation
  have hsorted' : ((F.kept deeds).map (·.rename ρ)).Pairwise (·.time ≤ ·.time) :=
    List.pairwise_map.mpr (hsorted.filter _)
  obtain ⟨vs', t', ht⟩ := Serves.exists_of_new cfg _ hsorted'
  obtain ⟨heq, -⟩ := h.shows State.tidy_new hshard
  obtain ⟨heq', -⟩ := ht.shows State.tidy_new hshard
  have hnew : Agrees F ρ ∅ State.new.view State.new.view :=
    ⟨fun _ _ ↦ rfl, fun _ _ ↦ rfl, rfl, fun _ ↦ rfl, fun _ hc ↦ absurd hc (Set.notMem_empty _),
      fun _ hc ↦ absurd hc (Set.notMem_empty _), (fun _ _ hc ↦ by cases hc), fun _ _ ↦ rfl⟩
  obtain ⟨hanswers, mine, hagrees, -, hmine⟩ := hnew.run cfg deeds hρ
  rw [← heq, ← heq'] at hanswers hagrees
  rw [← heq] at hmine
  refine ⟨ρ, vs', t', ht, hanswers, hagrees.slots, hagrees.doors, fun p hp c token hok ↦ ?_⟩
  exact hagrees.replies c (hmine p hp c token hok)

/-- A session cannot tell what goes on in the others. Of whatever was done to a registry, leave out
what was done in other sessions: the operations of the session answer the same, up to the names of
the generations; its requests, its ids and what its waiters receive are the same. -/
theorem session_isolated {cfg : RegistryConfig}
    (hshard : ∀ sid, cfg.sessionShardOf sid < cfg.shards) {deeds : List Deed} {vs : List Outcome}
    {s' : State} (h : Serves cfg State.new deeds vs s') (hsorted : deeds.Pairwise (·.time ≤ ·.time))
    (sid : Option SessionId) :
    ∃ (ρ : Nat ↪ Nat) (vs' : List Outcome) (t' : State),
      Serves cfg State.new (((Focus.session sid).kept deeds).map (·.rename ρ)) vs' t' ∧
      List.Forall₂
        (fun p v ↦ p.1 ≠ .scanTimeoutBucket → p.1 ≠ .abortAll → v = p.2.rename ρ)
        ((Focus.session sid).answers deeds vs) vs' ∧
      (∀ key : RequestKey, key.sessionId = sid → t'.slot key = (s'.slot key).rename ρ) ∧
      (∀ sid', sid = some sid' → t'.view.doors sid' = s'.view.doors sid') ∧
      ∀ p ∈ (Focus.session sid).answers deeds vs, ∀ c token, p.2 = .waiter (.ok (c, token)) →
        t'.channels (ρ c) = s'.channels c := by
  obtain ⟨ρ, vs', t', ht, hanswers, hslots, hdoors, hreplies⟩ :=
    (Focus.session sid).isolates hshard h hsorted
  refine ⟨ρ, vs', t', ht, hanswers.imp fun p v hp hscan habort ↦ hp.2 ?_,
    fun key hkey ↦ hslots key (decide_eq_true hkey),
    fun sid' hsid ↦ hdoors sid' (decide_eq_true hsid.symm), hreplies⟩
  obtain ⟨o, w⟩ := p
  cases o with
  | scanTimeoutBucket => exact hscan rfl
  | abortAll => exact habort rfl
  | closeSessionPending sid' =>
    have hsid : some sid' = sid := of_decide_eq_true hp.1
    exact fun key hkey ↦ decide_eq_true (hkey.trans hsid)
  | _ => trivial

theorem session_isolated_one : ∃ (ρ : Nat ↪ Nat) (vs vs' : List Outcome) (s' t' : State),
    Serves (.newWithTiming 8 1000) State.new
      [⟨.openSession 1, 0⟩, ⟨.openSession 2, 0⟩, ⟨.register 7 (some 2) 0 500, 5⟩,
        ⟨.register 7 (some 1) 0 500, 6⟩, ⟨.beginRespond ⟨some 1, 7, .inbound, 2⟩, 7⟩,
        ⟨.closeSessionPending 2, 9⟩] vs s' ∧
    Serves (.newWithTiming 8 1000) State.new
      [⟨.openSession 1, 0⟩, ⟨.register 7 (some 1) 0 500, 6⟩,
        ⟨.beginRespond ⟨some 1, 7, .inbound, ρ 2⟩, 7⟩] vs' t' ∧
    ∀ key : RequestKey, key.sessionId = some 1 → t'.slot key = (s'.slot key).rename ρ := by
  obtain ⟨vs, s', h⟩ := Serves.exists_of_new (.newWithTiming 8 1000)
    [⟨.openSession 1, 0⟩, ⟨.openSession 2, 0⟩, ⟨.register 7 (some 2) 0 500, 5⟩,
      ⟨.register 7 (some 1) 0 500, 6⟩, ⟨.beginRespond ⟨some 1, 7, .inbound, 2⟩, 7⟩,
      ⟨.closeSessionPending 2, 9⟩] (by decide)
  obtain ⟨ρ, vs', t', ht, -, hslots, -⟩ :=
    session_isolated (fun _ ↦ Nat.one_pos) h (by decide) (some 1)
  exact ⟨ρ, vs, vs', s', t', h, ht, hslots⟩

end MsgTrans.Registry
