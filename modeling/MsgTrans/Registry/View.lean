import Mathlib.Data.Set.Card
import MsgTrans.Registry.Calm

/-!
# Request registry: an abstract view

What `crates/msgtrans/src/transport/request_registry.rs:404–999` is for when its operations are
performed one after another: a family of slots, one for every key, and of doors, one for every open
session. An operation on a key is a function of the slot of this key and the door of its session; a
scan and `abort_all` pass over all slots, and closing a session over the slots of its keys. A waiter
that goes without an answer finds its channel closed. The totals, the clock and the history are not
part of the view.
-/

namespace MsgTrans.Registry

open MsgTrans.Base MsgTrans.Wire

/-- What a registry holds under one key: the entry with its state, the waiter, whether the session's
index lists the key, and how often each bucket holds it. Without an entry the state is `Dropped`. -/
@[ext] structure Slot where
  entry : Option RequestEntry
  status : RequestState
  waiter : Option Nat
  listed : Bool
  scheduled : Nat → Nat

/-- The slots, the id counters of the open sessions, what the waiters' channels hold, and the shared
counters. -/
@[ext] structure View where
  slots : RequestKey → Slot
  doors : SessionId → Option UInt32
  replies : Nat → Reply
  tick : Nat
  generation : Nat
  nextId : UInt32

/-- An operation performed at an instant. -/
structure Deed where
  op : Op
  time : Instant

/-- Without its sender a channel that has nothing is closed. -/
def Reply.hangUp : Reply → Reply
  | .empty => .closed
  | reply => reply

/-- The key an operation is on. -/
def Op.key? : Op → Option RequestKey
  | .register id sid _ _ => some (.inbound sid id)
  | .tryRegisterWaiter id sid _ _ | .completeWaiter sid id _ | .abortWaiter sid id =>
    some (.outbound sid id)
  | .beginRespond token | .finishRespond token _ | .abortRequestToken token => some token.key
  | .markTimedOut key => some key
  | _ => none

/-- The bucket that `schedule_for_deadline` picks. -/
def bucketFor (cfg : RegistryConfig) (tick : Nat) (now deadlineAt : Instant) : Nat :=
  targetTick tick (ticksFromNow cfg deadlineAt now) % cfg.bucketCount

namespace Slot

/-- The answer to a mark that takes the entry out of a state. -/
def mark (slot : Slot) (source : RequestState) : MarkResult :=
  match slot.entry with
  | none => .notFound
  | some _ => if slot.status = source then .updated else .already slot.status

/-- The answer to a mark by the holder of a token. -/
def claim (slot : Slot) (token : RequestToken) (source : RequestState) : MarkResult :=
  if slot.entry.any (·.generation = token.generation) then slot.mark source else .notFound

/-- The entry is gone. -/
def retire (slot : Slot) : Slot :=
  { slot with entry := none, status := .dropped, listed := false }

/-- The waiter is gone. -/
def unhook (slot : Slot) : Slot := { slot with waiter := none }

/-- A new entry is there. -/
def enroll (slot : Slot) (entry : RequestEntry) : Slot :=
  { slot with entry := some entry, status := .pending, listed := entry.key.sessionId.isSome }

/-- One bucket holds the key once more. -/
def schedule (slot : Slot) (i : Nat) : Slot :=
  { slot with scheduled := Function.update slot.scheduled i (slot.scheduled i + 1) }

/-- The slot after a mark, changed only if the mark was made. -/
def settle (slot : Slot) (m : MarkResult) (won : Slot → Slot) : Slot :=
  if m = .updated then won slot else slot

/-- A pending entry is dropped, and with it whatever waiter there is. -/
def abandon (slot : Slot) : Slot := (slot.settle (slot.mark .pending) retire).unhook

/-- What an operation on the entry of a key answers, the slot after it, and what it does to the
waiter's channel. -/
def serve (slot : Slot) : Op → Outcome × Slot × (Reply → Reply)
  | .completeWaiter _ _ packet =>
    let m := slot.mark .pending
    (.flag (m = .updated), slot.settle m fun slot ↦ slot.retire.unhook,
      if m = .updated then fun _ ↦ .value packet else id)
  | .abortWaiter _ _ => (.flag (slot.mark .pending = .updated), slot.abandon, Reply.hangUp)
  | .beginRespond token =>
    let m := slot.claim token .pending
    (.mark m, slot.settle m fun slot ↦ { slot with status := .responding }, id)
  | .finishRespond token _ =>
    let m := slot.claim token .responding
    (.mark m, slot.settle m retire, id)
  | .markTimedOut _ =>
    let m := slot.mark .pending
    (.mark m, slot.settle m fun slot ↦ slot.retire.unhook,
      if m = .updated then Reply.hangUp else id)
  | .abortRequestToken token =>
    let m := slot.claim token .pending
    (.flag (m = .updated), slot.settle m fun slot ↦ slot.retire.unhook,
      if m = .updated then Reply.hangUp else id)
  | _ => (.unit, slot, id)

/-- The entry is pending and its time is over. -/
def overdue (slot : Slot) (now : Instant) : Bool :=
  slot.entry.any fun entry ↦ slot.status = .pending ∧ entry.deadlineAt ≤ now

/-- What a scan does to a slot whose key it finds: a pending entry is timed out or scheduled
anew. -/
def visit (cfg : RegistryConfig) (tick : Nat) (now : Instant) (slot : Slot) : Slot :=
  match slot.entry with
  | none => slot
  | some entry =>
    if slot.status ≠ .pending then slot
    else if entry.deadlineAt ≤ now then slot.retire.unhook
    else slot.schedule (bucketFor cfg tick now entry.deadlineAt)

/-- What a scan of a bucket does to a slot: one visit for each time the bucket held the key. -/
def scan (cfg : RegistryConfig) (tick : Nat) (now : Instant) (i : Nat) (slot : Slot) : Slot :=
  (visit cfg tick now)^[slot.scheduled i]
    { slot with scheduled := Function.update slot.scheduled i 0 }

/-- The entry ends with its session. -/
def dies (slot : Slot) : Bool :=
  slot.entry.isSome && (slot.status = .pending || slot.status = .responding)

/-- The drain of a closing session. -/
def drain (slot : Slot) : Slot :=
  if slot.dies then { slot.unhook with entry := none, status := .dropped } else slot

/-- What closing the session of a key does to its slot. -/
def close (slot : Slot) : Slot :=
  { (if slot.listed then slot.drain else slot) with listed := false }

/-- What `abort_all` does to a slot. -/
def abort (slot : Slot) : Slot :=
  { (if slot.entry.isSome then slot.abandon else slot) with listed := false }

end Slot

namespace View

/-- The view of a registry nothing has happened to. -/
def new : View where
  slots _ := ⟨none, .dropped, none, false, fun _ ↦ 0⟩
  doors _ := none
  replies _ := .closed
  tick := 0
  generation := 1
  nextId := 1

/-- Replace one slot. -/
def set (V : View) (key : RequestKey) (slot : Slot) : View :=
  { V with slots := Function.update V.slots key slot }

/-- Something happens to the channel of a waiter, if there is one. -/
def ring (V : View) (waiter : Option Nat) (effect : Reply → Reply) : View :=
  match waiter with
  | none => V
  | some channel =>
    { V with replies := Function.update V.replies channel (effect (V.replies channel)) }

/-- An operation on the entry of a key. -/
def serve (V : View) (key : RequestKey) (o : Op) : Outcome × View :=
  let slot := V.slots key
  ((slot.serve o).1, (V.set key (slot.serve o).2.1).ring slot.waiter (slot.serve o).2.2)

/-- The waiter of a channel goes in a pass over all slots. -/
def Loses (V : View) (pass : RequestKey → Slot → Slot) (channel : Nat) : Prop :=
  ∃ key, (V.slots key).waiter = some channel ∧ (pass key (V.slots key)).waiter ≠ some channel

open Classical in
/-- A pass over all slots. The waiters that go have their channels closed. -/
noncomputable def sweep (V : View) (pass : RequestKey → Slot → Slot) : View :=
  { V with
    slots := fun key ↦ pass key (V.slots key)
    replies := fun channel ↦
      if V.Loses pass channel then (V.replies channel).hangUp else V.replies channel }

/-- Requests of this session are accepted. -/
def admits (V : View) : Option SessionId → Bool
  | none => true
  | some sid => (V.doors sid).isSome

/-- A registration: a generation is used up unless the session is closed, and an entry is made
unless there is one. -/
def enroll (V : View) (key : RequestKey) (bizType : UInt8) (now : Instant) (timeout : Duration)
    (after : RequestEntry → Slot → Slot) : Option RequestToken × View :=
  if V.admits key.sessionId then
    let entry : RequestEntry := ⟨key, bizType, now, now + timeout, V.generation⟩
    let V' := { V with generation := V.generation + 1 }
    if (V.slots key).entry.isSome then (none, V')
    else (some entry.token, V'.set key (after entry ((V.slots key).enroll entry)))
  else (none, V)

/-- A waiter is put in; the one it replaces, if any, goes. -/
def hook (V : View) (key : RequestKey) (channel : Nat) : View :=
  ((V.set key { V.slots key with waiter := some channel }).ring (some channel) fun _ ↦ .empty).ring
    (V.slots key).waiter Reply.hangUp

/-- A registration with a waiter. -/
def await (V : View) (requestId : UInt32) (sid : Option SessionId) (bizType : UInt8) (now : Instant)
    (timeout : Duration) : Except DuplicateRequest (Nat × RequestToken) × View :=
  match V.enroll (.outbound sid requestId) bizType now timeout fun _ slot ↦ slot with
  | (none, V') => (.error ⟨sid, requestId⟩, V')
  | (some token, V') =>
    (.ok (token.generation, token), V'.hook (.outbound sid requestId) token.generation)

/-- An id for the next request of a session. -/
def allocate (V : View) : Option SessionId → Option UInt32 × View
  | none => (some V.nextId, { V with nextId := V.nextId + 1 })
  | some sid =>
    match V.doors sid with
    | none => (none, V)
    | some id =>
      if id ≠ 4294967295 then
        (some id, { V with doors := Function.update V.doors sid (some (id + 1)) })
      else (none, V)

/-- Close a session. -/
noncomputable def close (V : View) (sid : SessionId) : Nat × View :=
  match V.doors sid with
  | none => (0, V)
  | some _ =>
    ({key : RequestKey | key.sessionId = some sid ∧ (V.slots key).listed ∧
        (V.slots key).dies}.ncard,
      { V.sweep fun key slot ↦ if key.sessionId = some sid then slot.close else slot with
        doors := Function.update V.doors sid none })

/-- Abort everything. -/
noncomputable def abortAll (V : View) : Nat × View :=
  ({key : RequestKey | (V.slots key).mark .pending = .updated}.ncard,
    { V.sweep fun _ slot ↦ slot.abort with doors := fun _ ↦ none })

/-- Scan the next bucket. -/
noncomputable def scan (cfg : RegistryConfig) (V : View) (now : Instant) : Nat × View :=
  let tick := (V.tick + 1) % 2 ^ 64
  let i := tick % cfg.bucketCount
  ({key : RequestKey | (V.slots key).scheduled i ≠ 0 ∧ (V.slots key).overdue now}.ncard,
    { V.sweep fun _ slot ↦ slot.scan cfg tick now i with tick := tick })

/-- The answer and the effect of an operation. -/
noncomputable def step (cfg : RegistryConfig) (V : View) : Deed → Outcome × View
  | ⟨.openSession sid, _⟩ =>
    (.unit, { V with doors := Function.update V.doors sid (some ((V.doors sid).getD 1)) })
  | ⟨.nextRequestId sid, _⟩ => (V.allocate sid).map .id id
  | ⟨.register requestId sid bizType timeout, now⟩ =>
    (V.enroll (.inbound sid requestId) bizType now timeout fun entry slot ↦
      slot.schedule (bucketFor cfg V.tick now entry.deadlineAt)).map .token id
  | ⟨.tryRegisterWaiter requestId sid bizType timeout, now⟩ =>
    (V.await requestId sid bizType now timeout).map .waiter id
  | ⟨.closeSessionPending sid, _⟩ => (V.close sid).map .count id
  | ⟨.scanTimeoutBucket, now⟩ => (V.scan cfg now).map .count id
  | ⟨.completeWaiter sid id packet, _⟩ =>
    V.serve (.outbound sid id) (.completeWaiter sid id packet)
  | ⟨.abortWaiter sid id, _⟩ => V.serve (.outbound sid id) (.abortWaiter sid id)
  | ⟨.beginRespond token, _⟩ => V.serve token.key (.beginRespond token)
  | ⟨.finishRespond token confirmed, _⟩ => V.serve token.key (.finishRespond token confirmed)
  | ⟨.markTimedOut key, _⟩ => V.serve key (.markTimedOut key)
  | ⟨.abortRequestToken token, _⟩ => V.serve token.key (.abortRequestToken token)
  | ⟨.abortAll, _⟩ => V.abortAll.map .count id

end View

/-- A change of slots that puts no waiter in. -/
def Sheds (f : Slot → Slot) : Prop :=
  ∀ slot, (f slot).waiter = slot.waiter ∨ (f slot).waiter = none

theorem Sheds.iterate {f : Slot → Slot} (hf : Sheds f) (n : Nat) : Sheds f^[n] := by
  intro slot
  induction n with
  | zero => exact .inl rfl
  | succ n ih =>
    rw [Function.iterate_succ_apply']
    rcases hf (f^[n] slot) with hkept | hgone
    · rwa [hkept]
    · exact .inr hgone

namespace View

variable {V : View} {key : RequestKey} {f : Slot → Slot}

/-- A waiter goes in two passes if it goes in the first or in the second. -/
theorem loses_sweep {f g : RequestKey → Slot → Slot} (hf : ∀ key, Sheds (f key))
    (hg : ∀ key, Sheds (g key)) (channel : Nat) :
    V.Loses (fun key slot ↦ g key (f key slot)) channel ↔
      V.Loses f channel ∨ (V.sweep f).Loses g channel := by
  constructor
  · rintro ⟨key, hwaiter, hgone⟩
    by_cases hmid : (f key (V.slots key)).waiter = some channel
    · exact .inr ⟨key, hmid, hgone⟩
    · exact .inl ⟨key, hwaiter, hmid⟩
  · rintro (⟨key, hwaiter, hgone⟩ | ⟨key, hwaiter, hgone⟩)
    · refine ⟨key, hwaiter, ?_⟩
      show (g key (f key (V.slots key))).waiter ≠ some channel
      rcases hg key (f key (V.slots key)) with heq | heq
      · rwa [heq]
      · rw [heq]
        exact (Option.some_ne_none channel).symm
    · change (f key (V.slots key)).waiter = some channel at hwaiter
      rcases hf key (V.slots key) with heq | heq
      · exact ⟨key, heq ▸ hwaiter, hgone⟩
      · rw [heq] at hwaiter
        cases hwaiter

open Classical in
/-- Two passes are one. -/
theorem sweep_sweep {f g : RequestKey → Slot → Slot} (hf : ∀ key, Sheds (f key))
    (hg : ∀ key, Sheds (g key)) :
    (V.sweep f).sweep g = V.sweep fun key slot ↦ g key (f key slot) := by
  have htwice : ∀ reply : Reply, reply.hangUp.hangUp = reply.hangUp := by
    intro reply
    cases reply <;> rfl
  refine View.ext rfl rfl (funext fun channel ↦ ?_) rfl rfl rfl
  have hlost := loses_sweep (V := V) hf hg channel
  have hfirst : (V.sweep f).replies channel =
      if V.Loses f channel then (V.replies channel).hangUp else V.replies channel := rfl
  show (if (V.sweep f).Loses g channel then ((V.sweep f).replies channel).hangUp
    else (V.sweep f).replies channel) = if V.Loses _ channel then _ else _
  rw [hfirst]
  by_cases h₁ : V.Loses f channel <;> by_cases h₂ : (V.sweep f).Loses g channel
  · rw [if_pos h₂, if_pos h₁, if_pos (hlost.mpr (.inl h₁)), htwice]
  · rw [if_neg h₂, if_pos h₁, if_pos (hlost.mpr (.inl h₁))]
  · rw [if_pos h₂, if_neg h₁, if_pos (hlost.mpr (.inr h₂))]
  · rw [if_neg h₂, if_neg h₁, if_neg fun h ↦ (hlost.mp h).elim h₁ h₂]

open Classical in
/-- Passes over two views that leave the same slots. -/
theorem sweep_congr {W : View} {f g : RequestKey → Slot → Slot}
    (hslots : ∀ key, f key (W.slots key) = g key (V.slots key))
    (hwaiter : ∀ key, (W.slots key).waiter = (V.slots key).waiter)
    (hreplies : W.replies = V.replies) :
    (W.sweep f).slots = (V.sweep g).slots ∧ (W.sweep f).replies = (V.sweep g).replies := by
  refine ⟨funext hslots, funext fun channel ↦ ?_⟩
  have hlost : W.Loses f channel ↔ V.Loses g channel := by
    simp only [Loses, hslots, hwaiter]
  show (if W.Loses f channel then (W.replies channel).hangUp else W.replies channel) =
    if V.Loses g channel then (V.replies channel).hangUp else V.replies channel
  rw [hreplies]
  by_cases h : V.Loses g channel
  · rw [if_pos h, if_pos (hlost.mpr h)]
  · rw [if_neg h, if_neg fun h' ↦ h (hlost.mp h')]

/-- A pass that changes nothing. -/
theorem sweep_id : (V.sweep fun _ slot ↦ slot) = V := by
  refine View.ext rfl rfl (funext fun channel ↦ ?_) rfl rfl rfl
  exact if_neg fun ⟨_, hwaiter, hgone⟩ ↦ hgone hwaiter

open Classical in
/-- A pass that changes one slot. -/
theorem sweep_single (hf : Sheds f) :
    (V.sweep fun key' slot ↦ if key' = key then f slot else slot) =
      (V.set key (f (V.slots key))).ring (V.slots key).waiter
        (if (f (V.slots key)).waiter = none then Reply.hangUp else id) := by
  have hlost : ∀ channel, V.Loses (fun key' slot ↦ if key' = key then f slot else slot) channel ↔
      (V.slots key).waiter = some channel ∧ (f (V.slots key)).waiter = none := by
    intro channel
    constructor
    · rintro ⟨key', hwaiter, hgone⟩
      dsimp only at hgone
      by_cases hkey : key' = key
      · subst hkey
        rw [if_pos rfl] at hgone
        rcases hf (V.slots key') with heq | heq
        · exact absurd (heq.trans hwaiter) hgone
        · exact ⟨hwaiter, heq⟩
      · rw [if_neg hkey] at hgone
        exact absurd hwaiter hgone
    · rintro ⟨hwaiter, hgone⟩
      refine ⟨key, hwaiter, ?_⟩
      dsimp only
      rw [if_pos rfl, hgone]
      exact (Option.some_ne_none channel).symm
  have hslots : (fun key' ↦ if key' = key then f (V.slots key') else V.slots key') =
      Function.update V.slots key (f (V.slots key)) := by
    funext key'
    by_cases hkey : key' = key
    · rw [if_pos hkey, hkey, Function.update_self]
    · rw [if_neg hkey, Function.update_of_ne hkey]
  cases hwaiter : (V.slots key).waiter with
  | none =>
    refine View.ext hslots rfl (funext fun channel ↦ if_neg ?_) rfl rfl rfl
    rw [hlost, hwaiter]
    exact fun h ↦ absurd h.1.symm (Option.some_ne_none channel)
  | some channel =>
    refine View.ext hslots rfl (funext fun channel' ↦ ?_) rfl rfl rfl
    show (if V.Loses _ channel' then _ else _) = Function.update V.replies channel _ channel'
    by_cases hchannel : channel' = channel
    · subst hchannel
      rw [Function.update_self]
      by_cases hgone : (f (V.slots key)).waiter = none
      · rw [if_pos ((hlost channel').mpr ⟨hwaiter, hgone⟩), if_pos hgone]
        rfl
      · rw [if_neg fun h ↦ hgone ((hlost channel').mp h).2, if_neg hgone]
        rfl
    · rw [Function.update_of_ne hchannel, if_neg]
      rw [hlost, hwaiter]
      exact fun h ↦ hchannel (Option.some.inj h.1).symm

/-- One slot is changed, and its waiter may go. -/
def visit (V : View) (f : Slot → Slot) (key : RequestKey) : View :=
  (V.set key (f (V.slots key))).ring (V.slots key).waiter
    (if (f (V.slots key)).waiter = none then Reply.hangUp else id)

theorem visit_slots (key' : RequestKey) :
    (V.visit f key).slots key' = if key' = key then f (V.slots key) else V.slots key' := by
  have hslots : (V.visit f key).slots = Function.update V.slots key (f (V.slots key)) := by
    unfold visit ring
    split <;> rfl
  rw [hslots, Function.update_apply]

/-- A function of slots goes over the keys of a list, as often as the list has them. -/
noncomputable def pass (V : View) (f : Slot → Slot) (keys : List RequestKey) : View :=
  V.sweep fun key ↦ f^[keys.count key]

theorem pass_nil : V.pass f [] = V := sweep_id

theorem pass_cons (hf : Sheds f) (keys : List RequestKey) :
    V.pass f (key :: keys) = (V.visit f key).pass f keys := by
  have hone : ∀ key', Sheds fun slot ↦ if key' = key then f slot else slot := by
    intro key' slot
    dsimp only
    split
    · exact hf slot
    · exact .inl rfl
  rw [visit, ← sweep_single hf, pass, pass, sweep_sweep hone fun _ ↦ hf.iterate _]
  congr 1
  funext key' slot
  by_cases hkey : key' = key
  · rw [hkey, List.count_cons_self, Function.iterate_succ_apply, if_pos rfl]
  · rw [List.count_cons_of_ne (Ne.symm hkey), if_neg hkey]

theorem pass_append (hf : Sheds f) (keys keys' : List RequestKey) :
    V.pass f (keys ++ keys') = (V.pass f keys).pass f keys' := by
  induction keys generalizing V with
  | nil => rw [List.nil_append, pass_nil]
  | cons key keys ih => rw [List.cons_append, pass_cons hf, pass_cons hf, ih]

/-- A function that does the same again goes over every key once. -/
theorem pass_of_idempotent (hf : ∀ slot, f (f slot) = f slot) (keys : List RequestKey) :
    V.pass f keys = V.sweep fun key slot ↦ if key ∈ keys then f slot else slot := by
  have honce : ∀ n slot, f^[n + 1] slot = f slot := by
    intro n slot
    induction n with
    | zero => rfl
    | succ n ih => rw [Function.iterate_succ_apply', ih, hf]
  unfold pass
  congr 1
  funext key slot
  by_cases hkey : key ∈ keys
  · obtain ⟨n, hn⟩ := Nat.exists_eq_succ_of_ne_zero (List.count_pos_iff.mpr hkey).ne'
    rw [if_pos hkey, hn, honce]
  · rw [if_neg hkey, List.count_eq_zero_of_not_mem hkey, Function.iterate_zero_apply]

/-- How many keys of a list have slots of a kind. -/
noncomputable def tally (V : View) (p : Slot → Bool) (keys : List RequestKey) : Nat :=
  {key | key ∈ keys ∧ p (V.slots key)}.ncard

theorem tally_nil {p : Slot → Bool} : V.tally p [] = 0 := by
  simp [tally]

/-- A slot that has been visited is not of the kind any more. -/
theorem tally_cons {p : Slot → Bool} (hp : ∀ slot, p (f slot) = false) (keys : List RequestKey) :
    V.tally p (key :: keys) =
      (if p (V.slots key) then 1 else 0) + (V.visit f key).tally p keys := by
  have hvisited : {key' | key' ∈ keys ∧ p ((V.visit f key).slots key')} =
      {key' | key' ∈ key :: keys ∧ p (V.slots key')} \ {key} := by
    ext key'
    simp only [visit_slots, Set.mem_ofPred_eq, Set.mem_sdiff, Set.mem_singleton_iff, List.mem_cons]
    by_cases hkey : key' = key
    · simp [hkey, hp]
    · simp [hkey]
  have hfinite : {key' | key' ∈ key :: keys ∧ p (V.slots key')}.Finite :=
    (key :: keys).toFinset.finite_toSet.subset fun key' h ↦ List.mem_toFinset.mpr h.1
  unfold tally
  rw [hvisited]
  split
  next hkind =>
    have hmem : key ∈ {key' | key' ∈ key :: keys ∧ p (V.slots key')} :=
      ⟨List.mem_cons_self, hkind⟩
    rw [Nat.add_comm, Set.ncard_sdiff_singleton_add_one hmem hfinite]
  next hkind =>
    rw [Nat.zero_add, Set.sdiff_singleton_eq_self fun h ↦ hkind h.2]

theorem tally_append {p : Slot → Bool} (hf : Sheds f) (hp : ∀ slot, p (f slot) = false)
    (keys keys' : List RequestKey) :
    V.tally p (keys ++ keys') = V.tally p keys + (V.pass f keys).tally p keys' := by
  induction keys generalizing V with
  | nil => rw [List.nil_append, tally_nil, pass_nil, Nat.zero_add]
  | cons key keys ih =>
    rw [List.cons_append, tally_cons hp, tally_cons hp, ih, pass_cons hf, Nat.add_assoc]

end View

end MsgTrans.Registry
