import MsgTrans.Registry.View

/-!
# Request registry: what the actions do to the view

The atomic actions of the methods in `crates/msgtrans/src/transport/request_registry.rs:404–999`,
seen through the abstract view: the concrete state shows a view, and each action on it shows the
next one.
-/

namespace MsgTrans.Registry

open MsgTrans.Base MsgTrans.Base.Prog MsgTrans.Wire

/-- An action performed at an instant: the clock says so, and the scheduler orders the iteration of
a shard. -/
def Act.execAt (cfg : RegistryConfig) (call : Nat) (now : Instant) :
    (a : Act) → Nat → State → a.Resp × State
  | .now, _, s => (now, { s with clock := now })
  | a, choice, s => a.exec cfg call choice s

/-- A clock that has not passed the instant is advanced to it. -/
theorem Act.execAt_eq (cfg : RegistryConfig) (call : Nat) {now : Instant} {s : State}
    (h : s.clock ≤ now) (a : Act) (choice : Nat) :
    ∃ choice', a.execAt cfg call now choice s = a.exec cfg call choice' s := by
  cases a with
  | now =>
    refine ⟨now - s.clock, ?_⟩
    simp only [execAt, exec, Nat.add_sub_cancel' h]
  | _ => exact ⟨choice, rfl⟩

/-- The clock does not pass the instant. -/
theorem Act.clock_execAt (cfg : RegistryConfig) (call : Nat) {now : Instant} {s : State}
    (h : s.clock ≤ now) (a : Act) (choice : Nat) :
    (a.execAt cfg call now choice s).2.clock ≤ now := by
  cases a with
  | now => exact le_refl now
  | entriesInsert entry =>
    simp only [execAt, exec, State.entriesInsert]
    split <;> exact h
  | entriesRemove caller key =>
    simp only [execAt, exec, State.entriesRemove]
    split <;> exact h
  | tryTransition caller token source target =>
    simp only [execAt, exec, State.tryTransition]
    repeat' split
    all_goals exact h
  | channelDrop channel =>
    simp only [execAt, exec, State.channelDrop]
    split <;> exact h
  | sessionsOrInsert sid =>
    simp only [execAt, exec, State.sessionsOrInsert]
    split <;> exact h
  | nextRequestIdFetchUpdate rt =>
    simp only [execAt, exec, State.nextRequestIdFetchUpdate]
    split <;> exact h
  | _ => exact h

namespace State

/-- The index of its session lists the key. -/
def listed (s : State) (key : RequestKey) : Bool :=
  match key.sessionId with
  | none => false
  | some sid => (s.sessions.lookup sid).any fun rt ↦ key ∈ (s.runtimes rt).requests

/-- What the registry holds under a key. -/
def slot (s : State) (key : RequestKey) : Slot where
  entry := s.entries.lookup key
  status := ((s.entries.lookup key).bind fun entry ↦ s.cells entry.token).getD .dropped
  waiter := s.waiters.lookup key
  listed := s.listed key
  scheduled i := (s.buckets i).count key

/-- The abstract view of the registry. -/
def view (s : State) : View where
  slots := s.slot
  doors sid := (s.sessions.lookup sid).map fun rt ↦ (s.runtimes rt).nextRequestId
  replies := s.channels
  tick := s.currentTick
  generation := s.nextGeneration
  nextId := s.nextId

/-- Between operations entries are found under their keys, every session known has an open runtime
of its own, and this one's index lists keys of the session. -/
structure Tidy (s : State) : Prop where
  keyed : s.Keyed
  distinct : ∀ sid sid' rt, s.sessions.lookup sid = some rt → s.sessions.lookup sid' = some rt →
    sid = sid'
  fresh : ∀ sid rt, s.sessions.lookup sid = some rt → rt < s.nextRuntime
  isOpen : ∀ sid rt, s.sessions.lookup sid = some rt → (s.runtimes rt).isOpen = true
  homed : ∀ sid rt, s.sessions.lookup sid = some rt → ∀ key ∈ (s.runtimes rt).requests,
    key.sessionId = some sid

/-- The registry is tidy and looks like this. -/
structure Shows (s : State) (V : View) : Prop where
  tidy : s.Tidy
  view : s.view = V

theorem Tidy.shows {s : State} (hs : s.Tidy) : s.Shows s.view := ⟨hs, rfl⟩

theorem tidy_new : State.new.Tidy where
  keyed _ _ h := by cases h
  distinct _ _ _ h := by cases h
  fresh _ _ h := by cases h
  isOpen _ _ h := by cases h
  homed _ _ h := by cases h

end State

namespace View

variable {V : View} {key : RequestKey}

@[simp] theorem set_slots_self (slot : Slot) : (V.set key slot).slots key = slot :=
  Function.update_self _ _ _

theorem set_slots_of_ne {key' : RequestKey} (slot : Slot) (h : key' ≠ key) :
    (V.set key slot).slots key' = V.slots key' := Function.update_of_ne h _ _

@[simp] theorem set_set (a b : Slot) : (V.set key a).set key b = V.set key b := by
  simp only [set, Function.update_idem]

@[simp] theorem set_self : V.set key (V.slots key) = V := by
  simp only [set, Function.update_eq_self]

@[simp] theorem ring_id (waiter : Option Nat) : V.ring waiter id = V := by
  cases waiter with
  | none => rfl
  | some channel => exact View.ext rfl rfl (Function.update_eq_self _ _) rfl rfl rfl

@[simp] theorem ring_slots (waiter : Option Nat) (effect : Reply → Reply) :
    (V.ring waiter effect).slots = V.slots := by
  cases waiter <;> rfl

theorem set_ring (slot : Slot) (waiter : Option Nat) (effect : Reply → Reply) :
    (V.ring waiter effect).set key slot = (V.set key slot).ring waiter effect := by
  cases waiter <;> rfl

@[simp] theorem set_doors (slot : Slot) : (V.set key slot).doors = V.doors := rfl

@[simp] theorem set_tick (slot : Slot) : (V.set key slot).tick = V.tick := rfl

end View

/-- A change that leaves the waiter leaves it whether it is made or not. -/
theorem Slot.settle_waiter {slot : Slot} {m : MarkResult} {won : Slot → Slot}
    (hwon : ∀ slot, (won slot).waiter = slot.waiter) :
    (slot.settle m won).waiter = slot.waiter := by
  unfold Slot.settle
  split
  · exact hwon slot
  · rfl

theorem Slot.waiter_retire (slot : Slot) : slot.retire.waiter = slot.waiter := rfl

section Actions

variable {s : State} {V : View} {key : RequestKey} {cfg : RegistryConfig} {now : Instant}

namespace State.Shows

theorem entry (hs : s.Shows V) (key : RequestKey) : s.entries.lookup key = (V.slots key).entry := by
  rw [← hs.view]
  rfl

theorem waiter (hs : s.Shows V) (key : RequestKey) :
    s.waiters.lookup key = (V.slots key).waiter := by
  rw [← hs.view]
  rfl

theorem door (hs : s.Shows V) (sid : SessionId) : V.doors sid =
    (s.sessions.lookup sid).map fun rt ↦ (s.runtimes rt).nextRequestId := by
  rw [← hs.view]
  rfl

/-- The totals, the clock and the history are out of sight. -/
theorem same (hs : s.Shows V) {counters : RequestCounters} {clock : Instant}
    {history : List Event} :
    ({ s with counters := counters, clock := clock, history := history } : State).Shows V :=
  ⟨⟨hs.tidy.keyed, hs.tidy.distinct, hs.tidy.fresh, hs.tidy.isOpen, hs.tidy.homed⟩, hs.view⟩

/-- The tick moves. -/
theorem ticked (hs : s.Shows V) (tick : Nat) :
    ({ s with currentTick := tick } : State).Shows { V with tick := tick } := by
  refine ⟨⟨hs.tidy.keyed, hs.tidy.distinct, hs.tidy.fresh, hs.tidy.isOpen, hs.tidy.homed⟩, ?_⟩
  rw [← hs.view]
  rfl

/-- A generation is used up. -/
theorem generated (hs : s.Shows V) (generation : Nat) :
    ({ s with nextGeneration := generation } : State).Shows
      { V with generation := generation } := by
  refine ⟨⟨hs.tidy.keyed, hs.tidy.distinct, hs.tidy.fresh, hs.tidy.isOpen, hs.tidy.homed⟩, ?_⟩
  rw [← hs.view]
  rfl

/-- A shared id is used up. -/
theorem numbered (hs : s.Shows V) (id : UInt32) :
    ({ s with nextId := id } : State).Shows { V with nextId := id } := by
  refine ⟨⟨hs.tidy.keyed, hs.tidy.distinct, hs.tidy.fresh, hs.tidy.isOpen, hs.tidy.homed⟩, ?_⟩
  rw [← hs.view]
  rfl

/-- A change of one slot. -/
theorem change (hs : s.Shows V) {s' : State} {slot : Slot} (htidy : s'.Tidy)
    (hslot : s'.slot key = slot) (hother : ∀ key' ≠ key, s'.slot key' = s.slot key')
    (hdoors : s'.view.doors = s.view.doors) (hchannels : s'.channels = s.channels)
    (htick : s'.currentTick = s.currentTick)
    (hgeneration : s'.nextGeneration = s.nextGeneration) (hid : s'.nextId = s.nextId) :
    s'.Shows (V.set key slot) := by
  refine ⟨htidy, ?_⟩
  rw [← hs.view]
  refine View.ext (funext fun key' ↦ ?_) hdoors hchannels htick hgeneration hid
  show s'.slot key' = Function.update s.slot key slot key'
  by_cases hkey : key' = key
  · rw [hkey, hslot, Function.update_self]
  · rw [hother key' hkey, Function.update_of_ne hkey]

/-- A transition out of the entry's state is made. -/
theorem transition (hs : s.Shows V) {entry : RequestEntry} {source : RequestState} (call : Nat)
    (caller : Caller) (target : RequestState) (hentry : (V.slots key).entry = some entry)
    (hstatus : (V.slots key).status = source) (hsource : source ≠ .dropped) :
    (s.tryTransition call caller entry.token source target).1 = .ok () ∧
      (s.tryTransition call caller entry.token source target).2.Shows
        (V.set key { V.slots key with status := target }) := by
  have hl : s.entries.lookup key = some entry := (hs.entry key).trans hentry
  have hc : s.cells entry.token = some source := by
    rw [← hs.view] at hstatus
    simp only [State.view, State.slot, hl, Option.bind_some] at hstatus
    cases hcell : s.cells entry.token with
    | none =>
      rw [hcell] at hstatus
      exact absurd hstatus.symm hsource
    | some current =>
      rw [hcell] at hstatus
      rw [← hstatus]
      rfl
  simp only [State.tryTransition, hc, if_true]
  refine ⟨trivial, hs.change ?_ ?_ (fun key' hkey' ↦ ?_) rfl rfl rfl rfl rfl⟩
  · exact ⟨hs.tidy.keyed, hs.tidy.distinct, hs.tidy.fresh, hs.tidy.isOpen, hs.tidy.homed⟩
  · rw [← hs.view]
    simp only [State.view, State.slot, State.record, hl, Option.bind_some, Function.update_self,
      Option.getD_some]
    rfl
  · simp only [State.slot, State.record]
    cases hl' : s.entries.lookup key' with
    | none => rfl
    | some entry' =>
      have hne : entry'.token ≠ entry.token := by
        intro heq
        have heq := congrArg RequestToken.key heq
        rw [RequestEntry.key_token, RequestEntry.key_token, hs.tidy.keyed _ _ hl,
          hs.tidy.keyed _ _ hl'] at heq
        exact hkey' heq
      simp only [Option.bind_some, Function.update_of_ne hne]
      rfl

/-- Any other transition is refused. -/
theorem refused (hs : s.Shows V) {entry : RequestEntry} {source : RequestState} {call : Nat}
    {caller : Caller} {target : RequestState} (hentry : (V.slots key).entry = some entry)
    (hstatus : (V.slots key).status ≠ source) :
    s.tryTransition call caller entry.token source target =
      (.error (V.slots key).status, s) := by
  have hl : s.entries.lookup key = some entry := (hs.entry key).trans hentry
  rw [← hs.view] at hstatus ⊢
  simp only [State.view, State.slot, hl, Option.bind_some] at hstatus ⊢
  rw [State.tryTransition]
  cases hcell : s.cells entry.token with
  | none => rfl
  | some current =>
    rw [hcell] at hstatus
    exact if_neg hstatus

/-- The state of an entry's cell. -/
theorem status (hs : s.Shows V) {entry : RequestEntry} (hentry : (V.slots key).entry = some entry) :
    (s.cells entry.token).getD .dropped = (V.slots key).status := by
  have hl : s.entries.lookup key = some entry := (hs.entry key).trans hentry
  rw [← hs.view]
  simp only [State.view, State.slot, hl, Option.bind_some]

/-- Without an entry the state is `Dropped`. -/
theorem status_of_none (hs : s.Shows V) (h : (V.slots key).entry = none) :
    (V.slots key).status = .dropped := by
  have hl : s.entries.lookup key = none := (hs.entry key).trans h
  rw [← hs.view]
  simp only [State.view, State.slot, hl]
  rfl

/-- The entry is removed. -/
theorem erased (hs : s.Shows V) (call : Nat) (caller : Caller) (key : RequestKey) :
    (s.entriesRemove call caller key).Shows
      (V.set key { V.slots key with entry := none, status := .dropped }) := by
  rw [State.entriesRemove]
  cases hl : s.entries.lookup key with
  | none =>
    have hentry : (V.slots key).entry = none := (hs.entry key).symm.trans hl
    have hsame : { V.slots key with entry := none, status := .dropped } = V.slots key :=
      Slot.ext hentry.symm (hs.status_of_none hentry).symm rfl rfl rfl
    rw [hsame, View.set_self]
    exact hs
  | some entry =>
    have hne : ∀ key' ≠ key, (s.entries.erase key).lookup key' = s.entries.lookup key' :=
      fun key' hkey' ↦ AList.lookup_erase_ne hkey'
    have hself : (s.entries.erase key).lookup key = none := AList.lookup_erase _ _
    refine hs.change ?_ ?_ (fun key' hkey' ↦ ?_) rfl rfl rfl rfl rfl
    · refine ⟨fun key' entry' hl' ↦ ?_, hs.tidy.distinct, hs.tidy.fresh, hs.tidy.isOpen,
        hs.tidy.homed⟩
      by_cases hkey' : key' = key
      · rw [hkey'] at hl'
        exact absurd (hself.symm.trans hl') (Option.some_ne_none entry').symm
      · exact hs.tidy.keyed key' entry' ((hne key' hkey').symm.trans hl')
    · rw [← hs.view]
      simp only [State.view, State.slot, State.record, hself]
      rfl
    · simp only [State.slot, State.record, hne key' hkey']
      rfl

/-- The waiter is removed. -/
theorem unhooked (hs : s.Shows V) (key : RequestKey) :
    ({ s with waiters := s.waiters.erase key } : State).Shows (V.set key (V.slots key).unhook) := by
  refine hs.change ?_ ?_ (fun key' hkey' ↦ ?_) rfl rfl rfl rfl rfl
  · exact ⟨hs.tidy.keyed, hs.tidy.distinct, hs.tidy.fresh, hs.tidy.isOpen, hs.tidy.homed⟩
  · rw [← hs.view]
    simp only [State.view, State.slot, AList.lookup_erase, Slot.unhook]
    rfl
  · simp only [State.slot, AList.lookup_erase_ne hkey']
    rfl

/-- A waiter is put in. -/
theorem waiting (hs : s.Shows V) (key : RequestKey) (channel : Nat) :
    ({ s with waiters := s.waiters.insert key channel } : State).Shows
      (V.set key { V.slots key with waiter := some channel }) := by
  refine hs.change ?_ ?_ (fun key' hkey' ↦ ?_) rfl rfl rfl rfl rfl
  · exact ⟨hs.tidy.keyed, hs.tidy.distinct, hs.tidy.fresh, hs.tidy.isOpen, hs.tidy.homed⟩
  · rw [← hs.view]
    simp only [State.view, State.slot, AList.lookup_insert]
    rfl
  · simp only [State.slot, AList.lookup_insert_ne hkey']
    rfl

/-- A channel changes. -/
theorem rung (hs : s.Shows V) (channel : Nat) (effect : Reply → Reply) :
    ({ s with
      channels := Function.update s.channels channel (effect (s.channels channel)) } : State).Shows
        (V.ring (some channel) effect) := by
  refine ⟨⟨hs.tidy.keyed, hs.tidy.distinct, hs.tidy.fresh, hs.tidy.isOpen, hs.tidy.homed⟩, ?_⟩
  rw [← hs.view]
  rfl

/-- A bucket gets the key. -/
theorem pushed (hs : s.Shows V) (i : Nat) (key : RequestKey) :
    ({ s with buckets := Function.update s.buckets i (s.buckets i ++ [key]) } : State).Shows
      (V.set key ((V.slots key).schedule i)) := by
  refine hs.change ?_ ?_ (fun key' hkey' ↦ ?_) rfl rfl rfl rfl rfl
  · exact ⟨hs.tidy.keyed, hs.tidy.distinct, hs.tidy.fresh, hs.tidy.isOpen, hs.tidy.homed⟩
  · rw [← hs.view]
    refine Slot.ext rfl rfl rfl rfl (funext fun j ↦ ?_)
    simp only [State.view, State.slot, Slot.schedule]
    by_cases hj : j = i
    · rw [hj, Function.update_self, Function.update_self, List.count_append,
        List.count_singleton_self]
    · rw [Function.update_of_ne hj, Function.update_of_ne hj]
  · refine Slot.ext rfl rfl rfl rfl (funext fun j ↦ ?_)
    simp only [State.slot]
    by_cases hj : j = i
    · rw [hj, Function.update_self, List.count_append, List.count_singleton,
        if_neg (by simpa using hkey'.symm)]
      rfl
    · rw [Function.update_of_ne hj]

/-- A bucket is emptied. -/
theorem swapped (hs : s.Shows V) (i : Nat) :
    ({ s with buckets := Function.update s.buckets i [] } : State).Shows
      { V with
        slots := fun key ↦ { V.slots key with
          scheduled := Function.update (V.slots key).scheduled i 0 } } := by
  refine ⟨⟨hs.tidy.keyed, hs.tidy.distinct, hs.tidy.fresh, hs.tidy.isOpen, hs.tidy.homed⟩, ?_⟩
  rw [← hs.view]
  refine View.ext (funext fun key ↦ ?_) rfl rfl rfl rfl rfl
  refine Slot.ext rfl rfl rfl rfl (funext fun j ↦ ?_)
  simp only [State.view, State.slot]
  by_cases hj : j = i
  · rw [hj, Function.update_self, Function.update_self, List.count_nil]
  · rw [Function.update_of_ne hj, Function.update_of_ne hj]

/-- The runtime of a session gets new contents. -/
theorem setRuntime (hs : s.Shows V) {sid : SessionId} {rt : Nat} {r : SessionRuntime}
    (hrt : s.sessions.lookup sid = some rt) (hopen : r.isOpen = true)
    (hhomed : ∀ key ∈ r.requests, key.sessionId = some sid) :
    (s.setRuntime rt r).Shows
      { V with
        slots := fun key ↦
          if key.sessionId = some sid then { V.slots key with listed := decide (key ∈ r.requests) }
          else V.slots key
        doors := Function.update V.doors sid (some r.nextRequestId) } := by
  have hruntimes : (s.setRuntime rt r).runtimes = Function.update s.runtimes rt r := rfl
  -- The runtime belongs to this session alone.
  have hown : ∀ sid' rt', s.sessions.lookup sid' = some rt' → rt' = rt → sid' = sid :=
    fun sid' rt' hl heq ↦ hs.tidy.distinct sid' sid rt (heq ▸ hl) hrt
  constructor
  · refine ⟨hs.tidy.keyed, hs.tidy.distinct, hs.tidy.fresh, fun sid' rt' hl ↦ ?_,
      fun sid' rt' hl ↦ ?_⟩
    all_goals
      rw [hruntimes]
      by_cases hrt' : rt' = rt
    · rw [hrt', Function.update_self]
      exact hopen
    · rw [Function.update_of_ne hrt']
      exact hs.tidy.isOpen sid' rt' hl
    · rw [hrt', Function.update_self, hown sid' rt' hl hrt']
      exact hhomed
    · rw [Function.update_of_ne hrt']
      exact hs.tidy.homed sid' rt' hl
  · rw [← hs.view]
    refine View.ext (funext fun key ↦ ?_) (funext fun sid' ↦ ?_) rfl rfl rfl rfl
    · simp only [State.view]
      split
      next hkey =>
        refine Slot.ext rfl rfl rfl ?_ rfl
        show State.listed _ key = _
        simp only [State.listed, hkey, State.setRuntime, hrt, Option.any_some, Function.update_self]
      next hkey =>
        refine Slot.ext rfl rfl rfl ?_ rfl
        show State.listed _ key = State.listed s key
        unfold State.listed
        cases hsid : key.sessionId with
        | none => rfl
        | some sid' =>
          have hne : sid' ≠ sid := fun heq ↦ hkey (hsid.trans (congrArg some heq))
          simp only [State.setRuntime]
          cases hl : s.sessions.lookup sid' with
          | none => rfl
          | some rt' =>
            have hrt' : rt' ≠ rt := fun heq ↦ hne (hown sid' rt' hl heq)
            simp only [Option.any_some, Function.update_of_ne hrt']
    · simp only [State.view, State.setRuntime]
      by_cases hsid : sid' = sid
      · rw [hsid, hrt, Option.map_some, Function.update_self, Function.update_self]
      · rw [Function.update_of_ne hsid]
        cases hl : s.sessions.lookup sid' with
        | none => rfl
        | some rt' =>
          have hrt' : rt' ≠ rt := fun heq ↦ hsid (hown sid' rt' hl heq)
          simp only [Option.map_some, Function.update_of_ne hrt']

/-- A runtime that no session has is out of sight. -/
theorem hidden (hs : s.Shows V) {rt : Nat} (hrt : ∀ sid, s.sessions.lookup sid ≠ some rt)
    (r : SessionRuntime) : (s.setRuntime rt r).Shows V := by
  have hsame : ∀ sid rt', s.sessions.lookup sid = some rt' →
      (s.setRuntime rt r).runtimes rt' = s.runtimes rt' := by
    intro sid rt' hl
    refine Function.update_of_ne ?_ _ _
    rintro rfl
    exact hrt sid hl
  have hlisted : (s.setRuntime rt r).listed = s.listed := by
    funext key
    unfold State.listed
    cases key.sessionId with
    | none => rfl
    | some sid =>
      simp only
      cases hl : s.sessions.lookup sid with
      | none =>
        have hl' : (s.setRuntime rt r).sessions.lookup sid = none := hl
        rw [hl']
        rfl
      | some rt' =>
        have hl' : (s.setRuntime rt r).sessions.lookup sid = some rt' := hl
        rw [hl', Option.any_some, Option.any_some, hsame sid rt' hl]
  constructor
  · refine ⟨hs.tidy.keyed, hs.tidy.distinct, hs.tidy.fresh, fun sid rt' hl ↦ ?_,
      fun sid rt' hl ↦ ?_⟩
    all_goals rw [hsame sid rt' hl]
    · exact hs.tidy.isOpen sid rt' hl
    · exact hs.tidy.homed sid rt' hl
  · rw [← hs.view]
    refine View.ext (funext fun key ↦ ?_) (funext fun sid ↦ ?_) rfl rfl rfl rfl
    · refine Slot.ext rfl rfl rfl ?_ rfl
      exact congrFun hlisted key
    · show ((s.setRuntime rt r).sessions.lookup sid).map _ = (s.sessions.lookup sid).map _
      cases hl : s.sessions.lookup sid with
      | none =>
        have hl' : (s.setRuntime rt r).sessions.lookup sid = none := hl
        rw [hl']
        rfl
      | some rt' =>
        have hl' : (s.setRuntime rt r).sessions.lookup sid = some rt' := hl
        rw [hl', Option.map_some, Option.map_some, hsame sid rt' hl]

/-- What the index of a session lists. -/
theorem listed (hs : s.Shows V) {sid : SessionId} {rt : Nat}
    (hrt : s.sessions.lookup sid = some rt) (hkey : key.sessionId = some sid) :
    (V.slots key).listed = decide (key ∈ (s.runtimes rt).requests) := by
  rw [← hs.view]
  show State.listed s key = _
  simp only [State.listed, hkey, hrt, Option.any_some]

/-- New contents of a session's index that differ in one key. -/
theorem index (hs : s.Shows V) {sid : SessionId} {rt : Nat} (b : Bool) (keys : List RequestKey)
    (hrt : s.sessions.lookup sid = some rt) (hkey : key.sessionId = some sid)
    (hhomed : ∀ key ∈ keys, key.sessionId = some sid)
    (hself : key ∈ keys ↔ b = true)
    (hother : ∀ key' ≠ key, key' ∈ keys ↔ key' ∈ (s.runtimes rt).requests) :
    (s.setRuntime rt { s.runtimes rt with requests := keys }).Shows
      (V.set key { V.slots key with listed := b }) := by
  have hset := hs.setRuntime (r := { s.runtimes rt with requests := keys }) hrt
    (hs.tidy.isOpen sid rt hrt) hhomed
  refine ⟨hset.tidy, hset.view.trans ?_⟩
  have hdoor : Function.update V.doors sid (some (s.runtimes rt).nextRequestId) = V.doors := by
    have h := hs.door sid
    rw [hrt, Option.map_some] at h
    rw [← h, Function.update_eq_self]
  refine View.ext (funext fun key' ↦ ?_) hdoor rfl rfl rfl rfl
  show (if key'.sessionId = some sid then _ else _) = Function.update V.slots key _ key'
  by_cases heq : key' = key
  · rw [heq, if_pos hkey, Function.update_self]
    refine Slot.ext rfl rfl rfl ?_ rfl
    rw [Bool.eq_iff_iff, decide_eq_true_iff]
    exact hself
  · rw [Function.update_of_ne heq]
    split
    next hsid =>
      refine Slot.ext rfl rfl rfl ?_ rfl
      rw [hs.listed hrt hsid]
      exact decide_eq_decide.mpr (hother key' heq)
    next => rfl

/-- The entry is put in. -/
theorem inserted (hs : s.Shows V) (call : Nat) {entry : RequestEntry}
    (hvacant : (V.slots entry.key).entry = none) :
    (s.entriesInsert call entry).1 = true ∧ (s.entriesInsert call entry).2.Shows
      (V.set entry.key
        { V.slots entry.key with entry := some entry, status := .pending }) := by
  have hl : s.entries.lookup entry.key = none := (hs.entry entry.key).trans hvacant
  simp only [State.entriesInsert, hl]
  refine ⟨trivial, hs.change ?_ ?_ (fun key' hkey' ↦ ?_) rfl rfl rfl rfl rfl⟩
  · exact ⟨fun _ _ hl ↦ hs.tidy.keyed.insert entry hl, hs.tidy.distinct, hs.tidy.fresh,
      hs.tidy.isOpen, hs.tidy.homed⟩
  · rw [← hs.view]
    simp only [State.view, State.slot, State.record, AList.lookup_insert, Option.bind_some,
      Function.update_self, Option.getD_some]
    rfl
  · simp only [State.slot, State.record, AList.lookup_insert_ne hkey']
    cases hl' : s.entries.lookup key' with
    | none => rfl
    | some entry' =>
      have hne : entry'.token ≠ entry.token := by
        intro heq
        have heq := congrArg RequestToken.key heq
        rw [RequestEntry.key_token, RequestEntry.key_token, hs.tidy.keyed _ _ hl'] at heq
        exact hkey' heq
      simp only [Option.bind_some, Function.update_of_ne hne]
      rfl

/-- No entry is put in where there is one. -/
theorem occupied (hs : s.Shows V) (call : Nat) {entry : RequestEntry}
    (h : (V.slots entry.key).entry ≠ none) : s.entriesInsert call entry = (false, s) := by
  obtain ⟨old, hold⟩ := Option.ne_none_iff_exists'.mp h
  have hl : s.entries.lookup entry.key = some old := (hs.entry entry.key).trans hold
  simp only [State.entriesInsert, hl]

/-- The session gets a runtime. -/
theorem opened (hs : s.Shows V) (sid : SessionId) : (s.sessionsOrInsert sid).Shows
    { V with doors := Function.update V.doors sid (some ((V.doors sid).getD 1)) } := by
  rw [State.sessionsOrInsert]
  cases hl : s.sessions.lookup sid with
  | some rt =>
    have hdoor := hs.door sid
    rw [hl, Option.map_some] at hdoor
    rw [hdoor, Option.getD_some, ← hdoor, Function.update_eq_self]
    exact hs
  | none =>
    have hdoor := hs.door sid
    rw [hl, Option.map_none] at hdoor
    rw [hdoor, Option.getD_none]
    have hlookup : ∀ sid', (s.sessions.insert sid s.nextRuntime).lookup sid' =
        if sid' = sid then some s.nextRuntime else s.sessions.lookup sid' := by
      intro sid'
      by_cases heq : sid' = sid
      · rw [if_pos heq, heq, AList.lookup_insert]
      · rw [if_neg heq, AList.lookup_insert_ne heq]
    have hold : ∀ sid' rt, s.sessions.lookup sid' = some rt →
        Function.update s.runtimes s.nextRuntime {} rt = s.runtimes rt := fun sid' rt hl' ↦
      Function.update_of_ne (Nat.ne_of_lt (hs.tidy.fresh sid' rt hl')) _ _
    have hcases : ∀ sid' rt, (s.sessions.insert sid s.nextRuntime).lookup sid' = some rt →
        sid' = sid ∧ rt = s.nextRuntime ∨ s.sessions.lookup sid' = some rt := by
      intro sid' rt h
      rw [hlookup] at h
      split at h
      next heq => exact .inl ⟨heq, (Option.some.inj h).symm⟩
      next => exact .inr h
    constructor
    · refine ⟨hs.tidy.keyed, fun sid' sid'' rt h h' ↦ ?_, fun sid' rt h ↦ ?_, fun sid' rt h ↦ ?_,
        fun sid' rt h ↦ ?_⟩
      · obtain ⟨rfl, rfl⟩ | hl' := hcases sid' rt h
        · obtain ⟨rfl, -⟩ | hl'' := hcases sid'' _ h'
          · rfl
          · exact absurd (hs.tidy.fresh _ _ hl'') (Nat.lt_irrefl _)
        · obtain ⟨rfl, rfl⟩ | hl'' := hcases sid'' rt h'
          · exact absurd (hs.tidy.fresh _ _ hl') (Nat.lt_irrefl _)
          · exact hs.tidy.distinct _ _ rt hl' hl''
      · obtain ⟨-, rfl⟩ | hl' := hcases sid' rt h
        · exact Nat.lt_succ_self _
        · exact Nat.lt_succ_of_lt (hs.tidy.fresh sid' rt hl')
      all_goals
        simp only [State.record]
        obtain ⟨-, rfl⟩ | hl' := hcases sid' rt h
      · rw [Function.update_self]
      · rw [hold sid' rt hl']
        exact hs.tidy.isOpen sid' rt hl'
      · rw [Function.update_self]
        exact fun _ hkey ↦ absurd hkey List.not_mem_nil
      · rw [hold sid' rt hl']
        exact hs.tidy.homed sid' rt hl'
    · rw [← hs.view]
      refine View.ext (funext fun key ↦ ?_) (funext fun sid' ↦ ?_) rfl rfl rfl rfl
      · refine Slot.ext rfl rfl rfl ?_ rfl
        show State.listed _ key = State.listed s key
        unfold State.listed
        cases hsid : key.sessionId with
        | none => rfl
        | some sid' =>
          simp only [State.record, hlookup]
          by_cases heq : sid' = sid
          · rw [if_pos heq, heq, hl]
            simp
          · rw [if_neg heq]
            cases hl' : s.sessions.lookup sid' with
            | none => rfl
            | some rt => simp only [Option.any_some, hold sid' rt hl']
      · simp only [State.view, State.record, hlookup]
        by_cases heq : sid' = sid
        · rw [if_pos heq, heq, Option.map_some, Function.update_self, Function.update_self]
        · rw [if_neg heq, Function.update_of_ne heq]
          cases hl' : s.sessions.lookup sid' with
          | none => rfl
          | some rt => rw [Option.map_some, Option.map_some, hold sid' rt hl']

/-- The session is taken out of the map. -/
theorem left (hs : s.Shows V) (sid : SessionId) :
    ({ s with sessions := s.sessions.erase sid } : State).Shows
      { V with
        slots := fun key ↦
          if key.sessionId = some sid then { V.slots key with listed := false } else V.slots key
        doors := Function.update V.doors sid none } := by
  have hself : (s.sessions.erase sid).lookup sid = none := AList.lookup_erase _ _
  have hother : ∀ sid' ≠ sid, (s.sessions.erase sid).lookup sid' = s.sessions.lookup sid' :=
    fun sid' h ↦ AList.lookup_erase_ne h
  have hold : ∀ sid' rt, (s.sessions.erase sid).lookup sid' = some rt →
      s.sessions.lookup sid' = some rt := by
    intro sid' rt h
    by_cases heq : sid' = sid
    · rw [heq, hself] at h
      cases h
    · rwa [hother sid' heq] at h
  constructor
  · exact ⟨hs.tidy.keyed,
      fun sid' sid'' rt h h' ↦ hs.tidy.distinct _ _ rt (hold _ _ h) (hold _ _ h'),
      fun sid' rt h ↦ hs.tidy.fresh sid' rt (hold _ _ h),
      fun sid' rt h ↦ hs.tidy.isOpen sid' rt (hold _ _ h),
      fun sid' rt h ↦ hs.tidy.homed sid' rt (hold _ _ h)⟩
  · rw [← hs.view]
    refine View.ext (funext fun key ↦ ?_) (funext fun sid' ↦ ?_) rfl rfl rfl rfl
    · simp only [State.view]
      split
      next hkey =>
        refine Slot.ext rfl rfl rfl ?_ rfl
        show State.listed _ key = false
        simp only [State.listed, hkey, hself]
        rfl
      next hkey =>
        refine Slot.ext rfl rfl rfl ?_ rfl
        show State.listed _ key = State.listed s key
        unfold State.listed
        cases hsid : key.sessionId with
        | none => rfl
        | some sid' =>
          have hne : sid' ≠ sid := fun heq ↦ hkey (hsid.trans (congrArg some heq))
          simp only [hother sid' hne]
    · simp only [State.view]
      by_cases heq : sid' = sid
      · rw [heq, hself, Function.update_self]
        rfl
      · rw [hother sid' heq, Function.update_of_ne heq]

/-- A sender is dropped. -/
theorem dropped (hs : s.Shows V) (channel : Nat) :
    (s.channelDrop channel).Shows (V.ring (some channel) Reply.hangUp) := by
  have hsame : s.channelDrop channel = { s with
      channels := Function.update s.channels channel (s.channels channel).hangUp } := by
    unfold State.channelDrop
    cases hc : s.channels channel with
    | empty => rfl
    | value packet | closed =>
      simp only [Reply.hangUp]
      rw [← hc, Function.update_eq_self]
  rw [hsame]
  exact hs.rung channel Reply.hangUp

/-- A key without an open session is not listed. -/
theorem unlisted (hs : s.Shows V)
    (h : ∀ sid, key.sessionId = some sid → s.sessions.lookup sid = none) :
    (V.slots key).listed = false := by
  rw [← hs.view]
  show State.listed s key = false
  unfold State.listed
  cases hsid : key.sessionId with
  | none => rfl
  | some sid => simp only [h sid hsid, Option.any_none]

end State.Shows

end Actions

end MsgTrans.Registry
