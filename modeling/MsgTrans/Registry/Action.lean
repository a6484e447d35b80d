import MsgTrans.Base.Prog
import MsgTrans.Registry.State

/-!
# Request registry: atomic actions

The indivisible operations of `crates/msgtrans/src/transport/request_registry.rs:357–999`: one
action for every access to a concurrent map, an atomic or a bucket lock. `Act.exec` gives each
its answer and its effect. Map guards are not modelled: an operation that holds one excludes
others in the program, and here it does not, so every schedule of the program is a schedule of
the model.
-/

namespace MsgTrans.Registry

open MsgTrans.Base MsgTrans.Wire

/-- The totals an operation adds to; `request_registry.rs:292–299`. -/
inductive Counter where
  | requestTimeout
  | duplicateResponse
  | sessionClosedPending
  | responseSendFailed
  deriving DecidableEq, Repr

/-- The registry's indivisible operations. -/
inductive Act where
  | now
  | nextGenerationFetchAdd
  | pendingFetchAdd
  | pendingFetchSub
  | counterFetchAdd (counter : Counter) (n : Nat)
  | entriesInsert (entry : RequestEntry)
  | entriesGet (key : RequestKey)
  | entriesRemove (caller : Caller) (key : RequestKey)
  | entriesShard (i : Nat)
  | stateLoad (token : RequestToken)
  | tryTransition (caller : Caller) (token : RequestToken) (source target : RequestState)
  | waitersInsert (key : RequestKey) (channel : Nat)
  | waitersRemove (key : RequestKey)
  | channelSend (channel : Nat) (packet : Packet)
  | channelDrop (channel : Nat)
  | sessionsOrInsert (sessionId : SessionId)
  | sessionsGet (sessionId : SessionId)
  | sessionsRemove (sessionId : SessionId)
  | sessionsShard (i : Nat)
  | runtimeIsOpen (runtime : Nat)
  | runtimeBeginClose (runtime : Nat)
  | requestsInsert (runtime : Nat) (token : RequestToken)
  | requestsRemove (runtime : Nat) (key : RequestKey)
  | requestsShard (runtime i : Nat)
  | requestsClear (runtime : Nat)
  | nextRequestIdFetchUpdate (runtime : Nat)
  | nextIdFetchAdd
  | currentTickFetchAdd
  | currentTickLoad
  | bucketSwap (i : Nat)
  | bucketPush (i : Nat) (key : RequestKey)
  deriving DecidableEq

/-- What each operation answers. -/
@[reducible] def Act.Resp : Act → Type
  | .now => Instant
  | .nextGenerationFetchAdd => Nat
  | .entriesInsert _ => Bool
  | .entriesGet _ => Option RequestEntry
  | .entriesShard _ => List RequestKey
  | .stateLoad _ => RequestState
  | .tryTransition .. => Except RequestState Unit
  | .waitersInsert .. => Option Nat
  | .waitersRemove _ => Option Nat
  | .sessionsGet _ => Option Nat
  | .sessionsRemove _ => Option Nat
  | .sessionsShard _ => List SessionId
  | .runtimeIsOpen _ => Bool
  | .requestsShard .. => List RequestKey
  | .nextRequestIdFetchUpdate _ => Option UInt32
  | .nextIdFetchAdd => UInt32
  | .currentTickFetchAdd => Nat
  | .currentTickLoad => Nat
  | .bucketSwap _ => List RequestKey
  | _ => Unit

/-- The `choice`-th arrangement of a list: the order in which a hash shard is iterated. -/
def arrange {α : Type} : Nat → List α → List α
  | _, [] => []
  | choice, x :: xs =>
    (arrange (choice / (xs.length + 1)) xs).insertIdx (choice % (xs.length + 1)) x

private theorem arrange_perm {α : Type} (choice : Nat) (l : List α) : (arrange choice l).Perm l := by
  induction l generalizing choice with
  | nil => exact .refl _
  | cons x xs ih =>
    have htail := ih (choice / (xs.length + 1))
    have hidx : choice % (xs.length + 1) ≤ (arrange (choice / (xs.length + 1)) xs).length := by
      rw [htail.length_eq]
      exact Nat.le_of_lt_succ (Nat.mod_lt _ (Nat.succ_pos _))
    exact (List.perm_insertIdx x _ hidx).trans (htail.cons x)

/-- An arrangement has the same elements. -/
@[simp] theorem mem_arrange {α : Type} {choice : Nat} {l : List α} {x : α} :
    x ∈ arrange choice l ↔ x ∈ l := (arrange_perm choice l).mem_iff

namespace RequestCounters

/-- `fetch_sub(1)` on the pending gauge, an `AtomicU64`. -/
def pendingFetchSub (c : RequestCounters) : RequestCounters :=
  { c with pendingRequests := if c.pendingRequests = 0 then 2 ^ 64 - 1 else c.pendingRequests - 1 }

/-- `fetch_add(n)` on one of the totals. -/
def fetchAdd (c : RequestCounters) (n : Nat) : Counter → RequestCounters
  | .requestTimeout => { c with requestTimeoutTotal := c.requestTimeoutTotal + n }
  | .duplicateResponse => { c with duplicateResponseTotal := c.duplicateResponseTotal + n }
  | .sessionClosedPending => { c with sessionClosedPendingTotal := c.sessionClosedPendingTotal + n }
  | .responseSendFailed => { c with responseSendFailedTotal := c.responseSendFailedTotal + n }

end RequestCounters

namespace State

/-- Append to the history. -/
def record (s : State) (e : Event) : State := { s with history := s.history ++ [e] }

/-- Replace one session runtime's contents. -/
def setRuntime (s : State) (rt : Nat) (r : SessionRuntime) : State :=
  { s with runtimes := Function.update s.runtimes rt r }

/-- Compare-and-exchange on a registration's state; `request_registry.rs:126–134`. -/
def tryTransition (s : State) (call : Nat) (caller : Caller) (token : RequestToken)
    (source target : RequestState) : Except RequestState Unit × State :=
  match s.cells token with
  | some current =>
    if current = source then
      (.ok (), { s with cells := Function.update s.cells token (some target) }.record
        (.transition call caller token source target))
    else (.error current, s)
  | none => (.error .dropped, s)

/-- `entries.entry(key)`: insert when vacant, refuse when occupied. -/
def entriesInsert (s : State) (call : Nat) (entry : RequestEntry) : Bool × State :=
  match s.entries.lookup entry.key with
  | some _ => (false, s)
  | none =>
    (true, { s with
      entries := s.entries.insert entry.key entry
      cells := Function.update s.cells entry.token (some .pending) }.record
        (.registered call entry.token))

/-- `entries.remove(key)`. -/
def entriesRemove (s : State) (call : Nat) (caller : Caller) (key : RequestKey) : State :=
  match s.entries.lookup key with
  | some entry =>
    { s with entries := s.entries.erase key }.record (.removed call caller entry.token)
  | none => s

/-- `tx.send(packet)` on a oneshot sender. -/
def channelSend (s : State) (call channel : Nat) (packet : Packet) : State :=
  { s with channels := Function.update s.channels channel (.value packet) }.record
    (.delivered call channel packet)

/-- Dropping a oneshot sender that has sent nothing closes the channel. -/
def channelDrop (s : State) (channel : Nat) : State :=
  match s.channels channel with
  | .empty => { s with channels := Function.update s.channels channel .closed }
  | _ => s

/-- `sessions.entry(id).or_insert_with(..)`; `request_registry.rs:407–411`. -/
def sessionsOrInsert (s : State) (sessionId : SessionId) : State :=
  match s.sessions.lookup sessionId with
  | some _ => s
  | none =>
    { s with
      sessions := s.sessions.insert sessionId s.nextRuntime
      runtimes := Function.update s.runtimes s.nextRuntime {}
      nextRuntime := s.nextRuntime + 1 }.record (.opened sessionId s.nextRuntime)

/-- `fetch_update` on a session's id counter, which refuses to pass `u32::MAX`;
`request_registry.rs:445–455`. -/
def nextRequestIdFetchUpdate (s : State) (call rt : Nat) : Option UInt32 × State :=
  let current := (s.runtimes rt).nextRequestId
  if current ≠ 4294967295 then
    (some current,
      (s.setRuntime rt { s.runtimes rt with nextRequestId := current + 1 }).record
        (.allocated call rt current))
  else (none, s)

end State

/-- The answer and the effect of one operation of a call. The scheduler's choice moves the
clock and orders the iteration of a shard. -/
def Act.exec (cfg : RegistryConfig) (call : Nat) : (a : Act) → Nat → State → a.Resp × State
  | .now, choice, s => (s.clock + choice, { s with clock := s.clock + choice })
  | .nextGenerationFetchAdd, _, s =>
    (s.nextGeneration, { s with nextGeneration := s.nextGeneration + 1 })
  | .pendingFetchAdd, _, s =>
    ((), { s with counters :=
      { s.counters with pendingRequests := s.counters.pendingRequests + 1 } })
  | .pendingFetchSub, _, s => ((), { s with counters := s.counters.pendingFetchSub })
  | .counterFetchAdd counter n, _, s => ((), { s with counters := s.counters.fetchAdd n counter })
  | .entriesInsert entry, _, s => s.entriesInsert call entry
  | .entriesGet key, _, s => (s.entries.lookup key, s)
  | .entriesRemove caller key, _, s => ((), s.entriesRemove call caller key)
  | .entriesShard i, choice, s =>
    (arrange choice (s.entries.keys.filter fun key ↦ cfg.shardOf key = i), s)
  | .stateLoad token, _, s => ((s.cells token).getD .dropped, s)
  | .tryTransition caller token source target, _, s =>
    s.tryTransition call caller token source target
  | .waitersInsert key channel, _, s =>
    (s.waiters.lookup key, { s with
      waiters := s.waiters.insert key channel
      channels := Function.update s.channels channel .empty })
  | .waitersRemove key, _, s => (s.waiters.lookup key, { s with waiters := s.waiters.erase key })
  | .channelSend channel packet, _, s => ((), s.channelSend call channel packet)
  | .channelDrop channel, _, s => ((), s.channelDrop channel)
  | .sessionsOrInsert sessionId, _, s => ((), s.sessionsOrInsert sessionId)
  | .sessionsGet sessionId, _, s => (s.sessions.lookup sessionId, s)
  | .sessionsRemove sessionId, _, s =>
    (s.sessions.lookup sessionId,
      { s with sessions := s.sessions.erase sessionId }.record (.closed sessionId))
  | .sessionsShard i, choice, s =>
    (arrange choice (s.sessions.keys.filter fun sid ↦ cfg.sessionShardOf sid = i), s)
  | .runtimeIsOpen rt, _, s => ((s.runtimes rt).isOpen, s)
  | .runtimeBeginClose rt, _, s => ((), s.setRuntime rt { s.runtimes rt with isOpen := false })
  | .requestsInsert rt token, _, s =>
    ((), (s.setRuntime rt { s.runtimes rt with
      requests := token.key :: (s.runtimes rt).requests.filter (· ≠ token.key) }).record
        (.indexed call token))
  | .requestsRemove rt key, _, s =>
    ((), s.setRuntime rt { s.runtimes rt with
      requests := (s.runtimes rt).requests.filter (· ≠ key) })
  | .requestsShard rt i, choice, s =>
    (arrange choice ((s.runtimes rt).requests.filter fun key ↦ cfg.shardOf key = i), s)
  | .requestsClear rt, _, s => ((), s.setRuntime rt { s.runtimes rt with requests := [] })
  | .nextRequestIdFetchUpdate rt, _, s => s.nextRequestIdFetchUpdate call rt
  | .nextIdFetchAdd, _, s => (s.nextId, { s with nextId := s.nextId + 1 })
  | .currentTickFetchAdd, _, s =>
    (s.currentTick, { s with currentTick := (s.currentTick + 1) % 2 ^ 64 })
  | .currentTickLoad, _, s => (s.currentTick, s)
  | .bucketSwap i, _, s => (s.buckets i, { s with buckets := Function.update s.buckets i [] })
  | .bucketPush i key, _, s =>
    ((), { s with buckets := Function.update s.buckets i (s.buckets i ++ [key]) })

/-- The history only grows. -/
theorem Act.history_subset {cfg : RegistryConfig} {call choice : Nat} {a : Act} {s : State} :
    s.history ⊆ (a.exec cfg call choice s).2.history := by
  have happend : ∀ (t : State) (e : Event), t.history ⊆ (t.record e).history := fun t e ↦
    List.subset_append_left _ _
  have hself : s.history ⊆ s.history := List.Subset.refl _
  cases a with
  | entriesInsert entry =>
    simp only [exec, State.entriesInsert]
    split <;> first | exact hself | exact happend _ _
  | entriesRemove caller key =>
    simp only [exec, State.entriesRemove]
    split <;> first | exact hself | exact happend _ _
  | tryTransition caller token source target =>
    simp only [exec, State.tryTransition]
    repeat' split
    all_goals first | exact hself | exact happend _ _
  | channelDrop channel =>
    simp only [exec, State.channelDrop]
    split <;> exact hself
  | sessionsOrInsert sid =>
    simp only [exec, State.sessionsOrInsert]
    split <;> first | exact hself | exact happend _ _
  | nextRequestIdFetchUpdate rt =>
    simp only [exec, State.nextRequestIdFetchUpdate]
    split <;> first | exact hself | exact happend _ _
  | channelSend | sessionsRemove | requestsInsert => exact happend _ _
  | _ => exact hself

end MsgTrans.Registry
