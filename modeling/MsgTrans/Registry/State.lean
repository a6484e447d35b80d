import MsgTrans.Base.Table
import MsgTrans.Wire.Packet

/-!
# Request registry: data and shared state

Data model of `crates/msgtrans/src/transport/request_registry.rs:26–376`. A `DashMap` is a
finite map, a `DashSet` a list of keys. An `Arc<RequestEntry>` is named by the token of its
registration and its `AtomicU8` is kept apart from the immutable fields; an
`Arc<SessionRuntime>` and a oneshot channel are named by numbers. Instants and durations count
nanoseconds. The 64-bit generation and total counters are naturals, since no run increments one of
them `2^64` times; the tick counter wraps as the atomic does, and so does the pending gauge below
zero, and the 32-bit id counters keep their width.

The state carries a history of the operations' effects. No operation reads it.
-/

namespace MsgTrans.Registry

open MsgTrans.Base MsgTrans.Wire

/-- Session ids; `lib.rs:70`. -/
abbrev SessionId := Nat

/-- Points in time, in nanoseconds. -/
abbrev Instant := Nat

/-- Lengths of time, in nanoseconds. -/
abbrev Duration := Nat

/-- Which side of the wire a tracked request belongs to; `request_registry.rs:33–39`. -/
inductive RequestDirection where
  | inbound
  | outbound
  deriving DecidableEq, Repr

/-- Key of a tracked request; `request_registry.rs:41–46`. -/
structure RequestKey where
  sessionId : Option SessionId
  requestId : UInt32
  direction : RequestDirection
  deriving DecidableEq, Repr

namespace RequestKey

/-- Key of a request the peer sent; `request_registry.rs:61–63`. -/
def inbound (sessionId : Option SessionId) (requestId : UInt32) : RequestKey :=
  ⟨sessionId, requestId, .inbound⟩

/-- Key of a request we sent; `request_registry.rs:65–67`. -/
def outbound (sessionId : Option SessionId) (requestId : UInt32) : RequestKey :=
  ⟨sessionId, requestId, .outbound⟩

end RequestKey

/-- Lifecycle states of a registration; `request_registry.rs:70–84`. -/
inductive RequestState where
  | pending
  | responded
  | timedOut
  | sessionClosed
  | dropped
  | responding
  | sendFailed
  deriving DecidableEq, Repr

/-- A state no operation leaves: every one but `Pending` and `Responding`. -/
def RequestState.terminal : RequestState → Bool
  | pending | responding => false
  | responded | timedOut | sessionClosed | dropped | sendFailed => true

/-- Handle to one registration of one request; `request_registry.rs:151–157`. -/
structure RequestToken where
  sessionId : Option SessionId
  requestId : UInt32
  direction : RequestDirection
  generation : Nat
  deriving DecidableEq, Repr

/-- The key a token addresses; `request_registry.rs:170–175`. -/
def RequestToken.key (token : RequestToken) : RequestKey :=
  match token.direction with
  | .inbound => .inbound token.sessionId token.requestId
  | .outbound => .outbound token.sessionId token.requestId

namespace RequestToken

@[simp] theorem sessionId_key (token : RequestToken) : token.key.sessionId = token.sessionId := by
  cases token with
  | mk sid id direction generation => cases direction <;> rfl

@[simp] theorem requestId_key (token : RequestToken) : token.key.requestId = token.requestId := by
  cases token with
  | mk sid id direction generation => cases direction <;> rfl

@[simp] theorem direction_key (token : RequestToken) : token.key.direction = token.direction := by
  cases token with
  | mk sid id direction generation => cases direction <;> rfl

/-- A token is its key and its generation. -/
theorem ext_key {t u : RequestToken} (hk : t.key = u.key) (hg : t.generation = u.generation) :
    t = u := by
  have hs := congrArg RequestKey.sessionId hk
  have hi := congrArg RequestKey.requestId hk
  have hd := congrArg RequestKey.direction hk
  simp only [sessionId_key, requestId_key, direction_key] at hs hi hd
  cases t
  cases u
  simp_all

end RequestToken

/-- The immutable fields of a registration; `request_registry.rs:100–111`. -/
structure RequestEntry where
  key : RequestKey
  bizType : UInt8
  createdAt : Instant
  deadlineAt : Instant
  generation : Nat
  deriving DecidableEq, Repr

/-- The token minted for an entry; `request_registry.rs:580–585`. -/
def RequestEntry.token (entry : RequestEntry) : RequestToken :=
  ⟨entry.key.sessionId, entry.key.requestId, entry.key.direction, entry.generation⟩

@[simp] theorem RequestEntry.key_token (entry : RequestEntry) : entry.token.key = entry.key := by
  cases entry with
  | mk key =>
    cases key with
    | mk sid id direction => cases direction <;> rfl

@[simp] theorem RequestEntry.generation_token (entry : RequestEntry) :
    entry.token.generation = entry.generation := rfl

/-- Result of a lifecycle mark; `request_registry.rs:137–142`. -/
inductive MarkResult where
  | updated
  | already (state : RequestState)
  | notFound
  deriving DecidableEq, Repr

/-- Refusal of `try_register_waiter`; `request_registry.rs:230–234`. -/
structure DuplicateRequest where
  sessionId : Option SessionId
  requestId : UInt32
  deriving DecidableEq, Repr

/-- The registry's counters; `request_registry.rs:292–299`. -/
structure RequestCounters where
  pendingRequests : Nat := 0
  requestTimeoutTotal : Nat := 0
  duplicateResponseTotal : Nat := 0
  sessionClosedPendingTotal : Nat := 0
  responseSendFailedTotal : Nat := 0
  deriving DecidableEq, Repr

/-- Per-session lifecycle object; `request_registry.rs:325–343`. -/
structure SessionRuntime where
  isOpen : Bool := true
  requests : List RequestKey := []
  nextRequestId : UInt32 := 1
  deriving DecidableEq, Repr

/-- A oneshot channel as its receiver sees it. -/
inductive Reply where
  | empty
  | value (packet : Packet)
  | closed
  deriving DecidableEq, Repr

/-- Under which right a lifecycle operation acts: a key alone, the token its caller presented,
the undo of a registration that met a closing session, or the drain of a session close. -/
inductive Caller where
  | key
  | token (token : RequestToken)
  | undo
  | drain
  deriving DecidableEq, Repr

/-- One entry of the history, with the call that caused it. -/
inductive Event where
  | opened (sessionId : SessionId) (runtime : Nat)
  | closed (sessionId : SessionId)
  | registered (call : Nat) (token : RequestToken)
  | indexed (call : Nat) (token : RequestToken)
  | transition (call : Nat) (caller : Caller) (token : RequestToken) (source target : RequestState)
  | removed (call : Nat) (caller : Caller) (token : RequestToken)
  | allocated (call : Nat) (runtime : Nat) (requestId : UInt32)
  | delivered (call : Nat) (channel : Nat) (packet : Packet)
  deriving DecidableEq, Repr

/-- Parameters of a registry: its timeout wheel, and the shards of its concurrent maps with
the shard each key hashes to. -/
structure RegistryConfig where
  bucketCount : Nat
  tickDuration : Duration
  shards : Nat
  shardOf : RequestKey → Nat
  sessionShardOf : SessionId → Nat
  bucketCount_pos : 0 < bucketCount
  tickDuration_pos : 0 < tickDuration
  shardOf_lt : ∀ key, shardOf key < shards

/-- `DEFAULT_TIMEOUT_BUCKET_COUNT`; `request_registry.rs:23`. -/
def defaultTimeoutBucketCount : Nat := 256

/-- `DEFAULT_TIMEOUT_TICK`, 100 ms; `request_registry.rs:24`. -/
def defaultTimeoutTick : Duration := 100000000

/-- `REQUEST_LIFECYCLE_TIMEOUT`, 30 s; `request_registry.rs:20–21`. -/
def requestLifecycleTimeout : Duration := 30000000000

/-- `RequestRegistry::new_with_timing` on maps with one shard; `request_registry.rs:458–484`. -/
def RegistryConfig.newWithTiming (bucketCount : Nat) (tickDuration : Duration) :
    RegistryConfig where
  bucketCount := max bucketCount 8
  tickDuration := if tickDuration = 0 then defaultTimeoutTick else tickDuration
  shards := 1
  shardOf := fun _ ↦ 0
  sessionShardOf := fun _ ↦ 0
  bucketCount_pos := by omega
  tickDuration_pos := by
    split
    next => decide
    next h => exact Nat.pos_of_ne_zero h
  shardOf_lt := by simp

/-- The registry; `request_registry.rs:357–376`. -/
structure State where
  entries : Table RequestKey RequestEntry
  /-- The state atomic of every registration ever made. -/
  cells : RequestToken → Option RequestState
  waiters : Table RequestKey Nat
  /-- The oneshot channels, named by the generation of the registration that made them. -/
  channels : Nat → Reply
  sessions : Table SessionId Nat
  runtimes : Nat → SessionRuntime
  nextRuntime : Nat
  counters : RequestCounters
  buckets : Nat → List RequestKey
  currentTick : Nat
  nextId : UInt32
  nextGeneration : Nat
  clock : Instant
  history : List Event

/-- A registry nothing has happened to; `request_registry.rs:471–484`. -/
def State.new : State where
  entries := ∅
  cells := fun _ ↦ none
  waiters := ∅
  channels := fun _ ↦ .closed
  sessions := ∅
  runtimes := fun _ ↦ {}
  nextRuntime := 0
  counters := {}
  buckets := fun _ ↦ []
  currentTick := 0
  nextId := 1
  nextGeneration := 1
  clock := 0
  history := []

end MsgTrans.Registry
