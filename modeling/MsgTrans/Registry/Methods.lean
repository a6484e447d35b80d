import MsgTrans.Registry.Action

/-!
# Request registry: methods

The methods of `RequestRegistry`, `crates/msgtrans/src/transport/request_registry.rs:404–999`,
as programs over the registry's atomic actions, in the order the source performs them. Loops
over a collected list or over the shards of a map are recursions on what is left.
-/

namespace MsgTrans.Registry

open MsgTrans.Base MsgTrans.Wire

/-- A program of the registry. -/
abbrev Task := Prog Act Act.Resp

/-- Perform one operation. -/
abbrev op (a : Act) : Task a.Resp := Prog.perform a

variable (cfg : RegistryConfig)

/-- `open_session`; `request_registry.rs:407–411`. -/
def openSession (sessionId : SessionId) : Task Unit := op (.sessionsOrInsert sessionId)

/-- `next_oneway_id`; `request_registry.rs:418–421`. -/
def nextOnewayId : Task UInt32 := op .nextIdFetchAdd

/-- `next_request_id`; `request_registry.rs:433–456`. -/
def nextRequestId (sessionId : Option SessionId) : Task (Option UInt32) :=
  match sessionId with
  | none => do
    let id ← nextOnewayId
    pure (some id)
  | some sid => do
    let runtime ← op (.sessionsGet sid)
    match runtime with
    | none => pure none
    | some rt => do
      let isOpen ← op (.runtimeIsOpen rt)
      if isOpen then op (.nextRequestIdFetchUpdate rt) else pure none

/-- Ticks until a deadline, cut to 64 bits and at least one; `request_registry.rs:983–990`. -/
def ticksFromNow (deadlineAt now : Instant) : Nat :=
  if deadlineAt ≤ now then 1
  else max ((deadlineAt - now + cfg.tickDuration - 1) / cfg.tickDuration % 2 ^ 64) 1

/-- The tick a registration is scheduled for; `request_registry.rs:992–993`. -/
def targetTick (baseTick ticks : Nat) : Nat := min (baseTick + ticks) (2 ^ 64 - 1)

/-- `schedule_for_deadline`; `request_registry.rs:982–999`. -/
def scheduleForDeadline (key : RequestKey) (deadlineAt : Instant) : Task Unit := do
  let now ← op .now
  let baseTick ← op .currentTickLoad
  let target := targetTick baseTick (ticksFromNow cfg deadlineAt now)
  op (.bucketPush (target % cfg.bucketCount) key)

/-- `waiters.remove(&key)` with the sender dropped. -/
def dropWaiter (key : RequestKey) : Task Unit := do
  let sender ← op (.waitersRemove key)
  match sender with
  | some channel => op (.channelDrop channel)
  | none => pure ()

/-- `remove_terminal_entry`; `request_registry.rs:973–980`. -/
def removeTerminalEntry (caller : Caller) (key : RequestKey) : Task Unit := do
  op (.entriesRemove caller key)
  match key.sessionId with
  | none => pure ()
  | some sid => do
    let runtime ← op (.sessionsGet sid)
    match runtime with
    | some rt => op (.requestsRemove rt key)
    | none => pure ()

/-- The session runtime a registration goes to: refused, none needed, or an open one;
`request_registry.rs:513–519`. -/
def resolveRuntime (key : RequestKey) : Task (Option (Option Nat)) :=
  match key.sessionId with
  | none => pure (some none)
  | some sid => do
    let runtime ← op (.sessionsGet sid)
    match runtime with
    | none => pure none
    | some rt => do
      let isOpen ← op (.runtimeIsOpen rt)
      if isOpen then pure (some (some rt)) else pure none

/-- The undo of a registration whose session began to close; `request_registry.rs:559–573`. -/
def undoRegistration (key : RequestKey) : Task Unit := do
  let found ← op (.entriesGet key)
  match found with
  | some entry => do
    let won ← op (.tryTransition .undo entry.token .pending .sessionClosed)
    match won with
    | .ok _ => do
      op .pendingFetchSub
      removeTerminalEntry .undo key
      dropWaiter key
    | .error _ => dropWaiter key
  | none => dropWaiter key

/-- The end of an accepted registration; `request_registry.rs:577–585`. -/
def acceptRegistration (entry : RequestEntry) (schedule : Bool) : Task (Option RequestToken) :=
  if schedule then do
    scheduleForDeadline cfg entry.key entry.deadlineAt
    pure (some entry.token)
  else pure (some entry.token)

/-- The index insertion and the second look at the session; `request_registry.rs:550–575`. -/
def indexRegistration (entry : RequestEntry) (schedule : Bool) (runtime : Option Nat) :
    Task (Option RequestToken) :=
  match runtime with
  | none => acceptRegistration cfg entry schedule
  | some rt => do
    op (.requestsInsert rt entry.token)
    let isOpen ← op (.runtimeIsOpen rt)
    if isOpen then acceptRegistration cfg entry schedule
    else do
      undoRegistration entry.key
      pure none

/-- `register_impl`; `request_registry.rs:503–586`. -/
def registerImpl (key : RequestKey) (bizType : UInt8) (timeout : Duration) (schedule : Bool) :
    Task (Option RequestToken) := do
  let resolved ← resolveRuntime key
  match resolved with
  | none => pure none
  | some runtime => do
    let now ← op .now
    let generation ← op .nextGenerationFetchAdd
    op .pendingFetchAdd
    let entry : RequestEntry := ⟨key, bizType, now, now + timeout, generation⟩
    let vacant ← op (.entriesInsert entry)
    if vacant then indexRegistration cfg entry schedule runtime
    else do
      op .pendingFetchSub
      pure none

/-- `register`; `request_registry.rs:487–501`. -/
def register (requestId : UInt32) (sessionId : Option SessionId) (bizType : UInt8)
    (timeout : Duration) : Task (Option RequestToken) :=
  registerImpl cfg (.inbound sessionId requestId) bizType timeout true

/-- The second look at the entry, with the waiter dropped when it is gone;
`request_registry.rs:617–626`. -/
def confirmWaiter (key : RequestKey) (token : RequestToken) :
    Task (Except DuplicateRequest (Nat × RequestToken)) := do
  let found ← op (.entriesGet key)
  match found with
  | none => do
    dropWaiter key
    pure (.error ⟨key.sessionId, key.requestId⟩)
  | some _ => pure (.ok (token.generation, token))

/-- The waiter half of `try_register_waiter`; `request_registry.rs:613–626`. The sender that
`insert` hands back, if any, is dropped. -/
def attachWaiter (key : RequestKey) (token : RequestToken) :
    Task (Except DuplicateRequest (Nat × RequestToken)) := do
  let replaced ← op (.waitersInsert key token.generation)
  match replaced with
  | some channel => do
    op (.channelDrop channel)
    confirmWaiter key token
  | none => confirmWaiter key token

/-- `try_register_waiter`; `request_registry.rs:596–627`. The channel is named by the
generation of the registration. -/
def tryRegisterWaiter (requestId : UInt32) (sessionId : Option SessionId) (bizType : UInt8)
    (timeout : Duration) : Task (Except DuplicateRequest (Nat × RequestToken)) := do
  let registered ← registerImpl cfg (.outbound sessionId requestId) bizType timeout false
  match registered with
  | none => pure (.error ⟨sessionId, requestId⟩)
  | some token => attachWaiter (.outbound sessionId requestId) token

/-- `mark_responded_key`; `request_registry.rs:635–661`. -/
def markRespondedKey (key : RequestKey) : Task MarkResult := do
  let found ← op (.entriesGet key)
  match found with
  | none => do
    op (.counterFetchAdd .duplicateResponse 1)
    pure .notFound
  | some entry => do
    let won ← op (.tryTransition .key entry.token .pending .responded)
    match won with
    | .ok _ => do
      op .pendingFetchSub
      removeTerminalEntry .key key
      pure .updated
    | .error state => do
      if state = .responded then op (.counterFetchAdd .duplicateResponse 1) else pure ()
      pure (.already state)

/-- `complete_waiter`; `request_registry.rs:663–679`. -/
def completeWaiter (sessionId : Option SessionId) (requestId : UInt32) (packet : Packet) :
    Task Bool := do
  let marked ← markRespondedKey (.outbound sessionId requestId)
  match marked with
  | .updated => do
    let sender ← op (.waitersRemove (.outbound sessionId requestId))
    match sender with
    | some channel => op (.channelSend channel packet)
    | none => pure ()
    pure true
  | _ => pure false

/-- `mark_dropped_key`; `request_registry.rs:819–835`. -/
def markDroppedKey (key : RequestKey) : Task MarkResult := do
  let found ← op (.entriesGet key)
  match found with
  | none => pure .notFound
  | some entry => do
    let won ← op (.tryTransition .key entry.token .pending .dropped)
    match won with
    | .ok _ => do
      op .pendingFetchSub
      removeTerminalEntry .key key
      pure .updated
    | .error state => pure (.already state)

/-- `abort_waiter`; `request_registry.rs:684–689`. -/
def abortWaiter (sessionId : Option SessionId) (requestId : UInt32) : Task Bool := do
  let marked ← markDroppedKey (.outbound sessionId requestId)
  dropWaiter (.outbound sessionId requestId)
  pure (marked = .updated)

/-- The first loop of `abort_all`; `request_registry.rs:698–702`. -/
def closeRuntimes : List SessionId → Task Unit
  | [] => pure ()
  | sid :: sids => do
    let removed ← op (.sessionsRemove sid)
    match removed with
    | some rt => op (.runtimeBeginClose rt)
    | none => pure ()
    closeRuntimes sids

/-- The second loop of `abort_all`; `request_registry.rs:705–710`. -/
def abortKeys : List RequestKey → Nat → Task Nat
  | [], aborted => pure aborted
  | key :: keys, aborted => do
    let marked ← markDroppedKey key
    dropWaiter key
    abortKeys keys (if marked = .updated then aborted + 1 else aborted)

/-- Collect what `n` successive shards answer, the last `n` of the map's shards. -/
def collectShards {α : Type} (shard : Nat → Task (List α)) : Nat → Task (List α)
  | 0 => pure []
  | n + 1 => do
    let here ← shard (cfg.shards - (n + 1))
    let rest ← collectShards shard n
    pure (here ++ rest)

/-- `abort_all`; `request_registry.rs:693–712`. -/
def abortAll : Task Nat := do
  let sids ← collectShards cfg (fun i ↦ op (.sessionsShard i)) cfg.shards
  closeRuntimes sids
  let keys ← collectShards cfg (fun i ↦ op (.entriesShard i)) cfg.shards
  abortKeys keys 0

/-- `begin_respond`; `request_registry.rs:735–763`. -/
def beginRespond (token : RequestToken) : Task MarkResult := do
  let found ← op (.entriesGet token.key)
  match found with
  | none => do
    op (.counterFetchAdd .duplicateResponse 1)
    pure .notFound
  | some entry =>
    if entry.generation ≠ token.generation then do
      op (.counterFetchAdd .duplicateResponse 1)
      pure .notFound
    else do
      let won ← op (.tryTransition (.token token) entry.token .pending .responding)
      match won with
      | .ok _ => pure .updated
      | .error state => do
        if state = .responded ∨ state = .responding then op (.counterFetchAdd .duplicateResponse 1)
        else pure ()
        pure (.already state)

/-- The state a claim resolves to; `request_registry.rs:776–780`. -/
def respondTarget (writeConfirmed : Bool) : RequestState :=
  if writeConfirmed then .responded else .sendFailed

/-- `finish_respond`; `request_registry.rs:768–797`. -/
def finishRespond (token : RequestToken) (writeConfirmed : Bool) : Task MarkResult := do
  let found ← op (.entriesGet token.key)
  match found with
  | none => pure .notFound
  | some entry =>
    if entry.generation ≠ token.generation then pure .notFound
    else do
      let won ← op (.tryTransition (.token token) entry.token .responding
        (respondTarget writeConfirmed))
      match won with
      | .ok _ => do
        op .pendingFetchSub
        if writeConfirmed then pure () else op (.counterFetchAdd .responseSendFailed 1)
        removeTerminalEntry (.token token) token.key
        pure .updated
      | .error state => pure (.already state)

/-- `mark_timed_out`; `request_registry.rs:799–817`. -/
def markTimedOut (key : RequestKey) : Task MarkResult := do
  let found ← op (.entriesGet key)
  match found with
  | none => pure .notFound
  | some entry => do
    let won ← op (.tryTransition .key entry.token .pending .timedOut)
    match won with
    | .ok _ => do
      op .pendingFetchSub
      op (.counterFetchAdd .requestTimeout 1)
      removeTerminalEntry .key key
      dropWaiter key
      pure .updated
    | .error state => pure (.already state)

/-- `abort_request_token`; `request_registry.rs:846–870`. -/
def abortRequestToken (token : RequestToken) : Task Bool := do
  let found ← op (.entriesGet token.key)
  match found with
  | none => pure false
  | some entry =>
    if entry.generation ≠ token.generation then pure false
    else do
      let won ← op (.tryTransition (.token token) entry.token .pending .dropped)
      match won with
      | .ok _ => do
        op .pendingFetchSub
        removeTerminalEntry (.token token) token.key
        dropWaiter token.key
        pure true
      | .error _ => pure false

/-- The two transitions of the drain; `request_registry.rs:890–895`. -/
def dieWithSession (token : RequestToken) : Task Bool := do
  let pending ← op (.tryTransition .drain token .pending .sessionClosed)
  match pending with
  | .ok _ => pure true
  | .error _ => do
    let responding ← op (.tryTransition .drain token .responding .sessionClosed)
    match responding with
    | .ok _ => pure true
    | .error _ => pure false

/-- The drain over the keys of one shard; `request_registry.rs:883–905`. -/
def drainKeys : List RequestKey → Nat → Task Nat
  | [], closed => pure closed
  | key :: keys, closed => do
    let found ← op (.entriesGet key)
    match found with
    | none => drainKeys keys closed
    | some entry => do
      let died ← dieWithSession entry.token
      if died then do
        op .pendingFetchSub
        op (.entriesRemove .drain key)
        dropWaiter key
        drainKeys keys (closed + 1)
      else drainKeys keys closed

/-- The drain over the last `n` shards of the session's key set. -/
def drainShards (rt : Nat) : Nat → Nat → Task Nat
  | 0, closed => pure closed
  | n + 1, closed => do
    let keys ← op (.requestsShard rt (cfg.shards - (n + 1)))
    let closed ← drainKeys keys closed
    drainShards rt n closed

/-- `close_session_pending`; `request_registry.rs:872–915`. -/
def closeSessionPending (sessionId : SessionId) : Task Nat := do
  let removed ← op (.sessionsRemove sessionId)
  match removed with
  | none => pure 0
  | some rt => do
    op (.runtimeBeginClose rt)
    let closed ← drainShards cfg rt cfg.shards 0
    op (.requestsClear rt)
    if closed > 0 then op (.counterFetchAdd .sessionClosedPending closed) else pure ()
    pure closed

/-- The loop of `scan_timeout_bucket`; `request_registry.rs:950–968`. -/
def scanKeys (now : Instant) : List RequestKey → Nat → Task Nat
  | [], timedOut => pure timedOut
  | key :: keys, timedOut => do
    let found ← op (.entriesGet key)
    match found with
    | none => scanKeys now keys timedOut
    | some entry => do
      let state ← op (.stateLoad entry.token)
      if state ≠ .pending then scanKeys now keys timedOut
      else if entry.deadlineAt ≤ now then do
        let marked ← markTimedOut key
        scanKeys now keys (if marked = .updated then timedOut + 1 else timedOut)
      else do
        scheduleForDeadline cfg key entry.deadlineAt
        scanKeys now keys timedOut

/-- `scan_timeout_bucket`, the addition to the 64-bit counter wrapping; `request_registry.rs:935–971`. -/
def scanTimeoutBucket : Task Nat := do
  let tick ← op .currentTickFetchAdd
  let drained ← op (.bucketSwap ((tick + 1) % 2 ^ 64 % cfg.bucketCount))
  if drained = [] then pure 0
  else do
    let now ← op .now
    scanKeys cfg now drained 0

end MsgTrans.Registry
