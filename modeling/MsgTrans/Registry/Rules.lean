import MsgTrans.Base.Ledger
import MsgTrans.Registry.Methods

/-!
# Request registry: who owes what

The ghost tokens a call of the registry carries and the rules that move them. A token is a
debt between two steps of one method (an ended registration still has to leave the gauge and
the map), a right (an allocated id, a respond claim), or a fact about the shared state that
other calls cannot undo. The rules are those of the atomic actions; what they keep invariant is
shown in the modules that follow.
-/

namespace MsgTrans.Registry

open MsgTrans.Base MsgTrans.Wire

/-- What the callers of a registry promise. -/
structure Mode where
  /-- Sessions are only closed by `close_session_pending`, and responders present tokens of
  accepted inbound registrations. -/
  strict : Bool := false
  /-- A closed session is not opened again. -/
  final : Bool := false
  /-- Outbound requests of a session are registered under ids allocated from it, and a
  response packet is processed once. -/
  routed : Bool := false
  /-- Every outbound request belongs to a session. -/
  bound : Bool := false
  /-- A claim is resolved by its holder alone. -/
  claimed : Bool := false
  /-- Session ids are drawn from a counter. -/
  numbered : Bool := false

/-- The tokens of the registry's calls. -/
inductive Tok where
  /-- The gauge went up for an entry that is not in the map yet. -/
  | added
  /-- A generation was drawn and not used yet. -/
  | fresh (generation : Nat)
  /-- The call ended the registration; the gauge still counts it. -/
  | won (call : Nat) (caller : Caller) (token : RequestToken)
  /-- The call ended the registration and took it off the gauge; the map still holds it. -/
  | subbed (call : Nat) (caller : Caller) (token : RequestToken)
  /-- One increment of a total is due. -/
  | owes (counter : Counter)
  /-- The registration is in the map and not accepted yet; the flag says that it is indexed. -/
  | entering (token : RequestToken) (runtime : Nat) (indexed : Bool)
  /-- The registration was accepted. -/
  | minted (token : RequestToken)
  /-- The session was seen with this runtime. -/
  | sees (sessionId : SessionId) (runtime : Nat)
  /-- The session was closed. -/
  | gone (sessionId : SessionId)
  /-- The runtime was taken out of the map and not marked closing yet. -/
  | closing (sessionId : SessionId) (runtime : Nat)
  /-- The drain still has to visit these keys and the last `shards` shards. -/
  | draining (sessionId : SessionId) (runtime : Nat) (keys : List RequestKey) (shards : Nat)
  /-- The drain is ending this registration; the flag says that it is past `Pending`. -/
  | killing (sessionId : SessionId) (runtime : Nat) (token : RequestToken) (past : Bool)
  /-- The key may have a waiter without an entry, and the call will look. -/
  | owesWaiter (key : RequestKey)
  /-- The call took this sender out of the waiters. -/
  | holdsSender (key : RequestKey) (channel : Nat)
  /-- The id was allocated from the session's counter and not used yet. -/
  | id (sessionId : SessionId) (requestId : UInt32)
  /-- The call processes this response packet; the flag says that it completed a request. -/
  | response (call : Nat) (sessionId : Option SessionId) (requestId : UInt32) (packet : Packet)
      (used : Bool)
  /-- A respond claim. -/
  | claim (token : RequestToken)
  /-- A respond claim handed to `finish_respond`. -/
  | resolving (token : RequestToken)
  /-- The session id was drawn and not opened yet. -/
  | unopened (sessionId : SessionId)
  deriving DecidableEq

/-- The id a registration under this key uses up. -/
def idFor (m : Mode) (key : RequestKey) : Multiset Tok :=
  if m.routed = true ∧ key.direction = .outbound then
    match key.sessionId with
    | some sid => {.id sid key.requestId}
    | none => 0
  else 0

/-- The look at the waiters that the removal of an entry makes due. -/
def waiterFor (m : Mode) (key : RequestKey) : Multiset Tok :=
  if m.strict = true ∧ key.direction = .outbound then {.owesWaiter key} else 0

/-- The claim a resolution uses up. -/
def claimFor (m : Mode) (token : RequestToken) : Multiset Tok :=
  if m.claimed then {.resolving token} else 0

/-- The proof of acceptance a responder presents. -/
def mintFor (m : Mode) (token : RequestToken) : Multiset Tok :=
  if m.strict then {.minted token} else 0

/-- The packet a completion uses up, before and after. -/
def responseFor (m : Mode) (call : Nat) (sessionId : Option SessionId) (requestId : UInt32)
    (packet : Packet) (used : Bool) : Multiset Tok :=
  if m.routed then {.response call sessionId requestId packet used} else 0

/-- The session id an opening uses up. -/
def openFor (m : Mode) (sessionId : SessionId) : Multiset Tok :=
  if m.numbered then {.unopened sessionId} else 0

/-- The increments due after a registration ended. -/
def owedFor (caller : Caller) (target : RequestState) : Multiset Tok :=
  if target = .timedOut then {.owes .requestTimeout}
  else if target = .sendFailed then {.owes .responseSendFailed}
  else if caller = .drain then {.owes .sessionClosedPending}
  else 0

/-- The sender an access to the waiters hands over. -/
def senderFor (m : Mode) (key : RequestKey) (sender : Option Nat) : Multiset Tok :=
  match sender with
  | some channel => if m.strict then {.holdsSender key channel} else 0
  | none => 0

section Helpers

variable {m : Mode} {x : Tok}

theorem mem_idFor {key : RequestKey} (h : x ∈ idFor m key) : ∃ sid, x = .id sid key.requestId := by
  unfold idFor at h
  repeat' split at h
  all_goals simp_all

theorem mem_waiterFor {key : RequestKey} (h : x ∈ waiterFor m key) : x = .owesWaiter key := by
  unfold waiterFor at h
  split at h <;> simp_all

theorem mem_claimFor {token : RequestToken} (h : x ∈ claimFor m token) : x = .resolving token := by
  unfold claimFor at h
  split at h <;> simp_all

theorem mem_mintFor {token : RequestToken} (h : x ∈ mintFor m token) : x = .minted token := by
  unfold mintFor at h
  split at h <;> simp_all

theorem mem_responseFor {call : Nat} {sid : Option SessionId} {id : UInt32} {packet : Packet}
    {used : Bool} (h : x ∈ responseFor m call sid id packet used) :
    x = .response call sid id packet used := by
  unfold responseFor at h
  split at h <;> simp_all

theorem mem_openFor {sid : SessionId} (h : x ∈ openFor m sid) : x = .unopened sid := by
  unfold openFor at h
  split at h <;> simp_all

theorem mem_owedFor {caller : Caller} {target : RequestState} (h : x ∈ owedFor caller target) :
    ∃ counter, x = .owes counter := by
  unfold owedFor at h
  repeat' split at h
  all_goals simp_all

theorem mem_senderFor {key : RequestKey} {sender : Option Nat} (h : x ∈ senderFor m key sender) :
    ∃ channel, sender = some channel ∧ x = .holdsSender key channel := by
  unfold senderFor at h
  repeat' split at h
  all_goals simp_all

end Helpers

/-- A caller that presents a token acts on that registration. -/
def Caller.Fits (caller : Caller) (token : RequestToken) : Prop :=
  match caller with
  | .token presented => presented = token
  | _ => True

/-- Which tokens an ended registration's winner may give up with the transition. -/
inductive Ends (m : Mode) (call : Nat) (token : RequestToken) :
    Caller → RequestState → RequestState → Multiset Tok → Multiset Tok → Prop where
  | abort {caller : Caller} {target : RequestState} : caller ≠ .drain → target ≠ .responded →
      target.terminal = true → target ≠ .sendFailed → Ends m call token caller .pending target 0 0
  | undo {rt : Nat} {indexed : Bool} :
      Ends m call token .undo .pending .sessionClosed {.entering token rt indexed} 0
  | complete {packet : Packet} : token.direction = .outbound →
      Ends m call token .key .pending .responded
      (responseFor m call token.sessionId token.requestId packet false)
      (responseFor m call token.sessionId token.requestId packet true)
  | drain {sid : SessionId} {rt : Nat} {past : Bool} {source : RequestState} :
      source.terminal = false →
      Ends m call token .drain source .sessionClosed {.killing sid rt token past} 0
  | finish {writeConfirmed : Bool} : Ends m call token (.token token) .responding
      (respondTarget writeConfirmed) (claimFor m token) 0

/-- What a call learns when a transition fails in another state. -/
inductive Loses (token : RequestToken) :
    Caller → RequestState → Multiset Tok → Multiset Tok → Prop where
  | known {caller : Caller} {source : RequestState} {e : Multiset Tok} :
      Loses token caller source e e
  | undo {rt : Nat} {indexed : Bool} : Loses token .undo .pending {.entering token rt indexed} 0
  | drainPending {sid : SessionId} {rt : Nat} : Loses token .drain .pending
      {.killing sid rt token false} {.killing sid rt token true}
  | drainResponding {sid : SessionId} {rt : Nat} : Loses token .drain .responding
      {.killing sid rt token true} 0
  | finish : Loses token (.token token) .responding {.resolving token} 0

/-- What a call learns when it looks a key up. -/
inductive Looks (key : RequestKey) : Option RequestEntry → Multiset Tok → Multiset Tok → Prop where
  | known {found : Option RequestEntry} {e : Multiset Tok} : Looks key found e e
  | notEntering {found : Option RequestEntry} {token : RequestToken} {rt : Nat} {indexed : Bool} :
      token.key = key → (∀ e ∈ found, e.token ≠ token) →
      Looks key found {.entering token rt indexed} 0
  | notResponding {found : Option RequestEntry} {token : RequestToken} :
      token.key = key → (∀ e ∈ found, e.token ≠ token) → Looks key found {.resolving token} 0
  | drainMiss {sid : SessionId} {rt n : Nat} {keys : List RequestKey} :
      Looks key none {.draining sid rt (key :: keys) n} {.draining sid rt keys n}
  | drainHit {sid : SessionId} {rt n : Nat} {keys : List RequestKey} {entry : RequestEntry} :
      Looks key (some entry) {.draining sid rt (key :: keys) n}
        {.draining sid rt keys n, .killing sid rt entry.token false}
  | waiterSafe {entry : RequestEntry} : Looks key (some entry) {.owesWaiter key} 0

/-- The token rules of the atomic actions. -/
inductive Moves (cfg : RegistryConfig) (m : Mode) (call : Nat) :
    (a : Act) → a.Resp → Multiset Tok → Multiset Tok → Prop where
  | now {i : Instant} : Moves cfg m call .now i 0 0
  | nextGeneration {g : Nat} : Moves cfg m call .nextGenerationFetchAdd g 0 {.fresh g}
  | pendingAdd : Moves cfg m call .pendingFetchAdd () 0 {.added}
  | pendingSubRefused : Moves cfg m call .pendingFetchSub () {.added} 0
  | pendingSubWon {caller : Caller} {token : RequestToken} :
      Moves cfg m call .pendingFetchSub () {.won call caller token} {.subbed call caller token}
  | duplicate : Moves cfg m call (.counterFetchAdd .duplicateResponse 1) () 0 0
  | counter {counter : Counter} {n : Nat} : counter ≠ .duplicateResponse →
      Moves cfg m call (.counterFetchAdd counter n) () (.replicate n (.owes counter)) 0
  | insertRefused {entry : RequestEntry} :
      Moves cfg m call (.entriesInsert entry) false {.fresh entry.generation} 0
  | insertFree {entry : RequestEntry} : entry.key.sessionId = none →
      (m.bound = true → entry.key.direction = .inbound) →
      Moves cfg m call (.entriesInsert entry) true
        ({.fresh entry.generation} + ({.added} + (0 + idFor m entry.key))) {.minted entry.token}
  | insertSession {entry : RequestEntry} {sid : SessionId} {rt : Nat} :
      entry.key.sessionId = some sid →
      Moves cfg m call (.entriesInsert entry) true
        ({.fresh entry.generation} + ({.added} + ({.sees sid rt} + idFor m entry.key)))
        {.entering entry.token rt false}
  | get {key : RequestKey} {found : Option RequestEntry} {e e' : Multiset Tok} :
      Looks key found e e' → Moves cfg m call (.entriesGet key) found e e'
  | remove {caller : Caller} {token : RequestToken} :
      Moves cfg m call (.entriesRemove caller token.key) () {.subbed call caller token}
        (waiterFor m token.key)
  | entriesShard {i : Nat} {keys : List RequestKey} : Moves cfg m call (.entriesShard i) keys 0 0
  | stateLoad {token : RequestToken} {state : RequestState} :
      Moves cfg m call (.stateLoad token) state 0 0
  | lose {caller : Caller} {token : RequestToken} {source target state : RequestState}
      {e e' : Multiset Tok} : Loses token caller source e e' →
      Moves cfg m call (.tryTransition caller token source target) (.error state) e e'
  | claim {token : RequestToken} :
      Moves cfg m call (.tryTransition (.token token) token .pending .responding) (.ok ())
        (mintFor m token) (mintFor m token + {.claim token})
  | win {caller : Caller} {token : RequestToken} {source target : RequestState}
      {e e' : Multiset Tok} : Ends m call token caller source target e e' → caller.Fits token →
      Moves cfg m call (.tryTransition caller token source target) (.ok ()) e
        ({.won call caller token} + owedFor caller target + e')
  | waitersInsert {token : RequestToken} {replaced : Option Nat} : token.direction = .outbound →
      Moves cfg m call (.waitersInsert token.key token.generation) replaced
        (mintFor m token)
        (mintFor m token + waiterFor m token.key + senderFor m token.key replaced)
  | waitersRemove {key : RequestKey} {sender : Option Nat} :
      Moves cfg m call (.waitersRemove key) sender 0 (senderFor m key sender)
  | waitersSettle {key : RequestKey} {sender : Option Nat} :
      Moves cfg m call (.waitersRemove key) sender {.owesWaiter key} (senderFor m key sender)
  | send {channel : Nat} {packet : Packet} {sid : Option SessionId} {id : UInt32} :
      Moves cfg m call (.channelSend channel packet) ()
        (senderFor m (.outbound sid id) (some channel) + responseFor m call sid id packet true)
        (responseFor m call sid id packet true)
  | drop {key : RequestKey} {channel : Nat} :
      Moves cfg m call (.channelDrop channel) () (senderFor m key (some channel)) 0
  | openSession {sid : SessionId} :
      Moves cfg m call (.sessionsOrInsert sid) () (openFor m sid) 0
  | sessionLooked {sid : SessionId} {runtime : Option Nat} :
      Moves cfg m call (.sessionsGet sid) runtime 0 0
  | sessionSeen {sid : SessionId} {rt : Nat} :
      Moves cfg m call (.sessionsGet sid) (some rt) 0 {.sees sid rt}
  | sessionGone {sid : SessionId} : Moves cfg m call (.sessionsRemove sid) none 0 {.gone sid}
  | sessionTaken {sid : SessionId} {rt : Nat} :
      Moves cfg m call (.sessionsRemove sid) (some rt) 0 {.gone sid, .closing sid rt}
  | sessionsShard {i : Nat} {sids : List SessionId} : Moves cfg m call (.sessionsShard i) sids 0 0
  | isOpen {rt : Nat} {b : Bool} {e : Multiset Tok} : Moves cfg m call (.runtimeIsOpen rt) b e e
  | accept {token : RequestToken} {rt : Nat} : Moves cfg m call (.runtimeIsOpen rt) true
      {.entering token rt true} {.minted token}
  | beginClose {sid : SessionId} {rt : Nat} : Moves cfg m call (.runtimeBeginClose rt) ()
      {.closing sid rt} {.draining sid rt [] cfg.shards}
  | abandon {sid : SessionId} {rt : Nat} : m.strict = false →
      Moves cfg m call (.runtimeBeginClose rt) () {.closing sid rt} 0
  | index {token : RequestToken} {rt : Nat} : Moves cfg m call (.requestsInsert rt token) ()
      {.entering token rt false} {.entering token rt true}
  | unindex {rt : Nat} {key : RequestKey} : Moves cfg m call (.requestsRemove rt key) () 0 0
  | shard {sid : SessionId} {rt n : Nat} {keys : List RequestKey} :
      Moves cfg m call (.requestsShard rt (cfg.shards - (n + 1))) keys
        {.draining sid rt [] (n + 1)} {.draining sid rt keys n}
  | clear {sid : SessionId} {rt : Nat} : Moves cfg m call (.requestsClear rt) ()
      {.draining sid rt [] 0} 0
  | idExhausted {rt : Nat} : Moves cfg m call (.nextRequestIdFetchUpdate rt) none 0 0
  | idAllocated {sid : SessionId} {rt : Nat} {id : UInt32} :
      Moves cfg m call (.nextRequestIdFetchUpdate rt) (some id) {.sees sid rt} {.id sid id}
  | onewayId {id : UInt32} : Moves cfg m call .nextIdFetchAdd id 0 0
  | tickAdd {tick : Nat} : Moves cfg m call .currentTickFetchAdd tick 0 0
  | tickLoad {tick : Nat} : Moves cfg m call .currentTickLoad tick 0 0
  | bucketSwap {i : Nat} {keys : List RequestKey} : Moves cfg m call (.bucketSwap i) keys 0 0
  | bucketPush {i : Nat} {key : RequestKey} : Moves cfg m call (.bucketPush i key) () 0 0

/-- Answers that the tokens held rule out: an entry is stored under its own key, the keys of a
session's set are that session's, and a closed session is not found again. -/
inductive Refuted (m : Mode) : (a : Act) → a.Resp → Multiset Tok → Prop where
  | misplaced {key : RequestKey} {entry : RequestEntry} {d : Multiset Tok} : entry.key ≠ key →
      Refuted m (.entriesGet key) (some entry) d
  | stray {sid : SessionId} {rt i n : Nat} {todo keys : List RequestKey} {key : RequestKey}
      {d : Multiset Tok} : .draining sid rt todo n ∈ d → key ∈ keys → key.sessionId ≠ some sid →
      Refuted m (.requestsShard rt i) keys d
  | reopened {sid : SessionId} {rt : Nat} {d : Multiset Tok} : m.final = true → .gone sid ∈ d →
      Refuted m (.sessionsGet sid) (some rt) d

/-- Tokens that a call may keep when it has returned: rights and facts, but no debts. -/
def Tok.idle : Tok → Prop
  | .fresh _ | .minted _ | .sees .. | .gone _ | .id .. | .response .. | .claim _
  | .unopened _ => True
  | _ => False

/-- The token belongs to a call with this number and names only sessions in its scope. -/
def Tok.Within (call : Nat) (scope : Option SessionId → Prop) : Tok → Prop
  | .added | .fresh _ | .owes _ => True
  | .won c _ token | .subbed c _ token => c = call ∧ scope token.sessionId
  | .entering token _ _ | .minted token | .claim token | .resolving token => scope token.sessionId
  | .sees sid _ | .gone sid | .closing sid _ | .draining sid .. | .killing sid ..
  | .id sid _ | .unopened sid => scope (some sid)
  | .owesWaiter key | .holdsSender key _ => scope key.sessionId
  | .response c sid _ _ _ => c = call ∧ scope sid

/-- The registry's rules. No method of the registry rests between two of its steps. -/
def rules (cfg : RegistryConfig) (m : Mode) : Rules Act Act.Resp Tok where
  moves := Moves cfg m
  refuted := fun _ ↦ Refuted m
  await := fun _ ↦ False
  idle := Tok.idle

end MsgTrans.Registry
