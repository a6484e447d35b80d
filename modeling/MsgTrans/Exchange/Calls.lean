import MsgTrans.Exchange.Rules

/-!
# The request exchange of the server: calls

The calls that the tasks of a server make on its sessions, in any number and in any order: accepted
connections, requests and one-way messages of the application, the events that the pumps bring in,
dispatched requests with what their handler does, write loops, the timeout scan, and the removal of
sessions, whoever asks for it. A pump is one call for each of its events, so the packets of a session
are processed in any order here.
-/

namespace MsgTrans.Exchange

open MsgTrans.Wire MsgTrans.Adapters MsgTrans.Base MsgTrans.Registry MsgTrans.Transport
open MsgTrans.Client (Setup)

/-- A call. -/
inductive ServerOp where
  | addSession
  | removeSession (sessionId : SessionId)
  | pumpTeardown (sessionId : SessionId)
  | request (sessionId : SessionId) (data : Bytes)
  | requestWithOptions (sessionId : SessionId) (data : Bytes) (options : SendOptions)
      (timeout : Option Duration)
  | send (sessionId : SessionId) (data : Bytes)
  | sendWithOptions (sessionId : SessionId) (data : Bytes) (options : SendOptions)
  | pumpOneEvent (sessionId : SessionId) (event : TransportEvent)
  | dispatch (sessionId : SessionId) (packet : Packet) (answer : Option (Bytes × SendOptions))
  | writeNext
  | scanTimeoutBucket

/-- What a call returns. -/
inductive ServerOutcome where
  | unit
  | session (sessionId : SessionId)
  | response (result : Except Failure Bytes)
  | receipt (result : Except Failure UInt32)
  | flag (b : Bool)
  | responded (result : Option (Except Failure RespondOutcome))
  | count (n : Nat)
  deriving DecidableEq

namespace ServerOp

/-- The program a call runs. -/
def body (cfg : Setup) : ServerOp → Task ServerOutcome
  | .addSession => do
    let sid ← Exchange.addSession
    pure (.session sid)
  | .removeSession sid => do
    Exchange.removeSession cfg sid
    pure .unit
  | .pumpTeardown sid => do
    Exchange.pumpTeardown cfg sid
    pure .unit
  | .request sid data => do
    let result ← Exchange.request cfg sid data
    pure (.response result)
  | .requestWithOptions sid data options timeout => do
    let result ← Exchange.requestWithOptions cfg sid data options timeout
    pure (.response result)
  | .send sid data => do
    let result ← Exchange.send cfg sid data
    pure (.receipt result)
  | .sendWithOptions sid data options => do
    let result ← Exchange.sendWithOptions cfg sid data options
    pure (.receipt result)
  | .pumpOneEvent sid event => do
    let keep ← Exchange.pumpOneEvent sid event
    pure (.flag keep)
  | .dispatch sid packet answer => do
    let result ← Exchange.dispatch cfg sid packet answer
    pure (.responded result)
  | .writeNext => do
    Exchange.writeNext
    pure .unit
  | .scanTimeoutBucket => do
    let timedOut ← onRegistry (Registry.scanTimeoutBucket cfg.registry)
    pure (.count timedOut)

/-- The session a call makes a request on. -/
def requestsOn? : ServerOp → Option SessionId
  | .request sid _ | .requestWithOptions sid _ _ _ => some sid
  | _ => none

/-- The call processes this response packet for the session. -/
def Pumps (o : ServerOp) (sid : SessionId) (packet : Packet) : Prop :=
  o = .pumpOneEvent sid (.data (.messageReceived packet)) ∧ packet.header.packetType = .response

/-- The call dispatches a request of this kind. -/
def Dispatches (o : ServerOp) (sid : SessionId) (id : UInt32) : Prop :=
  ∃ packet answer, o = .dispatch sid packet answer ∧ packet.header.messageId = id

/-- The claims a call asks for: those of the request it dispatches. -/
def Asks (o : ServerOp) (token : RequestToken) : Prop :=
  ∃ sid id, o.Dispatches sid id ∧ token.key = .inbound (some sid) id

/-- What a call begins with: the packet it processes. -/
def start (t : Nat) : ServerOp → Multiset Tok
  | .pumpOneEvent sid event => arrivalFor t sid event
  | _ => 0

end ServerOp

/-- The sessions of a server. -/
def exchange (cfg : Setup) : System Act Act.Resp State ServerOp ServerOutcome where
  exec := Act.exec cfg
  body := ServerOp.body cfg

/-- Every call may be made at any time, and every action be performed. -/
def anyTasks : System.Env Act Act.Resp State ServerOp ServerOutcome where
  mayStart := fun _ _ ↦ True
  mayAct := fun _ _ ↦ True

instance (c : Config Act Act.Resp State ServerOp ServerOutcome) (o : ServerOp) :
    Decidable (anyTasks.mayStart c o) := inferInstanceAs (Decidable True)

instance (a : Act) (s : State) : Decidable (anyTasks.mayAct a s) :=
  inferInstanceAs (Decidable True)

/-- What a call leaves behind. -/
structure Settled (t : Nat) (o : ServerOp) (v : ServerOutcome) (d : Multiset Tok) : Prop where
  rest : Rest d
  answered : ∀ data, v = .response (.ok data) → ∃ sid response, o.requestsOn? = some sid ∧
    response.payload = data ∧ Answered sid response d
  written : v = .responded (some (.ok .written)) → ∃ claim, Written t claim d

/-- What each call promises. -/
def serverContract : Contract ServerOp ServerOutcome Tok where
  start := fun t o d ↦ d = o.start t
  ok := fun t o ↦ Tok.Within t o.Asks
  post := Settled

section Bodies

variable {cfg : Setup} {t : Nat} {A : RequestToken → Prop} {o : ServerOp}

-- Most results say nothing about what is left behind.
private theorem keeps_settled {v : ServerOutcome} {G : Multiset Tok} (hG : Rest G)
    (hresponse : ∀ data, v ≠ .response (.ok data))
    (hresponded : v ≠ .responded (some (.ok .written))) :
    Keeps cfg t A (Settled t o) (pure v) (G + 0) := by
  rw [add_zero]
  exact follows_ret
    ⟨hG, fun data hv ↦ absurd hv (hresponse data), fun hv ↦ absurd hv hresponded⟩

private theorem keeps_failed {e : Failure} {G : Multiset Tok} (hG : Rest G) :
    Keeps cfg t A (Settled t o) (pure (.response (.error e))) G := by
  rw [← add_zero G]
  exact keeps_settled hG (by simp) (by simp)

private theorem keeps_answered {sid : SessionId} {response : Packet} {d : Multiset Tok}
    (ho : o.requestsOn? = some sid) (hd : Rest d) (h : Answered sid response d) :
    Keeps cfg t A (Settled t o) (pure (.response (.ok response.payload))) d := by
  refine follows_ret ⟨hd, fun data hv ↦ ?_, fun hv ↦ by cases hv⟩
  cases hv
  exact ⟨sid, response, ho, rfl, h⟩

/-- Every call follows the rules. -/
theorem ServerOp.body_keeps (o : ServerOp) :
    Keeps cfg t o.Asks (Settled t o) (o.body cfg) (o.start t) := by
  cases o with
  | addSession => exact addSession_spec fun sid G hG ↦ keeps_settled hG (by simp) (by simp)
  | removeSession sid => exact removeSession_spec (keeps_settled rest_gone (by simp) (by simp))
  | pumpTeardown sid => exact pumpTeardown_spec fun G hG ↦ keeps_settled hG (by simp) (by simp)
  | request sid data =>
    exact request_spec (fun e G hG ↦ keeps_failed hG)
      fun response G hG hanswered ↦ keeps_answered rfl hG hanswered
  | requestWithOptions sid data options timeout =>
    exact requestWithOptions_spec (fun e G hG ↦ keeps_failed hG)
      fun response G hG hanswered ↦ keeps_answered rfl hG hanswered
  | send sid data => exact send_spec fun r G hG ↦ keeps_settled hG (by simp) (by simp)
  | sendWithOptions sid data options =>
    exact sendWithOptions_spec fun r G hG ↦ keeps_settled hG (by simp) (by simp)
  | pumpOneEvent sid event =>
    rw [ServerOp.start, ← add_zero (arrivalFor t sid event)]
    exact pumpOneEvent_spec fun keep G hG ↦ keeps_settled hG (by simp) (by simp)
  | dispatch sid packet answer =>
    refine dispatch_spec (fun token hkey ↦ ⟨sid, _, ⟨packet, answer, rfl, rfl⟩, hkey⟩)
      (fun r G hr hG ↦ keeps_settled hG (by simp) (by simpa using hr)) fun claim G _ hG hw ↦ ?_
    show Keeps cfg t _ _ _ (G + 0)
    rw [add_zero]
    exact follows_ret ⟨hG, fun data hv ↦ (by cases hv), fun _ ↦ ⟨claim, hw⟩⟩
  | writeNext => exact writeNext_spec fun G hG ↦ keeps_settled hG (by simp) (by simp)
  | scanTimeoutBucket =>
    refine scanTimeoutBucket_spec fun n ↦ ?_
    exact follows_ret ⟨rest_zero, fun data hv ↦ (by cases hv), fun hv ↦ (by cases hv)⟩

end Bodies

end MsgTrans.Exchange
