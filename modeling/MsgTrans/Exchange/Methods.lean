import MsgTrans.Exchange.Action

/-!
# The request exchange of the server: methods

The methods of `TransportServer` that make, answer and close requests
(`crates/msgtrans/src/transport/transport_server.rs:218–831`), the dispatch of an inbound request
with its `Responder` (`session_actor.rs:231–309,558–592`), the confirmed send of a response
(`transport.rs:129–169`, `outbound.rs:50–168`) and its completion in a write loop
(`connection.rs:46–86`), as programs over the atomic actions, in the order the source performs them.
A future can be dropped wherever it waits; what its guards do then is part of the program.
-/

namespace MsgTrans.Exchange

open MsgTrans.Wire MsgTrans.Adapters MsgTrans.Base MsgTrans.Registry MsgTrans.Transport
open MsgTrans.Client (Setup Awaited pollReply idSpaceError)

/-- A program of the exchange. -/
abbrev Task := Prog Act Act.Resp

/-- Perform one operation. -/
abbrev op (a : Act) : Task a.Resp := Prog.perform a

/-- Run a method of the registry. -/
def onRegistry {α : Type} (p : Registry.Task α) : Task α := p.lift Act.registry fun _ r ↦ r

/-- How a call fails: its future was dropped, it ran into its deadline, or it reports an error. -/
inductive Failure where
  | cancelled
  | timedOut (operation : String) (duration : Duration)
  | error (e : TransportError)
  deriving DecidableEq

/-- Go on after an await, unless the future is dropped there. -/
def resuming {α : Type} (rest : Task (Except Failure α)) : Task (Except Failure α) := do
  let resumed ← op .resume
  if resumed then rest else pure (.error .cancelled)

variable (cfg : Setup)

/-- An accepted connection is made a session, unless the server has begun to shut down;
`transport_server.rs:1325–1338,521–586`. -/
def addSession : Task SessionId := do
  let sid ← op .generateSessionId
  let isOpen ← op .admissionOpen
  if isOpen then do
    op (.transportsInsert sid)
    onRegistry (openSession sid)
    op (.handlesInsert sid)
    pure sid
  else pure sid

/-- `remove_session`; `transport_server.rs:725–752`. -/
def removeSession (sid : SessionId) : Task Unit := do
  let _ ← onRegistry (closeSessionPending cfg.registry sid)
  op (.transportsRemove sid)
  op (.handlesRemove sid)

/-- `pump_teardown`; `transport_server.rs:814–831`. -/
def pumpTeardown (sid : SessionId) : Task Unit := do
  let _ ← onRegistry (closeSessionPending cfg.registry sid)
  let transport ← op (.transportsGet sid)
  if transport then removeSession cfg sid else pure ()

/-- The result of a send. An error of a dead connection removes the session;
`transport_server.rs:232–254,283–304`. -/
def finishSend (sid : SessionId) : Except TransportError Unit → Task (Except Failure Unit)
  | .ok _ => pure (.ok ())
  | .error e =>
    if isConnectionDead e then do
      removeSession cfg sid
      pure (.error (.error (.connection "Connection closed during send" false)))
    else pure (.error (.error e))

/-- `send_to_session`; `transport_server.rs:218–316`. -/
def sendToSession (sid : SessionId) (packet : Packet) : Task (Except Failure Unit) := do
  let handle ← op (.handlesGet sid)
  if handle then
    resuming do
      let sent ← op (.sendResult sid packet)
      finishSend cfg sid sent
  else do
    let transport ← op (.transportsGet sid)
    if transport then
      resuming do
        let connected ← op (.isConnected sid)
        if connected then
          resuming do
            let sent ← op (.sendResult sid packet)
            finishSend cfg sid sent
        else do
          removeSession cfg sid
          pure (.error (.error (.connection "Connection closed" false)))
    else pure (.error (.error (.connection "Session not found" false)))

/-- The wait for the response to a registered request, with the guard that aborts the registration
unless it is disarmed; `transport_server.rs:372–398`. -/
def awaitResponse (channel : Nat) (token : RequestToken) (timeout : Duration) :
    Task (Except Failure Packet) := do
  let resumed ← op .resume
  if resumed then do
    let awaited ← op (.awaitReply channel)
    match awaited with
    | .received response => pure (.ok response)
    | .closed => do
      let _ ← onRegistry (abortRequestToken token)
      pure (.error (.error (.connection "Connection closed" true)))
    | .timedOut => do
      let _ ← onRegistry (abortRequestToken token)
      pure (.error (.timedOut "server request" timeout))
  else do
    let _ ← onRegistry (abortRequestToken token)
    pure (.error .cancelled)

/-- The send of a registered request under the same guard; `transport_server.rs:372–378`. -/
def sendAndAwait (sid : SessionId) (packet : Packet) (channel : Nat) (token : RequestToken)
    (timeout : Duration) : Task (Except Failure Packet) := do
  let sent ← sendToSession cfg sid packet
  match sent with
  | .error e => do
    let _ ← onRegistry (abortRequestToken token)
    pure (.error e)
  | .ok _ => awaitResponse channel token timeout

/-- `request_to_session`; `transport_server.rs:324–399`. -/
def requestToSession (sid : SessionId) (packet : Packet) (timeout : Duration) :
    Task (Except Failure Packet) := do
  let transport ← op (.transportsGet sid)
  if transport then
    if packet.header.packetType = .request then do
      let registered ← onRegistry (tryRegisterWaiter cfg.registry packet.header.messageId (some sid)
        packet.header.bizType requestLifecycleTimeout)
      match registered with
      | .error _ =>
        pure (.error (.error
          (.connection "Duplicate in-flight request id for this session" false)))
      | .ok (channel, token) => sendAndAwait cfg sid packet channel token timeout
    else pure (.error (.error (.connection "Not a Request packet" false)))
  else pure (.error (.error (.connection "Session not found" false)))

/-- `DEFAULT_REQUEST_RESPONSE_TIMEOUT`; `transport_server.rs:54`. -/
def defaultRequestResponseTimeout : Duration := 10000000000

/-- `TransportServer::request`; `transport_server.rs:478–513`. -/
def request (sid : SessionId) (data : Bytes) : Task (Except Failure Bytes) := do
  let id ← onRegistry (nextRequestId (some sid))
  match id with
  | none => pure (.error (.error idSpaceError))
  | some id => do
    let response ← requestToSession cfg sid (.request id data) defaultRequestResponseTimeout
    pure (response.map fun packet ↦ packet.payload)

/-- `TransportServer::request_with_options`; `transport_server.rs:447–472`. -/
def requestWithOptions (sid : SessionId) (data : Bytes) (options : SendOptions)
    (timeout : Option Duration) : Task (Except Failure Bytes) := do
  let id ← onRegistry (nextRequestId (some sid))
  match id with
  | none => pure (.error (.error idSpaceError))
  | some id =>
    match options.applyOver cfg.codecs (.request id data) 0 with
    | .error e => pure (.error (.error e))
    | .ok packet => do
      let response ← requestToSession cfg sid packet
        (timeout.getD defaultRequestResponseTimeout)
      pure (response.map fun packet ↦ packet.payload)

/-- `TransportServer::send`; `transport_server.rs:403–421`. The receipt carries the id. -/
def send (sid : SessionId) (data : Bytes) : Task (Except Failure UInt32) := do
  let id ← onRegistry nextOnewayId
  let sent ← sendToSession cfg sid (.oneWay id data)
  pure (sent.map fun _ ↦ id)

/-- `TransportServer::send_with_options`; `transport_server.rs:429–440`. -/
def sendWithOptions (sid : SessionId) (data : Bytes) (options : SendOptions) :
    Task (Except Failure UInt32) := do
  let id ← onRegistry nextOnewayId
  match options.applyOver cfg.codecs (.oneWay id data) 0 with
  | .error e => pure (.error (.error e))
  | .ok packet => do
    let sent ← sendToSession cfg sid packet
    pure (sent.map fun _ ↦ id)

/-- An event goes on to the session's actor, unless the pump is cancelled or the actor is gone. The
answer says whether the pump goes on; `transport_server.rs:792–804`. -/
def forwardEvent (sid : SessionId) (event : TransportEvent) : Task Bool := do
  let resumed ← op .resume
  if resumed then do
    let sent ← op (.sendEvent sid event)
    match event with
    | .connectionClosed _ => pure false
    | .data _ => pure sent
  else pure false

/-- `pump_one_event`; `transport_server.rs:770–806`. -/
def pumpOneEvent (sid : SessionId) (event : TransportEvent) : Task Bool :=
  match event with
  | .data (.messageReceived packet) =>
    if packet.header.packetType = .response then do
      let completed ← onRegistry (completeWaiter (some sid) packet.header.messageId packet)
      if completed then pure true else forwardEvent sid event
    else forwardEvent sid event
  | _ => forwardEvent sid event

/-- `RespondClaim::resolve`, and its drop for a write that is not confirmed;
`request_registry.rs:195–224`. -/
def resolveClaim (completion : Option Nat) (claim : RequestToken) (writeConfirmed : Bool) :
    Task Unit := do
  op (.resolve completion claim writeConfirmed)
  let _ ← onRegistry (finishRespond claim writeConfirmed)
  pure ()

/-- The wait for the receipt of a response that is in its queue; `outbound.rs:86–95`. -/
def awaitReceipt (completion : Nat) : Task (Except Failure Unit) :=
  resuming do
    let receipt ← op (.awaitReceipt completion)
    match receipt with
    | .error e => pure (.error (.error e))
    | .ok _ => pure (.ok ())

/-- `QueueWriter::send_with_completion` and the wait for the receipt. A completion that is not
enqueued is dropped; `outbound.rs:148–168`, `transport.rs:166–168`. -/
def sendWithCompletion (sid : SessionId) (packet : Packet) (claim : RequestToken) :
    Task (Except Failure Unit) := do
  let completion ← op (.handOver sid packet claim)
  let resumed ← op .resume
  if resumed then do
    let enqueued ← op (.enqueue ⟨completion, sid, packet, claim⟩)
    match enqueued with
    | .ok _ => awaitReceipt completion
    | .error e => do
      resolveClaim (some completion) claim false
      pure (.error (.error e))
  else do
    resolveClaim (some completion) claim false
    pure (.error .cancelled)

/-- `send_confirmed_with` for a response that carries its claim; `transport.rs:129–169`. -/
def sendConfirmedWith (sid : SessionId) (packet : Packet) (claim : RequestToken) :
    Task (Except Failure Unit) := do
  let resumed ← op .resume
  if resumed then do
    let writer ← op (.slotWriter sid)
    match writer with
    | .ok _ => sendWithCompletion sid packet claim
    | .error e => do
      resolveClaim none claim false
      pure (.error (.error e))
  else do
    resolveClaim none claim false
    pure (.error .cancelled)

/-- `Packet::response_with_biz`; `packet.rs:357–361`. -/
def responseWithBiz (messageId : UInt32) (bizType : UInt8) (payload : Bytes) : Packet :=
  let packet := Packet.response messageId payload
  { packet with header := { packet.header with bizType } }

/-- `RespondOutcome`; `event.rs:144–150`. -/
inductive RespondOutcome where
  | written
  | alreadyHandled
  deriving DecidableEq, Repr

/-- `Responder::respond_with_options` up to the drop of the responder;
`session_actor.rs:246–276`. -/
def respond (sid : SessionId) (token : RequestToken) (bizType : UInt8) (data : Bytes)
    (options : SendOptions) : Task (Except Failure RespondOutcome) := do
  let begun ← onRegistry (beginRespond token)
  if begun = .updated then
    match options.applyOver cfg.codecs (responseWithBiz token.requestId bizType data) bizType with
    | .error e => do
      resolveClaim none token false
      pure (.error (.error e))
    | .ok packet => do
      let sent ← sendConfirmedWith sid packet token
      pure (sent.map fun _ ↦ .written)
  else pure (.ok .alreadyHandled)

/-- `respond_with_options` with the responder dropped behind it;
`session_actor.rs:246–276,298–309`. -/
def respondWithOptions (sid : SessionId) (token : RequestToken) (bizType : UInt8) (data : Bytes)
    (options : SendOptions) : Task (Except Failure RespondOutcome) := do
  let outcome ← respond cfg sid token bizType data options
  let _ ← onRegistry (abortRequestToken token)
  pure outcome

/-- The actor's dispatch of a packet to a handler that answers a request with this data, or drops
its responder; `session_actor.rs:558–592`. -/
def dispatch (sid : SessionId) (packet : Packet) (answer : Option (Bytes × SendOptions)) :
    Task (Option (Except Failure RespondOutcome)) :=
  if packet.header.packetType = .request then do
    let token ← onRegistry (register cfg.registry packet.header.messageId (some sid)
      packet.header.bizType requestLifecycleTimeout)
    match token with
    | none => pure none
    | some token =>
      match answer with
      | some (data, options) => do
        let outcome ← respondWithOptions cfg sid token packet.header.bizType data options
        pure (some outcome)
      | none => do
        let _ ← onRegistry (abortRequestToken token)
        pure none
  else pure none

/-- What a response is told that no write loop has written; `transport.rs:167–168`. -/
def closedBeforeWrite : TransportError := .connection "connection closed before write" false

/-- A write loop on the next item of its queue: `WriteCompletion::complete` with the result of the
write, or the drop of the completion; `connection.rs:46–86`. -/
def writeNext : Task Unit := do
  let item ← op .dequeue
  let written ← op (.write item)
  match written with
  | some (.ok _) => do
    resolveClaim (some item.completion) item.claim true
    op (.observe item.completion (.ok ()))
  | some (.error e) => do
    resolveClaim (some item.completion) item.claim false
    op (.observe item.completion (.error e))
  | none => do
    op (.observe item.completion (.error closedBeforeWrite))
    resolveClaim (some item.completion) item.claim false

end MsgTrans.Exchange
