import MsgTrans.Base.Layer
import MsgTrans.Client.Action

/-!
# The client transport: methods

The methods of `Transport` (`crates/msgtrans/src/transport/transport.rs:101–463,498–855`) and the
calls of `TransportClient` on them (`client.rs:245–372,548–669`) as programs over the atomic
actions, in the order the source performs them. A future can be dropped wherever it waits; what its
guards do then is part of the program. The respond claim that `send_confirmed_with` may carry and
the completion it travels in are left to the connection's side.
-/

namespace MsgTrans.Client

open MsgTrans.Wire MsgTrans.Adapters MsgTrans.Base MsgTrans.Registry MsgTrans.Transport

/-- A program of the transport. -/
abbrev Task := Prog Act Act.Resp

/-- Perform one operation. -/
abbrev op (a : Act) : Task a.Resp := Prog.perform a

/-- Run a method of the registry. -/
def onRegistry {α : Type} (p : Registry.Task α) : Task α := p.lift Act.registry fun _ r ↦ r

/-- How a call fails: its future was dropped, it ran into its deadline, or it reports an error. -/
inductive Failure where
  | cancelled
  | timedOut
  | error (e : TransportError)
  deriving DecidableEq

/-- Go on after an await, unless the future is dropped there. -/
def resuming {α : Type} (rest : Task (Except Failure α)) : Task (Except Failure α) := do
  let resumed ← op .resume
  if resumed then rest else pure (.error .cancelled)

variable (cfg : Setup)

/-- `set_connection` up to the spawn of the consumer task; `transport.rs:370–421`. -/
def setConnection (connection : Nat) : Task SessionId := do
  let sid ← op (.slotInstall connection)
  op (.addConnection sid)
  onRegistry (openSession sid)
  op (.forward sid none (.data .connectionEstablished))
  pure sid

/-- What a taken slot's owner does last: it drops the connection. -/
def dropTaken : Option Nat → Task Unit
  | some connection => op (.connectionDrop connection)
  | none => pure ()

/-- `mark_closed` and `remove_connection` with the taken slot still in hand; a dropped future drops
it. -/
def markAndRemove (sid : SessionId) (taken : Option Nat) : Task Unit := do
  let resumed ← op .resume
  if resumed then do
    op (.markClosed sid)
    op (.removeConnection sid)
    dropTaken taken
  else dropTaken taken

/-- `retire_generation`; `transport.rs:200–224`. -/
def retireGeneration (sid : SessionId) : Task Unit := do
  let taken ← op (.slotTake sid)
  markAndRemove sid taken

/-- The close of a connection that was taken out of the slot. A graceful close that fails or takes
too long is followed by a forced one; `transport.rs:261–283,326–327`. -/
def closeTaken (force : Bool) (connection : Nat) : Task Bool := do
  let closed ← op (.connectionClose connection)
  let resumed ← op .resume
  if resumed then
    if force || closed then do
      op (.connectionDrop connection)
      pure true
    else do
      let _ ← op (.connectionClose connection)
      let resumed ← op .resume
      op (.connectionDrop connection)
      pure resumed
  else do
    op (.connectionDrop connection)
    pure false

/-- `close_session` and `force_close_session`; `transport.rs:227–339`. -/
def close (force : Bool) (sid : SessionId) : Task Unit := do
  let started ← op (.tryStartClosing sid)
  if started then do
    let _ ← onRegistry (closeSessionPending cfg.registry sid)
    let resumed ← op .resume
    if resumed then do
      let taken ← op (.slotTake sid)
      match taken with
      | some connection => do
        let completed ← closeTaken force connection
        if completed then markAndRemove sid none else pure ()
      | none => markAndRemove sid none
    else pure ()
  else pure ()

/-- `close_session`; `transport.rs:227–298`. -/
def closeSession (sid : SessionId) : Task Unit := close cfg false sid

/-- `force_close_session`; `transport.rs:300–339`. -/
def forceCloseSession (sid : SessionId) : Task Unit := close cfg true sid

/-- `on_event`; `transport.rs:559–691`. -/
def onEvent (sid : SessionId) (event : TransportEvent) : Task Unit :=
  match event with
  | .data (.messageReceived packet) =>
    match packet.header.packetType with
    | .response => do
      let completed ← onRegistry (completeWaiter (some sid) packet.header.messageId packet)
      if completed then pure () else op (.forward sid none event)
    | .request => do
      let token ← onRegistry (register cfg.registry packet.header.messageId (some sid)
        packet.header.bizType requestLifecycleTimeout)
      match token with
      | none => pure ()
      | some token => op (.forward sid (some token) event)
    | .oneWay => op (.forward sid none event)
  | .connectionClosed _ => do
    let _ ← onRegistry (closeSessionPending cfg.registry sid)
    retireGeneration sid
    op (.forward sid none event)
  | .data _ => op (.forward sid none event)

/-- The end of the consumer task; `transport.rs:440–456`. -/
def teardown (sid : SessionId) : Task Unit := do
  let strong ← op .upgrade
  if strong then do
    retireGeneration sid
    let _ ← onRegistry (closeSessionPending cfg.registry sid)
    pure ()
  else pure ()

/-- The consumer task on the events its pipe yields; `transport.rs:425–457`. -/
def consume (sid : SessionId) : List TransportEvent → Task Unit
  | [] => teardown cfg sid
  | event :: events => do
    let strong ← op .upgrade
    if strong then do
      let epoch ← op .epochLoad
      if epoch = sid then do
        onEvent cfg sid event
        consume sid events
      else teardown cfg sid
    else teardown cfg sid

/-- `send_confirmed_with`; `transport.rs:129–169`. -/
def sendConfirmedWith (packet : Packet) (expected : Option SessionId) :
    Task (Except Failure Unit) :=
  resuming do
    let writer ← op (.slotWriter expected)
    match writer with
    | .error e => pure (.error (.error e))
    | .ok connection =>
      resuming do
        let enqueued ← op (.enqueue connection expected packet)
        match enqueued with
        | .error e => pure (.error (.error e))
        | .ok _ =>
          resuming do
            let written ← op .receipt
            match written with
            | .error e => pure (.error (.error e))
            | .ok _ => pure (.ok ())

/-- `send`; `transport.rs:101–116`. -/
def send (packet : Packet) : Task (Except Failure Unit) :=
  resuming do
    let writer ← op (.slotWriter none)
    match writer with
    | .error e => pure (.error (.error e))
    | .ok connection =>
      resuming do
        let enqueued ← op (.enqueue connection none packet)
        match enqueued with
        | .error e => pure (.error (.error e))
        | .ok _ => pure (.ok ())

/-- The refusal of a registration; `transport.rs:515–521`. -/
def duplicateError : TransportError := .connection "Duplicate in-flight request id" false

/-- The send of a registered request and the wait for its response, with the guard that aborts the
registration unless it is disarmed; `transport.rs:527–552,767–820`. -/
def sendAndAwait (packet : Packet) (session : Option SessionId) (channel : Nat)
    (token : RequestToken) : Task (Except Failure Packet) := do
  let sent ← sendConfirmedWith packet session
  match sent with
  | .error e => do
    let _ ← onRegistry (abortRequestToken token)
    pure (.error e)
  | .ok _ => do
    let resumed ← op .resume
    if resumed then do
      let awaited ← op (.awaitReply channel)
      match awaited with
      | .received response => pure (.ok response)
      | .closed => do
        let _ ← onRegistry (abortRequestToken token)
        pure (.error (.error (.connection "Connection closed" true)))
      | .timedOut => do
        let _ ← onRegistry (abortRequestToken token)
        pure (.error .timedOut)
    else do
      let _ ← onRegistry (abortRequestToken token)
      pure (.error .cancelled)

/-- The registration of a request and what follows it. -/
def registerAndSend (packet : Packet) (timeout : Duration) : Task (Except Failure Packet) :=
  resuming do
    let session ← op .slotSessionId
    let registered ← onRegistry (tryRegisterWaiter cfg.registry packet.header.messageId session
      packet.header.bizType timeout)
    match registered with
    | .error _ => pure (.error (.error duplicateError))
    | .ok (channel, token) => sendAndAwait packet session channel token

/-- `DEFAULT_WAITER_DEADLINE`; `transport.rs:71`. -/
def defaultWaiterDeadline : Duration := 30000000000

/-- `Transport::request`; `transport.rs:498–553`. -/
def transportRequest (packet : Packet) : Task (Except Failure Packet) :=
  if packet.header.packetType = .request then registerAndSend cfg packet defaultWaiterDeadline
  else pure (.error (.error (.connection "Not a Request packet" false)))

/-- The exhausted id space; `transport.rs:731–737`. -/
def idSpaceError : TransportError := .resource "request_id_space" 4294967295 4294967295

/-- `Transport::request_with_options`; `transport.rs:719–821`. -/
def transportRequestWithOptions (data : Bytes) (options : SendOptions) (timeout : Option Duration) :
    Task (Except Failure Bytes) :=
  resuming do
    let session ← op .slotSessionId
    let id ← onRegistry (nextRequestId session)
    match id with
    | none => pure (.error (.error idSpaceError))
    | some id =>
      match options.applyOver cfg.codecs (.request id data) 0 with
      | .error e => pure (.error (.error e))
      | .ok packet => do
        let response ← registerAndSend cfg packet (timeout.getD defaultWaiterDeadline)
        pure (response.map fun packet ↦ packet.payload)

/-- Run a call on `&self` of the client. -/
def borrowing {α : Type} (p : Task α) : Task α := do
  op .borrow
  let v ← p
  op .release
  pure v

/-- The refusal of a second connection; `client.rs:260–267`. -/
def alreadyConnectedError (sid : SessionId) : TransportError :=
  .connection ("Already connected (session " ++ toString sid ++
    "); call disconnect() before connecting again") false

/-- `connect` with the connection that its protocol builds. An attempt that fails or is dropped
before there is one leaves nothing behind; `client.rs:245–302,327–372`. -/
def connect (connection : Nat) : Task (Except Failure SessionId) := do
  op .borrowMut
  let session ← op .slotSessionId
  match session with
  | some sid => do
    op .releaseMut
    pure (.error (.error (alreadyConnectedError sid)))
  | none => do
    let built ← op .resume
    if built then do
      let sid ← setConnection connection
      let resumed ← op .resume
      if resumed then do
        op (.currentSet sid)
        op .releaseMut
        pure (.ok sid)
      else do
        op .releaseMut
        pure (.error .cancelled)
    else do
      op .releaseMut
      pure (.error .cancelled)

/-- The refusal of a call without a connection; `client.rs:588–592`. -/
def connectFirstError : TransportError := .connection "Not connected - call connect() first" false

/-- `TransportClient::request`; `client.rs:637–669`. -/
def request (data : Bytes) : Task (Except Failure Bytes) :=
  borrowing <| resuming do
    let connected ← op .slotSessionId
    if connected.isSome then
      resuming do
        let session ← op .slotSessionId
        let id ← onRegistry (nextRequestId session)
        match id with
        | none => pure (.error (.error idSpaceError))
        | some id => do
          let response ← transportRequest cfg (.request id data)
          pure (response.map fun packet ↦ packet.payload)
    else pure (.error (.error connectFirstError))

/-- `TransportClient::request_with_options`; `client.rs:889–895`. -/
def requestWithOptions (data : Bytes) (options : SendOptions) (timeout : Option Duration) :
    Task (Except Failure Bytes) :=
  borrowing (transportRequestWithOptions cfg data options timeout)

/-- `TransportClient::send`; `client.rs:586–608`. -/
def sendMessage (data : Bytes) : Task (Except Failure Unit) :=
  borrowing <| resuming do
    let session ← op .slotSessionId
    if session.isSome then do
      let id ← onRegistry nextOnewayId
      sendConfirmedWith (.oneWay id data) session
    else pure (.error (.error connectFirstError))

/-- `TransportClient::send_detached`; `client.rs:614–629`. -/
def sendDetached (data : Bytes) : Task (Except Failure Unit) :=
  borrowing <| resuming do
    let session ← op .slotSessionId
    if session.isSome then do
      let id ← onRegistry nextOnewayId
      send (.oneWay id data)
    else pure (.error (.error connectFirstError))

/-- `send_with_options`; `transport.rs:838–855`, `client.rs:899–905`. -/
def sendWithOptions (data : Bytes) (options : SendOptions) : Task (Except Failure Unit) :=
  borrowing do
    let id ← onRegistry nextOnewayId
    match options.applyOver cfg.codecs (.oneWay id data) 0 with
    | .error e => pure (.error (.error e))
    | .ok packet =>
      resuming do
        let session ← op .slotSessionId
        sendConfirmedWith packet session

/-- `disconnect` and `force_disconnect`; `client.rs:548–581`. -/
def disconnect (force : Bool) : Task (Except Failure Unit) :=
  borrowing do
    let session ← op .currentTake
    match session with
    | some sid => do
      close cfg force sid
      pure (.ok ())
    | none => pure (.error (.error notConnectedError))

end MsgTrans.Client
