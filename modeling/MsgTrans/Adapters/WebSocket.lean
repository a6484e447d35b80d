import MsgTrans.Adapters.Core
import MsgTrans.Wire.Codec

/-!
# The WebSocket reader

Model of `crates/msgtrans/src/adapters/websocket.rs:75–79,352–391,466–540`: the caps given to the
WebSocket library, the treatment of one message, and the read loop over what the library yields.
The library itself is outside the repository; what it yields is an input here. The consumer takes
every packet.
-/

namespace MsgTrans.Adapters.WebSocket

open MsgTrans.Wire

/-- The two caps of the library's configuration that the adapter sets. -/
structure WebSocketConfig where
  maxMessageSize : Option Nat
  maxFrameSize : Option Nat
  deriving DecidableEq, Repr

/-- `ws_protocol_config`; `websocket.rs:75–79`. -/
def wsProtocolConfig (limits : DecodeLimits) : WebSocketConfig where
  maxMessageSize := some limits.maxFrameSize
  maxFrameSize := some limits.maxFrameSize

/-- The library's messages. -/
inductive Message where
  | binary (data : Bytes)
  | text (data : Bytes)
  | close
  | ping
  | pong
  | frame
  deriving DecidableEq, Repr

/-- The library's errors: a finished closing handshake, or another one with its debug text. -/
inductive TungsteniteError where
  | connectionClosed
  | other (debug : String)
  deriving DecidableEq, Repr

/-- `MessageProcessResult`; the only error is `WebSocketError::InvalidMessageType`. -/
inductive MessageProcessResult where
  | packet (packet : Packet)
  | heartbeat
  | peerClosed
  | invalidMessageType
  deriving DecidableEq, Repr

/-- `process_websocket_message`; `websocket.rs:466–540`. -/
def processWebsocketMessage (message : Message) (strict : Bool) (limits : DecodeLimits) :
    Except Stop MessageProcessResult :=
  match message with
  | .binary data =>
    if data.length < 16 then
      if strict then .ok .invalidMessageType else .ok (.packet (Packet.oneWay 0 data))
    else
      match Packet.decodeExactFrom data limits with
      | .ok packet => .ok (.packet packet)
      | .error .panic => .error .panicked
      | .error (.packet _) =>
        if strict then .ok .invalidMessageType else .ok (.packet (Packet.oneWay 0 data))
  | .text data => if strict then .ok .invalidMessageType else .ok (.packet (Packet.oneWay 0 data))
  | .close => .ok .peerClosed
  | .ping | .pong => .ok .heartbeat
  | .frame => .ok .invalidMessageType

/-- The read loop on what the library yields, in front of its end if it has one;
`websocket.rs:352–391`. -/
def readLoop (strict : Bool) (limits : DecodeLimits) (ended : Bool) :
    List (Except TungsteniteError Message) → List Packet × LoopEnd
  | [] => ([], if ended then .stopped (.closed .normal) else .reading [])
  | .error .connectionClosed :: _ => ([], .stopped (.closed .normal))
  | .error (.other debug) :: _ => ([], .stopped (.closed (.error debug)))
  | .ok message :: messages =>
    match processWebsocketMessage message strict limits with
    | .error stop => ([], .stopped stop)
    | .ok (.packet packet) =>
      let rest := readLoop strict limits ended messages
      (packet :: rest.1, rest.2)
    | .ok .heartbeat => readLoop strict limits ended messages
    | .ok .peerClosed => ([], .stopped (.closed .normal))
    | .ok .invalidMessageType => ([], .stopped (.closed (.error "InvalidMessageType")))

end MsgTrans.Adapters.WebSocket
