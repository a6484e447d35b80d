import MsgTrans.Transport.Limits
import MsgTrans.Wire.Packet

/-!
# What the protocol adapters share

Close reasons and transport errors with their texts (`crates/msgtrans/src/error.rs:4–48,129–160`,
`packet.rs:849–872`), the items of an outbound queue (`adapters/outbound.rs:33–36`), what a byte
budget admits (`adapters/budget.rs:35–45`), and how a read loop can stand.
-/

namespace MsgTrans.Wire

/-- The text of a codec error; `packet.rs:850–872`. -/
def PacketError.display : PacketError → String
  | .invalidHeader message => "Invalid header: " ++ message
  | .invalidPacket message => "Invalid packet: " ++ message
  | .unsupportedVersion version => "Unsupported version: " ++ toString version
  | .frameTooLarge declared limit =>
    "Frame too large: declared " ++ toString declared ++ " bytes exceeds limit " ++ toString limit
  | .compressionError message => "Compression error: " ++ message
  | .unsupportedCompression message => "Unsupported compression: " ++ message
  | .serializationError message => "Serialization error: " ++ message

/-- The debug text of a codec error. -/
def PacketError.debug : PacketError → String
  | .invalidHeader message => "InvalidHeader(" ++ message.quote ++ ")"
  | .invalidPacket message => "InvalidPacket(" ++ message.quote ++ ")"
  | .unsupportedVersion version => "UnsupportedVersion(" ++ toString version ++ ")"
  | .frameTooLarge declared limit =>
    "FrameTooLarge \x7b declared: " ++ toString declared ++ ", limit: " ++ toString limit ++ " \x7d"
  | .compressionError message => "CompressionError(" ++ message.quote ++ ")"
  | .unsupportedCompression message => "UnsupportedCompression(" ++ message.quote ++ ")"
  | .serializationError message => "SerializationError(" ++ message.quote ++ ")"

end MsgTrans.Wire

namespace MsgTrans.Adapters

open MsgTrans.Wire MsgTrans.Transport

/-- `CloseReason`; `error.rs:7–16`. -/
inductive CloseReason where
  | normal
  | timeout
  | error (message : String)
  | forced
  deriving DecidableEq, Repr

/-- The variants of `TransportError` that the adapters build; `error.rs:21–48`. -/
inductive TransportError where
  | connection (reason : String) (retryable : Bool)
  | protocol (protocol reason : String)
  | configuration (field reason : String)
  | resource (resource : String) (current limit : Nat)
  deriving DecidableEq, Repr

/-- The text of an error; `error.rs:22–38`. -/
def TransportError.display : TransportError → String
  | .connection reason retryable =>
    "Connection error: " ++ reason ++ " (retryable: " ++ toString retryable ++ ")"
  | .protocol name reason => "Protocol error (" ++ name ++ "): " ++ reason
  | .configuration field reason => "Configuration error in field '" ++ field ++ "': " ++ reason
  | .resource name current limit =>
    "Resource '" ++ name ++ "' exceeded: current " ++ toString current ++ ", limit " ++
      toString limit

/-- One item of an outbound queue: the packet and, on the confirmed tier, which completion it
carries; `outbound.rs:33–36`. -/
structure Outbound where
  packet : Packet
  completion : Option Nat
  deriving DecidableEq, Repr

/-- The item's packet is one that `try_encode` accepts. -/
def Outbound.encodable (item : Outbound) : Bool := item.packet.tryEncode.toBool

/-- A completion with the result it was resolved with; `connection.rs:78–85`. -/
abbrev Resolution := Nat × Except TransportError Unit

/-- Resolve the completion of an item, if it carries one. -/
def Outbound.complete (item : Outbound) (result : Except TransportError Unit) : List Resolution :=
  item.completion.toList.map fun completion ↦ (completion, result)

/-- The bytes a budget is charged for a packet, added with saturation; `budget.rs:36–40`. -/
def chargeSize (t : Target) (p : Packet) : Nat :=
  max (min (p.payload.length + p.extHeader.length) (2 ^ t.usizeBits - 1)) 1

/-- A budget of this capacity takes the packet, at once or after a wait; `budget.rs:41–45`. -/
def Admitted (t : Target) (capacity : Nat) (p : Packet) : Prop := chargeSize t p ≤ capacity

/-- How a task stops: it closes the event pipe with a reason, or it panics. -/
inductive Stop where
  | closed (reason : CloseReason)
  | panicked
  deriving DecidableEq, Repr

/-- The task ends the connection with an error. -/
def Stop.Fails : Stop → Prop
  | .closed (.error _) => True
  | _ => False

/-- How a read loop stands: waiting with these bytes unread, or stopped. -/
inductive LoopEnd where
  | reading (rest : Bytes)
  | stopped (stop : Stop)
  deriving DecidableEq, Repr

/-- The loop has ended the connection with an error. -/
def LoopEnd.Fails : LoopEnd → Prop
  | .stopped stop => stop.Fails
  | .reading _ => False

end MsgTrans.Adapters
