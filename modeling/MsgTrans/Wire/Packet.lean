import MsgTrans.Base.BigEndian

/-!
# Packets, the fixed header and the frame codec

Model of `crates/msgtrans/src/packet.rs:5–298,478–698`. Byte buffers (`Bytes`, `&[u8]`) are
byte lists. A Rust slice or index out of range panics, so the readers run in `Except Fault`,
where `Fault.panic` is that outcome and `Fault.packet` an ordinary `PacketError`.
Lengths are computed at their Rust widths: the declared length in `u64`, the frame length
after the cast to the `usize` of the target.
-/

namespace MsgTrans.Wire

open MsgTrans.Base

/-- Byte buffers; `bytes::Bytes` and `&[u8]` are both read as byte lists. -/
abbrev Bytes := List UInt8

/-- Packet types; `packet.rs:8–15`. -/
inductive PacketType where
  | oneWay
  | request
  | response
  deriving DecidableEq, Repr

/-- Compression types; `packet.rs:45–51`. -/
inductive CompressionType where
  | none
  | zstd
  | zlib
  deriving DecidableEq, Repr

/-- The codec's error values; `packet.rs:849–872`. -/
inductive PacketError where
  | invalidHeader (message : String)
  | invalidPacket (message : String)
  | unsupportedVersion (version : UInt8)
  | frameTooLarge (declared limit : Nat)
  | compressionError (message : String)
  | unsupportedCompression (message : String)
  | serializationError (message : String)
  deriving DecidableEq, Repr

/-- Outcomes of a decoder other than a value: an error it returns, or a panic. -/
inductive Fault where
  | packet (error : PacketError)
  | panic
  deriving DecidableEq, Repr

namespace PacketType

/-- Wire byte of a packet type; `packet.rs:39–43`. -/
def toU8 : PacketType → UInt8
  | oneWay => 0
  | request => 1
  | response => 2

/-- Strict wire decoding of the packet type; `packet.rs:22–37`. -/
def tryFrom (value : UInt8) : Except PacketError PacketType :=
  if value = 0 then .ok oneWay
  else if value = 1 then .ok request
  else if value = 2 then .ok response
  else .error (.invalidHeader ("invalid packet_type: " ++ toString value))

end PacketType

namespace CompressionType

/-- Wire byte of a compression type; `packet.rs:69–73`. -/
def toU8 : CompressionType → UInt8
  | none => 0
  | zstd => 1
  | zlib => 2

/-- Strict wire decoding of the compression id; `packet.rs:53–67`. -/
def tryFrom (value : UInt8) : Except PacketError CompressionType :=
  if value = 0 then .ok none
  else if value = 1 then .ok zstd
  else if value = 2 then .ok zlib
  else .error (.invalidHeader ("invalid compression: " ++ toString value))

end CompressionType

/-- Decode limits; `packet.rs:116–127`. The three caps are `usize` values of a target whose
pointer width is `usizeBits`, and the record carries that they are. -/
structure DecodeLimits where
  usizeBits : Nat
  maxFrameSize : Nat
  maxPayloadSize : Nat
  maxExtHeaderSize : Nat
  maxFrameSize_lt : maxFrameSize < 2 ^ usizeBits
  maxPayloadSize_lt : maxPayloadSize < 2 ^ usizeBits
  maxExtHeaderSize_lt : maxExtHeaderSize < 2 ^ usizeBits

/-- Size of the fixed header; `packet.rs:135`. -/
def fixedHeaderSize : Nat := 16

/-- The default caps on a 64-bit target; `packet.rs:130,137–145`. -/
def DecodeLimits.default : DecodeLimits where
  usizeBits := 64
  maxFrameSize := 16 * 1024 * 1024
  maxPayloadSize := 16 * 1024 * 1024
  maxExtHeaderSize := 65535
  maxFrameSize_lt := by decide
  maxPayloadSize_lt := by decide
  maxExtHeaderSize_lt := by decide

/-- Header metadata, without the two derived length fields; `packet.rs:229–236`.
`reserved` is the raw value of `ReservedFlags`. -/
structure FixedHeader where
  version : UInt8
  compression : CompressionType
  packetType : PacketType
  bizType : UInt8
  messageId : UInt32
  reserved : UInt16
  deriving DecidableEq, Repr

/-- A packet; `packet.rs:303–314`. -/
structure Packet where
  header : FixedHeader
  extHeader : Bytes
  payload : Bytes
  deriving DecidableEq, Repr

/-- Layout of one validated frame; `packet.rs:317–323`. -/
structure FrameLayout where
  header : FixedHeader
  extHeaderLen : UInt16
  payloadLen : UInt32
  extEnd : Nat
  total : Nat
  deriving DecidableEq, Repr

/-- `to_be_bytes` of a `u16`. -/
def u16ToBeBytes (x : UInt16) : Bytes := beBytes 2 x.toNat

/-- `to_be_bytes` of a `u32`. -/
def u32ToBeBytes (x : UInt32) : Bytes := beBytes 4 x.toNat

/-- `from_be_bytes` of a `u16`. -/
def u16FromBeBytes (bs : Bytes) : UInt16 := UInt16.ofNat (beNat bs)

/-- `from_be_bytes` of a `u32`. -/
def u32FromBeBytes (bs : Bytes) : UInt32 := UInt32.ofNat (beNat bs)

/-- The slice `bytes[lo..hi]`, which panics unless `lo ≤ hi` and `hi` is within the buffer. -/
def slice (bytes : Bytes) (lo hi : Nat) : Except Fault Bytes :=
  if lo ≤ hi ∧ hi ≤ bytes.length then .ok ((bytes.drop lo).take (hi - lo)) else .error .panic

/-- Lift a `PacketError` result into the decoder's outcomes (the `?` operator). -/
def liftError {α : Type} : Except PacketError α → Except Fault α
  | .ok a => .ok a
  | .error e => .error (.packet e)

namespace FixedHeader

/-- A fresh header; `packet.rs:239–248`. -/
def new (packetType : PacketType) (messageId : UInt32) : FixedHeader where
  version := 1
  compression := .none
  packetType := packetType
  bizType := 0
  messageId := messageId
  reserved := 0

/-- Serialize to the sixteen wire bytes; `packet.rs:252–263`. -/
def toBytes (h : FixedHeader) (extHeaderLen : UInt16) (payloadLen : UInt32) : Bytes :=
  [h.version, h.compression.toU8, h.packetType.toU8, h.bizType] ++
    u32ToBeBytes h.messageId ++ u16ToBeBytes extHeaderLen ++ u32ToBeBytes payloadLen ++
    u16ToBeBytes h.reserved

/-- Parse the header and the two declared lengths; `packet.rs:267–298`. -/
def fromBytes (bytes : Bytes) : Except PacketError (FixedHeader × UInt16 × UInt32) := do
  if h : bytes.length < 16 then
    .error (.invalidHeader "Header too short")
  else
    let version := bytes[0]
    if version ≠ 1 then
      .error (.unsupportedVersion version)
    else
      let compression ← CompressionType.tryFrom bytes[1]
      let packetType ← PacketType.tryFrom bytes[2]
      let bizType := bytes[3]
      let messageId := u32FromBeBytes [bytes[4], bytes[5], bytes[6], bytes[7]]
      let extHeaderLen := u16FromBeBytes [bytes[8], bytes[9]]
      let payloadLen := u32FromBeBytes [bytes[10], bytes[11], bytes[12], bytes[13]]
      let reserved := u16FromBeBytes [bytes[14], bytes[15]]
      .ok ({ version, compression, packetType, bizType, messageId, reserved },
        extHeaderLen, payloadLen)

end FixedHeader

namespace Packet

/-- An empty packet; `packet.rs:327–333`. -/
def new (packetType : PacketType) (messageId : UInt32) : Packet where
  header := FixedHeader.new packetType messageId
  extHeader := []
  payload := []

/-- A one-way message; `packet.rs:336–340`. -/
def oneWay (messageId : UInt32) (payload : Bytes) : Packet :=
  { Packet.new .oneWay messageId with payload := payload }

/-- A request; `packet.rs:343–347`. -/
def request (messageId : UInt32) (payload : Bytes) : Packet :=
  { Packet.new .request messageId with payload := payload }

/-- A response; `packet.rs:350–354`. -/
def response (messageId : UInt32) (payload : Bytes) : Packet :=
  { Packet.new .response messageId with payload := payload }

/-- The fallible encoder; `packet.rs:486–510`. -/
def tryEncode (p : Packet) : Except PacketError Bytes :=
  if p.extHeader.length > 65535 then
    .error (.frameTooLarge p.extHeader.length 65535)
  else if p.payload.length > 4294967295 then
    .error (.frameTooLarge p.payload.length 4294967295)
  else
    .ok (p.header.toBytes (UInt16.ofNat p.extHeader.length) (UInt32.ofNat p.payload.length) ++
      p.extHeader ++ p.payload)

/-- The declared frame length, summed in `u64`; `packet.rs:663`. -/
def declaredLen (extHeaderLen : UInt16) (payloadLen : UInt32) : Nat :=
  (16 + extHeaderLen.toNat + payloadLen.toNat) % 2 ^ 64

/-- Parse and limit-check the header, then compare with the buffered length;
`packet.rs:647–698`. `total` is the cast of the declared length to `usize`. -/
def frameLayout (bytes : Bytes) (limits : DecodeLimits) :
    Except Fault (Option FrameLayout) := do
  if bytes.length < 16 then
    return none
  else
    let (header, extHeaderLen, payloadLen) ←
      liftError (FixedHeader.fromBytes (← slice bytes 0 16))
    let declared := declaredLen extHeaderLen payloadLen
    if payloadLen.toNat > limits.maxPayloadSize then
      .error (.packet (.frameTooLarge payloadLen.toNat limits.maxPayloadSize))
    else if extHeaderLen.toNat > limits.maxExtHeaderSize then
      .error (.packet (.frameTooLarge extHeaderLen.toNat limits.maxExtHeaderSize))
    else if declared > limits.maxFrameSize then
      .error (.packet (.frameTooLarge declared limits.maxFrameSize))
    else
      let total := declared % 2 ^ limits.usizeBits
      let extEnd := 16 + extHeaderLen.toNat
      if bytes.length < total then
        return none
      else
        return some { header, extHeaderLen, payloadLen, extEnd, total }

/-- Decode one packet from the front of a borrowed buffer, copying the body out;
`packet.rs:550–577`. -/
def decodeOneWith (bytes : Bytes) (limits : DecodeLimits) :
    Except Fault (Option (Packet × Nat)) := do
  match ← frameLayout bytes limits with
  | none => return none
  | some layout =>
    let extHeader ←
      (if layout.extHeaderLen.toNat > 0 then slice bytes 16 layout.extEnd else .ok [])
    let payload ←
      (if layout.payloadLen.toNat > 0 then slice bytes layout.extEnd layout.total else .ok [])
    return some ({ header := layout.header, extHeader, payload }, layout.total)

/-- Decode one packet from the front of an owned buffer by `Bytes::slice`;
`packet.rs:586–611`. -/
def decodeOneFrom (buf : Bytes) (limits : DecodeLimits) :
    Except Fault (Option (Packet × Nat)) := do
  match ← frameLayout buf limits with
  | none => return none
  | some layout =>
    let extHeader ←
      (if layout.extHeaderLen.toNat > 0 then slice buf 16 layout.extEnd else .ok [])
    let payload ←
      (if layout.payloadLen.toNat > 0 then slice buf layout.extEnd layout.total else .ok [])
    return some ({ header := layout.header, extHeader, payload }, layout.total)

/-- Total length of the frame at the front, when it is complete; `packet.rs:617–619`. -/
def frameLen (bytes : Bytes) (limits : DecodeLimits) : Except Fault (Option Nat) := do
  return (← frameLayout bytes limits).map FrameLayout.total

/-- The tail both exact decoders share: the whole buffer must be one frame. -/
def exactly (len : Nat) (result : Except Fault (Option (Packet × Nat))) :
    Except Fault Packet := do
  match ← result with
  | some (packet, consumed) =>
    if consumed ≠ len then
      .error (.packet (.invalidPacket ("trailing bytes after packet: consumed " ++
        toString consumed ++ " of " ++ toString len)))
    else
      return packet
  | none => .error (.packet (.invalidPacket ("packet incomplete: " ++ toString len ++ " bytes")))

/-- Decode a borrowed buffer holding exactly one frame; `packet.rs:519–536`. -/
def decodeExactWith (bytes : Bytes) (limits : DecodeLimits) : Except Fault Packet :=
  exactly bytes.length (decodeOneWith bytes limits)

/-- Decode an owned buffer holding exactly one frame; `packet.rs:625–641`. -/
def decodeExactFrom (frame : Bytes) (limits : DecodeLimits) : Except Fault Packet :=
  exactly frame.length (decodeOneFrom frame limits)

end Packet

end MsgTrans.Wire
