import MsgTrans.Wire.Packet

/-!
# Payload compression

Model of `crates/msgtrans/src/packet.rs:439–469,757–845`. The two codecs are libraries outside
the repository and features of the build; they are parameters, absent when the feature is off.
The zlib path bounds its own read and checks the length afterwards, the zstd path hands the limit
to the library.
-/

namespace MsgTrans.Wire

/-- A compression library: compression, and decompression that yields at most so many bytes. -/
structure Codec where
  compress : Bytes → Except String Bytes
  decompress : Bytes → Nat → Except String Bytes

/-- What a lossless library promises: a bound of at least the original length gives the original
back. -/
def Codec.Lossless (codec : Codec) : Prop :=
  ∀ data compressed limit, codec.compress data = .ok compressed → data.length ≤ limit →
    codec.decompress compressed limit = .ok data

/-- The codecs the build includes. -/
structure Codecs where
  zlib : Option Codec
  zstd : Option Codec

/-- Every codec of the build is lossless. -/
structure Codecs.Lossless (codecs : Codecs) : Prop where
  zlib : ∀ codec ∈ codecs.zlib, codec.Lossless
  zstd : ∀ codec ∈ codecs.zstd, codec.Lossless

private def codecError {α : Type} : Except String α → Except PacketError α
  | .ok v => .ok v
  | .error e => .error (.compressionError e)

namespace Packet

/-- `compress_data`; `packet.rs:757–793`. -/
def compressData (codecs : Codecs) (data : Bytes) : CompressionType → Except PacketError Bytes
  | .none => .ok data
  | .zlib =>
    match codecs.zlib with
    | some codec => codecError (codec.compress data)
    | none => .error (.unsupportedCompression "flate2 feature not enabled")
  | .zstd =>
    match codecs.zstd with
    | some codec => codecError (codec.compress data)
    | none => .error (.unsupportedCompression "zstd feature not enabled")

/-- `decompress_data_with_limit`; `packet.rs:801–845`. The zlib bound is a saturating `u64`
sum. -/
def decompressDataWithLimit (codecs : Codecs) (data : Bytes) (maxSize : Nat) :
    CompressionType → Except PacketError Bytes
  | .none => .ok data
  | .zlib =>
    match codecs.zlib with
    | some codec =>
      match codec.decompress data (min (maxSize + 1) (2 ^ 64 - 1)) with
      | .error e => .error (.compressionError e)
      | .ok result =>
        if result.length > maxSize then
          .error (.compressionError
            ("decompressed payload exceeds " ++ toString maxSize ++ " bytes"))
        else .ok result
    | none => .error (.unsupportedCompression "flate2 feature not enabled")
  | .zstd =>
    match codecs.zstd with
    | some codec => codecError (codec.decompress data maxSize)
    | none => .error (.unsupportedCompression "zstd feature not enabled")

/-- `set_compression`; `packet.rs:385–387`. -/
def setCompression (p : Packet) (compression : CompressionType) : Packet :=
  { p with header := { p.header with compression := compression } }

/-- `compress_payload`; `packet.rs:440–448`. -/
def compressPayload (codecs : Codecs) (p : Packet) : Except PacketError Packet :=
  if p.header.compression = .none then .ok p
  else (compressData codecs p.payload p.header.compression).map fun data ↦
    { p with payload := data }

/-- `decompress_payload_with_limit`; `packet.rs:455–469`. -/
def decompressPayloadWithLimit (codecs : Codecs) (maxSize : Nat) (p : Packet) :
    Except PacketError Packet :=
  if p.header.compression = .none then .ok p
  else (decompressDataWithLimit codecs p.payload maxSize p.header.compression).map fun data ↦
    { p with payload := data }

end Packet

section Lossless

variable {codecs : Codecs} {data compressed : Bytes} {compression : CompressionType}

private theorem codecError_ok_iff {α : Type} {x : Except String α} {v : α} :
    codecError x = .ok v ↔ x = .ok v := by
  cases x <;> simp [codecError]

/-- Decompressing what the same build compressed gives the data back within its own length. -/
theorem decompressDataWithLimit_compressData (h : codecs.Lossless) {maxSize : Nat}
    (hle : data.length ≤ maxSize) (hlt : maxSize < 2 ^ 64 - 1)
    (hc : Packet.compressData codecs data compression = .ok compressed) :
    Packet.decompressDataWithLimit codecs compressed maxSize compression = .ok data := by
  unfold Packet.compressData at hc
  split at hc
  next =>
    cases hc
    rfl
  next =>
    split at hc
    next codec hz =>
      have hdata := h.zlib codec hz data compressed (min (maxSize + 1) (2 ^ 64 - 1))
        (codecError_ok_iff.mp hc) (by omega)
      simp only [Packet.decompressDataWithLimit, hz, hdata]
      exact if_neg (by omega)
    next => cases hc
  next =>
    split at hc
    next codec hz =>
      have hdata := h.zstd codec hz data compressed maxSize (codecError_ok_iff.mp hc) hle
      simp only [Packet.decompressDataWithLimit, hz, hdata]
      rfl
    next => cases hc

end Lossless

end MsgTrans.Wire
