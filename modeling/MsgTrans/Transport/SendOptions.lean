import MsgTrans.Adapters.Acceptance
import MsgTrans.Adapters.Events

/-!
# Send options and the compression round trip

Model of `SendOptions` (`crates/msgtrans/src/transport/mod.rs:73–82,174–195`) and what becomes of a
compressed packet between `apply_over` on one side and `normalize_inbound` on the other. The
decoder applies the payload cap to the bytes on the wire, `normalize_inbound` to the expanded
ones, and nothing checks the length between compression and encoding.
-/

namespace MsgTrans.Transport

open MsgTrans.Wire MsgTrans.Adapters

/-- `SendOptions`; `mod.rs:73–82`. -/
structure SendOptions where
  bizType : Option UInt8
  extHeader : Option Bytes
  compression : Option CompressionType
  deriving DecidableEq, Repr

/-- The debug text of a compression type. -/
def debugCompression : CompressionType → String
  | .none => "None"
  | .zstd => "Zstd"
  | .zlib => "Zlib"

namespace SendOptions

/-- The packet with the business type and the extension header of the options;
`mod.rs:179–182`. -/
def stamp (options : SendOptions) (packet : Packet) (defaultBiz : UInt8) : Packet :=
  { packet with
    header := { packet.header with bizType := options.bizType.getD defaultBiz }
    extHeader := options.extHeader.getD packet.extHeader }

/-- `apply_over`; `mod.rs:174–195`. -/
def applyOver (codecs : Codecs) (options : SendOptions) (packet : Packet) (defaultBiz : UInt8) :
    Except TransportError Packet :=
  match options.compression with
  | none | some .none => .ok (options.stamp packet defaultBiz)
  | some compression =>
    match ((options.stamp packet defaultBiz).setCompression compression).compressPayload codecs with
    | .ok packet => .ok packet
    | .error e => .error (.configuration "compression"
      ("failed to compress payload with " ++ debugCompression compression ++ ": " ++ e.display))

/-- The compression that is asked for, if any. -/
def chosen (options : SendOptions) : Option CompressionType :=
  options.compression.filter (· ≠ .none)

end SendOptions

/-- The packet as it travels with a compressed payload. -/
def compressedAs (p : Packet) (compression : CompressionType) (compressed : Bytes) : Packet :=
  { p.setCompression compression with payload := compressed }

/-- If the sender stamps and encodes the packet, the receiver decodes and normalises it to the
stamped packet with the original payload and no compression. -/
def RoundTrips (codecs : Codecs) (limits : DecodeLimits) (options : SendOptions) (packet : Packet)
    (defaultBiz : UInt8) : Prop :=
  ∀ sent bytes, options.applyOver codecs packet defaultBiz = .ok sent →
    sent.tryEncode = .ok bytes →
      ∃ received, Packet.decodeExactFrom bytes limits = .ok received ∧
        Events.normalizeInbound codecs received limits.maxPayloadSize =
          .ok (options.stamp packet defaultBiz)

/-- No compression is asked for or it fails, or the compressed payload is within the payload cap,
or it is too long to be encoded at all. -/
def StaysWithin (codecs : Codecs) (limits : DecodeLimits) (options : SendOptions)
    (packet : Packet) : Prop :=
  ∀ compression ∈ options.chosen, ∀ compressed,
    Packet.compressData codecs packet.payload compression = .ok compressed →
      compressed.length ≤ limits.maxPayloadSize ∨ 4294967295 < compressed.length

section RoundTrip

variable {codecs : Codecs} {limits : DecodeLimits} {options : SendOptions} {packet : Packet}
  {defaultBiz : UInt8}

/-- Without compression the packet is sent as it was stamped. -/
theorem applyOver_of_chosen_none (h : options.chosen = none) :
    options.applyOver codecs packet defaultBiz = .ok (options.stamp packet defaultBiz) := by
  unfold SendOptions.chosen at h
  unfold SendOptions.applyOver
  split
  · rfl
  · rfl
  next compression hne hc => simp_all

/-- With compression it is sent with the compressed payload and the flag. -/
theorem applyOver_of_chosen (codecs : Codecs) (packet : Packet) (defaultBiz : UInt8)
    {compression : CompressionType} (h : options.chosen = some compression) :
    compression ≠ .none ∧ ∀ sent, options.applyOver codecs packet defaultBiz = .ok sent ↔
      ∃ compressed, Packet.compressData codecs packet.payload compression = .ok compressed ∧
        sent = compressedAs (options.stamp packet defaultBiz) compression compressed := by
  obtain ⟨hc, hne⟩ := Option.filter_eq_some_iff.mp h
  have hne : compression ≠ .none := by simpa using hne
  refine ⟨hne, fun sent ↦ ?_⟩
  have happly : options.applyOver codecs packet defaultBiz =
      match ((options.stamp packet defaultBiz).setCompression compression).compressPayload
        codecs with
      | .ok packet => .ok packet
      | .error e => .error (.configuration "compression"
        ("failed to compress payload with " ++ debugCompression compression ++ ": " ++
          e.display)) := by
    unfold SendOptions.applyOver
    rw [hc]
    cases compression with
    | none => exact absurd rfl hne
    | zstd => rfl
    | zlib => rfl
  have hpayload : ((options.stamp packet defaultBiz).setCompression compression).compressPayload
      codecs = (Packet.compressData codecs packet.payload compression).map
        (compressedAs (options.stamp packet defaultBiz) compression) := by
    rw [Packet.compressPayload]
    exact if_neg hne
  rw [happly, hpayload]
  cases hd : Packet.compressData codecs packet.payload compression with
  | error e => simp [Except.map]
  | ok compressed => simp [Except.map, eq_comm]

/-- Options leave the id and the type of a packet alone. -/
theorem applyOver_header {sent : Packet} (h : options.applyOver codecs packet defaultBiz = .ok sent) :
    sent.header.messageId = packet.header.messageId ∧
      sent.header.packetType = packet.header.packetType := by
  cases hc : options.chosen with
  | none =>
    rw [applyOver_of_chosen_none hc] at h
    rw [← Except.ok.inj h]
    exact ⟨rfl, rfl⟩
  | some compression =>
    obtain ⟨compressed, -, rfl⟩ := ((applyOver_of_chosen codecs packet defaultBiz hc).2 sent).mp h
    exact ⟨rfl, rfl⟩

/-- A received packet whose payload decompresses within the cap is normalised. -/
theorem normalizeInbound_compressed {compression : CompressionType} (hne : compression ≠ .none)
    {p : Packet} {compressed : Bytes} (hnone : p.header.compression = .none)
    (hd : Packet.decompressDataWithLimit codecs compressed limits.maxPayloadSize compression =
      .ok p.payload) :
    Events.normalizeInbound codecs (compressedAs p compression compressed)
      limits.maxPayloadSize = .ok p := by
  have hback : (p.setCompression compression).setCompression .none = p := by
    cases p with
    | mk header extHeader payload =>
      cases header
      cases hnone
      rfl
  have hdecompress : Packet.decompressPayloadWithLimit codecs limits.maxPayloadSize
      (compressedAs p compression compressed) = .ok (p.setCompression compression) := by
    rw [Packet.decompressPayloadWithLimit]
    refine (if_neg hne).trans ?_
    simp only [compressedAs, Packet.setCompression, hd, Except.map]
  rw [Events.normalizeInbound]
  refine (if_neg hne).trans ?_
  rw [hdecompress]
  exact congrArg Except.ok hback

/-- A payload within the cap is normalised as it is. -/
theorem normalizeInbound_plain {p : Packet} (hnone : p.header.compression = .none)
    (hle : p.payload.length ≤ limits.maxPayloadSize) :
    Events.normalizeInbound codecs p limits.maxPayloadSize = .ok p := by
  rw [Events.normalizeInbound, if_pos hnone, if_neg (by omega)]

end RoundTrip

/-- The compression round trip holds exactly when compression does not take the payload over the
cap that its plain form respects. -/
theorem compression_round_trip_iff (codecs : Codecs) (hlossless : codecs.Lossless)
    (limits : DecodeLimits) (hlimits : Configured limits) (options : SendOptions) (packet : Packet)
    (defaultBiz : UInt8) (hversion : packet.header.version = 1)
    (hplain : packet.header.compression = .none)
    (hpayload : packet.payload.length ≤ limits.maxPayloadSize)
    (hext : (options.stamp packet defaultBiz).extHeader.length ≤ limits.maxExtHeaderSize) :
    RoundTrips codecs limits options packet defaultBiz ↔
      StaysWithin codecs limits options packet := by
  have hderived := hlimits.derived
  have hp := hderived.payload
  have he := hderived.ext
  simp only [defaultMaxPayloadSize, defaultMaxExtHeaderSize] at hp he
  cases hchosen : options.chosen with
  | none =>
    have hstays : StaysWithin codecs limits options packet := by
      intro compression hmem
      rw [hchosen] at hmem
      cases hmem
    refine iff_of_true (fun sent bytes hsent hencode ↦ ?_) hstays
    rw [applyOver_of_chosen_none hchosen] at hsent
    cases hsent
    obtain ⟨-, -, rfl⟩ := (Packet.tryEncode_ok_iff _ _).mp hencode
    refine ⟨_, Packet.decodeExactFrom_frame ?_, normalizeInbound_plain hplain hpayload⟩
    exact fits_of_within hderived hversion (by omega) (by simp only [SendOptions.stamp]; omega)
      ⟨hpayload, hext⟩
  | some compression =>
    obtain ⟨hne, happly⟩ := applyOver_of_chosen codecs packet defaultBiz hchosen
    constructor
    · intro htrips compression' hmem compressed hcompress
      rw [hchosen] at hmem
      cases hmem
      by_contra hover
      have hlong : limits.maxPayloadSize < compressed.length := by omega
      have hshort : compressed.length ≤ 4294967295 := by omega
      have hsent := (happly _).mpr ⟨compressed, hcompress, rfl⟩
      have hencode := (Packet.tryEncode_ok_iff
        (compressedAs (options.stamp packet defaultBiz) compression compressed) _).mpr
          ⟨Nat.le_trans hext he, hshort, rfl⟩
      obtain ⟨received, hdecode, -⟩ := htrips _ _ hsent hencode
      have hnot : ¬ Within limits
          (compressedAs (options.stamp packet defaultBiz) compression compressed) :=
        fun hwithin ↦ absurd hwithin.1 (Nat.not_le.mpr hlong)
      obtain ⟨e, herror⟩ := frame_refused
        (p := compressedAs (options.stamp packet defaultBiz) compression compressed)
        hversion (Nat.le_trans hext he) hshort hnot
      rw [Packet.decodeExactFrom_of_error herror] at hdecode
      cases hdecode
    · intro hstays sent bytes hsent hencode
      obtain ⟨compressed, hcompress, rfl⟩ := (happly sent).mp hsent
      obtain ⟨hext', hshort, rfl⟩ := (Packet.tryEncode_ok_iff _ _).mp hencode
      have hwithin := (hstays compression (by rw [hchosen]; rfl) compressed hcompress).resolve_right
        (Nat.not_lt.mpr hshort)
      refine ⟨_, Packet.decodeExactFrom_frame ?_, normalizeInbound_compressed hne hplain ?_⟩
      · exact fits_of_within hderived hversion hext' hshort ⟨hwithin, hext⟩
      · exact decompressDataWithLimit_compressData hlossless hpayload (by omega) hcompress

/-- A lossless codec that puts one byte in front of its input, as a stored block does. -/
def storing : Codec where
  compress := fun data ↦ .ok (0 :: data)
  decompress := fun data limit ↦
    if data.tail.length ≤ limit then .ok data.tail else .error "output too small"

theorem lossless_storing : storing.Lossless := by
  intro data compressed limit hcompress hle
  cases hcompress
  exact if_pos hle

/-- Sixty-four bytes that do not compress, under a cap of sixty-four. -/
theorem compression_round_trip_fails :
    ¬ ∀ (codecs : Codecs), codecs.Lossless → ∀ limits, Configured limits →
      ∀ (options : SendOptions) (packet : Packet) (defaultBiz : UInt8),
        packet.header.version = 1 → packet.header.compression = .none →
        packet.payload.length ≤ limits.maxPayloadSize →
        (options.stamp packet defaultBiz).extHeader.length ≤ limits.maxExtHeaderSize →
          RoundTrips codecs limits options packet defaultBiz := by
  intro h
  have htrips := h ⟨none, some storing⟩ ⟨by simp, by simpa using lossless_storing⟩
    (ClientLimits.build ⟨64, by decide⟩ [.maxPayloadSize 64]).connection.decode
    ⟨_, .inr ⟨_, rfl⟩⟩ ⟨none, none, some .zstd⟩ (Packet.oneWay 7 (List.replicate 64 255)) 0
    rfl rfl (by decide) (by decide)
  obtain ⟨received, hdecode, -⟩ := htrips
    (compressedAs (Packet.oneWay 7 (List.replicate 64 255)) .zstd (0 :: List.replicate 64 255))
    (compressedAs (Packet.oneWay 7 (List.replicate 64 255)) .zstd
      (0 :: List.replicate 64 255)).frame rfl rfl
  have hrefused : (Packet.decodeExactFrom
      (compressedAs (Packet.oneWay 7 (List.replicate 64 255)) .zstd
        (0 :: List.replicate 64 255)).frame
      (ClientLimits.build ⟨64, by decide⟩ [.maxPayloadSize 64]).connection.decode).toBool =
        false := by
    decide +kernel
  rw [hdecode] at hrefused
  cases hrefused

theorem compression_round_trip_of_short :
    RoundTrips ⟨none, some storing⟩
      (ClientLimits.build ⟨64, by decide⟩ [.maxPayloadSize 64]).connection.decode
      ⟨some 3, none, some .zstd⟩ (Packet.oneWay 7 [1, 2]) 0 := by
  apply (compression_round_trip_iff ⟨none, some storing⟩ ⟨by simp, by simpa using lossless_storing⟩
    (ClientLimits.build ⟨64, by decide⟩ [.maxPayloadSize 64]).connection.decode
    ⟨_, .inr ⟨_, rfl⟩⟩ ⟨some 3, none, some .zstd⟩ (Packet.oneWay 7 [1, 2]) 0
    rfl rfl (by decide) (by decide)).mpr
  intro compression hmem compressed hcompress
  cases hmem
  cases hcompress
  exact .inl (by decide)

end MsgTrans.Transport
