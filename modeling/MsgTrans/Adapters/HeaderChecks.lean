import MsgTrans.Adapters.Tcp
import MsgTrans.Transport.Limits

/-!
# The two header validators

`is_valid_header_at` (`crates/msgtrans/src/adapters/tcp.rs:156–196`) reads the fields of a header off
the raw bytes, where `frame_layout` (`packet.rs:647–698`) parses them. They accept the same headers,
apart from the frame cap and the cast of the payload length to `usize`, and under limits that the
setters give these make no difference.
-/

namespace MsgTrans.Adapters.Tcp

open MsgTrans.Wire MsgTrans.Transport

private theorem small_byte {v : UInt8} (h : ¬v > 2) : v = 0 ∨ v = 1 ∨ v = 2 := by
  have hle : v.toNat ≤ 2 := by
    rw [gt_iff_lt, UInt8.lt_iff_toNat_lt] at h
    exact Nat.le_of_not_lt h
  have hv : v = UInt8.ofNat v.toNat := UInt8.ofNat_toNat.symm
  obtain h0 | h1 | h2 : v.toNat = 0 ∨ v.toNat = 1 ∨ v.toNat = 2 := by omega
  · exact .inl (by rw [hv, h0]; rfl)
  · exact .inr (.inl (by rw [hv, h1]; rfl))
  · exact .inr (.inr (by rw [hv, h2]; rfl))

/-- The raw bound on the compression byte is the decoder's. -/
theorem compression_ok_iff (v : UInt8) : (∃ c, CompressionType.tryFrom v = .ok c) ↔ ¬v > 2 := by
  constructor
  · rintro ⟨c, hc⟩
    rw [(CompressionType.tryFrom_ok_iff v c).mp hc]
    cases c <;> decide
  · intro hv
    obtain rfl | rfl | rfl := small_byte hv
    · exact ⟨.none, rfl⟩
    · exact ⟨.zstd, rfl⟩
    · exact ⟨.zlib, rfl⟩

/-- So is the one on the packet type. -/
theorem packetType_ok_iff (v : UInt8) : (∃ t, PacketType.tryFrom v = .ok t) ↔ ¬v > 2 := by
  constructor
  · rintro ⟨t, ht⟩
    rw [(PacketType.tryFrom_ok_iff v t).mp ht]
    cases t <;> decide
  · intro hv
    obtain rfl | rfl | rfl := small_byte hv
    · exact ⟨.oneWay, rfl⟩
    · exact ⟨.request, rfl⟩
    · exact ⟨.response, rfl⟩

/-- The lengths of a header as the resynchronisation checks them. -/
def Passes (limits : DecodeLimits) (e : UInt16) (p : UInt32) : Prop :=
  e.toNat ≤ limits.maxExtHeaderSize ∧ p.toNat % 2 ^ limits.usizeBits ≤ limits.maxPayloadSize

/-- The sixteen bytes a header takes. -/
theorem exists_sixteen {b : Bytes} (h : 16 ≤ b.length) :
    ∃ v c t z m₀ m₁ m₂ m₃ e₀ e₁ p₀ p₁ p₂ p₃ r₀ r₁ rest, b =
      v :: c :: t :: z :: m₀ :: m₁ :: m₂ :: m₃ :: e₀ :: e₁ :: p₀ :: p₁ :: p₂ :: p₃ :: r₀ :: r₁ ::
        rest := by
  match b, h with
  | v :: c :: t :: z :: m₀ :: m₁ :: m₂ :: m₃ :: e₀ :: e₁ :: p₀ :: p₁ :: p₂ :: p₃ :: r₀ :: r₁ :: rest,
      _ =>
    exact ⟨v, c, t, z, m₀, m₁, m₂, m₃, e₀, e₁, p₀, p₁, p₂, p₃, r₀, r₁, rest, rfl⟩

-- Sixteen bytes as the check takes them apart.
private theorem check_bytes (limits : DecodeLimits)
    (v c t z m₀ m₁ m₂ m₃ e₀ e₁ p₀ p₁ p₂ p₃ r₀ r₁ : UInt8) :
    (∃ h e p, FixedHeader.fromBytes [v, c, t, z, m₀, m₁, m₂, m₃, e₀, e₁, p₀, p₁, p₂, p₃, r₀, r₁] =
        .ok (h, e, p) ∧ Passes limits e p) ↔
      v = 1 ∧ ¬c > 2 ∧ ¬t > 2 ∧
        Passes limits (u16FromBeBytes [e₀, e₁]) (u32FromBeBytes [p₀, p₁, p₂, p₃]) := by
  have hfields := FixedHeader.fromBytes_fields v c t z [m₀, m₁, m₂, m₃] [e₀, e₁]
    [p₀, p₁, p₂, p₃] [r₀, r₁] rfl rfl rfl rfl
  simp only [List.cons_append, List.nil_append] at hfields
  rw [hfields, ← compression_ok_iff, ← packetType_ok_iff]
  by_cases hv : v = 1
  · rw [if_neg (not_not.mpr hv)]
    cases hc : CompressionType.tryFrom c with
    | error err => simp [Except.bind]
    | ok compression =>
      cases ht : PacketType.tryFrom t with
      | error err => simp [Except.bind]
      | ok packetType => simp [Except.bind, hv]
  · simp [hv]

/-- What the check of the resynchronisation accepts: a header whose two lengths pass. -/
theorem isValidHeaderAt_iff (s : ReadBuffer) (o : Nat) : s.isValidHeaderAt o = true ↔
    ∃ h e p, IsHeader (s.buffer.drop o) h e p ∧ Passes s.decode e p := by
  by_cases hlen : s.buffer.length < o + 16
  · rw [ReadBuffer.isValidHeaderAt, if_pos hlen]
    refine ⟨fun hfalse ↦ absurd hfalse Bool.false_ne_true, ?_⟩
    rintro ⟨h, e, p, hh, -⟩
    have hle := hh.length_le
    rw [List.length_drop] at hle
    omega
  · have hbytes : 16 ≤ (s.buffer.drop o).length := by
      rw [List.length_drop]
      omega
    simp only [← fromBytes_take_iff _ hbytes]
    rw [ReadBuffer.isValidHeaderAt, if_neg hlen]
    have htake : ((s.buffer.drop o).take 16).length = 16 := List.length_take_of_le hbytes
    generalize (s.buffer.drop o).take 16 = bytes at htake ⊢
    obtain ⟨v, c, t, z, m₀, m₁, m₂, m₃, e₀, e₁, p₀, p₁, p₂, p₃, r₀, r₁, rest, rfl⟩ :=
      exists_sixteen htake.ge
    obtain rfl : rest = [] := List.length_eq_zero_iff.mp (by simpa using htake)
    rw [check_bytes]
    simp [Passes]

/-- Under limits that setters gave, the check is the codec's. -/
theorem passes_iff {limits : DecodeLimits} (h : Configured limits) (e : UInt16) (p : UInt32) :
    Passes limits e p ↔ limits.Admits e p := by
  have hd := h.derived
  have hp : p.toNat % 2 ^ limits.usizeBits = p.toNat :=
    Nat.mod_eq_of_lt (lt_of_lt_of_le p.toNat_lt (Nat.pow_le_pow_right (by decide) hd.usize))
  rw [Passes, hp, DecodeLimits.Admits, hd.frame]
  omega

/-- `frame_layout` fails on sixteen bytes or more exactly if they are no header it admits. -/
theorem frameLayout_ne_error_iff {b : Bytes} {limits : DecodeLimits} (hlen : 16 ≤ b.length) :
    (∀ err, Packet.frameLayout b limits ≠ .error err) ↔
      ∃ h e p, IsHeader b h e p ∧ limits.Admits e p := by
  constructor
  · intro hok
    by_contra hn
    obtain ⟨err, -, hf⟩ := Packet.frameLayout_of_reject b limits hlen hn
    exact hok _ hf
  · rintro ⟨h, e, p, hh, ha⟩ err hf
    rw [Packet.frameLayout_of_header b limits h e p hh ha] at hf
    cases hf

/-- What the codec refuses of a header are its lengths. -/
theorem headerVerdict_tooLarge {b : Bytes} {limits : DecodeLimits} {hd : FixedHeader} {e : UInt16}
    {p : UInt32} {err : PacketError} (hh : IsHeader b hd e p)
    (h : Packet.headerVerdict (b.take 16) limits = .error err) :
    ∃ declared limit, err = .frameTooLarge declared limit := by
  rw [Packet.headerVerdict, (fromBytes_take_iff b hh.length_le hd e p).mpr hh] at h
  simp only at h
  split at h
  next =>
    cases h
    exact ⟨_, _, rfl⟩
  next =>
    split at h
    next =>
      cases h
      exact ⟨_, _, rfl⟩
    next =>
      split at h
      next =>
        cases h
        exact ⟨_, _, rfl⟩
      next => cases h

/-- Under limits that any sequence of setters gives, the check of the resynchronisation accepts an
offset exactly if sixteen bytes are buffered there and `frame_layout` does not fail on them; so where
a resynchronisation stops at an offset it found, `frame_len` does not fail. -/
theorem header_validators_agree (limits : DecodeLimits) (h : Configured limits) (b : Bytes)
    (any : Bool) :
    (∀ o, ReadBuffer.isValidHeaderAt ⟨b, any, limits⟩ o = true ↔ o + 16 ≤ b.length ∧
      ∀ err, Packet.frameLayout (b.drop o) limits ≠ .error err) ∧
    ∀ o s', ReadBuffer.scan ⟨b, any, limits⟩ = some o →
      ReadBuffer.tryResyncFrame ⟨b, any, limits⟩ = (true, s') →
        s'.buffer = b.drop o ∧ ∀ err, Packet.frameLen s'.buffer limits ≠ .error err := by
  have hagree : ∀ o, ReadBuffer.isValidHeaderAt ⟨b, any, limits⟩ o = true ↔ o + 16 ≤ b.length ∧
      ∀ err, Packet.frameLayout (b.drop o) limits ≠ .error err := by
    intro o
    rw [isValidHeaderAt_iff]
    simp only [passes_iff h]
    constructor
    · rintro ⟨hd, e, p, hh, ha⟩
      have hle := hh.length_le
      refine ⟨?_, (frameLayout_ne_error_iff hle).mpr ⟨hd, e, p, hh, ha⟩⟩
      rw [List.length_drop] at hle
      omega
    · rintro ⟨hlen, hok⟩
      exact (frameLayout_ne_error_iff (by rw [List.length_drop]; omega)).mp hok
  refine ⟨hagree, fun o s' hscan hresync ↦ ?_⟩
  rw [ReadBuffer.tryResyncFrame, hscan] at hresync
  obtain ⟨-, rfl⟩ := Prod.mk.inj hresync
  refine ⟨rfl, fun err hlen ↦ ?_⟩
  have hok := ((hagree o).mp (ReadBuffer.scan_some hscan).2.2.2).2
  cases hlayout : Packet.frameLayout (b.drop o) limits with
  | error f => exact hok f hlayout
  | ok r =>
    rw [Packet.frameLen, hlayout] at hlen
    cases hlen

/-- Limits of a server with a payload cap of its own. -/
theorem header_validators_agree_of_setters :
    ReadBuffer.isValidHeaderAt ⟨[255, 1, 0, 0, 0, 0, 0, 0, 7, 0, 0, 0, 0, 0, 100, 0, 0], true,
        (ServerLimits.build ⟨64, by decide⟩
          [.connection (.maxPayloadSize 100)]).connection.decode⟩ 1 = true ∧
      ∀ err, Packet.frameLayout [1, 0, 0, 0, 0, 0, 0, 7, 0, 0, 0, 0, 0, 100, 0, 0]
        (ServerLimits.build ⟨64, by decide⟩
          [.connection (.maxPayloadSize 100)]).connection.decode ≠ .error err := by
  have hvalid : ReadBuffer.isValidHeaderAt ⟨[255, 1, 0, 0, 0, 0, 0, 0, 7, 0, 0, 0, 0, 0, 100, 0, 0],
      true, (ServerLimits.build ⟨64, by decide⟩
        [.connection (.maxPayloadSize 100)]).connection.decode⟩ 1 = true := by decide
  exact ⟨hvalid, (((header_validators_agree _ ⟨_, .inl ⟨_, rfl⟩⟩ _ _).1 1).mp hvalid).2⟩

end MsgTrans.Adapters.Tcp
