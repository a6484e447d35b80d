import MsgTrans.Wire.Packet

/-!
# The fixed header: writer against parser

`FixedHeader::to_bytes` and `FixedHeader::from_bytes` (`packet.rs:252–298`) are inverse on
version 1. The grammar of a header is stated through the writer (`IsHeader`), and the parser
is shown to accept exactly that grammar. `frame_layout` then factors through one verdict on
the first sixteen bytes.
-/

namespace MsgTrans.Wire

open MsgTrans.Base

/-- The packet-type byte decodes to a type exactly when it is that type's byte. -/
theorem PacketType.tryFrom_ok_iff (v : UInt8) (t : PacketType) :
    PacketType.tryFrom v = .ok t ↔ v = t.toU8 := by
  constructor
  · intro h
    unfold PacketType.tryFrom at h
    split at h
    · next hv => cases h; exact hv
    · split at h
      · next hv => cases h; exact hv
      · split at h
        · next hv => cases h; exact hv
        · cases h
  · rintro rfl
    cases t <;> rfl

/-- The compression byte decodes to a codec exactly when it is that codec's byte. -/
theorem CompressionType.tryFrom_ok_iff (v : UInt8) (c : CompressionType) :
    CompressionType.tryFrom v = .ok c ↔ v = c.toU8 := by
  constructor
  · intro h
    unfold CompressionType.tryFrom at h
    split at h
    · next hv => cases h; exact hv
    · split at h
      · next hv => cases h; exact hv
      · split at h
        · next hv => cases h; exact hv
        · cases h
  · rintro rfl
    cases c <;> rfl

/-- A `u32` is written as four bytes. -/
@[simp] theorem length_u32ToBeBytes (x : UInt32) : (u32ToBeBytes x).length = 4 :=
  length_beBytes _ _

/-- A `u16` is written as two bytes. -/
@[simp] theorem length_u16ToBeBytes (x : UInt16) : (u16ToBeBytes x).length = 2 :=
  length_beBytes _ _

/-- Reading back the big-endian bytes of a `u32`. -/
theorem u32FromBeBytes_toBeBytes (x : UInt32) : u32FromBeBytes (u32ToBeBytes x) = x := by
  rw [u32FromBeBytes, u32ToBeBytes, beNat_beBytes (n := 4) x.toNat_lt, UInt32.ofNat_toNat]

/-- Reading back the big-endian bytes of a `u16`. -/
theorem u16FromBeBytes_toBeBytes (x : UInt16) : u16FromBeBytes (u16ToBeBytes x) = x := by
  rw [u16FromBeBytes, u16ToBeBytes, beNat_beBytes (n := 2) x.toNat_lt, UInt16.ofNat_toNat]

/-- Four bytes are the big-endian bytes of the `u32` they denote. -/
theorem u32ToBeBytes_fromBeBytes (bs : Bytes) (h : bs.length = 4) :
    u32ToBeBytes (u32FromBeBytes bs) = bs := by
  have hlt : beNat bs < 2 ^ 32 := by
    have hb := beNat_lt bs
    rw [h] at hb
    exact hb
  rw [u32ToBeBytes, u32FromBeBytes, UInt32.toNat_ofNat_of_lt' hlt, ← h, beBytes_beNat]

/-- Two bytes are the big-endian bytes of the `u16` they denote. -/
theorem u16ToBeBytes_fromBeBytes (bs : Bytes) (h : bs.length = 2) :
    u16ToBeBytes (u16FromBeBytes bs) = bs := by
  have hlt : beNat bs < 2 ^ 16 := by
    have hb := beNat_lt bs
    rw [h] at hb
    exact hb
  rw [u16ToBeBytes, u16FromBeBytes, UInt16.toNat_ofNat_of_lt' hlt, ← h, beBytes_beNat]

namespace FixedHeader

/-- The writer produces sixteen bytes. -/
@[simp] theorem length_toBytes (h : FixedHeader) (e : UInt16) (p : UInt32) :
    (h.toBytes e p).length = 16 := by
  simp [toBytes]

-- A fixed-width word as explicit bytes, so the parser's indices can be read off.
private theorem four_bytes (bs : Bytes) (h : bs.length = 4) :
    ∃ a b c d, bs = [a, b, c, d] := by
  match bs, h with
  | [a, b, c, d], _ => exact ⟨a, b, c, d, rfl⟩

private theorem two_bytes (bs : Bytes) (h : bs.length = 2) : ∃ a b, bs = [a, b] := by
  match bs, h with
  | [a, b], _ => exact ⟨a, b, rfl⟩

private theorem sixteen_bytes (bs : Bytes) (h : bs.length = 16) :
    ∃ (v c t z : UInt8) (m e p r : Bytes), m.length = 4 ∧ e.length = 2 ∧ p.length = 4 ∧
      r.length = 2 ∧ bs = [v, c, t, z] ++ m ++ e ++ p ++ r := by
  match bs, h with
  | [v, c, t, z, m0, m1, m2, m3, e0, e1, p0, p1, p2, p3, r0, r1], _ =>
    exact ⟨v, c, t, z, [m0, m1, m2, m3], [e0, e1], [p0, p1, p2, p3], [r0, r1],
      rfl, rfl, rfl, rfl, rfl⟩

/-- The parser on sixteen bytes, field by field. -/
theorem fromBytes_fields (v c t z : UInt8) (m e p r : Bytes) (hm : m.length = 4)
    (he : e.length = 2) (hp : p.length = 4) (hr : r.length = 2) :
    fromBytes ([v, c, t, z] ++ m ++ e ++ p ++ r) =
      if v ≠ 1 then .error (.unsupportedVersion v)
      else (CompressionType.tryFrom c).bind fun compression ↦
        (PacketType.tryFrom t).bind fun packetType ↦
          .ok (⟨v, compression, packetType, z, u32FromBeBytes m, u16FromBeBytes r⟩,
            u16FromBeBytes e, u32FromBeBytes p) := by
  obtain ⟨m0, m1, m2, m3, rfl⟩ := four_bytes m hm
  obtain ⟨e0, e1, rfl⟩ := two_bytes e he
  obtain ⟨p0, p1, p2, p3, rfl⟩ := four_bytes p hp
  obtain ⟨r0, r1, rfl⟩ := two_bytes r hr
  simp [fromBytes]
  rfl

/-- Parsing what the writer wrote recovers the header and both lengths. -/
theorem fromBytes_toBytes (h : FixedHeader) (e : UInt16) (p : UInt32) (hv : h.version = 1) :
    fromBytes (h.toBytes e p) = .ok (h, e, p) := by
  have hc := (CompressionType.tryFrom_ok_iff _ h.compression).mpr rfl
  have ht := (PacketType.tryFrom_ok_iff _ h.packetType).mpr rfl
  rw [toBytes, fromBytes_fields _ _ _ _ _ _ _ _ (length_u32ToBeBytes _) (length_u16ToBeBytes _)
    (length_u32ToBeBytes _) (length_u16ToBeBytes _), hc, ht]
  simp only [hv, ne_eq, not_true_eq_false, ↓reduceIte, u32FromBeBytes_toBeBytes,
    u16FromBeBytes_toBeBytes]
  rw [← hv]
  rfl

/-- Whatever the parser accepts is what the writer would have written: no header byte is
ignored or normalised. -/
theorem toBytes_of_fromBytes (bs : Bytes) (hl : bs.length = 16) (h : FixedHeader)
    (e : UInt16) (p : UInt32) (hok : fromBytes bs = .ok (h, e, p)) :
    h.version = 1 ∧ bs = h.toBytes e p := by
  obtain ⟨v, c, t, z, m, eb, pb, r, hm, he, hp, hr, rfl⟩ := sixteen_bytes bs hl
  rw [fromBytes_fields v c t z m eb pb r hm he hp hr] at hok
  split at hok
  · cases hok
  · next hv =>
    have hv : v = 1 := Decidable.not_not.mp hv
    cases hc : CompressionType.tryFrom c with
    | error err => rw [hc] at hok; cases hok
    | ok compression =>
      cases ht : PacketType.tryFrom t with
      | error err => rw [hc, ht] at hok; cases hok
      | ok packetType =>
        rw [hc, ht] at hok
        cases hok
        refine ⟨hv, ?_⟩
        rw [(CompressionType.tryFrom_ok_iff _ _).mp hc, (PacketType.tryFrom_ok_iff _ _).mp ht]
        simp only [toBytes, u32ToBeBytes_fromBeBytes _ hm, u32ToBeBytes_fromBeBytes _ hp,
          u16ToBeBytes_fromBeBytes _ he, u16ToBeBytes_fromBeBytes _ hr]

end FixedHeader

/-- The header grammar: the buffer starts with the sixteen bytes of a version-1 header that
declares the lengths `e` and `p`. -/
def IsHeader (b : Bytes) (h : FixedHeader) (e : UInt16) (p : UInt32) : Prop :=
  h.version = 1 ∧ b.take 16 = h.toBytes e p

/-- The declared lengths are within every configured cap. -/
def DecodeLimits.Admits (limits : DecodeLimits) (e : UInt16) (p : UInt32) : Prop :=
  p.toNat ≤ limits.maxPayloadSize ∧ e.toNat ≤ limits.maxExtHeaderSize ∧
    16 + e.toNat + p.toNat ≤ limits.maxFrameSize

/-- A buffer that starts with a header holds at least its sixteen bytes. -/
theorem IsHeader.length_le {b : Bytes} {h : FixedHeader} {e : UInt16} {p : UInt32}
    (hh : IsHeader b h e p) : 16 ≤ b.length := by
  have hl := congrArg List.length hh.2
  rw [FixedHeader.length_toBytes, List.length_take] at hl
  omega

/-- The parser accepts exactly the header grammar. -/
theorem fromBytes_take_iff (b : Bytes) (hl : 16 ≤ b.length) (h : FixedHeader) (e : UInt16)
    (p : UInt32) : FixedHeader.fromBytes (b.take 16) = .ok (h, e, p) ↔ IsHeader b h e p := by
  constructor
  · intro hok
    exact FixedHeader.toBytes_of_fromBytes _ (by rw [List.length_take]; omega) h e p hok
  · rintro ⟨hv, he⟩
    rw [he, FixedHeader.fromBytes_toBytes h e p hv]

/-- A header reads back as one header only. -/
theorem IsHeader.unique {b : Bytes} {h h' : FixedHeader} {e e' : UInt16} {p p' : UInt32}
    (hh : IsHeader b h e p) (hh' : IsHeader b h' e' p') : h = h' ∧ e = e' ∧ p = p' := by
  have h1 := (fromBytes_take_iff b hh.length_le h e p).mpr hh
  have h2 := (fromBytes_take_iff b hh.length_le h' e' p').mpr hh'
  rw [h1] at h2
  cases h2
  exact ⟨rfl, rfl, rfl⟩

/-- The header grammar looks at the first sixteen bytes only. -/
theorem isHeader_congr {b b' : Bytes} (hb : b.take 16 = b'.take 16) (h : FixedHeader)
    (e : UInt16) (p : UInt32) : IsHeader b h e p ↔ IsHeader b' h e p := by
  simp only [IsHeader, hb]

/-- A header stays a header when bytes arrive behind it. -/
theorem IsHeader.append {b : Bytes} {h : FixedHeader} {e : UInt16} {p : UInt32}
    (hh : IsHeader b h e p) (rest : Bytes) : IsHeader (b ++ rest) h e p :=
  (isHeader_congr (List.take_append_of_le_length hh.length_le) h e p).mpr hh

namespace Packet

/-- The `u64` sum of the declared lengths never wraps. -/
theorem declaredLen_eq (e : UInt16) (p : UInt32) :
    declaredLen e p = 16 + e.toNat + p.toNat := by
  have he := e.toNat_lt
  have hp := p.toNat_lt
  exact Nat.mod_eq_of_lt (by omega)

/-- The verdict of `frame_layout` on the first sixteen bytes alone. -/
def headerVerdict (header : Bytes) (limits : DecodeLimits) :
    Except PacketError (FixedHeader × UInt16 × UInt32) :=
  match FixedHeader.fromBytes header with
  | .error err => .error err
  | .ok (h, e, p) =>
    if p.toNat > limits.maxPayloadSize then
      .error (.frameTooLarge p.toNat limits.maxPayloadSize)
    else if e.toNat > limits.maxExtHeaderSize then
      .error (.frameTooLarge e.toNat limits.maxExtHeaderSize)
    else if declaredLen e p > limits.maxFrameSize then
      .error (.frameTooLarge (declaredLen e p) limits.maxFrameSize)
    else .ok (h, e, p)

/-- The verdict is positive exactly on a header whose lengths are within the limits. -/
theorem headerVerdict_ok_iff (b : Bytes) (limits : DecodeLimits) (hl : 16 ≤ b.length)
    (h : FixedHeader) (e : UInt16) (p : UInt32) :
    headerVerdict (b.take 16) limits = .ok (h, e, p) ↔
      IsHeader b h e p ∧ limits.Admits e p := by
  rw [← fromBytes_take_iff b hl, headerVerdict]
  cases hf : FixedHeader.fromBytes (b.take 16) with
  | error err => simp
  | ok r =>
    obtain ⟨h', e', p'⟩ := r
    simp only [declaredLen_eq, DecodeLimits.Admits]
    constructor
    · intro hv
      split at hv
      · cases hv
      · split at hv
        · cases hv
        · split at hv
          · cases hv
          · cases hv
            exact ⟨rfl, by omega⟩
    · rintro ⟨he, ha⟩
      cases he
      rw [if_neg (by omega), if_neg (by omega), if_neg (by omega)]

/-- A header within the limits keeps its length through the cast to `usize`. -/
theorem declaredLen_mod_usize (limits : DecodeLimits) (e : UInt16) (p : UInt32)
    (ha : limits.Admits e p) :
    declaredLen e p % 2 ^ limits.usizeBits = 16 + e.toNat + p.toNat := by
  rw [declaredLen_eq]
  exact Nat.mod_eq_of_lt (Nat.lt_of_le_of_lt ha.2.2 limits.maxFrameSize_lt)

/-- The layout of a frame whose header is within the limits. -/
def layoutOf (h : FixedHeader) (e : UInt16) (p : UInt32) : FrameLayout where
  header := h
  extHeaderLen := e
  payloadLen := p
  extEnd := 16 + e.toNat
  total := 16 + e.toNat + p.toNat

/-- Fewer than sixteen bytes are never judged. -/
theorem frameLayout_of_short (b : Bytes) (limits : DecodeLimits) (hl : b.length < 16) :
    frameLayout b limits = .ok none := by
  rw [frameLayout, if_pos hl]
  rfl

private theorem slice_header (b : Bytes) (hl : 16 ≤ b.length) :
    slice b 0 16 = .ok (b.take 16) := by
  rw [slice, if_pos ⟨by omega, hl⟩, List.drop_zero]

/-- `frame_layout` is the header verdict, followed by one comparison with the length. -/
theorem frameLayout_eq (b : Bytes) (limits : DecodeLimits) (hl : 16 ≤ b.length) :
    frameLayout b limits =
      match headerVerdict (b.take 16) limits with
      | .error err => .error (.packet err)
      | .ok (h, e, p) =>
        .ok (if b.length < 16 + e.toNat + p.toNat then none else some (layoutOf h e p)) := by
  rw [frameLayout, if_neg (by omega), slice_header b hl]
  simp only [headerVerdict, bind, Except.bind]
  cases hf : FixedHeader.fromBytes (b.take 16) with
  | error err => rfl
  | ok r =>
    obtain ⟨h, e, p⟩ := r
    simp only [liftError]
    by_cases h1 : p.toNat > limits.maxPayloadSize
    · rw [if_pos h1, if_pos h1]
    · by_cases h2 : e.toNat > limits.maxExtHeaderSize
      · rw [if_neg h1, if_neg h1, if_pos h2, if_pos h2]
      · by_cases h3 : declaredLen e p > limits.maxFrameSize
        · rw [if_neg h1, if_neg h1, if_neg h2, if_neg h2, if_pos h3, if_pos h3]
        · rw [if_neg h1, if_neg h1, if_neg h2, if_neg h2, if_neg h3, if_neg h3]
          have ha : limits.Admits e p := by
            rw [declaredLen_eq] at h3
            exact ⟨by omega, by omega, by omega⟩
          rw [declaredLen_mod_usize limits e p ha]
          dsimp only
          split
          · rfl
          · rfl

/-- On a header within the limits the layout waits for, or returns, the declared frame. -/
theorem frameLayout_of_header (b : Bytes) (limits : DecodeLimits) (h : FixedHeader)
    (e : UInt16) (p : UInt32) (hh : IsHeader b h e p) (ha : limits.Admits e p) :
    frameLayout b limits =
      .ok (if b.length < 16 + e.toNat + p.toNat then none else some (layoutOf h e p)) := by
  rw [frameLayout_eq b limits hh.length_le,
    (headerVerdict_ok_iff b limits hh.length_le h e p).mpr ⟨hh, ha⟩]

/-- Anything else of at least sixteen bytes is refused with an ordinary error, and which one
is decided by those sixteen bytes. -/
theorem frameLayout_of_reject (b : Bytes) (limits : DecodeLimits) (hl : 16 ≤ b.length)
    (hn : ¬ ∃ h e p, IsHeader b h e p ∧ limits.Admits e p) :
    ∃ err, headerVerdict (b.take 16) limits = .error err ∧
      frameLayout b limits = .error (.packet err) := by
  cases hv : headerVerdict (b.take 16) limits with
  | error err => exact ⟨err, rfl, by rw [frameLayout_eq b limits hl, hv]⟩
  | ok r =>
    obtain ⟨h, e, p⟩ := r
    exact absurd ⟨h, e, p, (headerVerdict_ok_iff b limits hl h e p).mp hv⟩ hn

end Packet

end MsgTrans.Wire
