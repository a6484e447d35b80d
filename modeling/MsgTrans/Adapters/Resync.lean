import Mathlib.Data.List.GetD
import MsgTrans.Adapters.HeaderChecks

/-!
# What a resynchronisation throws away

`try_resync_frame`, `crates/msgtrans/src/adapters/tcp.rs:203–234`, discards the bytes in front of the
first valid header of its window, or the whole window where it finds none. The check of an offset
fails as well where fewer than sixteen bytes are buffered behind it, so at the end of the window a
header whose rest has not arrived is taken for garbage.
-/

namespace MsgTrans.Adapters.Tcp

open MsgTrans.Wire MsgTrans.Base

/-- The bytes begin with a header that `is_valid_header_at` accepts. -/
def startsValid (limits : DecodeLimits) (b : Bytes) : Bool :=
  ReadBuffer.isValidHeaderAt ⟨b, true, limits⟩ 0

/-- How many bytes a resynchronisation takes off the buffer. -/
def ReadBuffer.discarded (s : ReadBuffer) : Nat :=
  s.buffer.length - s.tryResyncFrame.2.buffer.length

/-- No valid header begins at this position of the buffer, whatever arrives behind it. -/
def NoHeader (s : ReadBuffer) (p : Nat) : Prop :=
  p + 16 ≤ s.buffer.length ∧ s.isValidHeaderAt p = false ∨
    s.buffer.length < p + 16 ∧ ∀ c, startsValid s.decode (s.buffer.drop p ++ c) = false

/-- The window holds no valid header and is given up while, at one of its last positions, fewer
than sixteen bytes are buffered that zeros complete to a valid header. -/
def Straddles (s : ReadBuffer) : Prop :=
  maxResyncScanDistance < s.buffer.length ∧
    (∀ p < maxResyncScanDistance, s.isValidHeaderAt p = false) ∧ ∃ p < maxResyncScanDistance,
      s.buffer.length < p + 16 ∧
        startsValid s.decode (s.buffer.drop p ++ List.replicate 16 0) = true

section Headers

variable {limits : DecodeLimits} {b t c : Bytes}

theorem isValidHeaderAt_eq (s : ReadBuffer) (o : Nat) :
    s.isValidHeaderAt o = startsValid s.decode (s.buffer.drop o) := by
  rw [Bool.eq_iff_iff, startsValid, isValidHeaderAt_iff, isValidHeaderAt_iff, List.drop_zero]

-- A word of two or four bytes denotes its value without wrapping.
private theorem toNat_u16 {bs : Bytes} (h : bs.length = 2) : (u16FromBeBytes bs).toNat = beNat bs :=
  UInt16.toNat_ofNat_of_lt' (by have := beNat_lt bs; rw [h] at this; exact this)

private theorem toNat_u32 {bs : Bytes} (h : bs.length = 4) : (u32FromBeBytes bs).toNat = beNat bs :=
  UInt32.toNat_ofNat_of_lt' (by have := beNat_lt bs; rw [h] at this; exact this)

/-- The fields of a valid header. -/
theorem startsValid_iff : startsValid limits b = true ↔
    16 ≤ b.length ∧ b.getD 0 0 = 1 ∧ ¬b.getD 1 0 > 2 ∧ ¬b.getD 2 0 > 2 ∧
      beNat ((b.drop 8).take 2) ≤ limits.maxExtHeaderSize ∧
        beNat ((b.drop 10).take 4) % 2 ^ limits.usizeBits ≤ limits.maxPayloadSize := by
  rw [startsValid, ReadBuffer.isValidHeaderAt]
  by_cases hlen : b.length < 16
  · rw [if_pos (by simpa using hlen)]
    simp only [Bool.false_eq_true, false_iff, not_and]
    omega
  · rw [if_neg (by simpa using hlen), List.drop_zero]
    obtain ⟨v, c, t, z, m₀, m₁, m₂, m₃, e₀, e₁, p₀, p₁, p₂, p₃, r₀, r₁, rest, rfl⟩ :=
      exists_sixteen (not_lt.mp hlen)
    simp [toNat_u16, toNat_u32]

/-- A word cut off by the end of the buffer denotes least when zeros follow. -/
theorem segment_pad {i w : Nat} (hw : i + w ≤ 16) (hc : 16 ≤ (t ++ c).length) :
    ∃ a k r, r < 256 ^ k ∧ beNat (((t ++ c).drop i).take w) = a * 256 ^ k + r ∧
      beNat (((t ++ List.replicate 16 0).drop i).take w) = a * 256 ^ k := by
  have hlen : ((c.drop (i - t.length)).take (w - (t.drop i).length)).length =
      w - (t.drop i).length := by
    rw [List.length_append] at hc
    rw [List.length_take, List.length_drop, List.length_drop]
    omega
  have hzeros : ((List.replicate 16 (0 : UInt8)).drop (i - t.length)).take
      (w - (t.drop i).length) = List.replicate (w - (t.drop i).length) 0 := by
    rw [List.drop_replicate, List.take_replicate, List.length_drop]
    congr 1
    omega
  refine ⟨beNat ((t.drop i).take w), w - (t.drop i).length,
    beNat ((c.drop (i - t.length)).take (w - (t.drop i).length)), ?_, ?_, ?_⟩
  · have hlt := beNat_lt ((c.drop (i - t.length)).take (w - (t.drop i).length))
    rwa [hlen] at hlt
  · rw [List.drop_append, List.take_append, beNat_append, hlen]
  · rw [List.drop_append, List.take_append, beNat_append, hzeros, beNat_replicate_zero,
      List.length_replicate, Nat.add_zero]

-- Bits below a cut do not lower what a narrower word keeps.
private theorem mod_le_mod_add {a k r u : Nat} (hr : r < 2 ^ k) :
    a * 2 ^ k % 2 ^ u ≤ (a * 2 ^ k + r) % 2 ^ u := by
  obtain hle | hlt := Nat.le_total u k
  · have hdvd : 2 ^ u ∣ a * 2 ^ k := Dvd.dvd.mul_left (pow_dvd_pow 2 hle) a
    rw [Nat.mod_eq_zero_of_dvd hdvd]
    exact Nat.zero_le _
  · obtain ⟨m, rfl⟩ := Nat.exists_eq_add_of_le hlt
    have hpos : 0 < 2 ^ k := Nat.two_pow_pos k
    have hdiv : (a * 2 ^ k + r) / 2 ^ k = a := by
      rw [Nat.add_comm, Nat.add_mul_div_right _ _ hpos, Nat.div_eq_of_lt hr, Nat.zero_add]
    rw [Nat.pow_add, Nat.mod_mul, Nat.mod_mul, hdiv, Nat.mul_mod_left, Nat.mul_div_cancel _ hpos]
    omega

/-- A byte that is there, or zero. -/
private theorem getD_pad (j : Nat) : (t ++ List.replicate 16 0).getD j 0 = (t ++ c).getD j 0 ∨
    (t ++ List.replicate 16 0).getD j 0 = 0 := by
  obtain hlt | hle := Nat.lt_or_ge j t.length
  · left
    rw [List.getD_append _ _ _ _ hlt, List.getD_append _ _ _ _ hlt]
  · right
    rw [List.getD_append_right _ _ _ _ hle, List.getD_eq_getElem?_getD, List.getElem?_replicate]
    split <;> rfl

/-- If anything completes the bytes to a valid header, zeros do. -/
theorem startsValid_pad (ht : t ≠ []) (h : startsValid limits (t ++ c) = true) :
    startsValid limits (t ++ List.replicate 16 0) = true := by
  rw [startsValid_iff] at h ⊢
  obtain ⟨hlen, hversion, hcompression, htype, hext, hpayload⟩ := h
  refine ⟨by rw [List.length_append, List.length_replicate]; omega, ?_, ?_, ?_, ?_, ?_⟩
  · have hpos := List.length_pos_of_ne_nil ht
    rw [List.getD_append _ _ _ _ hpos] at hversion ⊢
    exact hversion
  · obtain heq | hzero := getD_pad (t := t) (c := c) 1
    · rwa [heq]
    · rw [hzero]
      decide
  · obtain heq | hzero := getD_pad (t := t) (c := c) 2
    · rwa [heq]
    · rw [hzero]
      decide
  · obtain ⟨a, k, r, -, hfull, hpad⟩ := segment_pad (t := t) (i := 8) (w := 2) (by decide) hlen
    rw [hfull] at hext
    rw [hpad]
    omega
  · obtain ⟨a, k, r, hr, hfull, hpad⟩ := segment_pad (t := t) (i := 10) (w := 4) (by decide) hlen
    have hbits : (256 : Nat) ^ k = 2 ^ (8 * k) := by rw [Nat.pow_mul]
    rw [hfull] at hpayload
    rw [hpad]
    rw [hbits] at hr hpayload ⊢
    exact (mod_le_mod_add hr).trans hpayload

end Headers

section Discarded

variable {s : ReadBuffer}

/-- Nothing between the front and an offset that the scan found is a header. -/
theorem scan_some_first {k : Nat} (h : s.scan = some k) {p : Nat} (hpos : 0 < p) (hlt : p < k) :
    s.isValidHeaderAt p = false := by
  obtain ⟨-, -, hfirst⟩ := List.find?_range'_eq_some.mp h
  have hp := hfirst p hpos hlt
  rwa [Bool.not_eq_true'] at hp

/-- Where the scan found nothing, no offset of its window has a header. -/
theorem scan_none_window (h : s.scan = none) {p : Nat} (hpos : 0 < p)
    (hlt : p < maxResyncScanDistance) : s.isValidHeaderAt p = false := by
  obtain hle | hin := Nat.lt_or_ge s.buffer.length (p + 16)
  · rw [ReadBuffer.isValidHeaderAt, if_pos hle]
  · have hmem : p ∈ List.range' 1 (min s.buffer.length maxResyncScanDistance - 1) := by
      rw [List.mem_range'_1]
      omega
    exact Bool.eq_false_of_not_eq_true (List.find?_eq_none.mp h p hmem)

theorem discarded_found {k : Nat} (h : s.scan = some k) : s.discarded = k := by
  obtain ⟨-, -, hlen, -⟩ := ReadBuffer.scan_some h
  rw [ReadBuffer.discarded, ReadBuffer.tryResyncFrame, h]
  simp only [List.length_drop]
  omega

theorem discarded_window (h : s.scan = none) (hlong : maxResyncScanDistance < s.buffer.length) :
    s.discarded = maxResyncScanDistance := by
  rw [ReadBuffer.discarded, ReadBuffer.tryResyncFrame, h]
  simp only [if_pos hlong, List.length_drop]
  omega

theorem discarded_short (h : s.scan = none) (hshort : s.buffer.length ≤ maxResyncScanDistance) :
    s.discarded = 0 := by
  rw [ReadBuffer.discarded, ReadBuffer.tryResyncFrame, h]
  simp only [if_neg (Nat.not_lt.mpr hshort), Nat.sub_self]

/-- A window that straddles a header is thrown away with it. -/
theorem Straddles.discards (h : Straddles s) : ∃ p < s.discarded, ¬NoHeader s p := by
  obtain ⟨hlong, hnone, p, hp, htail, hpad⟩ := h
  have hscan : s.scan = none := by
    refine List.find?_eq_none.mpr fun o ho ↦ ?_
    rw [List.mem_range'_1] at ho
    rw [hnone o (by omega)]
    decide
  refine ⟨p, by rwa [discarded_window hscan hlong], ?_⟩
  rintro (⟨hin, -⟩ | ⟨-, hno⟩)
  · omega
  · rw [hno] at hpad
    cases hpad

end Discarded

/-- Behind a front that is no valid header, a resynchronisation discards only positions at which no
header can begin, except where it gives up its window in front of one that zeros would complete. -/
theorem resync_discards_no_header_iff (s : ReadBuffer) (hfront : s.isValidHeaderAt 0 = false) :
    (∀ p < s.discarded, NoHeader s p) ↔ ¬Straddles s := by
  refine ⟨fun hall hs ↦ ?_, fun hno p hp ↦ ?_⟩
  · obtain ⟨p, hp, hbad⟩ := hs.discards
    exact hbad (hall p hp)
  · cases hscan : s.scan with
    | some k =>
      obtain ⟨-, -, hlen, -⟩ := ReadBuffer.scan_some hscan
      rw [discarded_found hscan] at hp
      refine .inl ⟨by omega, ?_⟩
      obtain rfl | hpos := Nat.eq_zero_or_pos p
      · exact hfront
      · exact scan_some_first hscan hpos hp
    | none =>
      have hnone : ∀ p < maxResyncScanDistance, s.isValidHeaderAt p = false := by
        intro p hp
        obtain rfl | hpos := Nat.eq_zero_or_pos p
        · exact hfront
        · exact scan_none_window hscan hpos hp
      obtain hlong | hshort := Nat.lt_or_ge maxResyncScanDistance s.buffer.length
      · rw [discarded_window hscan hlong] at hp
        obtain htail | hin := Nat.lt_or_ge s.buffer.length (p + 16)
        · refine .inr ⟨htail, fun c ↦ Bool.eq_false_of_not_eq_true fun hc ↦ ?_⟩
          -- Zeros would complete the tail as well, so the window straddles it.
          have hne : s.buffer.drop p ≠ [] := by
            rw [ne_eq, List.drop_eq_nil_iff]
            omega
          exact hno ⟨hlong, hnone, p, hp, htail, startsValid_pad hne hc⟩
        · exact .inl ⟨hin, hnone p hp⟩
      · rw [discarded_short hscan hshort] at hp
        exact absurd hp (Nat.not_lt_zero p)

/-- A valid header one byte into the buffer is found, and only the byte before it is discarded. -/
theorem resync_discards_no_header_iff_of_found :
    ReadBuffer.discarded ⟨255 :: 1 :: List.replicate 15 0, true, .default⟩ = 1 ∧
      NoHeader ⟨255 :: 1 :: List.replicate 15 0, true, .default⟩ 0 := by
  refine ⟨by decide, (resync_discards_no_header_iff _ (by decide)).mpr ?_ 0 (by decide)⟩
  rintro ⟨hlong, -⟩
  revert hlong
  decide

-- Two bytes of a header behind 4095 bytes that begin none.
private theorem straddles_noise :
    Straddles ⟨List.replicate 4095 255 ++ [1, 0], true, .default⟩ := by
  have hlength : (List.replicate 4095 255 ++ [1, 0] : Bytes).length = 4097 := by
    rw [List.length_append, List.length_replicate]
    rfl
  refine ⟨by rw [hlength]; decide, fun p _ ↦ ?_, 4095, by decide, by rw [hlength]; decide, ?_⟩
  · rw [isValidHeaderAt_eq, Bool.eq_false_iff]
    intro h
    obtain ⟨hlen, hversion, -⟩ := startsValid_iff.1 h
    rw [List.length_drop, hlength] at hlen
    obtain ⟨n, hn⟩ : ∃ n, 4095 - p = n + 1 := ⟨4094 - p, by omega⟩
    rw [List.drop_append_of_le_length (by rw [List.length_replicate]; omega), List.drop_replicate,
      hn, List.replicate_succ] at hversion
    exact absurd (show (255 : UInt8) = 1 from hversion) (by decide)
  · rw [List.drop_left' (List.length_replicate ..)]
    decide

/-- After a window of noise that ends in the first byte of a header, that byte is thrown away,
although one more byte is buffered and the rest of the header may follow. -/
theorem resync_discards_header_start :
    ¬∀ s : ReadBuffer, s.isValidHeaderAt 0 = false → ∀ p < s.discarded, NoHeader s p := by
  intro h
  obtain ⟨p, hp, hbad⟩ := Straddles.discards straddles_noise
  exact hbad (h _ (straddles_noise.2.1 0 (by decide)) p hp)

end MsgTrans.Adapters.Tcp
