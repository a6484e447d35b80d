import MsgTrans.Wire.Header

/-!
# The frame codec: round trip and accepted grammar

`try_encode`, `decode_exact_with`, `decode_one_with`, `decode_one_from`, `frame_len` and
`decode_exact_from` (`packet.rs:479–641`). A frame is a header within the limits followed by
exactly the declared body. Every decoder is characterised by that grammar, which gives the
round trip in both directions and the agreement of the four entry points.
-/

namespace MsgTrans.Wire

namespace Packet

/-- The packet a decoder builds from a header and the two body ranges of the buffer. -/
def ofFrame (b : Bytes) (h : FixedHeader) (e : UInt16) (p : UInt32) : Packet where
  header := h
  extHeader := (b.drop 16).take e.toNat
  payload := (b.drop (16 + e.toNat)).take p.toNat

/-- The total length a header declares. -/
def totalLen (e : UInt16) (p : UInt32) : Nat := 16 + e.toNat + p.toNat

theorem totalLen_pos (e : UInt16) (p : UInt32) : 0 < totalLen e p := by
  rw [totalLen]
  omega

/-- An in-range slice never panics. -/
theorem slice_ok (b : Bytes) (lo n : Nat) (h : lo + n ≤ b.length) :
    slice b lo (lo + n) = .ok ((b.drop lo).take n) := by
  rw [slice, if_pos ⟨by omega, h⟩, Nat.add_sub_cancel_left]

-- The body readers skip the slice of an empty range; the slice would give the same bytes.
private theorem optional_slice (b : Bytes) (lo n : Nat) (h : lo + n ≤ b.length) :
    (if n > 0 then slice b lo (lo + n) else .ok []) = .ok ((b.drop lo).take n) := by
  split
  · exact slice_ok b lo n h
  · next hn =>
    have hz : n = 0 := by omega
    rw [hz, List.take_zero]

/-- The borrowed and the owned decoder are the same function of the buffer. -/
theorem decodeOneFrom_eq (b : Bytes) (limits : DecodeLimits) :
    decodeOneFrom b limits = decodeOneWith b limits := rfl

/-- Too few bytes for a header: keep waiting. -/
theorem decodeOneWith_of_short (b : Bytes) (limits : DecodeLimits) (hl : b.length < 16) :
    decodeOneWith b limits = .ok none := by
  rw [decodeOneWith, frameLayout_of_short b limits hl]
  rfl

/-- A header within the limits: wait for the declared length, then return the frame. -/
theorem decodeOneWith_of_header (b : Bytes) (limits : DecodeLimits) (h : FixedHeader)
    (e : UInt16) (p : UInt32) (hh : IsHeader b h e p) (ha : limits.Admits e p) :
    decodeOneWith b limits =
      .ok (if b.length < totalLen e p then none
        else some (ofFrame b h e p, totalLen e p)) := by
  rw [decodeOneWith, frameLayout_of_header b limits h e p hh ha]
  by_cases hl : b.length < 16 + e.toNat + p.toNat
  · rw [if_pos hl, totalLen, if_pos hl]
    rfl
  · have he : (if (layoutOf h e p).extHeaderLen.toNat > 0 then
        slice b 16 (layoutOf h e p).extEnd else .ok []) = .ok _ :=
      optional_slice b 16 e.toNat (by omega)
    have hp : (if (layoutOf h e p).payloadLen.toNat > 0 then
        slice b (layoutOf h e p).extEnd (layoutOf h e p).total else .ok []) = .ok _ :=
      optional_slice b (16 + e.toNat) p.toNat (by omega)
    rw [if_neg hl, totalLen, if_neg hl]
    simp only [bind, Except.bind, he, hp]
    rfl

/-- Any other sixteen bytes are an ordinary error, decided by those bytes. -/
theorem decodeOneWith_of_reject (b : Bytes) (limits : DecodeLimits) (hl : 16 ≤ b.length)
    (hn : ¬ ∃ h e p, IsHeader b h e p ∧ limits.Admits e p) :
    ∃ err, headerVerdict (b.take 16) limits = .error err ∧
      decodeOneWith b limits = .error (.packet err) := by
  obtain ⟨err, hv, hf⟩ := frameLayout_of_reject b limits hl hn
  exact ⟨err, hv, by rw [decodeOneWith, hf]; rfl⟩

/-- The three cases of the grammar cover every buffer. -/
theorem grammar_cases (b : Bytes) (limits : DecodeLimits) :
    b.length < 16 ∨ (∃ h e p, IsHeader b h e p ∧ limits.Admits e p) ∨
      (16 ≤ b.length ∧ ¬ ∃ h e p, IsHeader b h e p ∧ limits.Admits e p) := by
  by_cases hl : b.length < 16
  · exact .inl hl
  · by_cases hh : ∃ h e p, IsHeader b h e p ∧ limits.Admits e p
    · exact .inr (.inl hh)
    · exact .inr (.inr ⟨by omega, hh⟩)

/-- The decoder waits exactly for the rest of a header or of an acceptable frame. -/
theorem decodeOneWith_none_iff (b : Bytes) (limits : DecodeLimits) :
    decodeOneWith b limits = .ok none ↔
      b.length < 16 ∨
        ∃ h e p, IsHeader b h e p ∧ limits.Admits e p ∧ b.length < totalLen e p := by
  rcases grammar_cases b limits with hl | ⟨h, e, p, hh, ha⟩ | ⟨hl, hn⟩
  · exact ⟨fun _ ↦ .inl hl, fun _ ↦ decodeOneWith_of_short b limits hl⟩
  · rw [decodeOneWith_of_header b limits h e p hh ha]
    constructor
    · intro hd
      by_cases hs : b.length < totalLen e p
      · exact .inr ⟨h, e, p, hh, ha, hs⟩
      · rw [if_neg hs] at hd
        cases hd
    · rintro (hl | ⟨h', e', p', hh', -, hs⟩)
      · exact absurd hh.length_le (by omega)
      · obtain ⟨-, rfl, rfl⟩ := hh.unique hh'
        rw [if_pos hs]
  · obtain ⟨err, -, hd⟩ := decodeOneWith_of_reject b limits hl hn
    rw [hd]
    constructor
    · intro hc
      cases hc
    · rintro (hs | ⟨h, e, p, hh, ha, -⟩)
      · omega
      · exact absurd ⟨h, e, p, hh, ha⟩ hn

/-- The decoder fails exactly on sixteen bytes that are no acceptable header. -/
theorem decodeOneWith_error_iff (b : Bytes) (limits : DecodeLimits) :
    (∃ err, decodeOneWith b limits = .error (.packet err)) ↔
      16 ≤ b.length ∧ ¬ ∃ h e p, IsHeader b h e p ∧ limits.Admits e p := by
  rcases grammar_cases b limits with hl | ⟨h, e, p, hh, ha⟩ | ⟨hl, hn⟩
  · rw [decodeOneWith_of_short b limits hl]
    constructor
    · rintro ⟨err, hc⟩
      cases hc
    · rintro ⟨h16, -⟩
      omega
  · rw [decodeOneWith_of_header b limits h e p hh ha]
    constructor
    · rintro ⟨err, hc⟩
      cases hc
    · rintro ⟨-, hn⟩
      exact absurd ⟨h, e, p, hh, ha⟩ hn
  · obtain ⟨err, -, hd⟩ := decodeOneWith_of_reject b limits hl hn
    exact ⟨fun _ ↦ ⟨hl, hn⟩, fun _ ↦ ⟨err, hd⟩⟩

/-- The decoder returns exactly the complete frames of the grammar. -/
theorem decodeOneWith_some_iff (b : Bytes) (limits : DecodeLimits) (pk : Packet) (n : Nat) :
    decodeOneWith b limits = .ok (some (pk, n)) ↔
      ∃ h e p, IsHeader b h e p ∧ limits.Admits e p ∧ n = totalLen e p ∧ n ≤ b.length ∧
        pk = ofFrame b h e p := by
  rcases grammar_cases b limits with hl | ⟨h, e, p, hh, ha⟩ | ⟨hl, hn⟩
  · rw [decodeOneWith_of_short b limits hl]
    constructor
    · intro hc
      cases hc
    · rintro ⟨h, e, p, hh, -⟩
      exact absurd hh.length_le (by omega)
  · rw [decodeOneWith_of_header b limits h e p hh ha]
    constructor
    · intro hd
      by_cases hs : b.length < totalLen e p
      · rw [if_pos hs] at hd
        cases hd
      · rw [if_neg hs] at hd
        cases hd
        exact ⟨h, e, p, hh, ha, rfl, by omega, rfl⟩
    · rintro ⟨h', e', p', hh', -, rfl, hle, rfl⟩
      obtain ⟨rfl, rfl, rfl⟩ := hh.unique hh'
      rw [if_neg (by omega)]
  · obtain ⟨err, -, hd⟩ := decodeOneWith_of_reject b limits hl hn
    rw [hd]
    constructor
    · intro hc
      cases hc
    · rintro ⟨h, e, p, hh, ha, -⟩
      exact absurd ⟨h, e, p, hh, ha⟩ hn

/-- No slice or index of the decoder is out of range. -/
theorem decodeOneWith_ne_panic (b : Bytes) (limits : DecodeLimits) :
    decodeOneWith b limits ≠ .error .panic := by
  intro hc
  rcases grammar_cases b limits with hl | ⟨h, e, p, hh, ha⟩ | ⟨hl, hn⟩
  · rw [decodeOneWith_of_short b limits hl] at hc
    cases hc
  · rw [decodeOneWith_of_header b limits h e p hh ha] at hc
    cases hc
  · obtain ⟨err, -, hd⟩ := decodeOneWith_of_reject b limits hl hn
    rw [hd] at hc
    cases hc

/-- An error is decided by the first sixteen bytes. -/
theorem decodeOneWith_error_congr (b b' : Bytes) (limits : DecodeLimits)
    (hl : 16 ≤ b.length) (hl' : 16 ≤ b'.length) (ht : b.take 16 = b'.take 16)
    (err : PacketError) (hd : decodeOneWith b limits = .error (.packet err)) :
    decodeOneWith b' limits = .error (.packet err) := by
  have hn := ((decodeOneWith_error_iff b limits).mp ⟨err, hd⟩).2
  have hn' : ¬ ∃ h e p, IsHeader b' h e p ∧ limits.Admits e p := by
    rintro ⟨h, e, p, hh, ha⟩
    exact hn ⟨h, e, p, (isHeader_congr ht h e p).mpr hh, ha⟩
  obtain ⟨e1, hv1, hd1⟩ := decodeOneWith_of_reject b limits hl hn
  obtain ⟨e2, hv2, hd2⟩ := decodeOneWith_of_reject b' limits hl' hn'
  rw [ht, hv2] at hv1
  cases hv1
  rw [hd1] at hd
  cases hd
  exact hd2

/-- A returned frame is not disturbed by bytes behind it. -/
theorem ofFrame_append (b rest : Bytes) (h : FixedHeader) (e : UInt16) (p : UInt32)
    (hle : totalLen e p ≤ b.length) : ofFrame (b ++ rest) h e p = ofFrame b h e p := by
  rw [totalLen] at hle
  simp only [ofFrame]
  rw [List.drop_append_of_le_length (by omega), List.drop_append_of_le_length (by omega),
    List.take_append_of_le_length (by rw [List.length_drop]; omega),
    List.take_append_of_le_length (by rw [List.length_drop]; omega)]

/-- A verdict other than waiting is final. -/
theorem decodeOneWith_append_some (b rest : Bytes) (limits : DecodeLimits) (pk : Packet)
    (n : Nat) (hd : decodeOneWith b limits = .ok (some (pk, n))) :
    decodeOneWith (b ++ rest) limits = .ok (some (pk, n)) := by
  obtain ⟨h, e, p, hh, ha, rfl, hle, rfl⟩ := (decodeOneWith_some_iff b limits pk n).mp hd
  apply (decodeOneWith_some_iff _ limits _ _).mpr
  refine ⟨h, e, p, hh.append rest, ha, rfl, ?_, (ofFrame_append b rest h e p hle).symm⟩
  rw [List.length_append]
  omega

/-- An error stays the same error when bytes are appended. -/
theorem decodeOneWith_append_error (b rest : Bytes) (limits : DecodeLimits)
    (err : PacketError) (hd : decodeOneWith b limits = .error (.packet err)) :
    decodeOneWith (b ++ rest) limits = .error (.packet err) := by
  have hl := ((decodeOneWith_error_iff b limits).mp ⟨err, hd⟩).1
  refine decodeOneWith_error_congr b (b ++ rest) limits hl ?_
    (List.take_append_of_le_length hl).symm err hd
  rw [List.length_append]
  omega

/-- A buffer that waits behind a complete header can always be completed. -/
theorem decodeOneWith_completable (b : Bytes) (limits : DecodeLimits) (hl : 16 ≤ b.length)
    (hd : decodeOneWith b limits = .ok none) :
    ∃ rest pk n, decodeOneWith (b ++ rest) limits = .ok (some (pk, n)) := by
  rcases (decodeOneWith_none_iff b limits).mp hd with hs | ⟨h, e, p, hh, ha, hs⟩
  · omega
  · refine ⟨List.replicate (totalLen e p) 0, _, totalLen e p,
      (decodeOneWith_some_iff _ limits _ _).mpr ⟨h, e, p, hh.append _, ha, rfl, ?_, rfl⟩⟩
    rw [List.length_append, List.length_replicate]
    omega

/-- `frame_len` is the consumed length of `decode_one_with`. -/
theorem frameLen_eq (b : Bytes) (limits : DecodeLimits) :
    frameLen b limits = (decodeOneWith b limits).map (Option.map Prod.snd) := by
  rcases grammar_cases b limits with hl | ⟨h, e, p, hh, ha⟩ | ⟨hl, hn⟩
  · rw [decodeOneWith_of_short b limits hl, frameLen, frameLayout_of_short b limits hl]
    rfl
  · rw [decodeOneWith_of_header b limits h e p hh ha, frameLen,
      frameLayout_of_header b limits h e p hh ha, totalLen]
    simp only [bind, Except.bind, Except.map]
    split
    · rfl
    · rfl
  · obtain ⟨err, hv, hd⟩ := decodeOneWith_of_reject b limits hl hn
    obtain ⟨err', hv', hf⟩ := frameLayout_of_reject b limits hl hn
    rw [hv] at hv'
    cases hv'
    rw [hd, frameLen, hf]
    rfl

/-- A frame is decoded from its own bytes. -/
theorem decodeOneWith_take {b : Bytes} {limits : DecodeLimits} {pk : Packet} {n : Nat}
    (hd : decodeOneWith b limits = .ok (some (pk, n))) :
    decodeOneWith (b.take n) limits = .ok (some (pk, n)) := by
  obtain ⟨h, e, p, hh, ha, rfl, hle, rfl⟩ := (decodeOneWith_some_iff b limits pk n).mp hd
  have hlen : (b.take (totalLen e p)).length = totalLen e p := by
    rw [List.length_take]
    omega
  have hh' : IsHeader (b.take (totalLen e p)) h e p := by
    refine (isHeader_congr ?_ h e p).mp hh
    rw [List.take_take, Nat.min_eq_left (by rw [totalLen]; omega)]
  have hof : ofFrame (b.take (totalLen e p)) h e p = ofFrame b h e p := by
    have := ofFrame_append (b.take (totalLen e p)) (b.drop (totalLen e p)) h e p (by rw [hlen])
    rwa [List.take_append_drop, eq_comm] at this
  exact (decodeOneWith_some_iff _ limits _ _).mpr
    ⟨h, e, p, hh', ha, rfl, le_of_eq hlen.symm, hof.symm⟩

/-- The two-step reader of a byte stream: carve the first frame off by `frame_len`, then
decode the carved bytes with `decode_exact_from`. -/
def carveAndDecode (b : Bytes) (limits : DecodeLimits) :
    Except Fault (Option (Packet × Nat)) := do
  match ← frameLen b limits with
  | none => return none
  | some n => return some (← decodeExactFrom (b.take n) limits, n)

/-- An exact decoder returns the packet of a single frame that fills the buffer. -/
theorem exactly_ok_iff (len : Nat) (r : Except Fault (Option (Packet × Nat))) (pk : Packet) :
    exactly len r = .ok pk ↔ r = .ok (some (pk, len)) := by
  rcases r with err | (_ | ⟨q, n⟩)
  · exact ⟨fun h ↦ (by cases h), fun h ↦ (by cases h)⟩
  · exact ⟨fun h ↦ (by cases h), fun h ↦ (by cases h)⟩
  · by_cases hn : n = len
    · subst hn
      simp only [exactly, bind, Except.bind, ne_eq, not_true_eq_false, ↓reduceIte]
      constructor
      · intro h
        cases h
        rfl
      · intro h
        cases h
        rfl
    · simp only [exactly, bind, Except.bind, ne_eq, hn, not_false_eq_true, ↓reduceIte]
      constructor
      · intro h
        cases h
      · intro h
        cases h
        exact absurd rfl hn

/-- What the streaming decoder refuses, the exact one refuses. -/
theorem decodeExactFrom_of_error {b : Bytes} {limits : DecodeLimits} {e : PacketError}
    (h : decodeOneWith b limits = .error (.packet e)) :
    decodeExactFrom b limits = .error (.packet e) := by
  rw [decodeExactFrom, decodeOneFrom_eq, h]
  rfl

/-- Carving and decoding agrees with decoding in place. -/
theorem carveAndDecode_eq (b : Bytes) (limits : DecodeLimits) :
    carveAndDecode b limits = decodeOneWith b limits := by
  rw [carveAndDecode, frameLen_eq]
  cases hd : decodeOneWith b limits with
  | error f => rfl
  | ok r =>
    cases r with
    | none => rfl
    | some r =>
      obtain ⟨pk, n⟩ := r
      obtain ⟨-, -, -, -, -, -, hle, -⟩ := (decodeOneWith_some_iff b limits pk n).mp hd
      have hex : decodeExactFrom (b.take n) limits = .ok pk := by
        rw [decodeExactFrom, exactly_ok_iff, decodeOneFrom_eq, List.length_take_of_le hle]
        exact decodeOneWith_take hd
      simp only [Except.map, Option.map, bind, Except.bind, hex]
      rfl

/-- A packet the limits let through, with the bounds of its own length fields. -/
structure Fits (p : Packet) (limits : DecodeLimits) : Prop where
  version : p.header.version = 1
  ext : p.extHeader.length ≤ min 65535 limits.maxExtHeaderSize
  payload : p.payload.length ≤ min (2 ^ 32 - 1) limits.maxPayloadSize
  frame : 16 + p.extHeader.length + p.payload.length ≤ limits.maxFrameSize

/-- The frame of a packet whose lengths fit their fields. -/
def frame (p : Packet) : Bytes :=
  p.header.toBytes (UInt16.ofNat p.extHeader.length) (UInt32.ofNat p.payload.length) ++
    p.extHeader ++ p.payload

/-- The encoder succeeds exactly when both lengths fit their wire fields. -/
theorem tryEncode_ok_iff (p : Packet) (b : Bytes) :
    p.tryEncode = .ok b ↔
      p.extHeader.length ≤ 65535 ∧ p.payload.length ≤ 4294967295 ∧ b = p.frame := by
  rw [tryEncode]
  by_cases he : p.extHeader.length > 65535
  · rw [if_pos he]
    exact ⟨fun h ↦ (by cases h), fun h ↦ (by omega)⟩
  · rw [if_neg he]
    by_cases hp : p.payload.length > 4294967295
    · rw [if_pos hp]
      exact ⟨fun h ↦ (by cases h), fun h ↦ (by omega)⟩
    · rw [if_neg hp]
      constructor
      · intro h
        cases h
        exact ⟨by omega, by omega, rfl⟩
      · rintro ⟨-, -, rfl⟩
        rfl

/-- The length of an encoded frame. -/
theorem length_frame (p : Packet) :
    p.frame.length = 16 + p.extHeader.length + p.payload.length := by
  simp [frame, Nat.add_assoc]

/-- Decoding an encoded frame in front of any bytes returns the packet. -/
theorem decodeOneWith_frame (p : Packet) (limits : DecodeLimits) (hf : p.Fits limits)
    (rest : Bytes) :
    decodeOneWith (p.frame ++ rest) limits = .ok (some (p, p.frame.length)) := by
  have hext := hf.ext
  have hpay := hf.payload
  have he : (UInt16.ofNat p.extHeader.length).toNat = p.extHeader.length :=
    UInt16.toNat_ofNat_of_lt' (by simp only [UInt16.size]; omega)
  have hp : (UInt32.ofNat p.payload.length).toNat = p.payload.length :=
    UInt32.toNat_ofNat_of_lt' (by simp only [UInt32.size]; omega)
  have hh : IsHeader (p.frame ++ rest) p.header (UInt16.ofNat p.extHeader.length)
      (UInt32.ofNat p.payload.length) := by
    refine ⟨hf.version, ?_⟩
    rw [frame, List.append_assoc, List.append_assoc,
      List.take_append_of_le_length (by rw [FixedHeader.length_toBytes]),
      List.take_of_length_le (by rw [FixedHeader.length_toBytes])]
  have ha : limits.Admits (UInt16.ofNat p.extHeader.length) (UInt32.ofNat p.payload.length) := by
    have := hf.frame
    exact ⟨by omega, by omega, by omega⟩
  have htot : totalLen (UInt16.ofNat p.extHeader.length) (UInt32.ofNat p.payload.length) =
      p.frame.length := by
    rw [totalLen, he, hp, length_frame]
  refine (decodeOneWith_some_iff _ limits _ _).mpr ⟨_, _, _, hh, ha, htot.symm, ?_, ?_⟩
  · rw [List.length_append]
    omega
  · rw [ofFrame_append _ _ _ _ _ (by rw [htot])]
    simp only [ofFrame, he, hp, frame]
    rw [List.append_assoc, List.drop_left' (FixedHeader.length_toBytes _ _ _), List.take_left,
      ← List.append_assoc, List.drop_left' (by
        rw [List.length_append, FixedHeader.length_toBytes]), List.take_length]

/-- The frame of a packet within the limits is decoded exactly. -/
theorem decodeExactFrom_frame {p : Packet} {limits : DecodeLimits} (hf : p.Fits limits) :
    decodeExactFrom p.frame limits = .ok p := by
  rw [decodeExactFrom, exactly_ok_iff, decodeOneFrom_eq]
  have hone := decodeOneWith_frame p limits hf []
  rwa [List.append_nil] at hone

/-- Whatever an exact decode accepts is the encoding of its result. -/
theorem tryEncode_of_decodeExactWith (b : Bytes) (limits : DecodeLimits) (p : Packet)
    (hd : decodeExactWith b limits = .ok p) : p.tryEncode = .ok b := by
  rw [decodeExactWith, exactly_ok_iff] at hd
  obtain ⟨h, e, l, hh, -, htot, -, rfl⟩ := (decodeOneWith_some_iff b limits p _).mp hd
  have he := e.toNat_lt
  have hl := l.toNat_lt
  rw [totalLen] at htot
  have hel : ((b.drop 16).take e.toNat).length = e.toNat := by
    rw [List.length_take, List.length_drop]
    omega
  have hpl : ((b.drop (16 + e.toNat)).take l.toNat).length = l.toNat := by
    rw [List.length_take, List.length_drop]
    omega
  refine (tryEncode_ok_iff _ b).mpr ⟨?_, ?_, ?_⟩
  · simp only [ofFrame, hel]
    omega
  · simp only [ofFrame, hpl]
    omega
  · simp only [frame, ofFrame, hel, hpl, UInt16.ofNat_toNat, UInt32.ofNat_toNat]
    rw [← hh.2]
    have hlast : (b.drop (16 + e.toNat)).take l.toNat = (b.drop 16).drop e.toNat := by
      rw [List.drop_drop, List.take_of_length_le (by rw [List.length_drop]; omega)]
    rw [hlast, List.append_assoc, List.take_append_drop, List.take_append_drop]

/-- The codec round trip in both directions. Encoding a version-1 packet that the limits let
through succeeds and decodes to that packet, alone and in front of any bytes; and a buffer
that decodes exactly is the encoding of its packet, so no two buffers decode to one packet. -/
theorem codec_round_trip (limits : DecodeLimits) :
    (∀ p : Packet, p.header.version = 1 →
      p.extHeader.length ≤ min 65535 limits.maxExtHeaderSize →
      p.payload.length ≤ min (2 ^ 32 - 1) limits.maxPayloadSize →
      16 + p.extHeader.length + p.payload.length ≤ limits.maxFrameSize →
      ∃ b, p.tryEncode = .ok b ∧ decodeExactWith b limits = .ok p ∧
        ∀ rest, decodeOneWith (b ++ rest) limits = .ok (some (p, b.length))) ∧
    (∀ (b : Bytes) (p : Packet), decodeExactWith b limits = .ok p → p.tryEncode = .ok b) ∧
    (∀ (b b' : Bytes) (limits' : DecodeLimits) (p : Packet),
      decodeExactWith b limits = .ok p → decodeExactWith b' limits' = .ok p → b = b') := by
  refine ⟨?_, fun b p hd ↦ tryEncode_of_decodeExactWith b limits p hd, ?_⟩
  · intro p hv he hp hf
    have hfits : p.Fits limits := ⟨hv, he, hp, hf⟩
    refine ⟨p.frame, (tryEncode_ok_iff p _).mpr ⟨by omega, by omega, rfl⟩, ?_,
      decodeOneWith_frame p limits hfits⟩
    rw [decodeExactWith, exactly_ok_iff]
    have hd := decodeOneWith_frame p limits hfits []
    rwa [List.append_nil] at hd
  · intro b b' limits' p hd hd'
    have hb := tryEncode_of_decodeExactWith b limits p hd
    rw [tryEncode_of_decodeExactWith b' limits' p hd'] at hb
    cases hb
    rfl

/-- The decoders accept exactly the frame grammar. For every buffer and limits the verdict
of `decode_one_with` is characterised by the first sixteen bytes, the limits and the buffered
length; it is final unless it waits; a wait behind a header can be completed; no slice is out
of range and the total neither wraps in `u64` nor is truncated to `usize`; and the three
readers of a frame agree. -/
theorem decode_accepts_grammar (b : Bytes) (limits : DecodeLimits) :
    (decodeOneWith b limits = .ok none ↔
      b.length < 16 ∨ ∃ h e p, IsHeader b h e p ∧ limits.Admits e p ∧
        b.length < 16 + e.toNat + p.toNat) ∧
    ((∃ err, decodeOneWith b limits = .error (.packet err)) ↔
      16 ≤ b.length ∧ ¬ ∃ h e p, IsHeader b h e p ∧ limits.Admits e p) ∧
    (∀ b' err, 16 ≤ b.length → 16 ≤ b'.length → b.take 16 = b'.take 16 →
      (decodeOneWith b limits = .error (.packet err) ↔
        decodeOneWith b' limits = .error (.packet err))) ∧
    (∀ pk n, decodeOneWith b limits = .ok (some (pk, n)) ↔
      ∃ h e p, IsHeader b h e p ∧ limits.Admits e p ∧ n = 16 + e.toNat + p.toNat ∧
        n ≤ b.length ∧ pk = ⟨h, (b.drop 16).take e.toNat,
          (b.drop (16 + e.toNat)).take p.toNat⟩) ∧
    (∀ rest err, decodeOneWith b limits = .error (.packet err) →
      decodeOneWith (b ++ rest) limits = .error (.packet err)) ∧
    (∀ rest pk n, decodeOneWith b limits = .ok (some (pk, n)) →
      decodeOneWith (b ++ rest) limits = .ok (some (pk, n))) ∧
    (16 ≤ b.length → decodeOneWith b limits = .ok none →
      ∃ rest pk n, decodeOneWith (b ++ rest) limits = .ok (some (pk, n))) ∧
    (∀ e p, declaredLen e p = 16 + e.toNat + p.toNat ∧
      (limits.Admits e p →
        declaredLen e p % 2 ^ limits.usizeBits = 16 + e.toNat + p.toNat)) ∧
    decodeOneWith b limits ≠ .error .panic ∧
    decodeOneFrom b limits = decodeOneWith b limits ∧
    carveAndDecode b limits = decodeOneWith b limits := by
  refine ⟨decodeOneWith_none_iff b limits, decodeOneWith_error_iff b limits, ?_,
    decodeOneWith_some_iff b limits, fun rest ↦ decodeOneWith_append_error b rest limits,
    fun rest ↦ decodeOneWith_append_some b rest limits, decodeOneWith_completable b limits,
    fun e p ↦ ⟨declaredLen_eq e p, declaredLen_mod_usize limits e p⟩,
    decodeOneWith_ne_panic b limits, decodeOneFrom_eq b limits, carveAndDecode_eq b limits⟩
  intro b' err hl hl' ht
  exact ⟨decodeOneWith_error_congr b b' limits hl hl' ht err,
    decodeOneWith_error_congr b' b limits hl' hl ht.symm err⟩

end Packet

end MsgTrans.Wire
