import MsgTrans.Adapters.Core
import MsgTrans.Base.Stream
import MsgTrans.Wire.Codec

/-!
# The QUIC reader and the batches of the writer

Model of `crates/msgtrans/src/adapters/quic.rs:617–733,988–1019`. A frame travels behind its
length in four big-endian bytes. The reader is given the bytes of the stream that have arrived:
`read_exact` waits for what is missing, and fails where the stream ends before it. The consumer
takes every packet and no shutdown is requested.
-/

namespace MsgTrans.Adapters.Quic

open MsgTrans.Wire MsgTrans.Base MsgTrans.Transport

/-- The packet of a frame, or how the task stops on it; `quic.rs:675–701`. -/
def decodeFrame (strict : Bool) (limits : DecodeLimits) (frame : Bytes) : Except Stop Packet :=
  if frame.length < 16 then
    if strict then .error (.closed (.error "Undecodable frame (strict policy)"))
    else .ok (Packet.oneWay 0 frame)
  else
    match Packet.decodeExactFrom frame limits with
    | .ok packet => .ok packet
    | .error .panic => .error .panicked
    | .error (.packet _) =>
      if strict then .error (.closed (.error "Undecodable frame (strict policy)"))
      else .ok (Packet.oneWay 0 frame)

/-- The length that the first four bytes announce, as a `usize`; `quic.rs:630`. -/
def frameLen (limits : DecodeLimits) (b : Bytes) : Nat :=
  (u32FromBeBytes (b.take 4)).toNat % 2 ^ limits.usizeBits

/-- One turn of the read loop on the bytes that are there; `quic.rs:627–709`. -/
def readFrame (strict : Bool) (limits : DecodeLimits) (b : Bytes) : Verdict Packet Stop :=
  if b.length < 4 then .more
  else if frameLen limits b > limits.maxFrameSize then
    .fail (.closed (.error "Frame too large"))
  else if b.length < 4 + frameLen limits b then .more
  else
    match decodeFrame strict limits ((b.drop 4).take (frameLen limits b)) with
    | .ok packet => .item packet (4 + frameLen limits b)
    | .error stop => .fail stop

section Frame

variable {strict : Bool} {limits : DecodeLimits} {b c : Bytes}

/-- The announced length stands on the first four bytes. -/
theorem frameLen_append (h : 4 ≤ b.length) : frameLen limits (b ++ c) = frameLen limits b := by
  rw [frameLen, frameLen, List.take_append_of_le_length h]

/-- A turn that takes a frame off, or stops on one, has all of it. -/
theorem readFrame_of_whole (strict : Bool) (c : Bytes) (h4 : 4 ≤ b.length)
    (hmax : frameLen limits b ≤ limits.maxFrameSize)
    (hlen : 4 + frameLen limits b ≤ b.length) :
    readFrame strict limits (b ++ c) =
      match decodeFrame strict limits ((b.drop 4).take (frameLen limits b)) with
      | .ok packet => .item packet (4 + frameLen limits b)
      | .error stop => .fail stop := by
  have hbody : ((b ++ c).drop 4).take (frameLen limits b) =
      (b.drop 4).take (frameLen limits b) := by
    rw [List.drop_append_of_le_length h4, List.take_append_of_le_length]
    rw [List.length_drop]
    omega
  rw [readFrame, if_neg, frameLen_append h4, if_neg, if_neg, hbody]
  · rw [List.length_append]
    omega
  · omega
  · rw [List.length_append]
    omega

/-- What a turn that did not wait has seen. -/
theorem readFrame_cases (h : readFrame strict limits b ≠ .more) :
    4 ≤ b.length ∧
      (limits.maxFrameSize < frameLen limits b ∧
          readFrame strict limits b = .fail (.closed (.error "Frame too large")) ∨
        frameLen limits b ≤ limits.maxFrameSize ∧ 4 + frameLen limits b ≤ b.length) := by
  unfold readFrame at h ⊢
  by_cases h4 : b.length < 4
  · rw [if_pos h4] at h
    exact absurd rfl h
  · rw [if_neg h4] at h ⊢
    constructor
    · omega
    · by_cases hmax : frameLen limits b > limits.maxFrameSize
      · exact .inl ⟨hmax, if_pos hmax⟩
      · rw [if_neg hmax] at h
        by_cases hlen : b.length < 4 + frameLen limits b
        · rw [if_pos hlen] at h
          exact absurd rfl h
        · exact .inr ⟨by omega, by omega⟩

/-- A turn that did not wait is not changed by what arrives later. -/
theorem readFrame_append (h : readFrame strict limits b ≠ .more) :
    readFrame strict limits (b ++ c) = readFrame strict limits b := by
  obtain ⟨h4, ⟨hmax, hfail⟩ | ⟨hmax, hlen⟩⟩ := readFrame_cases h
  · rw [hfail, readFrame, if_neg, frameLen_append h4, if_pos hmax]
    rw [List.length_append]
    omega
  · have hself := readFrame_of_whole strict [] h4 hmax hlen
    rw [List.append_nil] at hself
    rw [readFrame_of_whole strict c h4 hmax hlen, hself]

/-- A frame that is taken off is the announced one. -/
theorem readFrame_item {p : Packet} {n : Nat} (h : readFrame strict limits b = .item p n) :
    4 ≤ b.length ∧ n = 4 + frameLen limits b ∧ n ≤ b.length ∧
      frameLen limits b ≤ limits.maxFrameSize := by
  have hcases := readFrame_cases (by rw [h]; simp)
  obtain ⟨h4, ⟨hmax, hfail⟩ | ⟨hmax, hlen⟩⟩ := hcases
  · rw [hfail] at h
    cases h
  · have hself := readFrame_of_whole strict [] h4 hmax hlen
    rw [List.append_nil, h] at hself
    cases hd : decodeFrame strict limits ((b.drop 4).take (frameLen limits b)) with
    | error stop =>
      rw [hd] at hself
      cases hself
    | ok q =>
      rw [hd] at hself
      cases hself
      exact ⟨h4, rfl, hlen, hmax⟩

end Frame

/-- The read loop as a decoder of a stream. -/
def frameDecoder (strict : Bool) (limits : DecodeLimits) : Decoder UInt8 Packet Stop where
  next := readFrame strict limits
  item_pos := by
    intro b p n h
    have hitem := readFrame_item h
    omega
  item_le := by
    intro b p n h
    have hitem := readFrame_item h
    omega
  item_take := by
    intro b p n h
    obtain ⟨h4, rfl, hle, hmax⟩ := readFrame_item h
    have hlen : (b.take (4 + frameLen limits b)).length = 4 + frameLen limits b :=
      List.length_take_of_le hle
    have hfront : frameLen limits (b.take (4 + frameLen limits b)) = frameLen limits b := by
      rw [← frameLen_append (c := b.drop (4 + frameLen limits b)) (by omega),
        List.take_append_drop]
    have hwhole := fun c ↦ readFrame_of_whole strict c
      (b := b.take (4 + frameLen limits b)) (by omega) (hfront ▸ hmax) (by omega)
    have hshort := hwhole []
    have hall := hwhole (b.drop (4 + frameLen limits b))
    rw [List.append_nil] at hshort
    rw [List.take_append_drop, h] at hall
    rw [hshort, ← hall]
  item_append := by
    intro b p n c h
    rw [readFrame_append (by rw [h]; simp), h]
  fail_append := by
    intro b e c h
    rw [readFrame_append (by rw [h]; simp), h]

/-- The read task on the bytes that have arrived; `quic.rs:617–733`. A stream that has ended
closes the pipe normally where the next frame is missing. -/
def readTask (strict : Bool) (limits : DecodeLimits) (ended : Bool) (stream : Bytes) :
    List Packet × LoopEnd :=
  match (frameDecoder strict limits).run 0 stream with
  | (packets, .failed stop _) => (packets, .stopped stop)
  | (packets, .waiting rest) =>
    (packets, if ended then .stopped (.closed .normal) else .reading rest)

/-- What `prepare_quic_batch` leaves behind: the message ids and the completions of what it put
into the buffer, the buffer, and the completions it resolved on the way. -/
structure Batch where
  packetIds : List UInt32
  completions : List Nat
  writeBuf : Bytes
  resolved : List Resolution
  deriving DecidableEq

/-- The error of an item that cannot be encoded; `quic.rs:1001–1006`. -/
def encodeError (e : PacketError) : TransportError :=
  .protocol "quic" ("encode failed: " ++ e.display)

/-- `prepare_quic_batch`; `quic.rs:988–1019`. The length is cast to `u32`. -/
def prepareQuicBatch (writeBuf : Bytes) : List Outbound → Batch
  | [] => ⟨[], [], writeBuf, []⟩
  | item :: items =>
    match item.packet.tryEncode with
    | .error e =>
      let rest := prepareQuicBatch writeBuf items
      { rest with resolved := item.complete (.error (encodeError e)) ++ rest.resolved }
    | .ok data =>
      let rest := prepareQuicBatch
        (writeBuf ++ u32ToBeBytes (UInt32.ofNat data.length) ++ data) items
      { rest with
        packetIds := item.packet.header.messageId :: rest.packetIds
        completions := item.completion.toList ++ rest.completions }

/-- A packet's frame behind its length. -/
def lengthPrefixed (p : Packet) : Bytes :=
  u32ToBeBytes (UInt32.ofNat p.frame.length) ++ p.frame

/-- What an item that cannot be encoded resolves. -/
def refusal (item : Outbound) : List Resolution :=
  match item.packet.tryEncode with
  | .error e => item.complete (.error (encodeError e))
  | .ok _ => []

section Batch

variable {buf : Bytes} {item : Outbound}

theorem encodable_iff : item.encodable = true ↔ item.packet.tryEncode = .ok item.packet.frame := by
  unfold Outbound.encodable
  cases h : item.packet.tryEncode with
  | error e => simp [Except.toBool]
  | ok data =>
    obtain ⟨-, -, rfl⟩ := (Packet.tryEncode_ok_iff _ _).mp h
    simp [Except.toBool]

theorem encodable_false_iff : item.encodable = false ↔ ∃ e, item.packet.tryEncode = .error e := by
  unfold Outbound.encodable
  cases h : item.packet.tryEncode with
  | error e => simp [Except.toBool]
  | ok data => simp [Except.toBool]

/-- A batch is the length-prefixed frames of the encodable items, with their ids and completions
in order; the other items resolve their own completions. -/
theorem prepareQuicBatch_eq (buf : Bytes) (items : List Outbound) :
    prepareQuicBatch buf items =
      { packetIds := (items.filter Outbound.encodable).map (·.packet.header.messageId)
        completions := (items.filter Outbound.encodable).filterMap Outbound.completion
        writeBuf := buf ++
          ((items.filter Outbound.encodable).map (lengthPrefixed ·.packet)).flatten
        resolved := items.flatMap refusal } := by
  induction items generalizing buf with
  | nil => simp [prepareQuicBatch]
  | cons item items ih =>
    rw [prepareQuicBatch]
    cases henc : item.encodable with
    | true =>
      have hdata := encodable_iff.mp henc
      rw [hdata]
      simp only [ih, List.filter_cons, henc, ↓reduceIte, List.map_cons, List.flatten_cons,
        List.flatMap_cons, refusal, hdata, List.nil_append, lengthPrefixed, List.append_assoc]
      rw [List.filterMap_cons]
      cases item.completion <;> rfl
    | false =>
      obtain ⟨e, he⟩ := encodable_false_iff.1 henc
      rw [he]
      simp only [ih, List.filter_cons, henc, List.flatMap_cons, refusal, he]
      simp

end Batch

section Lossless

variable {limits : DecodeLimits} {p : Packet}

/-- A frame within a gigabyte keeps its length in the cast to `u32`. -/
theorem toNat_frame_length (h : p.frame.length < 2 ^ 32) :
    (UInt32.ofNat p.frame.length).toNat = p.frame.length :=
  UInt32.toNat_ofNat_of_lt' h

/-- An admitted packet's frame is short enough for its length field. -/
theorem frame_length_lt {t : Target} {capacity : Nat} (hcapacity : capacity ≤ 2 ^ 30)
    (h : Admitted t capacity p) : p.frame.length < 2 ^ 32 := by
  have hpow := two_pow_le t
  rw [Packet.length_frame]
  simp only [Admitted, chargeSize] at h
  omega

/-- The announced length of a length-prefixed frame. -/
theorem frameLen_lengthPrefixed (limits : DecodeLimits) (p : Packet) (c : Bytes) :
    frameLen limits (lengthPrefixed p ++ c) =
      (UInt32.ofNat p.frame.length).toNat % 2 ^ limits.usizeBits := by
  have h4 : (u32ToBeBytes (UInt32.ofNat p.frame.length)).length = 4 := length_u32ToBeBytes _
  rw [frameLen, lengthPrefixed, List.append_assoc, List.take_left' h4, u32FromBeBytes_toBeBytes]

/-- The reader takes a length-prefixed frame within the limits off as its packet. -/
theorem readFrame_lengthPrefixed (strict : Bool) (hfits : p.Fits limits)
    (hlt : p.frame.length < 2 ^ 32) (c : Bytes) :
    readFrame strict limits (lengthPrefixed p ++ c) = .item p (lengthPrefixed p).length := by
  have h4 : (u32ToBeBytes (UInt32.ofNat p.frame.length)).length = 4 := length_u32ToBeBytes _
  have hframe := hfits.frame
  have hlen := Packet.length_frame p
  have hself : frameLen limits (lengthPrefixed p) = p.frame.length := by
    have h := frameLen_lengthPrefixed limits p []
    rw [List.append_nil, toNat_frame_length hlt] at h
    rw [h]
    exact Nat.mod_eq_of_lt (by have := limits.maxFrameSize_lt; omega)
  have hprefixed : (lengthPrefixed p).length = 4 + p.frame.length := by
    rw [lengthPrefixed, List.length_append, h4]
  have hbody : ((lengthPrefixed p).drop 4).take p.frame.length = p.frame := by
    rw [lengthPrefixed, List.drop_left' h4, List.take_length]
  rw [readFrame_of_whole strict c (by omega) (by omega) (by omega), hself, hbody]
  simp only [decodeFrame, if_neg (by omega : ¬ p.frame.length < 16),
    Packet.decodeExactFrom_frame hfits, hprefixed]

/-- The buffers of a list of batches are those of one batch. -/
theorem writeBuf_batches (batches : List (List Outbound)) :
    (batches.map fun items ↦ (prepareQuicBatch [] items).writeBuf).flatten =
      (((batches.flatten.filter Outbound.encodable).map
        fun item ↦ (item.packet, lengthPrefixed item.packet)).map Prod.snd).flatten := by
  simp only [prepareQuicBatch_eq, List.nil_append, List.map_map]
  induction batches with
  | nil => rfl
  | cons items batches ih =>
    simp only [List.map_cons, List.flatten_cons, List.filter_append, List.map_append,
      List.flatten_append]
    rw [ih]
    rfl

end Lossless

/-- Batch framing is lossless: the buffers of any number of batches, read one after the other,
give the encodable packets in order with nothing left over; every length is the true one; the
completions kept for later are those of the written packets, and every other item resolves its
own with an error. -/
theorem quic_batches_lossless (t : Target) (capacity : Nat) (hcapacity : capacity ≤ 2 ^ 30)
    (strict : Bool) (limits : DecodeLimits) (batches : List (List Outbound))
    (hadmitted : ∀ items ∈ batches, ∀ item ∈ items, Admitted t capacity item.packet)
    (hlimits : ∀ items ∈ batches, ∀ item ∈ items, item.encodable = true →
      item.packet.Fits limits) :
    readTask strict limits false
        (batches.map fun items ↦ (prepareQuicBatch [] items).writeBuf).flatten =
      ((batches.flatten.filter Outbound.encodable).map Outbound.packet, .reading []) ∧
    ∀ items ∈ batches,
      (prepareQuicBatch [] items).writeBuf =
          ((items.filter Outbound.encodable).map fun item ↦
            u32ToBeBytes (UInt32.ofNat item.packet.frame.length) ++ item.packet.frame).flatten ∧
        (∀ item ∈ items, (UInt32.ofNat item.packet.frame.length).toNat =
          item.packet.frame.length) ∧
        (prepareQuicBatch [] items).completions =
          (items.filter Outbound.encodable).filterMap Outbound.completion ∧
        (prepareQuicBatch [] items).resolved = items.flatMap fun item ↦
          match item.packet.tryEncode with
          | .ok _ => []
          | .error e => item.completion.toList.map fun completion ↦
            (completion, .error (.protocol "quic" ("encode failed: " ++ e.display))) := by
  constructor
  · have hitems : ∀ f ∈ (batches.flatten.filter Outbound.encodable).map
        (fun item ↦ (item.packet, lengthPrefixed item.packet)), ∀ c,
        (frameDecoder strict limits).next (f.2 ++ c) = .item f.1 f.2.length := by
      intro f hf c
      obtain ⟨item, hitem, rfl⟩ := List.mem_map.mp hf
      obtain ⟨hmem, henc⟩ := List.mem_filter.mp hitem
      obtain ⟨items, hitems, hin⟩ := List.mem_flatten.mp hmem
      exact readFrame_lengthPrefixed strict (hlimits items hitems item hin henc)
        (frame_length_lt hcapacity (hadmitted items hitems item hin)) c
    have hnil : (frameDecoder strict limits).next [] = .more := rfl
    have hrun := Decoder.run_items 0 [] hitems
    rw [List.append_nil, Decoder.run_more _ hnil, List.append_nil] at hrun
    rw [readTask, writeBuf_batches, hrun, List.map_map]
    rfl
  · intro items hitems
    rw [prepareQuicBatch_eq]
    refine ⟨rfl, fun item hitem ↦ ?_, rfl, ?_⟩
    · exact toNat_frame_length (frame_length_lt hcapacity (hadmitted items hitems item hitem))
    · apply List.flatMap_congr
      intro item _
      rw [refusal]
      cases item.packet.tryEncode <;> rfl

theorem quic_batches_of_two :
    readTask true .default false
        ([[⟨Packet.oneWay 7 [1], some 3⟩], [⟨Packet.oneWay 8 [], none⟩]].map
          fun items ↦ (prepareQuicBatch [] items).writeBuf).flatten =
      ([Packet.oneWay 7 [1], Packet.oneWay 8 []], .reading []) := by
  refine (quic_batches_lossless ⟨64, by decide⟩ 1024 (by decide) true .default
    [[⟨Packet.oneWay 7 [1], some 3⟩], [⟨Packet.oneWay 8 [], none⟩]] ?_ ?_).1
  · simp [Admitted, chargeSize, Packet.oneWay, Packet.new]
  · intro items hitems item hitem _
    have hfits : ∀ p ∈ [Packet.oneWay 7 [1], Packet.oneWay 8 []], p.Fits .default := by
      intro p hp
      obtain rfl | rfl : p = Packet.oneWay 7 [1] ∨ p = Packet.oneWay 8 [] := by simpa using hp
      · exact ⟨rfl, by decide, by decide, by decide⟩
      · exact ⟨rfl, by decide, by decide, by decide⟩
    apply hfits
    simp only [List.mem_cons, List.not_mem_nil, or_false] at hitems
    obtain rfl | rfl := hitems
    · rw [List.mem_singleton.mp hitem]
      simp
    · rw [List.mem_singleton.mp hitem]
      simp

end MsgTrans.Adapters.Quic
