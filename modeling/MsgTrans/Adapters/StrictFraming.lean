import MsgTrans.Adapters.Tcp
import MsgTrans.Base.Stream

/-!
# Strict TCP framing against whole-stream decoding

Under the strict policy the read loop of `tcp.rs:563–590` is the codec's stream decoder fed in
pieces: it delivers what `decode_one_with` gives when it is applied to the whole stream again and
again, and it ends the same way, whatever the kernel makes of the chunks.
-/

namespace MsgTrans.Adapters.Tcp

open MsgTrans.Wire MsgTrans.Base

/-- `decode_one_with` as a decoder of a stream. -/
def packetDecoder (limits : DecodeLimits) : Decoder UInt8 Packet Fault where
  next := fun b ↦
    match Packet.decodeOneWith b limits with
    | .ok none => .more
    | .ok (some (packet, n)) => .item packet n
    | .error e => .fail e
  item_pos := by
    intro b p n h
    split at h
    next => cases h
    next hd =>
      cases h
      obtain ⟨_, e, l, -, -, hn, -⟩ := (Packet.decodeOneWith_some_iff _ _ _ _).mp hd
      rw [hn]
      exact Packet.totalLen_pos e l
    next => cases h
  item_le := by
    intro b p n h
    split at h
    next => cases h
    next hd =>
      cases h
      obtain ⟨-, -, -, -, -, -, hle, -⟩ := (Packet.decodeOneWith_some_iff _ _ _ _).mp hd
      exact hle
    next => cases h
  item_take := by
    intro b p n h
    split at h
    next => cases h
    next hd =>
      cases h
      rw [Packet.decodeOneWith_take hd]
    next => cases h
  item_append := by
    intro b p n c h
    split at h
    next => cases h
    next hd =>
      cases h
      rw [Packet.decodeOneWith_append_some b c limits _ _ hd]
    next => cases h
  fail_append := by
    intro b e c h
    split at h
    next => cases h
    next => cases h
    next f hd =>
      cases h
      cases e with
      | panic => exact absurd hd (Packet.decodeOneWith_ne_panic _ _)
      | packet err => rw [Packet.decodeOneWith_append_error b c limits err hd]

/-- Decode a whole stream by applying `decode_one_with` until it gives no packet. -/
def decodeStream (limits : DecodeLimits) (stream : Bytes) : List Packet × Ending UInt8 Fault :=
  (packetDecoder limits).run 0 stream

/-- The end of a decoded stream as the read loop reports it. -/
def ReadEnd.ofEnding : Ending UInt8 Fault → ReadEnd
  | .waiting rest => .reading rest
  | .failed (.packet e) position => .failed (.tcp (.packet e)) position
  | .failed .panic position => .failed .panic position

section Decoder

variable {limits : DecodeLimits} {b : Bytes}

theorem next_more_iff :
    (packetDecoder limits).next b = .more ↔ Packet.decodeOneWith b limits = .ok none := by
  simp only [packetDecoder]
  split <;> simp_all

theorem next_item_iff {p : Packet} {n : Nat} :
    (packetDecoder limits).next b = .item p n ↔
      Packet.decodeOneWith b limits = .ok (some (p, n)) := by
  simp only [packetDecoder]
  split <;> simp_all

theorem next_fail_iff {e : Fault} :
    (packetDecoder limits).next b = .fail e ↔ Packet.decodeOneWith b limits = .error e := by
  simp only [packetDecoder]
  split <;> simp_all

end Decoder

section Strict

/-- While the stream decoder does not fail, the reader parses what it decodes, under both
policies. -/
theorem parseAll_waiting (strict : Bool) {s : ReadBuffer} {position : Nat} {packets : List Packet}
    {rest : Bytes}
    (h : (packetDecoder s.decode).run position s.buffer = (packets, .waiting rest)) :
    s.parseAll strict = (packets,
      .ok { s with buffer := rest, parsedAny := s.parsedAny || !packets.isEmpty }) := by
  cases hn : (packetDecoder s.decode).next s.buffer with
  | more =>
    rw [Decoder.run_more _ hn] at h
    cases h
    have hmore := ReadBuffer.tryParseNextPacket_more strict (next_more_iff.mp hn)
    rw [ReadBuffer.parseAll_more hmore, List.isEmpty_nil, Bool.not_true, Bool.or_false]
  | fail e =>
    rw [Decoder.run_fail _ hn] at h
    cases h
  | item p n =>
    have hitem := ReadBuffer.tryParseNextPacket_item strict (next_item_iff.mp hn)
    rw [Decoder.run_item _ hn] at h
    obtain ⟨rfl, hend⟩ := Prod.mk.inj h
    have hlt := ReadBuffer.tryParseNextPacket_lt hitem
    have hrest := parseAll_waiting strict
      (s := { s with buffer := s.buffer.drop n, parsedAny := true }) (Prod.ext rfl hend)
    rw [ReadBuffer.parseAll_item hitem, hrest, List.isEmpty_cons, Bool.true_or, Bool.not_false,
      Bool.or_true]
termination_by s.buffer.length
decreasing_by exact hlt

/-- Where it fails, so does the strict reader. -/
theorem parseAll_failed {s : ReadBuffer} {position p : Nat} {packets : List Packet} {e : Fault}
    (h : (packetDecoder s.decode).run position s.buffer = (packets, .failed e p)) :
    ∃ err s', e = .packet err ∧ s.parseAll true = (packets, .error (.tcp (.packet err), s')) ∧
      s'.buffer.length ≤ s.buffer.length ∧
        p = position + (s.buffer.length - s'.buffer.length) := by
  cases hn : (packetDecoder s.decode).next s.buffer with
  | more =>
    rw [Decoder.run_more _ hn] at h
    cases h
  | fail e' =>
    rw [Decoder.run_fail _ hn] at h
    cases h
    have hd := next_fail_iff.mp hn
    cases e with
    | panic => exact absurd hd (Packet.decodeOneWith_ne_panic _ _)
    | packet err =>
      have hparse := ReadBuffer.tryParseNextPacket_strict hd
      exact ⟨err, s, rfl, ReadBuffer.parseAll_error hparse, le_rfl, by omega⟩
  | item q n =>
    have hitem := ReadBuffer.tryParseNextPacket_item true (next_item_iff.mp hn)
    have hle := (packetDecoder s.decode).item_le hn
    rw [Decoder.run_item _ hn] at h
    obtain ⟨rfl, hend⟩ := Prod.mk.inj h
    have hlt := ReadBuffer.tryParseNextPacket_lt hitem
    obtain ⟨err, s', rfl, hrest, hlen, rfl⟩ := parseAll_failed
      (s := { s with buffer := s.buffer.drop n, parsedAny := true }) (Prod.ext rfl hend)
    simp only [List.length_drop] at hlen
    refine ⟨err, s', rfl, by rw [ReadBuffer.parseAll_item hitem, hrest], by omega, ?_⟩
    simp only [List.length_drop]
    omega
termination_by s.buffer.length
decreasing_by exact hlt

/-- The strict read loop is the stream decoder fed with the chunks. -/
theorem readLoop_strict {s : ReadBuffer} {received : Nat} {chunks : List Bytes}
    (hreceived : s.buffer.length ≤ received) (hne : ∀ chunk ∈ chunks, chunk ≠ []) :
    readLoop true received s chunks =
      let fed := (packetDecoder s.decode).feed (received - s.buffer.length) s.buffer chunks
      (fed.1, .ofEnding fed.2) := by
  induction chunks generalizing received s with
  | nil => rfl
  | cons chunk chunks ih =>
    rw [readLoop, if_neg (hne chunk (by simp)), Decoder.feed]
    generalize hs : ({ s with buffer := s.buffer ++ chunk } : ReadBuffer) = s₀
    have hbuffer : s.buffer ++ chunk = s₀.buffer := by rw [← hs]
    have hdecode : s.decode = s₀.decode := by rw [← hs]
    have hlen : s₀.buffer.length = s.buffer.length + chunk.length := by
      rw [← hbuffer, List.length_append]
    rw [hbuffer, hdecode]
    cases hrun : (packetDecoder s₀.decode).run (received - s.buffer.length) s₀.buffer with
    | mk packets ending =>
      cases ending with
      | failed e p =>
        obtain ⟨err, s', rfl, hparse, hle, rfl⟩ := parseAll_failed hrun
        simp only [hparse, ReadEnd.ofEnding, Prod.mk.injEq, ReadEnd.failed.injEq, true_and]
        omega
      | waiting rest =>
        have hparse := parseAll_waiting true hrun
        obtain ⟨n, hn, rfl⟩ := Decoder.run_waiting hrun
        have hposition : received - s.buffer.length +
            (s₀.buffer.length - (s₀.buffer.drop n).length) =
              received + chunk.length - (s₀.buffer.drop n).length := by
          rw [List.length_drop]
          omega
        have hrest : (s₀.buffer.drop n).length ≤ received + chunk.length := by
          rw [List.length_drop]
          omega
        rw [hparse]
        simp only
        rw [ih hrest (fun c hc ↦ hne c (by simp [hc])), hposition]

end Strict

/-- From an empty buffer the strict loop decodes the whole stream. -/
theorem readLoop_strict_eq (limits : DecodeLimits) {chunks : List Bytes}
    (hne : ∀ chunk ∈ chunks, chunk ≠ []) :
    readLoop true 0 (.new limits) chunks =
      ((decodeStream limits chunks.flatten).1,
        .ofEnding (decodeStream limits chunks.flatten).2) := by
  have hnil : (packetDecoder limits).next [] = .more :=
    next_more_iff.mpr (Packet.decodeOneWith_of_short [] limits (by simp))
  rw [readLoop_strict (Nat.le_refl 0) hne]
  simp only [ReadBuffer.new, Decoder.feed_eq_run chunks hnil, List.nil_append, Nat.sub_self,
    List.length_nil, decodeStream]

/-- A stream of frames within the limits is decoded into their packets. -/
theorem decodeStream_frames (limits : DecodeLimits) (frames : List (Packet × Bytes))
    (h : ∀ f ∈ frames, f.1.Fits limits ∧ f.1.tryEncode = .ok f.2) :
    decodeStream limits (frames.map Prod.snd).flatten = (frames.map Prod.fst, .waiting []) := by
  have hnil : (packetDecoder limits).next [] = .more :=
    next_more_iff.mpr (Packet.decodeOneWith_of_short [] limits (by simp))
  have hitems : ∀ f ∈ frames, ∀ c,
      (packetDecoder limits).next (f.2 ++ c) = .item f.1 f.2.length := by
    intro f hf c
    obtain ⟨hfits, hencode⟩ := h f hf
    obtain ⟨-, -, hframe⟩ := (Packet.tryEncode_ok_iff f.1 f.2).mp hencode
    rw [next_item_iff, hframe]
    exact Packet.decodeOneWith_frame f.1 limits hfits c
  have hrun := Decoder.run_items 0 [] hitems
  rw [Decoder.run_more _ hnil, List.append_nil, List.append_nil] at hrun
  exact hrun

/-- Strict framing refines whole-stream decoding: for every decode limits and every way of
cutting a stream into non-empty chunks, the read loop delivers the packets of the whole stream
and ends as it does; and a stream of encoded packets is delivered as those packets. -/
theorem strict_framing_refines (limits : DecodeLimits) (chunks : List Bytes)
    (hne : ∀ chunk ∈ chunks, chunk ≠ []) :
    readLoop true 0 (.new limits) chunks =
      ((decodeStream limits chunks.flatten).1,
        .ofEnding (decodeStream limits chunks.flatten).2) ∧
    ∀ frames : List (Packet × Bytes), (∀ f ∈ frames, f.1.Fits limits ∧ f.1.tryEncode = .ok f.2) →
      chunks.flatten = (frames.map Prod.snd).flatten →
        readLoop true 0 (.new limits) chunks = (frames.map Prod.fst, .reading []) := by
  constructor
  · exact readLoop_strict_eq limits hne
  · intro frames hframes hflat
    rw [readLoop_strict_eq limits hne, hflat, decodeStream_frames limits frames hframes]
    rfl

theorem strict_framing_of_two_chunks :
    readLoop true 0 (.new .default) [[1, 0, 0], [0, 0, 0, 0, 7, 0, 0, 0, 0, 0, 0, 0, 0]] =
      ([Packet.oneWay 7 []], .reading []) := by
  have h := (strict_framing_refines .default
    [[1, 0, 0], [0, 0, 0, 0, 7, 0, 0, 0, 0, 0, 0, 0, 0]] (by simp)).2
      [(Packet.oneWay 7 [], [1, 0, 0, 0, 0, 0, 0, 7, 0, 0, 0, 0, 0, 0, 0, 0])]
  refine h (fun f hf ↦ ?_) rfl
  obtain rfl := List.mem_singleton.mp hf
  exact ⟨⟨rfl, by decide, by decide, by decide⟩, by decide⟩

end MsgTrans.Adapters.Tcp
