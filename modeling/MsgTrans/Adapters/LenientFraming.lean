import MsgTrans.Adapters.HeaderChecks
import MsgTrans.Adapters.StrictFraming

/-!
# Lenient TCP framing and the chunks of the kernel

Under the lenient policy a bad header after the first packet starts a scan of whatever is
buffered (`tcp.rs:203–234`). The comment there says that a scan which finds nothing in a small
buffer waits for more data, but the caller closes the connection (`tcp.rs:303–305`), so what the
loop delivers depends on how much of the stream arrived with the bad header. The streams on which
it does not depend on that are described here exactly.
-/

namespace MsgTrans.Adapters.Tcp

open MsgTrans.Wire MsgTrans.Base

/-- The front of the buffer is no header: version, compression or packet type is wrong. -/
def BadHeader (limits : DecodeLimits) (b : Bytes) : Prop :=
  ∃ e, Packet.decodeOneWith b limits = .error (.packet e) ∧ ReadBuffer.tooLarge e = false

/-- The front of the buffer is a header that declares too much. -/
def Oversized (limits : DecodeLimits) (b : Bytes) : Prop :=
  ∃ e, Packet.decodeOneWith b limits = .error (.packet e) ∧ ReadBuffer.tooLarge e = true

/-- However many of these bytes are buffered when the scan starts, it finds nothing to go on
with: the first valid header declares too much, or there is none and no more than the scan window
is buffered, or what follows the window is again of this kind. -/
def Stuck (limits : DecodeLimits) (u : Bytes) : Prop :=
  ∀ n, 16 ≤ n → (hle : n ≤ u.length) →
    match ReadBuffer.scan ⟨u.take n, true, limits⟩ with
    | some k => Oversized limits (u.drop k)
    | none => (hlong : maxResyncScanDistance < n) →
      Oversized limits (u.drop maxResyncScanDistance) ∨
        BadHeader limits (u.drop maxResyncScanDistance) ∧
          Stuck limits (u.drop maxResyncScanDistance)
termination_by u.length
decreasing_by
  rw [List.length_drop]
  simp only [maxResyncScanDistance] at hlong ⊢
  omega

/-- The connection is kept. -/
def ReadEnd.kept : ReadEnd → Bool
  | .reading _ => true
  | .eof | .failed .. => false

/-- What the loop delivered and whether it kept the connection. -/
def outcome (r : List Packet × ReadEnd) : List Packet × Bool := (r.1, r.2.kept)

/-- The chunks are a way of cutting the stream into non-empty reads. -/
def Cuts (chunks : List Bytes) (stream : Bytes) : Prop :=
  (∀ chunk ∈ chunks, chunk ≠ []) ∧ chunks.flatten = stream

/-- The lenient loop delivers the same packets and reaches the same verdict for any two ways of
cutting the stream. -/
def ChunkIndependent (limits : DecodeLimits) (stream : Bytes) : Prop :=
  ∀ chunks chunks', Cuts chunks stream → Cuts chunks' stream →
    outcome (readLoop false 0 (.new limits) chunks) =
      outcome (readLoop false 0 (.new limits) chunks')

/-- Wherever decoding of the stream stops at a bad header behind at least one packet, a scan
from there is stuck. -/
def Steady (limits : DecodeLimits) (stream : Bytes) : Prop :=
  ∀ e position, (decodeStream limits stream).2 = .failed (.packet e) position →
    ReadBuffer.tooLarge e = false → (decodeStream limits stream).1 ≠ [] →
      Stuck limits (stream.drop position)

section Headers

variable {limits : DecodeLimits} {b c : Bytes}

/-- An error stands on the first sixteen bytes. -/
theorem decodeOneWith_error_of_append {e : PacketError} (hl : 16 ≤ b.length)
    (h : Packet.decodeOneWith (b ++ c) limits = .error (.packet e)) :
    Packet.decodeOneWith b limits = .error (.packet e) := by
  refine Packet.decodeOneWith_error_congr (b ++ c) b limits ?_ hl
    (List.take_append_of_le_length hl) e h
  rw [List.length_append]
  omega

theorem length_of_error {e : PacketError}
    (h : Packet.decodeOneWith b limits = .error (.packet e)) : 16 ≤ b.length :=
  ((Packet.decodeOneWith_error_iff b limits).mp ⟨e, h⟩).1

/-- Where the scan sees a valid header, the codec can only refuse its lengths. -/
theorem tooLarge_of_isValidHeaderAt {s : ReadBuffer} {k : Nat} {e : PacketError}
    (hvalid : s.isValidHeaderAt k = true)
    (h : Packet.decodeOneWith (s.buffer.drop k) s.decode = .error (.packet e)) :
    ReadBuffer.tooLarge e = true := by
  have hl := length_of_error h
  have hn := ((Packet.decodeOneWith_error_iff _ _).mp ⟨e, h⟩).2
  obtain ⟨err, hverdict, herr⟩ := Packet.decodeOneWith_of_reject _ _ hl hn
  rw [h] at herr
  cases herr
  obtain ⟨hd, el, pl, hh, -⟩ := (isValidHeaderAt_iff s k).mp hvalid
  obtain ⟨declared, limit, rfl⟩ := headerVerdict_tooLarge hh hverdict
  rfl

/-- A header the scan sees in a prefix it also sees in a longer one. -/
theorem isValidHeaderAt_append {k : Nat} {any : Bool}
    (h : ReadBuffer.isValidHeaderAt ⟨b, any, limits⟩ k = true) :
    ReadBuffer.isValidHeaderAt ⟨b ++ c, any, limits⟩ k = true := by
  have hlen : k + 16 ≤ b.length := by
    by_contra hlt
    rw [ReadBuffer.isValidHeaderAt, if_pos (by simp only; omega)] at h
    cases h
  have hbytes : ((b ++ c).drop k).take 16 = (b.drop k).take 16 := by
    rw [List.drop_append_of_le_length (by omega),
      List.take_append_of_le_length (by rw [List.length_drop]; omega)]
  unfold ReadBuffer.isValidHeaderAt at h ⊢
  rw [if_neg (by simp only; omega)] at h
  rw [if_neg (by simp only [List.length_append]; omega)]
  simp only [hbytes]
  exact h

/-- A scan that finds nothing in a buffer finds nothing in a prefix of it. -/
theorem scan_none_of_append {any : Bool} (h : ReadBuffer.scan ⟨b ++ c, any, limits⟩ = none) :
    ReadBuffer.scan ⟨b, any, limits⟩ = none := by
  cases hb : ReadBuffer.scan ⟨b, any, limits⟩ with
  | none => rfl
  | some k =>
    obtain ⟨hpos, hwindow, hlen, hvalid⟩ := ReadBuffer.scan_some hb
    simp only at hlen
    have hmem : k ∈ List.range' 1 (min (b ++ c).length maxResyncScanDistance - 1) := by
      rw [List.mem_range'_1, List.length_append]
      omega
    exact absurd (isValidHeaderAt_append hvalid) (List.find?_eq_none.mp h k hmem)

end Headers

/-- The loop from a buffer that was just filled: parse it, then read on. -/
def proceed (received : Nat) (s : ReadBuffer) (chunks : List Bytes) : List Packet × ReadEnd :=
  match s.parseAll false with
  | (packets, .error (e, s')) => (packets, .failed e (received - s'.buffer.length))
  | (packets, .ok s') =>
    let rest := readLoop false received s' chunks
    (packets ++ rest.1, rest.2)

section Proceed

variable {s : ReadBuffer} {received : Nat} {chunks : List Bytes}

theorem readLoop_cons {chunk : Bytes} (hne : chunk ≠ []) :
    readLoop false received s (chunk :: chunks) =
      proceed (received + chunk.length) { s with buffer := s.buffer ++ chunk } chunks := by
  rw [readLoop, if_neg hne]
  rfl

theorem proceed_item {p : Packet} {n : Nat}
    (h : Packet.decodeOneWith s.buffer s.decode = .ok (some (p, n))) :
    proceed received s chunks =
      (p :: (proceed received { s with buffer := s.buffer.drop n, parsedAny := true } chunks).1,
        (proceed received { s with buffer := s.buffer.drop n, parsedAny := true } chunks).2) := by
  rw [proceed, ReadBuffer.parseAll_item (ReadBuffer.tryParseNextPacket_item false h), proceed]
  cases ReadBuffer.parseAll false { s with buffer := s.buffer.drop n, parsedAny := true } with
  | mk packets result => cases result <;> rfl

theorem proceed_more (h : Packet.decodeOneWith s.buffer s.decode = .ok none) :
    proceed received s chunks = readLoop false received s chunks := by
  rw [proceed, ReadBuffer.parseAll_more (ReadBuffer.tryParseNextPacket_more false h)]
  rfl

theorem outcome_proceed_error {e : ReadFault} {s' : ReadBuffer}
    (h : s.tryParseNextPacket false = (.error e, s')) :
    outcome (proceed received s chunks) = ([], false) := by
  rw [proceed, ReadBuffer.parseAll_error h]
  rfl

theorem outcome_proceed_oversized (h : Oversized s.decode s.buffer) :
    outcome (proceed received s chunks) = ([], false) := by
  obtain ⟨e, hd, he⟩ := h
  exact outcome_proceed_error (ReadBuffer.tryParseNextPacket_tooLarge false he hd)

/-- Two buffers with the same next packet are parsed alike. -/
private theorem parseAll_congr {s' : ReadBuffer}
    (h : s.tryParseNextPacket false = s'.tryParseNextPacket false) :
    s.parseAll false = s'.parseAll false := by
  cases hp : s'.tryParseNextPacket false with
  | mk result s'' =>
    rw [hp] at h
    cases result with
    | error e => rw [ReadBuffer.parseAll_error h, ReadBuffer.parseAll_error hp]
    | ok r =>
      cases r with
      | none => rw [ReadBuffer.parseAll_more h, ReadBuffer.parseAll_more hp]
      | some p => rw [ReadBuffer.parseAll_item h, ReadBuffer.parseAll_item hp]

/-- A bad header is resynchronised from, or closes the connection. -/
theorem proceed_bad (received : Nat) (chunks : List Bytes) (h : BadHeader s.decode s.buffer)
    (hany : s.parsedAny = true) :
    match s.tryResyncFrame with
    | (true, s') => proceed received s chunks = proceed received s' chunks
    | (false, _) => outcome (proceed received s chunks) = ([], false) := by
  obtain ⟨e, hd, he⟩ := h
  have hparse := ReadBuffer.tryParseNextPacket_resync he hany hd
  cases hr : s.tryResyncFrame with
  | mk resynced s' =>
    rw [hr] at hparse
    cases resynced with
    | false => exact outcome_proceed_error hparse
    | true =>
      simp only at hparse ⊢
      rw [proceed, proceed, parseAll_congr hparse]

/-- Once the connection is closed, further chunks change nothing. -/
theorem outcome_proceed_closed (h : (outcome (proceed received s [])).2 = false) :
    outcome (proceed received s chunks) = outcome (proceed received s []) := by
  unfold proceed at h ⊢
  cases hp : s.parseAll false with
  | mk packets result =>
    rw [hp] at h
    cases result with
    | error r => rfl
    | ok s' => cases h

end Proceed

section Stuck

variable {limits : DecodeLimits} {u b : Bytes}

/-- One step of a stuck scan over a buffered prefix. -/
theorem Stuck.scan (h : Stuck limits u) {n : Nat} (hn : 16 ≤ n) (hle : n ≤ u.length) :
    (∀ k, ReadBuffer.scan ⟨u.take n, true, limits⟩ = some k → Oversized limits (u.drop k)) ∧
    (ReadBuffer.scan ⟨u.take n, true, limits⟩ = none → maxResyncScanDistance < n →
      Oversized limits (u.drop maxResyncScanDistance) ∨
        BadHeader limits (u.drop maxResyncScanDistance) ∧
          Stuck limits (u.drop maxResyncScanDistance)) := by
  rw [Stuck] at h
  have hstep := h n hn hle
  constructor
  · intro k hk
    rwa [hk] at hstep
  · intro hnone
    rwa [hnone] at hstep

/-- A scan that is not stuck goes on from some buffered prefix. -/
theorem exists_of_not_stuck (h : ¬ Stuck limits u) :
    ∃ n, 16 ≤ n ∧ n ≤ u.length ∧
      ((∃ k, ReadBuffer.scan ⟨u.take n, true, limits⟩ = some k ∧ ¬ Oversized limits (u.drop k)) ∨
        ReadBuffer.scan ⟨u.take n, true, limits⟩ = none ∧ maxResyncScanDistance < n ∧
          ¬ Oversized limits (u.drop maxResyncScanDistance) ∧
            (BadHeader limits (u.drop maxResyncScanDistance) →
              ¬ Stuck limits (u.drop maxResyncScanDistance))) := by
  rw [Stuck] at h
  push Not at h
  obtain ⟨n, hn, hle, hstep⟩ := h
  refine ⟨n, hn, hle, ?_⟩
  cases hscan : ReadBuffer.scan ⟨u.take n, true, limits⟩ with
  | some k =>
    rw [hscan] at hstep
    exact .inl ⟨k, rfl, hstep⟩
  | none =>
    rw [hscan] at hstep
    push Not at hstep
    exact .inr ⟨rfl, hstep⟩

/-- A buffer of sixteen bytes is stuck: a scan starts behind its front. -/
theorem stuck_of_length (h : u.length ≤ 16) : Stuck limits u := by
  rw [Stuck]
  intro n hn hle
  cases hscan : ReadBuffer.scan ⟨u.take n, true, limits⟩ with
  | some k =>
    obtain ⟨hpos, -, hlen, -⟩ := ReadBuffer.scan_some hscan
    simp only [List.length_take] at hlen
    omega
  | none =>
    intro hlong
    rw [maxResyncScanDistance] at hlong
    omega

end Stuck

/-- The bytes end in a verdict of the codec that no scan can turn around. -/
def Doomed (limits : DecodeLimits) (u : Bytes) : Prop :=
  Oversized limits u ∨ BadHeader limits u ∧ Stuck limits u

theorem Doomed.length_le {limits : DecodeLimits} {u : Bytes} (h : Doomed limits u) :
    16 ≤ u.length := by
  obtain ⟨e, hd, -⟩ | ⟨⟨e, hd, -⟩, -⟩ := h
  · exact length_of_error hd
  · exact length_of_error hd

/-- Behind a packet, bytes of this kind close the connection however they arrive. -/
theorem outcome_proceed_doomed {limits : DecodeLimits} {b : Bytes} {received : Nat}
    {chunks : List Bytes} (hne : ∀ chunk ∈ chunks, chunk ≠ [])
    (h : Doomed limits (b ++ chunks.flatten)) :
    outcome (proceed received ⟨b, true, limits⟩ chunks) = ([], false) := by
  by_cases hshort : b.length < 16
  · cases hchunks : chunks with
    | nil =>
      have hlen := h.length_le
      rw [hchunks, List.flatten_nil, List.append_nil] at hlen
      omega
    | cons chunk rest =>
      rw [hchunks] at hne h
      rw [proceed_more (Packet.decodeOneWith_of_short b limits hshort),
        readLoop_cons (hne chunk (by simp))]
      refine outcome_proceed_doomed (fun c hc ↦ hne c (by simp [hc])) ?_
      rwa [List.flatten_cons, ← List.append_assoc] at h
  have hlong : 16 ≤ b.length := by omega
  have hfront : (b ++ chunks.flatten).take b.length = b := List.take_left
  have hlen : b.length ≤ (b ++ chunks.flatten).length := by
    rw [List.length_append]
    omega
  obtain ⟨e, hd, he⟩ | ⟨⟨e, hd, he⟩, hstuck⟩ := h
  · exact outcome_proceed_oversized ⟨e, decodeOneWith_error_of_append hlong hd, he⟩
  · have hscan := hstuck.scan hlong hlen
    rw [hfront] at hscan
    have hbad := proceed_bad (s := ⟨b, true, limits⟩) received chunks
      ⟨e, decodeOneWith_error_of_append hlong hd, he⟩ rfl
    unfold ReadBuffer.tryResyncFrame at hbad
    cases hk : ReadBuffer.scan ⟨b, true, limits⟩ with
    | some k =>
      obtain ⟨-, -, hin, -⟩ := ReadBuffer.scan_some hk
      simp only at hin
      obtain ⟨e', hd', he'⟩ := hscan.1 k hk
      rw [List.drop_append_of_le_length (by omega)] at hd'
      rw [hk] at hbad
      simp only at hbad
      rw [hbad]
      refine outcome_proceed_oversized ⟨e', decodeOneWith_error_of_append ?_ hd', he'⟩
      rw [List.length_drop]
      omega
    | none =>
      rw [hk] at hbad
      simp only at hbad
      by_cases hover : b.length > maxResyncScanDistance
      · have hrest := hscan.2 hk hover
        rw [List.drop_append_of_le_length (by omega)] at hrest
        rw [if_pos hover] at hbad
        simp only at hbad
        rw [hbad]
        exact outcome_proceed_doomed hne hrest
      · rw [if_neg hover] at hbad
        exact hbad
termination_by (b.length + chunks.flatten.length, chunks.length)
decreasing_by
  · rw [hchunks]
    apply Prod.Lex.right'
    · simp only [List.length_append, List.flatten_cons]
      omega
    · simp
  · apply Prod.Lex.left
    simp only [List.length_drop, maxResyncScanDistance] at hover ⊢
    omega

/-- Bytes the codec does not refuse deliver a packet or keep the connection. -/
theorem outcome_proceed_alive {limits : DecodeLimits} {b : Bytes} {any : Bool} {received : Nat}
    {chunks : List Bytes} (hne : ∀ chunk ∈ chunks, chunk ≠ [])
    (h : ∀ e, Packet.decodeOneWith (b ++ chunks.flatten) limits ≠ .error e) :
    outcome (proceed received ⟨b, any, limits⟩ chunks) ≠ ([], false) := by
  induction chunks generalizing b received with
  | nil =>
    rw [List.flatten_nil, List.append_nil] at h
    cases hd : Packet.decodeOneWith b limits with
    | error e => exact absurd hd (h e)
    | ok r =>
      cases r with
      | none =>
        rw [proceed_more hd]
        simp [readLoop, outcome, ReadEnd.kept]
      | some r =>
        rw [proceed_item hd]
        simp [outcome]
  | cons chunk chunks ih =>
    cases hd : Packet.decodeOneWith b limits with
    | error e =>
      cases e with
      | panic => exact absurd hd (Packet.decodeOneWith_ne_panic _ _)
      | packet e => exact absurd (Packet.decodeOneWith_append_error b _ limits e hd) (h _)
    | ok r =>
      cases r with
      | some r =>
        rw [proceed_item hd]
        simp [outcome]
      | none =>
        rw [proceed_more hd, readLoop_cons (hne chunk (by simp))]
        refine ih (fun c hc ↦ hne c (by simp [hc])) ?_
        rwa [List.flatten_cons, ← List.append_assoc] at h

/-- The end of the decoded stream keeps the connection. -/
def keeps : Ending UInt8 Fault → Bool
  | .waiting _ => true
  | .failed .. => false

/-- From a buffer in the middle of a stream: where decoding stops at a bad header behind a
packet, a scan from there is stuck. -/
def SteadyFrom (limits : DecodeLimits) (any : Bool) (position : Nat) (u : Bytes) : Prop :=
  ∀ e n, ((packetDecoder limits).run position u).2 = .failed (.packet e) (position + n) →
    ReadBuffer.tooLarge e = false →
      any = true ∨ ((packetDecoder limits).run position u).1 ≠ [] → Stuck limits (u.drop n)

/-- On such a stream the loop delivers what the stream decoder delivers and keeps the connection
when it does not fail. -/
theorem outcome_proceed_steady {limits : DecodeLimits} {b : Bytes} {any : Bool}
    (received : Nat) {position : Nat} {chunks : List Bytes} (hne : ∀ chunk ∈ chunks, chunk ≠ [])
    (h : SteadyFrom limits any position (b ++ chunks.flatten)) :
    outcome (proceed received ⟨b, any, limits⟩ chunks) =
      (((packetDecoder limits).run position (b ++ chunks.flatten)).1,
        keeps ((packetDecoder limits).run position (b ++ chunks.flatten)).2) := by
  cases hd : Packet.decodeOneWith b limits with
  | error f =>
    cases f with
    | panic => exact absurd hd (Packet.decodeOneWith_ne_panic _ _)
    | packet e =>
      have hall := Packet.decodeOneWith_append_error b chunks.flatten limits e hd
      have hrun := Decoder.run_fail position (next_fail_iff.mpr hall)
      rw [hrun]
      cases he : ReadBuffer.tooLarge e with
      | true => exact outcome_proceed_oversized ⟨e, hd, he⟩
      | false =>
        cases any with
        | false => exact outcome_proceed_error (ReadBuffer.tryParseNextPacket_first he rfl hd)
        | true =>
          have hstuck := h e 0 (by rw [hrun]; rfl) he (.inl rfl)
          exact outcome_proceed_doomed hne (.inr ⟨⟨e, hall, he⟩, hstuck⟩)
  | ok r =>
    cases r with
    | some r =>
      obtain ⟨p, n⟩ := r
      have hnext := next_item_iff.mpr hd
      have hpos := (packetDecoder limits).item_pos hnext
      have hle := (packetDecoder limits).item_le hnext
      have hrun := Decoder.run_item position
        ((packetDecoder limits).item_append chunks.flatten hnext)
      have hsteady : SteadyFrom limits true (position + n) (b.drop n ++ chunks.flatten) := by
        intro e m hend he _
        rw [← List.drop_append_of_le_length hle] at hend ⊢
        rw [List.drop_drop]
        refine h e (n + m) ?_ he (.inr ?_)
        · rw [hrun, hend, Nat.add_assoc]
        · rw [hrun]
          simp
      have hrest := outcome_proceed_steady received hne hsteady
      obtain ⟨hpackets, hkept⟩ := Prod.mk.inj hrest
      rw [proceed_item hd, hrun, List.drop_append_of_le_length hle, ← hpackets, ← hkept]
      rfl
    | none =>
      rw [proceed_more hd]
      cases hchunks : chunks with
      | nil =>
        rw [List.flatten_nil, List.append_nil, Decoder.run_more _ (next_more_iff.mpr hd)]
        rfl
      | cons chunk rest =>
        rw [hchunks] at hne h
        rw [readLoop_cons (hne chunk (by simp)), List.flatten_cons, ← List.append_assoc]
        rw [List.flatten_cons, ← List.append_assoc] at h
        exact outcome_proceed_steady _ (fun c hc ↦ hne c (by simp [hc])) h
termination_by (b.length + chunks.flatten.length, chunks.length)
decreasing_by
  · rw [hchunks]
    apply Prod.Lex.right'
    · simp only [List.length_append, List.flatten_cons]
      omega
    · simp
  · apply Prod.Lex.left
    rw [List.length_drop]
    omega

/-- The rest of a stream as a last chunk, if there is any. -/
private def remainder (u : Bytes) : List Bytes := if u = [] then [] else [u]

private theorem cuts_remainder (u : Bytes) : Cuts (remainder u) u := by
  unfold remainder
  split
  next hu => exact ⟨by simp, hu.symm⟩
  next hu => exact ⟨by simpa using hu, by simp⟩

theorem Cuts.cons {chunk u : Bytes} {chunks : List Bytes} (hne : chunk ≠ [])
    (h : Cuts chunks u) : Cuts (chunk :: chunks) (chunk ++ u) :=
  ⟨by simpa [hne] using h.1, by rw [List.flatten_cons, h.2]⟩

/-- A chunk that fills the buffer up to `n` bytes of the stream. -/
private theorem fill {u : Bytes} {m n : Nat} (hm : m < n) (hle : n ≤ u.length) :
    (u.take n).drop m ≠ [] ∧ u.take m ++ (u.take n).drop m = u.take n ∧
      u.drop m = (u.take n).drop m ++ u.drop n := by
  have hlen : (u.take n).length = n := List.length_take_of_le hle
  refine ⟨fun hnil ↦ ?_, ?_, ?_⟩
  · have hzero := congrArg List.length hnil
    rw [List.length_drop, hlen, List.length_nil] at hzero
    omega
  · have hfront : u.take m = (u.take n).take m := by
      rw [List.take_take, Nat.min_eq_left (by omega)]
    rw [hfront, List.take_append_drop]
  · rw [← List.drop_append_of_le_length (by omega), List.take_append_drop]

/-- Dropping from a prefix and reading on is dropping from the whole. -/
private theorem drop_take_append {u : Bytes} {k n : Nat} (hk : k ≤ n) (hle : n ≤ u.length) :
    (u.take n).drop k ++ u.drop n = u.drop k := by
  rw [← List.drop_append_of_le_length (by rw [List.length_take]; omega), List.take_append_drop]

/-- Filling a buffer up to a bad header reads on behind the bytes its scan skips. -/
private theorem readLoop_fill {limits : DecodeLimits} {u : Bytes} {m n k : Nat}
    (received : Nat) (chunks : List Bytes) (hm : m < n) (hn : 16 ≤ n) (hle : n ≤ u.length)
    (hbad : BadHeader limits u)
    (hskip : ReadBuffer.tryResyncFrame ⟨u.take n, true, limits⟩ =
      (true, ⟨(u.take n).drop k, true, limits⟩)) :
    readLoop false received ⟨u.take m, true, limits⟩ ((u.take n).drop m :: chunks) =
      proceed (received + ((u.take n).drop m).length) ⟨(u.take n).drop k, true, limits⟩ chunks := by
  obtain ⟨hchunk, hbuffer, -⟩ := fill hm hle
  obtain ⟨e, hd, he⟩ := hbad
  have hfront : BadHeader limits (u.take n) := by
    refine ⟨e, decodeOneWith_error_of_append (c := u.drop n) ?_ ?_, he⟩
    · rw [List.length_take]
      omega
    · rwa [List.take_append_drop]
  have hresync := proceed_bad (s := ⟨u.take n, true, limits⟩)
    (received + ((u.take n).drop m).length) chunks hfront rfl
  rw [hskip] at hresync
  rw [readLoop_cons hchunk]
  simp only [hbuffer]
  exact hresync

/-- A bad header whose scan is not stuck can arrive so that the connection goes on. -/
theorem exists_cuts_of_not_stuck {limits : DecodeLimits} {u : Bytes} {m : Nat} (hm : m < 16)
    (hbad : BadHeader limits u) (hstuck : ¬ Stuck limits u) :
    ∃ chunks, Cuts chunks (u.drop m) ∧ ∀ received,
      outcome (readLoop false received ⟨u.take m, true, limits⟩ chunks) ≠ ([], false) := by
  obtain ⟨n, hn, hle, ⟨k, hk, hover⟩ | ⟨hnone, hlong, hover, hnext⟩⟩ := exists_of_not_stuck hstuck
  · -- The scan of the first `n` bytes finds a header that the codec accepts.
    obtain ⟨hchunk, -, hsplit⟩ := fill (m := m) (by omega : m < n) hle
    obtain ⟨-, -, hin, hvalid⟩ := ReadBuffer.scan_some hk
    simp only [List.length_take] at hin
    have hskip : ReadBuffer.tryResyncFrame ⟨u.take n, true, limits⟩ =
        (true, ⟨(u.take n).drop k, true, limits⟩) := by
      rw [ReadBuffer.tryResyncFrame, hk]
    refine ⟨(u.take n).drop m :: remainder (u.drop n),
      by rw [hsplit]; exact (cuts_remainder _).cons hchunk, fun received ↦ ?_⟩
    rw [readLoop_fill _ _ (by omega) hn hle hbad hskip]
    refine outcome_proceed_alive (cuts_remainder _).1 fun f hf ↦ ?_
    rw [(cuts_remainder _).2, drop_take_append (by omega) hle] at hf
    cases f with
    | panic => exact Packet.decodeOneWith_ne_panic _ _ hf
    | packet e =>
      have hwhole := isValidHeaderAt_append (c := u.drop n) hvalid
      rw [List.take_append_drop] at hwhole
      exact hover ⟨e, hf, tooLarge_of_isValidHeaderAt hwhole hf⟩
  · -- The scan gives up the window; one byte behind it is enough for that.
    have hone : maxResyncScanDistance + 1 ≤ u.length := by omega
    have hm' : m < maxResyncScanDistance + 1 := by
      rw [maxResyncScanDistance]
      omega
    have hnone' : ReadBuffer.scan ⟨u.take (maxResyncScanDistance + 1), true, limits⟩ = none := by
      refine scan_none_of_append (c := (u.take n).drop (maxResyncScanDistance + 1)) ?_
      have hfront : u.take (maxResyncScanDistance + 1) =
          (u.take n).take (maxResyncScanDistance + 1) := by
        rw [List.take_take, Nat.min_eq_left (by omega)]
      rwa [hfront, List.take_append_drop]
    have hskip : ReadBuffer.tryResyncFrame ⟨u.take (maxResyncScanDistance + 1), true, limits⟩ =
        (true, ⟨(u.take (maxResyncScanDistance + 1)).drop maxResyncScanDistance, true,
          limits⟩) := by
      rw [ReadBuffer.tryResyncFrame, hnone']
      simp only
      rw [if_pos (by rw [List.length_take]; omega)]
    obtain ⟨hchunk, -, hsplit⟩ := fill hm' hone
    have hbuffer : (u.take (maxResyncScanDistance + 1)).drop maxResyncScanDistance =
        (u.drop maxResyncScanDistance).take 1 := by
      rw [List.drop_take, Nat.add_sub_cancel_left]
    have hread := fun received chunks ↦ readLoop_fill received chunks
      hm' (by rw [maxResyncScanDistance]; omega) hone hbad hskip
    rw [hbuffer] at hread
    rw [hsplit, ← List.drop_drop]
    by_cases hclean : ∀ e, Packet.decodeOneWith (u.drop maxResyncScanDistance) limits ≠ .error e
    · refine ⟨_ :: remainder ((u.drop maxResyncScanDistance).drop 1),
        (cuts_remainder _).cons hchunk, fun received ↦ ?_⟩
      rw [hread]
      refine outcome_proceed_alive (cuts_remainder _).1 ?_
      rwa [(cuts_remainder _).2, List.take_append_drop]
    · have hbad' : BadHeader limits (u.drop maxResyncScanDistance) := by
        push Not at hclean
        obtain ⟨f, hf⟩ := hclean
        cases f with
        | panic => exact absurd hf (Packet.decodeOneWith_ne_panic _ _)
        | packet e =>
          cases he : ReadBuffer.tooLarge e with
          | true => exact absurd ⟨e, hf, he⟩ hover
          | false => exact ⟨e, hf, he⟩
      obtain ⟨chunks, hcuts, hgoes⟩ :=
        exists_cuts_of_not_stuck (m := 1) (by omega) hbad' (hnext hbad')
      refine ⟨_ :: chunks, hcuts.cons hchunk, fun received ↦ ?_⟩
      have hshort : ((u.drop maxResyncScanDistance).take 1).length < 16 := by
        rw [List.length_take]
        omega
      rw [hread, proceed_more (Packet.decodeOneWith_of_short _ limits hshort)]
      exact hgoes _
termination_by u.length
decreasing_by
  rw [List.length_drop]
  simp only [maxResyncScanDistance] at hone ⊢
  omega

/-- The loop from the start of the stream is the loop from an empty buffer. -/
theorem readLoop_new {limits : DecodeLimits} {chunks : List Bytes} :
    readLoop false 0 (.new limits) chunks = proceed 0 ⟨[], false, limits⟩ chunks := by
  rw [proceed_more (Packet.decodeOneWith_of_short [] limits (by simp))]
  rfl

theorem outcome_of_steady {limits : DecodeLimits} {stream : Bytes} {chunks : List Bytes}
    (h : Steady limits stream) (hcuts : Cuts chunks stream) :
    outcome (readLoop false 0 (.new limits) chunks) =
      ((decodeStream limits stream).1, keeps (decodeStream limits stream).2) := by
  have hfrom : SteadyFrom limits false 0 ([] ++ chunks.flatten) := by
    intro e n hend he hsome
    rw [List.nil_append, hcuts.2, Nat.zero_add] at *
    exact h e n hend he (hsome.resolve_left (by simp))
  rw [readLoop_new, outcome_proceed_steady _ hcuts.1 hfrom, List.nil_append, hcuts.2]
  rfl

/-- A bad header that arrives alone closes the connection. -/
theorem outcome_of_short_read {limits : DecodeLimits} {stream : Bytes} {packets : List Packet}
    {e : PacketError} {n : Nat} (hn : n + 16 ≤ stream.length)
    (hfront : (packetDecoder limits).run 0 (stream.take n) = (packets, .waiting []))
    (hbad : Packet.decodeOneWith (stream.drop n) limits = .error (.packet e)) :
    ∃ chunks, Cuts chunks stream ∧
      outcome (readLoop false 0 (.new limits) chunks) = (packets, false) := by
  have hlen : (stream.take (n + 16)).length = n + 16 := List.length_take_of_le hn
  have hne : stream.take (n + 16) ≠ [] := by
    intro hnil
    rw [hnil] at hlen
    cases hlen
  have hfail : (packetDecoder limits).next ((stream.drop n).take 16) = .fail (.packet e) := by
    refine next_fail_iff.mpr (decodeOneWith_error_of_append (c := (stream.drop n).drop 16) ?_ ?_)
    · rw [List.length_take, List.length_drop]
      omega
    · rwa [List.take_append_drop]
  have hrun : (packetDecoder limits).run 0 (stream.take (n + 16)) =
      (packets, .failed (.packet e) n) := by
    rw [List.take_add, Decoder.run_append_of_waiting _ hfront, List.nil_append,
      Decoder.run_fail _ hfail, List.append_nil, List.length_take_of_le (by omega)]
    simp
  have hsteady : SteadyFrom limits false 0 (stream.take (n + 16) ++ [].flatten) := by
    intro e' m hend _ _
    rw [List.flatten_nil, List.append_nil] at hend ⊢
    rw [hrun] at hend
    cases hend
    refine stuck_of_length ?_
    rw [List.length_drop, hlen]
    omega
  have hclosed := outcome_proceed_steady (0 + (stream.take (n + 16)).length)
    (by simp) hsteady
  rw [List.flatten_nil, List.append_nil, hrun] at hclosed
  refine ⟨stream.take (n + 16) :: remainder (stream.drop (n + 16)), ?_, ?_⟩
  · have hcuts := (cuts_remainder (stream.drop (n + 16))).cons hne
    rwa [List.take_append_drop] at hcuts
  · rw [readLoop_cons hne]
    simp only [ReadBuffer.new, List.nil_append]
    rw [outcome_proceed_closed (by rw [hclosed]; rfl), hclosed]
    rfl

/-- A bad header behind packets whose scan is not stuck can arrive so that the connection goes
on. -/
theorem outcome_of_long_read {limits : DecodeLimits} {stream : Bytes} {packets : List Packet}
    {n : Nat} (hsome : packets ≠ [])
    (hfront : (packetDecoder limits).run 0 (stream.take n) = (packets, .waiting []))
    (hbad : BadHeader limits (stream.drop n)) (hstuck : ¬ Stuck limits (stream.drop n)) :
    ∃ chunks, Cuts chunks stream ∧
      outcome (readLoop false 0 (.new limits) chunks) ≠ (packets, false) := by
  obtain ⟨chunks, hcuts, hgoes⟩ := exists_cuts_of_not_stuck (m := 0) (by omega) hbad hstuck
  have hne : stream.take n ≠ [] := by
    intro hnil
    rw [hnil, Decoder.run_more _
      (next_more_iff.mpr (Packet.decodeOneWith_of_short [] limits (by simp)))] at hfront
    cases hfront
    exact hsome rfl
  have hparse := parseAll_waiting false (s := ⟨stream.take n, false, limits⟩) hfront
  refine ⟨stream.take n :: chunks, ?_, ?_⟩
  · have h := hcuts.cons hne
    rwa [List.drop_zero, List.take_append_drop] at h
  · rw [readLoop_cons hne]
    simp only [ReadBuffer.new, List.nil_append]
    rw [proceed, hparse]
    have hany : (false || !packets.isEmpty) = true := by
      cases packets with
      | nil => exact absurd rfl hsome
      | cons p ps => rfl
    simp only [hany]
    intro hsame
    refine hgoes (0 + (stream.take n).length) ?_
    obtain ⟨hpackets, hkept⟩ := Prod.mk.inj hsame
    exact Prod.ext (List.append_right_eq_self.mp hpackets) hkept

/-- The lenient loop is independent of the chunks exactly on the streams where a scan for the
next header is stuck, or never starts. -/
theorem lenient_framing_chunk_independent_iff (limits : DecodeLimits) (stream : Bytes) :
    ChunkIndependent limits stream ↔ Steady limits stream := by
  have hnil : (packetDecoder limits).next [] = .more :=
    next_more_iff.mpr (Packet.decodeOneWith_of_short [] limits (by simp))
  constructor
  · intro hind e position hend he hsome
    by_contra hstuck
    obtain ⟨n, hle, hp, hfail, hfront⟩ := Decoder.run_failed hnil (Prod.ext rfl hend)
    rw [Nat.zero_add] at hp
    subst hp
    have hbad := next_fail_iff.mp hfail
    have hlen := length_of_error hbad
    rw [List.length_drop] at hlen
    obtain ⟨chunks, hcuts, hclosed⟩ := outcome_of_short_read (by omega) hfront hbad
    obtain ⟨chunks', hcuts', hgoes⟩ :=
      outcome_of_long_read hsome hfront ⟨e, hbad, he⟩ hstuck
    exact hgoes ((hind chunks' chunks hcuts' hcuts).trans hclosed)
  · intro hsteady chunks chunks' hcuts hcuts'
    rw [outcome_of_steady hsteady hcuts, outcome_of_steady hsteady hcuts']

/-- Two packets with sixteen bytes of noise between them: the second packet is delivered when all
arrives at once, and the connection is closed when the noise arrives before it. -/
theorem lenient_framing_depends_on_chunks :
    ¬ ∀ limits stream, ChunkIndependent limits stream := by
  intro h
  have hsame := h .default
    ([1, 0, 0, 0, 0, 0, 0, 1, 0, 0, 0, 0, 0, 0, 0, 0] ++ List.replicate 16 255 ++
      [1, 0, 0, 0, 0, 0, 0, 2, 0, 0, 0, 0, 0, 0, 0, 0])
    [[1, 0, 0, 0, 0, 0, 0, 1, 0, 0, 0, 0, 0, 0, 0, 0] ++ List.replicate 16 255 ++
      [1, 0, 0, 0, 0, 0, 0, 2, 0, 0, 0, 0, 0, 0, 0, 0]]
    [[1, 0, 0, 0, 0, 0, 0, 1, 0, 0, 0, 0, 0, 0, 0, 0] ++ List.replicate 16 255,
      [1, 0, 0, 0, 0, 0, 0, 2, 0, 0, 0, 0, 0, 0, 0, 0]]
    ⟨by decide, by decide⟩ ⟨by decide, by decide⟩
  revert hsame
  decide +kernel

end MsgTrans.Adapters.Tcp
