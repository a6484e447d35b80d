import MsgTrans.Adapters.Core
import MsgTrans.Wire.Codec

/-!
# The TCP reader

Model of the read half of the TCP adapter, `crates/msgtrans/src/adapters/tcp.rs:80–330,563–590`:
the read buffer with its header check and resynchronisation, the parser of the next packet, and
the read loop. Memory pools and capacities are left out, since no decision reads them. A read
returns a chunk of bytes; an empty chunk is the end of the stream. The consumer takes every
packet.
-/

namespace MsgTrans.Adapters.Tcp

open MsgTrans.Wire

/-- The reader's error values; `tcp.rs:30–55`. -/
inductive TcpError where
  | packet (error : PacketError)
  | bufferOverflow
  | config (message : String)
  deriving DecidableEq, Repr

/-- The debug text of a reader's error. -/
def TcpError.debug : TcpError → String
  | .packet error => "Packet(" ++ error.debug ++ ")"
  | .bufferOverflow => "BufferOverflow"
  | .config message => "Config(" ++ message.quote ++ ")"

/-- Outcomes of the parser other than a value: an error it returns, or a panic. -/
inductive ReadFault where
  | tcp (error : TcpError)
  | panic
  deriving DecidableEq, Repr

/-- `MAX_RESYNC_SCAN_DISTANCE`; `tcp.rs:81`. -/
def maxResyncScanDistance : Nat := 4096

/-- The read buffer; `tcp.rs:86–111`. -/
structure ReadBuffer where
  buffer : Bytes
  parsedAny : Bool
  decode : DecodeLimits

namespace ReadBuffer

/-- An empty buffer; `tcp.rs:124–146`. -/
def new (decode : DecodeLimits) : ReadBuffer where
  buffer := []
  parsedAny := false
  decode := decode

/-- `is_valid_header_at`; `tcp.rs:156–196`. -/
def isValidHeaderAt (s : ReadBuffer) (offset : Nat) : Bool :=
  if s.buffer.length < offset + 16 then false
  else
    match (s.buffer.drop offset).take 16 with
    | [version, compression, packetType, _, _, _, _, _, e0, e1, p0, p1, p2, p3, _, _] =>
      if version ≠ 1 then false
      else if compression > 2 then false
      else if packetType > 2 then false
      else if (u16FromBeBytes [e0, e1]).toNat > s.decode.maxExtHeaderSize then false
      else if (u32FromBeBytes [p0, p1, p2, p3]).toNat % 2 ^ s.decode.usizeBits >
          s.decode.maxPayloadSize then false
      else true
    | _ => false

/-- The first offset of the buffer's scan window that holds a valid header; `tcp.rs:204–207`. -/
def scan (s : ReadBuffer) : Option Nat :=
  (List.range' 1 (min s.buffer.length maxResyncScanDistance - 1)).find? s.isValidHeaderAt

/-- `try_resync_frame`; `tcp.rs:203–234`. -/
def tryResyncFrame (s : ReadBuffer) : Bool × ReadBuffer :=
  match s.scan with
  | some offset => (true, { s with buffer := s.buffer.drop offset })
  | none =>
    if s.buffer.length > maxResyncScanDistance then
      (true, { s with buffer := s.buffer.drop maxResyncScanDistance })
    else (false, s)

/-- An offset the scan finds lies behind the front, within the window, and has a header. -/
theorem scan_some {s : ReadBuffer} {k : Nat} (h : s.scan = some k) :
    0 < k ∧ k < maxResyncScanDistance ∧ k + 16 ≤ s.buffer.length ∧ s.isValidHeaderAt k = true := by
  have hvalid := List.find?_some h
  have hmem := List.mem_of_find?_eq_some h
  rw [List.mem_range'_1] at hmem
  refine ⟨by omega, by omega, ?_, hvalid⟩
  by_contra hlt
  rw [isValidHeaderAt, if_pos (by omega)] at hvalid
  cases hvalid

/-- A resynchronisation takes bytes off the buffer. -/
theorem tryResyncFrame_lt {s s' : ReadBuffer} (h : s.tryResyncFrame = (true, s')) :
    s'.buffer.length < s.buffer.length := by
  unfold tryResyncFrame at h
  split at h
  next offset hscan =>
    obtain ⟨hpos, -, hlen, -⟩ := scan_some hscan
    obtain ⟨-, rfl⟩ := Prod.mk.inj h
    simp only [List.length_drop]
    omega
  next =>
    split at h
    next hlong =>
      obtain ⟨-, rfl⟩ := Prod.mk.inj h
      simp only [List.length_drop, maxResyncScanDistance] at hlong ⊢
      omega
    next => cases h

/-- The error refuses a declared length. -/
def tooLarge : PacketError → Bool
  | .frameTooLarge .. => true
  | _ => false

/-- `try_parse_next_packet`; `tcp.rs:252–311`. -/
def tryParseNextPacket (strict : Bool) (s : ReadBuffer) :
    Except ReadFault (Option Packet) × ReadBuffer :=
  match Packet.frameLen s.buffer s.decode with
  | .ok (some total) =>
    -- `split_to` panics past the end.
    if total > s.buffer.length then (.error .panic, s)
    else
      match Packet.decodeExactFrom (s.buffer.take total) s.decode with
      | .ok packet =>
        (.ok (some packet), { s with buffer := s.buffer.drop total, parsedAny := true })
      | .error (.packet e) =>
        (.error (.tcp (.packet e)), { s with buffer := s.buffer.drop total })
      | .error .panic => (.error .panic, { s with buffer := s.buffer.drop total })
  | .ok none => (.ok none, s)
  | .error .panic => (.error .panic, s)
  | .error (.packet e) =>
    if tooLarge e then (.error (.tcp (.packet e)), s)
    else if strict then (.error (.tcp (.packet e)), s)
    else if s.parsedAny = false then
      (.error (.tcp (.config "Invalid protocol header on first packet")), s)
    else
      match _h : s.tryResyncFrame with
      | (true, s') => tryParseNextPacket strict s'
      | (false, s') => (.error (.tcp .bufferOverflow), s')
termination_by s.buffer.length
decreasing_by exact tryResyncFrame_lt _h

section Parse

variable (strict : Bool) {s : ReadBuffer}

/-- A complete frame at the front is taken off. -/
theorem tryParseNextPacket_item {p : Packet} {n : Nat}
    (h : Packet.decodeOneWith s.buffer s.decode = .ok (some (p, n))) :
    s.tryParseNextPacket strict =
      (.ok (some p), { s with buffer := s.buffer.drop n, parsedAny := true }) := by
  have hcarve := Packet.carveAndDecode_eq s.buffer s.decode
  rw [h, Packet.carveAndDecode, Packet.frameLen_eq, h] at hcarve
  obtain ⟨-, -, -, -, -, -, hle, -⟩ := (Packet.decodeOneWith_some_iff _ _ _ _).mp h
  rw [tryParseNextPacket, Packet.frameLen_eq, h]
  simp only [Except.map, Option.map, bind, Except.bind] at hcarve ⊢
  rw [if_neg (by omega)]
  cases hd : Packet.decodeExactFrom (s.buffer.take n) s.decode with
  | error f =>
    rw [hd] at hcarve
    cases hcarve
  | ok q =>
    rw [hd] at hcarve
    cases hcarve
    rfl

/-- An incomplete frame is left in place. -/
theorem tryParseNextPacket_more (h : Packet.decodeOneWith s.buffer s.decode = .ok none) :
    s.tryParseNextPacket strict = (.ok none, s) := by
  rw [tryParseNextPacket, Packet.frameLen_eq, h]
  rfl

-- What becomes of a header that is refused.
private theorem tryParseNextPacket_refused {e : PacketError}
    (h : Packet.decodeOneWith s.buffer s.decode = .error (.packet e)) :
    s.tryParseNextPacket strict =
      if tooLarge e = true ∨ strict = true then (.error (.tcp (.packet e)), s)
      else if s.parsedAny = false then
        (.error (.tcp (.config "Invalid protocol header on first packet")), s)
      else
        match s.tryResyncFrame with
        | (true, s') => s'.tryParseNextPacket strict
        | (false, s') => (.error (.tcp .bufferOverflow), s') := by
  rw [tryParseNextPacket, Packet.frameLen_eq, h]
  simp only [Except.map]
  cases tooLarge e <;> cases strict <;>
    simp only [reduceCtorEq, or_self, or_true, true_or, if_true, if_false]
  split
  next => rfl
  next => split <;> simp_all

/-- A refused length closes the connection under both policies. -/
theorem tryParseNextPacket_tooLarge {e : PacketError} (he : tooLarge e = true)
    (h : Packet.decodeOneWith s.buffer s.decode = .error (.packet e)) :
    s.tryParseNextPacket strict = (.error (.tcp (.packet e)), s) := by
  rw [tryParseNextPacket_refused strict h, if_pos (.inl he)]

/-- Under the strict policy so does every other error. -/
theorem tryParseNextPacket_strict {e : PacketError}
    (h : Packet.decodeOneWith s.buffer s.decode = .error (.packet e)) :
    s.tryParseNextPacket true = (.error (.tcp (.packet e)), s) := by
  rw [tryParseNextPacket_refused true h, if_pos (.inr rfl)]

/-- Under the lenient policy a bad first header closes the connection. -/
theorem tryParseNextPacket_first {e : PacketError} (he : tooLarge e = false)
    (hfirst : s.parsedAny = false)
    (h : Packet.decodeOneWith s.buffer s.decode = .error (.packet e)) :
    s.tryParseNextPacket false =
      (.error (.tcp (.config "Invalid protocol header on first packet")), s) := by
  rw [tryParseNextPacket_refused false h, if_neg (by simp [he]), if_pos hfirst]

/-- A later bad header is resynchronised from. -/
theorem tryParseNextPacket_resync {e : PacketError} (he : tooLarge e = false)
    (hlater : s.parsedAny = true)
    (h : Packet.decodeOneWith s.buffer s.decode = .error (.packet e)) :
    s.tryParseNextPacket false =
      match s.tryResyncFrame with
      | (true, s') => s'.tryParseNextPacket false
      | (false, s') => (.error (.tcp .bufferOverflow), s') := by
  rw [tryParseNextPacket_refused false h, if_neg (by simp [he]), if_neg (by simp [hlater])]

end Parse

/-- A parsed packet takes bytes off the buffer. -/
theorem tryParseNextPacket_lt {strict : Bool} {s s' : ReadBuffer} {p : Packet}
    (h : s.tryParseNextPacket strict = (.ok (some p), s')) :
    s'.buffer.length < s.buffer.length := by
  cases hd : Packet.decodeOneWith s.buffer s.decode with
  | ok r =>
    cases r with
    | none =>
      rw [tryParseNextPacket_more _ hd] at h
      cases h
    | some r =>
      obtain ⟨q, n⟩ := r
      obtain ⟨_, e, l, -, -, hn, hle, -⟩ := (Packet.decodeOneWith_some_iff _ _ _ _).mp hd
      rw [Packet.totalLen] at hn
      rw [tryParseNextPacket_item _ hd] at h
      obtain ⟨-, rfl⟩ := Prod.mk.inj h
      simp only [List.length_drop]
      omega
  | error f =>
    cases f with
    | panic => exact absurd hd (Packet.decodeOneWith_ne_panic _ _)
    | packet e =>
      cases he : tooLarge e with
      | true =>
        rw [tryParseNextPacket_tooLarge _ he hd] at h
        cases h
      | false =>
        cases strict with
        | true =>
          rw [tryParseNextPacket_strict hd] at h
          cases h
        | false =>
          cases hp : s.parsedAny with
          | false =>
            rw [tryParseNextPacket_first he hp hd] at h
            cases h
          | true =>
            rw [tryParseNextPacket_resync he hp hd] at h
            cases hr : s.tryResyncFrame with
            | mk resynced s'' =>
              rw [hr] at h
              cases resynced with
              | false => cases h
              | true =>
                have hlt := tryResyncFrame_lt hr
                exact Nat.lt_trans (tryParseNextPacket_lt h) hlt
termination_by s.buffer.length
decreasing_by exact hlt

/-- Parse until there is no packet or an error; `tcp.rs:577–588`. -/
def parseAll (strict : Bool) (s : ReadBuffer) :
    List Packet × Except (ReadFault × ReadBuffer) ReadBuffer :=
  match _h : s.tryParseNextPacket strict with
  | (.ok (some packet), s') =>
    let rest := parseAll strict s'
    (packet :: rest.1, rest.2)
  | (.ok none, s') => ([], .ok s')
  | (.error e, s') => ([], .error (e, s'))
termination_by s.buffer.length
decreasing_by exact tryParseNextPacket_lt _h

section ParseAll

variable {strict : Bool} {s s' : ReadBuffer}

theorem parseAll_item {p : Packet} (h : s.tryParseNextPacket strict = (.ok (some p), s')) :
    s.parseAll strict = (p :: (s'.parseAll strict).1, (s'.parseAll strict).2) := by
  rw [parseAll]
  split <;> simp_all

theorem parseAll_more (h : s.tryParseNextPacket strict = (.ok none, s')) :
    s.parseAll strict = ([], .ok s') := by
  rw [parseAll]
  split <;> simp_all

theorem parseAll_error {e : ReadFault} (h : s.tryParseNextPacket strict = (.error e, s')) :
    s.parseAll strict = ([], .error (e, s')) := by
  rw [parseAll]
  split <;> simp_all

end ParseAll

end ReadBuffer

/-- How the read loop stands after the chunks it was given: still reading with these bytes
buffered, at the end of the stream, or failed at a position of the stream. -/
inductive ReadEnd where
  | reading (buffer : Bytes)
  | eof
  | failed (error : ReadFault) (position : Nat)
  deriving DecidableEq, Repr

/-- What the loop returns there; `tcp.rs:566–588`. -/
def ReadEnd.loopEnd : ReadEnd → LoopEnd
  | .reading buffer => .reading buffer
  | .eof => .stopped (.closed .normal)
  | .failed (.tcp error) _ => .stopped (.closed (.error error.debug))
  | .failed .panic _ => .stopped .panicked

/-- The read loop on the chunks the reads return, after `received` bytes; `tcp.rs:563–590`. -/
def readLoop (strict : Bool) (received : Nat) (s : ReadBuffer) :
    List Bytes → List Packet × ReadEnd
  | [] => ([], .reading s.buffer)
  | chunk :: chunks =>
    if chunk = [] then ([], .eof)
    else
      match ReadBuffer.parseAll strict { s with buffer := s.buffer ++ chunk } with
      | (packets, .error (e, s')) =>
        (packets, .failed e (received + chunk.length - s'.buffer.length))
      | (packets, .ok s') =>
        let rest := readLoop strict (received + chunk.length) s' chunks
        (packets ++ rest.1, rest.2)

end MsgTrans.Adapters.Tcp
