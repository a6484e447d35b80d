import MsgTrans.Adapters.HeaderChecks

/-!
# The lenient framer

What `try_parse_next_packet`, `crates/msgtrans/src/adapters/tcp.rs:252–311`, does under the lenient
policy to a buffer that is filled and parsed in any order: its loop ends, each packet it returns is
decoded from a segment of the stream of its own, and what it takes off the buffer it takes off the
front.
-/

namespace MsgTrans.Adapters.Tcp

open MsgTrans.Wire

/-- How one turn of the parser's loop ends. -/
inductive Turn where
  | returned (result : Except ReadFault (Option Packet)) (s : ReadBuffer)
  | again (s : ReadBuffer)

namespace ReadBuffer

/-- The body of the loop; `tcp.rs:254–309`. -/
def turn (strict : Bool) (s : ReadBuffer) : Turn :=
  match Packet.frameLen s.buffer s.decode with
  | .ok (some total) =>
    if total > s.buffer.length then .returned (.error .panic) s
    else
      match Packet.decodeExactFrom (s.buffer.take total) s.decode with
      | .ok packet =>
        .returned (.ok (some packet)) { s with buffer := s.buffer.drop total, parsedAny := true }
      | .error (.packet e) =>
        .returned (.error (.tcp (.packet e))) { s with buffer := s.buffer.drop total }
      | .error .panic => .returned (.error .panic) { s with buffer := s.buffer.drop total }
  | .ok none => .returned (.ok none) s
  | .error .panic => .returned (.error .panic) s
  | .error (.packet e) =>
    if tooLarge e then .returned (.error (.tcp (.packet e))) s
    else if strict then .returned (.error (.tcp (.packet e))) s
    else if s.parsedAny = false then
      .returned (.error (.tcp (.config "Invalid protocol header on first packet"))) s
    else
      match s.tryResyncFrame with
      | (true, s') => .again s'
      | (false, s') => .returned (.error (.tcp .bufferOverflow)) s'

/-- At most so many turns of the loop. -/
def turns (strict : Bool) : Nat → ReadBuffer → Option (Except ReadFault (Option Packet) × ReadBuffer)
  | 0, _ => none
  | n + 1, s =>
    match s.turn strict with
    | .returned result s' => some (result, s')
    | .again s' => turns strict n s'

variable {strict : Bool} {s s' : ReadBuffer}

/-- A resynchronisation takes a front off the buffer and touches nothing else. -/
theorem tryResyncFrame_drop {resynced : Bool} (h : s.tryResyncFrame = (resynced, s')) :
    ∃ k ≤ s.buffer.length, s' = { s with buffer := s.buffer.drop k } := by
  unfold tryResyncFrame at h
  split at h
  next k hscan =>
    obtain ⟨-, -, hlen, -⟩ := scan_some hscan
    obtain ⟨-, rfl⟩ := Prod.mk.inj h
    exact ⟨k, by omega, rfl⟩
  next =>
    split at h
    next hlong =>
      obtain ⟨-, rfl⟩ := Prod.mk.inj h
      exact ⟨maxResyncScanDistance, Nat.le_of_lt hlong, rfl⟩
    next =>
      obtain ⟨-, rfl⟩ := Prod.mk.inj h
      exact ⟨0, Nat.zero_le _, rfl⟩

/-- The loop goes round again only after a resynchronisation. -/
theorem turn_again (h : s.turn strict = .again s') : s.tryResyncFrame = (true, s') := by
  unfold turn at h
  repeat' split at h
  all_goals cases h
  assumption

/-- A turn that goes round again leaves a shorter end of the buffer. -/
theorem turn_again_drop (h : s.turn strict = .again s') :
    ∃ k, 0 < k ∧ k ≤ s.buffer.length ∧ s' = { s with buffer := s.buffer.drop k } := by
  have hresync := turn_again h
  have hlt := tryResyncFrame_lt hresync
  obtain ⟨k, hk, rfl⟩ := tryResyncFrame_drop hresync
  simp only [List.length_drop] at hlt
  exact ⟨k, by omega, hk, rfl⟩

/-- The parser is its first turn followed by the rest of the loop. -/
theorem tryParseNextPacket_eq_turn : s.tryParseNextPacket strict =
    match s.turn strict with
    | .returned result s' => (result, s')
    | .again s' => s'.tryParseNextPacket strict := by
  rw [tryParseNextPacket, turn]
  cases Packet.frameLen s.buffer s.decode with
  | ok r =>
    cases r with
    | none => rfl
    | some total =>
      dsimp only
      split
      · rfl
      · cases Packet.decodeExactFrom (s.buffer.take total) s.decode with
        | ok packet => rfl
        | error f => cases f <;> rfl
  | error f =>
    cases f with
    | panic => rfl
    | packet e =>
      dsimp only
      split
      · rfl
      · split
        · rfl
        · split
          · rfl
          · split
            next h => rw [h]
            next h => rw [h]

/-- The loop ends, with what the parser returns, before it has made more turns than there are bytes
in the buffer. -/
theorem turns_eq {n : Nat} (h : s.buffer.length < n) :
    s.turns strict n = some (s.tryParseNextPacket strict) := by
  induction n generalizing s with
  | zero => exact absurd h (Nat.not_lt_zero _)
  | succ n ih =>
    rw [turns, tryParseNextPacket_eq_turn]
    cases hturn : s.turn strict with
    | returned result s' => rfl
    | again s' =>
      have hlt := tryResyncFrame_lt (turn_again hturn)
      exact ih (by omega)

/-- A turn that returns on a header the codec refuses returns an error. -/
theorem turn_refused {result : Except ReadFault (Option Packet)} {e : Fault}
    (hd : Packet.decodeOneWith s.buffer s.decode = .error e)
    (h : s.turn strict = .returned result s') :
    (∃ err, result = .error err) ∧
      ∃ k ≤ s.buffer.length, s' = { s with buffer := s.buffer.drop k } := by
  rw [turn, Packet.frameLen_eq, hd] at h
  simp only [Except.map] at h
  have hstay : ∃ k ≤ s.buffer.length, s = { s with buffer := s.buffer.drop k } :=
    ⟨0, Nat.zero_le _, rfl⟩
  cases e with
  | panic =>
    cases h
    exact ⟨⟨_, rfl⟩, hstay⟩
  | packet err =>
    simp only at h
    split at h
    next =>
      cases h
      exact ⟨⟨_, rfl⟩, hstay⟩
    next =>
      split at h
      next =>
        cases h
        exact ⟨⟨_, rfl⟩, hstay⟩
      next =>
        split at h
        next =>
          cases h
          exact ⟨⟨_, rfl⟩, hstay⟩
        next =>
          split at h
          next => cases h
          next hresync =>
            cases h
            exact ⟨⟨_, rfl⟩, tryResyncFrame_drop hresync⟩

/-- What a call returns: a packet decoded from the buffer behind what was skipped, or none; in
either case only a front of the buffer is gone. -/
theorem tryParseNextPacket_call (s : ReadBuffer) :
    (∃ k n p, k + n ≤ s.buffer.length ∧
      Packet.decodeOneWith (s.buffer.drop k) s.decode = .ok (some (p, n)) ∧
      s.tryParseNextPacket strict =
        (.ok (some p), { s with buffer := s.buffer.drop (k + n), parsedAny := true })) ∨
    ∃ k ≤ s.buffer.length, ∃ result, (∀ p, result ≠ .ok (some p)) ∧
      s.tryParseNextPacket strict = (result, { s with buffer := s.buffer.drop k }) := by
  cases hd : Packet.decodeOneWith s.buffer s.decode with
  | ok r =>
    cases r with
    | none =>
      exact .inr ⟨0, Nat.zero_le _, _, fun p hp ↦ (by cases hp), tryParseNextPacket_more strict hd⟩
    | some r =>
      obtain ⟨p, n⟩ := r
      obtain ⟨-, -, -, -, -, -, hle, -⟩ := (Packet.decodeOneWith_some_iff _ _ _ _).mp hd
      refine .inl ⟨0, n, p, by omega, hd, ?_⟩
      rw [Nat.zero_add]
      exact tryParseNextPacket_item strict hd
  | error f =>
    rw [tryParseNextPacket_eq_turn]
    cases hturn : s.turn strict with
    | returned result s' =>
      obtain ⟨⟨err, rfl⟩, k, hk, rfl⟩ := turn_refused hd hturn
      exact .inr ⟨k, hk, _, fun p hp ↦ (by cases hp), rfl⟩
    | again s' =>
      obtain ⟨k, hpos, hk, rfl⟩ := turn_again_drop hturn
      have hlt : (s.buffer.drop k).length < s.buffer.length := by
        rw [List.length_drop]
        omega
      obtain ⟨j, n, p, hn, hp, hcall⟩ | ⟨j, hj, result, hresult, hcall⟩ :=
        tryParseNextPacket_call { s with buffer := s.buffer.drop k }
      · simp only [List.drop_drop, List.length_drop] at hn hp hcall
        rw [← Nat.add_assoc] at hcall
        exact .inl ⟨k + j, n, p, by omega, hp, hcall⟩
      · simp only [List.drop_drop, List.length_drop] at hj hcall
        exact .inr ⟨k + j, by omega, result, hresult, hcall⟩
termination_by s.buffer.length
decreasing_by exact hlt

end ReadBuffer

/-- The packets are decoded in this order, each from a segment of the stream of its own, between two
positions. -/
inductive Carved (limits : DecodeLimits) (stream : Bytes) : Nat → List Packet → Nat → Prop
  | done {lo hi : Nat} : lo ≤ hi → Carved limits stream lo [] hi
  | packet {lo start n hi : Nat} {p : Packet} {packets : List Packet} : lo ≤ start →
      start + n ≤ stream.length →
      Packet.decodeExactWith ((stream.drop start).take n) limits = .ok p →
      Carved limits stream (start + n) packets hi → Carved limits stream lo (p :: packets) hi

namespace Carved

variable {limits : DecodeLimits} {stream : Bytes} {lo hi : Nat} {packets : List Packet}

/-- More of the stream changes nothing. -/
theorem append (h : Carved limits stream lo packets hi) (c : Bytes) :
    Carved limits (stream ++ c) lo packets hi := by
  induction h with
  | done hle => exact .done hle
  | packet hlo hn hp _ ih =>
    refine .packet hlo (by rw [List.length_append]; omega) ?_ ih
    rwa [List.drop_append_of_le_length (by omega),
      List.take_append_of_le_length (by rw [List.length_drop]; omega)]

theorem skip (h : Carved limits stream lo packets hi) {hi' : Nat} (hle : hi ≤ hi') :
    Carved limits stream lo packets hi' := by
  induction h with
  | done h => exact .done (h.trans hle)
  | packet hlo hn hp _ ih => exact .packet hlo hn hp (ih hle)

/-- A further packet from behind. -/
theorem snoc (h : Carved limits stream lo packets hi) {start n : Nat} {p : Packet}
    (hstart : hi ≤ start) (hn : start + n ≤ stream.length)
    (hp : Packet.decodeExactWith ((stream.drop start).take n) limits = .ok p) :
    Carved limits stream lo (packets ++ [p]) (start + n) := by
  induction h with
  | done h => exact .packet (h.trans hstart) hn hp (.done le_rfl)
  | packet hlo hn' hp' _ ih => exact .packet hlo hn' hp' (ih hstart)

end Carved

/-- A packet at the front is what the exact decoder makes of its bytes. -/
theorem decodeExactWith_take {limits : DecodeLimits} {b : Bytes} {p : Packet} {n : Nat}
    (h : Packet.decodeOneWith b limits = .ok (some (p, n))) :
    Packet.decodeExactWith (b.take n) limits = .ok p := by
  obtain ⟨-, -, -, -, -, -, hle, -⟩ := (Packet.decodeOneWith_some_iff _ _ _ _).mp h
  rw [Packet.decodeExactWith, Packet.exactly_ok_iff, List.length_take_of_le hle]
  exact Packet.decodeOneWith_take h

/-- What is done to the reader: bytes arrive, or the next packet is asked for. -/
inductive Call where
  | feed (chunk : Bytes)
  | parse

/-- The reader with the bytes it was fed and the packets it returned. -/
structure Framer where
  reader : ReadBuffer
  fed : Bytes
  packets : List Packet

namespace Framer

/-- A reader that was fed nothing. -/
def new (limits : DecodeLimits) : Framer where
  reader := .new limits
  fed := []
  packets := []

/-- One call under the lenient policy. -/
def step (f : Framer) : Call → Framer
  | .feed chunk =>
    { f with
      reader := { f.reader with buffer := f.reader.buffer ++ chunk }
      fed := f.fed ++ chunk }
  | .parse =>
    match f.reader.tryParseNextPacket false with
    | (.ok (some packet), s') => { f with reader := s', packets := f.packets ++ [packet] }
    | (_, s') => { f with reader := s' }

/-- The calls in their order. -/
def run (limits : DecodeLimits) (calls : List Call) : Framer := calls.foldl step (new limits)

/-- The packets come from the part of the stream that was removed, and the buffer is the rest. -/
def Sound (limits : DecodeLimits) (f : Framer) : Prop :=
  f.reader.decode = limits ∧ ∃ removed ≤ f.fed.length,
    f.reader.buffer = f.fed.drop removed ∧ Carved limits f.fed 0 f.packets removed

variable {limits : DecodeLimits} {f : Framer}

theorem step_parse_packet {s : ReadBuffer} {p : Packet}
    (h : f.reader.tryParseNextPacket false = (.ok (some p), s)) :
    f.step .parse = { f with reader := s, packets := f.packets ++ [p] } := by
  rw [step, h]

theorem step_parse_other {s : ReadBuffer} {result : Except ReadFault (Option Packet)}
    (hresult : ∀ p, result ≠ .ok (some p))
    (h : f.reader.tryParseNextPacket false = (result, s)) :
    f.step .parse = { f with reader := s } := by
  rw [step, h]
  cases result with
  | error e => rfl
  | ok r =>
    cases r with
    | none => rfl
    | some p => exact absurd rfl (hresult p)

/-- One call keeps the reader sound. -/
theorem sound_step (h : f.Sound limits) (call : Call) : (f.step call).Sound limits := by
  obtain ⟨hlimits, removed, hle, hbuffer, hcarved⟩ := h
  cases call with
  | feed chunk =>
    refine ⟨hlimits, removed, ?_, ?_, hcarved.append chunk⟩
    · simp only [step, List.length_append]
      omega
    · simp only [step, hbuffer]
      rw [List.drop_append_of_le_length hle]
  | parse =>
    have hlen : f.reader.buffer.length = f.fed.length - removed := by
      rw [hbuffer, List.length_drop]
    obtain ⟨k, n, p, hn, hp, hcall⟩ | ⟨k, hk, result, hresult, hcall⟩ :=
      f.reader.tryParseNextPacket_call
    · rw [step_parse_packet hcall]
      rw [hbuffer, List.drop_drop, hlimits] at hp
      refine ⟨hlimits, removed + k + n, by simp only; omega, ?_, ?_⟩
      · simp only [hbuffer, List.drop_drop, Nat.add_assoc]
      · exact hcarved.snoc (Nat.le_add_right removed k) (by omega) (decodeExactWith_take hp)
    · rw [step_parse_other hresult hcall]
      refine ⟨hlimits, removed + k, by simp only; omega, ?_, hcarved.skip (Nat.le_add_right ..)⟩
      simp only [hbuffer, List.drop_drop]

/-- Any calls leave it so. -/
theorem sound_run (limits : DecodeLimits) (calls : List Call) : (run limits calls).Sound limits := by
  have hfold : ∀ f : Framer, f.Sound limits → (calls.foldl step f).Sound limits := by
    induction calls with
    | nil => exact fun f h ↦ h
    | cons call calls ih => exact fun f h ↦ ih _ (sound_step h call)
  exact hfold _ ⟨rfl, 0, Nat.zero_le _, rfl, .done le_rfl⟩

end Framer

/-- The front is part of a frame within the limits that has not arrived whole. -/
def Incomplete (limits : DecodeLimits) (b : Bytes) : Prop :=
  ∃ c p, b.length < (b ++ c).length ∧ Packet.decodeExactWith (b ++ c) limits = .ok p

/-- The front is a header whose declared lengths the limits refuse. -/
def DeclaresTooMuch (limits : DecodeLimits) (b : Bytes) : Prop :=
  ∃ h e p, IsHeader b h e p ∧ ¬limits.Admits e p

section Fronts

variable {limits : DecodeLimits} {b : Bytes}

/-- The codec waits for the rest of such a frame. -/
theorem Incomplete.waits (h : Incomplete limits b) : Packet.decodeOneWith b limits = .ok none := by
  obtain ⟨c, p, hlt, hp⟩ := h
  rw [Packet.decodeExactWith, Packet.exactly_ok_iff] at hp
  cases hd : Packet.decodeOneWith b limits with
  | error f =>
    cases f with
    | panic => exact absurd hd (Packet.decodeOneWith_ne_panic _ _)
    | packet e =>
      rw [Packet.decodeOneWith_append_error b c limits e hd] at hp
      cases hp
  | ok r =>
    cases r with
    | none => rfl
    | some r =>
      obtain ⟨q, n⟩ := r
      obtain ⟨-, -, -, -, -, -, hle, -⟩ := (Packet.decodeOneWith_some_iff _ _ _ _).mp hd
      rw [Packet.decodeOneWith_append_some b c limits q n hd] at hp
      cases hp
      omega

/-- The codec refuses such a header for its lengths. -/
theorem DeclaresTooMuch.refused (h : DeclaresTooMuch limits b) :
    ∃ declared limit, Packet.decodeOneWith b limits =
      .error (.packet (.frameTooLarge declared limit)) := by
  obtain ⟨hd, e, p, hh, ha⟩ := h
  have hl := hh.length_le
  have hn : ¬∃ h e p, IsHeader b h e p ∧ limits.Admits e p := by
    rintro ⟨hd', e', p', hh', ha'⟩
    obtain ⟨-, rfl, rfl⟩ := hh.unique hh'
    exact ha ha'
  obtain ⟨err, hverdict, herr⟩ := Packet.decodeOneWith_of_reject b limits hl hn
  obtain ⟨declared, limit, rfl⟩ := headerVerdict_tooLarge hh hverdict
  exact ⟨declared, limit, herr⟩

end Fronts

/-- Whatever chunks the lenient reader is fed and whenever it is asked for a packet, its loop ends
and goes round again only after it has removed bytes; the packets it returned are decoded, in order,
from disjoint segments of the removed part of the stream, and the buffer is the rest; an incomplete
frame at the front is waited for, and a header that declares too much is an error, and neither is
touched. -/
theorem lenient_framer_sound (limits : DecodeLimits) (calls : List Call) :
    let f := Framer.run limits calls
    (∀ s s' : ReadBuffer, s.turn false = .again s' → s'.buffer.length < s.buffer.length) ∧
    f.reader.turns false (f.reader.buffer.length + 1) =
      some (f.reader.tryParseNextPacket false) ∧
    (∃ removed ≤ f.fed.length, f.reader.buffer = f.fed.drop removed ∧
      Carved limits f.fed 0 f.packets removed) ∧
    (Incomplete limits f.reader.buffer →
      f.reader.tryParseNextPacket false = (.ok none, f.reader)) ∧
    (DeclaresTooMuch limits f.reader.buffer → ∃ declared limit,
      f.reader.tryParseNextPacket false =
        (.error (.tcp (.packet (.frameTooLarge declared limit))), f.reader)) := by
  intro f
  obtain ⟨hlimits, hsound⟩ := Framer.sound_run limits calls
  refine ⟨fun s s' hturn ↦ ?_, ?_, hsound, fun hpart ↦ ?_, fun hmuch ↦ ?_⟩
  · exact ReadBuffer.tryResyncFrame_lt (ReadBuffer.turn_again hturn)
  · exact ReadBuffer.turns_eq (Nat.lt_succ_self _)
  · refine ReadBuffer.tryParseNextPacket_more false ?_
    rw [hlimits]
    exact hpart.waits
  · obtain ⟨declared, limit, hrefused⟩ := hmuch.refused
    refine ⟨declared, limit, ReadBuffer.tryParseNextPacket_tooLarge false rfl ?_⟩
    rw [hlimits]
    exact hrefused

end MsgTrans.Adapters.Tcp
