import Mathlib.Data.List.Basic

/-!
# Base64 decoding

General support for texts in the standard base64 of RFC 4648: the alphabet with the value of each
character, and the strict decoder of groups of four characters. Padding stands at the end only, and
the bits it stands for are zero. Nothing here names an application.
-/

namespace MsgTrans.Base.Base64

/-- The standard alphabet, in the order of the values. -/
def alphabet : List Char :=
  ['A', 'B', 'C', 'D', 'E', 'F', 'G', 'H', 'I', 'J', 'K', 'L', 'M', 'N', 'O', 'P',
    'Q', 'R', 'S', 'T', 'U', 'V', 'W', 'X', 'Y', 'Z', 'a', 'b', 'c', 'd', 'e', 'f',
    'g', 'h', 'i', 'j', 'k', 'l', 'm', 'n', 'o', 'p', 'q', 'r', 's', 't', 'u', 'v',
    'w', 'x', 'y', 'z', '0', '1', '2', '3', '4', '5', '6', '7', '8', '9', '+', '/']

/-- The value of a character of the alphabet. -/
def value? (c : Char) : Option Nat :=
  if 'A' ≤ c ∧ c ≤ 'Z' then some (c.toNat - 'A'.toNat)
  else if 'a' ≤ c ∧ c ≤ 'z' then some (c.toNat - 'a'.toNat + 26)
  else if '0' ≤ c ∧ c ≤ '9' then some (c.toNat - '0'.toNat + 52)
  else if c = '+' then some 62
  else if c = '/' then some 63
  else none

/-- One byte from two characters and two pads. -/
def decodeOne (c₀ c₁ : Char) : Option (List UInt8) := do
  let v₀ ← value? c₀
  let v₁ ← value? c₁
  if v₁ % 16 = 0 then some [UInt8.ofNat (v₀ * 4 + v₁ / 16)] else none

/-- Two bytes from three characters and a pad. -/
def decodeTwo (c₀ c₁ c₂ : Char) : Option (List UInt8) := do
  let v₀ ← value? c₀
  let v₁ ← value? c₁
  let v₂ ← value? c₂
  if v₂ % 4 = 0 then
    some [UInt8.ofNat (v₀ * 4 + v₁ / 16), UInt8.ofNat (v₁ % 16 * 16 + v₂ / 4)]
  else none

/-- Three bytes from four characters. -/
def decodeThree (c₀ c₁ c₂ c₃ : Char) : Option (List UInt8) := do
  let v₀ ← value? c₀
  let v₁ ← value? c₁
  let v₂ ← value? c₂
  let v₃ ← value? c₃
  some [UInt8.ofNat (v₀ * 4 + v₁ / 16), UInt8.ofNat (v₁ % 16 * 16 + v₂ / 4),
    UInt8.ofNat (v₂ % 4 * 64 + v₃)]

/-- Decode a text. -/
def decode : List Char → Option (List UInt8)
  | [] => some []
  | c₀ :: c₁ :: c₂ :: c₃ :: rest =>
    if rest = [] ∧ c₃ = '=' then
      if c₂ = '=' then decodeOne c₀ c₁ else decodeTwo c₀ c₁ c₂
    else do
      let group ← decodeThree c₀ c₁ c₂ c₃
      let tail ← decode rest
      some (group ++ tail)
  | _ => none

theorem length_alphabet : alphabet.length = 64 := rfl

/-- The character of a value. -/
def digit (v : Fin 64) : Char := alphabet.get v

/-- The value of a digit is read back. -/
theorem value?_digit (v : Fin 64) : value? (digit v) = some v.val := by
  revert v
  decide

theorem digit_mem (v : Fin 64) : digit v ∈ alphabet := List.get_mem _ _

/-- A pad is no digit. -/
theorem digit_ne_pad (v : Fin 64) : digit v ≠ '=' := by
  revert v
  decide

section Groups

variable {v₀ v₁ v₂ v₃ : Fin 64} {rest : List Char}

/-- A last group of one byte. -/
theorem decode_one (h : v₁.val % 16 = 0) : decode [digit v₀, digit v₁, '=', '='] =
    some [UInt8.ofNat (v₀ * 4 + v₁ / 16)] := by
  simp [decode, decodeOne, value?_digit, h]

/-- A last group of two bytes. -/
theorem decode_two (h : v₂.val % 4 = 0) : decode [digit v₀, digit v₁, digit v₂, '='] =
    some [UInt8.ofNat (v₀ * 4 + v₁ / 16), UInt8.ofNat (v₁ % 16 * 16 + v₂ / 4)] := by
  simp [decode, decodeTwo, value?_digit, digit_ne_pad, h]

/-- A full group in front of a text. -/
theorem decode_three : decode (digit v₀ :: digit v₁ :: digit v₂ :: digit v₃ :: rest) =
    (decode rest).map fun tail ↦ [UInt8.ofNat (v₀ * 4 + v₁ / 16),
      UInt8.ofNat (v₁ % 16 * 16 + v₂ / 4), UInt8.ofNat (v₂ % 4 * 64 + v₃)] ++ tail := by
  simp only [decode, digit_ne_pad, and_false, if_false, decodeThree, value?_digit]
  cases decode rest <;> rfl

end Groups

end MsgTrans.Base.Base64
