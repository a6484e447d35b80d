import Mathlib.Data.Nat.Digits.Lemmas

/-!
# Big-endian byte words

General support for wire formats: fixed-width big-endian words over byte lists. The value
of a word is Mathlib's `Nat.ofDigits` in base 256 over its reversed digits, so the writer is
described from the least significant byte up and reversed once. Nothing here names a format.
-/

namespace MsgTrans.Base

-- The writer works on the little-endian digits; `beBytes` is the public order.
private def digitBytes : Nat → Nat → List UInt8
  | 0, _ => []
  | n + 1, x => UInt8.ofNat x :: digitBytes n (x / 256)

private def digitValue (bs : List UInt8) : Nat := Nat.ofDigits 256 (bs.map UInt8.toNat)

/-- The `n` low bytes of `x`, most significant byte first. -/
def beBytes (n x : Nat) : List UInt8 := (digitBytes n x).reverse

/-- The value of a byte list read most significant byte first. -/
def beNat (bs : List UInt8) : Nat := digitValue bs.reverse

private theorem digitBytes_succ (n x : Nat) :
    digitBytes (n + 1) x = UInt8.ofNat x :: digitBytes n (x / 256) := rfl

private theorem length_digitBytes (n x : Nat) : (digitBytes n x).length = n := by
  induction n generalizing x with
  | zero => rfl
  | succ n ih => rw [digitBytes_succ, List.length_cons, ih]

private theorem digitValue_cons (b : UInt8) (bs : List UInt8) :
    digitValue (b :: bs) = b.toNat + 256 * digitValue bs := by
  simp [digitValue, Nat.ofDigits_cons]

private theorem digitValue_digitBytes (n x : Nat) (h : x < 256 ^ n) :
    digitValue (digitBytes n x) = x := by
  induction n generalizing x with
  | zero =>
    rw [Nat.pow_zero, Nat.lt_one_iff] at h
    rw [h]
    rfl
  | succ n ih =>
    have hq : x / 256 < 256 ^ n := by
      rw [Nat.div_lt_iff_lt_mul (by decide)]
      rwa [Nat.pow_succ] at h
    have hd : (UInt8.ofNat x).toNat = x % 256 := rfl
    rw [digitBytes_succ, digitValue_cons, ih _ hq, hd]
    exact Nat.mod_add_div x 256

private theorem digitBytes_digitValue (bs : List UInt8) :
    digitBytes bs.length (digitValue bs) = bs := by
  induction bs with
  | nil => rfl
  | cons b bs ih =>
    have hb := b.toNat_lt
    have hq : (b.toNat + 256 * digitValue bs) / 256 = digitValue bs := by omega
    rw [List.length_cons, digitBytes_succ, digitValue_cons, hq, ih]
    congr 1
    apply UInt8.toNat_inj.mp
    change (b.toNat + 256 * digitValue bs) % 256 = b.toNat
    omega

/-- Writing has exactly the requested width. -/
@[simp] theorem length_beBytes (n x : Nat) : (beBytes n x).length = n := by
  rw [beBytes, List.length_reverse, length_digitBytes]

/-- A value that fits the width is read back exactly. -/
theorem beNat_beBytes {n x : Nat} (h : x < 256 ^ n) : beNat (beBytes n x) = x := by
  rw [beNat, beBytes, List.reverse_reverse, digitValue_digitBytes n x h]

/-- Writing the value of a word at its own width returns the word. -/
theorem beBytes_beNat (bs : List UInt8) : beBytes bs.length (beNat bs) = bs := by
  rw [beBytes, beNat, ← List.length_reverse, digitBytes_digitValue, List.reverse_reverse]

/-- A word of `n` bytes denotes a value below `256 ^ n`. -/
theorem beNat_lt (bs : List UInt8) : beNat bs < 256 ^ bs.length := by
  have h := Nat.ofDigits_lt_base_pow_length (b := 256) (l := bs.reverse.map UInt8.toNat)
    (by decide) (by
      intro d hd
      obtain ⟨b, -, rfl⟩ := List.mem_map.mp hd
      exact b.toNat_lt)
  rwa [List.length_map, List.length_reverse] at h

/-- A word is its front shifted behind its end. -/
theorem beNat_append (bs cs : List UInt8) :
    beNat (bs ++ cs) = beNat bs * 256 ^ cs.length + beNat cs := by
  rw [beNat, beNat, beNat, List.reverse_append, digitValue, List.map_append, Nat.ofDigits_append,
    List.length_map, List.length_reverse, ← digitValue, ← digitValue, Nat.add_comm, Nat.mul_comm]

/-- Zero bytes denote zero. -/
theorem beNat_replicate_zero (n : Nat) : beNat (List.replicate n 0) = 0 := by
  induction n with
  | zero => rfl
  | succ n ih => rw [List.replicate_succ', beNat_append, ih]; rfl

end MsgTrans.Base
