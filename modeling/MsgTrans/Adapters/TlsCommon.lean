import MsgTrans.Base.Base64
import MsgTrans.Wire.Packet

/-!
# The text of a key pin

Model of `base64_encode`, `crates/msgtrans/src/adapters/tls_common.rs:48–74`, against the standard
base64 of RFC 4648. A pin is the encoded digest of a key (`tls_common.rs:30–46`), so two keys have the
same pin only if their digests are equal.
-/

namespace MsgTrans.Adapters.TlsCommon

open MsgTrans.Wire MsgTrans.Base

/-- `T[i & 63] as char`; `tls_common.rs:51,60–61`. -/
def tableChar (i : UInt32) : Char :=
  Base64.alphabet.get ⟨(i &&& 63).toNat, by
    rw [Base64.length_alphabet, UInt32.toNat_and]
    exact Nat.and_lt_two_pow (n := 6) _ (by decide)⟩

/-- The bits of a chunk; `tls_common.rs:54–59`. -/
def chunkBits (b₀ b₁ b₂ : UInt8) : UInt32 :=
  (b₀.toUInt32 <<< 16) ||| (b₁.toUInt32 <<< 8) ||| b₂.toUInt32

/-- The loop over the chunks of three bytes; `tls_common.rs:53–72`. -/
def encodeChunks : Bytes → List Char
  | [] => []
  | [b₀] =>
    let n := chunkBits b₀ 0 0
    [tableChar (n >>> 18), tableChar (n >>> 12), '=', '=']
  | [b₀, b₁] =>
    let n := chunkBits b₀ b₁ 0
    [tableChar (n >>> 18), tableChar (n >>> 12), tableChar (n >>> 6), '=']
  | b₀ :: b₁ :: b₂ :: rest =>
    let n := chunkBits b₀ b₁ b₂
    [tableChar (n >>> 18), tableChar (n >>> 12), tableChar (n >>> 6), tableChar n] ++
      encodeChunks rest

/-- `base64_encode`; `tls_common.rs:50–74`. -/
def base64Encode (input : Bytes) : String := String.ofList (encodeChunks input)

/-- The bits of a chunk are its bytes one behind the other. -/
theorem toNat_chunkBits (b₀ b₁ b₂ : UInt8) :
    (chunkBits b₀ b₁ b₂).toNat = b₀.toNat * 65536 + b₁.toNat * 256 + b₂.toNat := by
  have h₀ := b₀.toNat_lt
  have h₁ := b₁.toNat_lt
  have h₂ := b₂.toNat_lt
  have hshift₀ : (b₀.toUInt32 <<< 16).toNat = b₀.toNat <<< 16 := by
    rw [UInt32.toNat_shiftLeft, UInt8.toNat_toUInt32]
    exact Nat.mod_eq_of_lt (by rw [Nat.shiftLeft_eq]; show b₀.toNat * 65536 < _; omega)
  have hshift₁ : (b₁.toUInt32 <<< 8).toNat = b₁.toNat <<< 8 := by
    rw [UInt32.toNat_shiftLeft, UInt8.toNat_toUInt32]
    exact Nat.mod_eq_of_lt (by rw [Nat.shiftLeft_eq]; show b₁.toNat * 256 < _; omega)
  rw [chunkBits, UInt32.toNat_or, UInt32.toNat_or, hshift₀, hshift₁, UInt8.toNat_toUInt32,
    Nat.or_assoc, ← Nat.shiftLeft_add_eq_or_of_lt h₂, Nat.shiftLeft_eq b₁.toNat,
    ← Nat.shiftLeft_add_eq_or_of_lt (by omega), Nat.shiftLeft_eq]
  omega

/-- A character of the table is a digit. -/
theorem tableChar_eq (i : UInt32) :
    tableChar i = Base64.digit ⟨i.toNat % 64, Nat.mod_lt _ (by decide)⟩ := by
  have hmod : (i &&& 63).toNat = i.toNat % 64 := by
    rw [UInt32.toNat_and]
    exact Nat.and_two_pow_sub_one_eq_mod i.toNat 6
  simp only [tableChar, Base64.digit, hmod]
  rfl

/-- Six bits of a chunk, by how far they stand from its end. -/
def sextet (b₀ b₁ b₂ : UInt8) (k : Nat) : Fin 64 :=
  ⟨(b₀.toNat * 65536 + b₁.toNat * 256 + b₂.toNat) / 2 ^ k % 64, Nat.mod_lt _ (by decide)⟩

/-- A shifted chunk is written as six of its bits. -/
theorem tableChar_shift (b₀ b₁ b₂ : UInt8) {k : UInt32} (hk : k.toNat < 32) :
    tableChar (chunkBits b₀ b₁ b₂ >>> k) = Base64.digit (sextet b₀ b₁ b₂ k.toNat) := by
  rw [tableChar_eq]
  congr 2
  rw [UInt32.toNat_shiftRight, Nat.mod_eq_of_lt hk, Nat.shiftRight_eq_div_pow, toNat_chunkBits]

theorem tableChar_chunkBits (b₀ b₁ b₂ : UInt8) :
    tableChar (chunkBits b₀ b₁ b₂) = Base64.digit (sextet b₀ b₁ b₂ 0) := by
  rw [tableChar_eq]
  congr 2
  rw [toNat_chunkBits, Nat.pow_zero, Nat.div_one]

section Bytes

variable (b₀ b₁ b₂ : UInt8)

/-- The first byte of a chunk is in its first two digits. -/
theorem ofNat_first :
    UInt8.ofNat ((sextet b₀ b₁ b₂ 18).val * 4 + (sextet b₀ b₁ b₂ 12).val / 16) = b₀ := by
  have h₀ := b₀.toNat_lt
  have h₁ := b₁.toNat_lt
  have h₂ := b₂.toNat_lt
  have hval : (sextet b₀ b₁ b₂ 18).val * 4 + (sextet b₀ b₁ b₂ 12).val / 16 = b₀.toNat := by
    simp only [sextet]
    omega
  rw [hval, UInt8.ofNat_toNat]

/-- The second byte of a chunk is in its second and third digit. -/
theorem ofNat_second :
    UInt8.ofNat ((sextet b₀ b₁ b₂ 12).val % 16 * 16 + (sextet b₀ b₁ b₂ 6).val / 4) = b₁ := by
  have h₁ := b₁.toNat_lt
  have h₂ := b₂.toNat_lt
  have hval : (sextet b₀ b₁ b₂ 12).val % 16 * 16 + (sextet b₀ b₁ b₂ 6).val / 4 = b₁.toNat := by
    simp only [sextet]
    omega
  rw [hval, UInt8.ofNat_toNat]

/-- The third byte of a chunk is in its last two digits. -/
theorem ofNat_third :
    UInt8.ofNat ((sextet b₀ b₁ b₂ 6).val % 4 * 64 + (sextet b₀ b₁ b₂ 0).val) = b₂ := by
  have h₂ := b₂.toNat_lt
  have hval : (sextet b₀ b₁ b₂ 6).val % 4 * 64 + (sextet b₀ b₁ b₂ 0).val = b₂.toNat := by
    simp only [sextet]
    omega
  rw [hval, UInt8.ofNat_toNat]

end Bytes

/-- Decoding gives the bytes back. -/
theorem decode_encodeChunks (input : Bytes) : Base64.decode (encodeChunks input) = some input := by
  induction input using encodeChunks.induct with
  | case1 => rfl
  | case2 b₀ =>
    have hpad : (sextet b₀ 0 0 12).val % 16 = 0 := by
      simp only [sextet, UInt8.toNat_zero]
      omega
    simp only [encodeChunks, tableChar_shift b₀ 0 0 (k := 18) (by decide),
      tableChar_shift b₀ 0 0 (k := 12) (by decide)]
    refine (Base64.decode_one hpad).trans ?_
    exact congrArg (fun b ↦ some [b]) (ofNat_first b₀ 0 0)
  | case3 b₀ b₁ =>
    have hpad : (sextet b₀ b₁ 0 6).val % 4 = 0 := by
      simp only [sextet, UInt8.toNat_zero]
      omega
    simp only [encodeChunks, tableChar_shift b₀ b₁ 0 (k := 18) (by decide),
      tableChar_shift b₀ b₁ 0 (k := 12) (by decide), tableChar_shift b₀ b₁ 0 (k := 6) (by decide)]
    refine (Base64.decode_two hpad).trans ?_
    exact congrArg some (congrArg₂ (fun b b' ↦ [b, b']) (ofNat_first b₀ b₁ 0) (ofNat_second b₀ b₁ 0))
  | case4 b₀ b₁ b₂ rest ih =>
    simp only [encodeChunks, tableChar_shift b₀ b₁ b₂ (k := 18) (by decide),
      tableChar_shift b₀ b₁ b₂ (k := 12) (by decide), tableChar_shift b₀ b₁ b₂ (k := 6) (by decide),
      tableChar_chunkBits]
    rw [List.cons_append, List.cons_append, List.cons_append, List.cons_append, List.nil_append,
      Base64.decode_three, ih]
    simp only [List.nil_append, Option.map_some, UInt32.reduceToNat, ofNat_first, ofNat_second,
      ofNat_third, List.cons_append]

theorem length_encodeChunks (input : Bytes) :
    (encodeChunks input).length = 4 * ((input.length + 2) / 3) := by
  induction input using encodeChunks.induct with
  | case1 => rfl
  | case2 b₀ => simp [encodeChunks]
  | case3 b₀ b₁ => simp [encodeChunks]
  | case4 b₀ b₁ b₂ rest ih =>
    simp only [encodeChunks, List.length_append, ih, List.length_cons, List.length_nil]
    omega

/-- Digits and nothing else stand in front of the padding. -/
theorem encodeChunks_eq (input : Bytes) : ∃ body, (∀ c ∈ body, c ∈ Base64.alphabet) ∧
    encodeChunks input = body ++ List.replicate ((3 - input.length % 3) % 3) '=' := by
  have hmem : ∀ i, tableChar i ∈ Base64.alphabet := fun i ↦ List.get_mem _ _
  induction input using encodeChunks.induct with
  | case1 => exact ⟨[], nofun, rfl⟩
  | case2 b₀ =>
    refine ⟨[_, _], ?_, rfl⟩
    simp only [List.mem_cons, List.not_mem_nil, or_false, forall_eq_or_imp, forall_eq]
    exact ⟨hmem _, hmem _⟩
  | case3 b₀ b₁ =>
    refine ⟨[_, _, _], ?_, rfl⟩
    simp only [List.mem_cons, List.not_mem_nil, or_false, forall_eq_or_imp, forall_eq]
    exact ⟨hmem _, hmem _, hmem _⟩
  | case4 b₀ b₁ b₂ rest ih =>
    obtain ⟨body, hbody, heq⟩ := ih
    have hlength : (b₀ :: b₁ :: b₂ :: rest).length % 3 = rest.length % 3 := by
      simp only [List.length_cons]
      omega
    refine ⟨[_, _, _, _] ++ body, ?_, by rw [encodeChunks, heq, hlength, List.append_assoc]⟩
    simp only [List.mem_append, List.mem_cons, List.not_mem_nil, or_false]
    rintro c ((rfl | rfl | rfl | rfl) | hc)
    · exact hmem _
    · exact hmem _
    · exact hmem _
    · exact hmem _
    · exact hbody c hc

/-- `base64_encode` writes the standard base64 of its bytes: four characters for every three bytes,
digits of the standard alphabet with the padding behind them, and decoded to the same bytes again. So
no two byte lists have the same text. -/
theorem base64Encode_standard :
    (∀ input, (base64Encode input).toList.length = 4 * ((input.length + 2) / 3) ∧
      (∃ body, (∀ c ∈ body, c ∈ Base64.alphabet) ∧ (base64Encode input).toList =
        body ++ List.replicate ((3 - input.length % 3) % 3) '=') ∧
      Base64.decode (base64Encode input).toList = some input) ∧
    Function.Injective base64Encode := by
  constructor
  · intro input
    rw [base64Encode, String.toList_ofList]
    exact ⟨length_encodeChunks input, encodeChunks_eq input, decode_encodeChunks input⟩
  · intro x y h
    have htexts : encodeChunks x = encodeChunks y := by
      rw [← String.toList_ofList (l := encodeChunks x), ← String.toList_ofList (l := encodeChunks y)]
      exact congrArg String.toList h
    have hx := decode_encodeChunks x
    rw [htexts, decode_encodeChunks y] at hx
    exact (Option.some.inj hx).symm

end MsgTrans.Adapters.TlsCommon
