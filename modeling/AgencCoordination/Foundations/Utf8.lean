import Mathlib.Data.List.Basic
import Mathlib.Data.Nat.Notation
import Mathlib.Tactic.Common

/-!
# Text as UTF-8 bytes

* **`decode_encode`**, **`decode_eq_some`** — decoding is the inverse of encoding, and only what
  was encoded decodes.
* **`zero_mem_encode`** — no byte is zero but that of the null character.
-/

namespace Foundations.Utf8

/-- The bytes of a text. -/
def encode (text : List Char) : List UInt8 := text.flatMap String.utf8EncodeChar

/-- The text of bytes, when they are one. -/
def decode (bytes : List UInt8) : Option (List Char) := bytes.toByteArray.utf8Decode?.map Array.toList

@[simp] theorem encode_nil : encode [] = [] := rfl

@[simp] theorem encode_cons (c : Char) (text : List Char) :
    encode (c :: text) = String.utf8EncodeChar c ++ encode text := rfl

theorem toByteArray_encode (text : List Char) : (encode text).toByteArray = text.utf8Encode := rfl

theorem decode_encode (text : List Char) : decode (encode text) = some text := by
  rw [decode, toByteArray_encode, List.utf8Decode?_utf8Encode, Option.map_some]

/-- Only the bytes of a text decode to it. -/
theorem decode_eq_some {bytes : List UInt8} {text : List Char} :
    decode bytes = some text ↔ bytes = encode text := by
  constructor
  · intro h
    obtain ⟨chars, hchars, rfl⟩ := Option.map_eq_some_iff.mp h
    have hsome : bytes.toByteArray.utf8Decode?.isSome = true := by rw [hchars]; rfl
    have hback := ByteArray.utf8Encode_get_utf8Decode? (b := bytes.toByteArray) (h := hsome)
    have hget : bytes.toByteArray.utf8Decode?.get hsome = chars :=
      Option.some.inj ((Option.some_get hsome).trans hchars)
    rw [hget, ← toByteArray_encode] at hback
    exact (List.toByteArray_inj.mp hback).symm
  · rintro rfl
    exact decode_encode text

theorem encode_injective {text text' : List Char} (h : encode text = encode text') :
    text = text' := by
  have hdecode := decode_encode text
  rw [h, decode_encode] at hdecode
  exact (Option.some.inj hdecode).symm

/-- A text that begins with the bytes of another begins with it. -/
theorem isPrefix_of_encode {text text' : List Char} {rest : List UInt8}
    (h : encode text ++ rest = encode text') : text <+: text' := by
  refine List.isPrefix_of_utf8Encode_append_eq_utf8Encode rest.toByteArray ?_
  rw [← toByteArray_encode, ← toByteArray_encode, ← List.toByteArray_append, h]

/-- Every character has a byte. -/
theorem length_le_encode (text : List Char) : text.length ≤ (encode text).length := by
  induction text with
  | nil => exact Nat.le_refl _
  | cons c text ih =>
    have hpos : 0 < (String.utf8EncodeChar c).length :=
      List.length_pos_of_ne_nil String.utf8EncodeChar_ne_nil
    rw [encode_cons, List.length_append, List.length_cons]
    omega

/-- Only the null character has a zero byte. -/
theorem zero_mem_utf8EncodeChar {c : Char} : 0 ∈ String.utf8EncodeChar c ↔ c.toNat = 0 := by
  have hzero {n : ℕ} (hn : n < 256) : 0 = UInt8.ofNat n ↔ n = 0 := by
    constructor
    · intro h
      have hnat : 0 = (UInt8.ofNat n).toNat := congrArg UInt8.toNat h
      rw [UInt8.toNat_ofNat'] at hnat
      omega
    · rintro rfl
      rfl
  have hval : c.val.toNat = c.toNat := rfl
  have hlt : c.toNat < 0x110000 := by
    have hvalid : c.toNat.isValidChar := c.valid
    rcases hvalid with h | h <;> omega
  unfold String.utf8EncodeChar
  rw [hval]
  dsimp only
  split_ifs
  · rw [List.mem_singleton, hzero (by omega)]
  all_goals
    simp (disch := omega) only [List.mem_cons, List.not_mem_nil, or_false, hzero]
    omega

theorem zero_mem_encode {text : List Char} :
    0 ∈ encode text ↔ ∃ c ∈ text, c.toNat = 0 := by
  rw [encode, List.mem_flatMap]
  simp only [zero_mem_utf8EncodeChar]

end Foundations.Utf8
