import AgencCoordination.Foundations.JsonText

/-!
# Hexadecimal text

Two digits for each byte, in lower case.

* **`hexText_inj`** — the text determines the bytes.
-/

namespace Foundations

open JsonValue (hexUnit hexValue_hexUnit)

/-- The bytes in lower-case hexadecimal digits. -/
def hexText (bytes : List UInt8) : Utf16 :=
  bytes.flatMap fun b => [hexUnit (b.toNat / 16), hexUnit (b.toNat % 16)]

/-- Hexadecimal text determines the bytes. -/
theorem hexText_inj {bytes bytes' : List UInt8} (h : hexText bytes = hexText bytes') :
    bytes = bytes' := by
  have hunit : ∀ {m n : ℕ}, m < 16 → n < 16 → hexUnit m = hexUnit n → m = n := by
    intro m n hm hn heq
    have hvalue := hexValue_hexUnit hm
    rw [heq, hexValue_hexUnit hn] at hvalue
    exact (Option.some.inj hvalue).symm
  induction bytes generalizing bytes' with
  | nil =>
    cases bytes' with
    | nil => rfl
    | cons c rest => cases h
  | cons b rest ih =>
    cases bytes' with
    | nil => cases h
    | cons c rest' =>
      obtain ⟨hhigh, htail⟩ := List.cons.inj h
      obtain ⟨hlow, hrest⟩ := List.cons.inj htail
      have hb := b.toNat_lt
      have hc := c.toNat_lt
      have hquotient := hunit (by omega) (by omega) hhigh
      have hremainder := hunit (by omega) (by omega) hlow
      have hbyte : b.toNat = c.toNat := by omega
      rw [UInt8.toNat_inj.mp hbyte, ih hrest]

end Foundations
