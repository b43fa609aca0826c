import Mathlib.Data.List.Basic
import Mathlib.Data.Nat.Notation
import Mathlib.Tactic.Common

/-!
# Strings of UTF-16 code units

A string of 16-bit code units need not be text: a surrogate may stand alone. Read as text, lone
surrogates become the replacement character.

* **`toText_ofText`** — text comes back from its code units.
* **`ofText_toText_iff`** — a string comes back from the text it reads as, exactly when it is
  well formed.
-/

namespace Foundations

/-- A string as a sequence of 16-bit code units. -/
abbrev Utf16 : Type := List UInt16

namespace Utf16

/-- The first half of a pair. -/
def isHigh (u : UInt16) : Bool := decide (0xD800 ≤ u.toNat ∧ u.toNat < 0xDC00)

/-- The second half of a pair. -/
def isLow (u : UInt16) : Bool := decide (0xDC00 ≤ u.toNat ∧ u.toNat < 0xE000)

/-- The character of a pair. -/
def ofPair (u v : UInt16) : Char :=
  Char.ofNat (0x10000 + (u.toNat - 0xD800) * 0x400 + (v.toNat - 0xDC00))

/-- U+FFFD. -/
def replacement : Char := Char.ofNat 0xFFFD

/-- The code units as text. -/
def toText : Utf16 → List Char
  | [] => []
  | [u] => if isHigh u || isLow u then [replacement] else [Char.ofNat u.toNat]
  | u :: v :: rest =>
      if isHigh u then
        if isLow v then ofPair u v :: toText rest else replacement :: toText (v :: rest)
      else if isLow u then replacement :: toText (v :: rest)
      else Char.ofNat u.toNat :: toText (v :: rest)

/-- Every surrogate is part of a pair. -/
def isWellFormed : Utf16 → Bool
  | [] => true
  | [u] => !(isHigh u || isLow u)
  | u :: v :: rest =>
      if isHigh u then isLow v && isWellFormed rest
      else !isLow u && isWellFormed (v :: rest)

/-- The code units of a character. -/
def units (c : Char) : Utf16 :=
  if c.toNat < 0x10000 then [UInt16.ofNat c.toNat]
  else [UInt16.ofNat (0xD800 + (c.toNat - 0x10000) / 0x400),
    UInt16.ofNat (0xDC00 + (c.toNat - 0x10000) % 0x400)]

/-- The code units of a text. -/
def ofText (text : List Char) : Utf16 := text.flatMap units

@[simp] theorem ofText_nil : ofText [] = [] := rfl

@[simp] theorem ofText_cons (c : Char) (text : List Char) :
    ofText (c :: text) = units c ++ ofText text := rfl

theorem toNat_ofNat {n : ℕ} (h : n < 0x10000) : (UInt16.ofNat n).toNat = n :=
  UInt16.toNat_ofNat_of_lt h

/-- No character is a surrogate. -/
theorem char_toNat (c : Char) : c.toNat < 0xD800 ∨ 0xDFFF < c.toNat ∧ c.toNat < 0x110000 := by
  have hvalid : c.toNat.isValidChar := c.valid
  exact hvalid

theorem toNat_ofNat_char {n : ℕ} (h : n < 0xD800 ∨ 0xDFFF < n ∧ n < 0x110000) :
    (Char.ofNat n).toNat = n := by
  have hvalid : n.isValidChar := h
  rw [Char.ofNat, dif_pos hvalid]
  rfl

theorem toNat_single {u : UInt16} (hhigh : isHigh u = false) (hlow : isLow u = false) :
    (Char.ofNat u.toNat).toNat = u.toNat := by
  rw [isHigh, decide_eq_false_iff_not] at hhigh
  rw [isLow, decide_eq_false_iff_not] at hlow
  have hlt := u.toNat_lt
  exact toNat_ofNat_char (by omega)

theorem toNat_ofPair {u v : UInt16} (hhigh : isHigh u = true) (hlow : isLow v = true) :
    (ofPair u v).toNat = 0x10000 + (u.toNat - 0xD800) * 0x400 + (v.toNat - 0xDC00) := by
  rw [isHigh, decide_eq_true_eq] at hhigh
  rw [isLow, decide_eq_true_eq] at hlow
  exact toNat_ofNat_char (by omega)

/-- A unit that is no surrogate is a character of its own. -/
theorem toText_single {u : UInt16} (hhigh : isHigh u = false) (hlow : isLow u = false)
    (rest : Utf16) : toText (u :: rest) = Char.ofNat u.toNat :: toText rest := by
  cases rest with
  | nil =>
    show (if isHigh u || isLow u then [replacement] else [Char.ofNat u.toNat]) = _
    rw [hhigh, hlow, Bool.or_self, if_neg Bool.false_ne_true]
    rfl
  | cons v rest => rw [toText, hhigh, hlow, if_neg Bool.false_ne_true, if_neg Bool.false_ne_true]

/-- Text comes back from its code units. -/
theorem toText_ofText (text : List Char) : toText (ofText text) = text := by
  induction text with
  | nil => rfl
  | cons c text ih =>
    rw [ofText_cons, units]
    by_cases hsmall : c.toNat < 0x10000
    · have hunit := toNat_ofNat hsmall
      have hrange := char_toNat c
      have hhigh : isHigh (UInt16.ofNat c.toNat) = false := by
        rw [isHigh, decide_eq_false_iff_not, hunit]
        omega
      have hlow : isLow (UInt16.ofNat c.toNat) = false := by
        rw [isLow, decide_eq_false_iff_not, hunit]
        omega
      rw [if_pos hsmall, List.singleton_append, toText_single hhigh hlow, hunit, ih,
        Char.ofNat_toNat]
    · have hrange := char_toNat c
      have hfirst := toNat_ofNat (n := 0xD800 + (c.toNat - 0x10000) / 0x400) (by omega)
      have hsecond := toNat_ofNat (n := 0xDC00 + (c.toNat - 0x10000) % 0x400) (by omega)
      have hhigh : isHigh (UInt16.ofNat (0xD800 + (c.toNat - 0x10000) / 0x400)) = true := by
        rw [isHigh, decide_eq_true_eq, hfirst]
        omega
      have hlow : isLow (UInt16.ofNat (0xDC00 + (c.toNat - 0x10000) % 0x400)) = true := by
        rw [isLow, decide_eq_true_eq, hsecond]
        omega
      have hsum : 0x10000 + (0xD800 + (c.toNat - 0x10000) / 0x400 - 0xD800) * 0x400 +
          (0xDC00 + (c.toNat - 0x10000) % 0x400 - 0xDC00) = c.toNat := by
        omega
      rw [if_neg hsmall, List.cons_append, List.singleton_append, toText, hhigh, hlow, if_pos rfl,
        if_pos rfl, ofPair, hfirst, hsecond, hsum, ih, Char.ofNat_toNat]

/-- A pair is the code units of its character. -/
theorem units_ofPair {u v : UInt16} (hhigh : isHigh u = true) (hlow : isLow v = true) :
    units (ofPair u v) = [u, v] := by
  have hchar := toNat_ofPair hhigh hlow
  rw [isHigh, decide_eq_true_eq] at hhigh
  rw [isLow, decide_eq_true_eq] at hlow
  have hfirst : 0xD800 + (0x10000 + (u.toNat - 0xD800) * 0x400 + (v.toNat - 0xDC00) - 0x10000) /
      0x400 = u.toNat := by omega
  have hsecond : 0xDC00 + (0x10000 + (u.toNat - 0xD800) * 0x400 + (v.toNat - 0xDC00) - 0x10000) %
      0x400 = v.toNat := by omega
  rw [units, hchar, if_neg (by omega), hfirst, hsecond, UInt16.ofNat_toNat, UInt16.ofNat_toNat]

/-- A unit that is no surrogate is the code unit of its character. -/
theorem units_ofNat {u : UInt16} (hhigh : isHigh u = false) (hlow : isLow u = false) :
    units (Char.ofNat u.toNat) = [u] := by
  have hlt := u.toNat_lt
  rw [units, toNat_single hhigh hlow, if_pos (by omega), UInt16.ofNat_toNat]

/-- A well-formed string comes back from the text it reads as. -/
theorem ofText_toText {s : Utf16} (h : isWellFormed s = true) : ofText (toText s) = s := by
  fun_induction toText s with
  | case1 => rfl
  | case2 u hlone =>
    rw [isWellFormed, hlone] at h
    cases h
  | case3 u hsingle =>
    obtain ⟨hhigh, hlow⟩ := Bool.or_eq_false_iff.mp (Bool.eq_false_iff.mpr hsingle)
    rw [ofText_cons, units_ofNat hhigh hlow]
    rfl
  | case4 u v rest hhigh hlow ih =>
    rw [isWellFormed, if_pos hhigh, Bool.and_eq_true] at h
    rw [ofText_cons, units_ofPair hhigh hlow, ih h.2]
    rfl
  | case5 u v rest hhigh hlow ih =>
    rw [isWellFormed, if_pos hhigh, Bool.and_eq_true] at h
    exact absurd h.1 hlow
  | case6 u v rest hhigh hlow ih =>
    rw [isWellFormed, if_neg hhigh, hlow] at h
    cases h
  | case7 u v rest hhigh hlow ih =>
    rw [isWellFormed, if_neg hhigh, Bool.and_eq_true] at h
    rw [ofText_cons, units_ofNat (Bool.eq_false_iff.mpr hhigh) (Bool.eq_false_iff.mpr hlow),
      ih h.2]
    rfl

theorem isWellFormed_single {u : UInt16} (hhigh : isHigh u = false) (hlow : isLow u = false)
    (rest : Utf16) : isWellFormed (u :: rest) = isWellFormed rest := by
  cases rest with
  | nil =>
    show (!(isHigh u || isLow u)) = _
    rw [hhigh, hlow]
    rfl
  | cons v rest =>
    rw [isWellFormed, hhigh, hlow, if_neg Bool.false_ne_true]
    rfl

/-- The code units of a text are well formed. -/
theorem isWellFormed_ofText (text : List Char) : isWellFormed (ofText text) = true := by
  induction text with
  | nil => rfl
  | cons c text ih =>
    have hrange := char_toNat c
    rw [ofText_cons, units]
    by_cases hsmall : c.toNat < 0x10000
    · have hunit := toNat_ofNat hsmall
      rw [if_pos hsmall, List.singleton_append, isWellFormed_single, ih]
      · rw [isHigh, decide_eq_false_iff_not, hunit]
        omega
      · rw [isLow, decide_eq_false_iff_not, hunit]
        omega
    · have hfirst := toNat_ofNat (n := 0xD800 + (c.toNat - 0x10000) / 0x400) (by omega)
      have hsecond := toNat_ofNat (n := 0xDC00 + (c.toNat - 0x10000) % 0x400) (by omega)
      have hhigh : isHigh (UInt16.ofNat (0xD800 + (c.toNat - 0x10000) / 0x400)) = true := by
        rw [isHigh, decide_eq_true_eq, hfirst]
        omega
      have hlow : isLow (UInt16.ofNat (0xDC00 + (c.toNat - 0x10000) % 0x400)) = true := by
        rw [isLow, decide_eq_true_eq, hsecond]
        omega
      rw [if_neg hsmall, List.cons_append, List.singleton_append, isWellFormed, if_pos hhigh, hlow,
        ih]
      rfl

/-- A string comes back from the text it reads as exactly when it is well formed. -/
theorem ofText_toText_iff {s : Utf16} : ofText (toText s) = s ↔ isWellFormed s = true :=
  ⟨fun h => h ▸ isWellFormed_ofText (toText s), ofText_toText⟩

theorem ofText_injective {text text' : List Char} (h : ofText text = ofText text') :
    text = text' := by
  rw [← toText_ofText text, h, toText_ofText]

/-- A unit is null exactly when a character of the text is. -/
theorem zero_mem_toText {s : Utf16} : (∃ c ∈ toText s, c.toNat = 0) ↔ 0 ∈ s := by
  have hzero {u : UInt16} : 0 = u ↔ u.toNat = 0 := by
    rw [eq_comm, ← UInt16.toNat_inj]
    rfl
  have hsurrogate {u : UInt16} (h : isHigh u = true ∨ isLow u = true) : ¬ 0 = u := by
    rw [isHigh, isLow, decide_eq_true_eq, decide_eq_true_eq] at h
    rw [hzero]
    omega
  have hreplacement : ¬ replacement.toNat = 0 := by decide
  fun_induction toText s with
  | case1 => simp
  | case2 u hlone =>
    have hne := hsurrogate (Bool.or_eq_true_iff.mp hlone)
    simp [hne, hreplacement]
  | case3 u hsingle =>
    obtain ⟨hhigh, hlow⟩ := Bool.or_eq_false_iff.mp (Bool.eq_false_iff.mpr hsingle)
    simp [toNat_single hhigh hlow, hzero]
  | case4 u v rest hhigh hlow ih =>
    have hne := hsurrogate (.inl hhigh)
    have hne' := hsurrogate (.inr hlow)
    have hpair : ¬ (ofPair u v).toNat = 0 := by
      rw [toNat_ofPair hhigh hlow]
      omega
    simp [hne, hne', hpair, ih]
  | case5 u v rest hhigh hlow ih =>
    have hne := hsurrogate (.inl hhigh)
    rw [List.mem_cons, ← Iff.intro ih.mp ih.mpr]
    simp [hne, hreplacement]
  | case6 u v rest hhigh hlow ih =>
    have hne := hsurrogate (.inr hlow)
    rw [List.mem_cons, ← Iff.intro ih.mp ih.mpr]
    simp [hne, hreplacement]
  | case7 u v rest hhigh hlow ih =>
    have hsingle := toNat_single (Bool.eq_false_iff.mpr hhigh) (Bool.eq_false_iff.mpr hlow)
    rw [List.mem_cons, ← Iff.intro ih.mp ih.mpr]
    simp [hsingle, hzero]

/-- A text begins with a character of one unit exactly when the string begins with its unit,
unless lone surrogates read as that character. -/
theorem head_toText {s : Utf16} {u : UInt16} (hhigh : isHigh u = false) (hlow : isLow u = false)
    (hreplacement : Char.ofNat u.toNat ≠ replacement) :
    (toText s).head? = some (Char.ofNat u.toNat) ↔ s.head? = some u := by
  have hinj {v : UInt16} (hv : isHigh v = false) (hv' : isLow v = false) :
      Char.ofNat v.toNat = Char.ofNat u.toNat ↔ v = u := by
    constructor
    · intro h
      have hnat := congrArg Char.toNat h
      rw [toNat_single hv hv', toNat_single hhigh hlow] at hnat
      exact UInt16.toNat_inj.mp hnat
    · rintro rfl
      rfl
  have hother {v : UInt16} (h : isHigh v = true ∨ isLow v = true) : v ≠ u := by
    rintro rfl
    rcases h with h | h
    · rw [hhigh] at h
      cases h
    · rw [hlow] at h
      cases h
  fun_cases toText s with
  | case1 => simp
  | case2 v hlone =>
    have hne := hother (Bool.or_eq_true_iff.mp hlone)
    simp [hne, hreplacement.symm]
  | case3 v hsingle =>
    obtain ⟨hv, hv'⟩ := Bool.or_eq_false_iff.mp (Bool.eq_false_iff.mpr hsingle)
    simp [hinj hv hv']
  | case4 v v' rest hv hv' =>
    have hne := hother (.inl hv)
    have hpair : ofPair v v' ≠ Char.ofNat u.toNat := by
      intro h
      have hnat := congrArg Char.toNat h
      rw [toNat_ofPair hv hv', toNat_single hhigh hlow] at hnat
      have hlt := u.toNat_lt
      omega
    simp [hne, hpair]
  | case5 v v' rest hv hv' =>
    have hne := hother (.inl hv)
    simp [hne, hreplacement.symm]
  | case6 v v' rest hv hv' =>
    have hne := hother (.inr hv')
    simp [hne, hreplacement.symm]
  | case7 v v' rest hv hv' =>
    simp [hinj (Bool.eq_false_iff.mpr hv) (Bool.eq_false_iff.mpr hv')]

end Utf16

end Foundations
