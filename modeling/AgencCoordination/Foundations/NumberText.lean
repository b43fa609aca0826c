import AgencCoordination.Foundations.Binary64
import AgencCoordination.Foundations.Utf16
import Mathlib.Data.Nat.Digits.Lemmas

/-!
# Numbers as text

The shortest decimal that a number is read back from, laid out with a decimal point or with an
exponent, and the reader of JSON numbers.

* **`exists_shortest`** — some decimal is read back as the number, its exact expansion at the
  latest, so the shortest one exists.
* **`readDecimal_layout`** — each of the four layouts is read as the decimal it lays out.
* **`readNumber_toText`** — so a finite number is read back from its text, negative zero as zero.
-/

namespace Foundations.Number

open Binary64

/-! ## Digits -/

def isDigit (u : UInt16) : Bool := decide (0x30 ≤ u.toNat ∧ u.toNat ≤ 0x39)

/-- The decimal digits of a positive number, most significant first. -/
def decimal (s : ℕ) : Utf16 := (Nat.digits 10 s).reverse.map fun d => UInt16.ofNat (0x30 + d)

/-- The number a string of digits stands for. -/
def ofDecimal (digits : Utf16) : ℕ := digits.foldl (fun n u => 10 * n + (u.toNat - 0x30)) 0

def zeros (n : ℕ) : Utf16 := List.replicate n 0x30

theorem foldl_digits (digits : Utf16) (n : ℕ) :
    digits.foldl (fun n u => 10 * n + (u.toNat - 0x30)) n =
      n * 10 ^ digits.length + ofDecimal digits := by
  induction digits generalizing n with
  | nil => simp [ofDecimal]
  | cons u digits ih =>
    rw [ofDecimal, List.foldl_cons, List.foldl_cons, ih, ih (10 * 0 + _), List.length_cons,
      Nat.pow_succ]
    ring

theorem ofDecimal_append (a b : Utf16) :
    ofDecimal (a ++ b) = ofDecimal a * 10 ^ b.length + ofDecimal b := by
  rw [ofDecimal, List.foldl_append, foldl_digits]
  rfl

theorem ofDecimal_zeros (n : ℕ) : ofDecimal (zeros n) = 0 := by
  induction n with
  | zero => rfl
  | succ n ih =>
    rw [zeros, List.replicate_succ, ← List.singleton_append, ofDecimal_append]
    show 0 * _ + ofDecimal (zeros n) = 0
    rw [ih, Nat.zero_mul]

theorem ofDecimal_digits {digits : List ℕ} (h : ∀ d ∈ digits, d < 10) :
    ofDecimal (digits.reverse.map fun d => UInt16.ofNat (0x30 + d)) = Nat.ofDigits 10 digits := by
  induction digits with
  | nil => rfl
  | cons d digits ih =>
    have hd := h d List.mem_cons_self
    have hunit : (UInt16.ofNat (0x30 + d)).toNat = 0x30 + d := Utf16.toNat_ofNat (by omega)
    rw [List.reverse_cons, List.map_append, ofDecimal_append,
      ih fun d' hd' => h d' (List.mem_cons_of_mem _ hd'), Nat.ofDigits_cons]
    simp only [List.map_cons, List.map_nil, List.length_singleton, ofDecimal, List.foldl_cons,
      List.foldl_nil, hunit]
    push_cast
    omega

theorem ofDecimal_decimal (s : ℕ) : ofDecimal (decimal s) = s := by
  rw [decimal, ofDecimal_digits fun d hd => Nat.digits_lt_base (by norm_num) hd,
    Nat.ofDigits_digits]

theorem isDigit_decimal {s : ℕ} {u : UInt16} (h : u ∈ decimal s) : isDigit u = true := by
  obtain ⟨d, hd, rfl⟩ := List.mem_map.mp h
  have hlt : d < 10 := Nat.digits_lt_base (by norm_num) (List.mem_reverse.mp hd)
  rw [isDigit, decide_eq_true_eq, Utf16.toNat_ofNat (by omega)]
  omega

theorem isDigit_zeros {n : ℕ} {u : UInt16} (h : u ∈ zeros n) : isDigit u = true := by
  rw [List.eq_of_mem_replicate h]
  decide

/-- The first digit of a positive number. -/
theorem decimal_cons {s : ℕ} (hs : s ≠ 0) :
    ∃ u rest, decimal s = u :: rest ∧ u ≠ 0x30 := by
  have hne : Nat.digits 10 s ≠ [] := Nat.digits_ne_nil_iff_ne_zero.mpr hs
  have hlast := Nat.getLast_digit_ne_zero 10 hs
  obtain ⟨init, d, hdigits⟩ := (Nat.digits 10 s).eq_nil_or_concat.resolve_left hne
  have hd : d < 10 := by
    refine Nat.digits_lt_base (by norm_num) ?_ (b := 10) (m := s)
    rw [hdigits, List.concat_eq_append]
    exact List.mem_append_right _ List.mem_cons_self
  refine ⟨UInt16.ofNat (0x30 + d), init.reverse.map fun d => UInt16.ofNat (0x30 + d), ?_, ?_⟩
  · rw [decimal, hdigits, List.concat_eq_append, List.reverse_append]
    rfl
  · intro heq
    have hunit := congrArg UInt16.toNat heq
    rw [Utf16.toNat_ofNat (by omega)] at hunit
    have hzero : d ≠ 0 := by
      simpa [hdigits] using hlast
    exact hzero (by simpa using hunit)

/-- The number of digits. -/
theorem length_decimal {s k : ℕ} (hlow : 10 ^ k ≤ s) (hhigh : s < 10 ^ (k + 1)) :
    (decimal s).length = k + 1 := by
  have hs : s ≠ 0 := (Nat.lt_of_lt_of_le (Nat.pow_pos (by norm_num)) hlow).ne'
  rw [decimal, List.length_map, List.length_reverse, Nat.length_digits 10 s (by norm_num) hs,
    Nat.log_eq_of_pow_le_of_lt_pow hlow hhigh]

/-! ## The shortest decimal -/

/-- A decimal: its digits as a number, and the place of its point. -/
structure Decimal where
  digits : ℕ
  point : ℤ

/-- `0.d₁d₂d₃…` times ten to the `point`. -/
def Decimal.value (c : Decimal) : ℚ :=
  c.digits * 10 ^ (c.point - (decimal c.digits).length)

/-- The decimals of `k` digits next to `m`, the nearer one first. -/
def nearby (m : ℚ) (k : ℕ) : List Decimal :=
  let n := Int.log 10 m + 1
  let scaled := m * 10 ^ ((k : ℤ) - n)
  let low := ⌊scaled⌋.toNat
  let high := if low + 1 = 10 ^ k then ⟨10 ^ (k - 1), n + 1⟩ else ⟨low + 1, n⟩
  if scaled - low < 1 / 2 ∨ scaled - low = 1 / 2 ∧ low % 2 = 0 then [⟨low, n⟩, high]
  else [high, ⟨low, n⟩]

/-- The decimal of `k` digits that is read back as `m`, if there is one. -/
def shortest? (m : ℚ) (k : ℕ) : Option Decimal :=
  (nearby m k).find? fun c => decide (nearest c.value = m)

theorem mem_nearby (m : ℚ) (k : ℕ) :
    (⟨⌊m * 10 ^ ((k : ℤ) - (Int.log 10 m + 1))⌋.toNat, Int.log 10 m + 1⟩ : Decimal) ∈
      nearby m k := by
  simp only [nearby]
  split_ifs
  all_goals simp

/-- **Shortest decimals** exist: the exact expansion is read back. -/
theorem exists_shortest (m : Magnitude) (h : 0 < m.value) :
    ∃ k, (shortest? m.value (k + 1)).isSome = true := by
  -- so many digits that nothing is cut off
  obtain ⟨k, hk⟩ : ∃ k : ℕ, 1074 ≤ ((k + 1 : ℕ) : ℤ) - (Int.log 10 m.value + 1) :=
    ⟨(Int.log 10 m.value + 1 + 1074).toNat, by push_cast; omega⟩
  obtain ⟨n, hn⟩ := integral_scaled m.nonneg m.exact hk
  refine ⟨k, ?_⟩
  rw [shortest?, List.find?_isSome]
  refine ⟨_, mem_nearby m.value (k + 1), ?_⟩
  rw [hn, decide_eq_true_eq]
  have hfloor : ⌊(n : ℚ)⌋.toNat = n := by simp
  rw [hfloor]
  -- the expansion has `k + 1` digits
  have hten : (0 : ℚ) < 10 ^ (((k + 1 : ℕ) : ℤ) - (Int.log 10 m.value + 1)) :=
    zpow_pos (by norm_num) _
  have hlow : 10 ^ k ≤ n := by
    have hlog := Int.zpow_log_le_self (R := ℚ) (b := 10) (by norm_num) h
    have hmul := mul_le_mul_of_nonneg_right hlog hten.le
    rw [hn] at hmul
    have hpow : ((10 : ℕ) : ℚ) ^ Int.log 10 m.value *
        10 ^ (((k + 1 : ℕ) : ℤ) - (Int.log 10 m.value + 1)) = 10 ^ k := by
      rw [Nat.cast_ofNat, ← zpow_add₀ (by norm_num), ← zpow_natCast]
      congr 1
      push_cast
      ring
    rw [hpow] at hmul
    exact_mod_cast hmul
  have hhigh : n < 10 ^ (k + 1) := by
    have hlog := Int.lt_zpow_succ_log_self (R := ℚ) (b := 10) (by norm_num) m.value
    have hmul := mul_lt_mul_of_pos_right hlog hten
    rw [hn] at hmul
    have hpow : ((10 : ℕ) : ℚ) ^ (Int.log 10 m.value + 1) *
        10 ^ (((k + 1 : ℕ) : ℤ) - (Int.log 10 m.value + 1)) = 10 ^ (k + 1) := by
      rw [Nat.cast_ofNat, ← zpow_add₀ (by norm_num), ← zpow_natCast]
      congr 1
      ring
    rw [hpow] at hmul
    exact_mod_cast hmul
  have hvalue : (⟨n, Int.log 10 m.value + 1⟩ : Decimal).value = m.value := by
    rw [Decimal.value, length_decimal hlow hhigh, ← hn, mul_assoc, ← zpow_add₀ (by norm_num),
      sub_add_sub_cancel, sub_self, zpow_zero, mul_one]
  rw [hvalue, m.exact]

/-- The shortest decimal that is read back as `m`. -/
def shortest (m : Magnitude) (h : 0 < m.value) : Option Decimal :=
  shortest? m.value (Nat.find (exists_shortest m h) + 1)

theorem shortest_spec (m : Magnitude) (h : 0 < m.value) :
    ∃ c, shortest m h = some c ∧ nearest c.value = m.value ∧ c.digits ≠ 0 := by
  obtain ⟨c, hc⟩ := Option.isSome_iff_exists.mp (Nat.find_spec (exists_shortest m h))
  have hnearest : nearest c.value = m.value := by
    have hfound := List.find?_some hc
    rwa [decide_eq_true_eq] at hfound
  refine ⟨c, hc, hnearest, fun hzero => ?_⟩
  rw [Decimal.value, hzero, Nat.cast_zero, zero_mul, nearest_zero] at hnearest
  exact absurd hnearest h.ne

/-! ## Layout -/

/-- The exponent of a number: its sign and its digits. -/
def exponentText (e : ℤ) : Utf16 := 0x65 :: (if e < 0 then 0x2D else 0x2B) :: decimal e.natAbs

/-- The digits, with the point after the first `n` of them: padded with zeros, with a point inside
or behind zeros, or with an exponent (`Number::toString`). -/
def layout (digits : Utf16) (n : ℤ) : Utf16 :=
  if (digits.length : ℤ) ≤ n ∧ n ≤ 21 then digits ++ zeros (n - digits.length).toNat
  else if 0 < n ∧ n ≤ 21 then digits.take n.toNat ++ 0x2E :: digits.drop n.toNat
  else if -6 < n ∧ n ≤ 0 then 0x30 :: 0x2E :: (zeros (-n).toNat ++ digits)
  else if digits.length = 1 then digits ++ exponentText (n - 1)
  else digits.take 1 ++ 0x2E :: digits.drop 1 ++ exponentText (n - 1)

def magnitudeText (m : Magnitude) : Utf16 :=
  if h : 0 < m.value then
    match shortest m h with
    | some c => layout (decimal c.digits) c.point
    | none => []
  else [0x30]

/-- `Number::toString`. -/
def toText : Number → Utf16
  | .finite negative size =>
      if negative ∧ 0 < size.value then 0x2D :: magnitudeText size else magnitudeText size
  | .infinite negative =>
      Utf16.ofText (if negative then "-Infinity".toList else "Infinity".toList)

/-! ## Reading -/

/-- The digits after a point, if there is one. -/
def readFraction : Utf16 → Option (Utf16 × Utf16)
  | [] => some ([], [])
  | u :: rest =>
    if u = 0x2E then
      match rest.span isDigit with
      | ([], _) => none
      | (digits, rest) => some (digits, rest)
    else some ([], u :: rest)

/-- The digits of an exponent. -/
def readExponentDigits (negative : Bool) (text : Utf16) : Option (ℤ × Utf16) :=
  match text.span isDigit with
  | ([], _) => none
  | (digits, rest) =>
    some (if negative then -(ofDecimal digits : ℤ) else ofDecimal digits, rest)

/-- The exponent, if there is one. -/
def readExponent : Utf16 → Option (ℤ × Utf16)
  | [] => some (0, [])
  | u :: rest =>
    if u = 0x65 ∨ u = 0x45 then
      match rest with
      | [] => none
      | v :: rest' =>
        if v = 0x2D then readExponentDigits true rest'
        else if v = 0x2B then readExponentDigits false rest'
        else readExponentDigits false rest
    else some (0, u :: rest)

/-- An unsigned number: an integer and the power of ten it is multiplied by. -/
def readDecimal (text : Utf16) : Option ((ℕ × ℤ) × Utf16) := do
  let (whole, rest) := text.span isDigit
  if whole = [] ∨ whole.head? = some 0x30 ∧ whole.length ≠ 1 then none
  else do
    let (fraction, rest) ← readFraction rest
    let (exponent, rest) ← readExponent rest
    some ((ofDecimal (whole ++ fraction), exponent - fraction.length), rest)

theorem value_nonneg (c : ℕ × ℤ) : (0 : ℚ) ≤ c.1 * 10 ^ c.2 :=
  mul_nonneg (Nat.cast_nonneg _) (zpow_nonneg (by norm_num) _)

/-- A number at the front of a JSON text. -/
def readNumber (text : Utf16) : Option (Number × Utf16) :=
  let (negative, text) := match text with
    | [] => (false, [])
    | u :: rest => if u = 0x2D then (true, rest) else (false, u :: rest)
  (readDecimal text).map fun p => (ofRat negative (p.1.1 * 10 ^ p.1.2) (value_nonneg p.1), p.2)

/-- What follows does not continue a number. -/
def Closed : Utf16 → Bool
  | [] => true
  | u :: _ => !(isDigit u || u == 0x2E || u == 0x65 || u == 0x45)

theorem span_digits {digits rest : Utf16} (h : ∀ u ∈ digits, isDigit u = true)
    (hrest : ∀ u ∈ rest.head?, isDigit u = false) :
    (digits ++ rest).span isDigit = (digits, rest) := by
  rw [List.span_eq_takeWhile_dropWhile]
  have htake : rest.takeWhile isDigit = [] := by
    cases rest with
    | nil => rfl
    | cons u rest => rw [List.takeWhile_cons, hrest u rfl]; rfl
  have hdrop : rest.dropWhile isDigit = rest := by
    cases rest with
    | nil => rfl
    | cons u rest => rw [List.dropWhile_cons, hrest u rfl]; rfl
  rw [List.takeWhile_append_of_pos h, List.dropWhile_append_of_pos h, htake, hdrop,
    List.append_nil]

theorem Closed.head {rest : Utf16} (h : Closed rest = true) {u : UInt16} (hu : u ∈ rest.head?) :
    isDigit u = false ∧ u ≠ 0x2E ∧ u ≠ 0x65 ∧ u ≠ 0x45 := by
  cases rest with
  | nil => cases hu
  | cons v rest =>
    obtain rfl : v = u := Option.some.inj hu
    simpa [Closed, and_assoc] using h

theorem readFraction_of_ne {rest : Utf16} (h : ∀ u ∈ rest.head?, u ≠ 0x2E) :
    readFraction rest = some ([], rest) := by
  cases rest with
  | nil => rfl
  | cons u rest => rw [readFraction, if_neg (h u rfl)]

theorem readFraction_point {digits rest : Utf16} (hne : digits ≠ [])
    (h : ∀ u ∈ digits, isDigit u = true) (hrest : ∀ u ∈ rest.head?, isDigit u = false) :
    readFraction (0x2E :: (digits ++ rest)) = some (digits, rest) := by
  rw [readFraction, if_pos rfl, span_digits h hrest]
  cases digits with
  | nil => exact absurd rfl hne
  | cons u digits => rfl

theorem readExponent_of_closed {rest : Utf16} (h : Closed rest = true) :
    readExponent rest = some (0, rest) := by
  cases rest with
  | nil => rfl
  | cons u rest =>
    obtain ⟨-, -, hsmall, hlarge⟩ := Closed.head h (u := u) rfl
    exact if_neg (not_or.mpr ⟨hsmall, hlarge⟩)

theorem readExponent_exponentText {e : ℤ} (he : e ≠ 0) {rest : Utf16}
    (h : Closed rest = true) : readExponent (exponentText e ++ rest) = some (e, rest) := by
  have hspan := span_digits (fun u => isDigit_decimal (s := e.natAbs) (u := u))
    (fun u hu => (Closed.head h hu).1)
  obtain ⟨u, digits, hdecimal, -⟩ := decimal_cons (Int.natAbs_ne_zero.mpr he)
  have hread (negative : Bool) : readExponentDigits negative (decimal e.natAbs ++ rest) =
      some (if negative then -(e.natAbs : ℤ) else e.natAbs, rest) := by
    rw [readExponentDigits, hspan]
    conv_rhs => rw [← ofDecimal_decimal e.natAbs]
    rw [hdecimal]
  rw [exponentText]
  by_cases hneg : e < 0
  · rw [if_pos hneg]
    show readExponentDigits true (decimal e.natAbs ++ rest) = _
    rw [hread, if_pos rfl]
    congr 2
    omega
  · rw [if_neg hneg]
    show readExponentDigits false (decimal e.natAbs ++ rest) = _
    rw [hread, if_neg Bool.false_ne_true]
    congr 2
    omega

theorem head_exponentText {e : ℤ} {rest : Utf16} {u : UInt16}
    (h : u ∈ (exponentText e ++ rest).head?) : isDigit u = false ∧ u ≠ 0x2E := by
  obtain rfl : 0x65 = u := Option.some.inj h
  decide

/-- The whole digits of a layout, with what follows them. -/
theorem readDecimal_of_whole {whole rest : Utf16} {fraction : Utf16} {exponent : ℤ}
    {rest' rest'' : Utf16} (hne : whole ≠ []) (hwhole : ∀ u ∈ whole, isDigit u = true)
    (hlead : whole.head? = some 0x30 → whole.length = 1)
    (hrest : ∀ u ∈ rest.head?, isDigit u = false)
    (hfraction : readFraction rest = some (fraction, rest'))
    (hexponent : readExponent rest' = some (exponent, rest'')) :
    readDecimal (whole ++ rest) =
      some ((ofDecimal (whole ++ fraction), exponent - fraction.length), rest'') := by
  have hgood : ¬(whole = [] ∨ whole.head? = some 0x30 ∧ whole.length ≠ 1) := by
    rintro (hempty | ⟨hzero, hlong⟩)
    · exact hne hempty
    · exact hlong (hlead hzero)
  simp only [readDecimal, span_digits hwhole hrest, if_neg hgood, hfraction, hexponent,
    Option.bind_eq_bind, Option.bind_some]

/-- **Layouts** are read as the decimal they lay out. -/
theorem readDecimal_layout {s : ℕ} (hs : s ≠ 0) (n : ℤ) {rest : Utf16}
    (hclosed : Closed rest = true) :
    ∃ c : ℕ × ℤ, readDecimal (layout (decimal s) n ++ rest) = some (c, rest) ∧
      (c.1 : ℚ) * 10 ^ c.2 = s * 10 ^ (n - (decimal s).length) := by
  obtain ⟨u, tail, hdecimal, hlead⟩ := decimal_cons hs
  have hdigits : ∀ u ∈ decimal s, isDigit u = true := fun _ => isDigit_decimal
  have hvalue := ofDecimal_decimal s
  have hhead : (decimal s).head? ≠ some 0x30 := by
    rw [hdecimal]
    exact fun heq => hlead (Option.some.inj heq)
  have hstop : ∀ u ∈ rest.head?, isDigit u = false := fun u hu => (Closed.head hclosed hu).1
  have hpoint : ∀ u ∈ rest.head?, u ≠ 0x2E := fun u hu => (Closed.head hclosed hu).2.1
  have hpos : 1 ≤ (decimal s).length := by
    rw [hdecimal]
    exact Nat.le_add_left 1 _
  have hne : decimal s ≠ [] := List.ne_nil_of_length_pos hpos
  generalize decimal s = digits at *
  unfold layout
  split_ifs with hzeros hinside hbehind hone
  · -- padded with zeros
    refine ⟨(ofDecimal (digits ++ zeros (n - digits.length).toNat ++ []), 0 - ([] : Utf16).length),
      ?_, ?_⟩
    · refine readDecimal_of_whole ?_ ?_ ?_ hstop (readFraction_of_ne hpoint)
        (readExponent_of_closed hclosed)
      · exact List.append_ne_nil_of_left_ne_nil hne _
      · intro u hu
        rcases List.mem_append.mp hu with hu | hu
        · exact hdigits u hu
        · exact isDigit_zeros hu
      · intro heq
        rw [List.head?_append_of_ne_nil _ hne] at heq
        exact absurd heq hhead
    · rw [List.append_nil, ofDecimal_append, ofDecimal_zeros, hvalue, zeros, List.length_replicate]
      have hexp : n - digits.length = ((n - digits.length).toNat : ℤ) := by omega
      conv_rhs => rw [hexp, zpow_natCast]
      push_cast
      simp
  · -- a point inside
    have hlt : n.toNat < digits.length := by omega
    have hwhole : digits.take n.toNat ≠ [] := by
      refine List.ne_nil_of_length_pos ?_
      rw [List.length_take]
      omega
    refine ⟨(ofDecimal (digits.take n.toNat ++ digits.drop n.toNat),
      0 - (digits.drop n.toNat).length), ?_, ?_⟩
    · rw [List.append_assoc, List.cons_append]
      refine readDecimal_of_whole hwhole ?_ ?_ ?_ (readFraction_point ?_ ?_ hstop)
        (readExponent_of_closed hclosed)
      · exact fun u hu => hdigits u (List.mem_of_mem_take hu)
      · intro heq
        rw [List.head?_take] at heq
        split_ifs at heq
        exact absurd heq hhead
      · intro v hv
        obtain rfl : 0x2E = v := Option.some.inj hv
        decide
      · refine List.ne_nil_of_length_pos ?_
        rw [List.length_drop]
        omega
      · exact fun u hu => hdigits u (List.mem_of_mem_drop hu)
    · rw [List.take_append_drop, hvalue, List.length_drop]
      congr 2
      omega
  · -- behind zeros
    refine ⟨(ofDecimal ([0x30] ++ (zeros (-n).toNat ++ digits)),
      0 - (zeros (-n).toNat ++ digits).length), ?_, ?_⟩
    · have htext : 0x30 :: 0x2E :: (zeros (-n).toNat ++ digits) ++ rest =
          [0x30] ++ 0x2E :: ((zeros (-n).toNat ++ digits) ++ rest) := rfl
      rw [htext]
      refine readDecimal_of_whole (List.cons_ne_nil _ _) ?_ (fun _ => rfl) ?_
        (readFraction_point ?_ ?_ hstop) (readExponent_of_closed hclosed)
      · intro v hv
        rw [List.mem_singleton.mp hv]
        decide
      · intro v hv
        obtain rfl : 0x2E = v := Option.some.inj hv
        decide
      · exact List.append_ne_nil_of_right_ne_nil _ hne
      · intro u hu
        rcases List.mem_append.mp hu with hu | hu
        · exact isDigit_zeros hu
        · exact hdigits u hu
    · rw [ofDecimal_append, ofDecimal_append, ofDecimal_zeros, hvalue, List.length_append, zeros,
        List.length_replicate]
      have hzero : ofDecimal [0x30] = 0 := rfl
      rw [hzero, Nat.zero_mul, Nat.zero_mul, Nat.zero_add, Nat.zero_add]
      congr 2
      push_cast
      omega
  · -- one digit and an exponent
    refine ⟨(ofDecimal (digits ++ []), n - 1 - ([] : Utf16).length), ?_, ?_⟩
    · rw [List.append_assoc]
      refine readDecimal_of_whole hne hdigits (fun heq => absurd heq hhead)
        (fun u hu => (head_exponentText hu).1)
        (readFraction_of_ne fun u hu => (head_exponentText hu).2)
        (readExponent_exponentText ?_ hclosed)
      omega
    · rw [List.append_nil, hvalue, hone]
      simp
  · -- several digits and an exponent
    refine ⟨(ofDecimal (digits.take 1 ++ digits.drop 1), n - 1 - (digits.drop 1).length), ?_, ?_⟩
    · rw [List.append_assoc, List.append_assoc, List.cons_append]
      refine readDecimal_of_whole ?_ ?_ ?_ ?_
        (readFraction_point ?_ ?_ fun u hu => (head_exponentText hu).1)
        (readExponent_exponentText ?_ hclosed)
      · refine List.ne_nil_of_length_pos ?_
        rw [List.length_take]
        omega
      · exact fun u hu => hdigits u (List.mem_of_mem_take hu)
      · intro _
        rw [List.length_take]
        omega
      · intro v hv
        obtain rfl : 0x2E = v := Option.some.inj hv
        decide
      · refine List.ne_nil_of_length_pos ?_
        rw [List.length_drop]
        omega
      · exact fun u hu => hdigits u (List.mem_of_mem_drop hu)
      · omega
    · rw [List.take_append_drop, hvalue, List.length_drop]
      congr 2
      omega

/-- A magnitude is read back from its text. -/
theorem readDecimal_magnitudeText (m : Magnitude) {rest : Utf16} (hclosed : Closed rest = true) :
    ∃ c : ℕ × ℤ, readDecimal (magnitudeText m ++ rest) = some (c, rest) ∧
      nearest (c.1 * 10 ^ c.2) = m.value := by
  by_cases hpos : 0 < m.value
  · obtain ⟨c, hc, hnearest, hne⟩ := shortest_spec m hpos
    obtain ⟨d, hread, hvalue⟩ := readDecimal_layout hne c.point hclosed
    refine ⟨d, ?_, ?_⟩
    · rw [magnitudeText, dif_pos hpos, hc]
      exact hread
    · rw [hvalue]
      exact hnearest
  · have hzero : m.value = 0 := le_antisymm (not_lt.mp hpos) m.nonneg
    refine ⟨(ofDecimal ([0x30] ++ []), 0 - ([] : Utf16).length), ?_, ?_⟩
    · rw [magnitudeText, dif_neg hpos]
      refine readDecimal_of_whole (List.cons_ne_nil _ _) ?_ (fun _ => rfl)
        (fun u hu => (Closed.head hclosed hu).1)
        (readFraction_of_ne fun u hu => (Closed.head hclosed hu).2.1)
        (readExponent_of_closed hclosed)
      intro v hv
      rw [List.mem_singleton.mp hv]
      decide
    · rw [hzero]
      have hdigits : ofDecimal ([0x30] ++ []) = 0 := rfl
      rw [hdigits, Nat.cast_zero, zero_mul, nearest_zero]

/-- The text of a magnitude starts with a digit. -/
theorem magnitudeText_cons (m : Magnitude) :
    ∃ u rest, magnitudeText m = u :: rest ∧ isDigit u = true := by
  have hend : Closed [] = true := rfl
  obtain ⟨c, hread, -⟩ := readDecimal_magnitudeText m hend
  rw [List.append_nil] at hread
  cases htext : magnitudeText m with
  | nil =>
    rw [htext] at hread
    cases hread
  | cons u rest =>
    refine ⟨u, rest, rfl, ?_⟩
    rw [htext] at hread
    by_contra hdigit
    have hspan : (u :: rest).span isDigit = ([], u :: rest) := by
      rw [List.span_eq_takeWhile_dropWhile, List.takeWhile_cons_of_neg hdigit,
        List.dropWhile_cons_of_neg hdigit]
    rw [readDecimal, hspan] at hread
    cases hread

/-- The text of a finite number starts with a digit or a minus sign. -/
theorem toText_cons {x : Number} (hx : x.isFinite = true) :
    ∃ u rest, toText x = u :: rest ∧ (isDigit u = true ∨ u = 0x2D) := by
  cases x with
  | infinite negative => cases hx
  | finite negative size =>
    obtain ⟨u, rest, htext, hdigit⟩ := magnitudeText_cons size
    rw [toText]
    split_ifs
    · exact ⟨_, _, rfl, .inr rfl⟩
    · exact ⟨u, rest, htext, .inl hdigit⟩

/-- **Numbers** are read back from their text, negative zero as zero. -/
theorem readNumber_toText {x : Number} (hx : x.isFinite = true) {rest : Utf16}
    (hclosed : Closed rest = true) :
    readNumber (toText x ++ rest) = some (x.unsigned, rest) := by
  cases x with
  | infinite negative => cases hx
  | finite negative size =>
    obtain ⟨c, hread, hnearest⟩ := readDecimal_magnitudeText size hclosed
    by_cases hminus : negative = true ∧ 0 < size.value
    · have htext : toText (.finite negative size) ++ rest =
          0x2D :: (magnitudeText size ++ rest) := by
        rw [toText, if_pos hminus, List.cons_append]
      have hread' : readNumber (0x2D :: (magnitudeText size ++ rest)) =
          (readDecimal (magnitudeText size ++ rest)).map fun p =>
            (ofRat true (p.1.1 * 10 ^ p.1.2) (value_nonneg p.1), p.2) := rfl
      rw [htext, hread', hread, Option.map_some, ofRat_of_nearest hnearest, unsigned,
        if_neg hminus.2.ne', hminus.1]
    · obtain ⟨u, tail, htail, hdigit⟩ := magnitudeText_cons size
      have hne : u ≠ 0x2D := by
        rintro rfl
        cases hdigit
      have htext : toText (.finite negative size) = magnitudeText size := by
        rw [toText, if_neg hminus]
      have hread' : readNumber (magnitudeText size ++ rest) =
          (readDecimal (magnitudeText size ++ rest)).map fun p =>
            (ofRat false (p.1.1 * 10 ^ p.1.2) (value_nonneg p.1), p.2) := by
        rw [htail, List.cons_append, readNumber, if_neg hne]
      rw [htext, hread', hread, Option.map_some, ofRat_of_nearest hnearest, unsigned]
      by_cases hzero : size.value = 0
      · rw [if_pos hzero]
      · have hpositive : 0 < size.value := lt_of_le_of_ne size.nonneg (Ne.symm hzero)
        have hsign : negative = false := by
          by_contra hnegative
          exact hminus ⟨Bool.not_eq_false _ ▸ hnegative, hpositive⟩
        rw [if_neg hzero, hsign]

theorem isFinite_unsigned (x : Number) : x.unsigned.isFinite = x.isFinite := by
  cases x with
  | infinite negative => rfl
  | finite negative size =>
    rw [unsigned]
    split_ifs <;> rfl

theorem toText_unsigned (x : Number) : x.unsigned.toText = x.toText := by
  cases x with
  | infinite negative => rfl
  | finite negative size =>
    rw [unsigned]
    split_ifs with hzero
    · rw [toText, toText, if_neg (fun h => absurd h.2 hzero.not_gt),
        if_neg (fun h => absurd h.2 hzero.not_gt)]
    · rfl

end Foundations.Number
