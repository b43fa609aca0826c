import Mathlib.Algebra.Order.Floor.Ring
import Mathlib.Data.Int.Log
import Mathlib.Data.Rat.Floor
import Mathlib.Tactic.FieldSimp
import Mathlib.Tactic.Linarith
import Mathlib.Tactic.NormNum
import Mathlib.Tactic.Ring

/-!
# Numbers of 64 bits

Binary floating point with 53 significant bits, over the rationals: a magnitude is a nonnegative
rational below `2 ^ 1024` that rounding leaves alone.

* **`nearest`** — to the nearest representable rational, ties to the even one.
* **`nearest_nearest`** — rounding leaves what it returns alone, so every nonnegative rational rounds to
  a magnitude or overflows (`ofRat`).
* **`integral_scaled`** — a representable number times a large power of ten is an integer: its
  decimal expansion ends.
-/

namespace Foundations.Binary64

/-- The nearest integer, ties to the even one. -/
def roundEven (q : ℚ) : ℤ :=
  if q - ⌊q⌋ < 1 / 2 ∨ q - ⌊q⌋ = 1 / 2 ∧ ⌊q⌋ % 2 = 0 then ⌊q⌋ else ⌊q⌋ + 1

/-- The exponent of the last place of a number of that size. -/
def place (q : ℚ) : ℤ := max (Int.log 2 q - 52) (-1074)

/-- The nearest representable number. -/
def nearest (q : ℚ) : ℚ := roundEven (q / 2 ^ place q) * 2 ^ place q

theorem roundEven_intCast (z : ℤ) : roundEven z = z := by
  have hzero : (z : ℚ) - ⌊(z : ℚ)⌋ < 1 / 2 := by
    rw [Int.floor_intCast, sub_self]
    norm_num
  rw [roundEven, if_pos (.inl hzero), Int.floor_intCast]

theorem roundEven_nonneg {q : ℚ} (h : 0 ≤ q) : 0 ≤ roundEven q := by
  have hfloor : 0 ≤ ⌊q⌋ := Int.floor_nonneg.mpr h
  rw [roundEven]
  split_ifs
  · exact hfloor
  · omega

/-- Rounding does not pass an integer. -/
theorem roundEven_le {q : ℚ} {z : ℤ} (h : q < z) : roundEven q ≤ z := by
  have hfloor : ⌊q⌋ < z := Int.floor_lt.mpr h
  rw [roundEven]
  split_ifs
  · omega
  · omega

theorem two_zpow_pos (e : ℤ) : (0 : ℚ) < 2 ^ e := zpow_pos (by norm_num) e

/-- A multiple of a place is left alone when its own place is no larger. -/
theorem nearest_of_place_le {z e : ℤ} (h : place (z * 2 ^ e) ≤ e) :
    nearest (z * 2 ^ e) = z * 2 ^ e := by
  obtain ⟨k, hk⟩ := Int.eq_ofNat_of_zero_le (sub_nonneg.mpr h)
  have hdiv : (z * 2 ^ e : ℚ) / 2 ^ place (z * 2 ^ e) = ((z * 2 ^ k : ℤ) : ℚ) := by
    have hexp : e = place (z * 2 ^ e) + k := by omega
    rw [div_eq_iff (two_zpow_pos _).ne']
    push_cast
    conv_lhs => rw [hexp, zpow_add₀ (by norm_num), zpow_natCast]
    ring
  rw [nearest, hdiv, roundEven_intCast, ← hdiv, div_mul_cancel₀ _ (two_zpow_pos _).ne']

/-- What rounding returns counts fewer than `2 ^ 53` places, or exactly so many. -/
theorem roundEven_place_le {q : ℚ} : roundEven (q / 2 ^ place q) ≤ 2 ^ 53 := by
  refine roundEven_le ?_
  rw [div_lt_iff₀ (two_zpow_pos _)]
  have hlog : q < 2 ^ (Int.log 2 q + 1) := by
    have h := Int.lt_zpow_succ_log_self (R := ℚ) Nat.one_lt_two q
    exact_mod_cast h
  have hle : Int.log 2 q + 1 ≤ 53 + place q := by
    have := le_max_left (Int.log 2 q - 52) (-1074)
    rw [place]
    omega
  calc q < 2 ^ (Int.log 2 q + 1) := hlog
    _ ≤ 2 ^ (53 + place q) := zpow_le_zpow_right₀ (by norm_num) hle
    _ = ((2 ^ 53 : ℤ) : ℚ) * 2 ^ place q := by
      rw [zpow_add₀ (by norm_num)]
      norm_num

/-- The size of a number below a power of two. -/
theorem log_lt_of_lt {q : ℚ} {x : ℤ} (hq : 0 < q) (h : q < 2 ^ x) : Int.log 2 q < x := by
  refine (Int.lt_zpow_iff_log_lt Nat.one_lt_two hq).mp ?_
  exact_mod_cast h

/-- A rounded number is a bounded multiple of a place. -/
theorem nearest_eq {q : ℚ} (hq : 0 ≤ q) :
    ∃ z e : ℤ, nearest q = z * 2 ^ e ∧ 0 ≤ z ∧ z ≤ 2 ^ 53 ∧ -1074 ≤ e :=
  ⟨_, _, rfl, roundEven_nonneg (div_nonneg hq (two_zpow_pos _).le), roundEven_place_le,
    le_max_right _ _⟩

theorem nearest_nonneg {q : ℚ} (hq : 0 ≤ q) : 0 ≤ nearest q := by
  obtain ⟨z, e, hround, hz, -, -⟩ := nearest_eq hq
  rw [hround]
  exact mul_nonneg (by exact_mod_cast hz) (two_zpow_pos e).le

theorem nearest_zero : nearest 0 = 0 := by
  norm_num [nearest, roundEven]

/-- **Rounding** leaves what it returns alone. -/
theorem nearest_nearest {q : ℚ} (hq : 0 ≤ q) : nearest (nearest q) = nearest q := by
  obtain ⟨z, e, hround, hnonneg, hbound, hplace⟩ := nearest_eq hq
  rw [hround]
  rcases hnonneg.eq_or_lt with rfl | hpos
  · rw [Int.cast_zero, zero_mul, nearest_zero]
  · have hvalue : (0 : ℚ) < z * 2 ^ e := mul_pos (by exact_mod_cast hpos) (two_zpow_pos e)
    rcases hbound.eq_or_lt with rfl | hlt
    · -- one more place: the number is a power of two
      have hpow : ((2 ^ 53 : ℤ) : ℚ) * 2 ^ e = ((2 ^ 52 : ℤ) : ℚ) * 2 ^ (e + 1) := by
        rw [zpow_add₀ (by norm_num)]
        norm_num
        ring
      have hlt : ((2 ^ 52 : ℤ) : ℚ) * 2 ^ (e + 1) < 2 ^ (e + 54) := by
        rw [zpow_add₀ (by norm_num), zpow_add₀ (by norm_num)]
        norm_num
        have := two_zpow_pos e
        linarith
      rw [hpow] at hvalue ⊢
      refine nearest_of_place_le ?_
      have hlog := log_lt_of_lt hvalue hlt
      rw [place]
      omega
    · have hlt' : (z : ℚ) * 2 ^ e < 2 ^ (53 + e) := by
        rw [zpow_add₀ (by norm_num)]
        refine mul_lt_mul_of_pos_right ?_ (two_zpow_pos e)
        exact_mod_cast hlt
      refine nearest_of_place_le ?_
      have hlog := log_lt_of_lt hvalue hlt'
      rw [place]
      omega

/-- A representable number times a large power of ten is an integer. -/
theorem integral_scaled {q : ℚ} (hq : 0 ≤ q) (hround : nearest q = q) {j : ℤ} (hj : 1074 ≤ j) :
    ∃ n : ℕ, q * 10 ^ j = n := by
  obtain ⟨z, e, heq, hz, -, hplace⟩ := nearest_eq hq
  rw [hround] at heq
  obtain ⟨z', rfl⟩ := Int.eq_ofNat_of_zero_le hz
  obtain ⟨a, ha⟩ := Int.eq_ofNat_of_zero_le (show 0 ≤ e + j by omega)
  obtain ⟨b, hb⟩ := Int.eq_ofNat_of_zero_le (show 0 ≤ j by omega)
  refine ⟨z' * (2 ^ a * 5 ^ b), ?_⟩
  have hten : (10 : ℚ) ^ j = 2 ^ j * 5 ^ j := by
    rw [← mul_zpow]
    norm_num
  have htwo : (2 : ℚ) ^ e * 2 ^ j = 2 ^ a := by
    rw [← zpow_add₀ (by norm_num), ha]
    exact zpow_natCast 2 a
  have hfive : (5 : ℚ) ^ j = 5 ^ b := by
    rw [hb]
    exact zpow_natCast 5 b
  rw [heq, hten, hfive]
  push_cast
  rw [← htwo]
  ring

/-! ## Numbers -/

/-- The size of a finite number. -/
structure Magnitude where
  value : ℚ
  nonneg : 0 ≤ value
  finite : value < 2 ^ 1024
  exact : nearest value = value

theorem Magnitude.ext {m m' : Magnitude} (h : m.value = m'.value) : m = m' := by
  cases m
  cases m'
  cases h
  rfl

instance : DecidableEq Magnitude := fun m m' =>
  decidable_of_iff (m.value = m'.value) ⟨Magnitude.ext, fun h => h ▸ rfl⟩

/-- Zero. -/
def Magnitude.zero : Magnitude := ⟨0, le_refl 0, by norm_num, nearest_zero⟩

end Foundations.Binary64

namespace Foundations

open Binary64

/-- A number that is not NaN: a sign and a size, which may be infinite. -/
inductive Number
  | finite (negative : Bool) (size : Magnitude)
  | infinite (negative : Bool)
  deriving DecidableEq

namespace Number

/-- The number of a sign and a nonnegative rational: rounded, or infinite. -/
def ofRat (negative : Bool) (q : ℚ) (hq : 0 ≤ q) : Number :=
  if hfinite : nearest q < 2 ^ 1024 then
    .finite negative ⟨nearest q, nearest_nonneg hq, hfinite, nearest_nearest hq⟩
  else .infinite negative

/-- A rational that rounds to a magnitude is read as it. -/
theorem ofRat_of_nearest {negative : Bool} {q : ℚ} {hq : 0 ≤ q} {m : Magnitude}
    (h : nearest q = m.value) : ofRat negative q hq = .finite negative m := by
  have hfinite : nearest q < 2 ^ 1024 := h ▸ m.finite
  rw [ofRat, dif_pos hfinite]
  exact congrArg (Number.finite negative) (Magnitude.ext h)

/-- Negative zero as zero. -/
def unsigned : Number → Number
  | .finite negative size =>
      if size.value = 0 then .finite false size else .finite negative size
  | .infinite negative => .infinite negative

def isFinite : Number → Bool
  | .finite _ _ => true
  | .infinite _ => false

end Number

end Foundations
