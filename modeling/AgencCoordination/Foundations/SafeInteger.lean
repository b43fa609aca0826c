import AgencCoordination.Foundations.Binary64

/-!
# Safe integers

The integers between `-(2 ^ 53 - 1)` and `2 ^ 53 - 1` are those that no other integer rounds to.

* **`safeInteger?`** — the integer a number is, if it is safe.
* **`safeInteger_ofNat`** — a natural number is read as a safe integer exactly when it is one.
-/

namespace Foundations

namespace Number

open Binary64

/-- `Number.MAX_SAFE_INTEGER`. -/
def maxSafeInteger : ℕ := 2 ^ 53 - 1

/-- The integer that a number is, if it is safe (`Number.isSafeInteger`). -/
def safeInteger? : Number → Option ℤ
  | .finite negative size =>
    if size.value.den = 1 ∧ size.value ≤ maxSafeInteger then
      some (if negative then -size.value.num else size.value.num)
    else none
  | .infinite _ => none

/-- The number of a natural number. -/
def ofNat (n : ℕ) : Number := ofRat false n (Nat.cast_nonneg n)

/-- Small integers are representable. -/
theorem nearest_natCast {n : ℕ} (h : n ≤ maxSafeInteger) : nearest n = n := by
  rcases Nat.eq_zero_or_pos n with rfl | hpos
  · rw [Nat.cast_zero, nearest_zero]
  · have hlog : Int.log 2 (n : ℚ) < 53 := by
      refine log_lt_of_lt (by exact_mod_cast hpos) ?_
      have hlt : n < 2 ^ 53 := by
        unfold maxSafeInteger at h
        omega
      exact_mod_cast hlt
    have hplace : place (((n : ℤ) : ℚ) * 2 ^ (0 : ℤ)) ≤ 0 := by
      rw [zpow_zero, mul_one, place, Int.cast_natCast]
      omega
    have hround := nearest_of_place_le hplace
    rwa [zpow_zero, mul_one, Int.cast_natCast] at hround

/-- Large integers are not rounded to small ones. -/
theorem le_nearest {q : ℚ} (h : 2 ^ 53 ≤ q) : 2 ^ 53 ≤ nearest q := by
  have hpos : 0 < q := lt_of_lt_of_le (by norm_num) h
  have hlog : 53 ≤ Int.log 2 q := by
    rw [← Int.zpow_le_iff_le_log (by norm_num) hpos]
    exact_mod_cast h
  have hplace : place q = Int.log 2 q - 52 := by
    rw [place]
    omega
  have hsplit : (2 : ℚ) ^ (52 : ℤ) * 2 ^ place q = 2 ^ Int.log 2 q := by
    rw [← zpow_add₀ (by norm_num), hplace]
    congr 1
    omega
  have hfloor : (2 : ℤ) ^ 52 ≤ ⌊q / 2 ^ place q⌋ := by
    rw [Int.le_floor, le_div_iff₀ (two_zpow_pos _)]
    calc (((2 : ℤ) ^ 52 : ℤ) : ℚ) * 2 ^ place q
        = (2 : ℚ) ^ (52 : ℤ) * 2 ^ place q := by norm_num
      _ = 2 ^ Int.log 2 q := hsplit
      _ ≤ q := by exact_mod_cast Int.zpow_log_le_self (b := 2) (by norm_num) hpos
  have hround : (2 : ℤ) ^ 52 ≤ roundEven (q / 2 ^ place q) := by
    rw [roundEven]
    split_ifs
    · exact hfloor
    · omega
  calc (2 : ℚ) ^ 53 ≤ 2 ^ Int.log 2 q := by
        have := zpow_le_zpow_right₀ (a := (2 : ℚ)) (by norm_num) hlog
        exact_mod_cast this
    _ = (2 : ℚ) ^ (52 : ℤ) * 2 ^ place q := hsplit.symm
    _ ≤ roundEven (q / 2 ^ place q) * 2 ^ place q := by
        refine mul_le_mul_of_nonneg_right ?_ (two_zpow_pos _).le
        exact_mod_cast hround
    _ = nearest q := rfl

/-- **A natural number** is read as a safe integer exactly when it is one. -/
theorem safeInteger_ofNat (n : ℕ) :
    safeInteger? (ofNat n) = if n ≤ maxSafeInteger then some (n : ℤ) else none := by
  by_cases h : n ≤ maxSafeInteger
  · have hround := nearest_natCast h
    have hfinite : nearest (n : ℚ) < 2 ^ 1024 := by
      rw [hround]
      have hlt : n < 2 ^ 53 := by
        unfold maxSafeInteger at h
        omega
      exact_mod_cast hlt.trans_le (Nat.pow_le_pow_right (by decide) (by decide))
    rw [ofNat, ofRat, dif_pos hfinite, safeInteger?, if_pos h, if_pos]
    · simp only [hround, Bool.false_eq_true, if_false, Rat.num_natCast]
    · simp only [hround, Rat.den_natCast, true_and]
      exact_mod_cast h
  · rw [if_neg h, ofNat, ofRat]
    split_ifs with hfinite
    · rw [safeInteger?, if_neg]
      rintro ⟨-, hle⟩
      have hlarge : (2 : ℚ) ^ 53 ≤ nearest (n : ℚ) := by
        refine le_nearest ?_
        have hn : 2 ^ 53 ≤ n := by
          unfold maxSafeInteger at h
          omega
        exact_mod_cast hn
      have hsmall : ((maxSafeInteger : ℕ) : ℚ) < 2 ^ 53 := by norm_num [maxSafeInteger]
      exact absurd (hlarge.trans hle) (not_le.mpr hsmall)
    · rfl

end Number

end Foundations
