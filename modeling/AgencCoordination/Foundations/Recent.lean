import Mathlib.Data.List.Basic
import Mathlib.Data.List.Duplicate
import Mathlib.Tactic.Common

/-!
# A bounded memory of what was admitted

A stream of keys is filtered by a memory that holds the last `capacity` admitted keys: a key in the
memory is passed over, any other is admitted and remembered, and the oldest one is forgotten.

* **`remember`, `Remembers`** — the memory, and that it holds the last admitted keys.
* **`Spaced`** — between two equal entries there are at least `capacity` others.
* **`Remembers.push`, `Spaced.push`** — one more admission keeps both.
* **`Spaced.nodup`** — what fits the capacity has no key twice.
-/

namespace Foundations

variable {K : Type}

/-- One more key at the end of a first-in first-out memory of a capacity. -/
def remember (capacity : ℕ) (memory : List K) (k : K) : List K :=
  if capacity < (memory ++ [k]).length then (memory ++ [k]).tail else memory ++ [k]

/-- The memory holds the last admitted keys. -/
def Remembers (capacity : ℕ) (memory admitted : List K) : Prop :=
  memory = admitted.drop (admitted.length - capacity)

/-- Equal entries are at least `capacity` entries apart. -/
def Spaced (capacity : ℕ) (l : List K) : Prop :=
  ∀ xs k ys zs, l = xs ++ k :: ys ++ k :: zs → capacity ≤ ys.length

theorem Remembers.nil (capacity : ℕ) : Remembers capacity ([] : List K) [] := by
  unfold Remembers
  rw [List.drop_nil]

theorem Spaced.nil (capacity : ℕ) : Spaced capacity ([] : List K) := by
  intro xs k ys zs h
  simp at h

section Memory

variable {capacity : ℕ} {memory admitted : List K} {k : K}

theorem Remembers.length_le (h : Remembers capacity memory admitted) :
    memory.length ≤ capacity := by
  rw [h, List.length_drop]
  omega

/-- The memory stays the last admitted keys. -/
theorem Remembers.push (h : Remembers capacity memory admitted) :
    Remembers capacity (remember capacity memory k) (admitted ++ [k]) := by
  have hmemory : memory.length = min admitted.length capacity := by
    rw [h, List.length_drop]
    omega
  unfold Remembers remember
  rw [List.length_append, List.length_append, List.length_singleton, hmemory]
  split_ifs with hfull
  · have hdrop : admitted.length + 1 - capacity = admitted.length - capacity + 1 := by omega
    rw [hdrop, ← List.drop_drop, List.drop_append_of_le_length (by omega), ← h, List.drop_one]
  · have hnone : admitted.length + 1 - capacity = 0 := by omega
    have hkeep : admitted.length - capacity = 0 := by omega
    rw [hnone, List.drop_zero, h, hkeep, List.drop_zero]

/-- What is in the memory was admitted. -/
theorem Remembers.mem (h : Remembers capacity memory admitted) (hk : k ∈ memory) :
    k ∈ admitted := by
  rw [h] at hk
  exact List.mem_of_mem_drop hk

/-- A key that is not in the memory was not admitted lately. -/
theorem Spaced.push (hs : Spaced capacity admitted) (h : Remembers capacity memory admitted)
    (hk : k ∉ memory) : Spaced capacity (admitted ++ [k]) := by
  intro xs k' ys zs hsplit
  rcases List.eq_nil_or_concat zs with rfl | ⟨zs', z, rfl⟩
  · -- The second occurrence is the new key, and the first one is out of the memory.
    obtain ⟨hbefore, hlast⟩ := List.append_inj' hsplit rfl
    obtain rfl := (List.cons.inj hlast).1
    by_contra hclose
    refine hk ?_
    rw [h, hbefore, List.length_append, List.length_cons,
      List.drop_append_of_le_length (by omega)]
    exact List.mem_append_right _ List.mem_cons_self
  · rw [List.concat_eq_append, ← List.cons_append, ← List.append_assoc] at hsplit
    exact hs xs k' ys zs' (List.append_inj' hsplit rfl).1

end Memory

/-- A spaced list that is no longer than the capacity has no key twice. -/
theorem Spaced.nodup {capacity : ℕ} {l : List K} (h : Spaced capacity l)
    (hl : l.length ≤ capacity) : l.Nodup := by
  by_contra htwice
  obtain ⟨k, hk⟩ := List.exists_duplicate_iff_not_nodup.mpr htwice
  obtain ⟨front, back, rfl, hfront, hback⟩ :=
    List.cons_sublist_iff.mp (List.duplicate_iff_sublist.mp hk)
  obtain ⟨xs, ys, rfl⟩ := List.append_of_mem hfront
  obtain ⟨ys', zs, rfl⟩ := List.append_of_mem (List.singleton_sublist.mp hback)
  have hgap := h xs k (ys ++ ys') zs (by simp)
  simp only [List.length_append, List.length_cons] at hl hgap
  omega

end Foundations
