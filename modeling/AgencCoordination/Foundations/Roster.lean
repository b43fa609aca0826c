import Mathlib.Data.Finset.Card
import Mathlib.Tactic.Common

/-!
# Rosters

A roster is who holds a seat and, of those, whose entry waits for a decision. It is the abstract
state of a piece of work that several parties may take part in: a party takes a seat, hands an
entry in, has it handed back, and leaves.

* **`Roster`** — the seated and the waiting; nobody waits without a seat.
* **`Roster.Move`** — the moves of one party; `Move.seated_iff` says that nobody else's seat is
  touched by them.
-/

namespace Foundations

/-- Who holds a seat, and whose entry waits. -/
structure Roster (K : Type) where
  seated : Finset K
  waiting : Finset K
  subset : waiting ⊆ seated

namespace Roster

variable {K : Type} (r : Roster K) {k : K}

/-- Somebody who waits is counted among the waiting. -/
theorem card_waiting_pos (hk : k ∈ r.waiting) : 0 < r.waiting.card :=
  Finset.card_pos.mpr ⟨k, hk⟩

theorem card_seated_pos (hk : k ∈ r.seated) : 0 < r.seated.card :=
  Finset.card_pos.mpr ⟨k, hk⟩

/-- No more wait than are seated. -/
theorem card_waiting_le : r.waiting.card ≤ r.seated.card := Finset.card_le_card r.subset

/-- Who has a seat alone is the only one who can wait. -/
theorem mem_waiting_of_sole (hsole : r.seated.card ≤ 1) (hk : k ∈ r.seated)
    (hw : 0 < r.waiting.card) : k ∈ r.waiting := by
  obtain ⟨j, hj⟩ := Finset.card_pos.mp hw
  have hjk : j = k := Finset.card_le_one.mp hsole j (r.subset hj) k hk
  exact hjk ▸ hj

/-- Nobody has a seat. -/
def vacant : Roster K := ⟨∅, ∅, Finset.Subset.refl _⟩

@[simp] theorem seated_vacant : (vacant : Roster K).seated = ∅ := rfl

@[simp] theorem waiting_vacant : (vacant : Roster K).waiting = ∅ := rfl

/-! ## Moves -/

variable [DecidableEq K]

/-- `k` takes a seat. -/
def enter (k : K) : Roster K :=
  ⟨insert k r.seated, r.waiting, r.subset.trans (Finset.subset_insert _ _)⟩

/-- The seated `k` hands an entry in. -/
def submit (k : K) (hk : k ∈ r.seated) : Roster K :=
  ⟨r.seated, insert k r.waiting, Finset.insert_subset hk r.subset⟩

/-- The entry of `k` is decided, and `k` stays. -/
def retract (k : K) : Roster K :=
  ⟨r.seated, r.waiting.erase k, (Finset.erase_subset _ _).trans r.subset⟩

/-- `k` leaves, with its entry if it has one. -/
def leave (k : K) : Roster K :=
  ⟨r.seated.erase k, r.waiting.erase k, Finset.erase_subset_erase k r.subset⟩

@[simp] theorem seated_enter : (r.enter k).seated = insert k r.seated := rfl

@[simp] theorem waiting_enter : (r.enter k).waiting = r.waiting := rfl

@[simp] theorem seated_submit (hk : k ∈ r.seated) : (r.submit k hk).seated = r.seated := rfl

@[simp] theorem waiting_submit (hk : k ∈ r.seated) :
    (r.submit k hk).waiting = insert k r.waiting := rfl

@[simp] theorem seated_retract : (r.retract k).seated = r.seated := rfl

@[simp] theorem waiting_retract : (r.retract k).waiting = r.waiting.erase k := rfl

@[simp] theorem seated_leave : (r.leave k).seated = r.seated.erase k := rfl

@[simp] theorem waiting_leave : (r.leave k).waiting = r.waiting.erase k := rfl

/-- One move of `k` on a roster. -/
inductive Move (k : K) : Roster K → Roster K → Prop
  | stay (r : Roster K) : Move k r r
  | enter {r : Roster K} (free : k ∉ r.seated) : Move k r (r.enter k)
  | submit {r : Roster K} (seat : k ∈ r.seated) (idle : k ∉ r.waiting) :
      Move k r (r.submit k seat)
  | retract (r : Roster K) : Move k r (r.retract k)
  | leave {r : Roster K} (seat : k ∈ r.seated) : Move k r (r.leave k)

/-- Nobody else takes or leaves a seat. -/
theorem Move.seated_iff {r r' : Roster K} (h : Move k r r') {j : K} (hj : j ≠ k) :
    j ∈ r'.seated ↔ j ∈ r.seated := by
  cases h with
  | stay => rfl
  | enter free => rw [seated_enter, Finset.mem_insert, or_iff_right hj]
  | submit seat idle => rfl
  | retract => rfl
  | leave seat => rw [seated_leave, Finset.mem_erase, and_iff_right hj]

theorem card_seated_enter (hk : k ∉ r.seated) :
    (r.enter k).seated.card = r.seated.card + 1 := by
  rw [seated_enter, Finset.card_insert_of_notMem hk]

theorem card_seated_leave (hk : k ∈ r.seated) :
    (r.leave k).seated.card = r.seated.card - 1 := by
  rw [seated_leave, Finset.card_erase_of_mem hk]

theorem card_waiting_submit (hk : k ∈ r.seated) (hidle : k ∉ r.waiting) :
    (r.submit k hk).waiting.card = r.waiting.card + 1 := by
  rw [waiting_submit, Finset.card_insert_of_notMem hidle]

end Roster

end Foundations
