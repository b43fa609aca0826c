import Mathlib.Data.Set.Insert
import Mathlib.Order.Basic
import Mathlib.Tactic.Common

/-!
# The best of what has been presented

Entries are ranked in a linear order, the smaller rank being the better one, and a champion is
kept of the entries presented so far. The module says what a champion is and which changes of
the entries keep it.

* **`Champion`** — the entry that beats all others, or none when there are no entries.
* **`Champion.unique`** — a set of entries has one champion at most, however it came to be kept.
* **`Champion.overtake`**, **`Champion.withstand`** — a new entry takes over exactly when it beats
  the champion.
* **`Champion.replace`**, **`Champion.retain`** — a champion that does not get worse, or whose
  rivals become fewer, stays.
-/

namespace Foundations

variable {α β : Type*} [LinearOrder β] {rank : α → β} {entries entries' : Set α}

/-- The entry that beats all other entries, or none when there are none. -/
def Champion (rank : α → β) (entries : Set α) : Option α → Prop
  | none => entries = ∅
  | some best => best ∈ entries ∧ ∀ rival ∈ entries, rival ≠ best → rank best < rank rival

namespace Champion

variable {best newcomer : α} {o o' : Option α}

/-- No entry beats the champion. -/
theorem not_beaten (h : Champion rank entries (some best)) {rival : α} (hrival : rival ∈ entries) :
    ¬rank rival < rank best := by
  by_cases heq : rival = best
  · rw [heq]
    exact lt_irrefl _
  · exact (h.2 rival hrival heq).asymm

/-- The entries alone determine their champion. -/
theorem unique (h : Champion rank entries o) (h' : Champion rank entries o') : o = o' := by
  cases o with
  | none =>
    cases o' with
    | none => rfl
    | some best' => exact absurd (h ▸ h'.1) (Set.notMem_empty best')
  | some best =>
    cases o' with
    | none => exact absurd (h' ▸ h.1) (Set.notMem_empty best)
    | some best' =>
      by_contra hne
      have hne : best' ≠ best := fun heq => hne (congrArg some heq.symm)
      exact h'.not_beaten h.1 (h.2 best' h'.1 hne)

/-- A champion stays when rivals leave. -/
theorem retain (h : Champion rank entries (some best)) (hbest : best ∈ entries')
    (hsub : ∀ rival ∈ entries', rival ≠ best → rival ∈ entries) :
    Champion rank entries' (some best) :=
  ⟨hbest, fun rival hrival hne => h.2 rival (hsub rival hrival hne) hne⟩

/-- A champion that is replaced by a better entry, or by one of the same rank, has a successor. -/
theorem replace (h : Champion rank entries (some best)) (hle : rank newcomer ≤ rank best)
    (hmem : newcomer ∈ entries')
    (hsub : ∀ rival ∈ entries', rival ≠ newcomer → rival ∈ entries ∧ rival ≠ best) :
    Champion rank entries' (some newcomer) := by
  refine ⟨hmem, fun rival hrival hne => ?_⟩
  obtain ⟨hwas, hother⟩ := hsub rival hrival hne
  exact hle.trans_lt (h.2 rival hwas hother)

/-- The first entry is champion. -/
theorem first (h : Champion rank entries none) (hmem : newcomer ∈ entries')
    (hsub : ∀ rival ∈ entries', rival ≠ newcomer → rival ∈ entries) :
    Champion rank entries' (some newcomer) := by
  refine ⟨hmem, fun rival hrival hne => ?_⟩
  have hwas := hsub rival hrival hne
  rw [h] at hwas
  exact absurd hwas (Set.notMem_empty rival)

/-- A newcomer that beats the champion takes over. -/
theorem overtake (h : Champion rank entries (some best)) (hlt : rank newcomer < rank best)
    (hmem : newcomer ∈ entries')
    (hsub : ∀ rival ∈ entries', rival ≠ newcomer → rival ∈ entries) :
    Champion rank entries' (some newcomer) := by
  refine ⟨hmem, fun rival hrival hne => ?_⟩
  have hwas := hsub rival hrival hne
  exact lt_of_lt_of_le hlt (not_lt.mp (h.not_beaten hwas))

/-- A newcomer that does not beat the champion, and does not tie with it, changes nothing. -/
theorem withstand (h : Champion rank entries (some best)) (hlt : ¬rank newcomer < rank best)
    (htie : rank newcomer ≠ rank best) (hbest : best ∈ entries')
    (hsub : ∀ rival ∈ entries', rival ≠ newcomer → rival ∈ entries) :
    Champion rank entries' (some best) := by
  refine ⟨hbest, fun rival hrival hne => ?_⟩
  by_cases hnew : rival = newcomer
  · rw [hnew]
    exact lt_of_le_of_ne (not_lt.mp hlt) (Ne.symm htie)
  · exact h.2 rival (hsub rival hrival hnew) hne

end Champion

end Foundations
