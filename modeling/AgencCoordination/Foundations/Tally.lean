import AgencCoordination.Foundations.Ledger
import Mathlib.Algebra.BigOperators.Group.Finset.Basic
import Mathlib.Algebra.Group.Int.Defs
import Mathlib.Algebra.Group.Nat.Defs

/-!
# Tallies of records

Records are kept in a ledger, each belongs to one item, and the item carries a running count of its
records and a running sum of their weights. A record is written once, under a fresh key.

* **`records`** — the keys of the records of an item.
* **`tally`** — the sum of the weights of its records.
* **`card_records_insert`, `tally_insert`** — one fresh record more.
* **`tally_overwrite`** — a record that is written anew.
* **`card_off`** — the number of a set of which one element alone comes or goes.
-/

namespace Foundations

/-- When one element alone comes or goes, the number changes by it. -/
theorem card_off {K : Type} [DecidableEq K] {r r' : Finset K} {k : K}
    (hoff : ∀ k' ≠ k, k' ∈ r' ↔ k' ∈ r) :
    r'.card + (if k ∈ r then 1 else 0) = r.card + if k ∈ r' then 1 else 0 := by
  have hrest : r'.erase k = r.erase k := by
    ext k'
    rw [Finset.mem_erase, Finset.mem_erase]
    exact and_congr_right (hoff k')
  have hcount : ∀ s : Finset K, s.card = (s.erase k).card + if k ∈ s then 1 else 0 := by
    intro s
    split_ifs with hk
    · exact (Finset.card_erase_add_one hk).symm
    · rw [Finset.erase_eq_of_notMem hk, Nat.add_zero]
  have hr := hcount r
  have hr' := hcount r'
  rw [hrest] at hr'
  omega

namespace Ledger

variable {K A V : Type} [DecidableEq K] [DecidableEq A]

/-- The keys of the records that belong to an item. -/
def records (item : K → V → A) (a : A) (s : Ledger K V) : Finset K :=
  s.keys.toFinset.filter fun k => ∃ v ∈ s.lookup k, item k v = a

/-- The sum of the weights of the records of an item. -/
def tally (item : K → V → A) (weight : V → ℕ) (a : A) (s : Ledger K V) : ℕ :=
  ∑ k ∈ records item a s, ((s.lookup k).map weight).getD 0

variable {item : K → V → A} {weight : V → ℕ} {a : A} {s : Ledger K V}

@[simp] theorem mem_records {k : K} :
    k ∈ records item a s ↔ ∃ v, s.lookup k = some v ∧ item k v = a := by
  simp only [records, Finset.mem_filter, List.mem_toFinset, Option.mem_def]
  constructor
  · exact fun h => h.2
  · intro h
    obtain ⟨v, hv, hitem⟩ := h
    have hmem : k ∈ s := AList.lookup_isSome.mp (by rw [hv]; rfl)
    exact ⟨AList.mem_keys.mp hmem, v, hv, hitem⟩

@[simp] theorem records_empty : records item a (∅ : Ledger K V) = ∅ := by
  ext k
  simp

@[simp] theorem tally_empty : tally item weight a (∅ : Ledger K V) = 0 := by
  rw [tally, records_empty, Finset.sum_empty]

/-- A fresh record joins those of its item. -/
theorem records_insert {k : K} (h : s.lookup k = none) (v : V) :
    records item a (s.insert k v) =
      if item k v = a then insert k (records item a s) else records item a s := by
  ext k'
  rw [mem_records, lookup_insert_eq_ite]
  by_cases hk : k' = k
  · subst hk
    rw [if_pos rfl]
    by_cases hitem : item k' v = a
    · rw [if_pos hitem]
      simp only [Option.some.injEq, exists_eq_left', hitem, Finset.mem_insert, true_or]
    · rw [if_neg hitem, mem_records, h]
      simp only [Option.some.injEq, exists_eq_left', hitem, reduceCtorEq, false_and, exists_false]
  · rw [if_neg hk]
    split_ifs with hitem
    · rw [Finset.mem_insert, mem_records, or_iff_right hk]
    · rw [mem_records]

theorem notMem_records {k : K} (h : s.lookup k = none) : k ∉ records item a s := by
  rw [mem_records, h]
  simp

/-- A fresh record is one more for its item. -/
theorem card_records_insert {k : K} (h : s.lookup k = none) (v : V) :
    (records item a (s.insert k v)).card =
      (records item a s).card + if item k v = a then 1 else 0 := by
  rw [records_insert h]
  split_ifs
  · exact Finset.card_insert_of_notMem (notMem_records h)
  · rfl

/-- A fresh record adds its weight to its item. -/
theorem tally_insert {k : K} (h : s.lookup k = none) (v : V) :
    tally item weight a (s.insert k v) =
      tally item weight a s + if item k v = a then weight v else 0 := by
  have hrest : ∑ j ∈ records item a s, (((s.insert k v).lookup j).map weight).getD 0 =
      tally item weight a s := by
    refine Finset.sum_congr rfl fun j hj => ?_
    have hne : j ≠ k := by
      intro heq
      rw [heq] at hj
      exact notMem_records h hj
    rw [lookup_insert_eq_ite, if_neg hne]
  rw [tally, records_insert h]
  split_ifs
  · rw [Finset.sum_insert (notMem_records h), hrest, AList.lookup_insert]
    exact Nat.add_comm _ _
  · exact hrest

/-- The tally is the weight of one record, if it belongs to the item, and of all others. -/
theorem tally_split {k : K} {v : V} (h : s.lookup k = some v) :
    tally item weight a s = (if item k v = a then weight v else 0) +
      ∑ j ∈ (records item a s).erase k, ((s.lookup j).map weight).getD 0 := by
  unfold tally
  split_ifs with hitem
  · have hk : k ∈ records item a s := mem_records.mpr ⟨v, h, hitem⟩
    rw [← Finset.add_sum_erase _ _ hk, h]
    rfl
  · have hk : k ∉ records item a s := by
      rw [mem_records, h]
      rintro ⟨v', hv', hitem'⟩
      obtain rfl := Option.some.inj hv'
      exact hitem hitem'
    rw [Finset.erase_eq_of_notMem hk, Nat.zero_add]

/-- A record that is written anew counts with its new weight instead of its old one. -/
theorem tally_overwrite {k : K} {v : V} (h : s.lookup k = some v) (v' : V) :
    tally item weight a (s.insert k v') + (if item k v = a then weight v else 0) =
      tally item weight a s + if item k v' = a then weight v' else 0 := by
  have hkeys : (records item a (s.insert k v')).erase k = (records item a s).erase k := by
    ext j
    simp only [Finset.mem_erase, mem_records, lookup_insert_eq_ite]
    refine and_congr_right fun hj => ?_
    rw [if_neg hj]
  have hrest : ∑ j ∈ (records item a s).erase k, (((s.insert k v').lookup j).map weight).getD 0 =
      ∑ j ∈ (records item a s).erase k, ((s.lookup j).map weight).getD 0 := by
    refine Finset.sum_congr rfl fun j hj => ?_
    rw [lookup_insert_eq_ite, if_neg (Finset.ne_of_mem_erase hj)]
  rw [tally_split h, tally_split (AList.lookup_insert s), hkeys, hrest]
  omega

/-- An item nobody has a record of. -/
theorem records_eq_empty (h : ∀ k v, s.lookup k = some v → item k v ≠ a) :
    records item a s = ∅ := by
  rw [Finset.eq_empty_iff_forall_notMem]
  intro k hk
  obtain ⟨v, hv, hitem⟩ := mem_records.mp hk
  exact h k v hv hitem

end Ledger

end Foundations
