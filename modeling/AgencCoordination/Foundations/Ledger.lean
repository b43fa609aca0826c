import Mathlib.Data.List.AList
import Mathlib.Data.Finset.Card
import Mathlib.Tactic.Common

/-!
# Keyed ledgers

A ledger is a finite association list with distinct keys (Mathlib's `AList` at a constant
family). Bookkeeping arguments count entries of a kind, so the module has the set of keys whose
value satisfies a property, and how one write changes it.

* **`Ledger.support`** — the finite set of keys whose value satisfies `p`.
* **`support_insert`, `support_erase`** — a write adds its key, or removes it.
* **`size`, `filter`** — the number of entries, and the ledger of those a test keeps.
* **`card_support_insert_new`, `card_support_insert_lost`** — and so changes the count by one.
-/

namespace Foundations

/-- A finite map from keys to values. -/
abbrev Ledger (K V : Type) := AList (fun _ : K => V)

namespace Ledger

variable {K V : Type} [DecidableEq K] {p : V → Prop} [DecidablePred p]

/-- The keys of `s` whose value satisfies `p`. -/
def support (p : V → Prop) [DecidablePred p] (s : Ledger K V) : Finset K :=
  s.keys.toFinset.filter fun k => ∃ v ∈ s.lookup k, p v

@[simp] theorem mem_support {s : Ledger K V} {k : K} :
    k ∈ support p s ↔ ∃ v, s.lookup k = some v ∧ p v := by
  simp only [support, Finset.mem_filter, List.mem_toFinset, Option.mem_def]
  constructor
  · exact fun h => h.2
  · rintro ⟨v, hv, hp⟩
    refine ⟨?_, v, hv, hp⟩
    have : k ∈ s := AList.lookup_isSome.mp (by rw [hv]; rfl)
    exact AList.mem_keys.mp this

theorem mem_support_of_lookup {s : Ledger K V} {k : K} {v : V} (h : s.lookup k = some v) :
    k ∈ support p s ↔ p v := by
  simp [h]

theorem notMem_support_of_lookup {s : Ledger K V} {k : K} (h : s.lookup k = none) :
    k ∉ support p s := by
  simp [h]

@[simp] theorem support_empty : support p (∅ : Ledger K V) = ∅ := by
  ext k
  simp

/-- Erasing a key that is absent changes nothing. -/
theorem erase_of_lookup_eq_none {s : Ledger K V} {k : K} (h : s.lookup k = none) :
    s.erase k = s := by
  apply AList.ext
  exact List.kerase_of_notMem_keys (AList.lookup_eq_none.mp h)

/-! ## How a write changes the support -/

/-- Reading a ledger after one insertion. -/
theorem lookup_insert_eq_ite (s : Ledger K V) (k k' : K) (v : V) :
    (s.insert k v).lookup k' = if k' = k then some v else s.lookup k' := by
  split_ifs with h
  · rw [h, AList.lookup_insert]
  · rw [AList.lookup_insert_ne h]

/-- Reading a ledger after one erasure. -/
theorem lookup_erase_eq_ite (s : Ledger K V) (k k' : K) :
    (s.erase k).lookup k' = if k' = k then none else s.lookup k' := by
  split_ifs with h
  · rw [h, AList.lookup_erase]
  · rw [AList.lookup_erase_ne h]

/-- Erasing undoes an insertion at the same key. -/
theorem erase_insert (s : Ledger K V) (k : K) (v : V) : (s.insert k v).erase k = s.erase k := by
  apply AList.ext
  change List.kerase k (s.insert k v).entries = List.kerase k s.entries
  rw [AList.entries_insert]
  simp only [List.kerase_cons_eq, List.kerase_kerase]

/-- Writing a value with the property adds its key. -/
theorem support_insert {s : Ledger K V} {k : K} {v : V} (hp : p v) :
    support p (s.insert k v) = insert k (support p s) := by
  ext k'
  rw [Finset.mem_insert, mem_support, mem_support, lookup_insert_eq_ite]
  by_cases h : k' = k <;> simp [h, hp]

/-- Writing a value without the property removes its key. -/
theorem support_insert_of_not {s : Ledger K V} {k : K} {v : V} (hp : ¬p v) :
    support p (s.insert k v) = (support p s).erase k := by
  ext k'
  rw [Finset.mem_erase, mem_support, mem_support, lookup_insert_eq_ite]
  by_cases h : k' = k <;> simp [h, hp]

theorem support_erase (s : Ledger K V) (k : K) :
    support p (s.erase k) = (support p s).erase k := by
  ext k'
  rw [Finset.mem_erase, mem_support, mem_support, lookup_erase_eq_ite]
  by_cases h : k' = k <;> simp [h]

/-- Overwriting an entry by one that agrees on the property changes nothing. -/
theorem support_insert_same {s : Ledger K V} {k : K} {v v' : V} (h : s.lookup k = some v)
    (hp : p v' ↔ p v) : support p (s.insert k v') = support p s := by
  by_cases hv : p v
  · rw [support_insert (hp.mpr hv), Finset.insert_eq_of_mem]
    exact (mem_support_of_lookup h).mpr hv
  · rw [support_insert_of_not (mt hp.mp hv), Finset.erase_eq_of_notMem]
    exact mt (mem_support_of_lookup h).mp hv

/-- A fresh entry without the property changes nothing. -/
theorem support_insert_fresh_of_not {s : Ledger K V} {k : K} {v : V} (h : s.lookup k = none)
    (hp : ¬p v) : support p (s.insert k v) = support p s := by
  rw [support_insert_of_not hp, Finset.erase_eq_of_notMem (notMem_support_of_lookup h)]

/-- A fresh entry with the property is one more. -/
theorem card_support_insert_new {s : Ledger K V} {k : K} {v : V} (h : s.lookup k = none)
    (hp : p v) : (support p (s.insert k v)).card = (support p s).card + 1 := by
  rw [support_insert hp, Finset.card_insert_of_notMem (notMem_support_of_lookup h)]

/-- An entry that loses the property is one less. -/
theorem card_support_insert_lost {s : Ledger K V} {k : K} {v v' : V} (h : s.lookup k = some v)
    (hp : p v) (hp' : ¬p v') : (support p (s.insert k v')).card + 1 = (support p s).card := by
  have hmem : k ∈ support p s := (mem_support_of_lookup h).mpr hp
  rw [support_insert_of_not hp', Finset.card_erase_add_one hmem]

/-- An entry that is erased is one less. -/
theorem card_support_erase {s : Ledger K V} {k : K} {v : V} (h : s.lookup k = some v)
    (hp : p v) : (support p (s.erase k)).card + 1 = (support p s).card := by
  rw [support_erase, Finset.card_erase_add_one ((mem_support_of_lookup h).mpr hp)]

/-- Writing over an entry changes the number of entries of a kind by what the two differ. -/
theorem card_support_write {s : Ledger K V} {k : K} {v : V} (h : s.lookup k = some v) (v' : V) :
    (support p (s.insert k v')).card + (if p v then 1 else 0) =
      (support p s).card + if p v' then 1 else 0 := by
  by_cases hv' : p v'
  · rw [if_pos hv']
    by_cases hv : p v
    · rw [if_pos hv, support_insert_same h (iff_of_true hv' hv)]
    · have hnew : k ∉ support p s := mt (mem_support_of_lookup h).mp hv
      rw [if_neg hv, support_insert hv', Finset.card_insert_of_notMem hnew]
  · rw [if_neg hv']
    by_cases hv : p v
    · rw [if_pos hv]
      exact card_support_insert_lost h hv hv'
    · rw [if_neg hv, support_insert_same h (iff_of_false hv' hv)]

/-- A ledger without entries of a kind. -/
theorem card_support_eq_zero {s : Ledger K V} :
    (support p s).card = 0 ↔ ∀ k v, s.lookup k = some v → ¬p v := by
  rw [Finset.card_eq_zero, Finset.eq_empty_iff_forall_notMem]
  constructor
  · intro h k v hv hp
    exact h k (mem_support.mpr ⟨v, hv, hp⟩)
  · intro h k hk
    obtain ⟨v, hv, hp⟩ := mem_support.mp hk
    exact h k v hv hp

/-! ## Size and filters -/

/-- The number of entries. -/
def size (s : Ledger K V) : ℕ := s.keys.length

omit [DecidableEq K] in
@[simp] theorem size_empty : (∅ : Ledger K V).size = 0 := rfl

/-- Writing over an entry keeps the size. -/
theorem size_insert_of_lookup {s : Ledger K V} {k : K} {v v' : V} (h : s.lookup k = some v) :
    Ledger.size (s.insert k v') = s.size := by
  have hmem : k ∈ s.keys := AList.mem_keys.mp (AList.lookup_isSome.mp (by rw [h]; rfl))
  unfold size
  rw [AList.keys_insert, List.length_cons, List.length_erase_of_mem hmem]
  have hpos : 0 < s.keys.length := List.length_pos_of_mem hmem
  omega

/-- A new entry is one more. -/
theorem size_insert_new {s : Ledger K V} {k : K} {v : V} (h : s.lookup k = none) :
    Ledger.size (s.insert k v) = s.size + 1 := by
  have hmem : k ∉ s.keys := fun hk => AList.lookup_eq_none.mp h (AList.mem_keys.mpr hk)
  unfold size
  rw [AList.keys_insert, List.length_cons, List.erase_of_not_mem hmem]

/-- The entries a test keeps. -/
def filter (keep : K → V → Bool) (s : Ledger K V) : Ledger K V :=
  ⟨s.entries.filter fun e => keep e.1 e.2, s.nodupKeys.sublist List.filter_sublist⟩

theorem mem_filter_entries {keep : K → V → Bool} {s : Ledger K V} {k : K} {v : V} :
    (s.filter keep).lookup k = some v ↔ s.lookup k = some v ∧ keep k v = true := by
  have hlookup : ∀ s : Ledger K V, s.lookup k = some v ↔ (⟨k, v⟩ : Sigma fun _ : K => V) ∈ s.entries :=
    fun s => AList.mem_lookup_iff
  rw [hlookup, hlookup]
  show _ ∈ s.entries.filter _ ↔ _
  rw [List.mem_filter]

/-- A filter removes entries, and leaves the others as they are. -/
theorem lookup_filter (keep : K → V → Bool) (s : Ledger K V) (k : K) :
    (s.filter keep).lookup k = (s.lookup k).filter (keep k) := by
  ext v
  rw [mem_filter_entries, Option.filter_eq_some_iff]

omit [DecidableEq K] in
theorem size_filter_le (keep : K → V → Bool) (s : Ledger K V) : (s.filter keep).size ≤ s.size := by
  unfold size AList.keys List.keys
  rw [List.length_map, List.length_map]
  exact List.length_filter_le _ _

end Ledger

end Foundations
