import AgencCoordination.Foundations.JsonText
import Mathlib.Data.List.Sort

/-!
# The members of an object

Strings are ordered by their code units. An object does not enumerate its members in that order, nor
in the order in which they were set: keys that are array indices come first, by number.

* **`sortMembers`** — members by key; the order in which they are given does not matter
  (`sortMembers_perm`).
* **`setMember`** — setting a member of an object, in the order of enumeration.
* **`enumerated_sortMembers`** — when members by key are in the order of enumeration.
* **`foldl_setMember`** — setting sorted members one after another keeps their order exactly when no
  array index comes behind a key that is not a smaller one (`Enumerated`).
-/

namespace Foundations

namespace Utf16

/-- The order of strings by code units. -/
def le : Utf16 → Utf16 → Bool
  | [], _ => true
  | _ :: _, [] => false
  | u :: a, v :: b => if u.toNat < v.toNat then true else if v.toNat < u.toNat then false else le a b

theorem le_total (a b : Utf16) : le a b = true ∨ le b a = true := by
  induction a generalizing b with
  | nil => exact .inl rfl
  | cons u a ih =>
    cases b with
    | nil => exact .inr rfl
    | cons v b =>
      rcases Nat.lt_trichotomy u.toNat v.toNat with h | h | h
      · exact .inl (by rw [le, if_pos h])
      · simp only [le, h, Nat.lt_irrefl, if_false]
        exact ih b
      · exact .inr (by rw [le, if_pos h])

theorem le_antisymm {a b : Utf16} (hab : le a b = true) (hba : le b a = true) : a = b := by
  induction a generalizing b with
  | nil =>
    cases b with
    | nil => rfl
    | cons v b => cases hba
  | cons u a ih =>
    cases b with
    | nil => cases hab
    | cons v b =>
      rw [le] at hab hba
      rcases Nat.lt_trichotomy u.toNat v.toNat with h | h | h
      · rw [if_neg h.not_gt, if_pos h] at hba
        cases hba
      · rw [h, if_neg (Nat.lt_irrefl _), if_neg (Nat.lt_irrefl _)] at hab hba
        rw [UInt16.toNat_inj.mp h, ih hab hba]
      · rw [if_neg h.not_gt, if_pos h] at hab
        cases hab

theorem le_trans {a b c : Utf16} (hab : le a b = true) (hbc : le b c = true) :
    le a c = true := by
  induction a generalizing b c with
  | nil => rfl
  | cons u a ih =>
    cases b with
    | nil => cases hab
    | cons v b =>
      cases c with
      | nil => cases hbc
      | cons w c =>
        rw [le] at hab hbc ⊢
        rcases Nat.lt_trichotomy u.toNat v.toNat with h | h | h
        · rcases Nat.lt_trichotomy v.toNat w.toNat with h' | h' | h'
          · rw [if_pos (h.trans h')]
          · rw [if_pos (h' ▸ h)]
          · rw [if_neg h'.not_gt, if_pos h'] at hbc
            cases hbc
        · rw [h, if_neg (Nat.lt_irrefl _), if_neg (Nat.lt_irrefl _)] at hab
          rw [h]
          split_ifs at hbc ⊢
          · rfl
          · exact ih hab hbc
        · rw [if_neg h.not_gt, if_pos h] at hab
          cases hab

end Utf16

section members

variable {α β : Type}

/-- The order of members by key. -/
def memberLe (m m' : Utf16 × α) : Prop := Utf16.le m.1 m'.1 = true

instance : DecidableRel (memberLe (α := α)) := fun _ _ => inferInstanceAs (Decidable (_ = true))

instance : Std.Total (memberLe (α := α)) := ⟨fun m m' => Utf16.le_total m.1 m'.1⟩

instance : IsTrans (Utf16 × α) memberLe := ⟨fun _ _ _ => Utf16.le_trans⟩

/-- The members by key. -/
def sortMembers (members : List (Utf16 × α)) : List (Utf16 × α) := members.insertionSort memberLe

/-- No key occurs twice. -/
def DistinctKeys (members : List (Utf16 × α)) : Prop := (members.map Prod.fst).Nodup

theorem sortMembers_permutes (members : List (Utf16 × α)) : (sortMembers members).Perm members :=
  List.perm_insertionSort _ _

theorem sortMembers_sorted (members : List (Utf16 × α)) :
    (sortMembers members).Pairwise memberLe := List.pairwise_insertionSort _ _

theorem DistinctKeys.perm {members members' : List (Utf16 × α)} (h : members.Perm members')
    (hdistinct : DistinctKeys members) : DistinctKeys members' :=
  (h.map Prod.fst).nodup_iff.mp hdistinct

theorem DistinctKeys.eq_of_key {members : List (Utf16 × α)} (h : DistinctKeys members)
    {m m' : Utf16 × α} (hm : m ∈ members) (hm' : m' ∈ members) (hkey : m.1 = m'.1) : m = m' :=
  List.inj_on_of_nodup_map h hm hm' hkey

/-- **Sorting** forgets the order in which members are given. -/
theorem sortMembers_perm {members members' : List (Utf16 × α)} (h : members.Perm members')
    (hdistinct : DistinctKeys members) : sortMembers members = sortMembers members' := by
  refine List.Perm.eq_of_pairwise ?_ (sortMembers_sorted members) (sortMembers_sorted members') ?_
  · intro m m' hm hm' hle hge
    exact hdistinct.eq_of_key ((sortMembers_permutes members).mem_iff.mp hm)
      (h.mem_iff.mpr ((sortMembers_permutes members').mem_iff.mp hm')) (Utf16.le_antisymm hle hge)
  · exact (sortMembers_permutes members).trans (h.trans (sortMembers_permutes members').symm)

/-- Sorting commutes with a map of the values. -/
theorem sortMembers_map (f : α → β) (members : List (Utf16 × α)) :
    sortMembers (members.map fun m => (m.1, f m.2)) =
      (sortMembers members).map fun m => (m.1, f m.2) :=
  (List.map_insertionSort memberLe memberLe (fun m : Utf16 × α => (m.1, f m.2)) members
    fun _ _ _ _ => Iff.rfl).symm

/-! ## Array indices -/

/-- The number of a key that is an array index: the decimal digits of a number below
`2 ^ 32 - 1`. -/
def arrayIndex? (key : Utf16) : Option ℕ :=
  if key ≠ [] ∧ key.all Number.isDigit = true ∧ (key.head? = some 0x30 → key = [0x30]) ∧
      Number.ofDecimal key < 2 ^ 32 - 1 then
    some (Number.ofDecimal key)
  else none

/-- One key is enumerated before another that was set later: an array index comes only behind array
indices that are not larger. -/
def Before (key key' : Utf16) : Prop :=
  ∀ j ∈ arrayIndex? key', ∃ i ∈ arrayIndex? key, i ≤ j

instance (key key' : Utf16) : Decidable (Before key key') :=
  match h : arrayIndex? key', h' : arrayIndex? key with
  | none, _ => .isTrue fun j hj => by rw [h] at hj; cases hj
  | some j, none => .isFalse fun hbefore => by
      obtain ⟨i, hi, -⟩ := hbefore j h
      rw [h'] at hi
      cases hi
  | some j, some i =>
    if hle : i ≤ j then
      .isTrue fun j' hj' => ⟨i, h', Option.some.inj (h.symm.trans hj') ▸ hle⟩
    else
      .isFalse fun hbefore => by
        obtain ⟨i', hi', hle'⟩ := hbefore j h
        exact hle (Option.some.inj (h'.symm.trans hi') ▸ hle')

/-- The member of an array index, in front of the first member that is not a smaller one. -/
def insertIndex (n : ℕ) (m : Utf16 × α) : List (Utf16 × α) → List (Utf16 × α)
  | [] => [m]
  | m' :: rest =>
    match arrayIndex? m'.1 with
    | some i => if i ≤ n then m' :: insertIndex n m rest else m :: m' :: rest
    | none => m :: m' :: rest

/-- A member with a new key. -/
def insertMember (m : Utf16 × α) (members : List (Utf16 × α)) : List (Utf16 × α) :=
  match arrayIndex? m.1 with
  | some n => insertIndex n m members
  | none => members ++ [m]

/-- Set a member of an object, given by its members in the order of enumeration. -/
def setMember (members : List (Utf16 × α)) (m : Utf16 × α) : List (Utf16 × α) :=
  if m.1 ∈ members.map Prod.fst then
    members.map fun m' => if m'.1 = m.1 then (m'.1, m.2) else m'
  else insertMember m members

/-- The members are in the order of enumeration. -/
def Enumerated (members : List (Utf16 × α)) : Prop :=
  members.Pairwise fun m m' => Before m.1 m'.1

theorem insertIndex_permutes (n : ℕ) (m : Utf16 × α) (members : List (Utf16 × α)) :
    (insertIndex n m members).Perm (m :: members) := by
  fun_induction insertIndex n m members with
  | case1 => exact .refl _
  | case2 m' rest i _ _ ih => exact (ih.cons m').trans (.swap _ _ _)
  | case3 => exact .refl _
  | case4 => exact .refl _

theorem insertMember_permutes (m : Utf16 × α) (members : List (Utf16 × α)) :
    (insertMember m members).Perm (m :: members) := by
  rw [insertMember]
  split
  · exact insertIndex_permutes _ m members
  · exact List.perm_append_singleton m members

/-- Array indices are transitive along the order of enumeration. -/
theorem Before.trans {a b c : Utf16} (hab : Before a b) (hbc : Before b c) : Before a c := by
  intro k hk
  obtain ⟨j, hj, hjk⟩ := hbc k hk
  obtain ⟨i, hi, hij⟩ := hab j hj
  exact ⟨i, hi, hij.trans hjk⟩

theorem Enumerated.insertIndex {n : ℕ} {m : Utf16 × α} {members : List (Utf16 × α)}
    (hm : arrayIndex? m.1 = some n) (h : Enumerated members) :
    Enumerated (insertIndex n m members) := by
  fun_induction Foundations.insertIndex n m members with
  | case1 => exact List.pairwise_singleton _ _
  | case2 m' rest i hi hle ih =>
    rw [Enumerated, List.pairwise_cons] at h ⊢
    refine ⟨fun m'' hm'' => ?_, ih h.2⟩
    rcases List.mem_cons.mp ((insertIndex_permutes n m rest).mem_iff.mp hm'') with rfl | hrest
    · intro j hj
      obtain rfl := Option.some.inj (hm.symm.trans hj)
      exact ⟨i, hi, hle⟩
    · exact h.1 m'' hrest
  | case3 m' rest i hi hgt =>
    have hfirst : Before m.1 m'.1 := by
      intro j hj
      obtain rfl := Option.some.inj (hi.symm.trans hj)
      exact ⟨n, hm, by omega⟩
    rw [Enumerated, List.pairwise_cons]
    refine ⟨fun m'' hm'' => ?_, h⟩
    rcases List.mem_cons.mp hm'' with rfl | hrest
    · exact hfirst
    · exact hfirst.trans ((List.pairwise_cons.mp h).1 m'' hrest)
  | case4 m' rest hi =>
    have hfirst : Before m.1 m'.1 := by
      intro j hj
      rw [hi] at hj
      cases hj
    rw [Enumerated, List.pairwise_cons]
    refine ⟨fun m'' hm'' => ?_, h⟩
    rcases List.mem_cons.mp hm'' with rfl | hrest
    · exact hfirst
    · intro j hj
      obtain ⟨i, hi', -⟩ := (List.pairwise_cons.mp h).1 m'' hrest j hj
      rw [hi] at hi'
      cases hi'

theorem Enumerated.insertMember {m : Utf16 × α} {members : List (Utf16 × α)}
    (h : Enumerated members) : Enumerated (insertMember m members) := by
  rw [Foundations.insertMember]
  split
  · next n hm => exact h.insertIndex hm
  · next hm =>
    rw [Enumerated, List.pairwise_append]
    refine ⟨h, List.pairwise_singleton _ _, fun m' _ m'' hm'' => ?_⟩
    rw [List.mem_singleton.mp hm'']
    intro j hj
    rw [hm] at hj
    cases hj

/-- A member behind which nothing has to come is set last. -/
theorem insertMember_last {m : Utf16 × α} {members : List (Utf16 × α)}
    (h : ∀ m' ∈ members, Before m'.1 m.1) : insertMember m members = members ++ [m] := by
  rw [insertMember]
  split
  · next n hm =>
    induction members with
    | nil => rfl
    | cons m' rest ih =>
      obtain ⟨i, hi, hle⟩ := h m' List.mem_cons_self n hm
      rw [insertIndex]
      simp only [Option.mem_def.mp hi, if_pos hle]
      rw [ih fun m'' hm'' => h m'' (List.mem_cons_of_mem _ hm''), List.cons_append]
  · rfl

/-- Setting members with new keys permutes them, in the order of enumeration. -/
theorem foldl_setMember_enumerated {members start : List (Utf16 × α)}
    (hdistinct : DistinctKeys (start ++ members)) (hstart : Enumerated start) :
    Enumerated (members.foldl setMember start) ∧
      (members.foldl setMember start).Perm (start ++ members) := by
  induction members generalizing start with
  | nil =>
    rw [List.append_nil]
    exact ⟨hstart, .refl _⟩
  | cons m rest ih =>
    have hnew : m.1 ∉ start.map Prod.fst := by
      rw [DistinctKeys, List.map_append, List.nodup_append] at hdistinct
      exact fun hmem => hdistinct.2.2 m.1 hmem m.1 (by simp) rfl
    have hset : setMember start m = insertMember m start := if_neg hnew
    have hperm : (insertMember m start ++ rest).Perm (start ++ m :: rest) :=
      ((insertMember_permutes m start).append_right rest).trans List.perm_middle.symm
    rw [List.foldl_cons, hset]
    obtain ⟨henumerated, hpermutes⟩ := ih (hdistinct.perm hperm.symm) hstart.insertMember
    exact ⟨henumerated, hpermutes.trans hperm⟩

/-- Setting members in the order of enumeration keeps their order. -/
theorem foldl_setMember_of_enumerated {members start : List (Utf16 × α)}
    (hdistinct : DistinctKeys (start ++ members)) (h : Enumerated (start ++ members)) :
    members.foldl setMember start = start ++ members := by
  induction members generalizing start with
  | nil => rw [List.append_nil, List.foldl_nil]
  | cons m rest ih =>
    have hnew : m.1 ∉ start.map Prod.fst := by
      rw [DistinctKeys, List.map_append, List.nodup_append] at hdistinct
      exact fun hmem => hdistinct.2.2 m.1 hmem m.1 (by simp) rfl
    have hset : setMember start m = insertMember m start := if_neg hnew
    have hlast : insertMember m start = start ++ [m] :=
      insertMember_last fun m' hm' =>
        (List.pairwise_append.mp h).2.2 m' hm' m List.mem_cons_self
    rw [List.foldl_cons, hset, hlast, ih]
    · rw [List.append_assoc, List.singleton_append]
    · rwa [List.append_assoc, List.singleton_append]
    · rwa [List.append_assoc, List.singleton_append]

/-- **Setting** members one after another keeps their order exactly when it is an order of
enumeration. -/
theorem foldl_setMember {members : List (Utf16 × α)} (hdistinct : DistinctKeys members) :
    members.foldl setMember [] = members ↔ Enumerated members := by
  have hempty : DistinctKeys ([] ++ members) := hdistinct
  constructor
  · intro h
    rw [← h]
    exact (foldl_setMember_enumerated hempty .nil).1
  · intro h
    exact foldl_setMember_of_enumerated hempty h

/-- Keys that sort one before the other are enumerated so. -/
def Aligned (members : List (Utf16 × α)) : Prop :=
  ∀ m ∈ members, ∀ m' ∈ members, memberLe m m' → m.1 ≠ m'.1 → Before m.1 m'.1

instance (members : List (Utf16 × α)) : Decidable (Aligned members) :=
  inferInstanceAs (Decidable (∀ m ∈ members, ∀ m' ∈ members, memberLe m m' → _ → _))

/-- Keys that are no array indices are enumerated as they are set. -/
theorem Aligned.of_names {members : List (Utf16 × α)}
    (h : ∀ key ∈ members.map Prod.fst, arrayIndex? key = none) : Aligned members := by
  intro m _ m' hm' _ _ j hj
  rw [h m'.1 (List.mem_map_of_mem hm')] at hj
  cases hj

/-- The sorted members are in the order of enumeration exactly when the two orders agree. -/
theorem enumerated_sortMembers {members : List (Utf16 × α)} (hdistinct : DistinctKeys members) :
    Enumerated (sortMembers members) ↔ Aligned members := by
  have hperm := sortMembers_permutes members
  have hsorted := sortMembers_sorted members
  have hkeys : (sortMembers members).Pairwise fun m m' => m.1 ≠ m'.1 :=
    List.pairwise_map.mp (hdistinct.perm hperm.symm)
  constructor
  · intro h m hm m' hm'
    refine List.Pairwise.forall_of_forall_of_flip (R := fun m m' : Utf16 × α =>
      memberLe m m' → m.1 ≠ m'.1 → Before m.1 m'.1) ?_ ?_ ?_ (hperm.mem_iff.mpr hm)
      (hperm.mem_iff.mpr hm')
    · exact fun m _ _ hne => absurd rfl hne
    · exact h.imp fun hbefore _ _ => hbefore
    · refine (hsorted.and hkeys).imp ?_
      rintro a b ⟨hle, hne⟩ hge
      exact absurd (Utf16.le_antisymm hle hge) hne
  · intro h
    refine List.Pairwise.imp_of_mem ?_ (hsorted.and hkeys)
    rintro a b ha hb ⟨hle, hne⟩
    exact h a (hperm.mem_iff.mp ha) b (hperm.mem_iff.mp hb) hle hne

end members

end Foundations
