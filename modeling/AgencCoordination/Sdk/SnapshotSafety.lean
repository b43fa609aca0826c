import AgencCoordination.Sdk.StructuredClone
import Mathlib.Tactic.FinCases

/-!
# What a snapshot shares

The inspection follows own data properties, map entries and set values; from a view or a memory it
goes to the buffer only to see whether that is shared, not on to properties of the buffer.

* **`assertNoReachableSharedMemory_ok_iff`** — the inspection throws exactly when something exposed
  is reachable.
* **`snapshot_walk`** — it looks at each object once, and a snapshot shares no memory.
* **`viewed_expando`** — a shared buffer that is a property of the buffer behind a view is not seen.
-/

namespace AgencCoordination.Sdk

open Foundations
open Foundations.JsonValue (word)

variable {R : Type}

/-! ## The graph -/

/-- An object holds another as the value of an own data property, as a key or a value of a map, or
as a value of a set. -/
inductive Holds (heap : Heap R) (r s : R) : Prop
  | property (h : .data (.object s) ∈ (heap r).properties)
  | key (v : Value R) (h : (.object s, v) ∈ (heap r).entries.getD [])
  | entry (k : Value R) (h : (k, .object s) ∈ (heap r).entries.getD [])
  | element (h : .object s ∈ (heap r).elements.getD [])

/-- An object reachable from a value over what objects hold. -/
def Reaches (heap : Heap R) (value : Value R) (s : R) : Prop :=
  ∃ r, value = .object r ∧ Relation.ReflTransGen (Holds heap) r s

/-- A shared buffer, a view on one, a memory on one, or an object with an accessor property. -/
inductive Exposed (heap : Heap R) (r : R) : Prop
  | shared (h : hasSharedArrayBufferBrand heap r = true)
  | view (b : R) (hview : (heap r).view = some b) (h : hasSharedArrayBufferBrand heap b = true)
  | memory (b : R) (hmemory : (heap r).memory = some b) (h : hasSharedArrayBufferBrand heap b = true)
  | accessor (h : .accessor ∈ (heap r).properties)

/-- An object leads to another that it holds or whose buffer it views. -/
def HoldsOrViews (heap : Heap R) (r s : R) : Prop := Holds heap r s ∨ (heap r).view = some s

/-! ## One object -/

theorem enqueueMapEntries_eq (entries : List (Value R × Value R)) (pending : List (Value R))
    (v : Value R) : v ∈ enqueueMapEntries entries pending ↔
      v ∈ pending ∨ ∃ entry ∈ entries, v = entry.1 ∨ v = entry.2 := by
  induction entries generalizing pending with
  | nil => simp [enqueueMapEntries]
  | cons entry rest ih =>
    rw [enqueueMapEntries, List.foldl_cons, ← enqueueMapEntries, ih, pushAll, List.mem_append,
      List.mem_reverse, List.mem_pair, List.exists_mem_cons_iff]
    exact (or_congr_left or_comm).trans or_assoc

theorem enqueueSetValues_eq (elements pending : List (Value R)) (v : Value R) :
    v ∈ enqueueSetValues elements pending ↔ v ∈ pending ∨ v ∈ elements := by
  induction elements generalizing pending with
  | nil => simp [enqueueSetValues]
  | cons element rest ih =>
    rw [enqueueSetValues, List.foldl_cons, ← enqueueSetValues, ih, pushAll, List.mem_append,
      List.mem_reverse, List.mem_singleton, List.mem_cons]
    exact (or_congr_left or_comm).trans or_assoc

/-- The loop over the properties stops at an accessor, and else pushes every value. -/
theorem enqueueProperties_ok (label : Utf16) {properties : List (Descriptor R)}
    (pending : List (Value R)) (h : .accessor ∉ properties) :
    ∃ found, enqueueProperties label properties pending = .ok found ∧
      ∀ v, v ∈ found ↔ v ∈ pending ∨ .data v ∈ properties := by
  induction properties generalizing pending with
  | nil => exact ⟨pending, rfl, by simp⟩
  | cons property rest ih =>
    rw [List.mem_cons, not_or] at h
    cases property with
    | accessor => exact absurd rfl h.1
    | data value =>
      obtain ⟨found, hfound, hmem⟩ := ih (pushAll pending [value]) h.2
      refine ⟨found, hfound, fun v => ?_⟩
      rw [hmem, pushAll, List.mem_append, List.mem_reverse, List.mem_singleton, List.mem_cons,
        Descriptor.data.injEq]
      exact (or_congr_left or_comm).trans or_assoc

theorem enqueueProperties_error {label : Utf16} {properties : List (Descriptor R)}
    {pending found : List (Value R)} (h : enqueueProperties label properties pending = .ok found) :
    .accessor ∉ properties := by
  induction properties generalizing pending with
  | nil => exact List.not_mem_nil
  | cons property rest ih =>
    cases property with
    | accessor => cases h
    | data value =>
      rw [List.mem_cons, not_or]
      refine ⟨fun heq => ?_, ih h⟩
      cases heq

/-- A buffer that is there and shared. -/
theorem getD_shared {heap : Heap R} {o : Option R} :
    (o.map (hasSharedArrayBufferBrand heap)).getD false = true ↔
      ∃ b, o = some b ∧ hasSharedArrayBufferBrand heap b = true := by
  cases o with
  | none => simp
  | some b => simp

/-- **One object** is refused exactly when it is exposed; else all it holds is put on the list. -/
theorem inspect_ok {heap : Heap R} (label : Utf16) {r : R} (h : ¬Exposed heap r) :
    ∃ found, inspect heap label r = .ok found ∧
      ∀ s, .object s ∈ found ↔ Holds heap r s := by
  have hshared : hasSharedArrayBufferBrand heap r = false :=
    Bool.eq_false_iff.mpr fun htrue => h (.shared htrue)
  have hview : ((heap r).view.map (hasSharedArrayBufferBrand heap)).getD false = false := by
    refine Bool.eq_false_iff.mpr fun htrue => ?_
    obtain ⟨b, hb, hbrand⟩ := getD_shared.mp htrue
    exact h (.view b hb hbrand)
  have hmemory : ((heap r).memory.map (hasSharedArrayBufferBrand heap)).getD false = false := by
    refine Bool.eq_false_iff.mpr fun htrue => ?_
    obtain ⟨b, hb, hbrand⟩ := getD_shared.mp htrue
    exact h (.memory b hb hbrand)
  obtain ⟨found, hfound, hmem⟩ := enqueueProperties_ok label
    (enqueueSetValues ((heap r).elements.getD [])
      (enqueueMapEntries ((heap r).entries.getD []) [])) fun hacc => h (.accessor hacc)
  refine ⟨found, ?_, fun s => ?_⟩
  · rw [inspect, require_bind_eq_ok, require_bind_eq_ok, require_bind_eq_ok]
    exact ⟨hshared, hview, hmemory, hfound⟩
  · rw [hmem, enqueueSetValues_eq, enqueueMapEntries_eq]
    constructor
    · rintro (((hnil | ⟨⟨k, v⟩, hentry, hkey | hvalue⟩) | helement) | hproperty)
      · exact absurd hnil List.not_mem_nil
      · obtain rfl : Value.object s = k := hkey
        exact .key v hentry
      · obtain rfl : Value.object s = v := hvalue
        exact .entry k hentry
      · exact .element helement
      · exact .property hproperty
    · rintro (hproperty | ⟨v, hentry⟩ | ⟨k, hentry⟩ | helement)
      · exact .inr hproperty
      · exact .inl (.inl (.inr ⟨_, hentry, .inl rfl⟩))
      · exact .inl (.inl (.inr ⟨_, hentry, .inr rfl⟩))
      · exact .inl (.inr helement)

theorem inspect_exposed {heap : Heap R} {label : Utf16} {r : R} {found : List (Value R)}
    (h : inspect heap label r = .ok found) : ¬Exposed heap r := by
  rw [inspect, require_bind_eq_ok, require_bind_eq_ok, require_bind_eq_ok] at h
  obtain ⟨hshared, hview, hmemory, hfound⟩ := h
  rintro (hbrand | ⟨b, hb, hbrand⟩ | ⟨b, hb, hbrand⟩ | haccessor)
  · rw [hshared] at hbrand
    cases hbrand
  · rw [getD_shared.mpr ⟨b, hb, hbrand⟩] at hview
    cases hview
  · rw [getD_shared.mpr ⟨b, hb, hbrand⟩] at hmemory
    cases hmemory
  · exact enqueueProperties_error hfound haccessor

/-! ## The walk -/

/-- What looking at an object finds is held by it. -/
theorem holds_of_leads {heap : Heap R} {label : Utf16} {r s : R}
    (h : Leads Value.object? (inspect heap label) r s) : Holds heap r s := by
  obtain ⟨found, hfound, v, hv, hs⟩ := h
  obtain ⟨found', hfound', hmem⟩ := inspect_ok label (inspect_exposed hfound)
  obtain rfl := Except.ok.inj (hfound.symm.trans hfound')
  cases v with
  | primitive => cases hs
  | object r' =>
    obtain rfl := Option.some.inj hs
    exact (hmem r').mp hv

theorem leads_of_holds {heap : Heap R} {label : Utf16} {r s : R} (hexposed : ¬Exposed heap r)
    (h : Holds heap r s) : Leads Value.object? (inspect heap label) r s := by
  obtain ⟨found, hfound, hmem⟩ := inspect_ok label hexposed
  exact ⟨found, hfound, .object s, (hmem s).mpr h, rfl⟩

theorem reaches_of_reached {heap : Heap R} {label : Utf16} {value : Value R} {s : R}
    (h : Reached Value.object? (inspect heap label) [value] s) : Reaches heap value s := by
  obtain ⟨v, hv, r, hr, hpath⟩ := h
  obtain rfl := List.mem_singleton.mp hv
  cases v with
  | primitive => cases hr
  | object r' =>
    obtain rfl := Option.some.inj hr
    exact ⟨r', rfl, hpath.lift id fun _ _ => holds_of_leads⟩

section walk

variable [Fintype R] [DecidableEq R] (heap : Heap R) (value : Value R) (label : Utf16)

/-- When the walk succeeds, it has reached everything that is reachable. -/
theorem reached_of_reaches {heap : Heap R} {value : Value R} {label : Utf16}
    (h : (assertNoReachableSharedMemory heap value label).outcome = .ok ())
    {s : R} (hs : Reaches heap value s) :
    Reached Value.object? (inspect heap label) [value] s := by
  have hall := (search_ok_iff [value]).mp h
  obtain ⟨r, rfl, hpath⟩ := hs
  induction hpath with
  | refl => exact ⟨.object r, List.mem_singleton.mpr rfl, r, rfl, .refl⟩
  | @tail q q' _ hlast ih =>
    obtain ⟨found, hfound⟩ := hall q ih
    obtain ⟨v, hv, r', hr', hreached⟩ := ih
    exact ⟨v, hv, r', hr', hreached.tail (leads_of_holds (inspect_exposed hfound) hlast)⟩

/-- **The inspection** succeeds exactly when nothing exposed is reachable. -/
theorem assertNoReachableSharedMemory_ok_iff :
    (assertNoReachableSharedMemory heap value label).outcome = .ok () ↔
      ∀ r, Reaches heap value r → ¬Exposed heap r := by
  constructor
  · intro h r hr
    obtain ⟨found, hfound⟩ := (search_ok_iff [value]).mp h r (reached_of_reaches h hr)
    exact inspect_exposed hfound
  · intro h
    refine (search_ok_iff [value]).mpr fun r hr => ?_
    obtain ⟨found, hfound, -⟩ := inspect_ok label (h r (reaches_of_reached hr))
    exact ⟨found, hfound⟩

/-- It looks only at reachable objects, at each once. -/
theorem assertNoReachableSharedMemory_inspected :
    (assertNoReachableSharedMemory heap value label).inspected.Nodup ∧
      ∀ r ∈ (assertNoReachableSharedMemory heap value label).inspected, Reaches heap value r :=
  ⟨(search_nodup [value] ∅).1, fun r hr => reaches_of_reached (search_reached [value] ∅ r hr)⟩

/-- When it succeeds, it has looked at all of them. -/
theorem assertNoReachableSharedMemory_all {heap : Heap R} {value : Value R} {label : Utf16}
    (h : (assertNoReachableSharedMemory heap value label).outcome = .ok ()) {r : R}
    (hr : Reaches heap value r) :
    r ∈ (assertNoReachableSharedMemory heap value label).inspected :=
  (search_inspected h r).mpr (reached_of_reaches h hr)

end walk

/-! ## Snapshots -/

/-- Memory that a value leads to: objects held, and the buffers of views and memories. -/
def Touches (heap : Heap R) (value : Value R) (m : R) : Prop :=
  ∃ r, value = .object r ∧ Relation.ReflTransGen
    (fun r s => Holds heap r s ∨ (heap r).view = some s ∨ (heap r).memory = some s) r m

/-- An object that holds nothing: a buffer without properties. -/
structure Plain (o : Obj R) : Prop where
  view : o.view = none
  memory : o.memory = none
  entries : o.entries = none
  elements : o.elements = none
  properties : o.properties = []

/-- **A clone** copies everything except shared memory: its objects are fresh, its buffers have
blocks that no buffer had before unless they are shared, and the buffers behind its views and
memories hold nothing. -/
structure Copies {before : Heap R} (cloned : Cloned before) : Prop where
  fresh : ∀ m, Touches cloned.heap cloned.value m → ∃ f, m = .inr f
  blocks : ∀ m, Touches cloned.heap cloned.value m → ∀ b ∈ (cloned.heap m).backing,
    b.shared = false → ∀ r, ∀ b' ∈ (before r).backing, b'.block ≠ b.block
  buffers : ∀ m, Touches cloned.heap cloned.value m → ∀ s,
    (cloned.heap m).view = some s ∨ (cloned.heap m).memory = some s → Plain (cloned.heap s)

/-- No object and no block that the snapshot leads to is one of the caller's. -/
def SharesNothing {before : Heap R} (cloned : Cloned before) : Prop :=
  ∀ m, Touches cloned.heap cloned.value m → (∃ f, m = .inr f) ∧
    ∀ b ∈ (cloned.heap m).backing, ∀ r, ∀ b' ∈ (before r).backing, b'.block ≠ b.block

theorem Plain.holds_nothing {heap : Heap R} {r : R} (h : Plain (heap r)) (s : R) :
    ¬Holds heap r s := by
  rintro (hproperty | ⟨v, hentry⟩ | ⟨k, hentry⟩ | helement)
  · rw [h.properties] at hproperty
    cases hproperty
  · rw [h.entries] at hentry
    cases hentry
  · rw [h.entries] at hentry
    cases hentry
  · rw [h.elements] at helement
    cases helement

/-- What a clone leads to is reachable over what objects hold, or the buffer of a view or a memory
that is. -/
theorem touches_cases {before : Heap R} {cloned : Cloned before} (hclone : Copies cloned)
    {m : R ⊕ cloned.Fresh} (h : Touches cloned.heap cloned.value m) :
    Reaches cloned.heap cloned.value m ∨ ∃ r, Reaches cloned.heap cloned.value r ∧
      ((cloned.heap r).view = some m ∨ (cloned.heap r).memory = some m) := by
  obtain ⟨r, hvalue, hpath⟩ := h
  induction hpath with
  | refl => exact .inl ⟨r, hvalue, .refl⟩
  | @tail q q' hfront hlast ih =>
    rcases ih with hreach | ⟨p, hp, hbuffer⟩
    · rcases hlast with hholds | hbuffer
      · obtain ⟨r', hr', hpath⟩ := hreach
        exact .inl ⟨r', hr', hpath.tail hholds⟩
      · exact .inr ⟨q, hreach, hbuffer⟩
    · have htouched : Touches cloned.heap cloned.value p := by
        obtain ⟨r', hr', hpath⟩ := hp
        exact ⟨r', hr', hpath.lift id fun _ _ => .inl⟩
      have hplain := hclone.buffers p htouched q hbuffer
      rcases hlast with hholds | hview | hmemory
      · exact absurd hholds (hplain.holds_nothing q')
      · rw [hplain.view] at hview
        cases hview
      · rw [hplain.memory] at hmemory
        cases hmemory

/-- A clone that passes the inspection leads to no shared memory. -/
theorem inspected_clone {before : Heap R} [Fintype R] [DecidableEq R] {cloned : Cloned before}
    {label : Utf16} (hclone : Copies cloned) (h : (cloned.inspection label).outcome = .ok ()) :
    SharesNothing cloned := by
  intro m hm
  refine ⟨hclone.fresh m hm, fun b hb => ?_⟩
  let _ := cloned.finite
  let _ := cloned.decidable
  have hsafe := (assertNoReachableSharedMemory_ok_iff cloned.heap cloned.value label).mp h
  have hbrand : hasSharedArrayBufferBrand cloned.heap m = false := by
    refine Bool.eq_false_iff.mpr fun htrue => ?_
    rcases touches_cases hclone hm with hreach | ⟨r, hreach, hview | hmemory⟩
    · exact hsafe m hreach (.shared htrue)
    · exact hsafe r hreach (.view m hview htrue)
    · exact hsafe r hreach (.memory m hmemory htrue)
  have hshared : b.shared = false := by
    rw [hasSharedArrayBufferBrand, Option.mem_def.mp hb] at hbrand
    exact hbrand
  exact hclone.blocks m hm b hb hshared

theorem snapshotStructuredClone_ok [Fintype R] [DecidableEq R]
    {structuredClone : (heap : Heap R) → Value R → Option (Cloned heap)} {heap : Heap R}
    {value : Value R} {label : Utf16} {snapshot : Cloned heap}
    (h : snapshotStructuredClone structuredClone heap value label = .ok snapshot) :
    structuredClone heap value = some snapshot ∧ (snapshot.inspection label).outcome = .ok () := by
  rw [snapshotStructuredClone] at h
  split at h
  · cases h
  · split at h
    · cases h
    · next cloned hcloned =>
      split at h
      · cases h
      · next hinspected =>
        obtain rfl := Except.ok.inj h
        exact ⟨hcloned, hinspected⟩

/-- **The walk** of a snapshot looks at each reachable object once and throws exactly when something
exposed is reachable; and the snapshot shares no memory with the caller. -/
theorem snapshot_walk {R : Type} [Fintype R] [DecidableEq R]
    (structuredClone : (heap : Heap R) → Value R → Option (Cloned heap)) (heap : Heap R)
    (value : Value R) (label : Utf16)
    (hclone : ∀ cloned, structuredClone heap value = some cloned → Copies cloned) :
    ((∃ e, (assertNoReachableSharedMemory heap value label).outcome = .error e) ↔
        ∃ r, Reaches heap value r ∧ Exposed heap r) ∧
      (assertNoReachableSharedMemory heap value label).inspected.Nodup ∧
      (∀ r ∈ (assertNoReachableSharedMemory heap value label).inspected, Reaches heap value r) ∧
      ((assertNoReachableSharedMemory heap value label).outcome = .ok () →
        ∀ r, Reaches heap value r →
          r ∈ (assertNoReachableSharedMemory heap value label).inspected) ∧
      ∀ snapshot, snapshotStructuredClone structuredClone heap value label = .ok snapshot →
        SharesNothing snapshot := by
  obtain ⟨hnodup, hreaches⟩ := assertNoReachableSharedMemory_inspected heap value label
  refine ⟨?_, hnodup, hreaches, fun h r hr => assertNoReachableSharedMemory_all h hr, ?_⟩
  · have hiff := assertNoReachableSharedMemory_ok_iff heap value label
    constructor
    · rintro ⟨e, he⟩
      by_contra hnone
      have hok := hiff.mpr fun r hr hexposed => hnone ⟨r, hr, hexposed⟩
      rw [he] at hok
      cases hok
    · rintro ⟨r, hr, hexposed⟩
      cases houtcome : (assertNoReachableSharedMemory heap value label).outcome with
      | error e => exact ⟨e, rfl⟩
      | ok u => exact absurd hexposed (hiff.mp houtcome r hr)
  · intro snapshot hsnapshot
    obtain ⟨hcloned, hinspected⟩ := snapshotStructuredClone_ok hsnapshot
    exact inspected_clone (hclone snapshot hcloned) hinspected

/-! ## Two graphs -/

/-- A plain object without properties. -/
def emptyObj : Obj R := ⟨none, none, none, none, none, []⟩

/-- A view on a buffer that has a shared buffer for a property. -/
def expandoHeap : Heap (Fin 3)
  | 0 => { emptyObj with view := some 1 }
  | 1 => { emptyObj with backing := some ⟨false, 0⟩, properties := [.data (.object 2)] }
  | 2 => { emptyObj with backing := some ⟨true, 1⟩ }

/-- **A shared buffer** that is a property of the buffer behind a view is reachable over properties
and views, and the walk does not throw. -/
theorem viewed_expando :
    ¬((∃ e, (assertNoReachableSharedMemory expandoHeap (.object 0) []).outcome = .error e) ↔
      ∃ s, Relation.ReflTransGen (HoldsOrViews expandoHeap) 0 s ∧ Exposed expandoHeap s) := by
  have hview : HoldsOrViews expandoHeap 0 1 := .inr rfl
  have hproperty : HoldsOrViews expandoHeap 1 2 := .inl (.property (List.mem_singleton.mpr rfl))
  have hexposed : Exposed expandoHeap 2 := .shared rfl
  have hholds : ∀ s, ¬Holds expandoHeap 0 s := by
    rintro s (hproperty | ⟨v, hentry⟩ | ⟨k, hentry⟩ | helement)
    · cases hproperty
    · cases hentry
    · cases hentry
    · cases helement
  have hsafe : (assertNoReachableSharedMemory expandoHeap (.object 0) []).outcome = .ok () := by
    refine (assertNoReachableSharedMemory_ok_iff _ _ _).mpr ?_
    rintro r ⟨root, hroot, hpath⟩
    cases hroot
    rcases hpath.cases_head with rfl | ⟨s, hs, -⟩
    · rintro (hshared | ⟨b, hb, hshared⟩ | ⟨b, hb, hshared⟩ | haccessor)
      · cases hshared
      · obtain rfl := Option.some.inj hb
        cases hshared
      · cases hb
      · cases haccessor
    · exact absurd hs (hholds s)
  intro hiff
  obtain ⟨e, he⟩ := hiff.mpr ⟨2, .tail (.tail .refl hview) hproperty, hexposed⟩
  rw [hsafe] at he
  cases he

/-- The same graph once more, with blocks from a number on. -/
def duplicate [Fintype R] [DecidableEq R] (start : ℕ) (heap : Heap R) (value : Value R) :
    Cloned heap where
  Fresh := R
  finite := inferInstance
  decidable := inferInstance
  heap
    | .inl r => (heap r).map Sum.inl
    | .inr r => { (heap r).map Sum.inr with
        backing := (heap r).backing.map fun b => { b with block := start + b.block } }
  kept _ := rfl
  value := value.map Sum.inr

theorem map_object {S : Type} {f : R → S} {v : Value R} {s : S} (h : v.map f = .object s) :
    ∃ r, s = f r := by
  cases v with
  | primitive => cases h
  | object r => exact ⟨r, (Value.object.inj h).symm⟩

/-- The objects made lead to objects made. -/
theorem duplicate_step [Fintype R] [DecidableEq R] {start : ℕ} {heap : Heap R} {value : Value R}
    {r : R} {s : R ⊕ R} (h : Holds (duplicate start heap value).heap (.inr r) s ∨
      ((duplicate start heap value).heap (.inr r)).view = some s ∨
      ((duplicate start heap value).heap (.inr r)).memory = some s) : ∃ q, s = .inr q := by
  rcases h with (hproperty | ⟨v, hentry⟩ | ⟨k, hentry⟩ | helement) | hview | hmemory
  · obtain ⟨d, -, hd⟩ := List.mem_map.mp hproperty
    cases d with
    | data value => exact map_object (Descriptor.data.inj hd)
    | accessor => cases hd
  · change (_, v) ∈ ((heap r).entries.map _).getD [] at hentry
    cases hentries : (heap r).entries with
    | none =>
      rw [hentries] at hentry
      cases hentry
    | some l =>
      rw [hentries] at hentry
      obtain ⟨entry, -, heq⟩ := List.mem_map.mp hentry
      exact map_object (Prod.mk.inj heq).1
  · change (k, _) ∈ ((heap r).entries.map _).getD [] at hentry
    cases hentries : (heap r).entries with
    | none =>
      rw [hentries] at hentry
      cases hentry
    | some l =>
      rw [hentries] at hentry
      obtain ⟨entry, -, heq⟩ := List.mem_map.mp hentry
      exact map_object (Prod.mk.inj heq).2
  · change _ ∈ ((heap r).elements.map _).getD [] at helement
    cases helements : (heap r).elements with
    | none =>
      rw [helements] at helement
      cases helement
    | some l =>
      rw [helements] at helement
      obtain ⟨v, -, heq⟩ := List.mem_map.mp helement
      exact map_object heq
  · obtain ⟨b, -, hb⟩ := Option.map_eq_some_iff.mp hview
    exact ⟨b, hb.symm⟩
  · obtain ⟨b, -, hb⟩ := Option.map_eq_some_iff.mp hmemory
    exact ⟨b, hb.symm⟩

/-- A graph whose viewed buffers hold nothing is copied by making it once more. -/
theorem duplicate_copies [Fintype R] [DecidableEq R] {start : ℕ} {heap : Heap R}
    (hblocks : ∀ r, ∀ b ∈ (heap r).backing, b.block < start)
    (hbuffers : ∀ r s, (heap r).view = some s ∨ (heap r).memory = some s → Plain (heap s))
    (value : Value R) : Copies (duplicate start heap value) := by
  have hfresh : ∀ m, Touches (duplicate start heap value).heap (duplicate start heap value).value m →
      ∃ f, m = .inr f := by
    rintro m ⟨r, hr, hpath⟩
    induction hpath with
    | refl => exact map_object hr
    | tail _ hlast ih =>
      obtain ⟨q, rfl⟩ := ih
      exact duplicate_step (R := R) hlast
  refine ⟨hfresh, fun m hm b hb _ r b' hb' => ?_, fun m hm s hs => ?_⟩
  · obtain ⟨q, rfl⟩ := hfresh m hm
    obtain ⟨c, -, rfl⟩ := Option.map_eq_some_iff.mp hb
    have hlt := hblocks r b' hb'
    change b'.block ≠ start + c.block
    omega
  · obtain ⟨q, rfl⟩ := hfresh m hm
    have hplain : ∀ o : Option R, o.map Sum.inr = some s → (o = (heap q).view ∨ o = (heap q).memory) →
        Plain ((duplicate start heap value).heap s) := by
      intro o ho hbuffer
      obtain ⟨b, rfl, rfl⟩ := Option.map_eq_some_iff.mp ho
      have hb := hbuffers q b (hbuffer.imp Eq.symm Eq.symm)
      exact {
        view := congrArg (Option.map _) hb.view
        memory := congrArg (Option.map _) hb.memory
        entries := congrArg (Option.map _) hb.entries
        elements := congrArg (Option.map _) hb.elements
        properties := congrArg (List.map _) hb.properties }
    rcases hs with hview | hmemory
    · exact hplain _ hview (.inl rfl)
    · exact hplain _ hmemory (.inr rfl)

/-- An object that holds itself and a map; the map holds the object and a view on a buffer. -/
def cyclicHeap : Heap (Fin 4)
  | 0 => { emptyObj with properties := [.data (.object 1), .data (.object 0), .data .primitive] }
  | 1 => { emptyObj with entries := some [(.primitive, .object 2), (.object 0, .primitive)] }
  | 2 => { emptyObj with view := some 3, properties := [.data .primitive] }
  | 3 => { emptyObj with backing := some ⟨false, 0⟩ }

theorem cyclicHeap_walk :
    ((∃ e, (assertNoReachableSharedMemory cyclicHeap (.object 0) []).outcome = .error e) ↔
        ∃ r, Reaches cyclicHeap (.object 0) r ∧ Exposed cyclicHeap r) ∧
      ∀ snapshot, snapshotStructuredClone (fun heap value => some (duplicate 1 heap value))
        cyclicHeap (.object 0) [] = .ok snapshot → SharesNothing snapshot := by
  have hclone : ∀ cloned, some (duplicate 1 cyclicHeap (.object 0)) = some cloned →
      Copies cloned := by
    intro cloned hcloned
    obtain rfl := Option.some.inj hcloned
    refine duplicate_copies ?_ ?_ _
    · intro r b hb
      fin_cases r
      · cases hb
      · cases hb
      · cases hb
      · obtain rfl := Option.some.inj hb
        exact Nat.one_pos
    · intro r s hs
      fin_cases r
      · rcases hs with h | h <;> cases h
      · rcases hs with h | h <;> cases h
      · rcases hs with h | h
        · obtain rfl := Option.some.inj h
          exact ⟨rfl, rfl, rfl, rfl, rfl⟩
        · cases h
      · rcases hs with h | h <;> cases h
  have hwalk := snapshot_walk (fun heap value => some (duplicate 1 heap value)) cyclicHeap
    (.object 0) [] hclone
  exact ⟨hwalk.1, hwalk.2.2.2.2⟩

end AgencCoordination.Sdk
