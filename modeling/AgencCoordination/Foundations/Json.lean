import Mathlib.Data.Rat.Defs
import Mathlib.Data.Rat.Cast.Defs
import Mathlib.Data.Rat.Lemmas
import Mathlib.Tactic.Common

/-!
# JSON values

A JSON value as a parser returns it, and objects written from a list of fields some of which are
left out. A reader of such an object finds exactly the fields that were there:

* **`fields_lookup`** — looking a name up in the written object gives the field of that name.
* **`fields_any`** — the object has a key where the field is there.
-/

namespace Foundations

inductive Json where
  | null
  | bool (b : Bool)
  | num (n : ℚ)
  | str (s : String)
  | arr (items : List Json)
  | obj (fields : List (String × Json))

namespace Json

/-- The fields that are there; a field without a value is left out, as `undefined` is. -/
def fields (l : List (String × Option Json)) : List (String × Json) :=
  l.filterMap fun field => field.2.map fun value => (field.1, value)

@[simp] theorem fields_nil : fields [] = [] := rfl

@[simp] theorem fields_none (name : String) (l : List (String × Option Json)) :
    fields ((name, none) :: l) = fields l := rfl

@[simp] theorem fields_some (name : String) (value : Json) (l : List (String × Option Json)) :
    fields ((name, some value) :: l) = (name, value) :: fields l := rfl

theorem mem_fields {name : String} {value : Json} {l : List (String × Option Json)} :
    (name, value) ∈ fields l ↔ (name, some value) ∈ l := by
  unfold fields
  rw [List.mem_filterMap]
  constructor
  · rintro ⟨⟨n, v⟩, hmem, hv⟩
    obtain ⟨v', rfl, heq⟩ := Option.map_eq_some_iff.mp hv
    obtain ⟨rfl, rfl⟩ := Prod.mk.inj heq
    exact hmem
  · intro hmem
    exact ⟨_, hmem, rfl⟩

/-- The names of a written object are among the names of its fields. -/
theorem fields_names {l : List (String × Option Json)} {field : String × Json}
    (h : field ∈ fields l) : field.1 ∈ l.map Prod.fst := by
  obtain ⟨name, value⟩ := field
  exact List.mem_map.mpr ⟨_, mem_fields.mp h, rfl⟩

/-- A reader finds the field of a name where it was written, if it was. -/
theorem fields_lookup {l : List (String × Option Json)} (hnodup : (l.map Prod.fst).Nodup)
    {name : String} {value : Option Json} (h : (name, value) ∈ l) :
    (fields l).lookup name = value := by
  induction l with
  | nil => cases h
  | cons field rest ih =>
    obtain ⟨n, v⟩ := field
    rw [List.map_cons, List.nodup_cons] at hnodup
    rcases List.mem_cons.mp h with heq | hrest
    · obtain ⟨rfl, rfl⟩ := Prod.mk.inj heq
      cases value with
      | some v =>
        rw [fields_some, List.lookup_cons, beq_self_eq_true]
      | none =>
        rw [fields_none, List.lookup_eq_none_iff]
        intro field hfield
        have hmem := fields_names hfield
        rw [bne_iff_ne]
        intro heq
        rw [← heq] at hmem
        exact hnodup.1 hmem
    · have hne : name ≠ n := by
        rintro rfl
        exact hnodup.1 (List.mem_map.mpr ⟨_, hrest, rfl⟩)
      have hlookup := ih hnodup.2 hrest
      cases v with
      | none =>
        rw [fields_none]
        exact hlookup
      | some v =>
        rw [fields_some, List.lookup_cons, beq_eq_false_iff_ne.mpr hne]
        exact hlookup

/-- A field with a value is a key of the object. -/
theorem fields_any {l : List (String × Option Json)} {name : String} {value : Json}
    (h : (name, some value) ∈ l) : (fields l).any (fun field => field.1 == name) = true := by
  rw [List.any_eq_true]
  exact ⟨(name, value), mem_fields.mpr h, beq_self_eq_true name⟩

end Json

end Foundations
