import AgencCoordination.Foundations.JsonText

/-!
# JSON text is one line

What `JSON.stringify` writes has no control characters and no lone surrogates: both are escaped.

* **`Printable`** — such strings, and how they are put together.
* **`stringify_printable`** — the text of every value is one.
-/

namespace Foundations

/-- Without control characters, every surrogate part of a pair. -/
structure Printable (s : Utf16) : Prop where
  wellFormed : s.isWellFormed = true
  printed : ∀ u ∈ s, 0x20 ≤ u.toNat

/-- A text is split at its first separator in one way. -/
theorem split_first {α : Type} {c : α} {a a' b b' : List α} (ha : c ∉ a) (ha' : c ∉ a')
    (h : a ++ c :: b = a' ++ c :: b') : a = a' ∧ b = b' := by
  induction a generalizing a' with
  | nil =>
    cases a' with
    | nil => exact ⟨rfl, (List.cons.inj h).2⟩
    | cons d a' =>
      obtain rfl : c = d := (List.cons.inj h).1
      exact absurd List.mem_cons_self ha'
  | cons d a ih =>
    cases a' with
    | nil =>
      obtain rfl : d = c := (List.cons.inj h).1
      exact absurd List.mem_cons_self ha
    | cons d' a' =>
      obtain ⟨rfl, hrest⟩ := List.cons.inj h
      obtain ⟨rfl, hb⟩ := ih (fun hmem => ha (List.mem_cons_of_mem _ hmem))
        (fun hmem => ha' (List.mem_cons_of_mem _ hmem)) hrest
      exact ⟨rfl, hb⟩

theorem Utf16.isWellFormed_append {a : Utf16} (h : a.isWellFormed = true) (b : Utf16) :
    Utf16.isWellFormed (a ++ b) = b.isWellFormed := by
  fun_induction Utf16.isWellFormed a with
  | case1 => rfl
  | case2 u =>
    rw [Bool.not_eq_true', Bool.or_eq_false_iff] at h
    exact Utf16.isWellFormed_single h.1 h.2 b
  | case3 u v rest hhigh ih =>
    rw [Bool.and_eq_true] at h
    rw [List.cons_append, List.cons_append, Utf16.isWellFormed, if_pos hhigh, h.1, Bool.true_and,
      ih h.2]
  | case4 u v rest hhigh ih =>
    rw [Bool.and_eq_true, Bool.not_eq_true'] at h
    rw [List.cons_append, Utf16.isWellFormed_single (Bool.eq_false_iff.mpr hhigh) h.1, ih h.2]

namespace Printable

theorem nil : Printable [] := ⟨rfl, fun _ h => absurd h List.not_mem_nil⟩

theorem append {a b : Utf16} (ha : Printable a) (hb : Printable b) : Printable (a ++ b) := by
  refine ⟨?_, fun u hu => ?_⟩
  · rw [Utf16.isWellFormed_append ha.wellFormed, hb.wellFormed]
  · rcases List.mem_append.mp hu with hleft | hright
    · exact ha.printed u hleft
    · exact hb.printed u hright

/-- A printed unit that is no surrogate. -/
theorem single {u : UInt16} (hlow : 0x20 ≤ u.toNat) (hhigh : u.toNat < 0xD800) :
    Printable [u] := by
  refine ⟨?_, fun v hv => ?_⟩
  · have hnotHigh : Utf16.isHigh u = false := by
      rw [Utf16.isHigh, decide_eq_false_iff_not]
      omega
    have hnotLow : Utf16.isLow u = false := by
      rw [Utf16.isLow, decide_eq_false_iff_not]
      omega
    exact Utf16.isWellFormed_single hnotHigh hnotLow []
  · rw [List.mem_singleton.mp hv]
    exact hlow

theorem cons {u : UInt16} {s : Utf16} (hlow : 0x20 ≤ u.toNat) (hhigh : u.toNat < 0xD800)
    (hs : Printable s) : Printable (u :: s) := (single hlow hhigh).append hs

/-- A string of printed units without surrogates. -/
theorem of_forall {s : Utf16} (h : ∀ u ∈ s, 0x20 ≤ u.toNat ∧ u.toNat < 0xD800) :
    Printable s := by
  induction s with
  | nil => exact nil
  | cons u rest ih =>
    rw [List.forall_mem_cons] at h
    exact cons h.1.1 h.1.2 (ih h.2)

/-- A fixed word. -/
theorem of_all {s : Utf16}
    (h : (s.all fun u => decide (0x20 ≤ u.toNat ∧ u.toNat < 0xD800)) = true) : Printable s :=
  of_forall fun u hu => of_decide_eq_true (List.all_eq_true.mp h u hu)

/-- A pair of surrogates. -/
theorem pair {u v : UInt16} (hu : Utf16.isHigh u = true) (hv : Utf16.isLow v = true) :
    Printable [u, v] := by
  refine ⟨?_, fun w hw => ?_⟩
  · rw [Utf16.isWellFormed, if_pos hu, hv, Bool.true_and, Utf16.isWellFormed]
  · rw [Utf16.isHigh, decide_eq_true_eq] at hu
    rw [Utf16.isLow, decide_eq_true_eq] at hv
    rcases List.mem_pair.mp hw with rfl | rfl <;> omega

end Printable

/-! ## Numbers -/

namespace Number

open Binary64

/-- The units of a number: digits, signs, points and exponents. -/
def IsNumberUnit (u : UInt16) : Prop := 0x20 ≤ u.toNat ∧ u.toNat < 0xD800

theorem isNumberUnit_of_digit {u : UInt16} (h : isDigit u = true) : IsNumberUnit u := by
  rw [isDigit, decide_eq_true_eq] at h
  exact ⟨by omega, by omega⟩

theorem isNumberUnit_exponentText {e : ℤ} {u : UInt16} (h : u ∈ exponentText e) :
    IsNumberUnit u := by
  rw [exponentText, List.mem_cons, List.mem_cons] at h
  rcases h with rfl | rfl | hdigit
  · exact ⟨by decide, by decide⟩
  · split_ifs
    · exact ⟨by decide, by decide⟩
    · exact ⟨by decide, by decide⟩
  · exact isNumberUnit_of_digit (isDigit_decimal hdigit)

theorem isNumberUnit_layout {digits : Utf16} {n : ℤ} (hdigits : ∀ u ∈ digits, IsNumberUnit u)
    {u : UInt16} (h : u ∈ layout digits n) : IsNumberUnit u := by
  have hpoint : IsNumberUnit 0x2E := ⟨by decide, by decide⟩
  have hzero : IsNumberUnit 0x30 := ⟨by decide, by decide⟩
  rw [layout] at h
  split_ifs at h
  · rcases List.mem_append.mp h with hmem | hmem
    · exact hdigits u hmem
    · exact isNumberUnit_of_digit (isDigit_zeros hmem)
  · rcases List.mem_append.mp h with hmem | hmem
    · exact hdigits u (List.mem_of_mem_take hmem)
    · rcases List.mem_cons.mp hmem with rfl | hmem
      · exact hpoint
      · exact hdigits u (List.mem_of_mem_drop hmem)
  · rcases List.mem_cons.mp h with rfl | h
    · exact hzero
    · rcases List.mem_cons.mp h with rfl | h
      · exact hpoint
      · rcases List.mem_append.mp h with hmem | hmem
        · exact isNumberUnit_of_digit (isDigit_zeros hmem)
        · exact hdigits u hmem
  · rcases List.mem_append.mp h with hmem | hmem
    · exact hdigits u hmem
    · exact isNumberUnit_exponentText hmem
  · rcases List.mem_append.mp h with hmem | hmem
    · rcases List.mem_append.mp hmem with hmem | hmem
      · exact hdigits u (List.mem_of_mem_take hmem)
      · rcases List.mem_cons.mp hmem with rfl | hmem
        · exact hpoint
        · exact hdigits u (List.mem_of_mem_drop hmem)
    · exact isNumberUnit_exponentText hmem

theorem magnitudeText_printable (m : Magnitude) : Printable (magnitudeText m) := by
  refine Printable.of_forall fun u hu => ?_
  rw [magnitudeText] at hu
  split_ifs at hu with hpos
  · cases hshortest : shortest m hpos with
    | none =>
      rw [hshortest] at hu
      exact absurd hu List.not_mem_nil
    | some c =>
      rw [hshortest] at hu
      exact isNumberUnit_layout (fun v hv => isNumberUnit_of_digit (isDigit_decimal hv)) hu
  · rw [List.mem_singleton.mp hu]
    exact ⟨by decide, by decide⟩

theorem toText_printable (x : Number) : Printable x.toText := by
  cases x with
  | finite negative size =>
    rw [toText]
    split_ifs
    · exact .cons (by decide) (by decide) (magnitudeText_printable size)
    · exact magnitudeText_printable size
  | infinite negative =>
    cases negative
    · exact .of_all (by decide)
    · exact .of_all (by decide)

end Number

namespace JsonValue

/-! ## Strings -/

theorem hexUnit_bounds {d : ℕ} (h : d < 16) :
    0x20 ≤ (hexUnit d).toNat ∧ (hexUnit d).toNat < 0xD800 := by
  have hall : ∀ d < 16, 0x20 ≤ (hexUnit d).toNat ∧ (hexUnit d).toNat < 0xD800 := by decide
  exact hall d h

theorem unicodeEscape_printable (u : UInt16) : Printable (unicodeEscape u) := by
  have hlt := u.toNat_lt
  have hfirst := hexUnit_bounds (d := u.toNat / 4096) (by omega)
  have hsecond := hexUnit_bounds (d := u.toNat / 256 % 16) (by omega)
  have hthird := hexUnit_bounds (d := u.toNat / 16 % 16) (by omega)
  have hfourth := hexUnit_bounds (d := u.toNat % 16) (by omega)
  exact .cons (by decide) (by decide) (.cons (by decide) (by decide) (.cons hfirst.1 hfirst.2
    (.cons hsecond.1 hsecond.2 (.cons hthird.1 hthird.2 (.single hfourth.1 hfourth.2)))))

/-- The escape of a unit that is no surrogate. -/
theorem escapeUnit_printable {u : UInt16} (h : ¬(Utf16.isHigh u || Utf16.isLow u) = true) :
    Printable (escapeUnit u) := by
  have hescape : ∀ v : UInt16, 0x20 ≤ v.toNat → v.toNat < 0xD800 → Printable [0x5C, v] :=
    fun v hlow hhigh => .cons (by decide) (by decide) (.single hlow hhigh)
  rw [escapeUnit]
  split_ifs with _ _ _ _ _ _ _ hcontrol
  · exact hescape _ (by decide) (by decide)
  · exact hescape _ (by decide) (by decide)
  · exact hescape _ (by decide) (by decide)
  · exact hescape _ (by decide) (by decide)
  · exact hescape _ (by decide) (by decide)
  · exact hescape _ (by decide) (by decide)
  · exact hescape _ (by decide) (by decide)
  · exact unicodeEscape_printable u
  · rw [Bool.not_eq_true, Bool.or_eq_false_iff] at h
    refine ⟨Utf16.isWellFormed_single h.1 h.2 [], fun v hv => ?_⟩
    rw [List.mem_singleton.mp hv]
    exact not_lt.mp hcontrol

/-- **Strings** are quoted without control characters and lone surrogates. -/
theorem quoteUnits_printable (s : Utf16) : Printable (quoteUnits s) := by
  fun_induction quoteUnits s with
  | case1 => exact .nil
  | case2 u hlone => exact unicodeEscape_printable u
  | case3 u hlone => exact escapeUnit_printable hlone
  | case4 u v rest hhigh hlow ih => exact (Printable.pair hhigh hlow).append ih
  | case5 u v rest hhigh hlow ih => exact (unicodeEscape_printable u).append ih
  | case6 u v rest hhigh hlow ih => exact (unicodeEscape_printable u).append ih
  | case7 u v rest hhigh hlow ih =>
    have hlone : ¬(Utf16.isHigh u || Utf16.isLow u) = true := by
      rw [Bool.or_eq_true, not_or]
      exact ⟨hhigh, hlow⟩
    exact (escapeUnit_printable hlone).append ih

theorem quote_printable (s : Utf16) : Printable (quote s) :=
  .cons (by decide) (by decide) ((quoteUnits_printable s).append (.single (by decide) (by decide)))

/-! ## Values -/

mutual

/-- **The text of a value** is printable. -/
theorem stringify_printable (v : JsonValue) : Printable v.stringify := by
  match v with
  | .null => exact .of_all (by decide)
  | .bool true => exact .of_all (by decide)
  | .bool false => exact .of_all (by decide)
  | .number x =>
    rw [stringify]
    split_ifs
    · exact x.toText_printable
    · exact .of_all (by decide)
  | .string s => exact quote_printable s
  | .array items =>
    rw [stringify]
    exact .cons (by decide) (by decide)
      ((stringifyItems_printable items).append (.single (by decide) (by decide)))
  | .object members =>
    rw [stringify]
    exact .cons (by decide) (by decide)
      ((stringifyMembers_printable members).append (.single (by decide) (by decide)))

theorem stringifyItems_printable (items : List JsonValue) :
    Printable (stringifyItems items) := by
  match items with
  | [] => exact .nil
  | v :: rest =>
    rw [stringifyItems]
    refine (stringify_printable v).append ?_
    split_ifs
    · exact .nil
    · exact .cons (by decide) (by decide) (stringifyItems_printable rest)

theorem stringifyMembers_printable (members : List (Utf16 × JsonValue)) :
    Printable (stringifyMembers members) := by
  match members with
  | [] => exact .nil
  | (k, v) :: rest =>
    rw [stringifyMembers]
    refine (quote_printable k).append (.cons (by decide) (by decide)
      ((stringify_printable v).append ?_))
    split_ifs
    · exact .nil
    · exact .cons (by decide) (by decide) (stringifyMembers_printable rest)

end

end JsonValue

end Foundations
