import Mathlib.Data.List.Basic
import Mathlib.Tactic.Common

/-!
# Joining texts and cutting them

Texts are joined with a separator between them, and a text is cut at the first place where a mark
stands or at the last place where a single unit does.

* **`cut?`, `cutLast?`** — what stands before and after the place.
* **`cut?_joined`** — a mark of two separators is not met inside a join of texts that are not empty.
-/

namespace Foundations

variable {α : Type}

/-! ## Joins -/

theorem mem_intercalate {x u : α} {runs : List (List α)} (h : u ∈ [x].intercalate runs) :
    u = x ∨ ∃ run ∈ runs, u ∈ run := by
  induction runs with
  | nil => cases h
  | cons run runs ih =>
    cases runs with
    | nil =>
      rw [List.intercalate_singleton] at h
      exact .inr ⟨run, List.mem_singleton_self _, h⟩
    | cons next runs =>
      rw [List.intercalate_cons_cons, List.mem_append, List.mem_append, List.mem_singleton] at h
      rcases h with (h | rfl) | h
      · exact .inr ⟨run, List.mem_cons_self, h⟩
      · exact .inl rfl
      · rcases ih h with rfl | ⟨run', hmem, hu⟩
        · exact .inl rfl
        · exact .inr ⟨run', List.mem_cons_of_mem _ hmem, hu⟩

theorem intercalate_append {s : List α} {a b : List (List α)} (ha : a ≠ []) (hb : b ≠ []) :
    s.intercalate (a ++ b) = s.intercalate a ++ (s ++ s.intercalate b) := by
  induction a with
  | nil => exact absurd rfl ha
  | cons x rest ih =>
    cases rest with
    | nil =>
      rw [List.singleton_append, List.intercalate_cons_of_ne_nil hb, List.intercalate_singleton,
        List.append_assoc]
    | cons y rest =>
      have hrest := ih (List.cons_ne_nil _ _)
      rw [List.cons_append, List.cons_append, List.intercalate_cons_cons,
        List.intercalate_cons_cons, ← List.cons_append, hrest]
      simp only [List.append_assoc]

theorem map_intercalate {β : Type} (f : α → β) (s : List α) (runs : List (List α)) :
    (s.intercalate runs).map f = (s.map f).intercalate (runs.map (List.map f)) := by
  induction runs with
  | nil => rfl
  | cons run runs ih =>
    by_cases hruns : runs = []
    · rw [hruns, List.map_cons, List.map_nil, List.intercalate_singleton,
        List.intercalate_singleton]
    · have hmapped : runs.map (List.map f) ≠ [] := by
        rw [ne_eq, List.map_eq_nil_iff]
        exact hruns
      rw [List.intercalate_cons_of_ne_nil hruns, List.map_cons,
        List.intercalate_cons_of_ne_nil hmapped, List.map_append, List.map_append, ih]

/-! ## Cuts -/

section Cuts

variable [DecidableEq α]

/-- The text before and after the first place where the mark stands. -/
def cut? (mark : List α) : List α → Option (List α × List α)
  | [] => none
  | u :: rest =>
    if mark.isPrefixOf (u :: rest) then some ([], (u :: rest).drop mark.length)
    else (cut? mark rest).map fun p => (u :: p.1, p.2)

/-- The text before and after the last place where the unit stands. -/
def cutLast? (c : α) : List α → Option (List α × List α)
  | [] => none
  | u :: rest =>
    match cutLast? c rest with
    | some (before, after) => some (u :: before, after)
    | none => if u = c then some ([], rest) else none

theorem cutLast?_eq_none {c : α} {text : List α} (h : c ∉ text) : cutLast? c text = none := by
  induction text with
  | nil => rfl
  | cons u rest ih =>
    rw [List.mem_cons, not_or] at h
    rw [cutLast?, ih h.2]
    exact if_neg (Ne.symm h.1)

/-- A text is cut at its last separator. -/
theorem cutLast?_append {c : α} (before : List α) {after : List α} (h : c ∉ after) :
    cutLast? c (before ++ c :: after) = some (before, after) := by
  induction before with
  | nil =>
    rw [List.nil_append, cutLast?, cutLast?_eq_none h]
    exact if_pos rfl
  | cons u before ih => rw [List.cons_append, cutLast?, ih]

/-- Units that are not the separator are passed over. -/
theorem cut?_skip {c : α} {run : List α} (h : c ∉ run) (text : List α) :
    cut? [c, c] (run ++ text) = (cut? [c, c] text).map fun p => (run ++ p.1, p.2) := by
  induction run with
  | nil => rw [List.nil_append]; exact Option.map_id'.symm
  | cons u run ih =>
    rw [List.mem_cons, not_or] at h
    have hmark : ([c, c].isPrefixOf (u :: (run ++ text))) = false := by
      rw [List.isPrefixOf, beq_false_of_ne h.1, Bool.false_and]
    rw [List.cons_append, cut?, hmark, ih h.2, if_neg Bool.false_ne_true, Option.map_map]
    rfl

/-- One separator in front of something else is passed over. -/
theorem cut?_sep {c : α} {text : List α} (h : text.head? ≠ some c) :
    cut? [c, c] (c :: text) = (cut? [c, c] text).map fun p => (c :: p.1, p.2) := by
  have hmark : [c, c].isPrefixOf (c :: text) = false := by
    cases text with
    | nil => exact Bool.and_false _
    | cons u rest =>
      have hu : c ≠ u := fun heq => h (by rw [List.head?_cons, heq])
      rw [List.isPrefixOf, List.isPrefixOf, beq_false_of_ne hu, Bool.false_and, Bool.and_false]
  rw [cut?, hmark, if_neg Bool.false_ne_true]

/-- A text is cut at a mark in front. -/
theorem cut?_mark (c : α) (text : List α) : cut? [c, c] (c :: c :: text) = some ([], text) := by
  have hmark : [c, c].isPrefixOf (c :: c :: text) = true := by
    rw [List.isPrefixOf, List.isPrefixOf, List.isPrefixOf, BEq.rfl, Bool.and_true, Bool.and_true]
  rw [cut?, if_pos hmark]
  rfl

/-- A mark of two separators is not met inside a join of runs that are not empty. -/
theorem cut?_joined {c : α} {runs : List (List α)} (h : ∀ run ∈ runs, c ∉ run ∧ run ≠ [])
    (text : List α) : cut? [c, c] ([c].intercalate runs ++ text) =
      (cut? [c, c] text).map fun p => ([c].intercalate runs ++ p.1, p.2) := by
  cases runs with
  | nil =>
    rw [List.intercalate_nil, List.nil_append]
    exact Option.map_id'.symm
  | cons run runs =>
    induction runs generalizing run with
    | nil =>
      rw [List.intercalate_singleton]
      exact cut?_skip (h run List.mem_cons_self).1 text
    | cons next runs ih =>
      have hrun := h run List.mem_cons_self
      have hrest : ∀ r ∈ next :: runs, c ∉ r ∧ r ≠ [] := fun r hr =>
        h r (List.mem_cons_of_mem _ hr)
      have hjoin := ih next hrest
      have hhead : ([c].intercalate (next :: runs) ++ text).head? ≠ some c := by
        obtain ⟨u, rest, hnext⟩ := List.exists_cons_of_ne_nil (hrest next List.mem_cons_self).2
        rw [hnext, List.intercalate_cons_cons_left, List.cons_append, List.head?_cons]
        intro heq
        refine (hrest next List.mem_cons_self).1 ?_
        rw [hnext, ← Option.some.inj heq]
        exact List.mem_cons_self
      rw [List.intercalate_cons_cons, List.append_assoc, List.append_assoc, cut?_skip hrun.1,
        List.singleton_append, cut?_sep hhead, hjoin, Option.map_map, Option.map_map]
      refine Option.map_congr fun p _ => ?_
      simp only [Function.comp_apply, List.append_assoc, List.cons_append, List.nil_append]

end Cuts

end Foundations
