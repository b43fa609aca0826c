import Mathlib.Data.List.Basic
import Mathlib.Tactic.Common

/-!
# Logs of nested calls

Programs call each other, and a log tells of every call, every return and everything emitted in
between. A reader who has the log can follow the stack of calls, and one who has only some of its
lines can still guess at it.

* **`Nested`** — the logs a run of nested calls can leave.
* **`CallStack.follow`** — the stack a reader of some lines believes in.
* **`Nested.follow`, `Nested.attributed`** — the reader of a whole log is right: it ends where it
  started, and gives every emission to the program that was running.
-/

namespace Foundations

/-- What a line of a log tells: a program was called to a depth, a program returned, something was
emitted, or nothing of the kind. -/
inductive CallMark (K P : Type) where
  | enter (program : K) (depth : ℕ)
  | leave (program : K)
  | emit (payload : P)
  | quiet
  deriving DecidableEq

/-- A line of a log, with the program that was running when it was written. -/
structure CallLine (K P : Type) where
  mark : CallMark K P
  running : Option K
  deriving DecidableEq

/-- The logs of nested calls, under a program running at a depth. -/
inductive Nested {K P : Type} : Option K → ℕ → List (CallLine K P) → Prop
  | nil {running : Option K} {depth : ℕ} : Nested running depth []
  | quiet {running : Option K} {depth : ℕ} {l : List (CallLine K P)}
      (rest : Nested running depth l) : Nested running depth (⟨.quiet, running⟩ :: l)
  | emit {program : K} {depth : ℕ} {payload : P} {l : List (CallLine K P)}
      (rest : Nested (some program) depth l) :
      Nested (some program) depth (⟨.emit payload, some program⟩ :: l)
  | call {running : Option K} {program : K} {depth : ℕ} {inner l : List (CallLine K P)}
      (body : Nested (some program) (depth + 1) inner) (rest : Nested running depth l) :
      Nested running depth (⟨.enter program (depth + 1), running⟩ ::
        (inner ++ ⟨.leave program, some program⟩ :: l))

namespace CallStack

variable {K P : Type}

/-- A call to a depth has that many callers less one; those nobody heard of are unknown. -/
def enter (stack : List (Option K)) (program : K) (depth : ℕ) : List (Option K) :=
  some program :: (List.replicate (depth - 1 - stack.length) none ++
    stack.drop (stack.length - (depth - 1)))

theorem length_enter (stack : List (Option K)) (program : K) {depth : ℕ} (hdepth : 1 ≤ depth) :
    (enter stack program depth).length = depth := by
  rw [enter, List.length_cons, List.length_append, List.length_replicate, List.length_drop]
  omega

/-- A call from the depth the reader is at. -/
theorem enter_next (stack : List (Option K)) (program : K) :
    enter stack program (stack.length + 1) = some program :: stack := by
  rw [enter, Nat.add_sub_cancel, Nat.sub_self, List.replicate_zero, List.nil_append, List.drop_zero]

variable [DecidableEq K]

/-- A return closes the innermost open call of the program, and everything it called. -/
def leave (stack : List (Option K)) (program : K) : List (Option K) :=
  if some program ∈ stack then (stack.dropWhile fun frame => decide (frame ≠ some program)).tail
  else stack

/-- A return of the innermost program. -/
theorem leave_cons (stack : List (Option K)) (program : K) :
    leave (some program :: stack) program = stack := by
  rw [leave, if_pos List.mem_cons_self, List.dropWhile_cons_of_neg (by simp), List.tail_cons]

/-- One line, as its reader takes it. -/
def advance (stack : List (Option K)) : CallMark K P → List (Option K)
  | .enter program depth => enter stack program depth
  | .leave program => leave stack program
  | .emit _ => stack
  | .quiet => stack

/-- The calls a reader of the lines believes open, the innermost first. -/
def follow (stack : List (Option K)) (marks : List (CallMark K P)) : List (Option K) :=
  marks.foldl advance stack

@[simp] theorem follow_nil (stack : List (Option K)) :
    follow stack ([] : List (CallMark K P)) = stack := rfl

@[simp] theorem follow_cons (stack : List (Option K)) (m : CallMark K P)
    (marks : List (CallMark K P)) : follow stack (m :: marks) = follow (advance stack m) marks :=
  rfl

theorem follow_append (stack : List (Option K)) (marks marks' : List (CallMark K P)) :
    follow stack (marks ++ marks') = follow (follow stack marks) marks' :=
  List.foldl_append

/-- The program a reader believes running. -/
def innermost (stack : List (Option K)) : Option K := stack.head?.join

/-- Whether a line is an emission. -/
def isEmission : CallMark K P → Bool
  | .emit _ => true
  | _ => false

/-- The emissions a reader gives to the program. -/
def attributed (program : K) : List (Option K) → List (CallLine K P) → List (CallLine K P)
  | _, [] => []
  | stack, x :: l =>
      if isEmission x.mark = true ∧ innermost stack = some program then
        x :: attributed program (advance stack x.mark) l
      else attributed program (advance stack x.mark) l

theorem attributed_append (program : K) (stack : List (Option K)) (l l' : List (CallLine K P)) :
    attributed program stack (l ++ l') = attributed program stack l ++
      attributed program (follow stack (l.map CallLine.mark)) l' := by
  induction l generalizing stack with
  | nil => rfl
  | cons x l ih =>
    rw [List.cons_append, attributed, attributed, ih, List.map_cons, follow_cons]
    split_ifs
    · rw [List.cons_append]
    · rfl

/-- Attribution picks lines of the log. -/
theorem attributed_sublist (program : K) (stack : List (Option K)) (l : List (CallLine K P)) :
    (attributed program stack l).Sublist l := by
  induction l generalizing stack with
  | nil => exact List.Sublist.refl _
  | cons x l ih =>
    rw [attributed]
    split_ifs
    · exact (ih _).cons_cons x
    · exact (ih _).cons x

/-- What is attributed is an emission that the reader met with the program innermost. -/
theorem mem_attributed {program : K} {stack : List (Option K)} {l : List (CallLine K P)}
    {x : CallLine K P} : x ∈ attributed program stack l ↔ ∃ before after, l = before ++ x :: after ∧
      isEmission x.mark = true ∧
        innermost (follow stack (before.map CallLine.mark)) = some program := by
  induction l generalizing stack with
  | nil => simp [attributed]
  | cons y l ih =>
    rw [attributed]
    constructor
    · intro hx
      have hrest (hx : x ∈ attributed program (advance stack y.mark) l) : ∃ before after,
          y :: l = before ++ x :: after ∧ isEmission x.mark = true ∧
            innermost (follow stack (before.map CallLine.mark)) = some program := by
        obtain ⟨before, after, rfl, hemits, htop⟩ := ih.mp hx
        exact ⟨y :: before, after, rfl, hemits, htop⟩
      split_ifs at hx with hy
      · rcases List.mem_cons.mp hx with rfl | hx
        · exact ⟨[], l, rfl, hy.1, hy.2⟩
        · exact hrest hx
      · exact hrest hx
    · rintro ⟨before, after, heq, hemits, htop⟩
      cases before with
      | nil =>
        obtain ⟨rfl, rfl⟩ := List.cons.inj heq
        rw [if_pos ⟨hemits, htop⟩]
        exact List.mem_cons_self
      | cons z before =>
        obtain ⟨rfl, rfl⟩ := List.cons.inj heq
        have hx : x ∈ attributed program (advance stack y.mark) (before ++ x :: after) :=
          ih.mpr ⟨before, after, rfl, hemits, htop⟩
        split_ifs
        · exact List.mem_cons_of_mem _ hx
        · exact hx

end CallStack

open CallStack

section Reader

variable {K P : Type} [DecidableEq K] {running : Option K} {depth : ℕ} {l : List (CallLine K P)}

/-- The reader of a whole log ends where it started. -/
theorem Nested.follow (h : Nested running depth l) {stack : List (Option K)}
    (hdepth : stack.length = depth) :
    CallStack.follow stack (l.map CallLine.mark) = stack := by
  induction h generalizing stack with
  | nil => rfl
  | quiet rest ih => exact ih hdepth
  | emit rest ih => exact ih hdepth
  | call body rest ihbody ihrest =>
    subst hdepth
    rw [List.map_cons, List.map_append, List.map_cons, follow_cons, advance, enter_next,
      follow_append, ihbody rfl, follow_cons, advance, leave_cons, ihrest rfl]

/-- The reader of a whole log gives every emission to the program that was running. -/
theorem Nested.attributed (h : Nested running depth l) (program : K) {stack : List (Option K)}
    (hdepth : stack.length = depth) (hrunning : innermost stack = running) :
    CallStack.attributed program stack l =
      l.filter fun x => isEmission x.mark && decide (x.running = some program) := by
  induction h generalizing stack with
  | nil => rfl
  | quiet rest ih =>
    rw [CallStack.attributed, if_neg (by simp [isEmission]), List.filter_cons_of_neg
      (by simp [isEmission])]
    exact ih hdepth hrunning
  | @emit current depth payload l rest ih =>
    rw [CallStack.attributed, hrunning]
    by_cases hsame : some current = some program
    · rw [if_pos ⟨rfl, hsame⟩, List.filter_cons_of_pos (by simpa [isEmission] using hsame)]
      exact congrArg (List.cons _) (ih hdepth hrunning)
    · rw [if_neg fun hboth => hsame hboth.2, List.filter_cons_of_neg
        (by simpa [isEmission] using hsame)]
      exact ih hdepth hrunning
  | @call running callee depth inner l body rest ihbody ihrest =>
    subst hdepth
    have hinner := @ihbody (some callee :: stack) rfl rfl
    have hclosed : CallStack.follow (some callee :: stack) (inner.map CallLine.mark) =
        some callee :: stack := body.follow rfl
    rw [CallStack.attributed, if_neg (by simp [isEmission]), advance, enter_next, attributed_append,
      hinner, hclosed, CallStack.attributed, if_neg (by simp [isEmission]), advance, leave_cons,
      ihrest rfl hrunning, List.filter_cons_of_neg (by simp [isEmission]), List.filter_append,
      List.filter_cons_of_neg (by simp [isEmission])]

end Reader

/-- No call of a log is deeper than the log is long. -/
theorem Nested.depth_le {K P : Type} {running : Option K} {depth : ℕ} {l : List (CallLine K P)}
    (h : Nested running depth l) {x : CallLine K P} (hx : x ∈ l) {program : K} {n : ℕ}
    (hmark : x.mark = .enter program n) : 1 ≤ n ∧ n ≤ depth + l.length := by
  induction h with
  | nil => cases hx
  | quiet rest ih =>
    rcases List.mem_cons.mp hx with rfl | hx
    · cases hmark
    · have hle := ih hx
      rw [List.length_cons]
      omega
  | emit rest ih =>
    rcases List.mem_cons.mp hx with rfl | hx
    · cases hmark
    · have hle := ih hx
      rw [List.length_cons]
      omega
  | call body rest ihbody ihrest =>
    rw [List.length_cons, List.length_append, List.length_cons]
    rcases List.mem_cons.mp hx with rfl | hx
    · cases hmark
      omega
    · rcases List.mem_append.mp hx with hx | hx
      · have hle := ihbody hx
        omega
      · rcases List.mem_cons.mp hx with rfl | hx
        · cases hmark
        · have hle := ihrest hx
          omega

end Foundations
