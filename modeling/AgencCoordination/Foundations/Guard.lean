import Mathlib.Algebra.Group.Int.Defs
import Mathlib.Algebra.Group.Nat.Defs
import Mathlib.Algebra.GroupWithZero.Nat
import Mathlib.Data.Nat.Notation
import Mathlib.Tactic.Common

/-!
# Guarded computations

A handler of a ledger program is a straight line of guards and checked arithmetic that either
returns its result or stops with an error. This module has the three guards such a handler uses
and, for each, the equation that reads a successful run backwards:

* **`require`** — `require p e` succeeds exactly when `p` holds (`require_eq_ok`).
* **`demand`** — `demand o e` succeeds exactly with the content of `o` (`demand_eq_ok`).
* **`checkedAdd`, `checkedSub`** — the sum below a limit, the difference that does not
  underflow (`checkedAdd_eq_ok`, `checkedSub_eq_ok`).

Together with `bind_eq_ok` they are the simp set that turns `handler x = .ok y` into the
conjunction of its guards and the value of `y`. The lemmas on `.error` turn a refusal into the
disjunction of the guards that may have caused it.
-/

namespace Foundations

variable {ε α β : Type}

/-- Stop with `e` unless `p` holds. -/
def require (p : Prop) [Decidable p] (e : ε) : Except ε Unit :=
  if p then .ok () else .error e

/-- The content of `o`, or the error `e`. -/
def demand (o : Option α) (e : ε) : Except ε α :=
  match o with
  | some a => .ok a
  | none => .error e

/-- The sum of `a` and `b`, or `e` when it does not stay below `limit`. -/
def checkedAdd (limit a b : ℕ) (e : ε) : Except ε ℕ :=
  if a + b < limit then .ok (a + b) else .error e

/-- The difference of `a` and `b`, or `e` when it would be negative. -/
def checkedSub (a b : ℕ) (e : ε) : Except ε ℕ :=
  if b ≤ a then .ok (a - b) else .error e

/-! ## Reading a successful run backwards -/

@[simp] theorem bind_eq_ok {x : Except ε α} {f : α → Except ε β} {b : β} :
    (x >>= f) = .ok b ↔ ∃ a, x = .ok a ∧ f a = .ok b := by
  cases x <;> simp [bind, Except.bind]

@[simp] theorem pure_eq_ok {a b : α} : (pure a : Except ε α) = .ok b ↔ a = b := by
  simp [pure, Except.pure]

@[simp] theorem require_eq_ok {p : Prop} [Decidable p] {e : ε} {u : Unit} :
    require p e = .ok u ↔ p := by
  unfold require
  split
  · rename_i h
    simp [h]
  · rename_i h
    simp [h]

/-- A guard at the head of a computation is a conjunct of its success. -/
@[simp] theorem require_bind_eq_ok {p : Prop} [Decidable p] {e : ε} {f : Unit → Except ε β}
    {b : β} : (require p e >>= f) = .ok b ↔ p ∧ f () = .ok b := by
  rw [bind_eq_ok]
  constructor
  · rintro ⟨⟨⟩, hp, hf⟩
    exact ⟨require_eq_ok.mp hp, hf⟩
  · rintro ⟨hp, hf⟩
    exact ⟨(), require_eq_ok.mpr hp, hf⟩

@[simp] theorem demand_eq_ok {o : Option α} {e : ε} {a : α} :
    demand o e = .ok a ↔ o = some a := by
  cases o <;> simp [demand]

/-- Naming the error anew changes no success. -/
theorem mapError_eq_ok {ε' : Type} {x : Except ε α} {f : ε → ε'} {a : α} :
    x.mapError f = .ok a ↔ x = .ok a := by
  cases x <;> simp [Except.mapError]

@[simp] theorem checkedAdd_eq_ok {limit a b : ℕ} {e : ε} {r : ℕ} :
    checkedAdd limit a b e = .ok r ↔ a + b < limit ∧ r = a + b := by
  unfold checkedAdd
  split
  · rename_i h
    simp [h, eq_comm]
  · rename_i h
    simp [h]

@[simp] theorem checkedSub_eq_ok {a b : ℕ} {e : ε} {r : ℕ} :
    checkedSub a b e = .ok r ↔ b ≤ a ∧ r = a - b := by
  unfold checkedSub
  split
  · rename_i h
    simp [h, eq_comm]
  · rename_i h
    simp [h]

/-! ## Reading a refusal backwards -/

theorem bind_eq_error {x : Except ε α} {f : α → Except ε β} {e : ε} :
    (x >>= f) = .error e ↔ x = .error e ∨ ∃ a, x = .ok a ∧ f a = .error e := by
  cases x <;> simp [bind, Except.bind]

theorem require_eq_error {p : Prop} [Decidable p] {e e' : ε} :
    require p e = .error e' ↔ ¬p ∧ e = e' := by
  unfold require
  split
  · rename_i h
    simp [h]
  · rename_i h
    simp [h]

/-- A guard at the head of a computation refuses, or what follows it does. -/
theorem require_bind_eq_error {p : Prop} [Decidable p] {e e' : ε} {f : Unit → Except ε β} :
    (require p e >>= f) = .error e' ↔ ¬p ∧ e = e' ∨ p ∧ f () = .error e' := by
  rw [bind_eq_error, require_eq_error]
  constructor
  · rintro (h | ⟨⟨⟩, hp, hf⟩)
    · exact .inl h
    · exact .inr ⟨require_eq_ok.mp hp, hf⟩
  · rintro (h | ⟨hp, hf⟩)
    · exact .inl h
    · exact .inr ⟨(), require_eq_ok.mpr hp, hf⟩

theorem checkedAdd_eq_error {limit a b : ℕ} {e e' : ε} :
    checkedAdd limit a b e = .error e' ↔ limit ≤ a + b ∧ e = e' := by
  unfold checkedAdd
  split
  · rename_i h
    simp [Nat.not_le.mpr h]
  · rename_i h
    simp [Nat.not_lt.mp h]

end Foundations
