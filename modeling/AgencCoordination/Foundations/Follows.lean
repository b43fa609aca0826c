import AgencCoordination.Foundations.Guard

/-!
# One computation following another

Two guarded computations run side by side, on inputs that are alike in all that matters. This
module has the relation that says the second cannot fail where the first succeeds, and one rule
for each way such computations are put together:

* **`Follows R x y`** — whenever `x` returns, `y` returns too, and the results are related by `R`.
* **`Follows.bind`, `Follows.same`** — two steps that follow each other, or the same step on both
  sides, may be passed; what is left to show is about the rest.
* **`Follows.weaken`** — a guard may be replaced by one that it implies.
-/

namespace Foundations

variable {ε α β γ δ : Type}

/-- Whenever `x` returns, `y` returns, and their results are related. -/
def Follows (R : α → β → Prop) (x : Except ε α) (y : Except ε β) : Prop :=
  ∀ a, x = .ok a → ∃ b, y = .ok b ∧ R a b

theorem Follows.ok {R : α → β → Prop} {a : α} {b : β} (h : R a b) :
    Follows R (.ok a : Except ε α) (.ok b) := by
  intro _ ha
  cases ha
  exact ⟨b, rfl, h⟩

theorem Follows.pure {R : α → β → Prop} {a : α} {b : β} (h : R a b) :
    Follows R (pure a : Except ε α) (pure b) := .ok h

theorem Follows.error {R : α → β → Prop} {e : ε} {y : Except ε β} :
    Follows R (.error e) y := nofun

/-- What follows after two related results may be compared on its own. -/
theorem Follows.bind {R : α → β → Prop} {S : γ → δ → Prop} {x : Except ε α} {y : Except ε β}
    {f : α → Except ε γ} {g : β → Except ε δ} (hx : Follows R x y)
    (hf : ∀ a b, R a b → Follows S (f a) (g b)) : Follows S (x >>= f) (y >>= g) := by
  intro c hc
  obtain ⟨a, ha, hc⟩ := bind_eq_ok.mp hc
  obtain ⟨b, hb, hab⟩ := hx a ha
  obtain ⟨d, hd, hcd⟩ := hf a b hab c hc
  exact ⟨d, bind_eq_ok.mpr ⟨b, hb, hd⟩, hcd⟩

/-- A step that both sides make alike. -/
theorem Follows.same {S : γ → δ → Prop} {x : Except ε α} {f : α → Except ε γ}
    {g : α → Except ε δ} (hf : ∀ a, x = .ok a → Follows S (f a) (g a)) :
    Follows S (x >>= f) (x >>= g) := by
  intro c hc
  obtain ⟨a, ha, hc⟩ := bind_eq_ok.mp hc
  obtain ⟨d, hd, hcd⟩ := hf a ha c hc
  exact ⟨d, bind_eq_ok.mpr ⟨a, ha, hd⟩, hcd⟩

/-- A guard on the left implies the one on the right. -/
theorem Follows.weaken {p q : Prop} [Decidable p] [Decidable q] {e e' : ε} (h : p → q) :
    Follows (fun _ _ => p) (require p e) (require q e') := by
  intro _ hp
  have hp := require_eq_ok.mp hp
  exact ⟨(), require_eq_ok.mpr (h hp), hp⟩

/-- Both sides branch alike. -/
theorem Follows.ite {R : α → β → Prop} {p : Prop} [Decidable p] {x x' : Except ε α}
    {y y' : Except ε β} (hpos : p → Follows R x y) (hneg : ¬p → Follows R x' y') :
    Follows R (if p then x else x') (if p then y else y') := by
  by_cases hp : p
  · rw [if_pos hp, if_pos hp]
    exact hpos hp
  · rw [if_neg hp, if_neg hp]
    exact hneg hp

end Foundations
