import AgencCoordination.Foundations.Run

/-!
# Versions

A record with a version number and terms. Whoever changes the terms takes a new version, so that a
reader who names the version it read is bound to the terms it read.

* **`Newer`** — what may come after a record: a later version, or the same version and terms.
* **`newer_of_run`** — a record that every step moves to newer ones is the same or newer after a run.
* **`Newer.terms_eq`** — under the version that was read stand the terms that were read.
-/

namespace Foundations

variable {Record Terms : Type} {version : Record → ℕ} {terms : Record → Terms} {a b c : Record}

/-- `b` may come after `a`: it is of a later version, or of the same with the same terms. -/
def Newer (version : Record → ℕ) (terms : Record → Terms) (a b : Record) : Prop :=
  version a < version b ∨ version a = version b ∧ terms a = terms b

theorem Newer.refl (a : Record) : Newer version terms a a := .inr ⟨rfl, rfl⟩

theorem Newer.trans (h : Newer version terms a b) (h' : Newer version terms b c) :
    Newer version terms a c := by
  unfold Newer at *
  rcases h with hlt | ⟨heq, hterms⟩
  · rcases h' with hlt' | ⟨heq', -⟩
    · left
      omega
    · left
      omega
  · rcases h' with hlt' | ⟨heq', hterms'⟩
    · left
      omega
    · right
      exact ⟨heq.trans heq', hterms.trans hterms'⟩

/-- Under the same version stand the same terms. -/
theorem Newer.terms_eq (h : Newer version terms a b) (hsame : version b = version a) :
    terms b = terms a := by
  rcases h with hlt | ⟨-, hterms⟩
  · omega
  · exact hterms.symm

/-- A record that steps keep or replace by newer ones is the same or newer after a run. -/
theorem newer_of_run {State Label : Type} {step : State → Label → State → Prop}
    (read : State → Option Record)
    (hstep : ∀ s label s', step s label s' → ∀ a, read s = some a →
      ∃ b, read s' = some b ∧ Newer version terms a b)
    {start final : State} {log : List (Event State Label)} (h : Run step start log final)
    (ha : read start = some a) : ∃ b, read final = some b ∧ Newer version terms a b := by
  refine h.invariant (I := fun s => ∃ b, read s = some b ∧ Newer version terms a b) ?_
    ⟨a, ha, .refl a⟩
  intro s label s' hs hbefore
  obtain ⟨b, hb, hnewer⟩ := hbefore
  obtain ⟨c, hc, hnewer'⟩ := hstep s label s' hs b hb
  exact ⟨c, hc, hnewer.trans hnewer'⟩

end Foundations
