import AgencCoordination.Foundations.Tally
import AgencCoordination.Invariants.Election

/-!
# What the elections may do

Governance changes the configuration, and pays out of the treasury, through executed proposals
only: each does what its payload says, once, and a change of the configuration needs the multisig
as well.

* **`Mandated`** — an event in which a proposal is executed.
* **`GovernmentStep.mandate`** — a step of governance that has an effect is such an event.
* **`mandates_exact`** — for every run, with what the treasury has paid.
-/

namespace AgencCoordination

open Foundations

/-- An executed spend. -/
def ProposalAccount.spends (account : ProposalAccount) : Bool :=
  decide (account.proposalType = .TreasurySpend ∧
    account.election.proposal.status = .Executed)

/-- The amounts of the executed spends. -/
def spentBy (g : Government) : ℕ :=
  Ledger.tally (fun _ account => ProposalAccount.spends account)
    (fun account => account.payload.amount) true g.proposals

/-- What an event pays out of the treasury. -/
def treasuryPaid (e : GovernmentEntry) : ℕ :=
  (e.label.2.treasury.map TreasuryPayment.amount).getD 0

/-- A proposal is executed, by its votes and in its window, and its payload takes effect. -/
def Mandated (e : GovernmentEntry) : Prop :=
  ∃ key accounts account rules, e.label.1 = .proposal key (.executeProposal accounts) ∧
    endOf key e.before = none ∧ termsOf key e.before = some account.terms ∧
    e.after.proposals.lookup key = some account ∧ ElectionSound account rules ∧
    account.election.proposal.status = .Executed ∧
    account.election.proposal.executedAt = e.before.world.sys.now ∧
    Enacts account accounts e.before.world.config e.after.world.config e.label.2.treasury

/-! ## Steps -/

section Steps

variable {g g' : Government} {i : GovernanceInstruction} {payments : GovernancePayments}

/-- A proposal that is not an executed spend weighs nothing. -/
theorem spends_of_status {account : ProposalAccount}
    (h : account.election.proposal.status ≠ .Executed) : account.spends = false :=
  decide_eq_false fun hspends => h hspends.2

/-- The effect of a proposal reads its type and its payload only. -/
theorem Enacts.withProposal {account : ProposalAccount} {accounts : ExecutionAccounts}
    {config config' : ProtocolConfig} {payment : Option TreasuryPayment}
    (h : Enacts account accounts config config' payment) (proposal' : Proposal) :
    Enacts (account.withProposal proposal') accounts config config' payment := by
  cases h with
  | upgrade type => exact .upgrade type
  | fee type consent bound => exact .fee type consent bound
  | limits type consent checks => exact .limits type consent checks
  | spend type signed named recipient covered =>
    exact .spend type signed named recipient covered

/-- What a proposal pays when its payload takes effect. -/
theorem Enacts.paid {account : ProposalAccount} {accounts : ExecutionAccounts}
    {config config' : ProtocolConfig} {payment : Option TreasuryPayment}
    (h : Enacts account accounts config config' payment) :
    (payment.map TreasuryPayment.amount).getD 0 =
      if account.proposalType = .TreasurySpend then account.payload.amount else 0 := by
  cases h with
  | upgrade type => rw [type]; rfl
  | fee type => rw [type]; rfl
  | limits type => rw [type]; rfl
  | spend type => rw [type]; rfl

/-- An active proposal that is written anew adds what it spends to the spends. -/
theorem spentBy_write {account : ProposalAccount} {key : ProposalKey}
    (account' : ProposalAccount) (w' : World) (hbefore : g.proposals.lookup key = some account)
    (hactive : account.election.proposal.status = .Active) :
    spentBy { g with world := w', proposals := g.proposals.insert key account' } =
      spentBy g + if account'.spends = true then account'.payload.amount else 0 := by
  have hidle : account.spends = false := by
    refine spends_of_status ?_
    rw [hactive]
    decide
  have hwrite : spentBy { g with world := w', proposals := g.proposals.insert key account' } +
      (if account.spends = true then account.payload.amount else 0) =
        spentBy g + if account'.spends = true then account'.payload.amount else 0 :=
    Ledger.tally_overwrite hbefore account'
  rw [hidle, if_neg Bool.false_ne_true, Nat.add_zero] at hwrite
  exact hwrite

/-- The treasury pays what the spends add up to, step by step. -/
theorem GovernmentStep.spends (h : GovernmentStep g (i, payments) g') :
    spentBy g' = spentBy g + (payments.treasury.map TreasuryPayment.amount).getD 0 := by
  cases h.move with
  | core => rfl
  | initialized => rfl
  | @created key _ _ account _ opens =>
    have hidle : account.spends = false := by
      refine spends_of_status ?_
      rw [opens.status]
      decide
    have hinsert : spentBy { g with proposals := g.proposals.insert key account } =
        spentBy g + if account.spends = true then account.payload.amount else 0 :=
      Ledger.tally_insert opens.fresh account
    rw [hidle, if_neg Bool.false_ne_true] at hinsert
    exact hinsert
  | @voted key voterKey _ _ account voter _ election' voter' loaded agent signs casts =>
    have hwrite := spentBy_write { account with election := election' } { g.world with
      agents := g.world.agents.insert voterKey { voter with data := voter' } } loaded
      casts.undecided
    have hidle : ProposalAccount.spends { account with election := election' } = false := by
      refine spends_of_status ?_
      show election'.proposal.status ≠ _
      rw [casts.counted]
      show account.election.proposal.status ≠ _
      rw [casts.undecided]
      decide
    rw [hidle, if_neg Bool.false_ne_true] at hwrite
    exact hwrite
  | @cancelled key _ account account' loaded cancels =>
    have hwrite := spentBy_write account' g.world loaded cancels.undecided
    have hidle : account'.spends = false := by
      refine spends_of_status ?_
      rw [cancels.result]
      intro hexecuted
      cases hexecuted
    rw [hidle, if_neg Bool.false_ne_true] at hwrite
    exact hwrite
  | @decided key accounts account proposal' config' payment loaded decides enacts idle =>
    have hwrite := spentBy_write (account.withProposal proposal')
      { g.world with config := config' } loaded decides.undecided
    rw [hwrite]
    refine congrArg (spentBy g + ·) ?_
    by_cases hexecuted : proposal'.status = .Executed
    · rw [(enacts hexecuted).paid]
      refine if_congr ?_ rfl rfl
      exact ⟨fun h => (of_decide_eq_true h).1, fun h => decide_eq_true ⟨h, hexecuted⟩⟩
    · have hidle : (account.withProposal proposal').spends = false := spends_of_status hexecuted
      rw [hidle, if_neg Bool.false_ne_true, (idle hexecuted).2]
      rfl

/-- A step of governance that changes the configuration or pays is the execution of a
proposal. -/
theorem GovernmentStep.mandate (h : GovernmentStep g (i, payments) g') (hg : GovernmentSound g) :
    (∃ j, i = .core j ∧ g'.proposals = g.proposals ∧ g'.governance = g.governance) ∨
    (g'.world.config = g.world.config ∧ payments.treasury = none) ∨
    Mandated (entryOf g i payments g') := by
  have hsound : GovernmentSound g' := h.sound hg
  cases h.move with
  | core => exact .inl ⟨_, rfl, rfl, rfl⟩
  | initialized => exact .inr (.inl ⟨rfl, rfl⟩)
  | created opens => exact .inr (.inl ⟨rfl, rfl⟩)
  | voted loaded agent signs casts => exact .inr (.inl ⟨rfl, rfl⟩)
  | cancelled loaded cancels => exact .inr (.inl ⟨rfl, rfl⟩)
  | @decided key accounts account proposal' config' payment loaded decides enacts idle =>
    by_cases hexecuted : proposal'.status = .Executed
    · have hafter : (g.proposals.insert key (account.withProposal proposal')).lookup key =
          some (account.withProposal proposal') := AList.lookup_insert _
      obtain ⟨rules, hrules⟩ := hsound.elections key _ hafter
      refine .inr (.inr ⟨key, accounts, account.withProposal proposal', rules, rfl, ?_, ?_, hafter,
        hrules, hexecuted, ?_, (enacts hexecuted).withProposal proposal'⟩)
      · show endOf key g = none
        rw [endOf, loaded, Option.bind_some, if_pos decides.undecided]
      · have hmoves : ElectionMove g.world.sys.now (.executeProposal accounts) account
            (account.withProposal proposal') := .decided decides
        show termsOf key g = _
        rw [termsOf, loaded, Option.map_some, hmoves.terms.2]
      · rcases decides.outcome with ⟨rfl, -⟩ | rfl
        · rfl
        · cases hexecuted
    · exact .inr (.inl (idle hexecuted))

end Steps

/-- **Mandates.** In every run the world moves by instructions of the program only; the treasury
has paid what the executed spends add up to; and every event of governance that changes the
configuration or pays is the execution of a proposal that was active, was carried, and has the
effect its payload says. -/
theorem mandates_exact {start g : Government} {log : List GovernmentEntry}
    (hstart : start.Genesis) (hrun : Run GovernmentStep start log g) :
    Reachable g.world ∧
    Run.sumOver treasuryPaid log = spentBy g ∧
    ∀ e ∈ log, (∃ j, e.label.1 = .core j ∧ e.after.proposals = e.before.proposals ∧
        e.after.governance = e.before.governance) ∨
      (e.after.world.config = e.before.world.config ∧ e.label.2.treasury = none) ∨
      Mandated e := by
  refine ⟨?_, ?_, ?_⟩
  · refine hrun.invariant (I := fun g => Reachable g.world) ?_ ⟨_, [], hstart.world, .refl⟩
    rintro g ⟨i, payments⟩ g' hs hg
    obtain ⟨log, hworld, -⟩ := GovernmentStep.world hs
    exact hg.run hworld
  · have hgrows : spentBy g = spentBy start + Run.sumOver treasuryPaid log := by
      refine hrun.grows spentBy fun e he => ?_
      obtain ⟨_, _, _, _, hs, _⟩ := hrun.split_mem he
      exact GovernmentStep.spends hs
    have hnone : spentBy start = 0 := by
      unfold spentBy
      rw [hstart.proposals, Ledger.tally_empty]
    rw [hgrows, hnone, Nat.zero_add]
  · intro e he
    obtain ⟨hsound, hs⟩ := Run.invariant_mem (I := GovernmentSound)
      (fun _ _ _ hs hg => GovernmentStep.sound hs hg) hrun hstart.sound he
    exact GovernmentStep.mandate hs hsound

/-- A spend of 500 lamports to the wallet `77`. -/
def smallSpend : ProposalPayload :=
  Vector.ofFn fun i => (Bytes.littleEndian 32 77 ++ Bytes.littleEndian 32 500).getD i 0

/-- The spend is proposed, voted for and executed. -/
def spendScript : List GovernanceInstruction :=
  [.proposal (11, 1) (.createProposal 101 ⟨2, 7, 8, smallSpend, 0⟩),
    .proposal (11, 1) (.voteProposal 11 101 true),
    .proposal (11, 1) (.voteProposal 12 102 true),
    .proposal (11, 1) (.voteProposal 13 103 true),
    .core (.tick 346600),
    .proposal (11, 1) (.executeProposal ⟨[], some ⟨2, 1000, true⟩, some 77⟩)]

/-- The treasury has paid the spend. -/
theorem mandates_exact_spent :
    ∃ log, Run GovernmentStep deployedGovernment log
        (deployedGovernment.after (governmentScript ++ spendScript)) ∧
      Reachable (deployedGovernment.after (governmentScript ++ spendScript)).world ∧
      Run.sumOver treasuryPaid log = 500 := by
  obtain ⟨log, hrun⟩ := deployedGovernment.run_after (governmentScript ++ spendScript)
  obtain ⟨hreachable, hpaid, -⟩ := mandates_exact deployedGovernment_genesis hrun
  refine ⟨log, hrun, hreachable, ?_⟩
  rw [hpaid]
  decide +kernel

end AgencCoordination
