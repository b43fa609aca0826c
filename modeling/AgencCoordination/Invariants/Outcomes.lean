import AgencCoordination.Invariants.Election
import AgencCoordination.Invariants.Retirement

/-!
# No proposal is stranded

The checks of an executed payload are those its proposal passed when it was created, and nothing
they read has changed since. So after its deadline a proposal can always be brought to its end.

* **`PayloadsSound`** — every proposal's payload still passes the checks of its creation.
* **`enactProposal_succeeds`** — such a payload takes effect when its accounts are given.
* **`proposals_terminate`** — every active proposal past its deadline, in every run.
-/

namespace AgencCoordination

open Foundations

/-! ## Payloads -/

/-- An instruction on an agent writes no more of the configuration than the number of agents. -/
theorem AgentOp.minAgentStake {w w' : World} {key : Pubkey} {op : AgentOp} {ts : List Transfer}
    (h : op.run w key = .ok (w', ts)) : w'.config.minAgentStake = w.config.minAgentStake := by
  obtain ⟨⟨agent', totalAgents, -, rfl⟩, -⟩ := AgentOp.run_spec h
  rfl

/-- The minimum stake of an agent is as it was initialized. -/
theorem Step.minAgentStake {w w' : World} {i : Instruction} {ts : List Transfer}
    (h : Step w (i, ts) w') : w'.config.minAgentStake = w.config.minAgentStake := by
  cases h.does with
  | ticked later => rfl
  | donatedAgent outside credits => rfl
  | donatedTask inside loaded credits => rfl
  | administered ran => exact (AdminOp.membership ran).2
  | agent ran => exact AgentOp.minAgentStake ran
  | created ran =>
    obtain ⟨-, _, _, _, _, -, rfl⟩ := CreateOp.run_spec ran
    rfl
  | task loaded ran => exact (TaskOp.run_frames ran).config.minAgentStake
  | work loaded found ran rent => exact (WorkOp.run_frames ran).config.minAgentStake
  | @cancelled key signer workers workerBondAuthority withParent acc base c agents' loaded listed
      ran =>
    have hconfig : base.config = w.config := by
      rcases listed with ⟨-, rfl⟩ | ⟨_, _, _, -, -, rfl⟩
      · rfl
      · rfl
    rw [World.storeTask_config, (cancelTask_frames ran).config.minAgentStake, hconfig]
  | closed loaded ran => exact (closeTask_frames ran).config.minAgentStake
  | disputed ran =>
    obtain ⟨_, _, _, _, -, -, -, -, -, -, -, -, -, -, -, rfl⟩ := initiateDispute_spec ran
    rfl
  | ruled loaded found filed about ran rent =>
    obtain ⟨hframes, -⟩ := DisputeOp.run_frames ran
    exact hframes.config.minAgentStake
  | finalized ran =>
    obtain ⟨_, agent, _, _, -, hagent, -, -, -, -, -, -, -, rfl⟩ := applyInitiatorSlash_spec ran
    rfl
  | repaired ran =>
    obtain ⟨_, agent, -, hagent, -, -, -, -, rfl⟩ := repairDisputeInitiatorCounter_spec ran
    rfl

theorem GovernmentStep.minAgentStake {g g' : Government} {i : GovernanceInstruction}
    {payments : GovernancePayments} (h : GovernmentStep g (i, payments) g') :
    g'.world.config.minAgentStake = g.world.config.minAgentStake := by
  obtain ⟨log, hrun, -⟩ := h.world
  refine hrun.invariant
    (I := fun w => w.config.minAgentStake = g.world.config.minAgentStake) ?_ rfl
  rintro w ⟨j, ts⟩ w' hs hw
  exact (Step.minAgentStake hs).trans hw

/-- Every payload passes the checks its proposal was created with, and the clock has started. -/
structure PayloadsSound (g : Government) : Prop where
  clock : 0 < g.world.sys.now
  created : ∀ key account, g.proposals.lookup key = some account → 0 < account.createdAt
  payloads : ∀ key account, g.proposals.lookup key = some account →
    validateProposalPayloadPadding account.proposalType account.payload = .ok () ∧
    validateProposalPayload account.proposalType account.payload
      g.world.config.minAgentStake = .ok ()

theorem Government.Genesis.payloads {g : Government} (h : g.Genesis) : PayloadsSound g := by
  have hempty : ∀ key account, g.proposals.lookup key ≠ some account := by
    intro key account haccount
    rw [h.proposals] at haccount
    simp at haccount
  exact ⟨h.world.clock, fun key account haccount => absurd haccount (hempty key account),
    fun key account haccount => absurd haccount (hempty key account)⟩

theorem GovernmentStep.payloads {g g' : Government}
    {label : GovernanceInstruction × GovernancePayments} (h : GovernmentStep g label g')
    (hg : PayloadsSound g) : PayloadsSound g' := by
  obtain ⟨i, payments⟩ := label
  refine ⟨Int.lt_of_lt_of_le hg.clock h.clock, ?_, ?_⟩
  · intro key account haccount
    cases h.seen key with
    | apart other same =>
      rw [same] at haccount
      exact hg.created key account haccount
    | created label opens after =>
      obtain rfl := Option.some.inj (after.symm.trans haccount)
      rw [opens.createdAt]
      exact hg.clock
    | @moved op account₀ account₁ label before moves after =>
      obtain rfl := Option.some.inj (after.symm.trans haccount)
      obtain ⟨-, -, hcreated, -⟩ := moves.keeps
      rw [hcreated]
      exact hg.created key account₀ before
  · intro key account haccount
    rw [h.minAgentStake]
    cases h.seen key with
    | apart other same =>
      rw [same] at haccount
      exact hg.payloads key account haccount
    | created label opens after =>
      obtain rfl := Option.some.inj (after.symm.trans haccount)
      exact ⟨opens.padding, opens.payload⟩
    | @moved op account₀ account₁ label before moves after =>
      obtain rfl := Option.some.inj (after.symm.trans haccount)
      obtain ⟨htype, hpayload, -⟩ := moves.keeps
      rw [htype, hpayload]
      exact hg.payloads key account₀ before

/-! ## Execution -/

/-- The accounts an execution needs for its payload: the multisig for a change of the
configuration, the treasury and the recipient for a spend. -/
structure Serves (accounts : ExecutionAccounts) (account : ProposalAccount)
    (config : ProtocolConfig) : Prop where
  consent : proposalRequiresProtocolMultisig account.proposalType = true →
    requireMultisigThreshold config accounts.signers = .ok ()
  spend : account.proposalType = .TreasurySpend → ∃ lamports,
    accounts.treasury = some ⟨config.treasury, lamports, true⟩ ∧
    accounts.recipient = some account.payload.recipientKey ∧ account.payload.amount ≤ lamports

/-- A payload that passed the checks of its creation takes effect. -/
theorem enactProposal_succeeds {account : ProposalAccount} {config : ProtocolConfig}
    {accounts : ExecutionAccounts}
    (hpayload : validateProposalPayload account.proposalType account.payload
      config.minAgentStake = .ok ()) (hserves : Serves accounts account config) :
    ∃ effect, enactProposal account config accounts = .ok effect := by
  obtain ⟨hconsent, hspend⟩ := hserves
  cases htype : account.proposalType with
  | ProtocolUpgrade =>
    exact ⟨(config, none), by
      simp [enactProposal, checkDualControl, proposalRequiresProtocolMultisig, htype]⟩
  | FeeChange =>
    rw [htype] at hpayload hconsent
    have hmultisig := hconsent rfl
    have hfee : checkFeeChange account.payload = .ok () := hpayload
    refine ⟨({ config with protocolFeeBps := account.payload.newFeeBps }, none), ?_⟩
    simp [enactProposal, checkDualControl, proposalRequiresProtocolMultisig, htype, hmultisig,
      executeFeeChange, hfee]
  | RateLimitChange =>
    rw [htype] at hpayload hconsent
    have hmultisig := hconsent rfl
    have hlimits : checkRateLimitChange account.payload config.minAgentStake = .ok () := hpayload
    exact ⟨_, by
      simp [enactProposal, checkDualControl, proposalRequiresProtocolMultisig, htype, hmultisig,
        executeRateLimitChange, hlimits]
      rfl⟩
  | TreasurySpend =>
    rw [htype] at hpayload
    obtain ⟨lamports, htreasury, hrecipient, hcovered⟩ := hspend htype
    have hvalid : account.payload.recipientKey ≠ 0 ∧ 0 < account.payload.amount :=
      require_eq_ok.mp hpayload
    refine ⟨(config, some ⟨config.treasury, account.payload.recipientKey,
      account.payload.amount⟩), ?_⟩
    simp [enactProposal, checkDualControl, proposalRequiresProtocolMultisig, htype,
      executeTreasurySpend, htreasury, hrecipient, hcovered, hvalid.1]

/-! ## Decisions -/

/-- Tallies that can be added have an outcome. -/
theorem outcomeMet_total {proposal : Proposal} {rules : ProposalGovernanceRules}
    (hvalid : rules.validate = .ok ())
    (hfits : proposal.votesFor + proposal.votesAgainst < u64Limit) :
    ∃ met, proposal.outcomeMet rules = .ok met := by
  have hthreshold := (validate_eq_ok.mp hvalid).2.2.2.2.2
  have hwide : ∀ k, k < u64Limit → ∀ bps, bps ≤ 10000 → k * bps < u128Limit := by
    intro k hk bps hbps
    have hle := Nat.mul_le_mul (Nat.le_of_lt hk) hbps
    exact Nat.lt_of_le_of_lt hle (by decide)
  have htotal : addU64 proposal.votesFor proposal.votesAgainst =
      .ok (proposal.votesFor + proposal.votesAgainst) := addU64_eq_ok.mpr ⟨hfits, rfl⟩
  have hlhs := mulU128_eq_ok.mpr ⟨hwide proposal.votesFor (by omega) 10000 (Nat.le_refl _), rfl⟩
  have hrhs := mulU128_eq_ok.mpr
    ⟨hwide _ hfits rules.approvalThresholdBps (Nat.le_of_lt hthreshold), rfl⟩
  unfold Proposal.outcomeMet
  rw [htotal]
  show ∃ met, outcomeRequirementsMet (proposal.votesFor + proposal.votesAgainst)
    proposal.votesFor proposal.quorum proposal.totalVoters rules.minDistinctVoters
    rules.approvalThresholdBps = .ok met
  unfold outcomeRequirementsMet
  split_ifs
  · exact ⟨false, rfl⟩
  · rw [hlhs, hrhs]
    exact ⟨_, rfl⟩

/-- How a proposal ends when it is decided at `now`. -/
def verdict (now : ℤ) (proposal : Proposal) (rules : ProposalGovernanceRules) : ProposalStatus :=
  if proposal.outcomeMet rules = .ok true ∧
    now ≤ proposal.executionAfter + proposalExecutionWindow then .Executed else .Defeated

/-- An active proposal past its deadline is decided, or it has won and waits for its delay. -/
theorem executeProposal_decides {config : ProtocolConfig} {now : ℤ} {proposal : Proposal}
    {rules : ProposalGovernanceRules} (hversion : checkVersionCompatible config = .ok ())
    (hactive : proposal.status = .Active) (hended : proposal.votingDeadline ≤ now)
    (hrules : proposal.reserved.governanceRules = .ok rules) (hvalid : rules.validate = .ok ())
    (hfits : proposal.votesFor + proposal.votesAgainst < u64Limit)
    (hwindow : i64Min ≤ proposal.executionAfter + proposalExecutionWindow ∧
      proposal.executionAfter + proposalExecutionWindow ≤ i64Max) :
    (proposal.outcomeMet rules = .ok true ∧ now < proposal.executionAfter) ∨
    ∃ decided, executeProposal config now (.ok ()) proposal = .ok decided ∧
      decided.status = verdict now proposal rules := by
  obtain ⟨met, hmet⟩ := outcomeMet_total hvalid hfits
  have hdeadline : addI64 proposal.executionAfter proposalExecutionWindow =
      .ok (proposal.executionAfter + proposalExecutionWindow) := addI64_eq_ok.mpr ⟨hwindow, rfl⟩
  cases met with
  | false =>
    refine .inr ⟨{ proposal with status := .Defeated, executedAt := now }, ?_, ?_⟩
    · simp only [executeProposal, hversion, hactive, require, if_true, if_pos hended, hrules, hmet,
        bind, Except.bind]
    · rw [verdict, hmet, if_neg]
      rintro ⟨h, -⟩
      cases h
  | true =>
    by_cases hwaits : now < proposal.executionAfter
    · exact .inl ⟨hmet, hwaits⟩
    · rw [Int.not_lt] at hwaits
      refine .inr ?_
      by_cases hlate : proposal.executionAfter + proposalExecutionWindow < now
      · refine ⟨{ proposal with status := .Defeated, executedAt := now }, ?_, ?_⟩
        · simp only [executeProposal, hversion, hactive, require, if_true, if_pos hended, hrules,
            hmet, Bool.true_eq_false, if_false, if_pos hwaits, hdeadline, if_pos hlate, bind,
            Except.bind]
        · rw [verdict, if_neg]
          rintro ⟨-, h⟩
          omega
      · refine ⟨{ proposal with status := .Executed, executedAt := now }, ?_, ?_⟩
        · simp only [executeProposal, hversion, hactive, require, if_true, if_pos hended, hrules,
            hmet, Bool.true_eq_false, if_false, if_pos hwaits, hdeadline, if_neg hlate, bind,
            Except.bind]
        · rw [verdict, if_pos ⟨hmet, by omega⟩]

/-- **No proposal is stranded.** In every run, an active proposal past its deadline can be brought
to its end by whoever gives the accounts its payload needs: it is executed when it has won and its
window is open, and defeated when it has not won or its window is over. It waits only when it has
won and its delay is not over. -/
theorem proposals_terminate {start g : Government} {log : List GovernmentEntry}
    (hstart : start.Genesis) (hrun : Run GovernmentStep start log g) :
    ∀ key account accounts, g.proposals.lookup key = some account →
      account.election.proposal.status = .Active →
      account.election.proposal.votingDeadline ≤ g.world.sys.now →
      checkVersionCompatible g.world.config = .ok () →
      account.election.proposal.votesFor + account.election.proposal.votesAgainst < u64Limit →
      account.election.proposal.executionAfter + proposalExecutionWindow ≤ i64Max →
      Serves accounts account g.world.config →
      ∃ rules, account.election.proposal.reserved.governanceRules = .ok rules ∧
        ((account.election.proposal.outcomeMet rules = .ok true ∧
            g.world.sys.now < account.election.proposal.executionAfter) ∨
          ∃ g' payments,
            GovernmentStep g (.proposal key (.executeProposal accounts), payments) g' ∧
            endOf key g' = some (verdict g.world.sys.now account.election.proposal rules)) := by
  have hpayloads : PayloadsSound g :=
    hrun.invariant (fun _ _ _ hs hg => GovernmentStep.payloads hs hg) hstart.payloads
  have hsound : GovernmentSound g :=
    hrun.invariant (fun _ _ _ hs hg => GovernmentStep.sound hs hg) hstart.sound
  intro key account accounts haccount hactive hended hversion hfits hlast hserves
  obtain ⟨rules, hrules⟩ := hsound.elections key account haccount
  have hcreated := hpayloads.created key account haccount
  have hopened := hrules.opened
  have hdelayed := hrules.delayed
  have hpositive : i64Min ≤ account.election.proposal.executionAfter + proposalExecutionWindow := by
    have hmin : i64Min ≤ 0 := by decide
    have hwindow : (0 : ℤ) ≤ proposalExecutionWindow := by decide
    omega
  refine ⟨rules, hrules.snapshot, ?_⟩
  rcases executeProposal_decides hversion hactive hended hrules.snapshot hrules.validates hfits
    ⟨hpositive, hlast⟩ with hwaits | ⟨decided, hdecided, hstatus⟩
  · exact .inl hwaits
  · refine .inr ?_
    obtain ⟨effect, heffect⟩ : ∃ effect,
        enactDecision account decided g.world.config accounts = .ok effect := by
      unfold enactDecision
      split
      · obtain ⟨-, hpayload⟩ := hpayloads.payloads key account haccount
        exact enactProposal_succeeds hpayload hserves
      · exact ⟨_, rfl⟩
    refine ⟨{ g with
        world := { g.world with config := effect.1 }
        proposals := g.proposals.insert key (account.withProposal decided) },
      { treasury := effect.2 }, ?_, ?_⟩
    · show executeGovernment g _ = _
      simp only [executeGovernment, ProposalOp.run, haccount, demand, fromProgram, hdecided,
        Except.mapError, heffect, bind, Except.bind]
    · rw [endOf]
      show ((g.proposals.insert key (account.withProposal decided)).lookup key).bind _ = _
      rw [AList.lookup_insert, Option.bind_some, if_neg]
      · exact congrArg some hstatus
      · show decided.status ≠ _
        rw [hstatus, verdict]
        split_ifs
        · decide
        · decide

/-- The government after the votes on the fee, when its delay is over. -/
def votedGovernment : Government :=
  deployedGovernment.after (governmentScript ++ electionScript.take 4)

/-- What the decision on the fee reads. -/
def feeReady (account : ProposalAccount) : Bool :=
  decide (account.proposalType = .FeeChange ∧ account.election.proposal.status = .Active ∧
    account.election.proposal.votingDeadline ≤ votedGovernment.world.sys.now ∧
    account.election.proposal.votesFor + account.election.proposal.votesAgainst < u64Limit ∧
    account.election.proposal.executionAfter + proposalExecutionWindow ≤ i64Max ∧
    account.election.proposal.executionAfter ≤ votedGovernment.world.sys.now)

/-- The fee that was voted for is executed with two owners of the multisig. -/
theorem proposals_terminate_fee :
    ∃ g' payments rules, ∃ account : ProposalAccount,
      GovernmentStep votedGovernment
        (.proposal (11, 0) (.executeProposal ⟨[1, 3], none, none⟩), payments) g' ∧
      endOf (11, 0) g' =
        some (verdict votedGovernment.world.sys.now account.election.proposal rules) := by
  obtain ⟨log, hrun⟩ : ∃ log, Run GovernmentStep deployedGovernment log votedGovernment :=
    deployedGovernment.run_after (governmentScript ++ electionScript.take 4)
  have hready : (votedGovernment.proposals.lookup (11, 0)).map feeReady = some true := by
    decide +kernel
  have hversion : checkVersionCompatible votedGovernment.world.config = .ok () := by
    rw [checkVersionCompatible, checkVersionRange]
    simp only [bind_eq_ok, require_eq_ok, exists_const]
    decide +kernel
  have hmultisig : requireMultisigThreshold votedGovernment.world.config [1, 3] = .ok () := by
    simp only [requireMultisigThreshold, bind_eq_ok, require_eq_ok, exists_const]
    decide +kernel
  obtain ⟨account, haccount, hfee⟩ := Option.map_eq_some_iff.mp hready
  simp only [feeReady, decide_eq_true_eq] at hfee
  obtain ⟨htype, hactive, hended, hfits, hlast, hunlocked⟩ := hfee
  have hserves : Serves ⟨[1, 3], none, none⟩ account votedGovernment.world.config := by
    refine ⟨fun _ => hmultisig, fun hspend => ?_⟩
    rw [htype] at hspend
    cases hspend
  obtain ⟨rules, -, ⟨-, hwaits⟩ | ⟨g', payments, hstep, hend⟩⟩ :=
    proposals_terminate deployedGovernment_genesis hrun (11, 0) account ⟨[1, 3], none, none⟩
      haccount hactive hended hversion hfits hlast hserves
  · exact absurd hwaits (Int.not_lt.mpr hunlocked)
  · exact ⟨g', payments, rules, account, hstep, hend⟩

end AgencCoordination
