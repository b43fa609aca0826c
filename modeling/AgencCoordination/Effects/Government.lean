import AgencCoordination.Effects.Steps
import AgencCoordination.Program.Government

/-!
# Steps of the government

`executeGovernment` read backwards.

* **`GovernmentStep`** — the transition system of the government.
* **`Opens`, `Casts`, `Cancels`, `Decides`** — what the instructions on a proposal do.
* **`GovernmentStep.move`** — a step is one of the world, opens the government, or does one of these.
* **`GovernmentStep.world`** — the world of a government moves by instructions of the program only.
-/

namespace AgencCoordination

open Foundations

/-! ## The transition system -/

/-- One successful instruction of the government and its payments. -/
def GovernmentStep (g : Government) (label : GovernanceInstruction × GovernancePayments)
    (g' : Government) : Prop :=
  executeGovernment g label.1 = .ok (g', label.2)

/-- An entry of the government's log. -/
abbrev GovernmentEntry := Event Government (GovernanceInstruction × GovernancePayments)

/-- The government after a script of instructions, or the initial one when the script fails. -/
def Government.after (g : Government) (script : List GovernanceInstruction) : Government :=
  ((Run.play executeGovernment g script).toOption).getD g

theorem Government.run_after (g : Government) (script : List GovernanceInstruction) :
    ∃ log, Run GovernmentStep g log (g.after script) := by
  unfold Government.after
  cases hplay : Run.play executeGovernment g script with
  | error e => exact ⟨[], .refl⟩
  | ok g' => exact Run.of_play hplay

/-! ## Handlers -/

/-- A proposal opens under the requirements of its day, without votes. -/
structure Opens (g : Government) (key : ProposalKey) (signer : Pubkey) (params : ProposalParams)
    (account : ProposalAccount) (governance' : GovernanceConfig) : Prop where
  fresh : g.proposals.lookup key = none
  proposer : ∃ agent, g.world.agents.lookup key.1 = some agent ∧ agent.data.authority = signer ∧
    agent.data.status = .Active
  requirements : ∃ governance rules, g.governance = some governance ∧
    calculateNewProposalRequirements governance.minProposalStake g.minArbiterStake
      governance.quorumBps governance.approvalThresholdBps =
        .ok (account.election.proposal.quorum, rules) ∧
    RulesRegion.setGovernanceRules rules = .ok account.election.proposal.reserved ∧
    account.election.proposal.votingDeadline =
      g.world.sys.now + effectiveVotingPeriod params.votingPeriod governance.votingPeriod ∧
    account.election.proposal.executionAfter =
      account.election.proposal.votingDeadline + governance.executionDelay ∧
    governance' = { governance with totalProposals := governance.totalProposals + 1 }
  padding : validateProposalPayloadPadding account.proposalType account.payload = .ok ()
  payload : validateProposalPayload account.proposalType account.payload
    g.world.config.minAgentStake = .ok ()
  createdAt : account.createdAt = g.world.sys.now
  status : account.election.proposal.status = .Active
  executedAt : account.election.proposal.executedAt = 0
  votesFor : account.election.proposal.votesFor = 0
  votesAgainst : account.election.proposal.votesAgainst = 0
  totalVoters : account.election.proposal.totalVoters = 0
  votes : account.election.votes = []

theorem createProposal_spec {g : Government} {key : ProposalKey} {signer : Pubkey}
    {params : ProposalParams} {account : ProposalAccount} {governance' : GovernanceConfig}
    (h : createProposal g key signer params = .ok (account, governance')) :
    Opens g key signer params account governance' := by
  simp only [createProposal, bind_eq_ok, demand_eq_ok, require_eq_ok, fromProgram_eq_ok,
    addU64_eq_ok, Except.ok.injEq, Prod.mk.injEq] at h
  obtain ⟨_, hfresh, proposer, hproposer, _, hsigner, governance, hgovernance, _, -, h⟩ := h
  obtain ⟨_, hactive, ⟨quorum, rules⟩, hrequirements, _, -, _, -, _, -, _, -, h⟩ := h
  obtain ⟨proposalType, -, _, hpadding, _, hpayload, deadline, hdeadline, after, hafter, h⟩ := h
  obtain ⟨reserved, hreserved, _, ⟨-, rfl⟩, rfl, rfl⟩ := h
  exact
    { fresh := hfresh
      proposer := ⟨proposer, hproposer, hsigner, hactive⟩
      requirements := ⟨governance, rules, hgovernance, hrequirements, hreserved,
        (addI64_eq_ok.mp hdeadline).2, (addI64_eq_ok.mp hafter).2, rfl⟩
      padding := hpadding
      payload := hpayload
      createdAt := rfl
      status := rfl
      executedAt := rfl
      votesFor := rfl
      votesAgainst := rfl
      totalVoters := rfl
      votes := rfl }

/-- A vote: who may cast it, what it weighs, and what it changes. -/
structure Casts (election : Election) (ballot : Ballot) (vote : GovernanceVote)
    (election' : Election) (voter' : AgentRegistration) : Prop where
  unvoted : ballot.voter.authority ∉ election.votes.map Prod.fst
  undecided : election.proposal.status = .Active
  inTime : ballot.now < election.proposal.votingDeadline
  active : ballot.voter.status = .Active
  weighs : ∃ rules, election.proposal.reserved.governanceRules = .ok rules ∧
    rules.voterIsEligible ballot.voter.stake ballot.voter.reputation ∧
    calculateGovernanceVoteWeight ballot.voter.stake ballot.voter.reputation
      rules.maxVoteWeight = .ok vote.voteWeight
  positive : 0 < vote.voteWeight
  voter : vote.voter = ballot.voterKey
  approved : vote.approved = ballot.approve
  votedAt : vote.votedAt = ballot.now
  votes : election'.votes = (ballot.voter.authority, vote) :: election.votes
  counted : election'.proposal = { election.proposal with
    votesFor := election.proposal.votesFor + if vote.approved then vote.voteWeight else 0
    votesAgainst := election.proposal.votesAgainst +
      if vote.approved then 0 else vote.voteWeight
    totalVoters := election.proposal.totalVoters + 1 }
  locked : voter' = { ballot.voter with
    lastVoteTimestamp := max ballot.voter.lastVoteTimestamp election.proposal.votingDeadline }

theorem Proposal.count_spec {proposal proposal' : Proposal} {approve : Bool} {voteWeight : ℕ}
    (h : proposal.count approve voteWeight = .ok proposal') :
    proposal' = { proposal with
      votesFor := proposal.votesFor + if approve then voteWeight else 0
      votesAgainst := proposal.votesAgainst + if approve then 0 else voteWeight
      totalVoters := proposal.totalVoters + 1 } := by
  cases approve with
  | true =>
    simp only [Proposal.count, if_true, bind_eq_ok, checkedAdd_eq_ok, Except.ok.injEq] at h
    obtain ⟨_, ⟨-, rfl⟩, _, ⟨-, rfl⟩, rfl⟩ := h
    rfl
  | false =>
    simp only [Proposal.count, Bool.false_eq_true, if_false, bind_eq_ok, checkedAdd_eq_ok,
      Except.ok.injEq] at h
    obtain ⟨_, ⟨-, rfl⟩, _, ⟨-, rfl⟩, rfl⟩ := h
    rfl

theorem voteProposal_spec {election election' : Election} {ballot : Ballot}
    {voter' : AgentRegistration} (h : voteProposal election ballot = .ok (election', voter')) :
    ∃ vote, Casts election ballot vote election' voter' := by
  simp only [voteProposal, bind_eq_ok, require_eq_ok, Except.ok.injEq, Prod.mk.injEq] at h
  obtain ⟨_, hunvoted, _, -, _, hopen, _, hinTime, _, hactive, rules, hrules, h⟩ := h
  obtain ⟨_, -, _, -, _, -, _, heligible, weight, hweight, _, hpositive, h⟩ := h
  obtain ⟨counted, hcounted, rfl, rfl⟩ := h
  exact ⟨_,
    { unvoted := hunvoted
      undecided := hopen
      inTime := hinTime
      active := hactive
      weighs := ⟨rules, hrules, heligible, hweight⟩
      positive := hpositive
      voter := rfl
      approved := rfl
      votedAt := rfl
      votes := rfl
      counted := Proposal.count_spec hcounted
      locked := rfl }⟩

/-- The proposer withdraws a proposal nobody voted on. -/
structure Cancels (now : ℤ) (signer : Pubkey) (account account' : ProposalAccount) : Prop where
  undecided : account.election.proposal.status = .Active
  proposer : signer = account.proposerAuthority
  unvoted : account.election.proposal.totalVoters = 0
  result : account' = account.withProposal
    { account.election.proposal with status := .Cancelled, executedAt := now }

theorem cancelProposal_spec {now : ℤ} {signer : Pubkey} {account account' : ProposalAccount}
    (h : cancelProposal now signer account = .ok account') :
    Cancels now signer account account' := by
  simp only [cancelProposal, bind_eq_ok, require_eq_ok, Except.ok.injEq] at h
  obtain ⟨_, hopen, _, hproposer, _, hunvoted, rfl⟩ := h
  exact ⟨hopen, hproposer, hunvoted, rfl⟩

/-- What a proposal needs to be executed: votes enough for its rules, and a time within its
window. -/
structure Passes (now : ℤ) (proposal : Proposal) : Prop where
  outcome : ∃ rules, proposal.reserved.governanceRules = .ok rules ∧
    proposal.outcomeMet rules = .ok true
  unlocked : proposal.executionAfter ≤ now
  inTime : now ≤ proposal.executionAfter + proposalExecutionWindow

/-- The end of an election, and what it was decided by. -/
structure Decides (now : ℤ) (proposal proposal' : Proposal) : Prop where
  undecided : proposal.status = .Active
  ended : proposal.votingDeadline ≤ now
  outcome : proposal' = { proposal with status := .Executed, executedAt := now } ∧
      Passes now proposal ∨
    proposal' = { proposal with status := .Defeated, executedAt := now }

theorem executeProposal_spec {config : ProtocolConfig} {now : ℤ} {enact : Result Unit}
    {proposal proposal' : Proposal}
    (h : executeProposal config now enact proposal = .ok proposal') :
    Decides now proposal proposal' := by
  simp only [executeProposal, bind_eq_ok, require_eq_ok] at h
  obtain ⟨_, -, _, hopen, _, hended, h⟩ := h
  refine ⟨hopen, hended, ?_⟩
  cases hrules : proposal.reserved.governanceRules with
  | error e =>
    rw [hrules] at h
    exact .inr (Except.ok.inj h).symm
  | ok rules =>
    rw [hrules] at h
    simp only [bind_eq_ok] at h
    obtain ⟨outcomeMet, houtcome, h⟩ := h
    cases outcomeMet with
    | false => exact .inr (Except.ok.inj h).symm
    | true =>
      simp only [Bool.true_eq_false, if_false, bind_eq_ok, require_eq_ok] at h
      obtain ⟨_, hunlocked, deadline, hdeadline, h⟩ := h
      rcases ite_eq_iff.mp h with ⟨-, h⟩ | ⟨hinTime, h⟩
      · exact .inr (Except.ok.inj h).symm
      · simp only [bind_eq_ok, Except.ok.injEq] at h
        obtain ⟨_, -, rfl⟩ := h
        rw [(addI64_eq_ok.mp hdeadline).2, Int.not_lt] at hinTime
        exact .inl ⟨rfl, ⟨rules, hrules, houtcome⟩, hunlocked, hinTime⟩

/-- What the payload of an executed proposal does. -/
inductive Enacts (account : ProposalAccount) (accounts : ExecutionAccounts)
    (config : ProtocolConfig) : ProtocolConfig → Option TreasuryPayment → Prop
  | upgrade (type : account.proposalType = .ProtocolUpgrade) :
      Enacts account accounts config config none
  | fee (type : account.proposalType = .FeeChange)
      (consent : requireMultisigThreshold config accounts.signers = .ok ())
      (bound : account.payload.newFeeBps ≤ maxProtocolFeeBps) :
      Enacts account accounts config
        { config with protocolFeeBps := account.payload.newFeeBps } none
  | limits (type : account.proposalType = .RateLimitChange)
      (consent : requireMultisigThreshold config accounts.signers = .ok ())
      (checks : checkRateLimitChange account.payload config.minAgentStake = .ok ()) :
      Enacts account accounts config
        { config with
          taskCreationCooldown := account.payload.taskCreationCooldown
          maxTasksPer24h := account.payload.maxTasksPer24h
          disputeInitiationCooldown := account.payload.disputeInitiationCooldown
          maxDisputesPer24h := account.payload.maxDisputesPer24h
          minStakeForDispute := account.payload.minStakeForDispute } none
  | spend {lamports : ℕ} (type : account.proposalType = .TreasurySpend)
      (signed : accounts.treasury = some ⟨config.treasury, lamports, true⟩)
      (named : accounts.recipient = some account.payload.recipientKey)
      (recipient : account.payload.recipientKey ≠ 0)
      (covered : account.payload.amount ≤ lamports) :
      Enacts account accounts config config
        (some ⟨config.treasury, account.payload.recipientKey, account.payload.amount⟩)

theorem enactProposal_spec {account : ProposalAccount} {accounts : ExecutionAccounts}
    {config config' : ProtocolConfig} {payment : Option TreasuryPayment}
    (h : enactProposal account config accounts = .ok (config', payment)) :
    Enacts account accounts config config' payment := by
  simp only [enactProposal, bind_eq_ok] at h
  obtain ⟨_, hcontrol, h⟩ := h
  cases htype : account.proposalType with
  | ProtocolUpgrade =>
    rw [htype] at h
    obtain ⟨rfl, rfl⟩ := Prod.mk.inj (Except.ok.inj h)
    exact .upgrade htype
  | FeeChange =>
    simp only [htype, checkDualControl, proposalRequiresProtocolMultisig, if_true,
      fromProgram_eq_ok] at hcontrol
    simp only [htype, executeFeeChange, checkFeeChange, bind_eq_ok, require_eq_ok,
      Except.ok.injEq, Prod.mk.injEq] at h
    obtain ⟨_, ⟨_, hbound, rfl⟩, rfl, rfl⟩ := h
    exact .fee htype hcontrol hbound
  | RateLimitChange =>
    simp only [htype, checkDualControl, proposalRequiresProtocolMultisig, if_true,
      fromProgram_eq_ok] at hcontrol
    simp only [htype, executeRateLimitChange, bind_eq_ok, Except.ok.injEq, Prod.mk.injEq] at h
    obtain ⟨_, ⟨_, hchecks, rfl⟩, rfl, rfl⟩ := h
    exact .limits htype hcontrol hchecks
  | TreasurySpend =>
    simp only [htype, executeTreasurySpend, bind_eq_ok, require_eq_ok, demand_eq_ok,
      Except.ok.injEq, Prod.mk.injEq] at h
    obtain ⟨_, ⟨_, hrecipient, ⟨key, lamports, systemOwned⟩, htreasury, h⟩, rfl, rfl⟩ := h
    obtain ⟨recipient, hnamed, _, rfl, _, rfl, _, hcovered, _, rfl, rfl⟩ := h
    exact .spend htype htreasury hnamed hrecipient hcovered

/-! ## Steps -/

/-- What one step of the government does. -/
inductive GovernmentMove (g : Government) :
    GovernanceInstruction → Government → GovernancePayments → Prop
  | core {i : Instruction} {w' : World} {ts : List Transfer} (raises : i.raisesVoteTime g.world)
      (step : Step g.world (i, ts) w') :
      GovernmentMove g (.core i) { g with world := w' } { transfers := ts }
  | initialized {signer : Pubkey} {params : GovernanceParams} {governance : GovernanceConfig}
      (ran : initializeGovernance g signer params = .ok governance) :
      GovernmentMove g (.initializeGovernance signer params)
        { g with governance := some governance } {}
  | created {key : ProposalKey} {signer : Pubkey} {params : ProposalParams}
      {account : ProposalAccount} {governance' : GovernanceConfig}
      (opens : Opens g key signer params account governance') :
      GovernmentMove g (.proposal key (.createProposal signer params))
        { g with
          proposals := g.proposals.insert key account
          governance := some governance' } {}
  | voted {key : ProposalKey} {voterKey signer : Pubkey} {approve : Bool}
      {account : ProposalAccount} {voter : Account AgentRegistration} {vote : GovernanceVote}
      {election' : Election} {voter' : AgentRegistration}
      (loaded : g.proposals.lookup key = some account)
      (agent : g.world.agents.lookup voterKey = some voter)
      (signs : voter.data.authority = signer)
      (casts : Casts account.election
        ⟨g.world.config, g.world.sys.now, voterKey, voter.data, approve⟩ vote election' voter') :
      GovernmentMove g (.proposal key (.voteProposal voterKey signer approve))
        { g with
          world := { g.world with
            agents := g.world.agents.insert voterKey { voter with data := voter' } }
          proposals := g.proposals.insert key { account with election := election' } } {}
  | cancelled {key : ProposalKey} {signer : Pubkey} {account account' : ProposalAccount}
      (loaded : g.proposals.lookup key = some account)
      (cancels : Cancels g.world.sys.now signer account account') :
      GovernmentMove g (.proposal key (.cancelProposal signer))
        { g with proposals := g.proposals.insert key account' } {}
  | decided {key : ProposalKey} {accounts : ExecutionAccounts} {account : ProposalAccount}
      {proposal' : Proposal} {config' : ProtocolConfig} {payment : Option TreasuryPayment}
      (loaded : g.proposals.lookup key = some account)
      (decides : Decides g.world.sys.now account.election.proposal proposal')
      (enacts : proposal'.status = .Executed →
        Enacts account accounts g.world.config config' payment)
      (idle : proposal'.status ≠ .Executed → config' = g.world.config ∧ payment = none) :
      GovernmentMove g (.proposal key (.executeProposal accounts))
        { g with
          world := { g.world with config := config' }
          proposals := g.proposals.insert key (account.withProposal proposal') }
        { treasury := payment }

theorem enactDecision_spec {account : ProposalAccount} {accounts : ExecutionAccounts}
    {decided : Proposal} {config config' : ProtocolConfig} {payment : Option TreasuryPayment}
    (h : enactDecision account decided config accounts = .ok (config', payment)) :
    (decided.status = .Executed → Enacts account accounts config config' payment) ∧
      (decided.status ≠ .Executed → config' = config ∧ payment = none) := by
  unfold enactDecision at h
  split at h
  · rename_i hstatus
    exact ⟨fun _ => enactProposal_spec h, fun hother => absurd hstatus hother⟩
  · rename_i hstatus
    obtain ⟨rfl, rfl⟩ := Prod.mk.inj (Except.ok.inj h)
    exact ⟨fun hexecuted => absurd hexecuted hstatus, fun _ => ⟨rfl, rfl⟩⟩

/-- What an instruction on the proposal at `key` does. -/
theorem ProposalOp.move {g g' : Government} {key : ProposalKey} {op : ProposalOp}
    {payment : Option TreasuryPayment} (h : op.run g key = .ok (g', payment)) :
    GovernmentMove g (.proposal key op) g' { treasury := payment } := by
  cases op with
  | createProposal signer params =>
    simp only [ProposalOp.run, bind_eq_ok, Prod.exists, Except.ok.injEq, Prod.mk.injEq] at h
    obtain ⟨account, governance', hran, rfl, rfl⟩ := h
    exact .created (createProposal_spec hran)
  | voteProposal voterKey signer approve =>
    simp only [ProposalOp.run, bind_eq_ok, demand_eq_ok, require_eq_ok, fromProgram_eq_ok,
      Prod.exists, Except.ok.injEq, Prod.mk.injEq] at h
    obtain ⟨account, haccount, voter, hvoter, _, hsigns, election', voter', hran, rfl, rfl⟩ := h
    obtain ⟨vote, hcasts⟩ := voteProposal_spec hran
    exact .voted haccount hvoter hsigns hcasts
  | cancelProposal signer =>
    simp only [ProposalOp.run, bind_eq_ok, demand_eq_ok, Except.ok.injEq, Prod.mk.injEq] at h
    obtain ⟨account, haccount, account', hran, rfl, rfl⟩ := h
    exact .cancelled haccount (cancelProposal_spec hran)
  | executeProposal accounts =>
    simp only [ProposalOp.run, bind_eq_ok, demand_eq_ok, fromProgram_eq_ok, Prod.exists,
      Except.ok.injEq, Prod.mk.injEq] at h
    obtain ⟨account, haccount, proposal', hran, config', payment, heffect, rfl, rfl⟩ := h
    obtain ⟨henacts, hidle⟩ := enactDecision_spec heffect
    exact .decided haccount (executeProposal_spec hran) henacts hidle

/-- Every step is one of the world, opens the government, or is on one proposal. -/
theorem GovernmentStep.move {g g' : Government} {i : GovernanceInstruction}
    {payments : GovernancePayments} (h : GovernmentStep g (i, payments) g') :
    GovernmentMove g i g' payments := by
  have h : executeGovernment g i = .ok (g', payments) := h
  cases i with
  | core i =>
    simp only [executeGovernment, bind_eq_ok, require_eq_ok, fromProgram_eq_ok, Prod.exists,
      Except.ok.injEq, Prod.mk.injEq] at h
    obtain ⟨_, hraises, w', ts, hstep, rfl, rfl⟩ := h
    exact .core hraises hstep
  | initializeGovernance signer params =>
    simp only [executeGovernment, bind_eq_ok, Except.ok.injEq, Prod.mk.injEq] at h
    obtain ⟨governance, hran, rfl, rfl⟩ := h
    exact .initialized hran
  | proposal key op =>
    simp only [executeGovernment, bind_eq_ok, Prod.exists, Except.ok.injEq, Prod.mk.injEq] at h
    obtain ⟨moved, payment, hran, rfl, rfl⟩ := h
    exact op.move hran

/-! ## The world of a government -/

/-- The lock a vote puts on its voter is a step of the world. -/
theorem Casts.step {w : World} {election election' : Election} {voterKey : Pubkey}
    {voter : Account AgentRegistration} {approve : Bool} {vote : GovernanceVote}
    {voter' : AgentRegistration}
    (h : Casts election ⟨w.config, w.sys.now, voterKey, voter.data, approve⟩ vote election' voter')
    (hvoter : w.agents.lookup voterKey = some voter) :
    Step w (.agent voterKey (.touchAgent voter.data.reputation
      (max voter.data.lastVoteTimestamp election.proposal.votingDeadline)), [])
      { w with agents := w.agents.insert voterKey { voter with data := voter' } } := by
  rw [h.locked]
  show execute w _ = _
  simp only [execute, AgentOp.run, touchAgent, hvoter, demand, bind, Except.bind]

/-- A limit read from one byte fits the byte it is stored in. -/
theorem checkRateLimitChange_spec {payload : ProposalPayload} {minAgentStake : ℕ}
    (h : checkRateLimitChange payload minAgentStake = .ok ()) :
    (1 ≤ payload.taskCreationCooldown ∧ 1 ≤ payload.disputeInitiationCooldown ∧
      1 ≤ payload.maxTasksPer24h ∧ 1 ≤ payload.maxDisputesPer24h) ∧
    (payload.taskCreationCooldown ≤ 604800 ∧ payload.disputeInitiationCooldown ≤ 604800) ∧
    (payload.maxTasksPer24h < u8Limit ∧ payload.maxDisputesPer24h < u8Limit) ∧
    (1000 ≤ payload.minStakeForDispute ∧ payload.minStakeForDispute ≤ 1000000000 ∧
      payload.minStakeForDispute ≤ minAgentStake) := by
  simp only [checkRateLimitChange, bind_eq_ok, require_eq_ok, exists_const] at h
  obtain ⟨htask, hdispute, htasks, -, hdisputes, -, hstake⟩ := h
  exact ⟨⟨htask.1, hdispute.1, htasks, hdisputes⟩, ⟨htask.2, hdispute.2⟩,
    ⟨UInt8.toNat_lt _, UInt8.toNat_lt _⟩, hstake⟩

/-- What an executed proposal does to the configuration is one instruction of the program, or
nothing. -/
theorem Enacts.run {account : ProposalAccount} {accounts : ExecutionAccounts} {w : World}
    {config' : ProtocolConfig} {payment : Option TreasuryPayment}
    (h : Enacts account accounts w.config config' payment) :
    ∃ log : List LogEntry, Run Step w log { w with config := config' } ∧
      log.flatMap (fun e => e.label.2) = [] := by
  cases h with
  | upgrade => exact ⟨[], .refl, rfl⟩
  | spend => exact ⟨[], .refl, rfl⟩
  | fee _ consent bound =>
    have hstep : Step w (.admin accounts.signers (.updateProtocolFee account.payload.newFeeBps),
        []) { w with config := { w.config with protocolFeeBps := account.payload.newFeeBps } } := by
      have hbound : account.payload.newFeeBps ≤ 2000 := bound
      show execute w _ = _
      simp only [execute, AdminOp.run, updateProtocolFee, consent, require, if_pos hbound, bind,
        Except.bind]
    exact ⟨_, Run.refl.snoc hstep, rfl⟩
  | limits _ consent checks =>
    obtain ⟨hlower, hupper, hbytes, hstake⟩ := checkRateLimitChange_spec checks
    have hstep : Step w (.admin accounts.signers (.updateRateLimits
        account.payload.taskCreationCooldown account.payload.maxTasksPer24h
        account.payload.disputeInitiationCooldown account.payload.maxDisputesPer24h
        account.payload.minStakeForDispute), [])
        { w with config := { w.config with
          taskCreationCooldown := account.payload.taskCreationCooldown
          maxTasksPer24h := account.payload.maxTasksPer24h
          disputeInitiationCooldown := account.payload.disputeInitiationCooldown
          maxDisputesPer24h := account.payload.maxDisputesPer24h
          minStakeForDispute := account.payload.minStakeForDispute } } := by
      show execute w _ = _
      simp only [execute, AdminOp.run, updateRateLimits, consent, require, if_pos hlower,
        if_pos hupper, if_pos hbytes, if_pos hstake, bind, Except.bind]
    exact ⟨_, Run.refl.snoc hstep, rfl⟩

/-- The world of a government moves by instructions of the program only. -/
theorem GovernmentStep.world {g g' : Government} {i : GovernanceInstruction}
    {payments : GovernancePayments} (h : GovernmentStep g (i, payments) g') :
    ∃ log : List LogEntry, Run Step g.world log g'.world ∧
      log.flatMap (fun e => e.label.2) = payments.transfers := by
  cases h.move with
  | core raises step => exact ⟨_, Run.refl.snoc step, List.append_nil _⟩
  | initialized ran => exact ⟨[], .refl, rfl⟩
  | created opens => exact ⟨[], .refl, rfl⟩
  | voted loaded agent signs casts => exact ⟨_, Run.refl.snoc (casts.step agent), rfl⟩
  | cancelled loaded cancels => exact ⟨[], .refl, rfl⟩
  | @decided _ _ _ proposal' config' _ loaded decides enacts idle =>
    by_cases hexecuted : proposal'.status = .Executed
    · exact (enacts hexecuted).run
    · obtain ⟨rfl, -⟩ := idle hexecuted
      exact ⟨[], .refl, rfl⟩

end AgencCoordination
