import AgencCoordination.Foundations.Borsh
import AgencCoordination.Program.Governance
import AgencCoordination.Program.Program

/-!
# The government of the protocol

The governance configuration (`initialize_governance.rs`), the proposals kept by proposer and nonce
(`create_proposal.rs`, `cancel_proposal.rs`), their elections (`vote_proposal.rs`) and what a passed
proposal does (`execute_proposal.rs`). It stands on the world, whose instructions run in between;
`voteProposal` and the decision of `executeProposal` are those of `Program/Governance.lean`.

The treasury and the recipient of a spend are wallets outside the program: the caller gives their
balances, and a spend lists its payment.
-/

namespace AgencCoordination

open Foundations

/-! ## Errors -/

/-- The errors of these handlers: those of the rest of the program, and their own. -/
inductive GovernanceError
  | program (e : CoordinationError)
  | InvalidProposalPayload
  | InvalidProposalType
  | ProposalUnauthorizedCancel
  | TreasuryInsufficientBalance
  | TreasuryNotSpendable
  deriving DecidableEq

abbrev GovernanceResult := Except GovernanceError

/-- A computation of the rest of the program. -/
def fromProgram {α : Type} (r : Result α) : GovernanceResult α := r.mapError .program

@[simp] theorem fromProgram_eq_ok {α : Type} {r : Result α} {a : α} :
    fromProgram r = .ok a ↔ r = .ok a :=
  mapError_eq_ok

/-! ## Accounts -/

/-- The address of a proposal: the agent that proposes and its nonce. -/
abbrev ProposalKey := Pubkey × ℕ

/-- `ProposalType`. -/
inductive ProposalType
  | ProtocolUpgrade
  | FeeChange
  | TreasurySpend
  | RateLimitChange
  deriving DecidableEq

/-- `Proposal::payload`. -/
abbrev ProposalPayload := Vector UInt8 64

/-- `GovernanceConfig`. -/
structure GovernanceConfig where
  authority : Pubkey
  minProposalStake : ℕ
  votingPeriod : ℤ
  executionDelay : ℤ
  quorumBps : ℕ
  approvalThresholdBps : ℕ
  totalProposals : ℕ := 0
  deriving DecidableEq

/-- The whole of `Proposal`, kept by proposer and nonce, with the votes on it. -/
structure ProposalAccount where
  proposerAuthority : Pubkey
  proposalType : ProposalType
  titleHash : Hash
  descriptionHash : Hash
  payload : ProposalPayload
  createdAt : ℤ
  election : Election
  deriving DecidableEq

/-- The world, and the accounts of its governance. `minArbiterStake` is the field of
`ProtocolConfig` that weighs votes: `initialize_protocol` sets it to the minimum stake of an agent
and no instruction writes it. -/
structure Government where
  world : World
  minArbiterStake : ℕ
  governance : Option GovernanceConfig := none
  proposals : Ledger ProposalKey ProposalAccount := ∅

/-! ## Payloads -/

/-- `MAX_PROTOCOL_FEE_BPS`. -/
def maxProtocolFeeBps : ℕ := 2000

/-- `MAX_RATE_LIMIT`. -/
def maxRateLimit : ℕ := 1000

/-- `MAX_COOLDOWN`. -/
def maxCooldown : ℤ := 604800

namespace ProposalPayload

/-- `i64::from_le_bytes` of the eight bytes from `start` on. -/
def readI64 (payload : ProposalPayload) (start : ℕ) : ℤ :=
  (BitVec.ofNat 64 (RulesRegion.readLe payload start 8)).toInt

/-- The new fee of a `FeeChange`. -/
def newFeeBps (payload : ProposalPayload) : ℕ := RulesRegion.readLe payload 0 2

/-- The recipient of a `TreasurySpend`. -/
def recipientKey (payload : ProposalPayload) : Pubkey := RulesRegion.readLe payload 0 32

/-- The amount of a `TreasurySpend`. -/
def amount (payload : ProposalPayload) : ℕ := RulesRegion.readLe payload 32 8

/-- The first cooldown of a `RateLimitChange`. -/
def taskCreationCooldown (payload : ProposalPayload) : ℤ := payload.readI64 0

/-- The task limit of a `RateLimitChange`. -/
def maxTasksPer24h (payload : ProposalPayload) : ℕ := payload[8].toNat

/-- The second cooldown of a `RateLimitChange`. -/
def disputeInitiationCooldown (payload : ProposalPayload) : ℤ := payload.readI64 9

/-- The dispute limit of a `RateLimitChange`. -/
def maxDisputesPer24h (payload : ProposalPayload) : ℕ := payload[17].toNat

/-- The stake limit of a `RateLimitChange`. -/
def minStakeForDispute (payload : ProposalPayload) : ℕ := RulesRegion.readLe payload 18 8

end ProposalPayload

/-- `is_valid_dispute_stake_limit`. -/
def isValidDisputeStakeLimit (minStakeForDispute minAgentStake : ℕ) : Prop :=
  1000 ≤ minStakeForDispute ∧ minStakeForDispute ≤ 1000000000 ∧
    minStakeForDispute ≤ minAgentStake

instance (minStakeForDispute minAgentStake : ℕ) :
    Decidable (isValidDisputeStakeLimit minStakeForDispute minAgentStake) :=
  inferInstanceAs (Decidable (_ ∧ _ ∧ _))

/-- The checks of a fee change, the same at creation and at execution. -/
def checkFeeChange (payload : ProposalPayload) : GovernanceResult Unit :=
  require (payload.newFeeBps ≤ maxProtocolFeeBps) .InvalidProposalPayload

/-- The checks of a rate-limit change, the same at creation and at execution. -/
def checkRateLimitChange (payload : ProposalPayload) (minAgentStake : ℕ) :
    GovernanceResult Unit := do
  require (1 ≤ payload.taskCreationCooldown ∧ payload.taskCreationCooldown ≤ maxCooldown)
    .InvalidProposalPayload
  require (1 ≤ payload.disputeInitiationCooldown ∧
    payload.disputeInitiationCooldown ≤ maxCooldown) .InvalidProposalPayload
  require (1 ≤ payload.maxTasksPer24h) .InvalidProposalPayload
  require (payload.maxTasksPer24h ≤ maxRateLimit) .InvalidProposalPayload
  require (1 ≤ payload.maxDisputesPer24h) .InvalidProposalPayload
  require (payload.maxDisputesPer24h ≤ maxRateLimit) .InvalidProposalPayload
  require (isValidDisputeStakeLimit payload.minStakeForDispute minAgentStake)
    .InvalidProposalPayload

/-- `validate_proposal_payload_padding`: the bytes a proposal's type does not read are zero. -/
def validateProposalPayloadPadding (proposalType : ProposalType) (payload : ProposalPayload) :
    GovernanceResult Unit :=
  let unused := match proposalType with
    | .ProtocolUpgrade => payload.toList
    | .FeeChange => payload.toList.drop 2
    | .TreasurySpend => payload.toList.drop 40
    | .RateLimitChange => payload.toList.drop 26
  require (∀ byte ∈ unused, byte = 0) .InvalidProposalPayload

/-- The checks `create_proposal` makes on the payload of each type. -/
def validateProposalPayload (proposalType : ProposalType) (payload : ProposalPayload)
    (minAgentStake : ℕ) : GovernanceResult Unit :=
  match proposalType with
  | .FeeChange => checkFeeChange payload
  | .RateLimitChange => checkRateLimitChange payload minAgentStake
  | .TreasurySpend =>
      require (payload.recipientKey ≠ 0 ∧ 0 < payload.amount) .InvalidProposalPayload
  | .ProtocolUpgrade => .ok ()

/-! ## Opening a government -/

/-- `GovernanceConfig::MAX_VOTING_PERIOD`. -/
def maxVotingPeriod : ℤ := 604800

/-- `GovernanceConfig::MAX_EXECUTION_DELAY`. -/
def maxExecutionDelay : ℤ := 604800

/-- The arguments of `initialize_governance`. -/
structure GovernanceParams where
  votingPeriod : ℤ
  executionDelay : ℤ
  quorumBps : ℕ
  approvalThresholdBps : ℕ
  minProposalStake : ℕ
  deriving DecidableEq

/-- `initialize_governance`. -/
def initializeGovernance (g : Government) (signer : Pubkey) (params : GovernanceParams) :
    GovernanceResult GovernanceConfig := do
  require (g.governance = none) (.program .AccountAlreadyInUse)
  require (signer = g.world.config.authority) (.program .UnauthorizedAgent)
  require (0 < params.votingPeriod ∧ params.votingPeriod ≤ maxVotingPeriod)
    (.program .InvalidGovernanceParam)
  require (0 ≤ params.executionDelay ∧ params.executionDelay ≤ maxExecutionDelay)
    (.program .InvalidGovernanceParam)
  require (0 < params.quorumBps ∧ params.quorumBps ≤ 10000) (.program .InvalidGovernanceParam)
  fromProgram (validateApprovalThreshold params.approvalThresholdBps)
  let _ ← fromProgram (calculateNewProposalRequirements params.minProposalStake g.minArbiterStake
    params.quorumBps params.approvalThresholdBps)
  .ok
    { authority := signer
      minProposalStake := params.minProposalStake
      votingPeriod := params.votingPeriod
      executionDelay := params.executionDelay
      quorumBps := params.quorumBps
      approvalThresholdBps := params.approvalThresholdBps }

/-! ## Proposals -/

/-- The arguments of `create_proposal`, without its nonce. -/
structure ProposalParams where
  proposalType : ℕ
  titleHash : Hash
  descriptionHash : Hash
  payload : ProposalPayload
  votingPeriod : ℤ
  deriving DecidableEq

/-- The type a byte stands for. -/
def proposalTypeOf : ℕ → GovernanceResult ProposalType
  | 0 => .ok .ProtocolUpgrade
  | 1 => .ok .FeeChange
  | 2 => .ok .TreasurySpend
  | 3 => .ok .RateLimitChange
  | _ => .error .InvalidProposalType

/-- The voting period of a new proposal: the configured one is the default and the floor. -/
def effectiveVotingPeriod (votingPeriod configured : ℤ) : ℤ :=
  if 0 < votingPeriod then max (min votingPeriod maxVotingPeriod) configured else configured

/-- `create_proposal`. -/
def createProposal (g : Government) (key : ProposalKey) (signer : Pubkey)
    (params : ProposalParams) : GovernanceResult (ProposalAccount × GovernanceConfig) := do
  require (g.proposals.lookup key = none) (.program .AccountAlreadyInUse)
  let proposer ← demand (g.world.agents.lookup key.1) (.program .AccountNotInitialized)
  require (proposer.data.authority = signer) (.program .UnauthorizedAgent)
  let governance ← demand g.governance (.program .AccountNotInitialized)
  fromProgram (checkVersionCompatible g.world.config)
  require (proposer.data.status = .Active) (.program .AgentNotActive)
  let requirements ← fromProgram (calculateNewProposalRequirements governance.minProposalStake
    g.minArbiterStake governance.quorumBps governance.approvalThresholdBps)
  let rules := requirements.2
  require (rules.minVoterStake ≤ proposer.data.stake) (.program .ProposalInsufficientStake)
  require (rules.minVoterReputation ≤ proposer.data.reputation) (.program .InsufficientReputation)
  require (rules.voterIsEligible proposer.data.stake proposer.data.reputation)
    (.program .InvalidGovernanceParam)
  require (params.titleHash ≠ 0 ∧ params.descriptionHash ≠ 0) .InvalidProposalPayload
  let proposalType ← proposalTypeOf params.proposalType
  validateProposalPayloadPadding proposalType params.payload
  validateProposalPayload proposalType params.payload g.world.config.minAgentStake
  let votingDeadline ← fromProgram (addI64 g.world.sys.now
    (effectiveVotingPeriod params.votingPeriod governance.votingPeriod))
  let executionAfter ← fromProgram (addI64 votingDeadline governance.executionDelay)
  let reserved ← fromProgram (RulesRegion.setGovernanceRules rules)
  let totalProposals ← fromProgram (addU64 governance.totalProposals 1)
  .ok (
    { proposerAuthority := signer
      proposalType := proposalType
      titleHash := params.titleHash
      descriptionHash := params.descriptionHash
      payload := params.payload
      createdAt := g.world.sys.now
      election :=
        { proposal :=
            { status := .Active
              votingDeadline := votingDeadline
              executionAfter := executionAfter
              executedAt := 0
              votesFor := 0
              votesAgainst := 0
              totalVoters := 0
              quorum := requirements.1
              reserved := reserved }
          votes := [] } },
    { governance with totalProposals := totalProposals })

/-- The account with another state of its proposal. -/
def ProposalAccount.withProposal (account : ProposalAccount) (proposal : Proposal) :
    ProposalAccount :=
  { account with election := { account.election with proposal := proposal } }

/-- `cancel_proposal`: the proposer, before anybody votes. -/
def cancelProposal (now : ℤ) (signer : Pubkey) (account : ProposalAccount) :
    GovernanceResult ProposalAccount := do
  let proposal := account.election.proposal
  require (proposal.status = .Active) (.program .ProposalNotActive)
  require (signer = account.proposerAuthority) .ProposalUnauthorizedCancel
  require (proposal.totalVoters = 0) (.program .ProposalVotingEnded)
  .ok (account.withProposal { proposal with status := .Cancelled, executedAt := now })

/-! ## Execution -/

/-- The treasury wallet, which signs. -/
structure TreasuryAccount where
  key : Pubkey
  lamports : ℕ
  systemOwned : Bool
  deriving DecidableEq

/-- The accounts `execute_proposal` is called with: the wallets that sign, and those of a spend. -/
structure ExecutionAccounts where
  signers : List Pubkey := []
  treasury : Option TreasuryAccount := none
  recipient : Option Pubkey := none
  deriving DecidableEq

/-- What a spend pays out of the treasury. -/
structure TreasuryPayment where
  treasury : Pubkey
  recipient : Pubkey
  amount : ℕ
  deriving DecidableEq

/-- `proposal_requires_protocol_multisig`. -/
def proposalRequiresProtocolMultisig : ProposalType → Bool
  | .FeeChange => true
  | .RateLimitChange => true
  | .TreasurySpend => false
  | .ProtocolUpgrade => false

/-- The second of the two controls over the protocol's configuration: its multisig. -/
def checkDualControl (proposalType : ProposalType) (config : ProtocolConfig)
    (signers : List Pubkey) : GovernanceResult Unit :=
  if proposalRequiresProtocolMultisig proposalType then
    fromProgram (requireMultisigThreshold config signers)
  else .ok ()

/-- `execute_fee_change`. -/
def executeFeeChange (payload : ProposalPayload) (config : ProtocolConfig) :
    GovernanceResult ProtocolConfig := do
  checkFeeChange payload
  .ok { config with protocolFeeBps := payload.newFeeBps }

/-- `execute_treasury_spend`. -/
def executeTreasurySpend (payload : ProposalPayload) (config : ProtocolConfig)
    (accounts : ExecutionAccounts) : GovernanceResult TreasuryPayment := do
  require (payload.recipientKey ≠ 0) .InvalidProposalPayload
  let treasury ← demand accounts.treasury .InvalidProposalPayload
  let recipient ← demand accounts.recipient .InvalidProposalPayload
  require (treasury.key = config.treasury) .InvalidProposalPayload
  require (recipient = payload.recipientKey) .InvalidProposalPayload
  require (payload.amount ≤ treasury.lamports) .TreasuryInsufficientBalance
  require (treasury.systemOwned = true) .TreasuryNotSpendable
  .ok ⟨treasury.key, recipient, payload.amount⟩

/-- `execute_rate_limit_change`. -/
def executeRateLimitChange (payload : ProposalPayload) (config : ProtocolConfig) :
    GovernanceResult ProtocolConfig := do
  checkRateLimitChange payload config.minAgentStake
  .ok { config with
    taskCreationCooldown := payload.taskCreationCooldown
    maxTasksPer24h := payload.maxTasksPer24h
    disputeInitiationCooldown := payload.disputeInitiationCooldown
    maxDisputesPer24h := payload.maxDisputesPer24h
    minStakeForDispute := payload.minStakeForDispute }

/-- What a passed proposal does, by its type. An upgrade is a signal and does nothing. -/
def enactProposal (account : ProposalAccount) (config : ProtocolConfig)
    (accounts : ExecutionAccounts) :
    GovernanceResult (ProtocolConfig × Option TreasuryPayment) := do
  checkDualControl account.proposalType config accounts.signers
  match account.proposalType with
  | .FeeChange => do
      let config ← executeFeeChange account.payload config
      .ok (config, none)
  | .TreasurySpend => do
      let payment ← executeTreasurySpend account.payload config accounts
      .ok (config, some payment)
  | .RateLimitChange => do
      let config ← executeRateLimitChange account.payload config
      .ok (config, none)
  | .ProtocolUpgrade => .ok (config, none)

/-- The effect of a decision: that of the payload when the proposal is to be executed. -/
def enactDecision (account : ProposalAccount) (decided : Proposal) (config : ProtocolConfig)
    (accounts : ExecutionAccounts) :
    GovernanceResult (ProtocolConfig × Option TreasuryPayment) :=
  match decided.status with
  | .Executed => enactProposal account config accounts
  | _ => .ok (config, none)

/-! ## The instructions -/

/-- The instructions on one proposal. -/
inductive ProposalOp
  | createProposal (signer : Pubkey) (params : ProposalParams)
  | voteProposal (voter signer : Pubkey) (approve : Bool)
  | cancelProposal (signer : Pubkey)
  | executeProposal (accounts : ExecutionAccounts)
  deriving DecidableEq

/-- One step of the government: one of the world, or one of governance. -/
inductive GovernanceInstruction
  | core (i : Instruction)
  | initializeGovernance (signer : Pubkey) (params : GovernanceParams)
  | proposal (key : ProposalKey) (op : ProposalOp)
  deriving DecidableEq

/-- What a step pays. -/
structure GovernancePayments where
  transfers : List Transfer := []
  treasury : Option TreasuryPayment := none
  deriving DecidableEq

/-- The writers of an agent's vote time outside the world are the votes on proposals and those of
task validators, and both only raise it. -/
def Instruction.raisesVoteTime (w : World) : Instruction → Prop
  | .agent key (.touchAgent _ lastVoteTimestamp) =>
      ∀ agent ∈ w.agents.lookup key, agent.data.lastVoteTimestamp ≤ lastVoteTimestamp
  | _ => True

instance (w : World) (i : Instruction) : Decidable (i.raisesVoteTime w) := by
  unfold Instruction.raisesVoteTime
  split
  · infer_instance
  · exact .isTrue trivial

/-- The handler of an instruction on the proposal at `key`. -/
def ProposalOp.run (g : Government) (key : ProposalKey) :
    ProposalOp → GovernanceResult (Government × Option TreasuryPayment)
  | .createProposal signer params => do
      let created ← AgencCoordination.createProposal g key signer params
      .ok ({ g with
        proposals := g.proposals.insert key created.1, governance := some created.2 }, none)
  | .voteProposal voterKey signer approve => do
      let account ← demand (g.proposals.lookup key) (.program .AccountNotInitialized)
      let voter ← demand (g.world.agents.lookup voterKey) (.program .AccountNotInitialized)
      require (voter.data.authority = signer) (.program .UnauthorizedAgent)
      let voted ← fromProgram (AgencCoordination.voteProposal account.election
        ⟨g.world.config, g.world.sys.now, voterKey, voter.data, approve⟩)
      .ok ({ g with
        world := { g.world with
          agents := g.world.agents.insert voterKey { voter with data := voted.2 } }
        proposals := g.proposals.insert key { account with election := voted.1 } }, none)
  | .cancelProposal signer => do
      let account ← demand (g.proposals.lookup key) (.program .AccountNotInitialized)
      let account ← AgencCoordination.cancelProposal g.world.sys.now signer account
      .ok ({ g with proposals := g.proposals.insert key account }, none)
  | .executeProposal accounts => do
      let account ← demand (g.proposals.lookup key) (.program .AccountNotInitialized)
      let decided ← fromProgram (AgencCoordination.executeProposal g.world.config
        g.world.sys.now (.ok ()) account.election.proposal)
      let effect ← enactDecision account decided g.world.config accounts
      .ok ({ g with
        world := { g.world with config := effect.1 }
        proposals := g.proposals.insert key (account.withProposal decided) }, effect.2)

/-- One step of the government, and its payments. -/
def executeGovernment (g : Government) :
    GovernanceInstruction → GovernanceResult (Government × GovernancePayments)
  | .core i => do
      require (i.raisesVoteTime g.world) (.program .InvalidInput)
      let moved ← fromProgram (execute g.world i)
      .ok ({ g with world := moved.1 }, { transfers := moved.2 })
  | .initializeGovernance signer params => do
      let governance ← AgencCoordination.initializeGovernance g signer params
      .ok ({ g with governance := some governance }, {})
  | .proposal key op => do
      let moved ← op.run g key
      .ok (moved.1, { treasury := moved.2 })

/-- The government of a protocol nobody has governed yet. -/
structure Government.Genesis (g : Government) : Prop where
  world : AgencCoordination.Genesis g.world
  minArbiterStake : g.minArbiterStake = g.world.config.minAgentStake
  governance : g.governance = none
  proposals : g.proposals = ∅

/-- A deployment whose voters can reach a quorum. -/
def governedDeployment : Initialization :=
  { deployment with minStake := 10000000, minStakeForDispute := 10000000 }

/-- The world of that deployment. -/
def governedWorld : World :=
  ((initializeProtocol { now := 1000, rent := ⟨3480, 2⟩ } governedDeployment).toOption).getD
    { sys := { now := 0, rent := ⟨0, 0⟩ } }

/-- The government of that deployment. -/
def deployedGovernment : Government where
  world := governedWorld
  minArbiterStake := governedWorld.config.minAgentStake

theorem deployedGovernment_genesis : deployedGovernment.Genesis where
  world := @initializeProtocol_genesis { now := 1000, rent := ⟨3480, 2⟩ } governedDeployment
    governedWorld rfl (by decide)
  minArbiterStake := rfl
  governance := rfl
  proposals := rfl

end AgencCoordination
