import AgencCoordination.Foundations.Bytes
import AgencCoordination.Program.SettlementMath
import Mathlib.Data.FinEnum

/-!
# Governance elections

A proposal carries the rules of its own election, computed when it is created and packed in
`_reserved: [u8; 64]`; votes are weighted under these rules, and execution compares the tallies
with them.

* **`calculateNewProposalRequirements`** — the quorum and the rules of a new proposal.
* **`Proposal.setGovernanceRules`**, **`Proposal.governanceRules`** — the packed rules.
* **`voteProposal`**, **`executeProposal`** — a vote, and the end of the election.
-/

namespace AgencCoordination

open Foundations Foundations.Bytes

/-! ## Machine integers -/

/-- `u64::checked_mul(..).ok_or(ArithmeticOverflow)`. -/
def mulU64 (a b : ℕ) : Result ℕ :=
  if a * b < u64Limit then .ok (a * b) else .error .ArithmeticOverflow

/-- `u128::checked_add(..).ok_or(ArithmeticOverflow)`. -/
def addU128 (a b : ℕ) : Result ℕ := checkedAdd u128Limit a b .ArithmeticOverflow

/-- `u64::try_from(..)` of a `u128`. -/
def tryU64 (a : ℕ) (e : CoordinationError) : Result ℕ := if a < u64Limit then .ok a else .error e

@[simp] theorem mulU64_eq_ok {a b r : ℕ} : mulU64 a b = .ok r ↔ a * b < u64Limit ∧ r = a * b := by
  unfold mulU64
  split_ifs with h
  · simp [h, eq_comm]
  · simp [h]

@[simp] theorem addU128_eq_ok {a b r : ℕ} :
    addU128 a b = .ok r ↔ a + b < u128Limit ∧ r = a + b :=
  checkedAdd_eq_ok

@[simp] theorem tryU64_eq_ok {a r : ℕ} {e : CoordinationError} :
    tryU64 a e = .ok r ↔ a < u64Limit ∧ r = a := by
  unfold tryU64
  split_ifs with h
  · simp [h, eq_comm]
  · simp [h]

/-! ## The rules of an election -/

def minGovernanceVoterStakeLamports : ℕ := 10000000
def minGovernanceVoterReputation : ℕ := 5000
def minGovernanceDistinctVoters : ℕ := 3
def minGovernanceQuorumWeight : ℕ := 100000000
def governanceVoteWeightCapMultiplier : ℕ := 10
def governanceBasisPoints : ℕ := 10000

/-- `ProposalGovernanceRules`. -/
structure ProposalGovernanceRules where
  minVoterStake : ℕ
  minVoterReputation : ℕ
  maxVoteWeight : ℕ
  minDistinctVoters : ℕ
  approvalThresholdBps : ℕ
  deriving DecidableEq

namespace ProposalGovernanceRules

/-- The fields are values of their machine types. -/
structure Fits (rules : ProposalGovernanceRules) : Prop where
  minVoterStake : rules.minVoterStake < u64Limit
  minVoterReputation : rules.minVoterReputation < u16Limit
  maxVoteWeight : rules.maxVoteWeight < u64Limit
  minDistinctVoters : rules.minDistinctVoters < u16Limit
  approvalThresholdBps : rules.approvalThresholdBps < u16Limit

/-- `voter_is_eligible`. -/
def voterIsEligible (rules : ProposalGovernanceRules) (stake reputation : ℕ) : Prop :=
  rules.minVoterStake ≤ stake ∧ rules.minVoterReputation ≤ reputation ∧ reputation ≤ maxReputation

instance (rules : ProposalGovernanceRules) (stake reputation : ℕ) :
    Decidable (rules.voterIsEligible stake reputation) :=
  inferInstanceAs (Decidable (_ ∧ _ ∧ _))

/-- `validate`. -/
def validate (rules : ProposalGovernanceRules) : Result Unit := do
  require (minGovernanceVoterStakeLamports ≤ rules.minVoterStake) .InvalidGovernanceParam
  require (minGovernanceVoterReputation ≤ rules.minVoterReputation ∧
    rules.minVoterReputation ≤ maxReputation) .InvalidGovernanceParam
  require (rules.minVoterStake ≤ rules.maxVoteWeight) .InvalidGovernanceParam
  require (minGovernanceDistinctVoters ≤ rules.minDistinctVoters) .InvalidGovernanceParam
  require (1 ≤ rules.approvalThresholdBps ∧ rules.approvalThresholdBps < 10000)
    .InvalidGovernanceParam

end ProposalGovernanceRules

/-- `validate_approval_threshold`. -/
def validateApprovalThreshold (approvalThresholdBps : ℕ) : Result Unit :=
  require (1 ≤ approvalThresholdBps ∧ approvalThresholdBps < 10000) .InvalidGovernanceParam

/-- `calculate_new_proposal_requirements`. -/
def calculateNewProposalRequirements
    (minProposalStake minArbiterStake quorumBps approvalThresholdBps : ℕ) :
    Result (ℕ × ProposalGovernanceRules) := do
  require (1 ≤ quorumBps ∧ quorumBps ≤ 10000) .InvalidGovernanceParam
  validateApprovalThreshold approvalThresholdBps
  let maxVoteWeight ← mulU64 minArbiterStake governanceVoteWeightCapMultiplier
  let minVoterStake := max minProposalStake minGovernanceVoterStakeLamports
  require (0 < minProposalStake ∧ minVoterStake ≤ maxVoteWeight) .InvalidGovernanceParam
  let minimumElectorateCapacity ← mulU64 maxVoteWeight minGovernanceDistinctVoters
  require (minGovernanceQuorumWeight ≤ minimumElectorateCapacity) .InvalidGovernanceParam
  let minimumStakeQuorum ← mulU64 minVoterStake minGovernanceDistinctVoters
  let scaledNumerator ← mulU128 minimumElectorateCapacity quorumBps
  let roundedNumerator ← addU128 scaledNumerator (governanceBasisPoints - 1)
  let percentageQuorum ← divU roundedNumerator governanceBasisPoints
  let percentageQuorum ← tryU64 percentageQuorum .ArithmeticOverflow
  let quorum := max (max minGovernanceQuorumWeight minimumStakeQuorum) percentageQuorum
  require (quorum ≤ minimumElectorateCapacity) .InvalidGovernanceParam
  let rules : ProposalGovernanceRules :=
    { minVoterStake := minVoterStake
      minVoterReputation := minGovernanceVoterReputation
      maxVoteWeight := maxVoteWeight
      minDistinctVoters := minGovernanceDistinctVoters
      approvalThresholdBps := approvalThresholdBps }
  rules.validate
  .ok (quorum, rules)

/-! ## The packed rules -/

/-- `Proposal::_reserved`. -/
abbrev RulesRegion := Vector UInt8 64

namespace RulesRegion

/-- `GOVERNANCE_RULES_SCHEMA_V1`. -/
def governanceRulesSchemaV1 : UInt8 := 1

/-- `_reserved[start..start + bytes.len()].copy_from_slice(bytes)`. -/
def copyFromSlice (region : RulesRegion) (start : ℕ) (bytes : List UInt8) : RulesRegion :=
  Vector.ofFn fun i =>
    if start ≤ i.val ∧ i.val < start + bytes.length then bytes.getD (i.val - start) 0
    else region[i]

/-- The unsigned integer in the `width` bytes from `start` on, least significant byte first. -/
def readLe (region : RulesRegion) (start width : ℕ) : ℕ :=
  ofLittleEndian ((region.toList.drop start).take width)

/-- `Proposal::set_governance_rules`. -/
def setGovernanceRules (rules : ProposalGovernanceRules) : Result RulesRegion := do
  rules.validate
  let region : RulesRegion := (Vector.replicate 64 0).set 0 governanceRulesSchemaV1
  let region : RulesRegion := region.copyFromSlice 1 (littleEndian 8 rules.minVoterStake)
  let region : RulesRegion := region.copyFromSlice 9 (littleEndian 2 rules.minVoterReputation)
  let region : RulesRegion := region.copyFromSlice 11 (littleEndian 8 rules.maxVoteWeight)
  let region : RulesRegion := region.copyFromSlice 19 (littleEndian 2 rules.minDistinctVoters)
  .ok (region.copyFromSlice 21 (littleEndian 2 rules.approvalThresholdBps))

/-- `Proposal::governance_rules`. -/
def governanceRules (region : RulesRegion) : Result ProposalGovernanceRules := do
  require (region[0] = governanceRulesSchemaV1) .InvalidGovernanceParam
  require (∀ byte ∈ region.toList.drop 23, byte = 0) .CorruptedData
  let rules : ProposalGovernanceRules :=
    { minVoterStake := region.readLe 1 8
      minVoterReputation := region.readLe 9 2
      maxVoteWeight := region.readLe 11 8
      minDistinctVoters := region.readLe 19 2
      approvalThresholdBps := region.readLe 21 2 }
  rules.validate
  .ok rules

end RulesRegion

/-! ## The election -/

/-- `ProposalStatus`. -/
inductive ProposalStatus
  | Active
  | Executed
  | Defeated
  | Cancelled
  deriving DecidableEq

/-- `Proposal`, without its text and its payload. -/
structure Proposal where
  status : ProposalStatus
  votingDeadline : ℤ
  executionAfter : ℤ
  executedAt : ℤ
  votesFor : ℕ
  votesAgainst : ℕ
  totalVoters : ℕ
  quorum : ℕ
  reserved : RulesRegion
  deriving DecidableEq

/-- `GovernanceVote`. -/
structure GovernanceVote where
  voter : Pubkey
  approved : Bool
  votedAt : ℤ
  voteWeight : ℕ
  deriving DecidableEq

/-- A proposal and the votes on it, each under the wallet it is derived from. -/
structure Election where
  proposal : Proposal
  votes : List (Pubkey × GovernanceVote)
  deriving DecidableEq

/-- What a vote is called with: the protocol configuration and the clock, the agent that votes,
whose authority signs, and its choice. -/
structure Ballot where
  config : ProtocolConfig
  now : ℤ
  voterKey : Pubkey
  voter : AgentRegistration
  approve : Bool
  deriving DecidableEq

/-- `calculate_governance_vote_weight`. -/
def calculateGovernanceVoteWeight (stake reputation maxVoteWeight : ℕ) : Result ℕ := do
  require (reputation ≤ maxReputation) .CorruptedData
  let stakeWeight := min stake maxVoteWeight
  let product ← mulU128 stakeWeight reputation
  let weighted ← divU product maxReputation
  let voteWeight ← tryU64 weighted .VoteOverflow
  .ok (if 0 < stakeWeight then max voteWeight 1 else 0)

/-- The proposal with a vote counted. -/
def Proposal.count (proposal : Proposal) (approve : Bool) (voteWeight : ℕ) : Result Proposal :=
  if approve then do
    let votesFor ← checkedAdd u64Limit proposal.votesFor voteWeight .VoteOverflow
    let totalVoters ← checkedAdd u16Limit proposal.totalVoters 1 .VoteOverflow
    .ok { proposal with votesFor := votesFor, totalVoters := totalVoters }
  else do
    let votesAgainst ← checkedAdd u64Limit proposal.votesAgainst voteWeight .VoteOverflow
    let totalVoters ← checkedAdd u16Limit proposal.totalVoters 1 .VoteOverflow
    .ok { proposal with votesAgainst := votesAgainst, totalVoters := totalVoters }

/-- `vote_proposal`: the election with the vote, and the voter. One vote per wallet: the account
of the vote is created under the wallet. -/
def voteProposal (election : Election) (ballot : Ballot) :
    Result (Election × AgentRegistration) := do
  let proposal := election.proposal
  let voter := ballot.voter
  require (voter.authority ∉ election.votes.map Prod.fst) .AccountAlreadyInUse
  checkVersionCompatible ballot.config
  require (proposal.status = .Active) .ProposalNotActive
  require (ballot.now < proposal.votingDeadline) .ProposalVotingEnded
  require (voter.status = .Active) .AgentNotActive
  let rules ← proposal.reserved.governanceRules
  require (rules.minVoterStake ≤ voter.stake) .ProposalInsufficientStake
  require (rules.minVoterReputation ≤ voter.reputation) .InsufficientReputation
  require (voter.reputation ≤ maxReputation) .CorruptedData
  require (rules.voterIsEligible voter.stake voter.reputation) .InvalidGovernanceParam
  let voteWeight ←
    calculateGovernanceVoteWeight voter.stake voter.reputation rules.maxVoteWeight
  require (0 < voteWeight) .ProposalInsufficientStake
  let vote : GovernanceVote :=
    { voter := ballot.voterKey, approved := ballot.approve, votedAt := ballot.now,
      voteWeight := voteWeight }
  let counted ← proposal.count ballot.approve voteWeight
  .ok ({ proposal := counted, votes := (voter.authority, vote) :: election.votes },
    { voter with lastVoteTimestamp := max voter.lastVoteTimestamp proposal.votingDeadline })

/-- The election after a transaction with a vote: one that fails leaves it as it was. -/
def Election.cast (election : Election) (ballot : Ballot) : Election :=
  match voteProposal election ballot with
  | .ok (election', _) => election'
  | .error _ => election

/-- The election after votes, in their order. -/
def Election.castAll (election : Election) (ballots : List Ballot) : Election :=
  ballots.foldl Election.cast election

/-- `outcome_requirements_met`. -/
def outcomeRequirementsMet (totalVotes votesFor quorum totalVoters minDistinctVoters
    approvalThresholdBps : ℕ) : Result Bool :=
  if totalVotes = 0 ∨ totalVotes < quorum ∨ totalVoters < minDistinctVoters then .ok false
  else do
    let lhs ← mulU128 votesFor 10000
    let rhs ← mulU128 totalVotes approvalThresholdBps
    .ok (decide (rhs < lhs))

/-- The outcome of the election, as `execute_proposal` computes it. -/
def Proposal.outcomeMet (proposal : Proposal) (rules : ProposalGovernanceRules) : Result Bool := do
  let totalVotes ← addU64 proposal.votesFor proposal.votesAgainst
  outcomeRequirementsMet totalVotes proposal.votesFor proposal.quorum proposal.totalVoters
    rules.minDistinctVoters rules.approvalThresholdBps

/-- `PROPOSAL_EXECUTION_WINDOW`. -/
def proposalExecutionWindow : ℤ := 604800

/-- `execute_proposal`, where `enact` is the effect of the payload: its multisig check and the
change of the configuration or the payment. -/
def executeProposal (config : ProtocolConfig) (now : ℤ) (enact : Result Unit)
    (proposal : Proposal) : Result Proposal := do
  checkVersionCompatible config
  require (proposal.status = .Active) .ProposalNotActive
  require (proposal.votingDeadline ≤ now) .ProposalVotingNotEnded
  match proposal.reserved.governanceRules with
  | .error _ => .ok { proposal with status := .Defeated, executedAt := now }
  | .ok rules => do
      let outcomeMet ← proposal.outcomeMet rules
      if outcomeMet = false then .ok { proposal with status := .Defeated, executedAt := now }
      else do
        require (proposal.executionAfter ≤ now) .TimelockNotElapsed
        let executionDeadline ← addI64 proposal.executionAfter proposalExecutionWindow
        if executionDeadline < now then
          .ok { proposal with status := .Defeated, executedAt := now }
        else do
          enact
          .ok { proposal with status := .Executed, executedAt := now }

end AgencCoordination
