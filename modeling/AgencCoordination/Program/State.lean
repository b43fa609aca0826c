import AgencCoordination.Foundations.Ledger
import AgencCoordination.Foundations.Guard

/-!
# Accounts of the coordination program

The account types of `state.rs` with the fields the task, review, dispute, bond and bid
instructions read or write, and the two ways the model groups them:

* **`TaskAccounts`** — everything whose address is derived from one task: the task itself, its
  escrow, its claims and submissions (one per worker agent), the review configuration, the
  completion bonds (one per wallet) and the bid book with its bids. A program-derived address
  is a function of its seeds, so "the claim of agent `a` on task `t`" is entry `a` of the
  claims of `t`.
* **`World`** — the tasks, agents, disputes and bidder records, the protocol configuration and
  the clock.

Keys and 32-byte digests are natural numbers with `0` for the default value. Amounts and
counters are natural numbers whose 64-, 16- and 8-bit limits are checked where the source
checks them; timestamps are integers. Account bumps and the event log carry no state and are
left out.
-/

namespace AgencCoordination

open Foundations

/-- A public key; the default (all zero) key is `0`. -/
abbrev Pubkey := ℕ

/-- A 32-byte digest; the all-zero digest is `0`. -/
abbrev Hash := ℕ

/-! ## Enumerations -/

inductive AgentStatus
  | Inactive
  | Active
  | Busy
  | Suspended
  deriving DecidableEq, Repr

inductive TaskStatus
  | Open
  | InProgress
  | PendingValidation
  | Completed
  | Cancelled
  | Disputed
  | RejectFrozen
  deriving DecidableEq, Repr

inductive TaskType
  | Exclusive
  | Collaborative
  | Competitive
  | BidExclusive
  deriving DecidableEq, Repr

inductive ValidationMode
  | Auto
  | CreatorReview
  | ValidatorQuorum
  | ExternalAttestation
  deriving DecidableEq, Repr

inductive SubmissionStatus
  | Idle
  | Submitted
  | Accepted
  | Rejected
  deriving DecidableEq, Repr

inductive BidBookState
  | Open
  | Accepted
  | Closed
  deriving DecidableEq, Repr

inductive TaskBidState
  | Active
  | Accepted
  | BoundActive
  deriving DecidableEq, Repr

inductive MatchingPolicy
  | BestPrice
  | BestEta
  | WeightedScore
  deriving DecidableEq, Repr

inductive DependencyType
  | None
  | Data
  | Ordering
  | Proof
  deriving DecidableEq, Repr

inductive ResolutionType
  | Refund
  | Complete
  | Split
  deriving DecidableEq, Repr

inductive DisputeStatus
  | Active
  | Resolved
  | Expired
  | Cancelled
  | SettlementPending
  deriving DecidableEq, Repr

/-- `ROLE_CREATOR` and `ROLE_WORKER` of a completion bond. -/
inductive BondRole
  | Creator
  | Worker
  deriving DecidableEq, Repr

namespace TaskStatus

/-- The transition table of `TaskStatus::can_transition_to`. -/
def canTransitionTo : TaskStatus → TaskStatus → Bool
  | .Open, .InProgress | .Open, .Cancelled | .Open, .Disputed => true
  | .InProgress, .InProgress | .InProgress, .Completed | .InProgress, .Cancelled
  | .InProgress, .Disputed | .InProgress, .PendingValidation => true
  | .PendingValidation, .PendingValidation | .PendingValidation, .InProgress
  | .PendingValidation, .Open | .PendingValidation, .Completed
  | .PendingValidation, .Disputed => true
  | .Disputed, .Completed | .Disputed, .Cancelled => true
  | .PendingValidation, .RejectFrozen => true
  | .RejectFrozen, .Completed | .RejectFrozen, .Cancelled => true
  | _, _ => false

end TaskStatus

/-- `TaskBidState::is_open`. -/
def TaskBidState.isOpen : TaskBidState → Bool
  | .Active | .BoundActive => true
  | .Accepted => false

/-! ## The runtime -/

/-- A program-owned account: its balance beside its deserialized data. -/
structure Account (α : Type) where
  lamports : ℕ
  data : α
  deriving DecidableEq

/-- The rent sysvar. -/
structure Rent where
  lamportsPerByteYear : ℕ
  exemptionThreshold : ℕ
  deriving DecidableEq

/-- The balance an account of `dataLen` bytes needs to be exempt from rent. -/
def Rent.minimumBalance (rent : Rent) (dataLen : ℕ) : ℕ :=
  (128 + dataLen) * rent.lamportsPerByteYear * rent.exemptionThreshold

def Rent.isExempt (rent : Rent) (balance dataLen : ℕ) : Bool :=
  decide (rent.minimumBalance dataLen ≤ balance)

/-- What an instruction reads of the runtime: the clock, the rent parameters, the program's own
address, the native program and sysvar addresses no fee may be paid to (`RESERVED_PAYEE_KEYS`), and
the addresses it derives for the escrow of a task from the seeds `["escrow", task]` and for its
bids from `["bid", task, bidder]`. -/
structure Sysvars where
  now : ℤ
  rent : Rent
  programId : Pubkey := 10 ^ 9
  reservedPayeeKeys : List ℕ := []
  escrowAddress : Pubkey → Pubkey := fun task => 10 ^ 9 + 1 + task
  bidAddress : Pubkey → Pubkey → Pubkey := fun _ bidder => bidder + 1

/-- A wallet that an instruction may credit, as the caller supplies it. -/
structure PayeeAccount where
  key : Pubkey
  lamports : ℕ
  dataLen : ℕ
  deriving DecidableEq

/-! ## Account data -/

/-- `ProtocolConfig`. -/
structure ProtocolConfig where
  authority : Pubkey := 0
  treasury : Pubkey := 0
  disputeThreshold : ℕ := 50
  protocolFeeBps : ℕ := 0
  minAgentStake : ℕ := 0
  maxClaimDuration : ℤ := 0
  maxDisputeDuration : ℤ := 0
  totalAgents : ℕ := 0
  totalTasks : ℕ := 0
  completedTasks : ℕ := 0
  totalValueDistributed : ℕ := 0
  multisigThreshold : ℕ := 0
  multisigOwners : List Pubkey := []
  taskCreationCooldown : ℤ := 0
  maxTasksPer24h : ℕ := 0
  disputeInitiationCooldown : ℤ := 0
  maxDisputesPer24h : ℕ := 0
  minStakeForDispute : ℕ := 0
  slashPercentage : ℕ := 0
  votingPeriod : ℤ := 0
  protocolVersion : ℕ := 1
  minSupportedVersion : ℕ := 1
  protocolPaused : Bool := false
  disabledTaskTypeMask : List TaskType := []
  surfaceRevision : ℕ := 0
  deriving DecidableEq

/-- `AgentRegistration`. `retired` stands for the retirement marker in the reserved bytes. -/
structure AgentRegistration where
  authority : Pubkey := 0
  capabilities : BitVec 64 := 0
  status : AgentStatus := .Inactive
  registeredAt : ℤ := 0
  lastActive : ℤ := 0
  tasksCompleted : ℕ := 0
  totalEarned : ℕ := 0
  reputation : ℕ := 0
  activeTasks : ℕ := 0
  stake : ℕ := 0
  lastDisputeInitiated : ℤ := 0
  activeDisputeVotes : ℕ := 0
  lastVoteTimestamp : ℤ := 0
  lastStateUpdate : ℤ := 0
  disputesAsDefendant : ℕ := 0
  retired : Bool := false
  deriving DecidableEq

/-- `AuthorityRateLimit`. -/
structure AuthorityRateLimit where
  authority : Pubkey := 0
  lastTaskCreated : ℤ := 0
  lastDisputeInitiated : ℤ := 0
  taskCount24h : ℕ := 0
  disputeCount24h : ℕ := 0
  rateLimitWindowStart : ℤ := 0
  deriving DecidableEq

/-- `AuthorityTaskQuota`. -/
structure AuthorityTaskQuota where
  authority : Pubkey := 0
  maxTasksPer24h : ℕ := 0
  taskCount24h : ℕ := 0
  rateLimitWindowStart : ℤ := 0
  enabled : Bool := false
  deriving DecidableEq

/-- `Task`. The last six fields are the named bytes of `_reserved`. -/
structure Task where
  taskId : Hash := 0
  creator : Pubkey := 0
  requiredCapabilities : BitVec 64 := 0
  /-- The two 32-byte halves of `description`. -/
  description : Hash × Hash := (0, 0)
  constraintHash : Hash := 0
  rewardAmount : ℕ := 0
  maxWorkers : ℕ := 1
  currentWorkers : ℕ := 0
  status : TaskStatus := .Open
  taskType : TaskType := .Exclusive
  createdAt : ℤ := 0
  deadline : ℤ := 0
  completedAt : ℤ := 0
  result : ℕ := 0
  completions : ℕ := 0
  requiredCompletions : ℕ := 1
  protocolFeeBps : ℕ := 0
  dependsOn : Option Pubkey := none
  dependencyType : DependencyType := .None
  minReputation : ℕ := 0
  rewardMint : Option Pubkey := none
  operator : Pubkey := 0
  operatorFeeBps : ℕ := 0
  referrer : Pubkey := 0
  referrerFeeBps : ℕ := 0
  taskSchema : ℕ := 0
  liveSubmissions : ℕ := 0
  workerSlashPending : Bool := false
  peerSettlementPending : Bool := false
  claimGeneration : ℕ := 0
  ratingFeeQualified : Bool := false
  deriving DecidableEq

/-- `TaskEscrow`. -/
structure TaskEscrow where
  amount : ℕ := 0
  distributed : ℕ := 0
  isClosed : Bool := false
  deriving DecidableEq

/-- `TaskClaim`. -/
structure TaskClaim where
  claimedAt : ℤ := 0
  expiresAt : ℤ := 0
  completedAt : ℤ := 0
  proofHash : Hash := 0
  resultData : ℕ := 0
  isCompleted : Bool := false
  isValidated : Bool := false
  rewardPaid : ℕ := 0
  deriving DecidableEq

/-- `TaskSubmission`. -/
structure TaskSubmission where
  status : SubmissionStatus := .Idle
  proofHash : Hash := 0
  resultData : ℕ := 0
  submissionCount : ℕ := 0
  submittedAt : ℤ := 0
  reviewDeadlineAt : ℤ := 0
  acceptedAt : ℤ := 0
  rejectedAt : ℤ := 0
  rejectionHash : Hash := 0
  approvalCount : ℕ := 0
  rejectionCount : ℕ := 0
  deriving DecidableEq

/-- `TaskValidationConfig`, with the counters kept in its reserved bytes. -/
structure TaskValidationConfig where
  mode : ValidationMode := .Auto
  reviewWindowSecs : ℤ := 0
  createdAt : ℤ := 0
  updatedAt : ℤ := 0
  validatorQuorum : ℕ := 0
  pendingSubmissionCount : ℕ := 0
  reviewDebtSecs : ℕ := 0
  deriving DecidableEq

/-- `CompletionBond`; its address is the pair of task and party. -/
structure CompletionBond where
  role : BondRole
  amount : ℕ := 0
  postedAt : ℤ := 0
  deriving DecidableEq

/-- `HireRecord`. -/
structure HireRecord where
  listing : Pubkey := 0
  operator : Pubkey := 0
  operatorFeeBps : ℕ := 0
  designatedProvider : Pubkey := 0
  referrer : Pubkey := 0
  referrerFeeBps : ℕ := 0
  deriving DecidableEq

/-- `TaskJobSpec`, without the document's location. -/
structure TaskJobSpec where
  jobSpecHash : Hash := 0
  updatedAt : ℤ := 0
  bidLocked : Bool := false
  deriving DecidableEq

/-- `ServiceListing`, for the fields a hire reads. -/
structure ServiceListing where
  key : Pubkey := 0
  authority : Pubkey := 0
  providerAgent : Pubkey := 0
  specHash : Hash := 0
  price : ℕ := 0
  priceMint : Option Pubkey := none
  requiredCapabilities : BitVec 64 := 0
  defaultDeadlineSecs : ℤ := 0
  operator : Pubkey := 0
  operatorFeeBps : ℕ := 0
  active : Bool := false
  maxOpenJobs : ℕ := 0
  openJobs : ℕ := 0
  version : ℕ := 0
  deriving DecidableEq

/-- `WeightedScoreWeights`. -/
structure WeightedScoreWeights where
  priceWeightBps : ℕ := 0
  etaWeightBps : ℕ := 0
  confidenceWeightBps : ℕ := 0
  reliabilityWeightBps : ℕ := 0
  deriving DecidableEq

/-- `TaskBidBook`. The accepted bid is named by its bidder; the tracked best bid by its address,
whose order breaks ties. -/
structure TaskBidBook where
  state : BidBookState := .Open
  policy : MatchingPolicy := .BestPrice
  weights : WeightedScoreWeights := {}
  acceptedBid : Option Pubkey := none
  version : ℕ := 0
  totalBids : ℕ := 0
  activeBids : ℕ := 0
  updatedAt : ℤ := 0
  bestBid : Pubkey := 0
  bestRewardLamports : ℕ := 0
  bestEtaSeconds : ℕ := 0
  bestConfidenceBps : ℕ := 0
  bestReputationBps : ℕ := 0
  winnerStaleSince : ℤ := 0
  scoreWindowSecs : ℕ := 0
  deriving DecidableEq

/-- `TaskBid`, kept by its task and bidder. -/
structure TaskBid where
  bidderAuthority : Pubkey := 0
  requestedRewardLamports : ℕ := 0
  etaSeconds : ℕ := 0
  confidenceBps : ℕ := 0
  reputationSnapshotBps : ℕ := 0
  qualityGuaranteeHash : Hash := 0
  metadataHash : Hash := 0
  expiresAt : ℤ := 0
  createdAt : ℤ := 0
  updatedAt : ℤ := 0
  state : TaskBidState := .Active
  bondLamports : ℕ := 0
  acceptedNoShowSlashBps : ℕ := 0
  deriving DecidableEq

/-- `BidMarketplaceConfig`. -/
structure BidMarketplaceConfig where
  minBidBondLamports : ℕ := 0
  bidCreationCooldownSecs : ℤ := 0
  maxBidsPer24h : ℕ := 0
  maxActiveBidsPerTask : ℕ := 0
  maxBidLifetimeSecs : ℤ := 0
  acceptedNoShowSlashBps : ℕ := 0
  deriving DecidableEq

/-- `BidderMarketState`. -/
structure BidderMarketState where
  lastBidCreatedAt : ℤ := 0
  bidWindowStartedAt : ℤ := 0
  bidsCreatedInWindow : ℕ := 0
  activeBidCount : ℕ := 0
  totalBidsCreated : ℕ := 0
  totalBidsAccepted : ℕ := 0
  deriving DecidableEq

/-- `Dispute`. `initiatorTracked` says that `total_voters` holds the outcome-counter marker. -/
structure Dispute where
  task : Pubkey := 0
  initiator : Pubkey := 0
  initiatorAuthority : Pubkey := 0
  evidenceHash : Hash := 0
  resolutionType : ResolutionType := .Refund
  status : DisputeStatus := .Active
  createdAt : ℤ := 0
  resolvedAt : ℤ := 0
  votesFor : ℕ := 0
  votesAgainst : ℕ := 0
  initiatorTracked : Bool := false
  votingDeadline : ℤ := 0
  expiresAt : ℤ := 0
  slashApplied : Bool := false
  initiatorSlashApplied : Bool := false
  workerStakeAtDispute : ℕ := 0
  initiatedByCreator : Bool := false
  defendant : Pubkey := 0
  resolvedBy : Pubkey := 0
  peerWorkersTotal : ℕ := 0
  peerWorkersSettled : ℕ := 0
  pendingTerminalStatus : DisputeStatus := .Active
  deriving DecidableEq

/-! ## Grouping by task -/

/-- All accounts derived from one task address. -/
structure TaskAccounts where
  task : Task
  escrow : Option (Account TaskEscrow) := none
  /-- The balance of the escrow's token account, for tasks rewarded in an SPL token. -/
  tokenEscrow : Option ℕ := none
  claims : Ledger Pubkey (Account TaskClaim) := ∅
  submissions : Ledger Pubkey (Account TaskSubmission) := ∅
  validation : Option TaskValidationConfig := none
  attestor : Option Pubkey := none
  /-- The round of each reviewer's vote on each worker's submission. -/
  votes : Ledger (Pubkey × Pubkey) ℕ := ∅
  bonds : Ledger Pubkey (Account CompletionBond) := ∅
  hire : Option HireRecord := none
  jobSpec : Option TaskJobSpec := none
  bidBook : Option TaskBidBook := none
  bids : Ledger Pubkey (Account TaskBid) := ∅
  deriving DecidableEq

/-- The program's accounts and the sysvars. -/
structure World where
  sys : Sysvars
  config : ProtocolConfig := {}
  bidMarketplace : Option BidMarketplaceConfig := none
  agents : Ledger Pubkey (Account AgentRegistration) := ∅
  rateLimits : Ledger Pubkey AuthorityRateLimit := ∅
  quotas : Ledger Pubkey AuthorityTaskQuota := ∅
  bidders : Ledger Pubkey BidderMarketState := ∅
  tasks : Ledger Pubkey TaskAccounts := ∅
  disputes : Ledger Pubkey Dispute := ∅
  /-- The wallets with a `DisputeResolver` entry. -/
  resolvers : List Pubkey := []
  /-- The disputes with a `DisputeCounterRepair` receipt. -/
  counterRepairs : List Pubkey := []

/-! ## Money in motion -/

/-- The account a payment leaves. -/
inductive Custody
  | escrow (task : Pubkey)
  | tokenEscrow (task : Pubkey)
  | claim (task worker : Pubkey)
  | submission (task worker : Pubkey)
  | bond (task party : Pubkey)
  | bid (task bidder : Pubkey)
  | agent (key : Pubkey)
  deriving DecidableEq, Repr

/-- What a payment is for. -/
inductive Purpose
  | workerReward
  | protocolFee
  | operatorFee
  | referrerFee
  | cleanupReward
  /-- The creator's part of a refund or of a ruling. -/
  | creatorRefund
  /-- The balance left when an account is closed. -/
  | closingBalance
  /-- A bond principal taken from its poster. -/
  | bondForfeit
  /-- A bond principal taken because its poster did not show up. -/
  | noShowForfeit
  /-- What a settled bond returns to its poster. -/
  | bondRefund
  /-- An entry deposit or reserve that goes to the treasury. -/
  | depositForfeit
  | stakeSlash
  deriving DecidableEq, Repr

/-- One payment out of program custody. -/
structure Transfer where
  source : Custody
  recipient : Pubkey
  purpose : Purpose
  amount : ℕ
  deriving DecidableEq, Repr

end AgencCoordination
