import AgencCoordination.Program.State

/-!
# Results, limits and constants

The error codes the modelled handlers return, the machine-integer operations they use, the
constants of `constants.rs` and `state.rs`, and the accounts one task instruction loads.
-/

namespace AgencCoordination

open Foundations

/-- The variants of `CoordinationError` the modelled code returns. `AccountNotInitialized` and
`AccountAlreadyInUse` stand for the framework's own account errors. -/
inductive CoordinationError
  | AccountAlreadyInUse
  | AccountNotInitialized
  | AccountVersionTooNew
  | AccountVersionTooOld
  | ActiveDisputeVotes
  | ActiveDisputesExist
  | AgentBusyWithTasks
  | AgentHasActiveBids
  | AgentHasActiveTasks
  | AgentNotActive
  | AgentSuspended
  | AlreadyClaimed
  | ArithmeticOverflow
  | AttestorBondMissing
  | AttestorExitAlreadyRequested
  | AttestorExitCooldownActive
  | AttestorExitNotRequested
  | AttestorExiting
  | AttestorNotSelfRegistered
  | BidAlreadyAccepted
  | BidBookCacheMismatch
  | BidBookCapacityReached
  | BidBookEnumerationMismatch
  | BidBookNotAccepted
  | BidBookNotOpen
  | BidBookScoreWindowInvalid
  | BidDoesNotSatisfyMatchingPolicy
  | BidExclusiveRequiresSingleWorker
  | BidJobSpecBindingRequired
  | BidJobSpecMismatch
  | BidLeaderRetreat
  | BidNotActive
  | BidNotBetterThanTrackedBest
  | BidNotBookBest
  | BidNotExpired
  | BidPriceExceedsTaskBudget
  | BidRepromotionGraceActive
  | BidSettlementAccountsRequired
  | BidTaskRequiresAcceptance
  | BidTaskSolOnly
  | BidWinnerStillEligible
  | BondNotTiedToNoShowWorker
  | BondPartyMismatch
  | BondRoleMismatch
  | BondUnsupportedTaskType
  | ClaimAlreadyCompleted
  | ClaimExpired
  | ClaimNotExpired
  | ClaimReclaimRequiresNoSubmission
  | ClaimReclaimRequiresTerminalTask
  | ClaimSettlementPending
  | ClaimSlashPending
  | CombinedFeeAboveCap
  | CompetitiveTaskAlreadyWon
  | CompletingAcceptRequiresSoleLiveSubmission
  | ConfigNotMigratable
  | ConstraintHashMismatch
  | ContentBlocked
  | ContestAcceptRequiresSoleLiveSubmission
  | ContestAutoAcceptDisabled
  | ContestDisputeUnsupported
  | ContestFlowUnsupported
  | ContestForfeitTreasuryRequired
  | ContestGhostShareUnavailable
  | ContestGhostWindowNotReached
  | ContestHasLiveSubmissions
  | ContestSelectionWindowElapsed
  | ContestSolRewardOnly
  | CooldownNotElapsed
  | CooldownTooLong
  | CorruptedData
  | CreatorAuthorityMismatch
  | DeadlinePassed
  | DisputeAlreadyResolved
  | DisputeCounterNotDeficient
  | DisputeCounterRepairNotApplicable
  | DisputeDefendantNotPeer
  | DisputeNotActive
  | DisputeNotExpired
  | DisputeNotResolved
  | DisputeResolutionWindowExpired
  | DisputeSettlementNotPending
  | DisputeTerminalStatusCorrupt
  | GoodsInvalidId
  | GoodsInvalidMetadata
  | GoodsInvalidName
  | GoodsInvalidOperatorTerms
  | GoodsInvalidSupply
  | GoodsMetadataChanged
  | GoodsNotActive
  | GoodsPriceBelowMinimum
  | GoodsPriceChanged
  | GoodsSelfPurchase
  | GoodsSerialStale
  | GoodsSoldOut
  | GoodsSurfaceNotEnabled
  | GoodsUnauthorizedUpdate
  | GracePeriodNotPassed
  | HiredTaskJobSpecMismatch
  | HiredTaskValidationUnsupported
  | IncompleteWorkerAccounts
  | InitiatorCannotResolve
  | InsufficientCapabilities
  | InsufficientEscrowBalance
  | InsufficientFunds
  | InsufficientFundsForRent
  | InsufficientReputation
  | InsufficientSeedEntropy
  | InsufficientStake
  | InsufficientStakeForCreatorDispute
  | InsufficientStakeForDispute
  | InsufficientVotes
  | InvalidAccountOwner
  | InvalidAttestor
  | InvalidBidConfidence
  | InvalidBidEta
  | InvalidBidExpiry
  | InvalidBidMarketplaceConfig
  | InvalidCapabilities
  | InvalidCooldown
  | InvalidCreator
  | InvalidDeadline
  | InvalidDependencyType
  | InvalidDescription
  | InvalidDisputeResolver
  | InvalidDisputeThreshold
  | InvalidEvidenceHash
  | InvalidExpiration
  | InvalidGovernanceParam
  | InvalidHireRecord
  | InvalidImageId
  | InvalidInput
  | InvalidJournalAuthority
  | InvalidJournalBinding
  | InvalidJournalLength
  | InvalidJournalTask
  | InvalidMatchingPolicy
  | InvalidMaxWorkers
  | InvalidMigrationSource
  | InvalidMigrationTarget
  | InvalidMinReputation
  | InvalidMinStake
  | InvalidModerationAttestor
  | InvalidModerationLivenessWindow
  | InvalidModerationRationale
  | InvalidModerationRecord
  | InvalidNullifier
  | InvalidOperatorAccount
  | InvalidOutputCommitment
  | InvalidPda
  | InvalidProofHash
  | InvalidProtocolFee
  | InvalidReferrerAccount
  | InvalidRentRecipient
  | InvalidRequiredCapabilities
  | InvalidResultData
  | InvalidReviewWindow
  | InvalidReward
  | InvalidSealEncoding
  | InvalidSlashAmount
  | InvalidSlashPercentage
  | InvalidStatusTransition
  | InvalidSurfaceRevision
  | InvalidTaskId
  | InvalidTaskJobSpecHash
  | InvalidTaskJobSpecUri
  | InvalidTaskModerationAuthority
  | InvalidTaskModerationRiskScore
  | InvalidTaskQuota
  | InvalidTaskQuotaAccount
  | InvalidTokenMint
  | InvalidTreasury
  | InvalidValidationMode
  | InvalidValidatorQuorum
  | InvalidWeightedScoreWeights
  | ListingActiveRequired
  | ListingCapabilitiesRequired
  | ListingCapacityBelowOpenJobs
  | ListingCapacityReached
  | ListingInvalidId
  | ListingInvalidName
  | ListingInvalidSpec
  | ListingInvalidStateTransition
  | ListingNotActive
  | ListingOperatorFeeTooHigh
  | ListingOperatorRequired
  | ListingPriceMismatch
  | ListingPriceTooLow
  | ListingRetired
  | ListingVersionMismatch
  | LiveWorkerBondsExist
  | ManualValidationPrivateTaskUnsupported
  | ManualValidationRequiresReviewFlow
  | MarketplacePayeeAccountAlias
  | MarketplacePayeeUnpayable
  | MaxActiveTasksReached
  | MaxRevisionRoundsExceeded
  | MissingCompletionBondAccount
  | MissingOperatorAccount
  | MissingReferrerAccount
  | MissingTokenAccounts
  | ModerationAttestorMismatch
  | MultisigDefaultSigner
  | MultisigDuplicateSigner
  | MultisigInvalidSigners
  | MultisigInvalidThreshold
  | MultisigNotEnoughSigners
  | MultisigSignerNotSystemOwned
  | NoWorkers
  | NotClaimed
  | NotPrivateTask
  | NotTaskParticipant
  | OperatorIsCreator
  | ParentTaskAccountRequired
  | ParentTaskCancelled
  | ParentTaskDisputed
  | ParentTaskNotCompleted
  | PrivateTaskCreationDisabled
  | PrivateTaskRequiresZkProof
  | ProposalInsufficientStake
  | ProposalNotActive
  | ProposalVotingEnded
  | ProposalVotingNotEnded
  | ProtocolPaused
  | RateLimitBelowMinimum
  | RateLimitExceeded
  | RateLimitTooHigh
  | RecentVoteActivity
  | ReferrerFeeTooHigh
  | ReferrerIsCreator
  | RejectFrozenSingleWorkerOnly
  | RejectFrozenSolOnly
  | RejectFrozenTimeoutNotElapsed
  | ReleaseUnpauseRequiresCurrentSurface
  | ReputationStakeNotWithdrawn
  | ResolverConflictOfInterest
  | ReviewWindowNotElapsed
  | RewardTooSmall
  | RouterAccountMismatch
  | SelfTaskNotAllowed
  | SlashAlreadyApplied
  | SlashWindowExpired
  | StakeTooLow
  | StaleBidAcceptance
  | SubmissionAlreadyPending
  | SubmissionAlreadyResolved
  | SubmissionNotPending
  | SubmissionRentAccountsRequired
  | TaskAlreadyCompleted
  | TaskAttestorConfigRequired
  | TaskCannotBeCancelled
  | TaskChildRequiresDedicatedCleanup
  | TaskDiscriminatorMismatch
  | TaskExpired
  | TaskFrozenCannotDispute
  | TaskFullyClaimed
  | TaskHasLiveCompletionBond
  | TaskJobSpecBidLocked
  | TaskJobSpecRequired
  | TaskModerationExpired
  | TaskModerationRejected
  | TaskModerationRequired
  | TaskModerationTaskMismatch
  | TaskNotBidExclusive
  | TaskNotClosable
  | TaskNotFound
  | TaskNotInProgress
  | TaskNotMigratable
  | TaskNotOpen
  | TaskNotPendingValidation
  | TaskNotRejectFrozen
  | TaskQuotaUnavailable
  | TaskSubmissionRequired
  | TaskTypeDisabled
  | TaskValidationConfigRequired
  | TaskValidationImmutableAfterClaim
  | TimelockNotElapsed
  | TokenTransferFailed
  | TrustedSelectorMismatch
  | TrustedVerifierProgramMismatch
  | UnauthorizedAgent
  | UnauthorizedAttestorRevocation
  | UnauthorizedCreator
  | UnauthorizedModerationAttestor
  | UnauthorizedModerationHeartbeat
  | UnauthorizedProtocolAuthority
  | UnauthorizedResolver
  | UnauthorizedTaskAction
  | UnauthorizedTaskModerator
  | UnauthorizedTaskValidator
  | UpdateTooFrequent
  | ValidationAlreadyRecorded
  | ValidationModeMismatch
  | ValidationModeUnsupportedTaskType
  | ValidatorAgentRequired
  | VersionMismatchProtocol
  | VoteOverflow
  | WorkerAccountsRequired
  | WorkerAgentRequired
  | WorkerClaimRequired
  | WorkerNotInDispute
  | ZkVerificationFailed
  deriving DecidableEq, Repr

/-- The result of a handler. -/
abbrev Result := Except CoordinationError

/-! ## Machine integers -/

def u8Limit : ℕ := 2 ^ 8
def u16Limit : ℕ := 2 ^ 16
def u64Limit : ℕ := 2 ^ 64
def i64Max : ℤ := 2 ^ 63 - 1
def i64Min : ℤ := -2 ^ 63

/-- `u8::checked_add(..).ok_or(ArithmeticOverflow)`. -/
def addU8 (a b : ℕ) : Result ℕ := checkedAdd u8Limit a b .ArithmeticOverflow

/-- `u16::checked_add(..).ok_or(ArithmeticOverflow)`. -/
def addU16 (a b : ℕ) : Result ℕ := checkedAdd u16Limit a b .ArithmeticOverflow

/-- `u64::checked_add(..).ok_or(ArithmeticOverflow)`. -/
def addU64 (a b : ℕ) : Result ℕ := checkedAdd u64Limit a b .ArithmeticOverflow

/-- `checked_sub(..).ok_or(ArithmeticOverflow)` of an unsigned integer of any width. -/
def subU (a b : ℕ) : Result ℕ := checkedSub a b .ArithmeticOverflow

/-- `i64::checked_add(..).ok_or(ArithmeticOverflow)`. -/
def addI64 (a b : ℤ) : Result ℤ :=
  if i64Min ≤ a + b ∧ a + b ≤ i64Max then .ok (a + b) else .error .ArithmeticOverflow

/-- `i64::saturating_add`. -/
def satAddI64 (a b : ℤ) : ℤ := max i64Min (min i64Max (a + b))

/-- `saturating_add` of an unsigned integer below `limit`. -/
def satAdd (limit a b : ℕ) : ℕ := min (limit - 1) (a + b)

@[simp] theorem addU8_eq_ok {a b r : ℕ} : addU8 a b = .ok r ↔ a + b < u8Limit ∧ r = a + b :=
  checkedAdd_eq_ok

@[simp] theorem addU16_eq_ok {a b r : ℕ} : addU16 a b = .ok r ↔ a + b < u16Limit ∧ r = a + b :=
  checkedAdd_eq_ok

@[simp] theorem addU64_eq_ok {a b r : ℕ} : addU64 a b = .ok r ↔ a + b < u64Limit ∧ r = a + b :=
  checkedAdd_eq_ok

@[simp] theorem subU_eq_ok {a b r : ℕ} : subU a b = .ok r ↔ b ≤ a ∧ r = a - b :=
  checkedSub_eq_ok

@[simp] theorem addI64_eq_ok {a b r : ℤ} :
    addI64 a b = .ok r ↔ (i64Min ≤ a + b ∧ a + b ≤ i64Max) ∧ r = a + b := by
  unfold addI64
  split
  · rename_i h
    simp [h, eq_comm]
  · rename_i h
    simp [h]

/-! ## Constants -/

def basisPointsDivisor : ℕ := 10000
def maxOperatorFeeBps : ℕ := 2000
def maxReferrerFeeBps : ℕ := 2000
def maxCombinedFeeBps : ℕ := 4000
def workerFloorBps : ℕ := 6000
def reputationPerCompletion : ℕ := 100
def reputationFeeLamportsPerPoint : ℕ := 100000
def minRatingProtocolFeeLamports : ℕ := reputationFeeLamportsPerPoint
def maxReputation : ℕ := 10000
def window24h : ℤ := 86400
def reputationSlashLoss : ℕ := 300
def reputationDecayRate : ℕ := 50
def reputationDecayPeriod : ℤ := 2592000
def reputationDecayMin : ℕ := 1000
def disputeSafeMaxWorkers : ℕ := 4
def maxDeadlineSeconds : ℤ := 31536000
def selectionWindowSecs : ℤ := 172800
def contestEntryDepositLamports : ℕ := 10000000
def maxActiveTasks : ℕ := 10
def completionBuffer : ℤ := 3600
def cleanupReward : ℕ := 1000
def gracePeriod : ℤ := 60
def maxReviewWindowSecs : ℤ := 604800
def maxRevisionRounds : ℕ := 3
def bondBps : ℕ := 2500
def slashWindow : ℤ := 604800
def votingDeadlineGrace : ℤ := 120
def taskSchemaContestAware : ℕ := 1

/-- The digest `agenc-manual-validation-v2-seed!`, read as a big-endian number. -/
def manualValidationSentinel : Hash :=
  44057031612668777060963584093931544848924201587811500815837928323530768081953

/-- Allocated sizes of the accounts whose rent the handlers compute or refund. -/
def taskEscrowSize : ℕ := 58
def taskClaimSize : ℕ := 203
def taskSubmissionSize : ℕ := 273
def taskBidSize : ℕ := 252
def completionBondSize : ℕ := 139

/-! ## Versions and launch controls -/

/-- `check_version_range`: this program is version 1 and supports version 1 only. -/
def checkVersionRange (config : ProtocolConfig) : Result Unit := do
  require (config.minSupportedVersion ≤ config.protocolVersion) .AccountVersionTooOld
  require (config.protocolVersion ≤ 1) .AccountVersionTooNew
  require (1 ≤ config.minSupportedVersion ∧ config.minSupportedVersion ≤ 1)
    .VersionMismatchProtocol

/-- `check_version_compatible`: entry instructions also stop while the protocol is paused. -/
def checkVersionCompatible (config : ProtocolConfig) : Result Unit := do
  require (config.protocolPaused = false) .ProtocolPaused
  checkVersionRange config

/-- `check_version_compatible_for_exit`. -/
def checkVersionCompatibleForExit (config : ProtocolConfig) : Result Unit :=
  checkVersionRange config

/-- `require_task_type_enabled`. -/
def requireTaskTypeEnabled (config : ProtocolConfig) (taskType : TaskType) : Result Unit :=
  require (taskType ∉ config.disabledTaskTypeMask) .TaskTypeDisabled

/-! ## The accounts of one instruction -/

/-- The accounts a task instruction loads, and the payments it has made so far: the task's own
accounts, the worker agent it names, that agent's bidder record, the status of the task this
one depends on (when that account is passed), and the protocol configuration. -/
structure TaskContext where
  sys : Sysvars
  key : Pubkey
  accounts : TaskAccounts
  workerKey : Pubkey
  worker : Account AgentRegistration
  bidder : Option BidderMarketState
  parent : Option TaskStatus
  config : ProtocolConfig
  paid : List Transfer := []

namespace TaskContext

/-- The task record of the context. -/
abbrev task (c : TaskContext) : Task := c.accounts.task

/-- Record payments. -/
def pay (c : TaskContext) (ts : List Transfer) : TaskContext := { c with paid := c.paid ++ ts }

end TaskContext

end AgencCoordination
