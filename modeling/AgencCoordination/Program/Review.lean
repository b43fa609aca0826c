import AgencCoordination.Program.Claiming

/-!
# Submitting, reviewing and completing

A worker submits a result, its reviewer accepts it, rejects it, asks for changes or freezes the
task, and a worker whose task needs no review completes it directly. Every handler that pays
goes through `executeCompletionRewards`; every handler that takes a submission out of review
goes through `leaveReview`.
-/

namespace AgencCoordination

open Foundations

/-! ## Pieces -/

/-- Close the claim of the context's worker to `recipient`. -/
def closeClaim (c : TaskContext) (recipient : Pubkey) : Result TaskContext := do
  let claim ← demand (c.accounts.claims.lookup c.workerKey) .NotClaimed
  .ok ({ c with accounts := { c.accounts with
    claims := c.accounts.claims.erase c.workerKey } }.pay
    [⟨.claim c.key c.workerKey, recipient, .closingBalance, claim.lamports⟩])

/-- Close the submission of the context's worker to `recipient`. -/
def closeSubmission (c : TaskContext) (recipient : Pubkey) : Result TaskContext := do
  let submission ← demand (c.accounts.submissions.lookup c.workerKey) .TaskSubmissionRequired
  .ok ({ c with accounts := { c.accounts with
    submissions := c.accounts.submissions.erase c.workerKey } }.pay
    [⟨.submission c.key c.workerKey, recipient, .closingBalance, submission.lamports⟩])

/-- `decrement_pending_submission_count` and `note_submission_left_review`. -/
def leaveReview (c : TaskContext) (config : TaskValidationConfig) : Result TaskContext := do
  let config ← decrementPendingSubmissionCount config
  let task ← noteSubmissionLeftReview c.task
  .ok { c with accounts := { c.accounts with task := task, validation := some config } }

/-- `release_claim_slot` on the context. -/
def releaseSlot (c : TaskContext) : Result TaskContext := do
  let (task, worker) ← releaseClaimSlot c.task c.worker.data c.sys.now
  .ok { c with
    accounts := { c.accounts with task := task }
    worker := { c.worker with data := worker } }

/-- `sync_task_validation_status` with the stored configuration. -/
def syncStatus (c : TaskContext) : TaskContext :=
  match c.accounts.validation with
  | some config => { c with accounts := { c.accounts with
      task := syncTaskValidationStatus c.task config } }
  | none => c

/-- Overwrite the submission of the context's worker. -/
def setSubmission (c : TaskContext) (submission : Account TaskSubmission) : TaskContext :=
  { c with accounts := { c.accounts with
    submissions := c.accounts.submissions.insert c.workerKey submission } }

/-- Settle the accepted bid of a bid task, and nothing otherwise. -/
def settleBidOf (c : TaskContext) (bookDisposition : AcceptedBidBookDisposition)
    (bondDisposition : AcceptedBidBondDisposition) : Result TaskContext :=
  if c.task.taskType = .BidExclusive then
    settleAcceptedBid c c.worker.data.authority bookDisposition bondDisposition
  else .ok c

/-! ## Submitting -/

/-- `submit_task_result`. -/
def submitTaskResult (c : TaskContext) (signer : Pubkey) (proofHash : Hash)
    (resultData : Option ℕ) (prefunded : ℕ) : Result TaskContext := do
  let now := c.sys.now
  require (c.worker.data.authority = signer) .UnauthorizedAgent
  let claim ← demand (c.accounts.claims.lookup c.workerKey) .AccountNotInitialized
  let submission := (c.accounts.submissions.lookup c.workerKey).getD
    ⟨initBalance c.sys.rent taskSubmissionSize prefunded, {}⟩
  checkVersionCompatibleForExit c.config
  require (c.task.status = .InProgress ∨ c.task.status = .PendingValidation) .TaskNotInProgress
  let config ← ensureValidationConfig c.accounts none
  require (proofHash ≠ 0) .InvalidProofHash
  require (resultData ≠ some 0) .InvalidResultData
  require (0 < c.task.deadline → now ≤ c.task.deadline) .DeadlinePassed
  require (now ≤ claim.data.expiresAt) .ClaimExpired
  require (0 < claim.data.claimedAt) .NotClaimed
  require (claim.data.isCompleted = false) .ClaimAlreadyCompleted
  require (submission.data.status ≠ .Submitted) .SubmissionAlreadyPending
  require (submission.data.status ≠ .Accepted) .SubmissionAlreadyResolved
  let count ← addU16 submission.data.submissionCount 1
  let config ← incrementPendingSubmissionCount config
  let task ← noteSubmissionEnteredReview c.task
  let reviewDeadlineAt ← addI64 now config.reviewWindowSecs
  .ok { c with accounts := { c.accounts with
    task := { task with status := .PendingValidation }
    validation := some config
    claims := c.accounts.claims.insert c.workerKey { claim with data := { claim.data with
      proofHash := proofHash
      resultData := resultData.getD 0
      completedAt := 0
      isCompleted := false
      isValidated := false } }
    submissions := c.accounts.submissions.insert c.workerKey { submission with data :=
      { status := .Submitted
        proofHash := proofHash
        resultData := resultData.getD 0
        submissionCount := count
        submittedAt := now
        reviewDeadlineAt := reviewDeadlineAt } } } }

/-! ## Accepting -/

/-- The accounts an accept pays the marketplace legs to. -/
structure PayeeAccounts where
  operator : Option PayeeAccount := none
  referrer : Option PayeeAccount := none
  deriving DecidableEq

/-- What every acceptance does once its own conditions hold: pay the worker, take the
submission out of review, close claim and submission, give both bonds back. -/
def payAcceptedSubmission (c : TaskContext) (config : TaskValidationConfig)
    (submission : TaskSubmission)
    (feeLegs : TaskContext → Result (Option FeeLeg × Option FeeLeg)) : Result TaskContext := do
  validateCompletingAcceptSoleSubmission c.task
  validateTaskDependency c
  let c ← leaveReview c config
  let price ← loadBidTaskCompletionMeta c
  let feeBps := calculateFeeWithReputation c.task.protocolFeeBps c.worker.data.reputation
  let (operatorLeg, referrerLeg) ← feeLegs c
  let c ← executeCompletionRewards c feeBps price (some submission.resultData) operatorLeg
    referrerLeg
  let c := syncStatus c
  let c ← finalizeBidTaskCompletion c
  let c ← closeClaim c c.worker.data.authority
  let c ← closeSubmission c c.worker.data.authority
  let c ← settleCompletionBond c c.task.creator .Creator .Refund
  settleCompletionBond c c.worker.data.authority .Worker .Refund

/-- `accept_task_result`. -/
def acceptTaskResult (c : TaskContext) (signer : Pubkey) (payees : PayeeAccounts) :
    Result TaskContext := do
  require (c.task.creator = signer) .InvalidCreator
  let _ ← demand (c.accounts.claims.lookup c.workerKey) .AccountNotInitialized
  let submission ← demand (c.accounts.submissions.lookup c.workerKey) .AccountNotInitialized
  checkVersionCompatibleForExit c.config
  require (c.task.status = .PendingValidation) .TaskNotPendingValidation
  require (submission.data.status = .Submitted) .SubmissionNotPending
  let config ← ensureValidationConfig c.accounts (some .CreatorReview)
  validateContestAcceptWindow c.task c.sys.now
  payAcceptedSubmission c config submission.data
    fun c => buildMarketplaceFeeLegs c payees.operator payees.referrer

/-- `auto_accept_task_result`: anybody, once the creator's review window has run out. -/
def autoAcceptTaskResult (c : TaskContext) (payees : PayeeAccounts) : Result TaskContext := do
  let _ ← demand (c.accounts.claims.lookup c.workerKey) .AccountNotInitialized
  let submission ← demand (c.accounts.submissions.lookup c.workerKey) .AccountNotInitialized
  checkVersionCompatibleForExit c.config
  require (c.task.status = .PendingValidation) .TaskNotPendingValidation
  let config ← ensureValidationConfig c.accounts (some .CreatorReview)
  require (submission.data.status = .Submitted) .SubmissionNotPending
  require (c.task.isContestTask = false) .ContestAutoAcceptDisabled
  require (satAddI64 config.reviewDebtSecs submission.data.reviewDeadlineAt ≤ c.sys.now)
    .ReviewWindowNotElapsed
  payAcceptedSubmission c config submission.data
    fun c => buildMarketplaceFeeLegs c payees.operator payees.referrer

/-! ## Rejecting -/

/-- What every rejection that ends a claim does, up to the closing of accounts. -/
def releaseRejected (c : TaskContext) (config : TaskValidationConfig)
    (submission : Account TaskSubmission) (rejectionHash : Hash) : Result TaskContext := do
  let c ← leaveReview c config
  let c ← releaseSlot c
  let c := setSubmission c { submission with data := { submission.data with
    status := .Rejected
    acceptedAt := 0
    rejectedAt := c.sys.now
    rejectionHash := rejectionHash } }
  let c ← settleBidOf c .Reopen .Refund
  settleCompletionBond (syncStatus c) c.worker.data.authority .Worker .Refund

/-- `reject_task_result`. -/
def rejectTaskResult (c : TaskContext) (signer : Pubkey) (rejectionHash : Hash) :
    Result TaskContext := do
  require (c.task.creator = signer) .UnauthorizedTaskAction
  let _ ← demand (c.accounts.claims.lookup c.workerKey) .AccountNotInitialized
  let submission ← demand (c.accounts.submissions.lookup c.workerKey) .AccountNotInitialized
  checkVersionCompatibleForExit c.config
  require (c.task.status = .PendingValidation) .TaskNotPendingValidation
  let config ← ensureValidationConfig c.accounts (some .CreatorReview)
  require (submission.data.status = .Submitted) .SubmissionNotPending
  validateContestRejectWindow c.task c.sys.now
  require (rejectionHash ≠ 0) .InvalidEvidenceHash
  let c ← releaseRejected c config submission rejectionHash
  let c ← closeClaim c c.worker.data.authority
  closeSubmission c c.worker.data.authority

/-- `request_changes`: the submission goes back to its worker, who keeps the claim and gets a
full review window to resubmit. -/
def requestChanges (c : TaskContext) (signer : Pubkey) (changesHash : Hash) :
    Result TaskContext := do
  require (c.task.creator = signer) .UnauthorizedTaskAction
  let claim ← demand (c.accounts.claims.lookup c.workerKey) .AccountNotInitialized
  let submission ← demand (c.accounts.submissions.lookup c.workerKey) .AccountNotInitialized
  checkVersionCompatibleForExit c.config
  require (c.task.status = .PendingValidation) .TaskNotPendingValidation
  let config ← ensureValidationConfig c.accounts (some .CreatorReview)
  require (submission.data.status = .Submitted) .SubmissionNotPending
  require (isContestConfiguredTask c.task = false) .ContestFlowUnsupported
  require (changesHash ≠ 0) .InvalidEvidenceHash
  require (submission.data.submissionCount < maxRevisionRounds) .MaxRevisionRoundsExceeded
  let minResubmitDeadline ← addI64 c.sys.now (max config.reviewWindowSecs 0)
  let expiresAt :=
    if 0 < claim.data.expiresAt ∧ claim.data.expiresAt < minResubmitDeadline then
      minResubmitDeadline
    else claim.data.expiresAt
  let c := { c with accounts := { c.accounts with
    claims := c.accounts.claims.insert c.workerKey { claim with data := { claim.data with
      proofHash := 0
      resultData := 0
      isCompleted := false
      isValidated := false
      completedAt := 0
      expiresAt := expiresAt } } } }
  let c ← leaveReview c config
  let c := syncStatus (setSubmission c { submission with data := { submission.data with
    status := .Rejected
    acceptedAt := 0
    rejectedAt := c.sys.now
    rejectionHash := changesHash } })
  let deadline :=
    if 0 < c.task.deadline ∧ c.task.deadline < minResubmitDeadline then minResubmitDeadline
    else c.task.deadline
  .ok { c with accounts := { c.accounts with task := { c.task with deadline := deadline } } }

/-! ## Reviewers other than the creator -/

/-- `capability::VALIDATOR`. -/
def validatorCapability : BitVec 64 := 256#64

/-- Who may vote on a submission, and how many votes decide (the mode match of
`validate_task_result`). -/
def reviewQuorum (c : TaskContext) (config : TaskValidationConfig) (reviewer : Pubkey)
    (validator : Option (Pubkey × AgentRegistration)) : Result ℕ :=
  match config.mode with
  | .ValidatorQuorum => do
      let (validatorKey, agent) ← demand validator .ValidatorAgentRequired
      require (agent.authority = reviewer) .UnauthorizedAgent
      require (agent.status = .Active) .AgentNotActive
      require (agent.capabilities &&& validatorCapability = validatorCapability)
        .UnauthorizedTaskValidator
      require (c.config.minStakeForDispute ≤ agent.stake) .UnauthorizedTaskValidator
      require (reviewer ≠ c.task.creator ∧ reviewer ≠ c.worker.data.authority ∧
        validatorKey ≠ c.workerKey) .UnauthorizedTaskValidator
      .ok config.validatorQuorum
  | .ExternalAttestation => do
      let attestor ← demand c.accounts.attestor .TaskAttestorConfigRequired
      require (attestor = reviewer) .InvalidAttestor
      require (attestor ≠ c.task.creator ∧ attestor ≠ c.worker.data.authority) .InvalidAttestor
      .ok 1
  | .Auto | .CreatorReview => .error .ValidationModeMismatch

/-- Record one vote for the submission's current round. -/
def recordVote (c : TaskContext) (submission : Account TaskSubmission) (reviewer : Pubkey)
    (approved : Bool) : Result (TaskContext × TaskSubmission) := do
  require (c.accounts.votes.lookup (c.workerKey, reviewer) ≠
    some submission.data.submissionCount) .ValidationAlreadyRecorded
  let approvals ← addU8 submission.data.approvalCount (if approved then 1 else 0)
  let rejections ← addU8 submission.data.rejectionCount (if approved then 0 else 1)
  let data := { submission.data with approvalCount := approvals, rejectionCount := rejections }
  .ok (setSubmission { c with accounts := { c.accounts with
    votes := c.accounts.votes.insert (c.workerKey, reviewer) submission.data.submissionCount } }
    { submission with data := data }, data)

/-- The vote of an attestor does not outlive the decision. -/
def closeAttestorVote (c : TaskContext) (config : TaskValidationConfig) (reviewer : Pubkey) :
    TaskContext :=
  if config.mode = .ExternalAttestation then
    { c with accounts := { c.accounts with
      votes := c.accounts.votes.erase (c.workerKey, reviewer) } }
  else c

/-- `validate_task_result`. A rejected submission stays behind, a rejected claim does not. -/
def validateTaskResult (c : TaskContext) (reviewer : Pubkey)
    (validator : Option (Pubkey × AgentRegistration)) (approved : Bool) : Result TaskContext := do
  let _ ← demand (c.accounts.claims.lookup c.workerKey) .AccountNotInitialized
  let submission ← demand (c.accounts.submissions.lookup c.workerKey) .AccountNotInitialized
  checkVersionCompatibleForExit c.config
  require (c.task.status = .PendingValidation) .TaskNotPendingValidation
  let config ← ensureValidationConfig c.accounts none
  require (submission.data.status = .Submitted) .SubmissionNotPending
  let quorum ← reviewQuorum c config reviewer validator
  let (c, data) ← recordVote c submission reviewer approved
  if quorum ≤ data.approvalCount then do
    validateContestAcceptWindow c.task c.sys.now
    let c ← payAcceptedSubmission c config data fun _ => .ok (none, none)
    .ok (closeAttestorVote c config reviewer)
  else if quorum ≤ data.rejectionCount then do
    let c ← releaseRejected c config ⟨submission.lamports, data⟩ 0
    let c ← closeClaim c c.worker.data.authority
    .ok (closeAttestorVote c config reviewer)
  else .ok c

/-! ## Freezing -/

/-- `reject_and_freeze`: the creator contests the only submission of an exclusive task. -/
def rejectAndFreeze (c : TaskContext) (signer : Pubkey) (rejectionHash : Hash) :
    Result TaskContext := do
  require (c.task.creator = signer) .UnauthorizedTaskAction
  let _ ← demand (c.accounts.claims.lookup c.workerKey) .AccountNotInitialized
  let submission ← demand (c.accounts.submissions.lookup c.workerKey) .AccountNotInitialized
  checkVersionCompatibleForExit c.config
  require (c.task.status = .PendingValidation) .TaskNotPendingValidation
  require (c.task.taskType = .Exclusive) .RejectFrozenSingleWorkerOnly
  require (c.task.rewardMint = none) .RejectFrozenSolOnly
  let config ← ensureValidationConfig c.accounts (some .CreatorReview)
  require (submission.data.status = .Submitted) .SubmissionNotPending
  require (rejectionHash ≠ 0) .InvalidEvidenceHash
  let c := setSubmission c { submission with data := { submission.data with
    status := .Rejected
    acceptedAt := 0
    rejectedAt := c.sys.now
    rejectionHash := rejectionHash
    reviewDeadlineAt := satAddI64 c.sys.now config.reviewWindowSecs } }
  let c ← leaveReview c config
  .ok { c with accounts := { c.accounts with task := { c.task with status := .RejectFrozen } } }

/-- The payout of a frozen task, which both exits in the worker's favour share. -/
def payFrozenSubmission (c : TaskContext) (submission : TaskSubmission) (payees : PayeeAccounts) :
    Result TaskContext := do
  let feeBps := calculateFeeWithReputation c.task.protocolFeeBps c.worker.data.reputation
  let (operatorLeg, referrerLeg) ← buildMarketplaceFeeLegs c payees.operator payees.referrer
  let c ← executeCompletionRewards c feeBps none (some submission.resultData) operatorLeg
    referrerLeg
  settleCompletionBond c c.worker.data.authority .Worker .Refund

/-- Close the escrow to the creator with everything it holds. -/
def closeEscrow (c : TaskContext) : Result TaskContext := do
  let escrow ← demand c.accounts.escrow .AccountNotInitialized
  .ok ({ c with accounts := { c.accounts with escrow := none } }.pay
    [closeEscrowTransfer c.key c.task.creator escrow.lamports])

/-- `resolve_reject_frozen`: the multisig decides for the worker or for the creator. -/
def resolveRejectFrozen (c : TaskContext) (signers : List Pubkey) (approveCompletion : Bool)
    (payees : PayeeAccounts) : Result TaskContext := do
  let _ ← demand (c.accounts.claims.lookup c.workerKey) .AccountNotInitialized
  let submission ← demand (c.accounts.submissions.lookup c.workerKey) .AccountNotInitialized
  let _ ← demand c.accounts.escrow .AccountNotInitialized
  requireMultisigThreshold c.config signers
  checkVersionCompatibleForExit c.config
  require (c.task.status = .RejectFrozen) .TaskNotRejectFrozen
  let c ←
    if approveCompletion then do
      let c ← payFrozenSubmission c submission.data payees
      settleCompletionBond c c.task.creator .Creator (.Forfeit c.config.treasury .bondForfeit)
    else do
      let c ← releaseSlot { c with accounts := { c.accounts with
        task := { c.task with status := .Cancelled } } }
      let c ← settleCompletionBond c c.worker.data.authority .Worker
        (.Forfeit c.config.treasury .bondForfeit)
      let c ← settleCompletionBond c c.task.creator .Creator .Refund
      closeEscrow c
  let c ← closeClaim c c.worker.data.authority
  closeSubmission c c.worker.data.authority

/-- `expire_reject_frozen`: anybody, when the multisig did not decide in time. -/
def expireRejectFrozen (c : TaskContext) (payees : PayeeAccounts) : Result TaskContext := do
  let _ ← demand (c.accounts.claims.lookup c.workerKey) .AccountNotInitialized
  let submission ← demand (c.accounts.submissions.lookup c.workerKey) .AccountNotInitialized
  checkVersionCompatibleForExit c.config
  require (c.task.status = .RejectFrozen) .TaskNotRejectFrozen
  require (submission.data.reviewDeadlineAt < c.sys.now) .RejectFrozenTimeoutNotElapsed
  let c ← payFrozenSubmission c submission.data payees
  let c ← settleCompletionBond c c.task.creator .Creator .Refund
  let c ← closeClaim c c.worker.data.authority
  closeSubmission c c.worker.data.authority

/-! ## Completing without review -/

/-- `validate_completion_prereqs`. -/
def validateCompletionPrereqs (task : Task) (claim : TaskClaim) (now : ℤ) : Result Unit := do
  require (task.status ≠ .Completed) .TaskAlreadyCompleted
  require (task.status ≠ .Cancelled) .TaskCannotBeCancelled
  require (task.status = .InProgress) .TaskNotInProgress
  require (0 < task.deadline → now ≤ task.deadline) .DeadlinePassed
  require (claim.isCompleted = false) .ClaimAlreadyCompleted
  require (task.taskType = .Competitive → task.completions = 0) .CompetitiveTaskAlreadyWon

/-- `complete_task`. -/
def completeTask (c : TaskContext) (signer : Pubkey) (proofHash : Hash) (resultData : Option ℕ)
    (payees : PayeeAccounts) : Result TaskContext := do
  require (c.worker.data.authority = signer) .UnauthorizedAgent
  let claim ← demand (c.accounts.claims.lookup c.workerKey) .NotClaimed
  let price ← loadBidTaskCompletionMeta c
  checkVersionCompatibleForExit c.config
  validateTaskDependency c
  let feeBps := calculateFeeWithReputation c.task.protocolFeeBps c.worker.data.reputation
  require (proofHash ≠ 0) .InvalidProofHash
  require (resultData ≠ some 0) .InvalidResultData
  validateCompletionPrereqs c.task claim.data c.sys.now
  require (isManualValidationTask c.task = false) .ManualValidationRequiresReviewFlow
  require (c.task.constraintHash = 0) .PrivateTaskRequiresZkProof
  let (operatorLeg, referrerLeg) ← buildMarketplaceFeeLegs c payees.operator payees.referrer
  let c ← executeCompletionRewards c feeBps price (some (resultData.getD 0)) operatorLeg
    referrerLeg
  let c ← finalizeBidTaskCompletion c
  let c ← closeClaim c c.worker.data.authority
  let c ← settleCompletionBond c c.task.creator .Creator .Refund
  settleCompletionBond c c.worker.data.authority .Worker .Refund

end AgencCoordination
