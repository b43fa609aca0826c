import AgencCoordination.Program.Review

/-!
# Ending claims and tasks

What happens to a task nobody finishes: `expire_claim` removes a worker who did not deliver,
`distribute_ghost_share` splits the prize of a contest its creator abandoned, `cancel_task`
returns the escrow, and `reclaim_terminal_claim` and `close_task` clean up behind a finished
task.
-/

namespace AgencCoordination

open Foundations

/-! ## Expired claims -/

/-- `claim_is_expirable`. -/
def claimIsExpirable (status : TaskStatus) (claimHasPendingSubmission : Bool) : Bool :=
  decide (status = .InProgress ∨ status = .PendingValidation) && !claimHasPendingSubmission

/-- `cleanup_reward_for_task`. -/
def cleanupRewardForTask (isTokenTask : Bool) (remainingFunds : ℕ) : ℕ :=
  if isTokenTask then 0 else min cleanupReward remainingFunds

/-- What a claim account holds beyond its rent. -/
def claimSurplus (rent : Rent) (claim : Account TaskClaim) : ℕ :=
  claim.lamports - rent.minimumBalance taskClaimSize

/-- Close a claim whose surplus over its rent goes to the treasury. -/
def closeClaimForfeitingSurplus (c : TaskContext) (claim : Account TaskClaim)
    (recipient : Pubkey) (forfeited : ℕ) : TaskContext :=
  { c with accounts := { c.accounts with
    claims := c.accounts.claims.erase c.workerKey } }.pay
    [⟨.claim c.key c.workerKey, c.config.treasury, .depositForfeit, forfeited⟩,
      ⟨.claim c.key c.workerKey, recipient, .closingBalance, claim.lamports - forfeited⟩]

/-- Pay the cleanup reward of an expired claim out of the escrow. -/
def payCleanupReward (c : TaskContext) (caller : Pubkey) : Result TaskContext := do
  let escrow ← demand c.accounts.escrow .AccountNotInitialized
  let remaining ← subU escrow.data.amount escrow.data.distributed
  let reward := cleanupRewardForTask c.task.rewardMint.isSome remaining
  let lamports ← subU escrow.lamports reward
  let distributed ← addU64 escrow.data.distributed reward
  .ok ({ c with accounts := { c.accounts with
    escrow := some ⟨lamports, { escrow.data with distributed := distributed }⟩ } }.pay
    [⟨.escrow c.key, caller, .cleanupReward, reward⟩])

/-- The status of a task that lost a worker: recomputed under review, else reopened when nobody
is left. -/
def reopenAfterExpiry (c : TaskContext) : Result TaskContext :=
  if isManualValidationTask c.task then do
    let _ ← ensureValidationConfig c.accounts none
    .ok (syncStatus c)
  else if c.task.currentWorkers = 0 ∧ c.task.status = .InProgress then
    .ok { c with accounts := { c.accounts with task := { c.task with status := .Open } } }
  else .ok c

/-- The no-show penalty of an exclusive task: the worker's completion bond goes to the creator,
unless the task still waits for its parent. -/
def settleNoShowBond (c : TaskContext) (worker : Pubkey) (penaltyAllowed : Bool) :
    Result TaskContext :=
  settleCompletionBond c worker .Worker
    (if penaltyAllowed then .Forfeit c.task.creator .noShowForfeit else .Refund)

/-- `expire_claim`: anybody may remove a worker whose claim ran out without a pending
submission, for a small reward from the escrow. `withSubmission` says whether the caller passes
the submission's account. -/
def expireClaim (c : TaskContext) (caller : Pubkey) (withSubmission : Bool) :
    Result TaskContext := do
  let now := c.sys.now
  let authority := c.worker.data.authority
  let _ ← demand c.accounts.escrow .AccountNotInitialized
  let claim ← demand (c.accounts.claims.lookup c.workerKey) .AccountNotInitialized
  checkVersionCompatibleForExit c.config
  require (claim.data.isCompleted = false) .ClaimAlreadyCompleted
  require (0 < claim.data.expiresAt) .InvalidExpiration
  require (claim.data.expiresAt < now) .ClaimNotExpired
  require (c.task.status ≠ .Disputed) .InvalidStatusTransition
  let submission := c.accounts.submissions.lookup c.workerKey
  require (c.task.status = .PendingValidation → withSubmission = true) .TaskSubmissionRequired
  let pending := withSubmission && submission.any fun s => decide (s.data.status = .Submitted)
  let provenAbsent := withSubmission && submission.isNone
  require (claimIsExpirable c.task.status pending = true) .TaskNotInProgress
  require (satAddI64 claim.data.expiresAt gracePeriod < now ∨ caller = authority)
    .GracePeriodNotPassed
  let noShow := decide (c.task.status = .InProgress) ||
    (decide (c.task.status = .PendingValidation) && provenAbsent)
  let c ← payCleanupReward c caller
  let c := { c with accounts := { c.accounts with
    task := { c.task with currentWorkers := c.task.currentWorkers - 1 } } }
  let contest := isContestConfiguredTask c.task
  require (contest = true → provenAbsent = true) .TaskSubmissionRequired
  let forfeited := if contest then claimSurplus c.sys.rent claim else 0
  let c ← reopenAfterExpiry c
  let c ← settleBidOf c .Reopen (acceptedBidNoShowBondDisposition true)
  let c ←
    if noShow ∧ c.task.taskType = .Exclusive then
      settleNoShowBond c authority (dependencyParentCompleted c)
    else pure c
  let c := { c with worker := { c.worker with data := { c.worker.data with
    activeTasks := c.worker.data.activeTasks - 1 } } }
  .ok (closeClaimForfeitingSurplus c claim authority forfeited)

/-! ## Abandoned contests -/

/-- `compute_ghost_slice`. -/
def computeGhostSlice (remainingPool liveSubmissions : ℕ) : Result ℕ := do
  require (0 < liveSubmissions) .CorruptedData
  .ok (remainingPool / liveSubmissions)

/-- How one slice splits; a slice of nothing pays nobody. -/
def ghostSplit (slice protocolFeeBps : ℕ) (operatorLeg referrerLeg : Option FeeLeg)
    (rent : Rent) : Result RewardSplit :=
  if slice = 0 then .ok ⟨0, 0, 0, 0⟩
  else do
    let (workerReward, protocolFee) ← calculateRewardSplitForAmount slice protocolFeeBps
    carveMarketplaceLegs slice protocolFeeBps workerReward protocolFee operatorLeg referrerLeg
      rent

/-- Pay one slice out of the escrow; the last one closes it to the creator. -/
def payGhostSlice (c : TaskContext) (escrow : Account TaskEscrow) (split : RewardSplit)
    (operatorLeg referrerLeg : Option FeeLeg) (final : Bool) : Result TaskContext := do
  require (split.total ≤ escrow.lamports) .InsufficientEscrowBalance
  let distributed ← addU64 escrow.data.distributed split.total
  let paid := rewardTransfers c.key c.worker.data.authority c.config.treasury operatorLeg
    referrerLeg split
  let left := escrow.lamports - split.total
  if final then
    .ok ({ c with accounts := { c.accounts with escrow := none } }.pay
      (paid ++ [closeEscrowTransfer c.key c.task.creator left]))
  else
    .ok ({ c with accounts := { c.accounts with
      escrow := some ⟨left, { escrow.data with distributed := distributed }⟩ } }.pay paid)

/-- `distribute_ghost_share`: once the creator's selection window is over, anybody may pay a
waiting entry its equal share of what is left. -/
def distributeGhostShare (c : TaskContext) (payees : PayeeAccounts) : Result TaskContext := do
  let now := c.sys.now
  let _ ← demand (c.accounts.claims.lookup c.workerKey) .AccountNotInitialized
  let submission ← demand (c.accounts.submissions.lookup c.workerKey) .AccountNotInitialized
  let escrow ← demand c.accounts.escrow .AccountNotInitialized
  checkVersionCompatibleForExit c.config
  require (c.task.status = .PendingValidation) .TaskNotPendingValidation
  require (c.task.isContestTask = true) .ContestGhostShareUnavailable
  let config ← ensureValidationConfig c.accounts (some .CreatorReview)
  require (submission.data.status = .Submitted) .SubmissionNotPending
  let ghostAt ← contestGhostAt c.task
  require (ghostAt ≤ now) .ContestGhostWindowNotReached
  require (c.task.rewardMint = none) .ContestSolRewardOnly
  let remainingPool ← subU escrow.data.amount escrow.data.distributed
  let slice ← computeGhostSlice remainingPool c.task.liveSubmissions
  let feeBps := calculateFeeWithReputation c.task.protocolFeeBps c.worker.data.reputation
  let operatorLeg ← buildOperatorLeg c.task.operator c.task.operatorFeeBps payees.operator
  let referrerLeg ← buildReferrerLeg c.task.referrer c.task.referrerFeeBps payees.referrer
  let split ← ghostSplit slice feeBps operatorLeg referrerLeg c.sys.rent
  let workers ← subU c.task.currentWorkers 1
  let completions ← addU8 c.task.completions 1
  let c ← leaveReview c config
  let final := decide (c.task.liveSubmissions = 0)
  let worker ← updateWorkerState c.worker.data split.workerReward split.protocolFee true now
  let task := { c.task with currentWorkers := workers, completions := completions }
  let config := { c.config with
    totalValueDistributed := satAdd u64Limit c.config.totalValueDistributed slice
    completedTasks :=
      if final then satAdd u64Limit c.config.completedTasks 1 else c.config.completedTasks }
  let c := { c with
    accounts := { c.accounts with
      task := if final then { task with status := .Completed, completedAt := now } else task }
    worker := { c.worker with data := worker }
    config := config }
  let c ← payGhostSlice c escrow split operatorLeg referrerLeg final
  let c ← closeSubmission c c.worker.data.authority
  closeClaim c c.worker.data.authority

/-! ## Cancellation -/

/-- `validate_cancel_prereqs`. -/
def validateCancelPrereqs (task : Task) (now : ℤ) : Result Unit := do
  require (task.status.canTransitionTo .Cancelled = true) .InvalidStatusTransition
  require (task.status = .Open ∨ task.status = .InProgress ∧ 0 < task.deadline ∧
    task.deadline < now ∧ (task.completions = 0 ∨ task.currentWorkers = 0)) .TaskCannotBeCancelled
  require (task.isContestTask = true → task.liveSubmissions = 0) .ContestHasLiveSubmissions

/-- The refund of a cancelled task; whatever else the escrow holds goes the same way. -/
def refundEscrow (c : TaskContext) : Result TaskContext := do
  let escrow ← demand c.accounts.escrow .AccountNotInitialized
  let refund ← subU escrow.data.amount escrow.data.distributed
  if c.task.rewardMint.isSome then do
    let vault ← demand c.accounts.tokenEscrow .AccountNotInitialized
    let residual ← subU vault refund
    .ok ({ c with accounts := { c.accounts with escrow := none, tokenEscrow := none } }.pay
      [⟨.tokenEscrow c.key, c.task.creator, .creatorRefund, refund⟩,
        ⟨.tokenEscrow c.key, c.task.creator, .closingBalance, residual⟩,
        closeEscrowTransfer c.key c.task.creator escrow.lamports])
  else do
    let left ← subU escrow.lamports refund
    .ok ({ c with accounts := { c.accounts with escrow := none } }.pay
      [⟨.escrow c.key, c.task.creator, .creatorRefund, refund⟩,
        closeEscrowTransfer c.key c.task.creator left])

/-- The loop over the worker triples of a cancelled task: each claim is closed, each worker
freed. A claim listed twice is gone the second time. -/
def closeCancelledClaims (c : TaskContext) (agents : Ledger Pubkey (Account AgentRegistration)) :
    List Pubkey → Result (TaskContext × Ledger Pubkey (Account AgentRegistration))
  | [] => .ok (c, agents)
  | key :: rest => do
      let claim ← demand (c.accounts.claims.lookup key) .InvalidInput
      let agent ← demand (agents.lookup key) .InvalidInput
      let forfeited := if isContestConfiguredTask c.task then claimSurplus c.sys.rent claim else 0
      closeCancelledClaims
        (closeClaimForfeitingSurplus { c with workerKey := key } claim agent.data.authority
          forfeited)
        (agents.insert key { agent with data := { agent.data with
          activeTasks := agent.data.activeTasks - 1 } })
        rest

/-- The bid side of a cancellation: an accepted bid is settled, an unaccepted book closed. -/
def settleBidsOnCancel (c : TaskContext) (penaltyAllowed : Bool) : Result TaskContext :=
  if c.task.taskType = .BidExclusive then
    if c.task.currentWorkers = 0 then closeBidBookWithoutAcceptedBid c
    else settleAcceptedBid c c.worker.data.authority .Close
      (acceptedBidNoShowBondDisposition penaltyAllowed)
  else .ok c

/-- `cancel_task`. The context's worker is the first of `workers`; `withParent` says whether the
caller passes the parent of a dependent task. -/
def cancelTask (c : TaskContext) (agents : Ledger Pubkey (Account AgentRegistration))
    (signer : Pubkey) (workers : List Pubkey) (workerBondAuthority : Pubkey)
    (withParent : Bool) :
    Result (TaskContext × Ledger Pubkey (Account AgentRegistration)) := do
  require (c.task.creator = signer) .UnauthorizedTaskAction
  checkVersionCompatibleForExit c.config
  validateCancelPrereqs c.task c.sys.now
  let noShow := decide (c.task.status = .InProgress ∧ 0 < c.task.currentWorkers)
  let parentCompleted := decide (c.task.dependencyType = .None) ||
    (withParent && dependencyParentCompleted c)
  let penaltyAllowed := noShow && parentCompleted
  let wallets := workers.filterMap fun key => (agents.lookup key).map fun a => a.data.authority
  require (workers.length = c.task.currentWorkers) .IncompleteWorkerAccounts
  let c ← refundEscrow c
  let c ← settleBidsOnCancel { c with accounts := { c.accounts with
    task := { c.task with status := .Cancelled } } } penaltyAllowed
  let (c, agents) ← closeCancelledClaims c agents workers
  let c := { c with accounts := { c.accounts with task := { c.task with currentWorkers := 0 } } }
  let c ← settleCompletionBond c c.task.creator .Creator .Refund
  require (penaltyAllowed = true → workerBondAuthority ∈ wallets) .BondNotTiedToNoShowWorker
  let c ← settleNoShowBond c workerBondAuthority penaltyAllowed
  .ok (c, agents)

/-! ## Cleaning up -/

/-- `validate_terminal_claim_not_dispute_reserved`. -/
def validateTerminalClaimNotDisputeReserved (task : Task) : Result Unit := do
  require (task.workerSlashPending = false ∧ 0 < task.currentWorkers) .ClaimSlashPending
  require (task.peerSettlementPending = false) .ClaimSettlementPending

/-- A submission that never left review on a completed collaboration. -/
def submittedStraggler (c : TaskContext) : Bool :=
  match c.accounts.submissions.lookup c.workerKey with
  | some submission => decide (submission.data.status = .Submitted)
  | none => false

/-- The submission a terminal claim leaves behind: none, a rejected one, or a straggler. -/
def releaseTerminalSubmission (c : TaskContext) : Result TaskContext :=
  match c.accounts.submissions.lookup c.workerKey with
  | none => .ok c
  | some submission =>
      match submission.data.status with
      | .Rejected => .ok c
      | .Submitted => do
          require (c.task.status = .Completed ∧ c.task.taskType = .Collaborative)
            .ClaimReclaimRequiresNoSubmission
          let config ← ensureValidationConfig c.accounts none
          leaveReview c config
      | .Idle | .Accepted => .error .ClaimReclaimRequiresNoSubmission

/-- Close the submission of the context's worker if there is one. -/
def closeSubmissionIfAny (c : TaskContext) (recipient : Pubkey) : TaskContext :=
  match c.accounts.submissions.lookup c.workerKey with
  | none => c
  | some submission => { c with accounts := { c.accounts with
      submissions := c.accounts.submissions.erase c.workerKey } }.pay
      [⟨.submission c.key c.workerKey, recipient, .closingBalance, submission.lamports⟩]

/-- `reclaim_terminal_claim`: anybody may close a claim a finished task left behind. -/
def reclaimTerminalClaim (c : TaskContext) : Result TaskContext := do
  let authority := c.worker.data.authority
  let claim ← demand (c.accounts.claims.lookup c.workerKey) .AccountNotInitialized
  checkVersionCompatibleForExit c.config
  require (c.task.status = .Completed ∨ c.task.status = .Cancelled)
    .ClaimReclaimRequiresTerminalTask
  require (claim.data.isCompleted = false) .ClaimAlreadyCompleted
  validateTerminalClaimNotDisputeReserved c.task
  let straggler := submittedStraggler c
  let c ← releaseTerminalSubmission c
  let c := { c with
    accounts := { c.accounts with
      task := { c.task with currentWorkers := c.task.currentWorkers - 1 } }
    worker := { c.worker with data := { c.worker.data with
      activeTasks := c.worker.data.activeTasks - 1 } } }
  let forfeited := if straggler then 0 else claimSurplus c.sys.rent claim
  .ok (closeSubmissionIfAny (closeClaimForfeitingSurplus c claim authority forfeited) authority)

/-- The child accounts `close_task` can close besides the named ones. -/
inductive TaskChild
  | validationConfig
  | attestorConfig
  | submission (worker : Pubkey)
  deriving DecidableEq, Repr

/-- `validate_task_closable`. -/
def validateTaskClosable (task : Task) : Result Unit := do
  require (task.status = .Completed ∨ task.status = .Cancelled) .TaskNotClosable
  require (task.currentWorkers = 0) .TaskNotClosable
  require (task.workerSlashPending = false) .ClaimSlashPending

/-- Close one child account. -/
def closeTaskChild (c : TaskContext) (agents : Ledger Pubkey (Account AgentRegistration)) :
    TaskChild → Result TaskContext
  | .validationConfig => do
      let config ← demand c.accounts.validation .InvalidInput
      require (config.pendingSubmissionCount = 0 ∧ c.task.liveSubmissions = 0)
        .TaskChildRequiresDedicatedCleanup
      .ok { c with accounts := { c.accounts with validation := none } }
  | .attestorConfig => .ok { c with accounts := { c.accounts with attestor := none } }
  | .submission worker => do
      let submission ← demand (c.accounts.submissions.lookup worker) .InvalidInput
      require (submission.data.status = .Accepted ∨ submission.data.status = .Rejected)
        .TaskChildRequiresDedicatedCleanup
      let agent ← demand (agents.lookup worker) .SubmissionRentAccountsRequired
      let recipient :=
        if agent.data.registeredAt < submission.data.submittedAt then agent.data.authority
        else c.config.treasury
      .ok ({ c with accounts := { c.accounts with
        submissions := c.accounts.submissions.erase worker } }.pay
        [⟨.submission c.key worker, recipient, .closingBalance, submission.lamports⟩])

/-- Close the child accounts the caller lists. -/
def closeTaskChildren (c : TaskContext) (agents : Ledger Pubkey (Account AgentRegistration)) :
    List TaskChild → Result TaskContext
  | [] => .ok c
  | child :: rest => do
      let c ← closeTaskChild c agents child
      closeTaskChildren c agents rest

/-- `close_task`: the creator closes the leftovers of a finished task; the task's own account
stays. -/
def closeTask (c : TaskContext) (agents : Ledger Pubkey (Account AgentRegistration))
    (signer : Pubkey) (withJobSpec withEscrow : Bool) (workerBond : Option Pubkey)
    (children : List TaskChild) : Result TaskContext := do
  require (c.task.creator = signer) .UnauthorizedTaskAction
  validateTaskClosable c.task
  require (c.accounts.bonds.lookup c.task.creator = none) .TaskHasLiveCompletionBond
  require (∀ party ∈ workerBond, c.accounts.bonds.lookup party = none) .TaskHasLiveCompletionBond
  require (c.task.taskType = .BidExclusive → ∀ book ∈ c.accounts.bidBook, book.activeBids = 0)
    .TaskNotClosable
  let c ←
    if withEscrow then do
      let escrow ← demand c.accounts.escrow .AccountNotInitialized
      require (escrow.data.isClosed = true) .InvalidInput
      closeEscrow c
    else pure c
  let c := { c with accounts := { c.accounts with
    jobSpec := if withJobSpec then none else c.accounts.jobSpec
    bidBook := none
    hire := none } }
  closeTaskChildren c agents children

end AgencCoordination
