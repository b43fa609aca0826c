import AgencCoordination.Program.Expiry

/-!
# Disputes

A dispute is opened by the task's creator or by a worker whose submission waits for review, and
ends by a ruling, by expiry or by its initiator's withdrawal. A ruling settles the defendant's
claim; every other worker's claim is settled afterwards by `settle_dispute_claim`, and a claim
lost to a refund ruling stays open until `apply_dispute_slash`. The initiator's outcome counter
is released by `apply_initiator_slash`.
-/

namespace AgencCoordination

open Foundations

/-! ## Windows and outcomes -/

/-- `Dispute::resolution_window_open`. -/
def Dispute.resolutionWindowOpen (d : Dispute) (now : ℤ) : Bool :=
  decide (now ≤ d.expiresAt ∧ now < satAddI64 d.votingDeadline votingDeadlineGrace)

/-- `Dispute::expiry_window_open`. -/
def Dispute.expiryWindowOpen (d : Dispute) (now : ℤ) : Bool :=
  decide (d.expiresAt < now ∨ satAddI64 d.votingDeadline votingDeadlineGrace ≤ now)

/-- `worker_lost_dispute`. -/
def workerLostDispute (approved : Bool) (resolution : ResolutionType) : Bool :=
  approved && decide (resolution = .Refund)

/-- `initiator_lost_dispute`. -/
def initiatorLostDispute (status : DisputeStatus) (approved : Bool) : Bool :=
  decide (status = .Cancelled) || (decide (status = .Resolved) && !approved)

/-- `calculate_slash_amount`. -/
def calculateSlashAmount (stakeAtDispute currentStake slashPercentage : ℕ) : Result ℕ := do
  require (slashPercentage ≤ 100) .InvalidInput
  require (stakeAtDispute * slashPercentage / 100 < u64Limit) .ArithmeticOverflow
  .ok (min (stakeAtDispute * slashPercentage / 100) currentStake)

/-- `apply_reputation_penalty`. -/
def applyReputationPenalty (agent : AgentRegistration) : AgentRegistration :=
  { agent with reputation := agent.reputation - reputationSlashLoss }

/-- Take a slash out of an agent's stake and account (`transfer_slash_to_treasury`). -/
def slashStake (agent : Account AgentRegistration) (slash : ℕ) :
    Result (Account AgentRegistration) := do
  let stake ← subU agent.data.stake slash
  let lamports ← checkedSub agent.lamports slash .InsufficientFunds
  .ok ⟨lamports, { agent.data with stake := stake }⟩

/-! ## Opening -/

/-- `AgentRegistration::note_dispute_initiated`. -/
def AgentRegistration.noteDisputeInitiated (agent : AgentRegistration) :
    Result AgentRegistration := do
  let votes ← addU8 agent.activeDisputeVotes 1
  .ok { agent with activeDisputeVotes := votes }

/-- `increment_defendant_counter`. -/
def incrementDefendantCounter (agent : AgentRegistration) : Result AgentRegistration := do
  let count ← addU8 agent.disputesAsDefendant 1
  .ok { agent with disputesAsDefendant := count }

/-- `validate_disputable_task_state` and `validate_disputable_worker_count`. -/
def validateDisputableTask (task : Task) : Result Unit := do
  require (task.status ≠ .Disputed) .InvalidStatusTransition
  require (task.status = .InProgress ∨ task.status = .PendingValidation) .TaskNotInProgress
  require (0 < task.currentWorkers) .NoWorkers
  require (task.currentWorkers ≤ disputeSafeMaxWorkers) .InvalidMaxWorkers

/-- What a worker needs to dispute: a live claim and a submission under review. -/
def validateWorkerInitiator (accounts : TaskAccounts) (agentKey : Pubkey) (now : ℤ) :
    Result Unit := do
  let claim ← demand (accounts.claims.lookup agentKey) .NotTaskParticipant
  require (claim.data.isCompleted = false) .ClaimAlreadyCompleted
  require (now < claim.data.expiresAt) .ClaimExpired
  let submission ← demand (accounts.submissions.lookup agentKey) .TaskSubmissionRequired
  require (submission.data.status = .Submitted) .TaskSubmissionRequired

/-- The stake an initiator needs; a creator needs twice as much. -/
def validateDisputeStake (config : ProtocolConfig) (isCreator : Bool) (stake : ℕ) :
    Result Unit :=
  if isCreator then do
    let creatorMinStake ← addU64 config.minStakeForDispute config.minStakeForDispute
    require (creatorMinStake ≤ stake) .InsufficientStakeForCreatorDispute
  else require (config.minStakeForDispute ≤ stake) .InsufficientStakeForDispute

/-- The arguments of `initiate_dispute`: the dispute's address, the initiating agent, and for a
creator the worker it accuses. -/
structure DisputeFiling where
  disputeKey : Pubkey
  agentKey : Pubkey
  workerAgent : Option Pubkey
  evidenceHash : Hash
  resolutionType : ResolutionType
  deriving DecidableEq

/-- The record of a new dispute. -/
def newDispute (w : World) (taskKey signer : Pubkey) (f : DisputeFiling) (isCreator : Bool)
    (defendant : Pubkey) (workerStake : ℕ) : Result Dispute := do
  let votingDeadline ← addI64 w.sys.now w.config.votingPeriod
  let expiresAt ← addI64 w.sys.now w.config.maxDisputeDuration
  .ok {
    task := taskKey
    initiator := f.agentKey
    initiatorAuthority := signer
    evidenceHash := f.evidenceHash
    resolutionType := f.resolutionType
    status := .Active
    createdAt := w.sys.now
    initiatorTracked := true
    votingDeadline := votingDeadline
    expiresAt := expiresAt
    workerStakeAtDispute := workerStake
    initiatedByCreator := isCreator
    defendant := defendant }

/-- The agents of a dispute with their counters raised: the initiator's outcome counter and the
defendant's counter, which are the same agent's when a worker files. -/
def raiseDisputeCounters (w : World) (f : DisputeFiling) (accounts : TaskAccounts)
    (agent : Account AgentRegistration) (isCreator : Bool) :
    Result (Ledger Pubkey (Account AgentRegistration) × Pubkey × ℕ) := do
  let initiator ← agent.data.noteDisputeInitiated
  let initiator := { initiator with lastDisputeInitiated := w.sys.now }
  if isCreator then do
    let workerKey ← demand f.workerAgent .WorkerAgentRequired
    require (workerKey ≠ f.agentKey) .InvalidInput
    let worker ← demand (w.agents.lookup workerKey) .WorkerAgentRequired
    let _ ← demand (accounts.claims.lookup workerKey) .WorkerClaimRequired
    let defendant ← incrementDefendantCounter worker.data
    .ok ((w.agents.insert f.agentKey { agent with data := initiator }).insert workerKey
      { worker with data := defendant }, workerKey, worker.data.stake)
  else do
    let defendant ← incrementDefendantCounter initiator
    .ok (w.agents.insert f.agentKey { agent with data := defendant }, f.agentKey,
      agent.data.stake)

/-- `initiate_dispute`. -/
def initiateDispute (w : World) (taskKey signer : Pubkey) (f : DisputeFiling) :
    Result World := do
  require (w.disputes.lookup f.disputeKey = none) .AccountAlreadyInUse
  let accounts ← demand (w.tasks.lookup taskKey) .AccountNotInitialized
  let agent ← demand (w.agents.lookup f.agentKey) .AccountNotInitialized
  require (agent.data.authority = signer) .UnauthorizedAgent
  require (accounts.task.status ≠ .RejectFrozen) .TaskFrozenCannotDispute
  checkVersionCompatible w.config
  requireTaskTypeEnabled w.config accounts.task.taskType
  require (agent.data.status = .Active) .AgentNotActive
  require (isContestConfiguredTask accounts.task = false) .ContestFlowUnsupported
  validateDisputableTask accounts.task
  let isCreator := decide (accounts.task.creator = signer)
  if isCreator then pure () else validateWorkerInitiator accounts f.agentKey w.sys.now
  require (f.evidenceHash ≠ 0) .InvalidEvidenceHash
  validateDisputeStake w.config isCreator agent.data.stake
  let limit ← checkAuthorityRateLimits ((w.rateLimits.lookup signer).getD {}) signer w.config
    w.sys.now .DisputeInitiation
  let (agents, defendant, workerStake) ← raiseDisputeCounters w f accounts agent isCreator
  let dispute ← newDispute w taskKey signer f isCreator defendant workerStake
  .ok { w with
    agents := agents
    rateLimits := w.rateLimits.insert signer limit
    disputes := w.disputes.insert f.disputeKey dispute
    tasks := w.tasks.insert taskKey { accounts with
      task := { accounts.task with status := .Disputed } } }

/-! ## Withdrawing -/

/-- `restore_status_after_dispute_cancel`, for contest-aware tasks. -/
def restoreStatusAfterDisputeCancel (liveSubmissions currentWorkers : ℕ) : TaskStatus :=
  if 0 < liveSubmissions then .PendingValidation
  else if 0 < currentWorkers then .InProgress
  else .Open

/-- `add_review_debt_secs`: time spent in a dispute is not review time. -/
def addReviewDebtSecs (config : TaskValidationConfig) (secs : ℤ) : TaskValidationConfig :=
  { config with
    reviewDebtSecs := min (2 ^ 32 - 1) (config.reviewDebtSecs + min (2 ^ 32 - 1) secs.toNat) }

/-- The task side of a withdrawn dispute: the status it had, with the lost review time owed. -/
def restoreDisputedTask (c : TaskContext) (d : Dispute) : Result TaskContext :=
  if c.task.status = .Disputed then do
    let restored := restoreStatusAfterDisputeCancel c.task.liveSubmissions c.task.currentWorkers
    let task := { c.task with status := restored }
    if restored = .PendingValidation then do
      let config ← demand c.accounts.validation .TaskValidationConfigRequired
      .ok { c with accounts := { c.accounts with
        task := task
        validation := some (addReviewDebtSecs config (c.sys.now - d.createdAt)) } }
    else .ok { c with accounts := { c.accounts with task := task } }
  else .ok c

/-- `cancel_dispute`. The context's worker is the defendant. -/
def cancelDispute (c : TaskContext) (d : Dispute) (signer : Pubkey) :
    Result (TaskContext × Dispute) := do
  require (d.status = .Active) .DisputeNotActive
  require (d.initiatorAuthority = signer) .UnauthorizedResolver
  checkVersionCompatibleForExit c.config
  let c ← restoreDisputedTask c d
  require (c.workerKey = d.defendant) .WorkerNotInDispute
  .ok ({ c with worker := { c.worker with data := { c.worker.data with
    disputesAsDefendant := c.worker.data.disputesAsDefendant - 1 } } },
    { d with status := .Cancelled, resolvedAt := c.sys.now })

/-! ## Submissions of disputed claims -/

/-- Take a disputed claim's submission out of review if it is under review
(`sweep_dispute_submission`, up to the closing of the account). -/
def leaveReviewIfSubmitted (c : TaskContext) (submission : TaskSubmission) :
    Result TaskContext :=
  if submission.status = .Submitted then
    if isManualValidationTask c.task then do
      let config ← ensureValidationConfig c.accounts none
      leaveReview c config
    else do
      let task ← noteSubmissionLeftReview c.task
      .ok { c with accounts := { c.accounts with task := task } }
  else .ok c

/-- `settle_dispute_submission_evidence`: close the submission of a disputed claim, if there is
one. -/
def sweepDisputeSubmission (c : TaskContext) (recipient : Pubkey) : Result TaskContext :=
  match c.accounts.submissions.lookup c.workerKey with
  | none => .ok c
  | some submission => do
      let c ← leaveReviewIfSubmitted c submission.data
      .ok (closeSubmissionIfAny c recipient)

/-! ## Ruling -/

/-- `contractual_settlement_amount`: the accepted bid's price and the budget above it. -/
def contractualSettlementAmount (remainingFunds : ℕ) (acceptedBidPrice : Option ℕ) :
    Result (ℕ × ℕ) :=
  match acceptedBidPrice with
  | none => .ok (remainingFunds, 0)
  | some contractAmount => do
      require (0 < contractAmount) .InvalidReward
      require (contractAmount ≤ remainingFunds) .InsufficientEscrowBalance
      .ok (contractAmount, remainingFunds - contractAmount)

/-- `resolution_requires_completed_parent`. -/
def resolutionRequiresCompletedParent (approved : Bool) (resolution : ResolutionType) : Bool :=
  approved && decide (resolution = .Complete ∨ resolution = .Split)

/-- The price of the work a ruling pays for. A ruling that pays the worker waits for the task's
parent like a completion does. -/
def rulingPrice (c : TaskContext) (approved : Bool) (resolution : ResolutionType) :
    Result (Option ℕ) :=
  if resolutionRequiresCompletedParent approved resolution then do
    validateTaskDependency c
    loadBidTaskCompletionMeta c
  else .ok none

/-- `completion_bond_forfeit_sides`: whether the creator's and the worker's bond are forfeit. -/
def completionBondForfeitSides (approved : Bool) (resolution : ResolutionType) : Bool × Bool :=
  (approved && decide (resolution = .Complete), approved && decide (resolution = .Refund))

/-- `accepted_bid_dispute_bond_disposition`. -/
def acceptedBidDisputeBondDisposition (approved : Bool) (resolution : ResolutionType) :
    AcceptedBidBondDisposition :=
  if workerLostDispute approved resolution then .FullSlashToCreator else .Refund

/-- `resolver_has_conflict`. -/
def resolverHasConflict (signer creator workerWallet : Pubkey) (terms : MarketplaceTerms) :
    Bool :=
  decide (signer = creator ∨ signer = workerWallet ∨
    (0 < terms.operatorFeeBps ∧ signer = terms.operator) ∨
    (0 < terms.referrerFeeBps ∧ signer = terms.referrer))

/-- `percentage_amount`. -/
def percentageAmount (amount percentage : ℕ) : Result ℕ := do
  require (percentage ≤ 100) .InvalidSlashPercentage
  .ok (amount * percentage / 100)

/-- What a refund ruling on a token task holds back for the slash. -/
def slashReserve (c : TaskContext) (workerLost : Bool) (remaining : ℕ) : Result ℕ :=
  if c.task.rewardMint.isSome && workerLost then
    percentageAmount remaining c.config.slashPercentage
  else .ok 0

/-- The legs a ruling pays out of a worker's gross amount, and their sum
(`pay_dispute_marketplace_legs`). -/
def payDisputeMarketplaceLegs (c : TaskContext) (terms : MarketplaceTerms)
    (payees : PayeeAccounts) (workerGross : ℕ) : Result (List Transfer × ℕ) := do
  let operatorLeg ← buildOperatorLeg terms.operator terms.operatorFeeBps payees.operator
  let referrerLeg ← buildReferrerLeg terms.referrer terms.referrerFeeBps payees.referrer
  if operatorLeg = none ∧ referrerLeg = none then .ok ([], 0)
  else do
    let (operatorFee, referrerFee) ← calculateCombinedFees workerGross 0
      ((operatorLeg.map FeeLeg.feeBps).getD 0) ((referrerLeg.map FeeLeg.feeBps).getD 0)
    let fees := splitCreditableMarketplaceFees
      (operatorLeg.map fun leg => (leg.payee, operatorFee))
      (referrerLeg.map fun leg => (leg.payee, referrerFee)) c.sys.rent
    .ok (legTransfer c.key operatorLeg .operatorFee fees.operatorFee ++
      legTransfer c.key referrerLeg .referrerFee fees.referrerFee,
      fees.operatorFee + fees.referrerFee)

/-- What a ruling divides: everything left in the escrow, of which `contract` is the price of
the work and `uncommitted` the budget above it. -/
structure RulingFunds where
  remaining : ℕ
  contract : ℕ
  uncommitted : ℕ
  deriving DecidableEq

/-- The SOL payments of a ruling, and the worker's pay when the work counts as completed. -/
def rulingPayments (c : TaskContext) (approved : Bool) (resolution : ResolutionType)
    (terms : MarketplaceTerms) (payees : PayeeAccounts) (funds : RulingFunds) :
    Result (List Transfer × Option ℕ) :=
  let toCreator (amount : ℕ) : Transfer := ⟨.escrow c.key, c.task.creator, .creatorRefund, amount⟩
  let toWorker (amount : ℕ) : Transfer :=
    ⟨.escrow c.key, c.worker.data.authority, .workerReward, amount⟩
  match approved, resolution with
  | false, _ | true, .Refund => .ok ([toCreator funds.remaining], none)
  | true, .Complete => do
      let (legs, legsFee) ← payDisputeMarketplaceLegs c terms payees funds.contract
      let workerNet ← subU funds.contract legsFee
      .ok (legs ++ [toWorker workerNet, toCreator funds.uncommitted], some workerNet)
  | true, .Split =>
      if funds.remaining = 0 then .ok ([], none)
      else do
        let workerShare := funds.contract / 2
        let (legs, legsFee) ← payDisputeMarketplaceLegs c terms payees workerShare
        let workerNet ← subU workerShare legsFee
        .ok (legs ++ [toCreator (funds.contract - workerShare + funds.uncommitted),
          toWorker workerNet], none)

/-- The SOL side of a ruling: everything owed is paid and the escrow closed to the creator. -/
def settleRulingSol (c : TaskContext) (approved : Bool) (resolution : ResolutionType)
    (terms : MarketplaceTerms) (payees : PayeeAccounts) (funds : RulingFunds) :
    Result (TaskContext × Option ℕ) := do
  let escrow ← demand c.accounts.escrow .AccountNotInitialized
  let (paid, workerPayout) ← rulingPayments c approved resolution terms payees funds
  let left ← subU escrow.lamports funds.remaining
  .ok ({ c with accounts := { c.accounts with escrow := none } }.pay
    (paid ++ [closeEscrowTransfer c.key c.task.creator left]), workerPayout)

/-- The token side of a ruling. A refund ruling holds `reserve` back for the slash; otherwise
the token account is emptied, and the escrow stays as a closed record. -/
def settleRulingToken (c : TaskContext) (approved : Bool) (resolution : ResolutionType)
    (funds : RulingFunds) (reserve : ℕ) : Result (TaskContext × Option ℕ) := do
  let escrow ← demand c.accounts.escrow .AccountNotInitialized
  let vault ← demand c.accounts.tokenEscrow .AccountNotInitialized
  let paidNow := funds.remaining - reserve
  let residual ← subU vault paidNow
  let distributed ← addU64 escrow.data.distributed paidNow
  let send (recipient : Pubkey) (purpose : Purpose) (amount : ℕ) : Transfer :=
    ⟨.tokenEscrow c.key, recipient, purpose, amount⟩
  let creator := c.task.creator
  let worker := c.worker.data.authority
  let closed := decide (reserve = 0)
  let rest (recipient : Pubkey) : List Transfer :=
    if closed then [send recipient .closingBalance residual] else []
  let tokenEscrow := if closed then none else some residual
  let record (tokenEscrow : Option ℕ) (paid : List Transfer) : TaskContext :=
    { c with accounts := { c.accounts with
      tokenEscrow := tokenEscrow
      escrow := some { escrow with data := { escrow.data with
        distributed := distributed, isClosed := closed } } } }.pay paid
  match approved, resolution with
  | false, _ | true, .Refund =>
      .ok (record tokenEscrow (send creator .creatorRefund paidNow :: rest creator), none)
  | true, .Complete =>
      .ok (record tokenEscrow (send worker .workerReward paidNow :: rest worker), some paidNow)
  | true, .Split =>
      if funds.remaining = 0 then .ok (record (some vault) [], none)
      else
        let workerShare := paidNow / 2
        .ok (record tokenEscrow (send creator .creatorRefund (paidNow - workerShare) ::
          send worker .workerReward workerShare :: rest creator), none)

/-- Pay out a ruling, in SOL or tokens. -/
def settleRuling (c : TaskContext) (approved : Bool) (resolution : ResolutionType)
    (terms : MarketplaceTerms) (payees : PayeeAccounts) (funds : RulingFunds) (reserve : ℕ) :
    Result (TaskContext × Option ℕ) :=
  if c.task.rewardMint.isNone then settleRulingSol c approved resolution terms payees funds
  else settleRulingToken c approved resolution funds reserve

/-- The status a ruling gives the task. -/
def rulingStatus (approved : Bool) (resolution : ResolutionType) : TaskStatus :=
  if approved ∧ resolution = .Complete then .Completed else .Cancelled

/-- The defendant's books after a ruling. A worker who lost keeps its claim, and both counters,
until the slash. -/
def settleDefendant (worker : AgentRegistration) (workerLost sol : Bool)
    (workerPayout : Option ℕ) (now : ℤ) : AgentRegistration :=
  let paid :=
    match workerPayout with
    | some payout => { worker with
        tasksCompleted := satAdd u64Limit worker.tasksCompleted 1
        totalEarned :=
          if sol then satAdd u64Limit worker.totalEarned payout else worker.totalEarned }
    | none => worker
  let freed :=
    if workerLost then paid
    else { paid with
      activeTasks := paid.activeTasks - 1
      disputesAsDefendant := paid.disputesAsDefendant - 1 }
  { freed with lastActive := now }

/-- Close the defendant's claim, unless it is kept for the slash. -/
def closeDefendantClaim (c : TaskContext) (claim : Account TaskClaim) (workerLost : Bool) :
    TaskContext :=
  if workerLost then c else closeClaimForfeitingSurplus c claim c.worker.data.authority 0

/-- The dispute after a ruling or an expiry: final when the defendant was the only worker,
otherwise waiting for `peers` settlements. -/
def Dispute.settle (d : Dispute) (final : DisputeStatus) (peers : ℕ) (now : ℤ) : Dispute :=
  { d with
    status := if peers = 0 then final else .SettlementPending
    pendingTerminalStatus := if peers = 0 then d.pendingTerminalStatus else final
    peerWorkersTotal := peers
    peerWorkersSettled := 0
    resolvedAt := now }

/-- Both completion bonds after a ruling. -/
def settleBondsAfterRuling (c : TaskContext) (approved : Bool) (resolution : ResolutionType) :
    Result TaskContext := do
  let forfeit := completionBondForfeitSides approved resolution
  let disposition (forfeit : Bool) : BondDisposition :=
    if forfeit then .Forfeit c.config.treasury .bondForfeit else .Refund
  let c ← settleCompletionBond c c.task.creator .Creator (disposition forfeit.1)
  settleCompletionBond c c.worker.data.authority .Worker (disposition forfeit.2)

/-- Who may rule: the protocol authority with its multisig, or an assigned resolver, and nobody
with a stake in the outcome. -/
def validateResolver (c : TaskContext) (d : Dispute) (signer : Pubkey) (signers : List Pubkey)
    (assigned : Bool) : Result Unit := do
  require (signer = c.config.authority ∨ assigned = true) .UnauthorizedResolver
  if assigned then pure () else requireMultisigThreshold c.config signers
  require (signer ≠ d.initiatorAuthority) .InitiatorCannotResolve

/-- `resolve_dispute`. The context's worker is the defendant. -/
def resolveDispute (c : TaskContext) (d : Dispute) (signer : Pubkey) (signers : List Pubkey)
    (assigned approved : Bool) (payees : PayeeAccounts) : Result (TaskContext × Dispute) := do
  let now := c.sys.now
  let resolution := d.resolutionType
  let escrow ← demand c.accounts.escrow .AccountNotInitialized
  validateResolver c d signer signers assigned
  checkVersionCompatibleForExit c.config
  require (d.status = .Active) .DisputeNotActive
  require (d.resolutionWindowOpen now = true) .DisputeResolutionWindowExpired
  require (c.workerKey = d.defendant) .WorkerNotInDispute
  let claim ← demand (c.accounts.claims.lookup c.workerKey) .WorkerClaimRequired
  let terms := resolveTaskMarketplaceTerms c.accounts
  validateMarketplacePayeeDestinations c.sys c.key c.task.creator terms.operator
    terms.operatorFeeBps terms.referrer terms.referrerFeeBps
  require (resolverHasConflict signer c.task.creator c.worker.data.authority terms = false)
    .ResolverConflictOfInterest
  require (c.task.status = .Disputed) .TaskNotInProgress
  let remaining ← subU escrow.data.amount escrow.data.distributed
  let price ← rulingPrice c approved resolution
  let (contract, uncommitted) ← contractualSettlementAmount remaining price
  let sol := c.task.rewardMint.isNone
  let workerLost := workerLostDispute approved resolution
  let reserve ← slashReserve c workerLost remaining
  let (c, workerPayout) ← settleRuling c approved resolution terms payees
    ⟨remaining, contract, uncommitted⟩ reserve
  let config :=
    if approved ∧ resolution = .Complete then updateProtocolStats c.config contract sol
    else c.config
  let c ← settleBidOf { c with config := config } .Close
    (acceptedBidDisputeBondDisposition approved resolution)
  let peers := c.task.currentWorkers - 1
  let c := { c with
    accounts := { c.accounts with task := { c.task with
      status := rulingStatus approved resolution
      completedAt := if approved ∧ resolution = .Complete then now else c.task.completedAt
      currentWorkers := peers + if workerLost then 1 else 0
      peerSettlementPending := decide (0 < peers)
      workerSlashPending := workerLost } }
    worker := { c.worker with
      data := settleDefendant c.worker.data workerLost sol workerPayout now } }
  let c ← sweepDisputeSubmission c c.worker.data.authority
  let c ← settleBondsAfterRuling (closeDefendantClaim c claim workerLost) approved resolution
  .ok (c, { d.settle .Resolved peers now with
    votesFor := if approved then 1 else 0
    votesAgainst := if approved then 0 else 1
    resolvedBy := signer })

/-! ## Expiry -/

/-- `expiry_no_show_penalty_allowed`. -/
def expiryNoShowPenaltyAllowed (claim : TaskClaim) (now : ℤ)
    (submissionWasLive parentCompleted : Bool) : Bool :=
  decide (claim.isCompleted = false ∧ 0 < claim.expiresAt ∧ claim.expiresAt < now) &&
    !submissionWasLive && parentCompleted

/-- The refund of an expired dispute, in SOL or tokens. -/
def refundExpiredDispute (c : TaskContext) : Result TaskContext := do
  let escrow ← demand c.accounts.escrow .AccountNotInitialized
  let remaining ← subU escrow.data.amount escrow.data.distributed
  let creator := c.task.creator
  if c.task.rewardMint.isNone then do
    let left ← subU escrow.lamports remaining
    .ok ({ c with accounts := { c.accounts with escrow := none } }.pay
      [⟨.escrow c.key, creator, .creatorRefund, remaining⟩,
        closeEscrowTransfer c.key creator left])
  else if remaining = 0 then
    .ok ({ c with accounts := { c.accounts with escrow := none } }.pay
      [closeEscrowTransfer c.key creator escrow.lamports])
  else do
    let vault ← demand c.accounts.tokenEscrow .AccountNotInitialized
    let residual ← subU vault remaining
    .ok ({ c with accounts := { c.accounts with escrow := none, tokenEscrow := none } }.pay
      [⟨.tokenEscrow c.key, creator, .creatorRefund, remaining⟩,
        ⟨.tokenEscrow c.key, creator, .closingBalance, residual⟩,
        closeEscrowTransfer c.key creator escrow.lamports])

/-- `expire_dispute`: anybody, once no ruling can come any more. -/
def expireDispute (c : TaskContext) (d : Dispute) : Result (TaskContext × Dispute) := do
  let now := c.sys.now
  checkVersionCompatibleForExit c.config
  require (d.status = .Active) .DisputeNotActive
  require (c.task.status = .Disputed) .TaskNotInProgress
  require (d.expiryWindowOpen now = true) .DisputeNotExpired
  require (c.workerKey = d.defendant) .WorkerNotInDispute
  let claim ← demand (c.accounts.claims.lookup c.workerKey) .WorkerClaimRequired
  let submissionWasLive := (c.accounts.submissions.lookup c.workerKey).isSome
  let penaltyAllowed := expiryNoShowPenaltyAllowed claim.data now submissionWasLive
    (dependencyParentCompleted c)
  let c ← refundExpiredDispute c
  let peers := c.task.currentWorkers - 1
  let c := { c with
    accounts := { c.accounts with task := { c.task with
      status := .Cancelled
      currentWorkers := peers
      peerSettlementPending := decide (0 < peers) } }
    worker := { c.worker with data := { c.worker.data with
      activeTasks := c.worker.data.activeTasks - 1
      disputesAsDefendant := c.worker.data.disputesAsDefendant - 1 } } }
  let c ← sweepDisputeSubmission c c.worker.data.authority
  let c ← settleBidOf c .Close (acceptedBidNoShowBondDisposition penaltyAllowed)
  let c := closeClaimForfeitingSurplus c claim c.worker.data.authority 0
  let c ← settleCompletionBond c c.task.creator .Creator .Refund
  let c ← settleNoShowBond c c.worker.data.authority
    (decide (c.task.taskType = .Exclusive) && penaltyAllowed)
  .ok (c, d.settle .Expired peers now)

/-! ## Peers -/

/-- `settle_dispute_claim`: anybody may settle one worker of a ruled task who was not the
defendant. The claim and submission rent goes to the worker's agent account. -/
def settleDisputeClaim (c : TaskContext) (d : Dispute) : Result (TaskContext × Dispute) := do
  checkVersionCompatibleForExit c.config
  require (d.status = .SettlementPending) .DisputeSettlementNotPending
  require (d.peerWorkersSettled < d.peerWorkersTotal) .DisputeSettlementNotPending
  require (c.workerKey ≠ d.defendant) .DisputeDefendantNotPeer
  let claim ← demand (c.accounts.claims.lookup c.workerKey) .InvalidInput
  let rent := claim.lamports +
    ((c.accounts.submissions.lookup c.workerKey).map Account.lamports).getD 0
  let c ← sweepDisputeSubmission c c.workerKey
  let c := { c with worker := ⟨c.worker.lamports + rent, { c.worker.data with
    activeTasks := c.worker.data.activeTasks - 1 }⟩ }
  let c := closeClaimForfeitingSurplus c claim c.workerKey 0
  let workers ← subU c.task.currentWorkers 1
  let settled ← addU8 d.peerWorkersSettled 1
  let last := decide (settled = d.peerWorkersTotal)
  require (last = true → d.pendingTerminalStatus = .Resolved ∨ d.pendingTerminalStatus = .Expired)
    .DisputeTerminalStatusCorrupt
  .ok ({ c with accounts := { c.accounts with task := { c.task with
    currentWorkers := workers
    peerSettlementPending := if last then false else c.task.peerSettlementPending } } },
    { d with
      peerWorkersSettled := settled
      status := if last then d.pendingTerminalStatus else d.status })

/-! ## Slashes -/

/-- `calculate_approval_percentage`. -/
def calculateApprovalPercentage (votesFor votesAgainst : ℕ) : Result ℕ := do
  require (0 < votesFor + votesAgainst) .InsufficientVotes
  .ok (votesFor * 100 / (votesFor + votesAgainst))

/-- `worker_slash_finalizer_policy`: whether the slash may be applied, and whether the worker
really lost (the legacy policy also covers old split rulings). -/
def workerSlashFinalizerPolicy (d : Dispute) (task : Task) (approved : Bool) : Bool :=
  if d.status ≠ .Resolved then false
  else if task.workerSlashPending then workerLostDispute approved d.resolutionType
  else !d.slashApplied && decide (task.currentWorkers = 0) && approved &&
    decide (d.resolutionType = .Refund ∨ d.resolutionType = .Split)

/-- Whether the escrow still holds a token reserve for the slash. -/
def tokenReserveHeld (c : TaskContext) : Result Bool :=
  if c.task.rewardMint.isSome then do
    let escrow ← demand c.accounts.escrow .MissingTokenAccounts
    .ok (!escrow.data.isClosed)
  else .ok false

/-- The stake a lost dispute costs its worker, when the slash is applied at all. -/
def workerSlash (c : TaskContext) (d : Dispute) (applySlash : Bool) : Result ℕ :=
  if applySlash then
    calculateSlashAmount d.workerStakeAtDispute c.worker.data.stake c.config.slashPercentage
  else .ok 0

/-- Sweep the token reserve of a lost dispute to the treasury and close both accounts, when the
accounts are there to do it with. -/
def settleTokenReserve (c : TaskContext) (settle : Bool) : Result TaskContext :=
  if settle then do
    require (c.task.rewardMint.isSome = true) .InvalidTokenMint
    let escrow ← demand c.accounts.escrow .MissingTokenAccounts
    let vault ← demand c.accounts.tokenEscrow .MissingTokenAccounts
    .ok ({ c with accounts := { c.accounts with escrow := none, tokenEscrow := none } }.pay
      [⟨.tokenEscrow c.key, c.config.treasury, .stakeSlash, vault⟩,
        closeEscrowTransfer c.key c.task.creator escrow.lamports])
  else .ok c

/-- `apply_dispute_slash`: anybody may finish a ruling the worker lost. The context's worker is
the defendant; `withTokenAccounts` says whether the caller passes the token accounts. -/
def applyDisputeSlash (c : TaskContext) (d : Dispute) (withTokenAccounts : Bool) :
    Result (TaskContext × Dispute) := do
  let now := c.sys.now
  let claim ← demand (c.accounts.claims.lookup c.workerKey) .NotClaimed
  checkVersionCompatibleForExit c.config
  require (c.workerKey = d.defendant) .WorkerNotInDispute
  require (d.status = .Resolved) .DisputeNotResolved
  let windowOpen := decide (now ≤ satAddI64 d.resolvedAt slashWindow)
  let approvalPct ← calculateApprovalPercentage d.votesFor d.votesAgainst
  let approved := decide (c.config.disputeThreshold ≤ approvalPct)
  require (workerSlashFinalizerPolicy d c.task approved = true) .ClaimSlashPending
  let reserved ← tokenReserveHeld c
  require (d.slashApplied = false ∨ withTokenAccounts = true) .SlashAlreadyApplied
  let applySlash := !d.slashApplied && windowOpen
  let slash ← workerSlash c d applySlash
  let worker ← slashStake
    { c.worker with
      data := if applySlash then applyReputationPenalty c.worker.data else c.worker.data } slash
  let c ← settleTokenReserve ({ c with worker := worker }.pay
    [⟨.agent c.workerKey, c.config.treasury, .stakeSlash, slash⟩]) (withTokenAccounts || reserved)
  require (applySlash = true ∨ 0 < slash ∨ reserved = true ∨ windowOpen = false)
    .InvalidSlashAmount
  let (c, d) :=
    if d.slashApplied then (c, d)
    else ({ c with
      accounts := { c.accounts with task := { c.task with
        currentWorkers := c.task.currentWorkers - 1
        workerSlashPending := false } }
      worker := { c.worker with data := { c.worker.data with
        disputesAsDefendant := c.worker.data.disputesAsDefendant - 1
        activeTasks := c.worker.data.activeTasks - 1
        lastActive := now } } },
      { d with slashApplied := true })
  .ok (closeClaimForfeitingSurplus c claim c.worker.data.authority 0, d)

/-- `AgentRegistration::note_initiator_outcome_finalized`. -/
def AgentRegistration.noteInitiatorOutcomeFinalized (agent : AgentRegistration) :
    Result AgentRegistration := do
  let votes ← checkedSub agent.activeDisputeVotes 1 .CorruptedData
  .ok { agent with activeDisputeVotes := votes }

/-- `terminal_initiator_lost`. -/
def terminalInitiatorLost (d : Dispute) : Result Bool := do
  let approved ←
    match d.status with
    | .Resolved =>
        if d.votesFor = 1 ∧ d.votesAgainst = 0 then .ok true
        else if d.votesFor = 0 ∧ d.votesAgainst = 1 then .ok false
        else .error .CorruptedData
    | .Expired | .Cancelled => .ok false
    | .Active | .SettlementPending => .error .DisputeNotResolved
  .ok (initiatorLostDispute d.status approved)

/-- `initiator_lost_under_provenance_policy`. -/
def initiatorLostUnderProvenancePolicy (d : Dispute) (config : ProtocolConfig) (now : ℤ) :
    Result Bool :=
  if d.initiatorTracked then do
    require (d.status = .Resolved ∨ d.status = .Expired ∨ d.status = .Cancelled)
      .DisputeNotResolved
    require (0 < d.resolvedAt) .InvalidInput
    terminalInitiatorLost d
  else do
    require (d.status = .Resolved ∨ d.status = .Cancelled) .DisputeNotResolved
    require (now ≤ satAddI64 d.resolvedAt slashWindow) .SlashWindowExpired
    if d.status = .Cancelled then .ok true
    else do
      let approvalPct ← calculateApprovalPercentage d.votesFor d.votesAgainst
      require (approvalPct < config.disputeThreshold) .InvalidInput
      .ok true

/-- The stake an initiator loses with its dispute. -/
def initiatorSlashAmount (d : Dispute) (stake slashPercentage : ℕ) : Result ℕ := do
  require (slashPercentage ≤ 100) .InvalidInput
  if d.initiatorTracked then calculateSlashAmount stake stake slashPercentage
  else do
    require (0 < stake) .InsufficientStake
    require (stake * slashPercentage < u64Limit) .ArithmeticOverflow
    .ok (stake * slashPercentage / 100)

/-- The initiator after it lost its dispute, or won it, and what that cost. -/
def slashInitiator (d : Dispute) (agent : Account AgentRegistration) (lost : Bool)
    (slashPercentage : ℕ) : Result (Account AgentRegistration × ℕ) :=
  if lost then do
    let slash ← initiatorSlashAmount d agent.data.stake slashPercentage
    let agent ← slashStake { agent with data := applyReputationPenalty agent.data } slash
    .ok (agent, slash)
  else .ok (agent, 0)

/-- Release the outcome counter of a tracked dispute. -/
def releaseInitiatorOutcome (d : Dispute) (agent : AgentRegistration) :
    Result AgentRegistration :=
  if d.initiatorTracked then agent.noteInitiatorOutcomeFinalized else .ok agent

/-- `apply_initiator_slash`: anybody may finish a dispute for its initiator, and the initiator
pays for having lost it. -/
def applyInitiatorSlash (w : World) (disputeKey agentKey : Pubkey) :
    Result (World × List Transfer) := do
  let d ← demand (w.disputes.lookup disputeKey) .AccountNotInitialized
  let agent ← demand (w.agents.lookup agentKey) .AccountNotInitialized
  checkVersionCompatibleForExit w.config
  require (d.initiatorSlashApplied = false) .SlashAlreadyApplied
  require (agentKey = d.initiator) .UnauthorizedAgent
  require (agent.data.authority = d.initiatorAuthority) .NotTaskParticipant
  let lost ← initiatorLostUnderProvenancePolicy d w.config w.sys.now
  let (agent, slash) ← slashInitiator d agent lost w.config.slashPercentage
  let data ← releaseInitiatorOutcome d agent.data
  .ok ({ w with
    agents := w.agents.insert agentKey { agent with data := data }
    disputes := w.disputes.insert disputeKey { d with initiatorSlashApplied := true } },
    [⟨.agent agentKey, w.config.treasury, .stakeSlash, slash⟩])

/-! ## Administration -/

/-- `assign_dispute_resolver`. -/
def assignDisputeResolver (w : World) (signers : List Pubkey) (resolver : Pubkey) :
    Result World := do
  requireMultisigThreshold w.config signers
  require (resolver ≠ 0) .InvalidDisputeResolver
  .ok { w with resolvers := w.resolvers.insert resolver }

/-- `revoke_dispute_resolver`. -/
def revokeDisputeResolver (w : World) (signers : List Pubkey) (resolver : Pubkey) :
    Result World := do
  require (resolver ∈ w.resolvers) .AccountNotInitialized
  requireMultisigThreshold w.config signers
  .ok { w with resolvers := w.resolvers.erase resolver }

/-- `repair_dispute_initiator_counter`: the multisig restores one unit of a counter that an old
defect lost, against an incident dispute (a worker's own) and a pending one. -/
def repairDisputeInitiatorCounter (w : World) (signer : Pubkey) (signers : List Pubkey)
    (incidentKey pendingKey agentKey : Pubkey) (incidentSignature : Hash) : Result World := do
  let incident ← demand (w.disputes.lookup incidentKey) .AccountNotInitialized
  let pending ← demand (w.disputes.lookup pendingKey) .AccountNotInitialized
  let agent ← demand (w.agents.lookup agentKey) .AccountNotInitialized
  require (incidentKey ∉ w.counterRepairs) .AccountAlreadyInUse
  require (w.config.authority = signer) .UnauthorizedAgent
  requireMultisigThreshold w.config signers
  require (incidentSignature ≠ 0) .InvalidInput
  require (incident.initiatorTracked = true ∧ incident.initiator = agentKey ∧
    incident.defendant = agentKey ∧ incident.initiatedByCreator = false ∧
    incident.initiatorAuthority = agent.data.authority) .DisputeCounterRepairNotApplicable
  require (pending.initiatorTracked = true ∧ pending.initiator = agentKey ∧
    pending.initiatorAuthority = agent.data.authority ∧ pending.initiatorSlashApplied = false)
    .DisputeCounterRepairNotApplicable
  require (0 < pending.resolvedAt) .DisputeNotResolved
  let _ ← terminalInitiatorLost pending
  require (pendingKey ≠ incidentKey → incident.initiatorSlashApplied = true)
    .DisputeCounterRepairNotApplicable
  require (agent.data.activeDisputeVotes = 0) .DisputeCounterNotDeficient
  let data ← agent.data.noteDisputeInitiated
  .ok { w with
    agents := w.agents.insert agentKey { agent with data := data }
    counterRepairs := incidentKey :: w.counterRepairs }

end AgencCoordination
