import AgencCoordination.Program.Completion
import AgencCoordination.Program.Agents

/-!
# Task creation

The instructions that open a task and fund its escrow: `create_task`, `create_dependent_task`,
`create_task_humanless` and the two hires from a listing, over the shared checks of
`task_init_helpers.rs`; and the two that finish its setup, `configure_task_validation` and
`set_task_job_spec`. The address of a new task is an argument, required to be fresh.
-/

namespace AgencCoordination

open Foundations

/-! ## Checks -/

/-- The arguments all creation instructions share. -/
structure TaskParams where
  taskId : Hash
  requiredCapabilities : BitVec 64
  description : Hash × Hash
  rewardAmount : ℕ
  maxWorkers : ℕ
  deadline : ℤ
  taskType : TaskType
  minReputation : ℕ
  rewardMint : Option Pubkey
  deriving DecidableEq

/-- `validate_task_params`. -/
def validateTaskParams (p : TaskParams) : Result Unit := do
  require (p.taskId ≠ 0) .InvalidTaskId
  require (p.description ≠ (0, 0)) .InvalidDescription
  require (p.requiredCapabilities ≠ 0) .InvalidRequiredCapabilities
  require (0 < p.maxWorkers ∧ p.maxWorkers ≤ disputeSafeMaxWorkers) .InvalidMaxWorkers
  require (p.taskType = .Exclusive → p.maxWorkers = 1) .InvalidMaxWorkers
  require (p.minReputation ≤ maxReputation) .InvalidMinReputation

/-- `validate_description_is_content_hash`. -/
def validateDescriptionIsContentHash (description : Hash × Hash) : Result Unit := do
  require (description.2 = 0) .InvalidDescription
  require (description.1 ≠ 0) .InvalidDescription

/-- `require_private_task_creation_disabled`. -/
def requirePrivateTaskCreationDisabled (constraintHash : Option Hash) : Result Unit :=
  require (constraintHash = none) .PrivateTaskCreationDisabled

/-- `validate_bid_task_mode`. -/
def validateBidTaskMode (p : TaskParams) : Result Unit := do
  require (p.taskType = .BidExclusive → p.maxWorkers = 1) .BidExclusiveRequiresSingleWorker
  require (p.taskType = .BidExclusive → p.rewardMint = none) .BidTaskSolOnly

/-- `validate_deadline`. -/
def validateDeadline (deadline now : ℤ) (required : Bool) : Result Unit := do
  require (required = true → 0 < deadline) .InvalidDeadline
  require (0 < deadline → now < deadline) .InvalidInput
  require (0 < deadline → deadline ≤ satAddI64 now maxDeadlineSeconds) .InvalidDeadline

/-- `initial_required_completions`. -/
def initialRequiredCompletions (p : TaskParams) : ℕ :=
  if p.taskType = .Collaborative then p.maxWorkers else 1

/-- `validate_reward_covers_required_completions`. -/
def validateRewardCoversRequiredCompletions (taskType : TaskType)
    (rewardAmount requiredCompletions : ℕ) : Result Unit :=
  require (taskType = .Collaborative → requiredCompletions ≤ rewardAmount) .RewardTooSmall

/-- `init_task_fields`. -/
def initTaskFields (p : TaskParams) (creator : Pubkey) (protocolFeeBps : ℕ) (timestamp : ℤ) :
    Result Task := do
  validateRewardCoversRequiredCompletions p.taskType p.rewardAmount (initialRequiredCompletions p)
  require (p.taskType = .Competitive → p.rewardMint = none) .ContestSolRewardOnly
  require (p.taskType = .Competitive → 0 < p.deadline) .InvalidDeadline
  .ok {
    taskId := p.taskId
    creator := creator
    requiredCapabilities := p.requiredCapabilities
    description := p.description
    constraintHash := 0
    rewardAmount := p.rewardAmount
    maxWorkers := p.maxWorkers
    taskType := p.taskType
    createdAt := timestamp
    deadline := p.deadline
    requiredCompletions := initialRequiredCompletions p
    protocolFeeBps := protocolFeeBps
    minReputation := p.minReputation
    rewardMint := p.rewardMint
    taskSchema := taskSchemaContestAware }

/-! ## Funding -/

/-- What the addresses of a new task already hold: anybody may send lamports, or tokens, to an
address before the account on it exists. -/
structure Prefunding where
  lamports : ℕ := 0
  tokens : ℕ := 0
  deriving DecidableEq

/-- `init_escrow_fields` on the account `init` creates: the creator tops the address up to the
rent-exempt minimum and deposits the reward. -/
def initEscrow (rent : Rent) (task : Task) (pre : Prefunding) : Account TaskEscrow :=
  let base := max (rent.minimumBalance taskEscrowSize) pre.lamports
  ⟨if task.rewardMint.isNone then base + task.rewardAmount else base,
    { amount := task.rewardAmount, distributed := 0, isClosed := false }⟩

/-- The accounts of a new task. -/
def newTaskAccounts (rent : Rent) (task : Task) (pre : Prefunding) : TaskAccounts :=
  { task := task
    escrow := some (initEscrow rent task pre)
    tokenEscrow := if task.rewardMint.isNone then none else some (pre.tokens + task.rewardAmount) }

/-- The throttle of a wallet that creates a task, with the quota account when it is passed. -/
def checkTaskCreation (w : World) (authority : Pubkey) (useQuota : Bool) :
    Result CreationThrottle := do
  let quota ←
    if useQuota then do
      let quota ← demand (w.quotas.lookup authority) .InvalidTaskQuotaAccount
      pure (some quota)
    else pure none
  checkTaskCreationWithOptionalQuota ((w.rateLimits.lookup authority).getD {}) quota authority
    w.config w.sys.now

/-- Store a new task and its creator's throttle, and count it (`increment_total_tasks`). -/
def storeNewTask (w : World) (key authority : Pubkey) (throttle : CreationThrottle)
    (accounts : TaskAccounts) : Result World := do
  let totalTasks ← addU64 w.config.totalTasks 1
  .ok { w with
    tasks := w.tasks.insert key accounts
    rateLimits := w.rateLimits.insert authority throttle.limit
    quotas :=
      match throttle.quota with
      | some quota => w.quotas.insert authority quota
      | none => w.quotas
    config := { w.config with totalTasks := totalTasks } }

/-! ## Creation -/

/-- `create_task`. -/
def createTask (w : World) (key creator creatorAgent : Pubkey) (p : TaskParams)
    (constraintHash : Option Hash) (referrer : Option Pubkey) (referrerFeeBps : ℕ)
    (useQuota : Bool) (pre : Prefunding) : Result World := do
  require (w.tasks.lookup key = none) .AccountAlreadyInUse
  let agent ← demand (w.agents.lookup creatorAgent) .AccountNotInitialized
  require (agent.data.authority = creator) .UnauthorizedAgent
  validateTaskParams p
  requirePrivateTaskCreationDisabled constraintHash
  validateDescriptionIsContentHash p.description
  validateBidTaskMode p
  require (0 < p.rewardAmount) .InvalidReward
  checkVersionCompatible w.config
  requireTaskTypeEnabled w.config p.taskType
  validateDeadline p.deadline w.sys.now true
  require (agent.data.status = .Active) .AgentNotActive
  let throttle ← checkTaskCreation w creator useQuota
  let task ← initTaskFields p creator w.config.protocolFeeBps w.sys.now
  let (referrerKey, referrerBps) ← resolveReferrerSnapshot referrer referrerFeeBps
    w.config.protocolFeeBps 0 creator
  require (referrerBps = 0 ∨ p.rewardMint = none) .InvalidTokenMint
  validateMarketplacePayeeDestinations w.sys key creator 0 0 referrerKey referrerBps
  storeNewTask w key creator throttle (newTaskAccounts w.sys.rent
    { task with referrer := referrerKey, referrerFeeBps := referrerBps } pre)

/-- `create_dependent_task`. -/
def createDependentTask (w : World) (key creator creatorAgent parentKey : Pubkey)
    (p : TaskParams) (constraintHash : Option Hash) (dependencyType : DependencyType)
    (useQuota : Bool) (pre : Prefunding) : Result World := do
  require (w.tasks.lookup key = none) .AccountAlreadyInUse
  let agent ← demand (w.agents.lookup creatorAgent) .AccountNotInitialized
  require (agent.data.authority = creator) .UnauthorizedAgent
  validateTaskParams p
  requirePrivateTaskCreationDisabled constraintHash
  validateDescriptionIsContentHash p.description
  validateBidTaskMode p
  let parent ← demand (w.tasks.lookup parentKey) .AccountNotInitialized
  require (parent.task.status ≠ .Cancelled) .ParentTaskCancelled
  require (parent.task.status ≠ .Disputed) .ParentTaskDisputed
  require (parent.task.creator = creator) .UnauthorizedCreator
  require (dependencyType ≠ .None) .InvalidDependencyType
  checkVersionCompatible w.config
  requireTaskTypeEnabled w.config p.taskType
  validateDeadline p.deadline w.sys.now false
  require (agent.data.status = .Active) .AgentNotActive
  let throttle ← checkTaskCreation w creator useQuota
  require (0 < p.rewardAmount) .RewardTooSmall
  let task ← initTaskFields p creator w.config.protocolFeeBps w.sys.now
  storeNewTask w key creator throttle (newTaskAccounts w.sys.rent
    { task with dependsOn := some parentKey, dependencyType := dependencyType } pre)

/-- The creator-review configuration the humanless instructions install. -/
def creatorReviewConfig (reviewWindowSecs now : ℤ) : TaskValidationConfig :=
  { mode := .CreatorReview
    reviewWindowSecs := reviewWindowSecs
    createdAt := now
    updatedAt := now }

/-- `create_task_humanless`: an exclusive creator-review task of a wallet without an agent. -/
def createTaskHumanless (w : World) (key creator : Pubkey) (p : TaskParams)
    (reviewWindowSecs : ℤ) (referrer : Option Pubkey) (referrerFeeBps : ℕ) (useQuota : Bool)
    (pre : Prefunding) : Result World := do
  require (w.tasks.lookup key = none) .AccountAlreadyInUse
  let p := { p with maxWorkers := 1, taskType := .Exclusive, rewardMint := none }
  validateTaskParams p
  validateDescriptionIsContentHash p.description
  require (0 < p.rewardAmount) .InvalidReward
  validateReviewWindowForMode .CreatorReview reviewWindowSecs
  checkVersionCompatible w.config
  requireTaskTypeEnabled w.config .Exclusive
  validateDeadline p.deadline w.sys.now true
  let throttle ← checkTaskCreation w creator useQuota
  let task ← initTaskFields p creator w.config.protocolFeeBps w.sys.now
  let (referrerKey, referrerBps) ← resolveReferrerSnapshot referrer referrerFeeBps
    w.config.protocolFeeBps 0 creator
  validateMarketplacePayeeDestinations w.sys key creator 0 0 referrerKey referrerBps
  storeNewTask w key creator throttle { newTaskAccounts w.sys.rent
    { task with
      constraintHash := manualValidationSentinel
      referrer := referrerKey
      referrerFeeBps := referrerBps } pre with
    validation := some (creatorReviewConfig reviewWindowSecs w.sys.now) }

/-! ## Hiring -/

/-- `validate_hire_terms`. -/
def validateHireTerms (listing : ServiceListing) (expectedPrice expectedVersion : ℕ)
    (buyer : Pubkey) : Result Unit := do
  require (listing.active = true) .ListingNotActive
  require (listing.price = expectedPrice) .ListingPriceMismatch
  require (listing.version = expectedVersion) .ListingVersionMismatch
  require (buyer ≠ listing.authority) .SelfTaskNotAllowed
  require (listing.priceMint = none) .InvalidTokenMint
  require (1000 ≤ listing.price) .ListingPriceTooLow

/-- `validate_listing_capacity`. -/
def validateListingCapacity (listing : ServiceListing) : Result Unit :=
  require (listing.maxOpenJobs = 0 ∨ listing.openJobs < listing.maxOpenJobs)
    .ListingCapacityReached

/-- `hire_deadline_offset`. -/
def hireDeadlineOffset (defaultDeadlineSecs maxClaimDuration : ℤ) : ℤ :=
  if 0 < defaultDeadlineSecs then defaultDeadlineSecs else maxClaimDuration

/-- The task both hires create from a listing, and its hire record. -/
def hireFromListingCore (w : World) (key creator : Pubkey) (listing : ServiceListing)
    (taskId taskJobSpecHash : Hash) (expectedPrice expectedVersion : ℕ)
    (referrer : Option Pubkey) (referrerFeeBps : ℕ) (useQuota : Bool) :
    Result (CreationThrottle × Task × HireRecord) := do
  let provider ← demand (w.agents.lookup listing.providerAgent) .AccountNotInitialized
  require (provider.data.status = .Active ∧ provider.data.retired = false) .AgentNotActive
  validateHireTerms listing expectedPrice expectedVersion creator
  validateListingCapacity listing
  let deadline := satAddI64 w.sys.now
    (hireDeadlineOffset listing.defaultDeadlineSecs w.config.maxClaimDuration)
  validateDeadline deadline w.sys.now true
  require (listing.specHash ≠ 0) .ListingInvalidSpec
  require (taskJobSpecHash ≠ 0) .InvalidTaskJobSpecHash
  let throttle ← checkTaskCreation w creator useQuota
  let task ← initTaskFields
    { taskId := taskId
      requiredCapabilities := listing.requiredCapabilities
      description := (listing.specHash, taskJobSpecHash)
      rewardAmount := listing.price
      maxWorkers := 1
      deadline := deadline
      taskType := .Exclusive
      minReputation := 0
      rewardMint := none } creator w.config.protocolFeeBps w.sys.now
  require (listing.operator ≠ 0 → listing.operator ≠ creator) .OperatorIsCreator
  let operatorBps := if listing.operator ≠ 0 then listing.operatorFeeBps else 0
  let (referrerKey, referrerBps) ← resolveReferrerSnapshot referrer referrerFeeBps
    w.config.protocolFeeBps operatorBps creator
  validateMarketplacePayeeDestinations w.sys key creator listing.operator operatorBps
    referrerKey referrerBps
  .ok (throttle,
    { task with
      operator := listing.operator
      operatorFeeBps := operatorBps
      referrer := referrerKey
      referrerFeeBps := referrerBps },
    { listing := listing.key
      operator := listing.operator
      operatorFeeBps := listing.operatorFeeBps
      designatedProvider := listing.providerAgent
      referrer := referrerKey
      referrerFeeBps := referrerBps })

/-- `hire_from_listing`. -/
def hireFromListing (w : World) (key creator creatorAgent : Pubkey) (listing : ServiceListing)
    (taskId taskJobSpecHash : Hash) (expectedPrice expectedVersion : ℕ)
    (referrer : Option Pubkey) (referrerFeeBps : ℕ) (useQuota : Bool) (pre : Prefunding) :
    Result World := do
  require (w.tasks.lookup key = none) .AccountAlreadyInUse
  let agent ← demand (w.agents.lookup creatorAgent) .AccountNotInitialized
  require (agent.data.authority = creator) .UnauthorizedAgent
  checkVersionCompatible w.config
  requireTaskTypeEnabled w.config .Exclusive
  require (agent.data.status = .Active ∧ agent.data.retired = false) .AgentNotActive
  let (throttle, task, hire) ← hireFromListingCore w key creator listing taskId taskJobSpecHash
    expectedPrice expectedVersion referrer referrerFeeBps useQuota
  storeNewTask w key creator throttle
    { newTaskAccounts w.sys.rent task pre with hire := some hire }

/-- `hire_from_listing_humanless`: a hire whose result the buyer reviews. -/
def hireFromListingHumanless (w : World) (key creator : Pubkey) (listing : ServiceListing)
    (taskId taskJobSpecHash : Hash) (expectedPrice expectedVersion : ℕ) (reviewWindowSecs : ℤ)
    (referrer : Option Pubkey) (referrerFeeBps : ℕ) (useQuota : Bool) (pre : Prefunding) :
    Result World := do
  require (w.tasks.lookup key = none) .AccountAlreadyInUse
  checkVersionCompatible w.config
  requireTaskTypeEnabled w.config .Exclusive
  validateReviewWindowForMode .CreatorReview reviewWindowSecs
  let (throttle, task, hire) ← hireFromListingCore w key creator listing taskId taskJobSpecHash
    expectedPrice expectedVersion referrer referrerFeeBps useQuota
  storeNewTask w key creator throttle
    { newTaskAccounts w.sys.rent { task with constraintHash := manualValidationSentinel } pre with
      hire := some hire
      validation := some (creatorReviewConfig reviewWindowSecs w.sys.now) }

/-! ## Setup -/

/-- `configure_task_validation`: the creator installs a review configuration on an unclaimed
task that is not a hire. -/
def configureTaskValidation (c : TaskContext) (signer : Pubkey) (mode : ValidationMode)
    (reviewWindowSecs : ℤ) (validatorQuorum : ℕ) (attestor : Option Pubkey) :
    Result TaskContext := do
  require (c.task.creator = signer) .UnauthorizedTaskAction
  checkVersionCompatible c.config
  requireTaskTypeEnabled c.config c.task.taskType
  require (c.accounts.hire = none) .HiredTaskValidationUnsupported
  require (mode ≠ .Auto) .InvalidValidationMode
  require (mode ≠ .ValidatorQuorum) .InvalidValidationMode
  validateReviewWindowForMode mode reviewWindowSecs
  validateValidatorQuorum mode validatorQuorum
  validateAttestor mode attestor
  validateConfigurableTask c.task
  validateTaskSupportsValidationMode c.task mode
  require (mode ≠ .CreatorReview → c.task.referrerFeeBps = 0) .InvalidInput
  require (attestor ≠ some c.task.creator) .InvalidAttestor
  let previous := c.accounts.validation.getD {}
  .ok { c with accounts := { c.accounts with
    task := { c.task with constraintHash := manualValidationSentinel }
    validation := some { previous with
      mode := mode
      reviewWindowSecs := reviewWindowSecs
      validatorQuorum := validatorQuorum
      pendingSubmissionCount := 0
      createdAt := if previous.createdAt = 0 then c.sys.now else previous.createdAt
      updatedAt := c.sys.now }
    attestor := attestor } }

/-- `set_task_job_spec`, without the moderation gate in front of it. -/
def setTaskJobSpec (c : TaskContext) (signer : Pubkey) (jobSpecHash : Hash) :
    Result TaskContext := do
  require (c.task.creator = signer) .UnauthorizedTaskAction
  require (jobSpecHash ≠ 0) .InvalidTaskJobSpecHash
  checkVersionCompatible c.config
  requireTaskTypeEnabled c.config c.task.taskType
  validateConfigurableTask c.task
  let previous := c.accounts.jobSpec.getD {}
  require (previous.bidLocked = false) .TaskJobSpecBidLocked
  require (c.accounts.hire.isSome = true →
    c.task.description.2 ≠ 0 ∧ c.task.description.2 = jobSpecHash) .HiredTaskJobSpecMismatch
  .ok { c with accounts := { c.accounts with
    jobSpec := some { previous with jobSpecHash := jobSpecHash, updatedAt := c.sys.now } } }

end AgencCoordination
