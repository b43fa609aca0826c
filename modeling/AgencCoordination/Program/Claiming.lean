import AgencCoordination.Program.Bonds
import AgencCoordination.Program.Agents

/-!
# Claiming a task

How a worker takes a slot of a task that is not for bidding: `claim_task_with_job_spec`. The
plain `claim_task` instruction always fails and is left out.
-/

namespace AgencCoordination

open Foundations

/-! ## Direct claims -/

/-- `has_required_assignment_stake`. -/
def hasRequiredAssignmentStake (stake minimumStake : ℕ) : Bool := decide (minimumStake ≤ stake)

/-- Whether the worker has every required capability. -/
def hasCapabilities (worker : AgentRegistration) (task : Task) : Bool :=
  decide (worker.capabilities &&& task.requiredCapabilities = task.requiredCapabilities)

/-- `validate_hired_provider`: a hired task is for the provider it was hired from. -/
def validateHiredProvider (c : TaskContext) (jobSpecHash : Hash) : Result Unit :=
  match c.accounts.hire with
  | none => .ok ()
  | some hire => do
      require (c.task.description.2 ≠ 0 ∧ c.task.description.2 = jobSpecHash)
        .HiredTaskJobSpecMismatch
      require (hire.designatedProvider ≠ 0) .InvalidHireRecord
      require (hire.designatedProvider = c.workerKey) .UnauthorizedAgent

/-- `PendingValidation` tasks that still take claims: collaborations and contests under
review. -/
def claimableDuringPendingValidation (task : Task) : Bool :=
  decide (task.status = .PendingValidation) &&
    (decide (task.taskType = .Collaborative) || task.isContestTask) && isManualValidationTask task

/-- The reputation decay of an inactive worker. -/
def decayedReputation (worker : AgentRegistration) (now : ℤ) : ℕ :=
  let inactivePeriods := (now - worker.lastActive).tdiv reputationDecayPeriod
  if 0 < inactivePeriods ∧ reputationDecayMin < worker.reputation then
    let cappedPeriods := min inactivePeriods.toNat (maxReputation / reputationDecayRate + 1)
    max (worker.reputation - min (u16Limit - 1) (cappedPeriods * reputationDecayRate))
      reputationDecayMin
  else worker.reputation

/-- When a claim made now expires. -/
def claimExpiry (task : Task) (config : ProtocolConfig) (now : ℤ) : Result ℤ :=
  if 0 < task.deadline then addI64 task.deadline completionBuffer
  else addI64 now config.maxClaimDuration

/-- The claim account of a worker who takes a slot now. -/
def newClaim (now expiresAt : ℤ) : TaskClaim := { claimedAt := now, expiresAt := expiresAt }

/-- The balance of an account `init` creates: the rent-exempt minimum, or what the address
already held. -/
def initBalance (rent : Rent) (size prefunded : ℕ) : ℕ := max (rent.minimumBalance size) prefunded

/-- `process_claim`. -/
def processClaim (c : TaskContext) (prefunded : ℕ) : Result TaskContext := do
  let now := c.sys.now
  let worker := c.worker.data
  checkVersionCompatible c.config
  requireTaskTypeEnabled c.config c.task.taskType
  require (worker.authority ≠ c.task.creator) .SelfTaskNotAllowed
  let claim := (c.accounts.claims.lookup c.workerKey).getD
    ⟨initBalance c.sys.rent taskClaimSize prefunded, {}⟩
  require (claim.data.claimedAt ≤ 0) .AlreadyClaimed
  require (c.task.status = .Open ∨ c.task.status = .InProgress ∨
    claimableDuringPendingValidation c.task = true) .TaskNotOpen
  require (c.task.taskType ≠ .BidExclusive) .BidTaskRequiresAcceptance
  require (c.task.status.canTransitionTo .InProgress = true) .InvalidStatusTransition
  require (0 < c.task.deadline → now < c.task.deadline) .TaskExpired
  require (c.task.currentWorkers < min c.task.maxWorkers disputeSafeMaxWorkers) .TaskFullyClaimed
  require (worker.status = .Active) .AgentNotActive
  require (hasRequiredAssignmentStake worker.stake c.config.minAgentStake = true)
    .InsufficientStake
  require (hasCapabilities worker c.task = true) .InsufficientCapabilities
  let reputation := decayedReputation worker now
  require (0 < c.task.minReputation → c.task.minReputation ≤ reputation) .InsufficientReputation
  require (worker.activeTasks < maxActiveTasks) .MaxActiveTasksReached
  let expiresAt ← claimExpiry c.task c.config now
  let task ← c.task.incrementClaimGeneration
  let workers ← addU8 task.currentWorkers 1
  let active ← addU16 worker.activeTasks 1
  .ok { c with
    accounts := { c.accounts with
      task := { task with
        currentWorkers := workers
        status := if task.status = .PendingValidation then .PendingValidation else .InProgress }
      claims := c.accounts.claims.insert c.workerKey ⟨claim.lamports, newClaim now expiresAt⟩ }
    worker := { c.worker with data := { worker with
      reputation := reputation, activeTasks := active, lastActive := now } } }

/-- The entry deposit of a contest, held on the claim account. -/
def depositContestEntry (c : TaskContext) : TaskContext :=
  if isContestConfiguredTask c.task then
    match c.accounts.claims.lookup c.workerKey with
    | some claim => { c with accounts := { c.accounts with
        claims := c.accounts.claims.insert c.workerKey
          { claim with lamports := claim.lamports + contestEntryDepositLamports } } }
    | none => c
  else c

/-- `claim_task_with_job_spec`. -/
def claimTaskWithJobSpec (c : TaskContext) (signer : Pubkey) (prefunded : ℕ) :
    Result TaskContext := do
  require (c.worker.data.authority = signer) .UnauthorizedAgent
  let spec ← demand c.accounts.jobSpec .AccountNotInitialized
  require (spec.jobSpecHash ≠ 0) .InvalidTaskJobSpecHash
  validateHiredProvider c spec.jobSpecHash
  validateTaskDependency c
  let c ← processClaim c prefunded
  .ok (depositContestEntry c)

end AgencCoordination
