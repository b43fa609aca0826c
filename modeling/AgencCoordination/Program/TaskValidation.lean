import AgencCoordination.Program.Prelude

/-!
# Task review helpers

The functions of `task_validation_helpers.rs` and the counters `Task` keeps in its reserved
bytes. A submission is counted twice while it waits for review: by
`TaskValidationConfig.pendingSubmissionCount` and, on contest-aware tasks, by
`Task.liveSubmissions`; the task's status is recomputed from the first count by
`syncTaskValidationStatus`.
-/

namespace AgencCoordination

open Foundations

/-- `Task::is_contest_task`. -/
def Task.isContestTask (task : Task) : Bool :=
  decide (taskSchemaContestAware ≤ task.taskSchema ∧ task.taskType = .Competitive)

/-- `is_manual_validation_task`. -/
def isManualValidationTask (task : Task) : Bool :=
  decide (task.constraintHash = manualValidationSentinel)

/-- `is_contest_configured_task`. -/
def isContestConfiguredTask (task : Task) : Bool :=
  task.isContestTask && isManualValidationTask task

/-- `Task::increment_claim_generation`. -/
def Task.incrementClaimGeneration (task : Task) : Result Task := do
  let next ← addU64 task.claimGeneration 1
  .ok { task with claimGeneration := next }

/-! ## Configuration checks -/

/-- `validate_review_window_for_mode`. -/
def validateReviewWindowForMode (mode : ValidationMode) (reviewWindowSecs : ℤ) : Result Unit :=
  match mode with
  | .CreatorReview =>
      require (0 < reviewWindowSecs ∧ reviewWindowSecs ≤ maxReviewWindowSecs)
        .InvalidReviewWindow
  | .ValidatorQuorum | .ExternalAttestation =>
      require (reviewWindowSecs = 0) .InvalidReviewWindow
  | .Auto => .error .InvalidValidationMode

/-- `validate_validator_quorum`. -/
def validateValidatorQuorum (mode : ValidationMode) (validatorQuorum : ℕ) : Result Unit :=
  match mode with
  | .ValidatorQuorum => require (0 < validatorQuorum) .InvalidValidatorQuorum
  | .CreatorReview | .ExternalAttestation =>
      require (validatorQuorum = 0) .InvalidValidatorQuorum
  | .Auto => .error .InvalidValidationMode

/-- `validate_attestor`. -/
def validateAttestor (mode : ValidationMode) (attestor : Option Pubkey) : Result Unit :=
  match mode with
  | .ExternalAttestation => do
      let a ← demand attestor .InvalidAttestor
      require (a ≠ 0) .InvalidAttestor
  | .CreatorReview | .ValidatorQuorum => require (attestor = none) .InvalidAttestor
  | .Auto => .error .InvalidValidationMode

/-- `validate_task_supports_validation_mode`: a contest is judged by its creator only. -/
def validateTaskSupportsValidationMode (task : Task) (mode : ValidationMode) : Result Unit := do
  require (task.taskType = .Competitive →
      taskSchemaContestAware ≤ task.taskSchema ∧ mode = .CreatorReview)
    .ValidationModeUnsupportedTaskType
  require (task.constraintHash = 0 ∨ isManualValidationTask task = true)
    .ManualValidationPrivateTaskUnsupported
  require (task.taskType = .BidExclusive → mode ≠ .ValidatorQuorum ∨ task.maxWorkers = 1)
    .ValidationModeUnsupportedTaskType

/-- `validate_configurable_task`. -/
def validateConfigurableTask (task : Task) : Result Unit := do
  require (task.status = .Open) .TaskValidationImmutableAfterClaim
  require (task.currentWorkers = 0 ∧ task.completions = 0) .TaskValidationImmutableAfterClaim

/-- The review configuration of a manual-validation task, in the mode a handler expects:
`is_manual_validation_task`, `ensure_validation_config` and `ensure_validation_mode`. -/
def ensureValidationConfig (accounts : TaskAccounts) (expected : Option ValidationMode) :
    Result TaskValidationConfig := do
  require (isManualValidationTask accounts.task = true) .TaskValidationConfigRequired
  let config ← demand accounts.validation .AccountNotInitialized
  require (expected = none ∨ expected = some config.mode) .ValidationModeMismatch
  .ok config

/-! ## Submission counters -/

/-- `increment_pending_submission_count`. -/
def incrementPendingSubmissionCount (config : TaskValidationConfig) :
    Result TaskValidationConfig := do
  let next ← addU16 config.pendingSubmissionCount 1
  .ok { config with pendingSubmissionCount := next }

/-- `decrement_pending_submission_count`. -/
def decrementPendingSubmissionCount (config : TaskValidationConfig) :
    Result TaskValidationConfig := do
  let next ← subU config.pendingSubmissionCount 1
  .ok { config with pendingSubmissionCount := next }

/-- `note_submission_entered_review`. -/
def noteSubmissionEnteredReview (task : Task) : Result Task :=
  if task.taskSchema < taskSchemaContestAware then .ok task
  else do
    let next ← addU8 task.liveSubmissions 1
    .ok { task with liveSubmissions := next }

/-- `note_submission_left_review`. -/
def noteSubmissionLeftReview (task : Task) : Result Task :=
  if task.taskSchema < taskSchemaContestAware then .ok task
  else do
    let next ← subU task.liveSubmissions 1
    .ok { task with liveSubmissions := next }

/-- The status a review configuration and a worker count call for. -/
def reviewStatus (pendingSubmissionCount currentWorkers : ℕ) : TaskStatus :=
  if 0 < pendingSubmissionCount then .PendingValidation
  else if 0 < currentWorkers then .InProgress
  else .Open

/-- `sync_task_validation_status`: completed and frozen tasks keep their status. -/
def syncTaskValidationStatus (task : Task) (config : TaskValidationConfig) : Task :=
  if task.status = .Completed ∨ task.status = .RejectFrozen then task
  else { task with status := reviewStatus config.pendingSubmissionCount task.currentWorkers }

/-! ## Contest windows -/

/-- `contest_ghost_at`. -/
def contestGhostAt (task : Task) : Result ℤ := do
  require (0 < task.deadline) .InvalidDeadline
  addI64 task.deadline selectionWindowSecs

/-- `validate_contest_accept_window`. -/
def validateContestAcceptWindow (task : Task) (now : ℤ) : Result Unit :=
  if task.isContestTask then do
    let ghostAt ← contestGhostAt task
    require (now < ghostAt) .ContestSelectionWindowElapsed
    require (task.liveSubmissions = 1) .ContestAcceptRequiresSoleLiveSubmission
  else .ok ()

/-- `validate_contest_reject_window`. -/
def validateContestRejectWindow (task : Task) (now : ℤ) : Result Unit :=
  if task.isContestTask then do
    let ghostAt ← contestGhostAt task
    require (now < ghostAt) .ContestSelectionWindowElapsed
  else .ok ()

/-- `validate_completing_accept_sole_submission`. -/
def validateCompletingAcceptSoleSubmission (task : Task) : Result Unit :=
  if task.isContestTask then .ok ()
  else if task.taskType = .Collaborative then .ok ()
  else if task.taskSchema < taskSchemaContestAware then .ok ()
  else if task.requiredCompletions ≤ satAdd u8Limit task.completions 1 then
    require (task.liveSubmissions = 1) .CompletingAcceptRequiresSoleLiveSubmission
  else .ok ()

/-! ## Worker slots -/

/-- `release_claim_slot`. -/
def releaseClaimSlot (task : Task) (worker : AgentRegistration) (releasedAt : ℤ) :
    Result (Task × AgentRegistration) := do
  let workers ← subU task.currentWorkers 1
  let active ← subU worker.activeTasks 1
  .ok ({ task with currentWorkers := workers },
    { worker with activeTasks := active, lastActive := releasedAt })

/-! ## Dependencies -/

/-- `validate_task_dependency`: a task with a dependency moves on only after its parent. -/
def validateTaskDependency (c : TaskContext) : Result Unit := do
  require (c.task.dependencyType ≠ .None → c.task.dependsOn.isSome) .InvalidDependencyType
  require (c.task.dependencyType ≠ .None → c.parent = some .Completed) .ParentTaskNotCompleted

/-- `dependency_parent_completed`: whether the named parent is there and completed. -/
def dependencyParentCompleted (c : TaskContext) : Bool :=
  decide (c.task.dependencyType = .None ∨ c.parent = some .Completed)

end AgencCoordination
