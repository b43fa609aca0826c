import AgencCoordination.Program.PrivateCompletion

/-!
# Claimability in the SDK

`isTaskStateDirectlyClaimable` and the job-spec pin checks of the SDK's query helpers, over the
`Task` account as its generated decoder returns it, and the bytes the program's `Task` record is
stored as.

Numbers and `bigint`s of the decoded account are integers; its enumerations are those of the
program.
-/

namespace AgencCoordination.Sdk

open Foundations

/-! ## The decoded account -/

/-- The decoded `Task` account, as far as discovery reads it. -/
structure TaskAccount where
  creator : Pubkey
  requiredCapabilities : BitVec 64
  constraintHash : List UInt8
  rewardAmount : ℕ
  maxWorkers : ℕ
  currentWorkers : ℕ
  status : TaskStatus
  taskType : TaskType
  deadline : ℤ
  completions : ℕ
  reserved : List UInt8
  deriving DecidableEq

/-- The number `k` as `n` bytes, least significant byte first. -/
def toLeBytes : ℕ → ℕ → List UInt8
  | 0, _ => []
  | n + 1, k => UInt8.ofNat k :: toLeBytes n (k / 256)

/-- A `bool` in reserved space. -/
def flagByte (b : Bool) : UInt8 := if b then 1 else 0

/-- `Task::_reserved`: schema, live submissions, the pending worker slash, the claim generation,
the pending peer settlement and the rating flag, then padding. -/
def reservedBytes (task : Task) : List UInt8 :=
  [UInt8.ofNat task.taskSchema, UInt8.ofNat task.liveSubmissions,
    flagByte task.workerSlashPending] ++
  toLeBytes 8 task.claimGeneration ++
  [flagByte task.peerSettlementPending, flagByte task.ratingFeeQualified, 0, 0, 0]

/-- The account of a task, decoded. -/
def decodeTask (task : Task) : TaskAccount :=
  { creator := task.creator
    requiredCapabilities := task.requiredCapabilities
    constraintHash := (toBytes task.constraintHash).data
    rewardAmount := task.rewardAmount
    maxWorkers := task.maxWorkers
    currentWorkers := task.currentWorkers
    status := task.status
    taskType := task.taskType
    deadline := task.deadline
    completions := task.completions
    reserved := reservedBytes task }

/-! ## Direct claims -/

/-- `MANUAL_VALIDATION_SENTINEL`. -/
def manualValidationText : String := "agenc-manual-validation-v2-seed!"

/-- `isManualValidationTask`: the hash has the sentinel's length and its character codes. -/
def isManualValidationTask (task : TaskAccount) : Bool :=
  decide (task.constraintHash.map UInt8.toNat = manualValidationText.toList.map Char.toNat)

/-- A contest, as the SDK reads it off the schema byte. -/
def isContest (task : TaskAccount) : Bool :=
  decide (1 ≤ task.reserved.getD 0 0) && decide (task.taskType = .Competitive)

/-- Tasks under review that still take claims. -/
def claimableDuringPendingValidation (task : TaskAccount) : Bool :=
  decide (task.status = .PendingValidation) &&
    (decide (task.taskType = .Collaborative) || isContest task) && isManualValidationTask task

/-- `isTaskStateDirectlyClaimable`. -/
def isTaskStateDirectlyClaimable (task : TaskAccount) (nowUnixTimestamp : ℤ) : Bool :=
  if task.taskType = .BidExclusive then false
  else if ¬(task.status = .Open ∨ task.status = .InProgress ∨
      claimableDuringPendingValidation task = true) then false
  else if 0 < task.deadline ∧ task.deadline ≤ nowUnixTimestamp then false
  else decide (task.currentWorkers < min task.maxWorkers disputeSafeMaxWorkers)

/-! ## Job-spec pins -/

/-- A decoded `TaskJobSpec` account. -/
structure JobSpecAccount where
  task : Pubkey
  jobSpecHash : List UInt8
  jobSpecUri : String
  deriving DecidableEq

/-- `isNonZeroHash`. -/
def isNonZeroHash (hash : List UInt8) : Bool := hash.any fun b => decide (b ≠ 0)

/-- The character ranges of `RUST_WHITESPACE_ONLY_PATTERN`. -/
def rustWhitespaceRanges : List (ℕ × ℕ) :=
  [(0x9, 0xd), (0x20, 0x20), (0x85, 0x85), (0xa0, 0xa0), (0x1680, 0x1680), (0x2000, 0x200a),
    (0x2028, 0x2028), (0x2029, 0x2029), (0x202f, 0x202f), (0x205f, 0x205f), (0x3000, 0x3000)]

/-- Whether the pattern's class has the character. -/
def inWhitespaceClass (c : Char) : Bool :=
  rustWhitespaceRanges.any fun range => decide (range.1 ≤ c.toNat ∧ c.toNat ≤ range.2)

/-- `RUST_WHITESPACE_ONLY_PATTERN.test`: every character is of the class, from start to end. -/
def rustWhitespaceOnly (uri : String) : Bool := uri.toList.all inWhitespaceClass

/-- `isNonBlankJobSpecUri`. -/
def isNonBlankJobSpecUri (uri : String) : Bool := !rustWhitespaceOnly uri

/-- The pin check of `listPinnedJobSpecTasks` and `isTaskJobSpecPinned`. -/
def isPinned (spec : JobSpecAccount) : Bool :=
  isNonZeroHash spec.jobSpecHash && isNonBlankJobSpecUri spec.jobSpecUri

/-- `listPinnedJobSpecTasks`. -/
def listPinnedJobSpecTasks (specs : List JobSpecAccount) : List Pubkey :=
  (specs.filter fun spec => isPinned spec).map JobSpecAccount.task

end AgencCoordination.Sdk
