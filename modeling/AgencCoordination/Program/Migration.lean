import AgencCoordination.Foundations.Borsh
import AgencCoordination.Program.Prelude

/-!
# Account layouts and their migration

The bytes of the `Task` and `ProtocolConfig` accounts, with their append-only history, and the
instructions that grow an account of an old layout (`migrate.rs`), next to the loader of parent
tasks that reads every layout (`task_parent_helpers.rs`).

* **`LegacyTask`, `Batch2Task`, `Task`** — the layouts of 382, 432 and 466 bytes.
* **`LegacyConfig`, `ProtocolConfig`** — the layouts of 349 and 351 bytes.
* **`migrateProtocol`, `migrateTask`** — the two sweeps.
* **`loadCanonicalParentTask`** — the loader.

The derivation of program addresses and the rent schedule are the runtime's (`Runtime`). An
instruction that fails leaves every account as it was.
-/

namespace AgencCoordination.Layout

open Foundations
open Foundations.Codec

/-- A public key, as its bytes. -/
abbrev Pubkey := Bytes 32

/-- `Pubkey::default()`. -/
def Pubkey.default : Pubkey := .fill 32 0

def pubkey : Codec Pubkey := bytes 32

/-! ## Tasks -/

def taskStatus : Codec TaskStatus :=
  enum [.Open, .InProgress, .PendingValidation, .Completed, .Cancelled, .Disputed, .RejectFrozen]
    (fun a => by cases a <;> decide) (by decide) (by decide)

def taskType : Codec TaskType :=
  enum [.Exclusive, .Collaborative, .Competitive, .BidExclusive]
    (fun a => by cases a <;> decide) (by decide) (by decide)

def dependencyType : Codec DependencyType :=
  enum [.None, .Data, .Ordering, .Proof] (fun a => by cases a <;> decide) (by decide) (by decide)

/-- The fields of a task before Batch 2. -/
structure LegacyTask where
  taskId : Bytes 32
  creator : Pubkey
  requiredCapabilities : UInt64
  description : Bytes 64
  constraintHash : Bytes 32
  rewardAmount : UInt64
  maxWorkers : UInt8
  currentWorkers : UInt8
  status : TaskStatus
  taskType : TaskType
  createdAt : Int64
  deadline : Int64
  completedAt : Int64
  escrow : Pubkey
  result : Bytes 64
  completions : UInt8
  requiredCompletions : UInt8
  bump : UInt8
  protocolFeeBps : UInt16
  dependsOn : Option Pubkey
  dependencyType : DependencyType
  minReputation : UInt16
  rewardMint : Option Pubkey
  deriving DecidableEq

/-- The fields Batch 2 appended. -/
structure OperatorLeg where
  operator : Pubkey
  operatorFeeBps : UInt16
  reserved : Bytes 16
  deriving DecidableEq

/-- The fields of the referral leg, appended last. -/
structure ReferralLeg where
  referrer : Pubkey
  referrerFeeBps : UInt16
  deriving DecidableEq

structure Batch2Task extends LegacyTask, OperatorLeg
  deriving DecidableEq

structure Task extends Batch2Task, ReferralLeg
  deriving DecidableEq

def LegacyTask.codec : Codec LegacyTask :=
  ((bytes 32).seq <| pubkey.seq <| u64.seq <| (bytes 64).seq <| (bytes 32).seq <| u64.seq <|
    u8.seq <| u8.seq <| taskStatus.seq <| Layout.taskType.seq <| i64.seq <| i64.seq <| i64.seq <|
    pubkey.seq <| (bytes 64).seq <| u8.seq <| u8.seq <| u8.seq <| u16.seq <| pubkey.option.seq <|
    Layout.dependencyType.seq <| u16.seq pubkey.option).imap
    (fun (taskId, creator, requiredCapabilities, description, constraintHash, rewardAmount,
        maxWorkers, currentWorkers, status, taskType, createdAt, deadline, completedAt, escrow,
        result, completions, requiredCompletions, bump, protocolFeeBps, dependsOn, dependencyType,
        minReputation, rewardMint) =>
      { taskId, creator, requiredCapabilities, description, constraintHash, rewardAmount,
        maxWorkers, currentWorkers, status, taskType, createdAt, deadline, completedAt, escrow,
        result, completions, requiredCompletions, bump, protocolFeeBps, dependsOn, dependencyType,
        minReputation, rewardMint })
    (fun t => (t.taskId, t.creator, t.requiredCapabilities, t.description, t.constraintHash,
      t.rewardAmount, t.maxWorkers, t.currentWorkers, t.status, t.taskType, t.createdAt,
      t.deadline, t.completedAt, t.escrow, t.result, t.completions, t.requiredCompletions, t.bump,
      t.protocolFeeBps, t.dependsOn, t.dependencyType, t.minReputation, t.rewardMint))
    (fun _ => rfl) (fun _ => rfl)

def OperatorLeg.codec : Codec OperatorLeg :=
  (pubkey.seq <| u16.seq (bytes 16)).imap
    (fun (operator, operatorFeeBps, reserved) => { operator, operatorFeeBps, reserved })
    (fun leg => (leg.operator, leg.operatorFeeBps, leg.reserved)) (fun _ => rfl) (fun _ => rfl)

def ReferralLeg.codec : Codec ReferralLeg :=
  (pubkey.seq u16).imap (fun (referrer, referrerFeeBps) => { referrer, referrerFeeBps })
    (fun leg => (leg.referrer, leg.referrerFeeBps)) (fun _ => rfl) (fun _ => rfl)

def Batch2Task.codec : Codec Batch2Task :=
  (LegacyTask.codec.seq OperatorLeg.codec).imap
    (fun p => { toLegacyTask := p.1, toOperatorLeg := p.2 })
    (fun t => (t.toLegacyTask, t.toOperatorLeg)) (fun _ => rfl) (fun _ => rfl)

def Task.codec : Codec Task :=
  (Batch2Task.codec.seq ReferralLeg.codec).imap
    (fun p => { toBatch2Task := p.1, toReferralLeg := p.2 })
    (fun t => (t.toBatch2Task, t.toReferralLeg)) (fun _ => rfl) (fun _ => rfl)

/-- `Task::OLD_TASK_SIZE`. -/
def oldTaskSize : ℕ := 382

/-- `Task::BATCH2_TASK_SIZE`. -/
def batch2TaskSize : ℕ := 432

/-- `Task::SIZE`. -/
def taskSize : ℕ := 466

/-! ## The protocol configuration -/

/-- `ProtocolConfig::MAX_MULTISIG_OWNERS`. -/
def maxMultisigOwners : ℕ := 5

/-- The fields of the configuration before the surface revision. -/
structure LegacyConfig where
  authority : Pubkey
  treasury : Pubkey
  disputeThreshold : UInt8
  protocolFeeBps : UInt16
  minArbiterStake : UInt64
  minAgentStake : UInt64
  maxClaimDuration : Int64
  maxDisputeDuration : Int64
  totalAgents : UInt64
  totalTasks : UInt64
  completedTasks : UInt64
  totalValueDistributed : UInt64
  bump : UInt8
  multisigThreshold : UInt8
  multisigOwnersLen : UInt8
  taskCreationCooldown : Int64
  maxTasksPer24h : UInt8
  disputeInitiationCooldown : Int64
  maxDisputesPer24h : UInt8
  minStakeForDispute : UInt64
  slashPercentage : UInt8
  stateUpdateCooldown : Int64
  votingPeriod : Int64
  protocolVersion : UInt8
  minSupportedVersion : UInt8
  protocolPaused : Bool
  disabledTaskTypeMask : UInt8
  multisigOwners : List.Vector Pubkey maxMultisigOwners
  deriving DecidableEq

structure ProtocolConfig extends LegacyConfig where
  surfaceRevision : UInt16
  deriving DecidableEq

def LegacyConfig.codec : Codec LegacyConfig :=
  (pubkey.seq <| pubkey.seq <| u8.seq <| u16.seq <| u64.seq <| u64.seq <| i64.seq <| i64.seq <|
    u64.seq <| u64.seq <| u64.seq <| u64.seq <| u8.seq <| u8.seq <| u8.seq <| i64.seq <| u8.seq <|
    i64.seq <| u8.seq <| u64.seq <| u8.seq <| i64.seq <| i64.seq <| u8.seq <| u8.seq <|
    Codec.bool.seq <| u8.seq (pubkey.listOf maxMultisigOwners)).imap
    (fun (authority, treasury, disputeThreshold, protocolFeeBps, minArbiterStake, minAgentStake,
        maxClaimDuration, maxDisputeDuration, totalAgents, totalTasks, completedTasks,
        totalValueDistributed, bump, multisigThreshold, multisigOwnersLen, taskCreationCooldown,
        maxTasksPer24h, disputeInitiationCooldown, maxDisputesPer24h, minStakeForDispute,
        slashPercentage, stateUpdateCooldown, votingPeriod, protocolVersion, minSupportedVersion,
        protocolPaused, disabledTaskTypeMask, multisigOwners) =>
      { authority, treasury, disputeThreshold, protocolFeeBps, minArbiterStake, minAgentStake,
        maxClaimDuration, maxDisputeDuration, totalAgents, totalTasks, completedTasks,
        totalValueDistributed, bump, multisigThreshold, multisigOwnersLen, taskCreationCooldown,
        maxTasksPer24h, disputeInitiationCooldown, maxDisputesPer24h, minStakeForDispute,
        slashPercentage, stateUpdateCooldown, votingPeriod, protocolVersion, minSupportedVersion,
        protocolPaused, disabledTaskTypeMask, multisigOwners })
    (fun c => (c.authority, c.treasury, c.disputeThreshold, c.protocolFeeBps, c.minArbiterStake,
      c.minAgentStake, c.maxClaimDuration, c.maxDisputeDuration, c.totalAgents, c.totalTasks,
      c.completedTasks, c.totalValueDistributed, c.bump, c.multisigThreshold, c.multisigOwnersLen,
      c.taskCreationCooldown, c.maxTasksPer24h, c.disputeInitiationCooldown, c.maxDisputesPer24h,
      c.minStakeForDispute, c.slashPercentage, c.stateUpdateCooldown, c.votingPeriod,
      c.protocolVersion, c.minSupportedVersion, c.protocolPaused, c.disabledTaskTypeMask,
      c.multisigOwners))
    (fun _ => rfl) (fun _ => rfl)

def ProtocolConfig.codec : Codec ProtocolConfig :=
  (LegacyConfig.codec.seq u16).imap (fun p => { toLegacyConfig := p.1, surfaceRevision := p.2 })
    (fun c => (c.toLegacyConfig, c.surfaceRevision)) (fun _ => rfl) (fun _ => rfl)

/-- `ProtocolConfig::OLD_CONFIG_SIZE`. -/
def oldConfigSize : ℕ := 349

/-- `ProtocolConfig::SIZE`. -/
def configSize : ℕ := 351

/-! ## Accounts -/

/-- An account of the framework: the discriminator of its type, then its fields. -/
def accountOf {α : Type} (discriminator : List UInt8) (c : Codec α) : Codec α :=
  ((magic discriminator).seq c).imap Prod.snd (fun a => ((), a)) (fun _ => rfl) (fun _ => rfl)

def taskDiscriminator : List UInt8 := [79, 34, 229, 55, 88, 90, 55, 84]

def configDiscriminator : List UInt8 := [207, 91, 250, 28, 152, 179, 215, 209]

/-- `try_deserialize`: the discriminator and the fields; what follows them is not read. -/
def tryDeserialize {α : Type} (c : Codec α) (data : List UInt8) : Option α :=
  (c.decode data).map Prod.fst

/-- `Task`, as an account. -/
def Task.account : Codec Task := accountOf taskDiscriminator Task.codec

/-- `ProtocolConfig`, as an account. -/
def ProtocolConfig.account : Codec ProtocolConfig :=
  accountOf configDiscriminator ProtocolConfig.codec

/-- `try_serialize` over the front of the account's bytes. -/
def trySerialize {α : Type} (c : Codec α) (a : α) (data : List UInt8) : List UInt8 :=
  c.encode a ++ data.drop (c.encode a).length

/-- An account as an instruction sees it. -/
structure AccountInfo where
  key : Pubkey
  owner : Pubkey
  lamports : ℕ
  data : List UInt8
  isSigner : Bool
  deriving DecidableEq

/-- What the program takes from the runtime: its own id, the system program's, the derivation of
program addresses and the rent of an account of a size. -/
structure Runtime where
  programId : Pubkey
  systemProgram : Pubkey
  findProgramAddress : List (List UInt8) → Pubkey × UInt8
  minimumBalance : ℕ → ℕ

/-- A seed given as a byte string literal. -/
def seed (text : String) : List UInt8 := text.toUTF8.toList

/-! ## The multisig gate -/

/-- The loop of `unique_account_infos`. -/
def uniqueFrom (seen : List Pubkey) : List AccountInfo → List AccountInfo
  | [] => []
  | account :: rest =>
    if account.key ∈ seen then uniqueFrom seen rest
    else account :: uniqueFrom (account.key :: seen) rest

/-- `unique_account_infos`. -/
def uniqueAccountInfos (accounts : List AccountInfo) : List AccountInfo := uniqueFrom [] accounts

/-- The keys that sign; each must be a system account. -/
def signerKeys (rt : Runtime) : List AccountInfo → Result (List Pubkey)
  | [] => .ok []
  | account :: rest =>
    if account.isSigner then do
      require (account.owner = rt.systemProgram) .MultisigSignerNotSystemOwned
      let keys ← signerKeys rt rest
      .ok (account.key :: keys)
    else signerKeys rt rest

/-- The owners among the signers; no owner may be the default key. -/
def approvals (signers : List Pubkey) : List Pubkey → Result ℕ
  | [] => .ok 0
  | owner :: rest => do
    require (owner ≠ Pubkey.default) .MultisigDefaultSigner
    let count ← approvals signers rest
    .ok (if owner ∈ signers then count + 1 else count)

/-- `require_multisig_threshold`. -/
def requireMultisigThreshold (rt : Runtime) (config : ProtocolConfig)
    (remaining : List AccountInfo) : Result Unit := do
  let ownersLen := config.multisigOwnersLen.toNat
  let threshold := config.multisigThreshold.toNat
  require (ownersLen ≠ 0 ∧ ownersLen ≤ maxMultisigOwners) .MultisigInvalidSigners
  require (2 ≤ threshold ∧ threshold ≤ ownersLen) .MultisigInvalidThreshold
  let keys ← signerKeys rt remaining
  let count ← approvals keys (config.multisigOwners.toList.take ownersLen)
  require (threshold ≤ count) .MultisigNotEnoughSigners

/-! ## Growing an account -/

/-- Grow an account to `size` with zeros, and have the payer top up its rent. -/
def growAccount (rt : Runtime) (size : ℕ) (account payer : AccountInfo) :
    Result (AccountInfo × AccountInfo) :=
  let grown := { account with data := padTo size account.data }
  let required := rt.minimumBalance size
  if account.lamports < required then do
    let deficit ← checkedSub required account.lamports .ArithmeticOverflow
    let left ← checkedSub payer.lamports deficit .InsufficientFunds
    .ok ({ grown with lamports := account.lamports + deficit }, { payer with lamports := left })
  else .ok (grown, payer)

/-! ## `migrate_protocol` -/

/-- The accounts of `migrate_protocol`. -/
structure MigrateProtocol where
  protocolConfig : AccountInfo
  payer : AccountInfo
  authority : AccountInfo
  remaining : List AccountInfo
  deriving DecidableEq

inductive MigrationAction
  | AlreadyMigrated
  | Realloc
  deriving DecidableEq

/-- `classify_config_migration`. -/
def classifyConfigMigration (len : ℕ) : Result MigrationAction :=
  if configSize ≤ len then .ok .AlreadyMigrated
  else if len = oldConfigSize then .ok .Realloc
  else .error .ConfigNotMigratable

/-- `validate_padding_fields`: no unknown bit in the mask of disabled task types. -/
def ProtocolConfig.validatePaddingFields (config : ProtocolConfig) : Bool :=
  config.disabledTaskTypeMask &&& ~~~(0b1111 : UInt8) == 0

/-- `apply_migration`. -/
def applyMigration (config : ProtocolConfig) (version : ℕ) : Result ProtocolConfig :=
  if version = 1 then .ok config
  else if version = 2 then .ok config
  else .error .InvalidMigrationTarget

/-- `CURRENT_PROTOCOL_VERSION`. -/
def currentProtocolVersion : UInt8 := 1

/-- `MIN_SUPPORTED_VERSION`. -/
def minSupportedProtocolVersion : UInt8 := 1

/-- The version leg: the migrations after the current version up to the target. -/
def advanceVersion (config : ProtocolConfig) (target : UInt8) : Result ProtocolConfig := do
  require (config.protocolVersion ≤ target) .InvalidMigrationTarget
  require (target ≤ currentProtocolVersion) .InvalidMigrationTarget
  require (minSupportedProtocolVersion ≤ config.protocolVersion) .InvalidMigrationSource
  if config.protocolVersion < target then do
    let config ← (List.range' (config.protocolVersion.toNat + 1)
      (target.toNat - config.protocolVersion.toNat)).foldlM applyMigration config
    .ok { config with protocolVersion := target }
  else .ok config

/-- The size leg: only an account of the old layout grows. -/
def growConfig (rt : Runtime) (action : MigrationAction) (info payer : AccountInfo) :
    Result (AccountInfo × AccountInfo) :=
  match action with
  | .AlreadyMigrated => .ok (info, payer)
  | .Realloc => growAccount rt configSize info payer

/-- `handler` of `migrate_protocol`. -/
def migrateProtocol (rt : Runtime) (accounts : MigrateProtocol) (targetVersion : UInt8) :
    Result MigrateProtocol := do
  let info := accounts.protocolConfig
  require (info.owner = rt.programId) .InvalidAccountOwner
  require (info.key = (rt.findProgramAddress [seed "protocol"]).1) .InvalidPda
  let action ← classifyConfigMigration info.data.length
  let config ← demand (tryDeserialize ProtocolConfig.account (padTo configSize info.data))
    .CorruptedData
  require (accounts.authority.isSigner = true) .MultisigNotEnoughSigners
  requireMultisigThreshold rt config (uniqueAccountInfos accounts.remaining)
  require (config.validatePaddingFields = true) .CorruptedData
  let resized ← growConfig rt action info accounts.payer
  let config ← advanceVersion config targetVersion
  .ok { accounts with
    protocolConfig :=
      { resized.1 with data := trySerialize ProtocolConfig.account config resized.1.data }
    payer := resized.2 }

/-! ## `migrate_task` -/

/-- The accounts of `migrate_task`. -/
structure MigrateTask where
  protocolConfig : AccountInfo
  task : AccountInfo
  payer : AccountInfo
  authority : AccountInfo
  remaining : List AccountInfo
  deriving DecidableEq

/-- `classify_task_migration`. -/
def classifyTaskMigration (len : ℕ) : Result MigrationAction :=
  if taskSize ≤ len then .ok .AlreadyMigrated
  else if len = oldTaskSize ∨ len = batch2TaskSize then .ok .Realloc
  else .error .TaskNotMigratable

/-- The address a task derives from its own identity fields, with its bump. -/
def canonicalTaskAddress (rt : Runtime) (task : Task) : Pubkey × UInt8 :=
  rt.findProgramAddress [seed "task", task.creator.data, task.taskId.data]

/-- `require_canonical_task_address`. -/
def requireCanonicalTaskAddress (rt : Runtime) (key : Pubkey) (task : Task) : Result Unit :=
  require (key = (canonicalTaskAddress rt task).1) .InvalidPda

/-- The configuration `migrate_task` reads from either layout. -/
def loadConfig (rt : Runtime) (info : AccountInfo) : Result ProtocolConfig := do
  require (info.owner = rt.programId) .InvalidAccountOwner
  require (info.key = (rt.findProgramAddress [seed "protocol"]).1) .InvalidPda
  require (oldConfigSize ≤ info.data.length) .ConfigNotMigratable
  let buf := if info.data.length < configSize then padTo configSize info.data else info.data
  demand (tryDeserialize ProtocolConfig.account buf) .CorruptedData

/-- `migrate_task_handler`. -/
def migrateTask (rt : Runtime) (accounts : MigrateTask) (dryRun : Bool) : Result MigrateTask := do
  let config ← loadConfig rt accounts.protocolConfig
  require (accounts.authority.isSigner = true) .MultisigNotEnoughSigners
  requireMultisigThreshold rt config (uniqueAccountInfos accounts.remaining)
  let info := accounts.task
  require (info.owner = rt.programId) .InvalidAccountOwner
  let action ← classifyTaskMigration info.data.length
  match action with
  | .AlreadyMigrated => do
    let task ← demand (tryDeserialize Task.account info.data) .TaskDiscriminatorMismatch
    requireCanonicalTaskAddress rt info.key task
    .ok accounts
  | .Realloc => do
    let task ← demand (tryDeserialize Task.account (padTo taskSize info.data))
      .TaskDiscriminatorMismatch
    requireCanonicalTaskAddress rt info.key task
    if dryRun then .ok accounts
    else do
      let (info, payer) ← growAccount rt taskSize info accounts.payer
      .ok { accounts with task := info, payer := payer }

/-! ## Loading a parent task -/

/-- `load_canonical_parent_task`. -/
def loadCanonicalParentTask (rt : Runtime) (info : AccountInfo) : Result Task := do
  require (info.owner = rt.programId) .InvalidAccountOwner
  let len := info.data.length
  require ((len = oldTaskSize ∨ len = batch2TaskSize) ∨ taskSize ≤ len) .ParentTaskAccountRequired
  let buf := if taskSize ≤ len then info.data else padTo taskSize info.data
  let parent ← demand (tryDeserialize Task.account buf) .ParentTaskAccountRequired
  let (address, bump) := canonicalTaskAddress rt parent
  require (info.key = address) .ParentTaskAccountRequired
  require (parent.bump = bump) .ParentTaskAccountRequired
  .ok parent

end AgencCoordination.Layout
