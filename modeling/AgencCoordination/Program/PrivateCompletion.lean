import AgencCoordination.Program.Market
import AgencCoordination.Foundations.Bytes

/-!
# Private completion

The `private-zk` build of the program: `complete_task_private`, with the journal the zkVM guest
serializes, the seal, the call into the verifier router, and the two records a proof spends.

Outside the program are SHA-256, the addresses derived from seeds, and the verifier router; they
are the fields of a `VerifierStack`. The `ZkConfig` cannot be written in this release: both of
its instructions end in `reject_zk_activation`.
-/

namespace AgencCoordination

open Foundations

/-- The width of a key, a digest and a journal field. -/
def hashSize : ℕ := 32

/-- 32 bytes. -/
abbrev Bytes32 := Bytes hashSize

/-- The bytes of a key or a digest. -/
def toBytes (k : ℕ) : Bytes32 := Bytes.bigEndian hashSize k

/-- `[0u8; HASH_SIZE]`. -/
def zeroHash : Bytes32 := Bytes.fill hashSize 0

/-! ## The guest's journal -/

/-- `JournalFields`, in the order of the journal. -/
structure JournalFields where
  taskPda : Bytes32
  agentAuthority : Bytes32
  constraintHash : Bytes32
  outputCommitment : Bytes32
  binding : Bytes32
  nullifier : Bytes32
  deriving DecidableEq

/-- `JournalError`. -/
inductive JournalError
  | InvalidFieldLength (field : String) (expected actual : ℕ)
  deriving DecidableEq

/-- `copy_field`. -/
def copyField (field : String) (value : List UInt8) : Except JournalError Bytes32 :=
  if h : value.length = hashSize then .ok ⟨value, h⟩
  else .error (.InvalidFieldLength field hashSize value.length)

/-- `JournalFields::try_from_slices`. -/
def JournalFields.tryFromSlices (taskPda agentAuthority constraintHash outputCommitment binding
    nullifier : List UInt8) : Except JournalError JournalFields := do
  let taskPda ← copyField "task_pda" taskPda
  let agentAuthority ← copyField "agent_authority" agentAuthority
  let constraintHash ← copyField "constraint_hash" constraintHash
  let outputCommitment ← copyField "output_commitment" outputCommitment
  let binding ← copyField "binding" binding
  let nullifier ← copyField "nullifier" nullifier
  .ok ⟨taskPda, agentAuthority, constraintHash, outputCommitment, binding, nullifier⟩

/-- `JournalFields::to_bytes`: one chunk a field. -/
def JournalFields.toBytes (f : JournalFields) : List UInt8 :=
  ([f.taskPda, f.agentAuthority, f.constraintHash, f.outputCommitment, f.binding,
    f.nullifier].map Bytes.data).flatten

/-- `serialize_journal`. -/
def serializeJournal (fields : JournalFields) : List UInt8 := fields.toBytes

/-! ## The program's reader -/

def risc0JournalLen : ℕ := 192
def journalTaskPdaOffset : ℕ := 0
def journalAuthorityOffset : ℕ := 32
def journalConstraintOffset : ℕ := 64
def journalCommitmentOffset : ℕ := 96
def journalBindingOffset : ℕ := 128
def journalNullifierOffset : ℕ := 160

/-- `ParsedJournal`. -/
structure ParsedJournal where
  taskPda : Bytes32
  agentAuthority : Bytes32
  constraintHash : Bytes32
  outputCommitment : Bytes32
  binding : Bytes32
  nullifier : Bytes32
  deriving DecidableEq

/-- `read_journal_field`. -/
def readJournalField (journal : List UInt8) (start : ℕ) : Result Bytes32 :=
  demand (Bytes.slice? journal start hashSize) .InvalidJournalLength

/-- `MIN_DISTINCT_BYTES`. -/
def minDistinctBytes : ℕ := 8

/-- `has_sufficient_byte_diversity`. -/
def hasSufficientByteDiversity (value : Bytes32) : Bool :=
  Bytes.distinctAtLeast minDistinctBytes value.data

/-- `parse_and_validate_journal`. -/
def parseAndValidateJournal (journal : List UInt8) : Result ParsedJournal := do
  require (journal.length = risc0JournalLen) .InvalidJournalLength
  let taskPda ← readJournalField journal journalTaskPdaOffset
  let agentAuthority ← readJournalField journal journalAuthorityOffset
  let constraintHash ← readJournalField journal journalConstraintOffset
  let outputCommitment ← readJournalField journal journalCommitmentOffset
  let binding ← readJournalField journal journalBindingOffset
  let nullifier ← readJournalField journal journalNullifierOffset
  require (outputCommitment ≠ zeroHash) .InvalidOutputCommitment
  require (binding ≠ zeroHash) .InvalidJournalBinding
  require (nullifier ≠ zeroHash) .InvalidNullifier
  require (hasSufficientByteDiversity binding = true) .InsufficientSeedEntropy
  require (hasSufficientByteDiversity nullifier = true) .InsufficientSeedEntropy
  .ok ⟨taskPda, agentAuthority, constraintHash, outputCommitment, binding, nullifier⟩

/-! ## Seals -/

def risc0SelectorLen : ℕ := 4
def risc0SealBytesLen : ℕ := 260

/-- `TRUSTED_RISC0_SELECTOR`. -/
def trustedRisc0Selector : Bytes risc0SelectorLen := ⟨[0x52, 0x5a, 0x56, 0x4d], rfl⟩

/-- `Risc0Groth16Proof`. -/
@[ext] structure Risc0Groth16Proof where
  piA : Bytes 64
  piB : Bytes 128
  piC : Bytes 64
  deriving DecidableEq

/-- `Risc0Seal`. -/
@[ext] structure Risc0Seal where
  selector : Bytes risc0SelectorLen
  proof : Risc0Groth16Proof
  deriving DecidableEq

/-- `decode_seal_bytes`. -/
def decodeSealBytes (sealBytes : List UInt8) : Result Risc0Seal := do
  require (sealBytes.length = risc0SealBytesLen) .InvalidSealEncoding
  let selector ← demand (Bytes.slice? sealBytes 0 risc0SelectorLen) .InvalidSealEncoding
  let piA ← demand (Bytes.slice? sealBytes risc0SelectorLen 64) .InvalidSealEncoding
  let piB ← demand (Bytes.slice? sealBytes (risc0SelectorLen + 64) 128) .InvalidSealEncoding
  let piC ← demand (Bytes.slice? sealBytes (risc0SelectorLen + 64 + 128) 64) .InvalidSealEncoding
  .ok ⟨selector, ⟨piA, piB, piC⟩⟩

/-! ## Payload and trust root -/

/-- `PrivateCompletionPayload`. -/
structure PrivateCompletionPayload where
  sealBytes : List UInt8
  journal : List UInt8
  imageId : Bytes32
  bindingSeed : Bytes32
  nullifierSeed : Bytes32
  deriving DecidableEq

/-- `DecodedPrivateProof`. -/
structure DecodedPrivateProof where
  risc0Seal : Risc0Seal
  parsedJournal : ParsedJournal
  journalDigest : Bytes32
  deriving DecidableEq

/-- `ZkConfig`. -/
structure ZkConfig where
  activeImageId : Bytes32
  deriving DecidableEq

/-- `BindingSpend`. -/
structure BindingSpend where
  binding : Bytes32
  task : Pubkey
  agent : Pubkey
  spentAt : ℤ
  deriving DecidableEq

/-- `NullifierSpend`. -/
structure NullifierSpend where
  nullifier : Bytes32
  task : Pubkey
  agent : Pubkey
  spentAt : ℤ
  deriving DecidableEq

/-! ## The verifier router -/

/-- `TRUSTED_RISC0_ROUTER_PROGRAM_ID`. -/
def trustedRisc0RouterProgramId : Pubkey :=
  88359270227269172894940178612339660214172611443612223512769286700122911944926

/-- `TRUSTED_RISC0_VERIFIER_PROGRAM_ID`. -/
def trustedRisc0VerifierProgramId : Pubkey :=
  17247157553164336444198282471479786035772317996326352309370673858798368718847

/-- The system program is the zero key. -/
def systemProgramId : Pubkey := 0

/-- `ROUTER_VERIFY_IX_DISCRIMINATOR`. -/
def routerVerifyIxDiscriminator : Bytes 8 := ⟨[133, 161, 141, 48, 120, 198, 88, 150], rfl⟩

/-- `VERIFIER_ENTRY_DISCRIMINATOR`. -/
def verifierEntryDiscriminator : Bytes 8 := ⟨[102, 247, 148, 158, 33, 153, 100, 93], rfl⟩

def verifierEntryAccountLen : ℕ := 45
def verifierEntrySelectorOffset : ℕ := 8
def verifierEntryVerifierOffset : ℕ := 12
def verifierEntryEstoppedOffset : ℕ := 44

/-- An account of a call into another program. -/
structure AccountMeta where
  pubkey : Pubkey
  isSigner : Bool
  isWritable : Bool
  deriving DecidableEq

/-- A call into another program. -/
structure CpiInstruction where
  programId : Pubkey
  accounts : List AccountMeta
  data : List UInt8
  deriving DecidableEq

/-- What the program relies on outside itself: `hashv`, the addresses derived from a binding, a
nullifier and the router's own seeds, and whether the router accepts a call, given the data of
its verifier entry. -/
structure VerifierStack where
  hashv : List UInt8 → Bytes32
  bindingSpendAddress : Bytes32 → Pubkey
  nullifierSpendAddress : Bytes32 → Pubkey
  routerAddress : Pubkey
  verifierEntryAddress : Pubkey
  routerAccepts : List UInt8 → CpiInstruction → Bool

/-- `decode_private_completion_payload`. -/
def decodePrivateCompletionPayload (stack : VerifierStack) (proof : PrivateCompletionPayload) :
    Result DecodedPrivateProof := do
  require (proof.sealBytes.length = risc0SealBytesLen) .InvalidSealEncoding
  let risc0Seal ← decodeSealBytes proof.sealBytes
  require (risc0Seal.selector = trustedRisc0Selector) .TrustedSelectorMismatch
  let parsedJournal ← parseAndValidateJournal proof.journal
  .ok ⟨risc0Seal, parsedJournal, stack.hashv proof.journal⟩

/-- `validate_verifier_entry_data`. -/
def validateVerifierEntryData (data : List UInt8) : Result Unit := do
  require (data.length = verifierEntryAccountLen) .RouterAccountMismatch
  let discriminator ← demand (Bytes.slice? data 0 8) .RouterAccountMismatch
  require (discriminator = verifierEntryDiscriminator) .RouterAccountMismatch
  let selector ← demand (Bytes.slice? data verifierEntrySelectorOffset risc0SelectorLen)
    .RouterAccountMismatch
  require (selector = trustedRisc0Selector) .TrustedSelectorMismatch
  let verifier ← demand (Bytes.slice? data verifierEntryVerifierOffset hashSize)
    .RouterAccountMismatch
  require (verifier = toBytes trustedRisc0VerifierProgramId) .TrustedVerifierProgramMismatch
  let estopped ← demand data[verifierEntryEstoppedOffset]? .RouterAccountMismatch
  require (estopped = 0) .RouterAccountMismatch

/-- `append_router_verify_args`. -/
def appendRouterVerifyArgs (out : List UInt8) (risc0Seal : Risc0Seal)
    (imageId journalDigest : Bytes32) : List UInt8 :=
  out ++ risc0Seal.selector.data ++ risc0Seal.proof.piA.data ++ risc0Seal.proof.piB.data ++
    risc0Seal.proof.piC.data ++ imageId.data ++ journalDigest.data

/-- The data of the verify call. -/
def routerVerifyData (risc0Seal : Risc0Seal) (imageId journalDigest : Bytes32) : List UInt8 :=
  appendRouterVerifyArgs routerVerifyIxDiscriminator.data risc0Seal imageId journalDigest

/-- The accounts of the verify call, in order. -/
def VerifierStack.routerKeys (stack : VerifierStack) : List Pubkey :=
  [stack.routerAddress, stack.verifierEntryAddress, trustedRisc0VerifierProgramId,
    systemProgramId]

/-- `build_router_verify_ix`: every account read-only, none signing. -/
def buildRouterVerifyIx (stack : VerifierStack) (risc0Seal : Risc0Seal)
    (imageId journalDigest : Bytes32) : CpiInstruction :=
  { programId := trustedRisc0RouterProgramId
    accounts := stack.routerKeys.map fun key => ⟨key, false, false⟩
    data := routerVerifyData risc0Seal imageId journalDigest }

/-- `validate_router_verify_ix`. -/
def validateRouterVerifyIx (ix : CpiInstruction) (expectedKeys : List Pubkey) : Result Unit := do
  require (ix.programId = trustedRisc0RouterProgramId) .RouterAccountMismatch
  require (ix.accounts.length = 4) .RouterAccountMismatch
  (ix.accounts.zip expectedKeys).forM fun (account, expectedKey) => do
    require (account.pubkey = expectedKey) .RouterAccountMismatch
    require (account.isSigner = false) .RouterAccountMismatch
    require (account.isWritable = false) .RouterAccountMismatch

/-- `build_and_validate_router_verify_ix`. -/
def buildAndValidateRouterVerifyIx (stack : VerifierStack) (proof : PrivateCompletionPayload)
    (decoded : DecodedPrivateProof) : Result CpiInstruction := do
  require (stack.routerAddress ≠ 0 ∧ stack.verifierEntryAddress ≠ 0) .RouterAccountMismatch
  let ix := buildRouterVerifyIx stack decoded.risc0Seal proof.imageId decoded.journalDigest
  validateRouterVerifyIx ix stack.routerKeys
  .ok ix

/-- `invoke_router_verification`. -/
def invokeRouterVerification (stack : VerifierStack) (verifierEntry : List UInt8)
    (proof : PrivateCompletionPayload) (decoded : DecodedPrivateProof) : Result Unit := do
  validateVerifierEntryData verifierEntry
  let ix ← buildAndValidateRouterVerifyIx stack proof decoded
  require (stack.routerAccepts verifierEntry ix = true) .ZkVerificationFailed

/-! ## Completing -/

/-- `u64::from_le_bytes`. -/
def fromLeBytes : List UInt8 → ℕ
  | [] => 0
  | b :: rest => b.toNat + 256 * fromLeBytes rest

/-- `validate_task_id`. -/
def validateTaskId (task : Task) (taskId : ℕ) : Result Unit :=
  require (taskId = fromLeBytes ((toBytes task.taskId).data.take 8)) .TaskNotFound

/-- `validate_parsed_journal`. -/
def validateParsedJournal (task : Task) (taskKey authority : Pubkey) (zkConfig : ZkConfig)
    (proof : PrivateCompletionPayload) (parsed : ParsedJournal) : Result Unit := do
  require (parsed.taskPda = toBytes taskKey) .InvalidJournalTask
  require (parsed.agentAuthority = toBytes authority) .InvalidJournalAuthority
  require (parsed.constraintHash = toBytes task.constraintHash) .ConstraintHashMismatch
  require (parsed.binding = proof.bindingSeed) .InvalidJournalBinding
  require (parsed.nullifier = proof.nullifierSeed) .InvalidNullifier
  require (proof.imageId = zkConfig.activeImageId) .InvalidImageId

/-- `validate_completion_inputs`. -/
def validateCompletionInputs (c : TaskContext) (claim : TaskClaim) (zkConfig : ZkConfig)
    (authority : Pubkey) (taskId : ℕ) (proof : PrivateCompletionPayload)
    (parsed : ParsedJournal) : Result Unit := do
  validateTaskId c.task taskId
  require (c.task.deadline = 0 ∨ c.sys.now ≤ c.task.deadline) .DeadlinePassed
  checkVersionCompatibleForExit c.config
  validateTaskDependency c
  validateCompletionPrereqs c.task claim c.sys.now
  require (isManualValidationTask c.task = false) .ManualValidationRequiresReviewFlow
  require (c.task.constraintHash ≠ 0) .NotPrivateTask
  validateParsedJournal c.task c.key authority zkConfig proof parsed

/-- `finalize_private_completion`: no operator or referrer leg. -/
def finalizePrivateCompletion (c : TaskContext) (rewardAmountOverride : Option ℕ) :
    Result TaskContext :=
  executeCompletionRewards c
    (calculateFeeWithReputation c.task.protocolFeeBps c.worker.data.reputation)
    rewardAmountOverride none none none

/-- The `complete_task_private` handler behind its accounts: the task after it, and the decoded
proof it was paid for. -/
def completeTaskPrivate (stack : VerifierStack) (verifierEntry : List UInt8) (zkConfig : ZkConfig)
    (c : TaskContext) (signer : Pubkey) (taskId : ℕ) (proof : PrivateCompletionPayload) :
    Result (TaskContext × DecodedPrivateProof) := do
  let claim ← demand (c.accounts.claims.lookup c.workerKey) .NotClaimed
  let decoded ← decodePrivateCompletionPayload stack proof
  validateCompletionInputs c claim.data zkConfig signer taskId proof decoded.parsedJournal
  invokeRouterVerification stack verifierEntry proof decoded
  let price ← loadBidTaskCompletionMeta c
  let c ← finalizePrivateCompletion c price
  let c ← finalizeBidTaskCompletion c
  let c ← closeClaim c signer
  .ok (c, decoded)

/-! ## The build -/

/-- The accounts of the `private-zk` build: the marketplace, the trust root, the spend records
by address, and the router's verifier entry. -/
structure PrivateMarket where
  market : Market
  zkConfig : Option ZkConfig := none
  bindingSpends : Ledger Pubkey BindingSpend := ∅
  nullifierSpends : Ledger Pubkey NullifierSpend := ∅
  verifierEntry : List UInt8 := []

/-- `reject_zk_activation`. -/
def rejectZkActivation : Result ZkConfig := .error .PrivateTaskCreationDisabled

/-- `initialize_zk_config`. -/
def initializeZkConfig (m : PrivateMarket) (signer : Pubkey) (signers : List Pubkey) :
    Result ZkConfig := do
  require (m.market.world.config.authority = signer) .UnauthorizedProtocolAuthority
  require (m.zkConfig = none) .AccountAlreadyInUse
  requireMultisigThreshold m.market.world.config signers
  rejectZkActivation

/-- `update_zk_image_id`. -/
def updateZkImageId (m : PrivateMarket) (signers : List Pubkey) : Result ZkConfig := do
  let _ ← demand m.zkConfig .AccountNotInitialized
  requireMultisigThreshold m.market.world.config signers
  rejectZkActivation

/-- `record_private_spends`, into the two accounts the instruction initialized. -/
def recordPrivateSpends (stack : VerifierStack) (m : PrivateMarket) (task agent : Pubkey)
    (proof : PrivateCompletionPayload) (parsed : ParsedJournal) (now : ℤ) : PrivateMarket :=
  { m with
    bindingSpends := m.bindingSpends.insert (stack.bindingSpendAddress proof.bindingSeed)
      ⟨parsed.binding, task, agent, now⟩
    nullifierSpends := m.nullifierSpends.insert (stack.nullifierSpendAddress proof.nullifierSeed)
      ⟨parsed.nullifier, task, agent, now⟩ }

/-- Run `complete_task_private`: the accounts it loads, the two it initializes, the handler. -/
def executePrivateCompletion (stack : VerifierStack) (m : PrivateMarket)
    (key workerKey signer : Pubkey) (taskId : ℕ) (proof : PrivateCompletionPayload) :
    Result (PrivateMarket × List Transfer) := do
  let accounts ← demand (m.market.world.tasks.lookup key) .AccountNotInitialized
  let worker ← demand (m.market.world.agents.lookup workerKey) .AccountNotInitialized
  require (worker.data.authority = signer) .UnauthorizedAgent
  let zkConfig ← demand m.zkConfig .AccountNotInitialized
  require (m.bindingSpends.lookup (stack.bindingSpendAddress proof.bindingSeed) = none)
    .AccountAlreadyInUse
  require (m.nullifierSpends.lookup (stack.nullifierSpendAddress proof.nullifierSeed) = none)
    .AccountAlreadyInUse
  let (c, decoded) ← completeTaskPrivate stack m.verifierEntry zkConfig
    (m.market.world.workContext key accounts workerKey worker) signer taskId proof
  World.rentRule m.market.world.sys c.accounts
  let m := recordPrivateSpends stack m key workerKey proof decoded.parsedJournal
    m.market.world.sys.now
  .ok ({ m with market := { m.market with world := m.market.world.storeWork c } }, c.paid)

/-- One step of the build. The router's own program writes the verifier entry. -/
inductive PrivateInstruction
  | market (i : MarketInstruction)
  | initializeZkConfig (signer : Pubkey) (signers : List Pubkey)
  | updateZkImageId (signers : List Pubkey)
  | completeTaskPrivate (key workerKey signer : Pubkey) (taskId : ℕ)
      (proof : PrivateCompletionPayload)
  | routerWrites (verifierEntry : List UInt8)
  deriving DecidableEq

/-- The accounts after a step, and the payments it made. -/
def executePrivate (stack : VerifierStack) (m : PrivateMarket) :
    PrivateInstruction → Result (PrivateMarket × Payments)
  | .market i => do
      let (market, payments) ← executeMarket m.market i
      .ok ({ m with market := market }, payments)
  | .initializeZkConfig signer signers => do
      let zkConfig ← AgencCoordination.initializeZkConfig m signer signers
      .ok ({ m with zkConfig := some zkConfig }, {})
  | .updateZkImageId signers => do
      let zkConfig ← AgencCoordination.updateZkImageId m signers
      .ok ({ m with zkConfig := some zkConfig }, {})
  | .completeTaskPrivate key workerKey signer taskId proof => do
      let (m, paid) ← executePrivateCompletion stack m key workerKey signer taskId proof
      .ok (m, { transfers := paid })
  | .routerWrites verifierEntry => .ok ({ m with verifierEntry := verifierEntry }, {})

/-- One step of the build, with its payments. -/
def PrivateStep (stack : VerifierStack) (m : PrivateMarket)
    (label : PrivateInstruction × Payments) (m' : PrivateMarket) : Prop :=
  executePrivate stack m label.1 = .ok (m', label.2)

end AgencCoordination
