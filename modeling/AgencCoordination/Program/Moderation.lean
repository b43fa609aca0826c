import AgencCoordination.Program.Agents

/-!
# Content moderation

The registry the consumption gates of `moderation_gate_helpers.rs` read: the moderation
configuration with its liveness heartbeat, the BLOCK floor keyed by content hash, the roster of
attestors, and the attestations of task and listing content, one per moderator.

The gates themselves:

* **`requireContentNotBlocked`** — the BLOCK floor over a content hash, which nothing relaxes.
* **`requireTaskModeration`**, **`requireListingModeration`** — a publishable attestation of the
  presented moderator, unless the moderation authority has been silent for longer than its
  liveness window.

Records of the frozen pre-v2 seeds, which no instruction writes any more, are left out.
-/

namespace AgencCoordination

open Foundations

/-! ## Content addresses -/

/-- The characters `str::trim` removes: the Unicode property `White_Space`. -/
def isWhiteSpace (c : Char) : Bool :=
  (9 ≤ c.toNat && c.toNat ≤ 13) || (0x2000 ≤ c.toNat && c.toNat ≤ 0x200A) ||
    [0x20, 0x85, 0xA0, 0x1680, 0x2028, 0x2029, 0x202F, 0x205F, 0x3000].contains c.toNat

/-- The bound every content URI shares (`MODERATION_URI_MAX_LEN` and its siblings). -/
def uriMaxLen : ℕ := 256

/-- `!uri.trim().is_empty()`. -/
def notBlank (uri : String) : Bool := uri.toList.any fun c => !isWhiteSpace c

/-- A URI that is not blank and fits its account field. -/
def validUri (uri : String) : Bool := notBlank uri && decide (uri.utf8ByteSize ≤ uriMaxLen)

/-! ## Accounts -/

/-- `ModerationConfig`. A liveness window of `0` reads as the default. -/
structure ModerationConfig where
  authority : Pubkey := 0
  moderationAuthority : Pubkey := 0
  enabled : Bool := false
  createdAt : ℤ := 0
  updatedAt : ℤ := 0
  livenessWindowSecs : ℕ := 0
  deriving DecidableEq

/-- `moderation_block_status`. -/
inductive ModerationBlockStatus
  | Cleared
  | Blocked
  deriving DecidableEq, Repr

/-- `ModerationBlock`; its content hash is the key it is stored under. -/
structure ModerationBlock where
  status : ModerationBlockStatus
  rationaleHash : Hash
  rationaleUri : String
  setAt : ℤ
  updatedAt : ℤ
  updatedBy : Pubkey
  deriving DecidableEq

/-- `ModerationAttestor`; its wallet is the key it is stored under. -/
structure ModerationAttestor where
  assignedBy : Pubkey
  assignedAt : ℤ
  bondLamports : ℕ := 0
  registeredAt : ℤ := 0
  exitAt : ℤ := 0
  deriving DecidableEq

/-- `task_moderation_status`. -/
inductive ModerationStatus
  | Clean
  | Suspicious
  | Blocked
  | ScannerUnavailable
  | HumanApproved
  | HumanRejected
  deriving DecidableEq, Repr

/-- `is_publishable_task_moderation_status`. -/
def ModerationStatus.publishable (status : ModerationStatus) : Bool :=
  status = .Clean || status = .HumanApproved

/-- What a moderator says about a content hash. -/
structure Attestation where
  status : ModerationStatus
  riskScore : ℕ
  categoryMask : BitVec 64 := 0
  policyHash : Hash := 0
  scannerHash : Hash := 0
  expiresAt : ℤ := 0
  deriving DecidableEq

/-- `TaskModeration` and `ListingModeration`: an attestation with the party it is bound to (the
task's creator, the listing's provider) and its time. -/
structure ModerationRecord where
  bound : Pubkey
  attestation : Attestation
  recordedAt : ℤ
  deriving DecidableEq

/-- The seeds of a moderation record. -/
structure RecordKey where
  subject : Pubkey
  contentHash : Hash
  moderator : Pubkey
  deriving DecidableEq

/-- The moderation accounts. -/
structure Moderation where
  config : Option ModerationConfig := none
  blocks : Ledger Hash ModerationBlock := ∅
  attestors : Ledger Pubkey ModerationAttestor := ∅
  taskRecords : Ledger RecordKey ModerationRecord := ∅
  listingRecords : Ledger RecordKey ModerationRecord := ∅

/-! ## Instructions -/

/-- `configure_task_moderation`, whose first call creates the configuration. -/
def configureTaskModeration (w : World) (m : Moderation) (signer moderationAuthority : Pubkey)
    (enabled : Bool) : Result Moderation := do
  require (signer = w.config.authority) .UnauthorizedAgent
  require (moderationAuthority ≠ 0) .InvalidTaskModerationAuthority
  let previous := m.config.getD {}
  .ok { m with config := some { previous with
    authority := w.config.authority
    moderationAuthority := moderationAuthority
    enabled := enabled
    createdAt := if previous.createdAt = 0 then w.sys.now else previous.createdAt
    updatedAt := w.sys.now } }

/-- `moderation_heartbeat`: only the protocol authority may change the window. -/
def moderationHeartbeat (w : World) (m : Moderation) (signer : Pubkey)
    (newWindowSecs : Option ℕ) : Result Moderation := do
  let config ← demand m.config .AccountNotInitialized
  require (signer = config.authority ∨ signer = config.moderationAuthority)
    .UnauthorizedModerationHeartbeat
  require (newWindowSecs ≠ none → signer = config.authority) .UnauthorizedModerationHeartbeat
  require (newWindowSecs.all (fun window => 86400 ≤ window ∧ window ≤ 34560000) = true)
    .InvalidModerationLivenessWindow
  .ok { m with config := some { config with
    livenessWindowSecs := newWindowSecs.getD config.livenessWindowSecs
    updatedAt := w.sys.now } }

/-- `set_moderation_block`: the protocol multisig blocks a content hash. -/
def setModerationBlock (w : World) (m : Moderation) (signer : Pubkey) (signers : List Pubkey)
    (contentHash rationaleHash : Hash) (rationaleUri : String) : Result Moderation := do
  requireMultisigThreshold w.config signers
  require (contentHash ≠ 0) .InvalidTaskJobSpecHash
  require (rationaleHash ≠ 0) .InvalidModerationRationale
  require (validUri rationaleUri = true) .InvalidModerationRationale
  let setAt := ((m.blocks.lookup contentHash).map ModerationBlock.setAt).getD 0
  .ok { m with
    blocks := m.blocks.insert contentHash
      { status := .Blocked
        rationaleHash := rationaleHash
        rationaleUri := rationaleUri
        setAt := if setAt = 0 then w.sys.now else setAt
        updatedAt := w.sys.now
        updatedBy := signer } }

/-- `clear_moderation_block`. -/
def clearModerationBlock (w : World) (m : Moderation) (signer : Pubkey) (signers : List Pubkey)
    (contentHash : Hash) : Result Moderation := do
  let block ← demand (m.blocks.lookup contentHash) .AccountNotInitialized
  requireMultisigThreshold w.config signers
  .ok { m with
    blocks := m.blocks.insert contentHash
      { block with status := .Cleared, updatedAt := w.sys.now, updatedBy := signer } }

/-- `REGISTRATION_BOND_LAMPORTS`. -/
def registrationBondLamports : ℕ := 250000000

/-- `register_moderation_attestor`: anybody joins the roster against a bond. -/
def registerModerationAttestor (w : World) (m : Moderation) (attestor : Pubkey) :
    Result Moderation := do
  require (m.attestors.lookup attestor = none) .AccountAlreadyInUse
  checkVersionCompatible w.config
  .ok { m with
    attestors := m.attestors.insert attestor
      { assignedBy := attestor
        assignedAt := w.sys.now
        bondLamports := registrationBondLamports
        registeredAt := w.sys.now } }

/-- `assign_moderation_attestor`. -/
def assignModerationAttestor (w : World) (m : Moderation) (signer attestor : Pubkey) :
    Result Moderation := do
  let config ← demand m.config .AccountNotInitialized
  require (m.attestors.lookup attestor = none) .AccountAlreadyInUse
  require (signer = config.authority) .UnauthorizedTaskModerator
  require (attestor ≠ 0) .InvalidModerationAttestor
  .ok { m with
    attestors := m.attestors.insert attestor
      { assignedBy := signer, assignedAt := w.sys.now } }

/-- `revoke_moderation_attestor`. -/
def revokeModerationAttestor (m : Moderation) (signer attestor : Pubkey) : Result Moderation := do
  let config ← demand m.config .AccountNotInitialized
  let entry ← demand (m.attestors.lookup attestor) .AccountNotInitialized
  require (entry.assignedBy = signer) .UnauthorizedAttestorRevocation
  require (signer = config.authority) .UnauthorizedTaskModerator
  .ok { m with attestors := m.attestors.erase attestor }

/-- `request_attestor_exit`: a self-registered attestor stops attesting. -/
def requestAttestorExit (w : World) (m : Moderation) (attestor : Pubkey) : Result Moderation := do
  let entry ← demand (m.attestors.lookup attestor) .AccountNotInitialized
  require (entry.assignedBy = attestor) .AttestorNotSelfRegistered
  require (entry.exitAt = 0) .AttestorExitAlreadyRequested
  .ok { m with attestors := m.attestors.insert attestor { entry with exitAt := w.sys.now } }

/-- `finalize_attestor_exit`: after the cooldown the entry closes and its bond returns. -/
def finalizeAttestorExit (w : World) (m : Moderation) (attestor : Pubkey) : Result Moderation := do
  let entry ← demand (m.attestors.lookup attestor) .AccountNotInitialized
  require (entry.assignedBy = attestor) .AttestorNotSelfRegistered
  require (entry.exitAt ≠ 0) .AttestorExitNotRequested
  let unlockAt ← addI64 entry.exitAt 604800
  require (unlockAt ≤ w.sys.now) .AttestorExitCooldownActive
  .ok { m with attestors := m.attestors.erase attestor }

/-- The roster entry an instruction presents, and that it is not on its way out. -/
def loadAttestor (m : Moderation) (moderator : Pubkey) (presented : Bool) : Result Unit :=
  if presented then do
    let entry ← demand (m.attestors.lookup moderator) .AccountNotInitialized
    require (entry.exitAt = 0) .AttestorExiting
  else .ok ()

/-- The part `record_task_moderation` and `record_listing_moderation` share: who may attest, and
what. -/
def recordModeration (w : World) (m : Moderation) (moderator : Pubkey) (withAttestor : Bool)
    (contentHash : Hash) (attestation : Attestation) (bound : Pubkey) :
    Result ModerationRecord := do
  let config ← demand m.config .AccountNotInitialized
  require (moderator = config.moderationAuthority ∨ withAttestor = true)
    .UnauthorizedModerationAttestor
  loadAttestor m moderator withAttestor
  require (contentHash ≠ 0) .InvalidTaskJobSpecHash
  require (attestation.riskScore ≤ 100) .InvalidTaskModerationRiskScore
  require (0 ≤ attestation.expiresAt) .TaskModerationExpired
  require (config.enabled = true) .TaskModerationRequired
  require (attestation.expiresAt ≠ 0 → w.sys.now < attestation.expiresAt) .TaskModerationExpired
  .ok { bound := bound, attestation := attestation, recordedAt := w.sys.now }

/-- `record_task_moderation`. -/
def recordTaskModeration (w : World) (m : Moderation) (moderator : Pubkey) (withAttestor : Bool)
    (task : Pubkey) (jobSpecHash : Hash) (attestation : Attestation) : Result Moderation := do
  let accounts ← demand (w.tasks.lookup task) .AccountNotInitialized
  let record ← recordModeration w m moderator withAttestor jobSpecHash attestation
    accounts.task.creator
  .ok { m with taskRecords := m.taskRecords.insert ⟨task, jobSpecHash, moderator⟩ record }

/-- `record_listing_moderation`, for a listing of `providerAgent`. -/
def recordListingModeration (w : World) (m : Moderation) (moderator : Pubkey)
    (withAttestor : Bool) (listing providerAgent : Pubkey) (specHash : Hash)
    (attestation : Attestation) : Result Moderation := do
  let record ← recordModeration w m moderator withAttestor specHash attestation providerAgent
  .ok { m with listingRecords := m.listingRecords.insert ⟨listing, specHash, moderator⟩ record }

/-! ## Gates -/

/-- A content hash carries a BLOCK. -/
def Moderation.Blocked (m : Moderation) (contentHash : Hash) : Prop :=
  ∃ block ∈ m.blocks.lookup contentHash, block.status = .Blocked

instance (m : Moderation) (contentHash : Hash) : Decidable (m.Blocked contentHash) :=
  inferInstanceAs (Decidable (∃ block ∈ m.blocks.lookup contentHash, block.status = .Blocked))

/-- `require_content_not_blocked`: an absent or cleared block passes. -/
def requireContentNotBlocked (m : Moderation) (contentHash : Hash) : Result Unit :=
  require (¬m.Blocked contentHash) .ContentBlocked

/-- `moderation_liveness_relaxed`: the authority has been silent for longer than the window. -/
def moderationLivenessRelaxed (updatedAt : ℤ) (windowSecs : ℕ) (now : ℤ) : Bool :=
  let effectiveWindow : ℤ := if 0 < windowSecs then windowSecs else 7776000
  decide (0 < updatedAt ∧ satAddI64 updatedAt effectiveWindow < now)

/-- `moderation_gate_relaxed`. -/
def moderationGateRelaxed (config : ModerationConfig) (now : ℤ) : Bool :=
  moderationLivenessRelaxed config.updatedAt config.livenessWindowSecs now

/-- The checks both attestation gates share, on a record already bound to its subject, content
hash and moderator (`validate_task_moderation_for_job_spec`,
`validate_listing_moderation_for_hire`). -/
def validateModeration (config : ModerationConfig) (record : ModerationRecord)
    (moderator : Pubkey) (now : ℤ) (attestorSupplied : Bool) : Result Unit := do
  require (config.enabled = true) .TaskModerationRequired
  require (config.moderationAuthority ≠ 0) .InvalidTaskModerationAuthority
  require (moderator = config.moderationAuthority ∨ attestorSupplied = true)
    .UnauthorizedTaskModerator
  require (record.attestation.status.publishable = true) .TaskModerationRejected
  require (record.attestation.riskScore ≤ 100) .InvalidTaskModerationRiskScore
  require (record.attestation.expiresAt = 0 ∨ now ≤ record.attestation.expiresAt)
    .TaskModerationExpired

/-- The moderation gate of `set_task_job_spec`; the roster entry is read before the deadman. -/
def requireTaskModeration (m : Moderation) (task creator : Pubkey) (jobSpecHash : Hash)
    (moderator : Pubkey) (withAttestor : Bool) (now : ℤ) : Result Unit := do
  let config ← demand m.config .AccountNotInitialized
  requireContentNotBlocked m jobSpecHash
  loadAttestor m moderator withAttestor
  if moderationGateRelaxed config now then .ok ()
  else do
    let record ← demand (m.taskRecords.lookup ⟨task, jobSpecHash, moderator⟩)
      .InvalidModerationRecord
    require (record.bound = creator) .TaskModerationTaskMismatch
    validateModeration config record moderator now withAttestor

/-- The moderation gate of the two hires; the roster entry is read behind the deadman, and
whether the moderation is enabled at all before the record. -/
def requireListingModeration (m : Moderation) (listing : Pubkey) (specHash : Hash)
    (moderator : Pubkey) (withAttestor : Bool) (now : ℤ) : Result Unit := do
  let config ← demand m.config .AccountNotInitialized
  requireContentNotBlocked m specHash
  if moderationGateRelaxed config now then .ok ()
  else do
    require (config.enabled = true) .TaskModerationRequired
    let record ← demand (m.listingRecords.lookup ⟨listing, specHash, moderator⟩)
      .TaskModerationRequired
    loadAttestor m moderator withAttestor
    validateModeration config record moderator now withAttestor

/-- Neither attestation gate passes content that carries a BLOCK. -/
theorem not_blocked_of_taskModeration {m : Moderation} {task creator moderator : Pubkey}
    {jobSpecHash : Hash} {withAttestor : Bool} {now : ℤ}
    (h : requireTaskModeration m task creator jobSpecHash moderator withAttestor now = .ok ()) :
    ¬m.Blocked jobSpecHash := by
  simp only [requireTaskModeration, bind_eq_ok, requireContentNotBlocked, require_eq_ok] at h
  obtain ⟨_, -, _, hblock, -⟩ := h
  exact hblock

theorem not_blocked_of_listingModeration {m : Moderation} {listing moderator : Pubkey}
    {specHash : Hash} {withAttestor : Bool} {now : ℤ}
    (h : requireListingModeration m listing specHash moderator withAttestor now = .ok ()) :
    ¬m.Blocked specHash := by
  simp only [requireListingModeration, bind_eq_ok, requireContentNotBlocked, require_eq_ok] at h
  obtain ⟨_, -, _, hblock, -⟩ := h
  exact hblock

end AgencCoordination
