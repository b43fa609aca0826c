import AgencCoordination.Program.Bidding
import AgencCoordination.Program.Creation
import AgencCoordination.Program.Disputes

/-!
# The instruction set

Every modelled instruction with its arguments, and `execute`, which loads the accounts an
instruction names, runs its handler and stores the accounts back. Two steps are not
instructions of the program: the clock moves forward, and anybody may send lamports or tokens to
an account of the program.

An account that only one address can be (a claim of this task and worker, the escrow of this
task, the completion bond of this wallet) is looked up, not passed; an account a caller may
leave out is an argument.
-/

namespace AgencCoordination

open Foundations

/-! ## Instructions by the accounts they touch -/

/-- Instructions on the protocol's own records. -/
inductive AdminOp
  | updateProtocolFee (protocolFeeBps : ℕ)
  | updateTreasury (newTreasury : Pubkey)
  | updateLaunchControls (protocolPaused : Bool) (disabledTaskTypeMask : List TaskType)
      (surfaceRevision : ℕ)
  | updateRateLimits (taskCreationCooldown : ℤ) (maxTasksPer24h : ℕ)
      (disputeInitiationCooldown : ℤ) (maxDisputesPer24h minStakeForDispute : ℕ)
  | configureTaskCreationQuota (taskAuthority : Pubkey) (maxTasksPer24h : ℕ) (enabled : Bool)
  | initializeBidMarketplace (config : BidMarketplaceConfig)
  | updateBidMarketplaceConfig (config : BidMarketplaceConfig)
  | assignDisputeResolver (resolver : Pubkey)
  | revokeDisputeResolver (resolver : Pubkey)
  deriving DecidableEq

/-- Instructions on one agent. -/
inductive AgentOp
  | registerAgent (authority : Pubkey) (capabilities : BitVec 64) (stakeAmount prefunded : ℕ)
  | updateAgent (signer : Pubkey) (capabilities : Option (BitVec 64))
      (status : Option AgentStatus)
  | suspendAgent (signer : Pubkey) (signers : List Pubkey)
  | unsuspendAgent (signer : Pubkey) (signers : List Pubkey)
  | deregisterAgent (signer : Pubkey) (reputationStake : ℕ)
  | touchAgent (reputation : ℕ) (lastVoteTimestamp : ℤ)
  deriving DecidableEq

/-- Instructions that open a task. -/
inductive CreateOp
  | createTask (creatorAgent : Pubkey) (params : TaskParams) (constraintHash : Option Hash)
      (referrer : Option Pubkey) (referrerFeeBps : ℕ)
  | createDependentTask (creatorAgent parent : Pubkey) (params : TaskParams)
      (constraintHash : Option Hash) (dependencyType : DependencyType)
  | createTaskHumanless (params : TaskParams) (reviewWindowSecs : ℤ) (referrer : Option Pubkey)
      (referrerFeeBps : ℕ)
  | hireFromListing (creatorAgent : Pubkey) (listing : ServiceListing)
      (taskId taskJobSpecHash : Hash) (expectedPrice expectedVersion : ℕ)
      (referrer : Option Pubkey) (referrerFeeBps : ℕ)
  | hireFromListingHumanless (listing : ServiceListing) (taskId taskJobSpecHash : Hash)
      (expectedPrice expectedVersion : ℕ) (reviewWindowSecs : ℤ) (referrer : Option Pubkey)
      (referrerFeeBps : ℕ)
  deriving DecidableEq

/-- Instructions on a task that name no worker. -/
inductive TaskOp
  | configureTaskValidation (signer : Pubkey) (mode : ValidationMode) (reviewWindowSecs : ℤ)
      (validatorQuorum : ℕ) (attestor : Option Pubkey)
  | setTaskJobSpec (signer : Pubkey) (jobSpecHash : Hash)
  | initializeBidBook (signer : Pubkey) (policy : ℕ) (weights : WeightedScoreWeights)
  | postCreatorBond (signer : Pubkey) (prefunded : ℕ)
  | reclaimCompletionBond (party : Pubkey) (role : BondRole)
  deriving DecidableEq

/-- Instructions on a task and one worker agent. -/
inductive WorkOp
  | claimTaskWithJobSpec (signer : Pubkey) (prefunded : ℕ)
  | createBid (signer : Pubkey) (terms : BidTerms) (prefunded : ℕ)
  | updateBid (signer : Pubkey) (terms : BidTerms)
  | cancelBid (signer : Pubkey)
  | expireBid
  | promoteBid
  | demoteIneligibleBest
  | acceptBid (signer : Pubkey) (expectedBidTermsHash : BidTermsHash) (prefunded : ℕ)
  | postWorkerBond (signer : Pubkey) (prefunded : ℕ)
  | submitTaskResult (signer : Pubkey) (proofHash : Hash) (resultData : Option ℕ)
      (prefunded : ℕ)
  | acceptTaskResult (signer : Pubkey) (payees : PayeeAccounts)
  | autoAcceptTaskResult (payees : PayeeAccounts)
  | rejectTaskResult (signer : Pubkey) (rejectionHash : Hash)
  | requestChanges (signer : Pubkey) (changesHash : Hash)
  | validateTaskResult (reviewer : Pubkey) (validator : Option Pubkey) (approved : Bool)
  | rejectAndFreeze (signer : Pubkey) (rejectionHash : Hash)
  | resolveRejectFrozen (signers : List Pubkey) (approveCompletion : Bool)
      (payees : PayeeAccounts)
  | expireRejectFrozen (payees : PayeeAccounts)
  | completeTask (signer : Pubkey) (proofHash : Hash) (resultData : Option ℕ)
      (payees : PayeeAccounts)
  | expireClaim (caller : Pubkey) (withSubmission : Bool)
  | distributeGhostShare (payees : PayeeAccounts)
  | reclaimTerminalClaim
  deriving DecidableEq

/-- Instructions on a dispute, its task and one worker agent. -/
inductive DisputeOp
  | cancelDispute (signer : Pubkey)
  | resolveDispute (signer : Pubkey) (signers : List Pubkey) (withAssignment approved : Bool)
      (payees : PayeeAccounts)
  | expireDispute
  | settleDisputeClaim
  | applyDisputeSlash (withTokenAccounts : Bool)
  deriving DecidableEq

/-- One step of the world. -/
inductive Instruction
  | tick (now : ℤ)
  | donate (target : Custody) (amount : ℕ)
  | admin (signers : List Pubkey) (op : AdminOp)
  | agent (key : Pubkey) (op : AgentOp)
  | create (key creator : Pubkey) (useQuota : Bool) (prefunding : Prefunding) (op : CreateOp)
  | task (key : Pubkey) (op : TaskOp)
  | work (key worker : Pubkey) (op : WorkOp)
  | cancelTask (key signer : Pubkey) (workers : List Pubkey) (workerBondAuthority : Pubkey)
      (withParent : Bool)
  | closeTask (key signer : Pubkey) (withJobSpec withEscrow : Bool)
      (workerBond : Option Pubkey) (children : List TaskChild)
  | initiateDispute (key signer : Pubkey) (filing : DisputeFiling)
  | dispute (key disputeKey worker : Pubkey) (op : DisputeOp)
  | applyInitiatorSlash (disputeKey agentKey : Pubkey)
  | repairDisputeInitiatorCounter (signer : Pubkey) (signers : List Pubkey)
      (incidentKey pendingKey agentKey : Pubkey) (incidentSignature : Hash)
  deriving DecidableEq

/-! ## Loading and storing -/

namespace World

/-- The status of the task `accounts` depends on. -/
def parentStatus (w : World) (accounts : TaskAccounts) : Option TaskStatus :=
  (accounts.task.dependsOn.bind w.tasks.lookup).map fun parent => parent.task.status

/-- The context of an instruction without a worker. -/
def taskContext (w : World) (key : Pubkey) (accounts : TaskAccounts) : TaskContext :=
  { sys := w.sys
    key := key
    accounts := accounts
    workerKey := 0
    worker := ⟨0, {}⟩
    bidder := none
    parent := w.parentStatus accounts
    config := w.config }

/-- The context of an instruction on one worker. -/
def workContext (w : World) (key : Pubkey) (accounts : TaskAccounts) (workerKey : Pubkey)
    (worker : Account AgentRegistration) : TaskContext :=
  { w.taskContext key accounts with
    workerKey := workerKey
    worker := worker
    bidder := w.bidders.lookup workerKey }

/-- The runtime's rent rule, where a handler could break it: an open escrow stays rent exempt. -/
def rentRule (sys : Sysvars) (accounts : TaskAccounts) : Result Unit :=
  match accounts.escrow with
  | some escrow =>
      require (sys.rent.minimumBalance taskEscrowSize ≤ escrow.lamports)
        .InsufficientFundsForRent
  | none => .ok ()

/-- Store the task accounts of a context. -/
def storeTask (w : World) (c : TaskContext) : World :=
  { w with tasks := w.tasks.insert c.key c.accounts, config := c.config }

/-- Store the bidder record of a context, if it has one. -/
def storeBidder (w : World) (key : Pubkey) (bidder : Option BidderMarketState) : World :=
  match bidder with
  | some state => { w with bidders := w.bidders.insert key state }
  | none => w

/-- Store everything an instruction on one worker may change. -/
def storeWork (w : World) (c : TaskContext) : World :=
  (({ w with agents := w.agents.insert c.workerKey c.worker }).storeBidder c.workerKey
    c.bidder).storeTask c

end World

/-! ## Handlers by group -/

/-- The handler of an administrative instruction. -/
def AdminOp.run (w : World) (signers : List Pubkey) : AdminOp → Result World
  | .updateProtocolFee protocolFeeBps => AgencCoordination.updateProtocolFee w signers
      protocolFeeBps
  | .updateTreasury newTreasury => AgencCoordination.updateTreasury w signers newTreasury
  | .updateLaunchControls paused mask revision =>
      AgencCoordination.updateLaunchControls w signers paused mask revision
  | .updateRateLimits taskCooldown maxTasks disputeCooldown maxDisputes minStake =>
      AgencCoordination.updateRateLimits w signers taskCooldown maxTasks disputeCooldown
        maxDisputes minStake
  | .configureTaskCreationQuota taskAuthority maxTasks enabled =>
      AgencCoordination.configureTaskCreationQuota w signers taskAuthority maxTasks enabled
  | .initializeBidMarketplace config =>
      AgencCoordination.initializeBidMarketplace w signers config
  | .updateBidMarketplaceConfig config =>
      AgencCoordination.updateBidMarketplaceConfig w signers config
  | .assignDisputeResolver resolver => AgencCoordination.assignDisputeResolver w signers resolver
  | .revokeDisputeResolver resolver => AgencCoordination.revokeDisputeResolver w signers resolver

/-- The handler of an instruction on one agent. -/
def AgentOp.run (w : World) (key : Pubkey) : AgentOp → Result (World × List Transfer)
  | .registerAgent authority capabilities stakeAmount prefunded => do
      let w ← AgencCoordination.registerAgent w key authority capabilities stakeAmount prefunded
      .ok (w, [])
  | .updateAgent signer capabilities status => do
      let w ← AgencCoordination.updateAgent w key signer capabilities status
      .ok (w, [])
  | .suspendAgent signer signers => do
      let w ← AgencCoordination.suspendAgent w key signer signers
      .ok (w, [])
  | .unsuspendAgent signer signers => do
      let w ← AgencCoordination.unsuspendAgent w key signer signers
      .ok (w, [])
  | .deregisterAgent signer reputationStake =>
      AgencCoordination.deregisterAgent w key signer reputationStake
  | .touchAgent reputation lastVoteTimestamp => do
      let w ← AgencCoordination.touchAgent w key reputation lastVoteTimestamp
      .ok (w, [])

/-- The handler of a creating instruction. -/
def CreateOp.run (w : World) (key creator : Pubkey) (useQuota : Bool) (pre : Prefunding) :
    CreateOp → Result World
  | .createTask creatorAgent params constraintHash referrer referrerFeeBps =>
      AgencCoordination.createTask w key creator creatorAgent params constraintHash referrer
        referrerFeeBps useQuota pre
  | .createDependentTask creatorAgent parent params constraintHash dependencyType =>
      AgencCoordination.createDependentTask w key creator creatorAgent parent params
        constraintHash dependencyType useQuota pre
  | .createTaskHumanless params reviewWindowSecs referrer referrerFeeBps =>
      AgencCoordination.createTaskHumanless w key creator params reviewWindowSecs referrer
        referrerFeeBps useQuota pre
  | .hireFromListing creatorAgent listing taskId specHash price version referrer
      referrerFeeBps =>
      AgencCoordination.hireFromListing w key creator creatorAgent listing taskId specHash price
        version referrer referrerFeeBps useQuota pre
  | .hireFromListingHumanless listing taskId specHash price version reviewWindowSecs referrer
      referrerFeeBps =>
      AgencCoordination.hireFromListingHumanless w key creator listing taskId specHash price
        version reviewWindowSecs referrer referrerFeeBps useQuota pre

/-- The handler of an instruction on a task alone. -/
def TaskOp.run (c : TaskContext) : TaskOp → Result TaskContext
  | .configureTaskValidation signer mode reviewWindowSecs validatorQuorum attestor =>
      AgencCoordination.configureTaskValidation c signer mode reviewWindowSecs validatorQuorum
        attestor
  | .setTaskJobSpec signer jobSpecHash => AgencCoordination.setTaskJobSpec c signer jobSpecHash
  | .initializeBidBook signer policy weights =>
      AgencCoordination.initializeBidBook c signer policy weights
  | .postCreatorBond signer prefunded => postCompletionBond c signer .Creator prefunded
  | .reclaimCompletionBond party role => AgencCoordination.reclaimCompletionBond c party role

/-- The handler of an instruction on a task and a worker. -/
def WorkOp.run (w : World) (c : TaskContext) : WorkOp → Result TaskContext
  | .claimTaskWithJobSpec signer prefunded =>
      AgencCoordination.claimTaskWithJobSpec c signer prefunded
  | .createBid signer terms prefunded =>
      AgencCoordination.createBid c w.bidMarketplace signer terms prefunded
  | .updateBid signer terms => AgencCoordination.updateBid c w.bidMarketplace signer terms
  | .cancelBid signer => AgencCoordination.cancelBid c signer
  | .expireBid => AgencCoordination.expireBid c
  | .promoteBid => AgencCoordination.promoteBid c
  | .demoteIneligibleBest => AgencCoordination.demoteIneligibleBest c
  | .acceptBid signer expectedBidTermsHash prefunded =>
      AgencCoordination.acceptBid c signer expectedBidTermsHash prefunded
  | .postWorkerBond signer prefunded => postCompletionBond c signer .Worker prefunded
  | .submitTaskResult signer proofHash resultData prefunded =>
      AgencCoordination.submitTaskResult c signer proofHash resultData prefunded
  | .acceptTaskResult signer payees => AgencCoordination.acceptTaskResult c signer payees
  | .autoAcceptTaskResult payees => AgencCoordination.autoAcceptTaskResult c payees
  | .rejectTaskResult signer rejectionHash =>
      AgencCoordination.rejectTaskResult c signer rejectionHash
  | .requestChanges signer changesHash => AgencCoordination.requestChanges c signer changesHash
  | .validateTaskResult reviewer validator approved =>
      AgencCoordination.validateTaskResult c reviewer
        (validator.bind fun key => (w.agents.lookup key).map fun agent => (key, agent.data))
        approved
  | .rejectAndFreeze signer rejectionHash =>
      AgencCoordination.rejectAndFreeze c signer rejectionHash
  | .resolveRejectFrozen signers approveCompletion payees =>
      AgencCoordination.resolveRejectFrozen c signers approveCompletion payees
  | .expireRejectFrozen payees => AgencCoordination.expireRejectFrozen c payees
  | .completeTask signer proofHash resultData payees =>
      AgencCoordination.completeTask c signer proofHash resultData payees
  | .expireClaim caller withSubmission => AgencCoordination.expireClaim c caller withSubmission
  | .distributeGhostShare payees => AgencCoordination.distributeGhostShare c payees
  | .reclaimTerminalClaim => AgencCoordination.reclaimTerminalClaim c

/-- The handler of an instruction on a dispute. -/
def DisputeOp.run (w : World) (c : TaskContext) (d : Dispute) :
    DisputeOp → Result (TaskContext × Dispute)
  | .cancelDispute signer => AgencCoordination.cancelDispute c d signer
  | .resolveDispute signer signers withAssignment approved payees =>
      AgencCoordination.resolveDispute c d signer signers
        (withAssignment && decide (signer ∈ w.resolvers)) approved payees
  | .expireDispute => AgencCoordination.expireDispute c d
  | .settleDisputeClaim => AgencCoordination.settleDisputeClaim c d
  | .applyDisputeSlash withTokenAccounts =>
      AgencCoordination.applyDisputeSlash c d withTokenAccounts

/-! ## Donations -/

/-- Add lamports to the account `key` of a ledger. -/
def creditEntry {α : Type} (s : Ledger Pubkey (Account α)) (key : Pubkey) (amount : ℕ) :
    Result (Ledger Pubkey (Account α)) := do
  let account ← demand (s.lookup key) .AccountNotInitialized
  .ok (s.insert key { account with lamports := account.lamports + amount })

/-- A transfer from outside into an account derived from a task. -/
def creditTaskAccounts (accounts : TaskAccounts) (target : Custody) (amount : ℕ) :
    Result TaskAccounts :=
  match target with
  | .escrow _ => do
      let escrow ← demand accounts.escrow .AccountNotInitialized
      .ok { accounts with escrow := some { escrow with lamports := escrow.lamports + amount } }
  | .tokenEscrow _ => do
      let vault ← demand accounts.tokenEscrow .AccountNotInitialized
      .ok { accounts with tokenEscrow := some (vault + amount) }
  | .claim _ worker => do
      let claims ← creditEntry accounts.claims worker amount
      .ok { accounts with claims := claims }
  | .submission _ worker => do
      let submissions ← creditEntry accounts.submissions worker amount
      .ok { accounts with submissions := submissions }
  | .bond _ party => do
      let bonds ← creditEntry accounts.bonds party amount
      .ok { accounts with bonds := bonds }
  | .bid _ bidder => do
      let bids ← creditEntry accounts.bids bidder amount
      .ok { accounts with bids := bids }
  | .agent _ => .ok accounts

/-- The task an account is derived from. -/
def Custody.task : Custody → Option Pubkey
  | .escrow task | .tokenEscrow task | .claim task _ | .submission task _ | .bond task _
  | .bid task _ => some task
  | .agent _ => none

/-- A transfer from outside into any account. -/
def donate (w : World) (target : Custody) (amount : ℕ) : Result World :=
  match target with
  | .agent key => do
      let agents ← creditEntry w.agents key amount
      .ok { w with agents := agents }
  | .escrow key | .tokenEscrow key | .claim key _ | .submission key _ | .bond key _
  | .bid key _ => do
      let accounts ← demand (w.tasks.lookup key) .AccountNotInitialized
      let accounts ← creditTaskAccounts accounts target amount
      .ok { w with tasks := w.tasks.insert key accounts }

/-! ## Execution -/

/-- Run an instruction on a task alone. -/
def executeTask (w : World) (key : Pubkey) (op : TaskOp) : Result (World × List Transfer) := do
  let accounts ← demand (w.tasks.lookup key) .AccountNotInitialized
  let c ← op.run (w.taskContext key accounts)
  .ok (w.storeTask c, c.paid)

/-- Run an instruction on a task and a worker. -/
def executeWork (w : World) (key workerKey : Pubkey) (op : WorkOp) :
    Result (World × List Transfer) := do
  let accounts ← demand (w.tasks.lookup key) .AccountNotInitialized
  let worker ← demand (w.agents.lookup workerKey) .AccountNotInitialized
  let c ← op.run w (w.workContext key accounts workerKey worker)
  World.rentRule w.sys c.accounts
  .ok (w.storeWork c, c.paid)

/-- Run an instruction on a dispute. -/
def executeDispute (w : World) (key disputeKey workerKey : Pubkey) (op : DisputeOp) :
    Result (World × List Transfer) := do
  let accounts ← demand (w.tasks.lookup key) .AccountNotInitialized
  let worker ← demand (w.agents.lookup workerKey) .AccountNotInitialized
  let d ← demand (w.disputes.lookup disputeKey) .AccountNotInitialized
  require (d.task = key) .InvalidInput
  let (c, d) ← op.run w (w.workContext key accounts workerKey worker) d
  World.rentRule w.sys c.accounts
  .ok ({ w.storeWork c with disputes := w.disputes.insert disputeKey d }, c.paid)

/-- Run `cancel_task`; the context's worker is the first listed one, if any. -/
def executeCancel (w : World) (key signer : Pubkey) (workers : List Pubkey)
    (workerBondAuthority : Pubkey) (withParent : Bool) : Result (World × List Transfer) := do
  let accounts ← demand (w.tasks.lookup key) .AccountNotInitialized
  let base ←
    match workers with
    | [] => .ok (w.taskContext key accounts)
    | first :: _ => do
        let worker ← demand (w.agents.lookup first) .InvalidInput
        .ok (w.workContext key accounts first worker)
  let (c, agents) ← AgencCoordination.cancelTask base w.agents signer workers
    workerBondAuthority withParent
  .ok (({ w with agents := agents }.storeBidder base.workerKey c.bidder).storeTask c, c.paid)

/-- Run `close_task`. -/
def executeClose (w : World) (key signer : Pubkey) (withJobSpec withEscrow : Bool)
    (workerBond : Option Pubkey) (children : List TaskChild) :
    Result (World × List Transfer) := do
  let accounts ← demand (w.tasks.lookup key) .AccountNotInitialized
  let c ← AgencCoordination.closeTask (w.taskContext key accounts) w.agents signer withJobSpec
    withEscrow workerBond children
  .ok (w.storeTask c, c.paid)

/-- One step: the world after an instruction, and the payments it made. -/
def execute (w : World) : Instruction → Result (World × List Transfer)
  | .tick now => do
      require (w.sys.now ≤ now) .InvalidInput
      .ok ({ w with sys := { w.sys with now := now } }, [])
  | .donate target amount => do
      let w ← AgencCoordination.donate w target amount
      .ok (w, [])
  | .admin signers op => do
      let w ← op.run w signers
      .ok (w, [])
  | .agent key op => op.run w key
  | .create key creator useQuota pre op => do
      let w ← op.run w key creator useQuota pre
      .ok (w, [])
  | .task key op => executeTask w key op
  | .work key worker op => executeWork w key worker op
  | .cancelTask key signer workers workerBondAuthority withParent =>
      executeCancel w key signer workers workerBondAuthority withParent
  | .closeTask key signer withJobSpec withEscrow workerBond children =>
      executeClose w key signer withJobSpec withEscrow workerBond children
  | .initiateDispute key signer filing => do
      let w ← AgencCoordination.initiateDispute w key signer filing
      .ok (w, [])
  | .dispute key disputeKey worker op => executeDispute w key disputeKey worker op
  | .applyInitiatorSlash disputeKey agentKey =>
      AgencCoordination.applyInitiatorSlash w disputeKey agentKey
  | .repairDisputeInitiatorCounter signer signers incidentKey pendingKey agentKey signature => do
      let w ← AgencCoordination.repairDisputeInitiatorCounter w signer signers incidentKey
        pendingKey agentKey signature
      .ok (w, [])

/-! ## The initial world -/

/-- The arguments and signers of `initialize_protocol`. -/
structure Initialization where
  authority : Pubkey
  secondSigner : Pubkey
  treasury : Pubkey
  disputeThreshold : ℕ
  protocolFeeBps : ℕ
  minStake : ℕ
  minStakeForDispute : ℕ
  multisigThreshold : ℕ
  multisigOwners : List Pubkey
  otherSigners : List Pubkey := []
  deriving DecidableEq

/-- `initialize_protocol`, after its check that the caller is the upgrade authority. -/
def initializeProtocol (sys : Sysvars) (p : Initialization) : Result World := do
  require (0 < p.disputeThreshold ∧ p.disputeThreshold < 100) .InvalidDisputeThreshold
  require (p.protocolFeeBps ≤ 2000) .InvalidProtocolFee
  require (1000000 ≤ p.minStake) .StakeTooLow
  require (1000 ≤ p.minStakeForDispute ∧ p.minStakeForDispute ≤ 1000000000 ∧
    p.minStakeForDispute ≤ p.minStake) .InvalidMinStake
  require (p.multisigOwners ≠ [] ∧ p.multisigOwners.length ≤ 5) .MultisigInvalidSigners
  require (2 ≤ p.multisigThreshold ∧ p.multisigThreshold < p.multisigOwners.length)
    .MultisigInvalidThreshold
  require (0 ∉ p.multisigOwners) .MultisigDefaultSigner
  require p.multisigOwners.Nodup .MultisigDuplicateSigner
  require (p.authority ≠ p.secondSigner) .MultisigDuplicateSigner
  require (p.authority ∈ p.multisigOwners ∧ p.secondSigner ∈ p.multisigOwners)
    .MultisigInvalidSigners
  require (p.multisigThreshold ≤ (p.multisigOwners.filter
    (· ∈ p.authority :: p.secondSigner :: p.otherSigners)).length) .MultisigNotEnoughSigners
  require (p.treasury ≠ 0) .InvalidTreasury
  .ok {
    sys := sys
    config := {
      authority := p.authority
      treasury := p.treasury
      disputeThreshold := p.disputeThreshold
      protocolFeeBps := p.protocolFeeBps
      minAgentStake := p.minStake
      maxClaimDuration := 604800
      maxDisputeDuration := 604800
      multisigThreshold := p.multisigThreshold
      multisigOwners := p.multisigOwners
      taskCreationCooldown := 60
      maxTasksPer24h := 50
      disputeInitiationCooldown := 300
      maxDisputesPer24h := 10
      minStakeForDispute := p.minStakeForDispute
      slashPercentage := 25
      votingPeriod := 86400 } }

/-- What the world `initialize_protocol` leaves behind is like. -/
structure Genesis (w : World) : Prop where
  clock : 0 < w.sys.now
  agents : w.agents = ∅
  rateLimits : w.rateLimits = ∅
  quotas : w.quotas = ∅
  bidders : w.bidders = ∅
  tasks : w.tasks = ∅
  disputes : w.disputes = ∅
  resolvers : w.resolvers = []
  counterRepairs : w.counterRepairs = []
  bidMarketplace : w.bidMarketplace = none
  protocolVersion : w.config.protocolVersion = 1
  minSupportedVersion : w.config.minSupportedVersion = 1
  maxClaimDuration : w.config.maxClaimDuration = 604800
  maxDisputeDuration : w.config.maxDisputeDuration = 604800
  votingPeriod : w.config.votingPeriod = 86400
  slashPercentage : w.config.slashPercentage = 25
  disputeThreshold : 0 < w.config.disputeThreshold ∧ w.config.disputeThreshold < 100
  protocolFeeBps : w.config.protocolFeeBps ≤ 2000
  treasury : w.config.treasury ≠ 0
  maxTasksPer24h : w.config.maxTasksPer24h = 50
  maxDisputesPer24h : w.config.maxDisputesPer24h = 10

/-- Initialization leaves such a world behind. -/
theorem initializeProtocol_genesis {sys : Sysvars} {p : Initialization} {w : World}
    (h : initializeProtocol sys p = .ok w) (hclock : 0 < sys.now) : Genesis w := by
  simp only [initializeProtocol, bind_eq_ok, require_eq_ok, Except.ok.injEq] at h
  obtain ⟨_, hthreshold, _, hfee, _, -, _, -, _, -, _, -, h⟩ := h
  obtain ⟨_, -, _, -, _, -, _, -, _, -, _, htreasury, rfl⟩ := h
  exact ⟨hclock, rfl, rfl, rfl, rfl, rfl, rfl, rfl, rfl, rfl, rfl, rfl, rfl, rfl, rfl, rfl,
    hthreshold, hfee, htreasury, rfl, rfl⟩

/-- A deployment with three multisig owners. -/
def deployment : Initialization where
  authority := 1
  secondSigner := 3
  treasury := 2
  disputeThreshold := 50
  protocolFeeBps := 0
  minStake := 1000000
  minStakeForDispute := 1000000
  multisigThreshold := 2
  multisigOwners := [1, 3, 4]

/-- The world of that deployment, at mainnet's rent. -/
def deployed : World :=
  ((initializeProtocol { now := 1000, rent := ⟨3480, 2⟩ } deployment).toOption).getD
    { sys := { now := 0, rent := ⟨0, 0⟩ } }

theorem deployed_genesis : Genesis deployed :=
  @initializeProtocol_genesis { now := 1000, rent := ⟨3480, 2⟩ } deployment deployed rfl
    (by decide)

end AgencCoordination
