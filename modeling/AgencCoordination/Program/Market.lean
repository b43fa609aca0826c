import AgencCoordination.Program.Program
import AgencCoordination.Program.Goods
import AgencCoordination.Program.Listings

/-!
# The marketplace

The program with everything around a task: the moderation registry, the service listings tasks
are hired from, the goods listings and their receipts. An instruction of `Instruction` runs as
before, behind the content gate of its handler and with its entries in the listing it uses; the
accounts it presents for that are its `Presented` accounts.

The gate of a handler is run before the rest of it: which error a refused instruction reports
may differ from the source, what a successful one does may not.
-/

namespace AgencCoordination

open Foundations

/-- The program's accounts with those of the marketplace. `jobSpecUris` is the URI of a task's
`TaskJobSpec`. -/
structure Market where
  world : World
  moderation : Moderation := {}
  listings : Ledger Pubkey ServiceListingAccount := ∅
  goods : Ledger Pubkey GoodsListing := ∅
  receipts : Ledger (Pubkey × ℕ) SaleReceipt := ∅
  jobSpecUris : Ledger Pubkey String := ∅

/-! ## Instructions -/

/-- Instructions on the moderation registry. -/
inductive ModerationOp
  | configure (signer moderationAuthority : Pubkey) (enabled : Bool)
  | heartbeat (signer : Pubkey) (newWindowSecs : Option ℕ)
  | setBlock (signer : Pubkey) (signers : List Pubkey) (contentHash rationaleHash : Hash)
      (rationaleUri : String)
  | clearBlock (signer : Pubkey) (signers : List Pubkey) (contentHash : Hash)
  | registerAttestor (attestor : Pubkey)
  | assignAttestor (signer attestor : Pubkey)
  | revokeAttestor (signer attestor : Pubkey)
  | requestExit (attestor : Pubkey)
  | finalizeExit (attestor : Pubkey)
  | recordTask (moderator : Pubkey) (withAttestor : Bool) (task : Pubkey) (jobSpecHash : Hash)
      (attestation : Attestation)
  | recordListing (moderator : Pubkey) (withAttestor : Bool) (listing : Pubkey) (specHash : Hash)
      (attestation : Attestation)
  deriving DecidableEq

/-- Instructions on a service listing. -/
inductive ListingOp
  | create (provider signer : Pubkey) (params : ListingParams)
  | update (signer : Pubkey) (changes : ListingUpdate)
  | setState (signer : Pubkey) (target : ListingState)
  deriving DecidableEq

/-- Instructions on a goods listing. -/
inductive GoodsOp
  | create (seller signer : Pubkey) (params : GoodsParams)
  | update (signer : Pubkey) (changes : GoodsUpdate)
  | purchase (buyer : Pubkey) (accounts : SaleAccounts) (params : PurchaseParams)
  deriving DecidableEq

/-- What an instruction presents to its content gate: the moderator it names, whether it passes
that moderator's roster entry, the URI it publishes, and the listing whose slot it frees. -/
structure Presented where
  moderator : Pubkey := 0
  withAttestor : Bool := false
  jobSpecUri : String := ""
  listing : Option Pubkey := none
  deriving DecidableEq

/-- One step of the marketplace. -/
inductive MarketInstruction
  | core (presented : Presented) (instruction : Instruction)
  | moderation (op : ModerationOp)
  | listing (key : Pubkey) (op : ListingOp)
  | goods (key : Pubkey) (op : GoodsOp)
  deriving DecidableEq

/-- What a step pays: out of custody, and between the wallets of a sale. -/
structure Payments where
  transfers : List Transfer := []
  sales : List SalePayment := []
  deriving DecidableEq

/-! ## Content gates -/

/-- The listing a hire loads, and its moderation gate. -/
def gateHire (m : Market) (presented : Presented) (listing : ServiceListing) : Result Unit := do
  let stored ← demand (m.listings.lookup listing.key) .AccountNotInitialized
  require (stored.terms listing.key = listing) .InvalidInput
  requireListingModeration m.moderation listing.key listing.specHash presented.moderator
    presented.withAttestor m.world.sys.now

/-- The gate of `set_task_job_spec`. -/
def gatePublication (m : Market) (presented : Presented) (key : Pubkey) (jobSpecHash : Hash) :
    Result Unit := do
  let accounts ← demand (m.world.tasks.lookup key) .AccountNotInitialized
  require (validUri presented.jobSpecUri = true) .InvalidTaskJobSpecUri
  requireTaskModeration m.moderation key accounts.task.creator jobSpecHash presented.moderator
    presented.withAttestor m.world.sys.now

/-- The gate of an assignment, by claim or by bid: the pinned job specification is whole and
carries no BLOCK. -/
def gateAssignment (m : Market) (key : Pubkey) : Result Unit := do
  let accounts ← demand (m.world.tasks.lookup key) .AccountNotInitialized
  let spec ← demand accounts.jobSpec .AccountNotInitialized
  require (notBlank ((m.jobSpecUris.lookup key).getD "") = true) .InvalidTaskJobSpecUri
  requireContentNotBlocked m.moderation spec.jobSpecHash

/-- The content gate of an instruction. -/
def contentGate (m : Market) (presented : Presented) : Instruction → Result Unit
  | .create _ _ _ _ (.hireFromListing _ listing _ _ _ _ _ _) => gateHire m presented listing
  | .create _ _ _ _ (.hireFromListingHumanless listing _ _ _ _ _ _ _) =>
      gateHire m presented listing
  | .task key (.setTaskJobSpec _ jobSpecHash) => gatePublication m presented key jobSpecHash
  | .work key _ (.claimTaskWithJobSpec _ _) => gateAssignment m key
  | .work key _ (.acceptBid _ _ _) => gateAssignment m key
  | _ => .ok ()

/-! ## Listing entries -/

/-- Write an open job of `key` into its listing. -/
def enterHire (m : Market) (listing : ServiceListing) : Result Market := do
  let stored ← demand (m.listings.lookup listing.key) .AccountNotInitialized
  let taken ← takeListingSlot stored m.world.sys.now
  .ok { m with listings := m.listings.insert listing.key taken }

/-- The listing part of `close_task`: a task with a live hire record frees its listing's slot,
and the listing must then be passed. -/
def enterClose (m : Market) (presented : Presented) (key : Pubkey) (withJobSpec : Bool) :
    Result Market := do
  let accounts ← demand (m.world.tasks.lookup key) .AccountNotInitialized
  let m := { m with
    jobSpecUris := if withJobSpec then m.jobSpecUris.erase key else m.jobSpecUris }
  match accounts.hire with
  | some hire => do
      require (presented.listing = some hire.listing) .InvalidInput
      let stored ← demand (m.listings.lookup hire.listing) .InvalidInput
      let freed ← releaseListingSlot stored m.world.sys.now
      .ok { m with listings := m.listings.insert hire.listing freed }
  | none => .ok m

/-- What an instruction writes to marketplace accounts. -/
def enterMarket (m : Market) (presented : Presented) : Instruction → Result Market
  | .create _ _ _ _ (.hireFromListing _ listing _ _ _ _ _ _) => enterHire m listing
  | .create _ _ _ _ (.hireFromListingHumanless listing _ _ _ _ _ _ _) => enterHire m listing
  | .task key (.setTaskJobSpec _ _) =>
      .ok { m with jobSpecUris := m.jobSpecUris.insert key presented.jobSpecUri }
  | .closeTask key _ withJobSpec _ _ _ => enterClose m presented key withJobSpec
  | _ => .ok m

/-! ## Handlers by group -/

/-- The handler of a moderation instruction. -/
def ModerationOp.run (m : Market) : ModerationOp → Result Moderation
  | .configure signer moderationAuthority enabled =>
      configureTaskModeration m.world m.moderation signer moderationAuthority enabled
  | .heartbeat signer newWindowSecs =>
      moderationHeartbeat m.world m.moderation signer newWindowSecs
  | .setBlock signer signers contentHash rationaleHash rationaleUri =>
      setModerationBlock m.world m.moderation signer signers contentHash rationaleHash
        rationaleUri
  | .clearBlock signer signers contentHash =>
      clearModerationBlock m.world m.moderation signer signers contentHash
  | .registerAttestor attestor => registerModerationAttestor m.world m.moderation attestor
  | .assignAttestor signer attestor =>
      assignModerationAttestor m.world m.moderation signer attestor
  | .revokeAttestor signer attestor => revokeModerationAttestor m.moderation signer attestor
  | .requestExit attestor => requestAttestorExit m.world m.moderation attestor
  | .finalizeExit attestor => finalizeAttestorExit m.world m.moderation attestor
  | .recordTask moderator withAttestor task jobSpecHash attestation =>
      recordTaskModeration m.world m.moderation moderator withAttestor task jobSpecHash attestation
  | .recordListing moderator withAttestor listing specHash attestation => do
      let stored ← demand (m.listings.lookup listing) .AccountNotInitialized
      recordListingModeration m.world m.moderation moderator withAttestor listing
        stored.providerAgent specHash attestation

/-- The handler of an instruction on the listing at `key`. -/
def ListingOp.run (m : Market) (key : Pubkey) : ListingOp → Result ServiceListingAccount
  | .create provider signer params => do
      require (m.listings.lookup key = none) .AccountAlreadyInUse
      createServiceListing m.world provider signer params
  | .update signer changes => do
      let stored ← demand (m.listings.lookup key) .AccountNotInitialized
      updateServiceListing m.world signer stored changes
  | .setState signer target => do
      let stored ← demand (m.listings.lookup key) .AccountNotInitialized
      setServiceListingState m.world signer stored target

/-- The handler of an instruction on the goods listing at `key`. -/
def GoodsOp.run (m : Market) (key : Pubkey) : GoodsOp → Result (Market × List SalePayment)
  | .create seller signer params => do
      require (m.goods.lookup key = none) .AccountAlreadyInUse
      let good ← createGoodsListing m.world m.moderation key seller signer params
      .ok ({ m with goods := m.goods.insert key good }, [])
  | .update signer changes => do
      let good ← demand (m.goods.lookup key) .AccountNotInitialized
      let good ← updateGoodsListing m.world key signer good changes
      .ok ({ m with goods := m.goods.insert key good }, [])
  | .purchase buyer accounts params => do
      let good ← demand (m.goods.lookup key) .AccountNotInitialized
      require (m.receipts.lookup (key, params.expectedSerial) = none) .AccountAlreadyInUse
      let (good, receipt, payments) ←
        purchaseGood m.world m.moderation good buyer accounts params
      .ok ({ m with
        goods := m.goods.insert key good
        receipts := m.receipts.insert (key, params.expectedSerial) receipt }, payments)

/-- Run an instruction of the program behind its content gate. -/
def executeCore (m : Market) (presented : Presented) (i : Instruction) :
    Result (Market × List Transfer) := do
  contentGate m presented i
  let (world, paid) ← execute m.world i
  let m ← enterMarket m presented i
  .ok ({ m with world := world }, paid)

/-- One step: the marketplace after an instruction, and the payments it made. -/
def executeMarket (m : Market) : MarketInstruction → Result (Market × Payments)
  | .core presented i => do
      let (m, paid) ← executeCore m presented i
      .ok (m, { transfers := paid })
  | .moderation op => do
      let moderation ← op.run m
      .ok ({ m with moderation := moderation }, {})
  | .listing key op => do
      let stored ← op.run m key
      .ok ({ m with listings := m.listings.insert key stored }, {})
  | .goods key op => do
      let (m, sales) ← op.run m key
      .ok (m, { sales := sales })

/-! ## The initial marketplace -/

/-- A freshly initialized program has no marketplace accounts. -/
structure Market.Genesis (m : Market) : Prop where
  world : AgencCoordination.Genesis m.world
  config : m.moderation.config = none
  blocks : m.moderation.blocks = ∅
  attestors : m.moderation.attestors = ∅
  taskRecords : m.moderation.taskRecords = ∅
  listingRecords : m.moderation.listingRecords = ∅
  listings : m.listings = ∅
  goods : m.goods = ∅
  receipts : m.receipts = ∅
  jobSpecUris : m.jobSpecUris = ∅

/-- The marketplace of the deployment. -/
def deployedMarket : Market := { world := deployed }

theorem deployedMarket_genesis : deployedMarket.Genesis :=
  ⟨deployed_genesis, rfl, rfl, rfl, rfl, rfl, rfl, rfl, rfl, rfl⟩

end AgencCoordination
