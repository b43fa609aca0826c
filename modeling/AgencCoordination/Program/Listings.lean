import AgencCoordination.Program.Creation
import AgencCoordination.Program.Moderation

/-!
# Service listings

The stored listing behind a hire (`create_service_listing.rs`, `update_service_listing.rs`,
`set_service_listing_state.rs`) and the capacity it keeps: a hire takes one of its open jobs,
`close_task` gives it back. A hire reads a listing through `ServiceListingAccount.terms`.
-/

namespace AgencCoordination

open Foundations

/-! ## Accounts -/

/-- `ListingState`. -/
inductive ListingState
  | Active
  | Paused
  | Retired
  deriving DecidableEq, Repr

/-- `ServiceListing`, without its ratings. -/
structure ServiceListingAccount where
  providerAgent : Pubkey
  authority : Pubkey
  listingId : Hash
  name : Hash
  category : Hash
  tags : BitVec 512
  specHash : Hash
  specUri : String
  price : ℕ
  priceMint : Option Pubkey
  requiredCapabilities : BitVec 64
  defaultDeadlineSecs : ℤ
  operator : Pubkey
  operatorFeeBps : ℕ
  state : ListingState := .Active
  maxOpenJobs : ℕ
  openJobs : ℕ := 0
  totalHires : ℕ := 0
  version : ℕ := 1
  createdAt : ℤ
  updatedAt : ℤ
  deriving DecidableEq

/-- What a hire reads of the listing at `key`. -/
def ServiceListingAccount.terms (listing : ServiceListingAccount) (key : Pubkey) :
    ServiceListing :=
  { key := key
    authority := listing.authority
    providerAgent := listing.providerAgent
    specHash := listing.specHash
    price := listing.price
    priceMint := listing.priceMint
    requiredCapabilities := listing.requiredCapabilities
    defaultDeadlineSecs := listing.defaultDeadlineSecs
    operator := listing.operator
    operatorFeeBps := listing.operatorFeeBps
    active := decide (listing.state = .Active)
    maxOpenJobs := listing.maxOpenJobs
    openJobs := listing.openJobs
    version := listing.version }

/-! ## Arguments -/

/-- The arguments of `create_service_listing`. -/
structure ListingParams where
  listingId : Hash
  name : Hash
  category : Hash
  tags : BitVec 512
  specHash : Hash
  specUri : String
  price : ℕ
  priceMint : Option Pubkey
  requiredCapabilities : BitVec 64
  defaultDeadlineSecs : ℤ
  maxOpenJobs : ℕ
  operator : Option Pubkey
  operatorFeeBps : ℕ
  deriving DecidableEq

/-- The arguments of `update_service_listing`: what is absent stays as it is. -/
structure ListingUpdate where
  price : Option ℕ := none
  specHash : Option Hash := none
  specUri : Option String := none
  tags : Option (BitVec 512) := none
  requiredCapabilities : Option (BitVec 64) := none
  defaultDeadlineSecs : Option ℤ := none
  maxOpenJobs : Option ℕ := none
  operator : Option Pubkey := none
  operatorFeeBps : Option ℕ := none
  deriving DecidableEq

/-! ## Listing -/

/-- `validate_operator_fee_invariant`. -/
def validateOperatorFeeInvariant (operator : Pubkey) (operatorFeeBps : ℕ) : Result Unit := do
  require (operatorFeeBps ≤ maxOperatorFeeBps) .ListingOperatorFeeTooHigh
  require (operatorFeeBps = 0 ∨ operator ≠ 0) .ListingOperatorRequired

/-- `validate_listing_deadline`. -/
def validateListingDeadline (defaultDeadlineSecs : ℤ) : Result Unit :=
  require (0 ≤ defaultDeadlineSecs ∧ defaultDeadlineSecs ≤ maxDeadlineSeconds) .InvalidInput

/-- The specification a listing advertises: a hash with the URI of its content. -/
def validateListingSpec (specHash : Hash) (specUri : String) : Result Unit := do
  require (specHash ≠ 0) .ListingInvalidSpec
  require (validUri specUri = true) .ListingInvalidSpec

/-- `create_service_listing`. -/
def createServiceListing (w : World) (provider signer : Pubkey) (p : ListingParams) :
    Result ServiceListingAccount := do
  let agent ← demand (w.agents.lookup provider) .AccountNotInitialized
  require (agent.data.authority = signer) .UnauthorizedAgent
  checkVersionCompatible w.config
  require (agent.data.status = .Active) .AgentNotActive
  require (p.listingId ≠ 0) .ListingInvalidId
  require (p.name ≠ 0) .ListingInvalidName
  validateListingSpec p.specHash p.specUri
  require (1000 ≤ p.price) .ListingPriceTooLow
  require (p.priceMint = none) .InvalidTokenMint
  require (p.requiredCapabilities ≠ 0) .ListingCapabilitiesRequired
  validateListingDeadline p.defaultDeadlineSecs
  validateOperatorFeeInvariant (p.operator.getD 0) p.operatorFeeBps
  .ok {
    providerAgent := provider
    authority := signer
    listingId := p.listingId
    name := p.name
    category := p.category
    tags := p.tags
    specHash := p.specHash
    specUri := p.specUri
    price := p.price
    priceMint := p.priceMint
    requiredCapabilities := p.requiredCapabilities
    defaultDeadlineSecs := p.defaultDeadlineSecs
    operator := p.operator.getD 0
    operatorFeeBps := p.operatorFeeBps
    maxOpenJobs := p.maxOpenJobs
    createdAt := w.sys.now
    updatedAt := w.sys.now }

/-- `validate_listing_spec_update`: hash and URI together or neither. -/
def updateListingSpec (listing : ServiceListingAccount) (specHash : Option Hash)
    (specUri : Option String) : Result ServiceListingAccount :=
  match specHash, specUri with
  | some hash, some uri => do
      validateListingSpec hash uri
      .ok { listing with specHash := hash, specUri := uri }
  | none, none => .ok listing
  | _, _ => .error .ListingInvalidSpec

/-- `update_service_listing`. A new bound may not fall below the jobs already open. -/
def updateServiceListing (w : World) (signer : Pubkey) (listing : ServiceListingAccount)
    (u : ListingUpdate) : Result ServiceListingAccount := do
  require (listing.authority = signer) .UnauthorizedAgent
  let provider ← demand (w.agents.lookup listing.providerAgent) .AccountNotInitialized
  require (provider.data.authority = signer) .UnauthorizedAgent
  checkVersionCompatible w.config
  require (provider.data.status = .Active ∧ provider.data.retired = false) .AgentNotActive
  require (listing.state ≠ .Retired) .ListingRetired
  require (u.price.all (1000 ≤ ·) = true) .ListingPriceTooLow
  let listing := { listing with price := u.price.getD listing.price }
  let listing ← updateListingSpec listing u.specHash u.specUri
  require (u.requiredCapabilities.all (· ≠ 0) = true) .ListingCapabilitiesRequired
  require (u.defaultDeadlineSecs.all (fun secs => 0 ≤ secs ∧ secs ≤ maxDeadlineSeconds) = true)
    .InvalidInput
  require (u.maxOpenJobs.all (fun bound => bound = 0 ∨ listing.openJobs ≤ bound) = true)
    .ListingCapacityBelowOpenJobs
  let listing := { listing with
    tags := u.tags.getD listing.tags
    requiredCapabilities := u.requiredCapabilities.getD listing.requiredCapabilities
    defaultDeadlineSecs := u.defaultDeadlineSecs.getD listing.defaultDeadlineSecs
    maxOpenJobs := u.maxOpenJobs.getD listing.maxOpenJobs
    operatorFeeBps := u.operatorFeeBps.getD listing.operatorFeeBps
    operator := u.operator.getD listing.operator }
  validateOperatorFeeInvariant listing.operator listing.operatorFeeBps
  let version ← addU64 listing.version 1
  .ok { listing with version := version, updatedAt := w.sys.now }

/-- The version check of a state change: only reactivation is an entry. -/
def checkListingStateVersion (config : ProtocolConfig) (target : ListingState) : Result Unit :=
  if target = .Active then checkVersionCompatible config else checkVersionCompatibleForExit config

/-- A reactivation brings the listing's provider, which must be in good standing. -/
def requireReactivatingProvider (w : World) (listing : ServiceListingAccount)
    (target : ListingState) : Result Unit :=
  if target = .Active then do
    let provider ← demand (w.agents.lookup listing.providerAgent) .InvalidInput
    require (provider.data.authority = listing.authority) .UnauthorizedAgent
    require (provider.data.status = .Active ∧ provider.data.retired = false) .AgentNotActive
  else .ok ()

/-- `set_service_listing_state`: pausing and retiring are exits, reactivation is an entry; a
retired listing stays retired. -/
def setServiceListingState (w : World) (signer : Pubkey) (listing : ServiceListingAccount)
    (target : ListingState) : Result ServiceListingAccount := do
  require (listing.authority = signer) .UnauthorizedAgent
  checkListingStateVersion w.config target
  require (listing.state ≠ .Retired) .ListingRetired
  requireReactivatingProvider w listing target
  require (listing.state ≠ target) .ListingInvalidStateTransition
  let version ← addU64 listing.version 1
  .ok { listing with version := version, state := target, updatedAt := w.sys.now }

/-! ## Capacity -/

/-- The part of both hires that takes an open job of the listing. -/
def takeListingSlot (listing : ServiceListingAccount) (now : ℤ) :
    Result ServiceListingAccount := do
  let totalHires ← addU64 listing.totalHires 1
  let openJobs ← addU16 listing.openJobs 1
  .ok { listing with totalHires := totalHires, openJobs := openJobs, updatedAt := now }

/-- `decrement_listing_open_jobs`, as `close_task` writes it back. -/
def releaseListingSlot (listing : ServiceListingAccount) (now : ℤ) :
    Result ServiceListingAccount := do
  let openJobs ← subU listing.openJobs 1
  .ok { listing with openJobs := openJobs, updatedAt := now }

end AgencCoordination
