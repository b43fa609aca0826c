import AgencCoordination.Program.Completion
import AgencCoordination.Program.Moderation

/-!
# Goods

Listings of finite goods and their sales (`create_goods_listing.rs`, `update_goods_listing.rs`,
`purchase_good.rs`). The buyer is a bare wallet. A sale pays the seller, the treasury and the
listing's operator out of the buyer's wallet or token account, which are not accounts of the
program, takes one unit of the supply and mints one receipt, kept by its listing and serial.

A listing and a receipt are never closed: a seller delists by clearing the active flag.
-/

namespace AgencCoordination

open Foundations

/-! ## Accounts -/

/-- `GoodsListing`. -/
structure GoodsListing where
  seller : Pubkey
  sellerAuthority : Pubkey
  goodId : Hash
  name : Hash
  metadataHash : Hash
  metadataUri : String
  price : ℕ
  priceMint : Option Pubkey
  tags : BitVec 512
  initialSupply : ℕ
  totalSupply : ℕ
  soldCount : ℕ := 0
  restockCount : ℕ := 0
  operator : Pubkey
  operatorFeeBps : ℕ
  isActive : Bool := true
  createdAt : ℤ
  updatedAt : ℤ
  deriving DecidableEq

/-- `GoodsListing::has_operator`. -/
def GoodsListing.hasOperator (good : GoodsListing) : Bool := decide (good.operator ≠ 0)

/-- `SaleReceipt`, kept by its listing and serial. -/
structure SaleReceipt where
  buyer : Pubkey
  metadataHash : Hash
  pricePaid : ℕ
  protocolFee : ℕ
  operatorFee : ℕ
  timestamp : ℤ
  deriving DecidableEq

/-! ## Arguments -/

/-- The arguments of `create_goods_listing`. -/
structure GoodsParams where
  goodId : Hash
  name : Hash
  metadataHash : Hash
  metadataUri : String
  price : UInt64
  priceMint : Option Pubkey
  tags : BitVec 512
  totalSupply : UInt64
  operator : Pubkey
  operatorFeeBps : ℕ
  deriving DecidableEq

/-- The arguments of `update_goods_listing`: what is absent stays as it is. -/
structure GoodsUpdate where
  price : Option UInt64 := none
  isActive : Option Bool := none
  metadataHash : Option Hash := none
  metadataUri : Option String := none
  tags : Option (BitVec 512) := none
  additionalSupply : Option UInt64 := none
  operator : Option Pubkey := none
  operatorFeeBps : Option ℕ := none
  deriving DecidableEq

/-- A token account, as far as a sale checks it. -/
structure TokenAccount where
  mint : Pubkey
  owner : Pubkey
  deriving DecidableEq

/-- The accounts of `purchase_good` that a caller may leave out. -/
structure SaleAccounts where
  operatorWallet : Option Pubkey := none
  priceMint : Option Pubkey := none
  buyerToken : Option TokenAccount := none
  sellerToken : Option TokenAccount := none
  treasuryToken : Option TokenAccount := none
  operatorToken : Option TokenAccount := none
  withTokenProgram : Bool := false
  deriving DecidableEq

/-- The arguments of `purchase_good`. -/
structure PurchaseParams where
  expectedSerial : ℕ
  expectedPrice : ℕ
  expectedMetadataHash : Hash
  deriving DecidableEq

/-- One leg of a sale, paid by the buyer to the owner of the receiving wallet or account. -/
structure SalePayment where
  recipient : Pubkey
  mint : Option Pubkey
  amount : ℕ
  deriving DecidableEq

/-! ## Listing -/

/-- `MIN_GOOD_PRICE`. -/
def minGoodPrice : ℕ := 1000

/-- `require_goods_enabled`. -/
def requireGoodsEnabled (config : ProtocolConfig) : Result Unit :=
  require (4 ≤ config.surfaceRevision) .GoodsSurfaceNotEnabled

/-- `validate_operator_terms`. -/
def validateOperatorTerms (sys : Sysvars) (operator : Pubkey) (operatorFeeBps : ℕ)
    (sellerAuthority goodKey : Pubkey) : Result Unit := do
  require (operator ≠ 0 ↔ 0 < operatorFeeBps) .GoodsInvalidOperatorTerms
  require (operatorFeeBps ≤ maxOperatorFeeBps) .GoodsInvalidOperatorTerms
  require (operator ≠ sellerAuthority) .GoodsInvalidOperatorTerms
  require (operator ≠ goodKey) .GoodsInvalidOperatorTerms
  require (operator ≠ 0 → operator ≠ sys.programId ∧ operator ∉ sys.reservedPayeeKeys)
    .MarketplacePayeeUnpayable

/-- `validate_goods_metadata`. -/
def validateGoodsMetadata (metadataHash : Hash) (metadataUri : String) : Result Unit := do
  require (metadataHash ≠ 0) .GoodsInvalidMetadata
  require (validUri metadataUri = true) .GoodsInvalidMetadata

/-- `create_goods_listing`, at the address of the seller's `goodId`. -/
def createGoodsListing (w : World) (m : Moderation) (key seller signer : Pubkey)
    (p : GoodsParams) : Result GoodsListing := do
  let agent ← demand (w.agents.lookup seller) .AccountNotInitialized
  require (agent.data.authority = signer) .UnauthorizedAgent
  checkVersionCompatible w.config
  requireGoodsEnabled w.config
  require (agent.data.status = .Active) .AgentNotActive
  require (p.goodId ≠ 0) .GoodsInvalidId
  require (p.name ≠ 0) .GoodsInvalidName
  validateGoodsMetadata p.metadataHash p.metadataUri
  require (minGoodPrice ≤ p.price.toNat) .GoodsPriceBelowMinimum
  require (0 < p.totalSupply.toNat) .GoodsInvalidSupply
  validateOperatorTerms w.sys p.operator p.operatorFeeBps agent.data.authority key
  requireContentNotBlocked m p.metadataHash
  .ok {
    seller := seller
    sellerAuthority := agent.data.authority
    goodId := p.goodId
    name := p.name
    metadataHash := p.metadataHash
    metadataUri := p.metadataUri
    price := p.price.toNat
    priceMint := p.priceMint
    tags := p.tags
    initialSupply := p.totalSupply.toNat
    totalSupply := p.totalSupply.toNat
    operator := p.operator
    operatorFeeBps := p.operatorFeeBps
    createdAt := w.sys.now
    updatedAt := w.sys.now }

/-! ## Updating -/

/-- `is_pure_goods_deactivation`: the update takes the listing down and does nothing else. -/
def isPureGoodsDeactivation (u : GoodsUpdate) : Bool := decide (u = { isActive := some false })

/-- `check_goods_update_version`. -/
def checkGoodsUpdateVersion (config : ProtocolConfig) (pureDeactivation : Bool) : Result Unit :=
  if pureDeactivation then checkVersionCompatibleForExit config else checkVersionCompatible config

/-- The metadata of an update: hash and URI together or neither. -/
def updateGoodsMetadata (good : GoodsListing) (metadataHash : Option Hash)
    (metadataUri : Option String) : Result GoodsListing :=
  match metadataHash, metadataUri with
  | some hash, some uri => do
      validateGoodsMetadata hash uri
      .ok { good with metadataHash := hash, metadataUri := uri }
  | none, none => .ok good
  | _, _ => .error .GoodsInvalidMetadata

/-- A restock: additive only, and counted. -/
def restockGoods (good : GoodsListing) (additionalSupply : Option UInt64) :
    Result GoodsListing :=
  match additionalSupply with
  | some delta => do
      require (0 < delta.toNat) .GoodsInvalidSupply
      let totalSupply ← addU64 good.totalSupply delta.toNat
      let restockCount ← addU16 good.restockCount 1
      .ok { good with totalSupply := totalSupply, restockCount := restockCount }
  | none => .ok good

/-- The operator terms of an update: the resulting pair is validated as a unit. -/
def updateGoodsOperator (sys : Sysvars) (good : GoodsListing) (sellerAuthority goodKey : Pubkey)
    (operator : Option Pubkey) (operatorFeeBps : Option ℕ) : Result GoodsListing :=
  if operator ≠ none ∨ operatorFeeBps ≠ none then do
    let nextOperator := operator.getD good.operator
    let nextFeeBps := operatorFeeBps.getD good.operatorFeeBps
    validateOperatorTerms sys nextOperator nextFeeBps sellerAuthority goodKey
    .ok { good with operator := nextOperator, operatorFeeBps := nextFeeBps }
  else .ok good

/-- `update_goods_listing`. Delisting alone stays possible while the protocol is paused and for a
seller of any status. -/
def updateGoodsListing (w : World) (key signer : Pubkey) (good : GoodsListing)
    (u : GoodsUpdate) : Result GoodsListing := do
  let seller ← demand (w.agents.lookup good.seller) .AccountNotInitialized
  require (good.sellerAuthority = signer) .GoodsUnauthorizedUpdate
  require (seller.data.authority = signer) .UnauthorizedAgent
  checkGoodsUpdateVersion w.config (isPureGoodsDeactivation u)
  requireGoodsEnabled w.config
  require (isPureGoodsDeactivation u = true ∨
    (seller.data.status = .Active ∧ seller.data.retired = false)) .AgentNotActive
  require (u.price.all (minGoodPrice ≤ ·.toNat) = true) .GoodsPriceBelowMinimum
  let good := { good with
    price := (u.price.map UInt64.toNat).getD good.price
    isActive := u.isActive.getD good.isActive }
  let good ← updateGoodsMetadata good u.metadataHash u.metadataUri
  let good := { good with tags := u.tags.getD good.tags }
  let good ← restockGoods good u.additionalSupply
  let good ← updateGoodsOperator w.sys good seller.data.authority key u.operator u.operatorFeeBps
  .ok { good with updatedAt := w.sys.now }

/-! ## Selling -/

/-- `split_good_price`: what the seller, the protocol and the operator get of a price. -/
def splitGoodPrice (price protocolFeeBps operatorFeeBps : ℕ) : Result (ℕ × ℕ × ℕ) := do
  let protocolFee := bpsOf price protocolFeeBps
  let (operatorFee, _) ← calculateCombinedFees price protocolFeeBps operatorFeeBps 0
  let rest ← subU price protocolFee
  let sellerShare ← subU rest operatorFee
  .ok (sellerShare, protocolFee, operatorFee)

/-- The operator's wallet must be passed whenever the listing has an operator. -/
def requireOperatorWallet (good : GoodsListing) (accounts : SaleAccounts) : Result Unit :=
  require (good.hasOperator = true → accounts.operatorWallet = some good.operator)
    .MissingOperatorAccount

/-- The token path's checks of the accounts a sale in `mint` goes through. -/
def validateSaleTokenAccounts (accounts : SaleAccounts) (mint buyer seller treasury operator :
    Pubkey) (operatorFee : ℕ) : Result Unit := do
  require (accounts.withTokenProgram = true) .MissingTokenAccounts
  let priceMint ← demand accounts.priceMint .MissingTokenAccounts
  let buyerToken ← demand accounts.buyerToken .MissingTokenAccounts
  let sellerToken ← demand accounts.sellerToken .MissingTokenAccounts
  let treasuryToken ← demand accounts.treasuryToken .MissingTokenAccounts
  require (priceMint = mint) .InvalidTokenMint
  require (buyerToken.mint = mint ∧ sellerToken.mint = mint ∧ treasuryToken.mint = mint)
    .InvalidTokenMint
  require (buyerToken.owner = buyer ∧ sellerToken.owner = seller ∧ treasuryToken.owner = treasury)
    .InvalidInput
  if 0 < operatorFee then do
    let operatorToken ← demand accounts.operatorToken .MissingOperatorAccount
    require (operatorToken.mint = mint) .InvalidTokenMint
    require (operatorToken.owner = operator) .MissingOperatorAccount
  else .ok ()

/-- The accounts of the payment path the listing's mint selects. -/
def validatePaymentPath (good : GoodsListing) (accounts : SaleAccounts) (buyer treasury : Pubkey)
    (operatorFee : ℕ) : Result Unit :=
  match good.priceMint with
  | some mint =>
      validateSaleTokenAccounts accounts mint buyer good.sellerAuthority treasury good.operator
        operatorFee
  | none => require (operatorFee = 0 ∨ good.hasOperator = true) .MissingOperatorAccount

/-- The payments of a sale; a leg of zero is not paid. -/
def salePayments (good : GoodsListing) (treasury : Pubkey)
    (sellerShare protocolFee operatorFee : ℕ) : List SalePayment :=
  [⟨good.sellerAuthority, good.priceMint, sellerShare⟩, ⟨treasury, good.priceMint, protocolFee⟩,
    ⟨good.operator, good.priceMint, operatorFee⟩].filter fun payment => 0 < payment.amount

/-- `purchase_good`: the listing after the sale, the receipt, and the buyer's payments. -/
def purchaseGood (w : World) (m : Moderation) (good : GoodsListing) (buyer : Pubkey)
    (accounts : SaleAccounts) (p : PurchaseParams) :
    Result (GoodsListing × SaleReceipt × List SalePayment) := do
  let seller ← demand (w.agents.lookup good.seller) .AccountNotInitialized
  checkVersionCompatible w.config
  requireGoodsEnabled w.config
  require (seller.data.status ≠ .Suspended ∧ seller.data.retired = false) .AgentNotActive
  require (good.isActive = true) .GoodsNotActive
  require (good.soldCount < good.totalSupply) .GoodsSoldOut
  require (p.expectedSerial = good.soldCount) .GoodsSerialStale
  require (good.price ≤ p.expectedPrice) .GoodsPriceChanged
  require (good.metadataHash = p.expectedMetadataHash) .GoodsMetadataChanged
  require (buyer ≠ good.sellerAuthority) .GoodsSelfPurchase
  requireContentNotBlocked m good.metadataHash
  let (sellerShare, protocolFee, operatorFee) ←
    splitGoodPrice good.price w.config.protocolFeeBps good.operatorFeeBps
  requireOperatorWallet good accounts
  validatePaymentPath good accounts buyer w.config.treasury operatorFee
  let soldCount ← addU64 good.soldCount 1
  let _ ← subU good.totalSupply soldCount
  .ok ({ good with soldCount := soldCount },
    { buyer := buyer
      metadataHash := good.metadataHash
      pricePaid := good.price
      protocolFee := protocolFee
      operatorFee := operatorFee
      timestamp := w.sys.now },
    salePayments good w.config.treasury sellerShare protocolFee operatorFee)

end AgencCoordination
