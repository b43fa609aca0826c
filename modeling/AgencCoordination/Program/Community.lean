import AgencCoordination.Program.Market

/-!
# The community around the marketplace

Skills and their sales (`register_skill.rs`, `update_skill.rs`, `purchase_skill.rs`,
`rate_skill.rs`), the feed and its votes (`post_to_feed.rs`, `upvote_post.rs`), stakes on an agent's
reputation (`stake_reputation.rs`, `withdraw_reputation_stake.rs`) and the ratings of hires
(`rate_hire.rs`). All of it stands on the marketplace, whose instructions run in between.

Wallets and token accounts are not accounts of the program: a sale lists its payments, a stake says
what it takes out of the wallet and what it returns. The ratings of a service listing are kept here,
apart from the rest of the listing.
-/

namespace AgencCoordination

open Foundations

/-! ## Errors -/

/-- The errors of these handlers: those of the rest of the program, and their own. -/
inductive CommunityError
  | program (e : CoordinationError)
  | FeedAgentVotingRetired
  | FeedAuthorityAlreadyVoted
  | FeedAuthorityVotingUnavailable
  | FeedInvalidContentHash
  | FeedInvalidTopic
  | FeedSelfUpvote
  | InvalidRatingScore
  | RatingFeeNotQualified
  | RatingNotBuyer
  | ReputationAgentNotActive
  | ReputationDisputesPending
  | ReputationStakeAmountTooLow
  | ReputationStakeInsufficientBalance
  | ReputationStakeLocked
  | ReviewUriTooLong
  | SkillContentChanged
  | SkillInvalidContentHash
  | SkillInvalidId
  | SkillInvalidName
  | SkillInvalidRating
  | SkillNotActive
  | SkillPriceBelowMinimum
  | SkillPriceChanged
  | SkillSelfPurchase
  | SkillSelfRating
  | SkillVersionChanged
  | TaskNotCompletedForRating
  deriving DecidableEq

abbrev CommunityResult := Except CommunityError

/-- A computation of the rest of the program. -/
def lift {α : Type} (r : Result α) : CommunityResult α := r.mapError .program

@[simp] theorem lift_eq_ok {α : Type} {r : Result α} {a : α} : lift r = .ok a ↔ r = .ok a :=
  mapError_eq_ok

/-! ## Accounts -/

/-- The address of a skill: its author and its id. -/
abbrev SkillKey := Pubkey × Hash

/-- The address of a post: its author and its nonce. -/
abbrev PostKey := Pubkey × Hash

/-- `SkillRegistration`, kept by author and id. -/
structure SkillRegistration where
  name : Hash
  contentHash : Hash
  price : ℕ
  priceMint : Option Pubkey
  tags : BitVec 512
  totalRating : ℕ := 0
  ratingCount : ℕ := 0
  downloadCount : ℕ := 0
  version : ℕ := 1
  isActive : Bool := true
  createdAt : ℤ
  updatedAt : ℤ
  deriving DecidableEq

/-- `PurchaseRecord`, kept by skill and buyer agent. The last two fields are the named bytes of
`_reserved`. -/
structure PurchaseRecord where
  pricePaid : ℕ
  timestamp : ℤ
  contentVersion : ℕ
  ratingFeeQualified : Bool
  deriving DecidableEq

/-- `SkillRating`, kept by skill and rater agent. -/
structure SkillRating where
  rating : ℕ
  reviewHash : Option Hash
  raterReputation : ℕ
  timestamp : ℤ
  deriving DecidableEq

/-- `FeedPost`, kept by author and nonce. -/
structure FeedPost where
  contentHash : Hash
  topic : Hash
  parentPost : Option PostKey
  upvoteCount : ℕ := 0
  createdAt : ℤ
  walletUpvoteCount : ℕ := 0
  deriving DecidableEq

/-- `FeedAuthorityVote`, kept by post and wallet. -/
structure FeedAuthorityVote where
  voter : Pubkey
  timestamp : ℤ
  deriving DecidableEq

/-- `ReputationStake`, kept by agent. -/
structure ReputationStake where
  stakedAmount : ℕ := 0
  lockedUntil : ℤ := 0
  slashCount : ℕ := 0
  createdAt : ℤ
  deriving DecidableEq

/-- `HireRating`, kept by task. -/
structure HireRating where
  listing : Pubkey
  buyer : Pubkey
  score : ℕ
  reviewHash : Option Hash
  reviewUri : String
  ratedAt : ℤ
  deriving DecidableEq

/-- The rating fields of a `ServiceListing`. -/
structure ListingRatings where
  totalRating : ℕ := 0
  ratingCount : ℕ := 0
  deriving DecidableEq

/-! ## Constants -/

def minSkillPrice : ℕ := 1000
def minFeedPostReputation : ℕ := 5500
def minFeedPostAccountAgeSecs : ℤ := 3600
def minFeedUpvoteReputation : ℕ := 5200
def minFeedUpvoteAccountAgeSecs : ℤ := 900
def surfaceRevisionAuthorityFeed : ℕ := 6
def reputationStakingCooldown : ℤ := 604800
def maxReviewUriLen : ℕ := 256
def reputationStakeSize : ℕ := 74
def u32Limit : ℕ := 2 ^ 32

/-- `checked_add` of a `u32`. -/
def addU32 (a b : ℕ) : Result ℕ := checkedAdd u32Limit a b .ArithmeticOverflow

@[simp] theorem addU32_eq_ok {a b r : ℕ} : addU32 a b = .ok r ↔ a + b < u32Limit ∧ r = a + b :=
  checkedAdd_eq_ok

/-! ## Skills -/

/-- The agent at `key`, whose authority signs. -/
def loadAgent (w : World) (key signer : Pubkey) : CommunityResult (Account AgentRegistration) := do
  let agent ← demand (w.agents.lookup key) (.program .AccountNotInitialized)
  require (agent.data.authority = signer) (.program .UnauthorizedAgent)
  .ok agent

/-- The arguments of `register_skill`. -/
structure SkillParams where
  name : Hash
  contentHash : Hash
  price : UInt64
  priceMint : Option Pubkey
  tags : BitVec 512
  deriving DecidableEq

/-- `register_skill`. -/
def registerSkill (w : World) (key : SkillKey) (signer : Pubkey) (p : SkillParams) :
    CommunityResult SkillRegistration := do
  let author ← loadAgent w key.1 signer
  lift (checkVersionCompatible w.config)
  require (author.data.status = .Active) (.program .AgentNotActive)
  require (key.2 ≠ 0) .SkillInvalidId
  require (p.name ≠ 0) .SkillInvalidName
  require (p.contentHash ≠ 0) .SkillInvalidContentHash
  require (minSkillPrice ≤ p.price.toNat) .SkillPriceBelowMinimum
  .ok {
    name := p.name
    contentHash := p.contentHash
    price := p.price.toNat
    priceMint := p.priceMint
    tags := p.tags
    createdAt := w.sys.now
    updatedAt := w.sys.now }

/-- The arguments of `update_skill`. -/
structure SkillUpdate where
  contentHash : Hash
  price : UInt64
  tags : Option (BitVec 512) := none
  isActive : Option Bool := none
  deriving DecidableEq

/-- `next_skill_version`. -/
def nextSkillVersion (current : ℕ) : Result ℕ := addU8 current 1

/-- `update_skill`: every update takes the next version, and the last version takes none. -/
def updateSkill (w : World) (key : SkillKey) (signer : Pubkey) (skill : SkillRegistration)
    (u : SkillUpdate) : CommunityResult SkillRegistration := do
  let author ← loadAgent w key.1 signer
  lift (checkVersionCompatible w.config)
  require (author.data.status = .Active) (.program .AgentNotActive)
  require (u.contentHash ≠ 0) .SkillInvalidContentHash
  require (minSkillPrice ≤ u.price.toNat) .SkillPriceBelowMinimum
  let version ← lift (nextSkillVersion skill.version)
  .ok { skill with
    contentHash := u.contentHash
    price := u.price.toNat
    tags := u.tags.getD skill.tags
    isActive := u.isActive.getD skill.isActive
    version := version
    updatedAt := w.sys.now }

/-- The arguments of `purchase_skill`: what the buyer read and signs for. -/
structure SkillPurchase where
  expectedPrice : ℕ
  expectedVersion : ℕ
  expectedContentHash : Hash
  deriving DecidableEq

/-- The accounts of `purchase_skill` that a caller may leave out. -/
structure SkillSaleAccounts where
  priceMint : Option Pubkey := none
  buyerToken : Option TokenAccount := none
  authorToken : Option TokenAccount := none
  treasuryToken : Option TokenAccount := none
  withTokenProgram : Bool := false
  deriving DecidableEq

/-- The checks of the token accounts a sale in `mint` goes through. -/
def validateSkillTokenAccounts (accounts : SkillSaleAccounts) (mint buyer author treasury : Pubkey) :
    Result Unit := do
  let priceMint ← demand accounts.priceMint .MissingTokenAccounts
  let buyerToken ← demand accounts.buyerToken .MissingTokenAccounts
  let authorToken ← demand accounts.authorToken .MissingTokenAccounts
  let treasuryToken ← demand accounts.treasuryToken .MissingTokenAccounts
  require (accounts.withTokenProgram = true) .MissingTokenAccounts
  require (priceMint = mint) .InvalidTokenMint
  require (buyerToken.mint = mint ∧ authorToken.mint = mint ∧ treasuryToken.mint = mint)
    .InvalidTokenMint
  require (buyerToken.owner = buyer ∧ authorToken.owner = author ∧ treasuryToken.owner = treasury)
    .InvalidInput

/-- The protocol's share of the price and the author's; a free skill has none. -/
def splitSkillPrice (price protocolFeeBps : ℕ) : Result (ℕ × ℕ) := do
  let protocolFee := bpsOf price protocolFeeBps
  let authorShare ← subU price protocolFee
  .ok (authorShare, protocolFee)

/-- The payments of a sale; a share of zero is not paid. -/
def skillPayments (mint : Option Pubkey) (author treasury : Pubkey) (authorShare protocolFee : ℕ) :
    List SalePayment :=
  [⟨author, mint, authorShare⟩, ⟨treasury, mint, protocolFee⟩].filter fun p => 0 < p.amount

/-- The accounts of the payment path that the mint of a skill selects. -/
def validateSkillPaymentPath (skill : SkillRegistration) (accounts : SkillSaleAccounts)
    (buyer author treasury : Pubkey) : Result Unit :=
  match skill.priceMint with
  | some mint => validateSkillTokenAccounts accounts mint buyer author treasury
  | none => .ok ()

/-- `purchase_skill`: the skill after the sale, the record, and the buyer's payments. -/
def purchaseSkill (w : World) (key : SkillKey) (skill : SkillRegistration) (buyerKey signer : Pubkey)
    (accounts : SkillSaleAccounts) (p : SkillPurchase) :
    CommunityResult (SkillRegistration × PurchaseRecord × List SalePayment) := do
  let buyer ← loadAgent w buyerKey signer
  let author ← demand (w.agents.lookup key.1) (.program .AccountNotInitialized)
  lift (checkVersionCompatible w.config)
  require (buyer.data.status = .Active) (.program .AgentNotActive)
  require (author.data.status ≠ .Suspended ∧ author.data.retired = false)
    (.program .AgentNotActive)
  require (skill.isActive = true) .SkillNotActive
  require (buyerKey ≠ key.1) .SkillSelfPurchase
  require (signer ≠ author.data.authority) .SkillSelfPurchase
  require (skill.price ≤ p.expectedPrice) .SkillPriceChanged
  require (skill.version = p.expectedVersion) .SkillVersionChanged
  require (skill.contentHash = p.expectedContentHash) .SkillContentChanged
  lift (validateSkillPaymentPath skill accounts signer author.data.authority w.config.treasury)
  let (authorShare, protocolFee) ← lift (splitSkillPrice skill.price w.config.protocolFeeBps)
  let downloadCount ← lift (addU32 skill.downloadCount 1)
  let independentSolFee := decide (skill.priceMint = none ∧ w.config.treasury ≠ signer ∧
    w.config.treasury ≠ author.data.authority)
  .ok ({ skill with downloadCount := downloadCount },
    { pricePaid := skill.price
      timestamp := w.sys.now
      contentVersion := skill.version
      ratingFeeQualified :=
        independentSolFee && decide (minRatingProtocolFeeLamports ≤ protocolFee) },
    skillPayments skill.priceMint author.data.authority w.config.treasury authorShare protocolFee)

/-- `rate_skill`, by an agent that holds a purchase record. -/
def rateSkill (w : World) (key : SkillKey) (skill : SkillRegistration) (purchase : PurchaseRecord)
    (raterKey signer : Pubkey) (rating : ℕ) (reviewHash : Option Hash) :
    CommunityResult (SkillRegistration × SkillRating) := do
  let rater ← loadAgent w raterKey signer
  let author ← demand (w.agents.lookup key.1) (.program .AccountNotInitialized)
  lift (checkVersionCompatible w.config)
  require (rater.data.status = .Active) (.program .AgentNotActive)
  require (1 ≤ rating ∧ rating ≤ 5) .SkillInvalidRating
  require (raterKey ≠ key.1) .SkillSelfRating
  require (signer ≠ author.data.authority) .SkillSelfRating
  require (0 < purchase.pricePaid) .SkillPriceBelowMinimum
  require (purchase.ratingFeeQualified = true) .RatingFeeNotQualified
  let totalRating ← lift (addU64 skill.totalRating (rating * rater.data.reputation))
  let ratingCount ← lift (addU32 skill.ratingCount 1)
  .ok ({ skill with totalRating := totalRating, ratingCount := ratingCount },
    { rating := rating
      reviewHash := reviewHash
      raterReputation := rater.data.reputation
      timestamp := w.sys.now })

/-! ## The feed -/

/-- `post_to_feed`. -/
def postToFeed (w : World) (key : PostKey) (signer : Pubkey) (contentHash topic : Hash)
    (parentPost : Option PostKey) : CommunityResult FeedPost := do
  let author ← loadAgent w key.1 signer
  lift (checkVersionCompatible w.config)
  require (author.data.status = .Active) (.program .AgentNotActive)
  require (minFeedPostReputation ≤ author.data.reputation) (.program .InsufficientReputation)
  require (contentHash ≠ 0) .FeedInvalidContentHash
  require (topic ≠ 0) .FeedInvalidTopic
  require (minFeedPostAccountAgeSecs ≤ satAddI64 w.sys.now (-author.data.registeredAt))
    (.program .CooldownNotElapsed)
  .ok {
    contentHash := contentHash
    topic := topic
    parentPost := parentPost
    createdAt := w.sys.now }

/-- `upvote_post`: votes of agents are retired. -/
def upvotePost : CommunityResult FeedPost := .error .FeedAgentVotingRetired

/-- `upvote_post_by_authority`: one vote for each wallet and post. -/
def upvotePostByAuthority (w : World) (key : PostKey) (post : FeedPost)
    (existing : Option FeedAuthorityVote) (voterKey signer : Pubkey) :
    CommunityResult (FeedPost × FeedAuthorityVote) := do
  let voter ← loadAgent w voterKey signer
  let author ← demand (w.agents.lookup key.1) (.program .AccountNotInitialized)
  lift (checkVersionCompatible w.config)
  require (surfaceRevisionAuthorityFeed ≤ w.config.surfaceRevision)
    .FeedAuthorityVotingUnavailable
  require (existing = none) .FeedAuthorityAlreadyVoted
  require (author.data.authority ≠ signer) .FeedSelfUpvote
  require (voter.data.status = .Active) (.program .AgentNotActive)
  require (minFeedUpvoteReputation ≤ voter.data.reputation) (.program .InsufficientReputation)
  require (minFeedUpvoteAccountAgeSecs ≤ satAddI64 w.sys.now (-voter.data.registeredAt))
    (.program .CooldownNotElapsed)
  let walletUpvoteCount ← lift (addU32 post.walletUpvoteCount 1)
  .ok ({ post with walletUpvoteCount := walletUpvoteCount },
    { voter := voterKey, timestamp := w.sys.now })

/-! ## Reputation stakes -/

/-- `stake_reputation`: the account is created at the first stake with its rent. -/
def stakeReputation (w : World) (existing : Option (Account ReputationStake)) (key signer : Pubkey)
    (amount : ℕ) : CommunityResult (Account ReputationStake) := do
  let agent ← loadAgent w key signer
  lift (checkVersionCompatible w.config)
  require (0 < amount) .ReputationStakeAmountTooLow
  require (agent.data.status = .Active) .ReputationAgentNotActive
  let rentMinimum := w.sys.rent.minimumBalance reputationStakeSize
  let stake := existing.getD ⟨rentMinimum, { createdAt := w.sys.now }⟩
  let required ← lift (addU64 rentMinimum stake.data.stakedAmount)
  require (required ≤ stake.lamports) (.program .CorruptedData)
  let stakedAmount ← lift (addU64 stake.data.stakedAmount amount)
  let lockedUntil ← lift (addI64 w.sys.now reputationStakingCooldown)
  .ok ⟨stake.lamports + amount,
    { stake.data with stakedAmount := stakedAmount, lockedUntil := lockedUntil }⟩

/-- `withdraw_reputation_stake`: possible while paused, after the cooldown, for an agent that is
nobody's defendant. -/
def withdrawReputationStake (w : World) (stake : Account ReputationStake) (key signer : Pubkey)
    (amount : ℕ) : CommunityResult (Account ReputationStake) := do
  let agent ← loadAgent w key signer
  require (0 < amount) .ReputationStakeAmountTooLow
  require (stake.data.lockedUntil ≤ w.sys.now) .ReputationStakeLocked
  require (agent.data.disputesAsDefendant = 0) .ReputationDisputesPending
  require (amount ≤ stake.data.stakedAmount) .ReputationStakeInsufficientBalance
  let remaining ← lift (subU stake.data.stakedAmount amount)
  let balance ← checkedSub stake.lamports amount .ReputationStakeInsufficientBalance
  let required ← lift (addU64 (w.sys.rent.minimumBalance reputationStakeSize) remaining)
  require (required ≤ balance) (.program .CorruptedData)
  .ok ⟨balance, { stake.data with stakedAmount := remaining }⟩

/-! ## Ratings of hires -/

/-- `rate_hire`: the ratings of the listing and the record. -/
def rateHire (w : World) (accounts : TaskAccounts) (ratings : ListingRatings) (signer : Pubkey)
    (score : ℕ) (reviewHash : Option Hash) (reviewUri : String) :
    CommunityResult (Pubkey × ListingRatings × HireRating) := do
  let hire ← demand accounts.hire (.program .AccountNotInitialized)
  lift (checkVersionCompatible w.config)
  require (1 ≤ score ∧ score ≤ 5) .InvalidRatingScore
  require (reviewUri.utf8ByteSize ≤ maxReviewUriLen) .ReviewUriTooLong
  require (signer = accounts.task.creator) .RatingNotBuyer
  require (accounts.task.status = .Completed) .TaskNotCompletedForRating
  require (accounts.task.ratingFeeQualified = true) .RatingFeeNotQualified
  let totalRating ← lift (addU64 ratings.totalRating score)
  let ratingCount ← lift (addU32 ratings.ratingCount 1)
  .ok (hire.listing, ⟨totalRating, ratingCount⟩,
    { listing := hire.listing
      buyer := signer
      score := score
      reviewHash := reviewHash
      reviewUri := reviewUri
      ratedAt := w.sys.now })

/-! ## The accounts and the instructions -/

/-- The marketplace with the accounts of its community. -/
structure Community where
  market : Market
  skills : Ledger SkillKey SkillRegistration := ∅
  purchases : Ledger (SkillKey × Pubkey) PurchaseRecord := ∅
  skillRatings : Ledger (SkillKey × Pubkey) SkillRating := ∅
  posts : Ledger PostKey FeedPost := ∅
  upvotes : Ledger (PostKey × Pubkey) FeedAuthorityVote := ∅
  stakes : Ledger Pubkey (Account ReputationStake) := ∅
  listingRatings : Ledger Pubkey ListingRatings := ∅
  hireRatings : Ledger Pubkey HireRating := ∅

/-- Instructions on a skill. -/
inductive SkillOp
  | register (signer : Pubkey) (params : SkillParams)
  | update (signer : Pubkey) (changes : SkillUpdate)
  | purchase (buyer signer : Pubkey) (accounts : SkillSaleAccounts) (params : SkillPurchase)
  | rate (rater signer : Pubkey) (rating : ℕ) (reviewHash : Option Hash)
  deriving DecidableEq

/-- Instructions on a post. -/
inductive FeedOp
  | post (signer : Pubkey) (contentHash topic : Hash) (parentPost : Option PostKey)
  | upvote
  | upvoteByAuthority (voter signer : Pubkey)
  deriving DecidableEq

/-- Instructions on the reputation stake of an agent, and lamports anybody sends to its account. -/
inductive StakeOp
  | stake (signer : Pubkey) (amount : ℕ)
  | withdraw (signer : Pubkey) (amount : ℕ)
  | donate (amount : ℕ)
  deriving DecidableEq

/-- One step of the community. -/
inductive CommunityInstruction
  | market (i : MarketInstruction)
  | skill (key : SkillKey) (op : SkillOp)
  | feed (key : PostKey) (op : FeedOp)
  | reputation (agent : Pubkey) (op : StakeOp)
  | rateHire (task signer : Pubkey) (score : ℕ) (reviewHash : Option Hash) (reviewUri : String)
  deriving DecidableEq

/-- What a step pays. -/
structure CommunityPayments where
  market : Payments := {}
  sales : List SalePayment := []
  deriving DecidableEq

/-! ## Handlers by group -/

/-- What is staked on the reputation of an agent. -/
def stakedOn (c : Community) (agent : Pubkey) : ℕ :=
  ((c.stakes.lookup agent).map fun stake => stake.data.stakedAmount).getD 0

/-- An agent that deregisters shows its reputation stake. -/
def showsStake (c : Community) : MarketInstruction → Prop
  | .core _ (.agent key (.deregisterAgent _ shown)) => shown = stakedOn c key
  | _ => True

instance (c : Community) (i : MarketInstruction) : Decidable (showsStake c i) := by
  unfold showsStake
  split <;> infer_instance

/-- The handler of an instruction on the skill at `key`. -/
def SkillOp.run (c : Community) (key : SkillKey) :
    SkillOp → CommunityResult (Community × List SalePayment)
  | .register signer params => do
      require (c.skills.lookup key = none) (.program .AccountAlreadyInUse)
      let skill ← registerSkill c.market.world key signer params
      .ok ({ c with skills := c.skills.insert key skill }, [])
  | .update signer changes => do
      let skill ← demand (c.skills.lookup key) (.program .AccountNotInitialized)
      let skill ← updateSkill c.market.world key signer skill changes
      .ok ({ c with skills := c.skills.insert key skill }, [])
  | .purchase buyer signer accounts params => do
      let skill ← demand (c.skills.lookup key) (.program .AccountNotInitialized)
      require (c.purchases.lookup (key, buyer) = none) (.program .AccountAlreadyInUse)
      let (skill, record, sales) ←
        purchaseSkill c.market.world key skill buyer signer accounts params
      .ok ({ c with
        skills := c.skills.insert key skill
        purchases := c.purchases.insert (key, buyer) record }, sales)
  | .rate rater signer rating reviewHash => do
      let skill ← demand (c.skills.lookup key) (.program .AccountNotInitialized)
      require (c.skillRatings.lookup (key, rater) = none) (.program .AccountAlreadyInUse)
      let purchase ← demand (c.purchases.lookup (key, rater)) (.program .AccountNotInitialized)
      let (skill, record) ←
        rateSkill c.market.world key skill purchase rater signer rating reviewHash
      .ok ({ c with
        skills := c.skills.insert key skill
        skillRatings := c.skillRatings.insert (key, rater) record }, [])

/-- The handler of an instruction on the post at `key`. -/
def FeedOp.run (c : Community) (key : PostKey) : FeedOp → CommunityResult Community
  | .post signer contentHash topic parentPost => do
      require (c.posts.lookup key = none) (.program .AccountAlreadyInUse)
      let post ← postToFeed c.market.world key signer contentHash topic parentPost
      .ok { c with posts := c.posts.insert key post }
  | .upvote => do
      let post ← upvotePost
      .ok { c with posts := c.posts.insert key post }
  | .upvoteByAuthority voter signer => do
      let post ← demand (c.posts.lookup key) (.program .AccountNotInitialized)
      let (post, vote) ← upvotePostByAuthority c.market.world key post
        (c.upvotes.lookup (key, signer)) voter signer
      .ok { c with
        posts := c.posts.insert key post
        upvotes := c.upvotes.insert (key, signer) vote }

/-- The handler of an instruction on the reputation stake of `agent`. -/
def StakeOp.run (c : Community) (agent : Pubkey) : StakeOp → CommunityResult Community
  | .stake signer amount => do
      let stake ← stakeReputation c.market.world (c.stakes.lookup agent) agent signer amount
      .ok { c with stakes := c.stakes.insert agent stake }
  | .withdraw signer amount => do
      let stake ← demand (c.stakes.lookup agent) (.program .AccountNotInitialized)
      let stake ← withdrawReputationStake c.market.world stake agent signer amount
      .ok { c with stakes := c.stakes.insert agent stake }
  | .donate amount => do
      let stake ← demand (c.stakes.lookup agent) (.program .AccountNotInitialized)
      .ok { c with stakes := c.stakes.insert agent ⟨stake.lamports + amount, stake.data⟩ }

/-- `rate_hire` on the accounts of the community. -/
def runRateHire (c : Community) (task signer : Pubkey) (score : ℕ) (reviewHash : Option Hash)
    (reviewUri : String) : CommunityResult Community := do
  let accounts ← demand (c.market.world.tasks.lookup task) (.program .AccountNotInitialized)
  let hire ← demand accounts.hire (.program .AccountNotInitialized)
  require ((c.market.listings.lookup hire.listing).isSome = true) (.program .AccountNotInitialized)
  require (c.hireRatings.lookup task = none) (.program .AccountAlreadyInUse)
  let (listing, ratings, record) ← rateHire c.market.world accounts
    ((c.listingRatings.lookup hire.listing).getD {}) signer score reviewHash reviewUri
  .ok { c with
    listingRatings := c.listingRatings.insert listing ratings
    hireRatings := c.hireRatings.insert task record }

/-- One step: the community after an instruction, and its payments. -/
def executeCommunity (c : Community) :
    CommunityInstruction → CommunityResult (Community × CommunityPayments)
  | .market i => do
      require (showsStake c i) (.program .InvalidInput)
      let (market, paid) ← lift (executeMarket c.market i)
      .ok ({ c with market := market }, { market := paid })
  | .skill key op => do
      let (c, sales) ← op.run c key
      .ok (c, { sales := sales })
  | .feed key op => do
      let c ← op.run c key
      .ok (c, {})
  | .reputation agent op => do
      let c ← op.run c agent
      .ok (c, {})
  | .rateHire task signer score reviewHash reviewUri => do
      let c ← runRateHire c task signer score reviewHash reviewUri
      .ok (c, {})

/-! ## The initial community -/

/-- A freshly initialized program has no community accounts. -/
structure Community.Genesis (c : Community) : Prop where
  market : c.market.Genesis
  skills : c.skills = ∅
  purchases : c.purchases = ∅
  skillRatings : c.skillRatings = ∅
  posts : c.posts = ∅
  upvotes : c.upvotes = ∅
  stakes : c.stakes = ∅
  listingRatings : c.listingRatings = ∅
  hireRatings : c.hireRatings = ∅

/-- The community of the deployment. -/
def deployedCommunity : Community := { market := deployedMarket }

theorem deployedCommunity_genesis : deployedCommunity.Genesis :=
  ⟨deployedMarket_genesis, rfl, rfl, rfl, rfl, rfl, rfl, rfl, rfl⟩

end AgencCoordination

