import AgencCoordination.Program.Claiming

/-!
# The bid marketplace

`bid_marketplace.rs`: a bid book of an exclusive task tracks its best bid under the book's
matching policy, so that acceptance looks at one bid only. The book keeps the best bid's address
and the four terms that rank it; every instruction that adds, changes or removes a bid keeps that
record up to date, or clears it and opens a grace period in which the others may present
themselves.
-/

namespace AgencCoordination

open Foundations

/-! ## Configuration -/

def maxConfidenceBps : ℕ := 10000
def maxActiveBidsPerTask : ℕ := 20
def bidRepromotionGraceSecs : ℤ := 300

/-- `validate_bid_marketplace_config_values`. -/
def validateBidMarketplaceConfigValues (m : BidMarketplaceConfig) : Result Unit :=
  require ((1 ≤ m.minBidBondLamports ∧ m.minBidBondLamports ≤ 1000000000) ∧
    (0 ≤ m.bidCreationCooldownSecs ∧ m.bidCreationCooldownSecs ≤ window24h) ∧
    (1 ≤ m.maxBidsPer24h ∧ m.maxBidsPer24h ≤ 1000) ∧
    (1 ≤ m.maxActiveBidsPerTask ∧ m.maxActiveBidsPerTask ≤ maxActiveBidsPerTask) ∧
    (1 ≤ m.maxBidLifetimeSecs ∧ m.maxBidLifetimeSecs ≤ 7 * window24h) ∧
    m.acceptedNoShowSlashBps ≤ maxConfidenceBps) .InvalidBidMarketplaceConfig

/-- `initialize_bid_marketplace`. -/
def initializeBidMarketplace (w : World) (signers : List Pubkey) (m : BidMarketplaceConfig) :
    Result World := do
  require (w.bidMarketplace = none) .InvalidInput
  checkVersionRange w.config
  requireMultisigThreshold w.config signers
  validateBidMarketplaceConfigValues m
  .ok { w with bidMarketplace := some m }

/-- `update_bid_marketplace_config`. -/
def updateBidMarketplaceConfig (w : World) (signers : List Pubkey) (m : BidMarketplaceConfig) :
    Result World := do
  require (w.bidMarketplace.isSome = true) .AccountNotInitialized
  checkVersionCompatible w.config
  requireMultisigThreshold w.config signers
  validateBidMarketplaceConfigValues m
  .ok { w with bidMarketplace := some m }

/-- `require_bid_task`. -/
def requireBidTask (task : Task) : Result Unit := do
  require (task.taskType = .BidExclusive) .TaskNotBidExclusive
  require (task.maxWorkers = 1) .BidExclusiveRequiresSingleWorker
  require (task.rewardMint = none) .BidTaskSolOnly

/-- The sum of the four weights, which must be a whole. -/
def checkWeightsTotal (weights : WeightedScoreWeights) : Result Unit := do
  let total ← addU16 weights.priceWeightBps weights.etaWeightBps
  let total ← addU16 total weights.confidenceWeightBps
  let total ← addU16 total weights.reliabilityWeightBps
  require (total = maxConfidenceBps) .InvalidWeightedScoreWeights

/-- `parse_matching_policy`. -/
def parseMatchingPolicy (policy : ℕ) (weights : WeightedScoreWeights) :
    Result (MatchingPolicy × WeightedScoreWeights) :=
  match policy with
  | 0 => .ok (.BestPrice, {})
  | 1 => .ok (.BestEta, {})
  | 2 => do
      checkWeightsTotal weights
      .ok (.WeightedScore, weights)
  | _ => .error .InvalidMatchingPolicy

/-- `initialize_bid_book`: it also locks the job specification, and freezes the window estimates
are measured against. -/
def initializeBidBook (c : TaskContext) (signer : Pubkey) (policy : ℕ)
    (weights : WeightedScoreWeights) : Result TaskContext := do
  require (c.task.creator = signer) .UnauthorizedTaskAction
  require (c.accounts.bidBook = none) .AccountAlreadyInUse
  let spec ← demand c.accounts.jobSpec .AccountNotInitialized
  checkVersionCompatible c.config
  requireBidTask c.task
  requireTaskTypeEnabled c.config c.task.taskType
  require (c.task.status = .Open) .TaskNotOpen
  require (c.task.currentWorkers = 0) .TaskFullyClaimed
  require (spec.jobSpecHash ≠ 0) .InvalidTaskJobSpecHash
  let (policy, weights) ← parseMatchingPolicy policy weights
  let window := c.task.deadline - c.sys.now
  require (0 < window ∧ window < 2 ^ 32) .BidBookScoreWindowInvalid
  .ok { c with accounts := { c.accounts with
    jobSpec := some { spec with bidLocked := true }
    bidBook := some {
      policy := policy
      weights := weights
      updatedAt := c.sys.now
      scoreWindowSecs := window.toNat } } }

/-! ## Ranking -/

/-- `BidCandidate`. -/
structure BidCandidate where
  key : Pubkey
  requestedRewardLamports : ℕ
  etaSeconds : ℕ
  confidenceBps : ℕ
  reputationSnapshotBps : ℕ
  weightedScore : ℕ
  deriving DecidableEq

/-- `validate_stored_matching_policy`. -/
def validateStoredMatchingPolicy (book : TaskBidBook) : Result Unit :=
  match book.policy with
  | .BestPrice | .BestEta => require (book.weights = {}) .InvalidWeightedScoreWeights
  | .WeightedScore => checkWeightsTotal book.weights

/-- `weighted_terms_score`: no score when the estimate is longer than the book's window. The
products fit the 128 bits of the source. -/
def weightedTermsScore (requestedRewardLamports etaSeconds confidenceBps reputationSnapshotBps
    taskBudget windowSecs : ℕ) (weights : WeightedScoreWeights) : Result (Option ℕ) := do
  require (0 < taskBudget ∧ 0 < windowSecs) .BidBookScoreWindowInvalid
  let saved ← subU taskBudget requestedRewardLamports
  let priceScore := saved * maxConfidenceBps / taskBudget
  if windowSecs < etaSeconds then .ok none
  else
    let etaScore := (windowSecs - etaSeconds) * maxConfidenceBps / windowSecs
    .ok (some (priceScore * weights.priceWeightBps + etaScore * weights.etaWeightBps +
      confidenceBps * weights.confidenceWeightBps +
      reputationSnapshotBps * weights.reliabilityWeightBps))

/-- `bid_candidate`. -/
def bidCandidate (key : Pubkey) (bid : TaskBid) (task : Task) (now : ℤ) (windowSecs : ℕ)
    (weights : WeightedScoreWeights) : Result (Option BidCandidate) := do
  require (0 < bid.requestedRewardLamports ∧ bid.requestedRewardLamports ≤ task.rewardAmount)
    .InvalidReward
  require (0 < bid.etaSeconds) .InvalidBidEta
  require (bid.confidenceBps ≤ maxConfidenceBps ∧ bid.reputationSnapshotBps ≤ maxConfidenceBps)
    .InvalidBidConfidence
  require (0 < bid.createdAt ∧ bid.createdAt ≤ bid.updatedAt ∧ bid.createdAt < bid.expiresAt ∧
    0 < bid.bondLamports ∧ bid.acceptedNoShowSlashBps ≤ maxConfidenceBps) .InvalidInput
  let completionAt ← addI64 now bid.etaSeconds
  if bid.state ≠ .BoundActive ∨ bid.expiresAt ≤ now ∨ task.deadline ≤ now ∨
      task.deadline < completionAt then .ok none
  else do
    let score ← weightedTermsScore bid.requestedRewardLamports bid.etaSeconds bid.confidenceBps
      bid.reputationSnapshotBps task.rewardAmount windowSecs weights
    .ok (score.map fun weightedScore => {
      key := key
      requestedRewardLamports := bid.requestedRewardLamports
      etaSeconds := bid.etaSeconds
      confidenceBps := bid.confidenceBps
      reputationSnapshotBps := bid.reputationSnapshotBps
      weightedScore := weightedScore })

/-- `cached_best_candidate`. -/
def cachedBestCandidate (book : TaskBidBook) (task : Task) : Result (Option BidCandidate) :=
  if book.bestBid = 0 then .ok none
  else do
    let score ← weightedTermsScore book.bestRewardLamports book.bestEtaSeconds
      book.bestConfidenceBps book.bestReputationBps task.rewardAmount book.scoreWindowSecs
      book.weights
    let weightedScore ← demand score .BidBookCacheMismatch
    .ok (some {
      key := book.bestBid
      requestedRewardLamports := book.bestRewardLamports
      etaSeconds := book.bestEtaSeconds
      confidenceBps := book.bestConfidenceBps
      reputationSnapshotBps := book.bestReputationBps
      weightedScore := weightedScore })

/-- `install_best`. -/
def installBest (book : TaskBidBook) (candidate : BidCandidate) : TaskBidBook :=
  { book with
    bestBid := candidate.key
    bestRewardLamports := candidate.requestedRewardLamports
    bestEtaSeconds := candidate.etaSeconds
    bestConfidenceBps := candidate.confidenceBps
    bestReputationBps := candidate.reputationSnapshotBps }

/-- `clear_best`. -/
def clearBest (book : TaskBidBook) (now : ℤ) : TaskBidBook :=
  { book with
    bestBid := 0
    bestRewardLamports := 0
    bestEtaSeconds := 0
    bestConfidenceBps := 0
    bestReputationBps := 0
    winnerStaleSince := now }

/-- `lower_price_tie_break`. -/
def lowerPriceTieBreak (candidate incumbent : BidCandidate) : Bool :=
  decide (candidate.requestedRewardLamports < incumbent.requestedRewardLamports) ||
    (decide (candidate.requestedRewardLamports = incumbent.requestedRewardLamports) &&
      (decide (candidate.etaSeconds < incumbent.etaSeconds) ||
        (decide (candidate.etaSeconds = incumbent.etaSeconds) &&
          (decide (incumbent.confidenceBps < candidate.confidenceBps) ||
            (decide (candidate.confidenceBps = incumbent.confidenceBps) &&
              (decide (incumbent.reputationSnapshotBps < candidate.reputationSnapshotBps) ||
                (decide (candidate.reputationSnapshotBps = incumbent.reputationSnapshotBps) &&
                  decide (candidate.key < incumbent.key))))))))

/-- `lower_eta_tie_break`. -/
def lowerEtaTieBreak (candidate incumbent : BidCandidate) : Bool :=
  decide (candidate.etaSeconds < incumbent.etaSeconds) ||
    (decide (candidate.etaSeconds = incumbent.etaSeconds) &&
      (decide (candidate.requestedRewardLamports < incumbent.requestedRewardLamports) ||
        (decide (candidate.requestedRewardLamports = incumbent.requestedRewardLamports) &&
          (decide (incumbent.confidenceBps < candidate.confidenceBps) ||
            (decide (candidate.confidenceBps = incumbent.confidenceBps) &&
              (decide (incumbent.reputationSnapshotBps < candidate.reputationSnapshotBps) ||
                (decide (candidate.reputationSnapshotBps = incumbent.reputationSnapshotBps) &&
                  decide (candidate.key < incumbent.key))))))))

/-- `candidate_is_better`. -/
def candidateIsBetter (candidate incumbent : BidCandidate) : MatchingPolicy → Bool
  | .BestPrice => lowerPriceTieBreak candidate incumbent
  | .BestEta => lowerEtaTieBreak candidate incumbent
  | .WeightedScore =>
      decide (incumbent.weightedScore < candidate.weightedScore) ||
        (decide (candidate.weightedScore = incumbent.weightedScore) &&
          lowerPriceTieBreak candidate incumbent)

/-- `maybe_install_better`: the book, and whether the candidate was installed. -/
def maybeInstallBetter (book : TaskBidBook) (task : Task) (candidate : BidCandidate) :
    Result (TaskBidBook × Bool) := do
  let incumbent ← cachedBestCandidate book task
  let installed := match incumbent with
    | none => true
    | some incumbent => candidateIsBetter candidate incumbent book.policy
  .ok (if installed then installBest book candidate else book, installed)

/-- `bidder_is_currently_eligible`, for the bidder the bid is kept under. -/
def bidderIsCurrentlyEligible (bidder : AgentRegistration) (bid : TaskBid) (task : Task)
    (minAgentStake : ℕ) : Bool :=
  decide (bidder.authority = bid.bidderAuthority) &&
    decide (bidder.authority ≠ task.creator) &&
    decide (bidder.status = .Active) &&
    hasCapabilities bidder task &&
    decide (task.minReputation = 0 ∨ task.minReputation ≤ bidder.reputation) &&
    hasRequiredAssignmentStake bidder.stake minAgentStake &&
    decide (bidder.activeTasks < maxActiveTasks)

/-- The grace period of `validate_cached_winner_selection`: the others had time to present
themselves since the last winner was removed. -/
def checkRepromotionGrace (book : TaskBidBook) (now : ℤ) : Result Unit :=
  if 0 < book.winnerStaleSince then do
    let graceOver ← addI64 book.winnerStaleSince bidRepromotionGraceSecs
    require (graceOver ≤ now) .BidRepromotionGraceActive
  else .ok ()

/-- `validate_cached_winner_selection`. -/
def validateCachedWinnerSelection (task : Task) (book : TaskBidBook) (bidKey : Pubkey)
    (bid : TaskBid) (now : ℤ) : Result Unit := do
  validateStoredMatchingPolicy book
  require (book.bestBid ≠ 0 ∧ book.bestBid = bidKey) .BidNotBookBest
  require (book.bestRewardLamports = bid.requestedRewardLamports ∧
    book.bestEtaSeconds = bid.etaSeconds ∧ book.bestConfidenceBps = bid.confidenceBps ∧
    book.bestReputationBps = bid.reputationSnapshotBps) .BidBookCacheMismatch
  checkRepromotionGrace book now
  let candidate ← bidCandidate bidKey bid task now book.scoreWindowSecs book.weights
  require (candidate.isSome = true) .BidDoesNotSatisfyMatchingPolicy

/-! ## Bids -/

/-- The terms of a bid a bidder can choose and later change. -/
structure BidTerms where
  requestedRewardLamports : ℕ
  etaSeconds : ℕ
  confidenceBps : ℕ
  qualityGuaranteeHash : Hash := 0
  metadataHash : Hash := 0
  expiresAt : ℤ
  expectedJobSpecHash : Hash
  expectedJobSpecUpdatedAt : ℤ
  deriving DecidableEq

/-- The checks `create_bid` and `update_bid` make of the bid's terms. -/
def validateBidTerms (c : TaskContext) (m : BidMarketplaceConfig) (t : BidTerms) :
    Result Unit := do
  let now := c.sys.now
  require (0 < t.requestedRewardLamports) .InvalidReward
  require (t.requestedRewardLamports ≤ c.task.rewardAmount) .BidPriceExceedsTaskBudget
  require (0 < t.etaSeconds) .InvalidBidEta
  require (t.confidenceBps ≤ maxConfidenceBps) .InvalidBidConfidence
  let promisedCompletionAt ← addI64 now t.etaSeconds
  require (now < c.task.deadline ∧ promisedCompletionAt ≤ c.task.deadline) .InvalidBidEta
  require (now < t.expiresAt) .InvalidBidExpiry
  require (0 < c.task.deadline → t.expiresAt ≤ c.task.deadline) .InvalidBidExpiry
  require (t.expiresAt - now ≤ m.maxBidLifetimeSecs) .InvalidBidExpiry

/-- `validate_bound_bid_job_spec`. -/
def validateBoundBidJobSpec (c : TaskContext) (t : BidTerms) : Result Unit := do
  let spec ← demand c.accounts.jobSpec .AccountNotInitialized
  require (spec.jobSpecHash ≠ 0) .TaskJobSpecRequired
  require (spec.bidLocked = true) .BidJobSpecBindingRequired
  require (spec.jobSpecHash = t.expectedJobSpecHash ∧
    spec.updatedAt = t.expectedJobSpecUpdatedAt) .BidJobSpecMismatch

/-- `refresh_bid_window`. -/
def refreshBidWindow (state : BidderMarketState) (now : ℤ) : BidderMarketState :=
  if state.bidWindowStartedAt = 0 ∨ window24h ≤ now - state.bidWindowStartedAt then
    { state with bidWindowStartedAt := now, bidsCreatedInWindow := 0 }
  else state

namespace TaskContext

/-- The address of the bid of the context's worker. -/
def bidKey (c : TaskContext) : Pubkey := c.sys.bidAddress c.key c.workerKey

/-- The candidate the bid of the context's worker makes now. -/
def candidate (c : TaskContext) (book : TaskBidBook) (bid : TaskBid) :
    Result (Option BidCandidate) :=
  bidCandidate c.bidKey bid c.task c.sys.now book.scoreWindowSecs book.weights

end TaskContext

/-- Let a bid that makes a candidate take the lead, if it is better. -/
def trackCandidate (book : TaskBidBook) (task : Task) (candidate : Option BidCandidate) :
    Result TaskBidBook :=
  match candidate with
  | none => .ok book
  | some candidate => do
      let (book, _) ← maybeInstallBetter book task candidate
      .ok book

/-- `create_bid`. -/
def createBid (c : TaskContext) (marketplace : Option BidMarketplaceConfig) (signer : Pubkey)
    (t : BidTerms) (prefunded : ℕ) : Result TaskContext := do
  let now := c.sys.now
  let bidder := c.worker.data
  require (bidder.authority = signer) .UnauthorizedAgent
  let m ← demand marketplace .AccountNotInitialized
  let book ← demand c.accounts.bidBook .AccountNotInitialized
  require (c.accounts.bids.lookup c.workerKey = none) .AccountAlreadyInUse
  checkVersionCompatible c.config
  validateBidMarketplaceConfigValues m
  requireBidTask c.task
  requireTaskTypeEnabled c.config c.task.taskType
  require (signer ≠ c.task.creator) .SelfTaskNotAllowed
  require (c.task.status = .Open) .TaskNotOpen
  require (book.state = .Open) .BidBookNotOpen
  require (bidder.status = .Active) .AgentNotActive
  require (bidder.activeTasks < maxActiveTasks) .MaxActiveTasksReached
  require (hasRequiredAssignmentStake bidder.stake c.config.minAgentStake = true)
    .InsufficientStake
  require (hasCapabilities bidder c.task = true) .InsufficientCapabilities
  require (0 < c.task.minReputation → c.task.minReputation ≤ bidder.reputation)
    .InsufficientReputation
  validateBidTerms c m t
  require (book.activeBids < m.maxActiveBidsPerTask ∧ book.activeBids < maxActiveBidsPerTask)
    .BidBookCapacityReached
  validateBoundBidJobSpec c t
  let state := refreshBidWindow (c.bidder.getD {}) now
  require (0 < state.lastBidCreatedAt → m.bidCreationCooldownSecs ≤ now - state.lastBidCreatedAt)
    .CooldownNotElapsed
  require (state.bidsCreatedInWindow < m.maxBidsPer24h) .RateLimitExceeded
  let bid : TaskBid :=
    { bidderAuthority := signer
      requestedRewardLamports := t.requestedRewardLamports
      etaSeconds := t.etaSeconds
      confidenceBps := t.confidenceBps
      reputationSnapshotBps := bidder.reputation
      qualityGuaranteeHash := t.qualityGuaranteeHash
      metadataHash := t.metadataHash
      expiresAt := t.expiresAt
      createdAt := now
      updatedAt := now
      state := .BoundActive
      bondLamports := m.minBidBondLamports
      acceptedNoShowSlashBps := m.acceptedNoShowSlashBps }
  let inWindow ← addU16 state.bidsCreatedInWindow 1
  let active ← addU16 state.activeBidCount 1
  let created ← addU64 state.totalBidsCreated 1
  let version ← addU64 book.version 1
  let totalBids ← addU64 book.totalBids 1
  let activeBids ← addU16 book.activeBids 1
  let candidate ← c.candidate book bid
  let book ← trackCandidate { book with
    version := version, totalBids := totalBids, activeBids := activeBids, updatedAt := now }
    c.task candidate
  .ok { c with
    accounts := { c.accounts with
      bids := c.accounts.bids.insert c.workerKey
        ⟨initBalance c.sys.rent taskBidSize prefunded + m.minBidBondLamports, bid⟩
      bidBook := some book }
    bidder := some { state with
      lastBidCreatedAt := now
      bidsCreatedInWindow := inWindow
      activeBidCount := active
      totalBidsCreated := created } }

/-- The incumbent `update_bid` compares a leading bid with. -/
def incumbentOf (book : TaskBidBook) (task : Task) (bidKey : Pubkey) :
    Result (Option BidCandidate) :=
  if book.bestBid = bidKey then cachedBestCandidate book task else .ok none

/-- The book after an updated bid: the leader may not get worse, the others may take the lead. -/
def trackUpdate (book : TaskBidBook) (task : Task) (bidKey : Pubkey)
    (incumbent candidate : Option BidCandidate) : Result TaskBidBook :=
  if book.bestBid = bidKey then do
    let incumbent ← demand incumbent .BidBookCacheMismatch
    let refreshed ← demand candidate .BidLeaderRetreat
    require (candidateIsBetter incumbent refreshed book.policy = false) .BidLeaderRetreat
    .ok (installBest book refreshed)
  else trackCandidate book task candidate

/-- `update_bid`. -/
def updateBid (c : TaskContext) (marketplace : Option BidMarketplaceConfig) (signer : Pubkey)
    (t : BidTerms) : Result TaskContext := do
  let now := c.sys.now
  let bidder := c.worker.data
  require (bidder.authority = signer) .UnauthorizedAgent
  let m ← demand marketplace .AccountNotInitialized
  let book ← demand c.accounts.bidBook .AccountNotInitialized
  let stored ← demand (c.accounts.bids.lookup c.workerKey) .AccountNotInitialized
  checkVersionCompatible c.config
  validateBidMarketplaceConfigValues m
  requireBidTask c.task
  requireTaskTypeEnabled c.config c.task.taskType
  require (stored.data.state.isOpen = true) .BidNotActive
  require (book.state = .Open) .BidBookNotOpen
  require (c.task.status = .Open) .TaskNotOpen
  require (hasRequiredAssignmentStake bidder.stake c.config.minAgentStake = true)
    .InsufficientStake
  require (bidderIsCurrentlyEligible bidder stored.data c.task c.config.minAgentStake = true)
    .BidDoesNotSatisfyMatchingPolicy
  validateBidTerms c m t
  validateBoundBidJobSpec c t
  let incumbent ← incumbentOf book c.task c.bidKey
  let bid := { stored.data with
    requestedRewardLamports := t.requestedRewardLamports
    etaSeconds := t.etaSeconds
    confidenceBps := t.confidenceBps
    reputationSnapshotBps := bidder.reputation
    qualityGuaranteeHash := t.qualityGuaranteeHash
    metadataHash := t.metadataHash
    expiresAt := t.expiresAt
    updatedAt := now
    state := .BoundActive }
  let version ← addU64 book.version 1
  let candidate ← c.candidate book bid
  let book ← trackUpdate { book with version := version, updatedAt := now } c.task c.bidKey
    incumbent candidate
  .ok { c with accounts := { c.accounts with
    bids := c.accounts.bids.insert c.workerKey { stored with data := bid }
    bidBook := some book } }

/-- Close a bid to its bidder's wallet and take it off both counts; without its leader the book
has none. -/
def removeBid (c : TaskContext) (book : TaskBidBook) (bid : Account TaskBid)
    (recipient : Pubkey) : Result TaskContext := do
  let activeBids ← subU book.activeBids 1
  let version ← addU64 book.version 1
  let book := { book with activeBids := activeBids, version := version, updatedAt := c.sys.now }
  let bidder ← demand c.bidder .AccountNotInitialized
  let bidder ← decrementBidderActiveBidCount bidder
  .ok ({ c with
    accounts := { c.accounts with
      bidBook := some (if book.bestBid = c.bidKey then clearBest book c.sys.now else book)
      bids := c.accounts.bids.erase c.workerKey }
    bidder := some bidder }.pay
    [⟨.bid c.key c.workerKey, recipient, .bondRefund, bid.lamports⟩])

/-- `cancel_bid`. -/
def cancelBid (c : TaskContext) (signer : Pubkey) : Result TaskContext := do
  let book ← demand c.accounts.bidBook .AccountNotInitialized
  let bid ← demand (c.accounts.bids.lookup c.workerKey) .AccountNotInitialized
  require (bid.data.bidderAuthority = signer) .UnauthorizedAgent
  requireBidTask c.task
  require (bid.data.state.isOpen = true) .BidNotActive
  require (book.state = .Open ∨ book.state = .Accepted) .BidBookNotOpen
  require (book.acceptedBid ≠ some c.workerKey) .BidAlreadyAccepted
  removeBid c book bid bid.data.bidderAuthority

/-- `expire_bid`: anybody, once the bid has expired or its book is closed. -/
def expireBid (c : TaskContext) : Result TaskContext := do
  let book ← demand c.accounts.bidBook .AccountNotInitialized
  let bid ← demand (c.accounts.bids.lookup c.workerKey) .AccountNotInitialized
  checkVersionCompatibleForExit c.config
  requireBidTask c.task
  require (bid.data.state.isOpen = true) .BidNotActive
  require (bid.data.expiresAt < c.sys.now ∨ book.state = .Closed) .BidNotExpired
  removeBid c book bid bid.data.bidderAuthority

/-- `promote_bid`: anybody may present a bid that beats the tracked one. -/
def promoteBid (c : TaskContext) : Result TaskContext := do
  let book ← demand c.accounts.bidBook .AccountNotInitialized
  let bid ← demand (c.accounts.bids.lookup c.workerKey) .AccountNotInitialized
  checkVersionCompatible c.config
  requireBidTask c.task
  require (c.task.status = .Open) .TaskNotOpen
  require (book.state = .Open) .BidBookNotOpen
  require (bid.data.state.isOpen = true) .BidNotActive
  require (bidderIsCurrentlyEligible c.worker.data bid.data c.task c.config.minAgentStake = true)
    .BidDoesNotSatisfyMatchingPolicy
  require (bid.data.bondLamports ≤ bid.lamports) .BidBookEnumerationMismatch
  let candidate ← c.candidate book bid.data
  let candidate ← demand candidate .BidDoesNotSatisfyMatchingPolicy
  let (book, installed) ← maybeInstallBetter book c.task candidate
  require (installed = true) .BidNotBetterThanTrackedBest
  let version ← addU64 book.version 1
  .ok { c with accounts := { c.accounts with
    bidBook := some { book with version := version, updatedAt := c.sys.now } } }

/-- Whether a bid still makes a candidate; an error counts as no. -/
def candidateAlive (c : TaskContext) (book : TaskBidBook) (bid : TaskBid) : Bool :=
  bid.state.isOpen &&
    match c.candidate book bid with
    | .ok candidate => candidate.isSome
    | .error _ => false

/-- `demote_ineligible_best`: anybody may remove a tracked bid nobody could accept. -/
def demoteIneligibleBest (c : TaskContext) : Result TaskContext := do
  let book ← demand c.accounts.bidBook .AccountNotInitialized
  let bid ← demand (c.accounts.bids.lookup c.workerKey) .AccountNotInitialized
  checkVersionCompatibleForExit c.config
  requireBidTask c.task
  require (book.state = .Open) .BidBookNotOpen
  require (book.bestBid = c.bidKey) .BidNotBookBest
  require (¬(candidateAlive c book bid.data = true ∧ bid.data.bondLamports ≤ bid.lamports ∧
    bidderIsCurrentlyEligible c.worker.data bid.data c.task c.config.minAgentStake = true))
    .BidWinnerStillEligible
  removeBid c book bid c.worker.data.authority

/-! ## Acceptance -/

/-- What `calculate_bid_terms_hash` digests; the digest is represented by its content. -/
structure BidTermsHash where
  task : Pubkey
  bid : Pubkey
  bidder : Pubkey
  bidderAuthority : Pubkey
  requestedRewardLamports : ℕ
  etaSeconds : ℕ
  confidenceBps : ℕ
  reputationSnapshotBps : ℕ
  qualityGuaranteeHash : Hash
  metadataHash : Hash
  expiresAt : ℤ
  createdAt : ℤ
  updatedAt : ℤ
  bondLamports : ℕ
  acceptedNoShowSlashBps : ℕ
  jobSpecHash : Hash
  jobSpecUpdatedAt : ℤ
  deriving DecidableEq

/-- `calculate_bid_terms_hash`. -/
def calculateBidTermsHash (c : TaskContext) (bid : TaskBid) (spec : TaskJobSpec) : BidTermsHash :=
  { task := c.key
    bid := c.bidKey
    bidder := c.workerKey
    bidderAuthority := bid.bidderAuthority
    requestedRewardLamports := bid.requestedRewardLamports
    etaSeconds := bid.etaSeconds
    confidenceBps := bid.confidenceBps
    reputationSnapshotBps := bid.reputationSnapshotBps
    qualityGuaranteeHash := bid.qualityGuaranteeHash
    metadataHash := bid.metadataHash
    expiresAt := bid.expiresAt
    createdAt := bid.createdAt
    updatedAt := bid.updatedAt
    bondLamports := bid.bondLamports
    acceptedNoShowSlashBps := bid.acceptedNoShowSlashBps
    jobSpecHash := spec.jobSpecHash
    jobSpecUpdatedAt := spec.updatedAt }

/-- `accept_bid`: the creator gives the only slot to the tracked bid, at terms it names. -/
def acceptBid (c : TaskContext) (signer : Pubkey) (expectedBidTermsHash : BidTermsHash)
    (prefunded : ℕ) : Result TaskContext := do
  let now := c.sys.now
  let bidder := c.worker.data
  require (c.task.creator = signer) .UnauthorizedTaskAction
  require (c.accounts.claims.lookup c.workerKey = none) .AccountAlreadyInUse
  let book ← demand c.accounts.bidBook .AccountNotInitialized
  let bid ← demand (c.accounts.bids.lookup c.workerKey) .AccountNotInitialized
  let state ← demand c.bidder .AccountNotInitialized
  let spec ← demand c.accounts.jobSpec .AccountNotInitialized
  require (spec.jobSpecHash ≠ 0) .InvalidTaskJobSpecHash
  validateTaskDependency c
  checkVersionCompatible c.config
  requireBidTask c.task
  requireTaskTypeEnabled c.config c.task.taskType
  require (bid.data.bidderAuthority ≠ c.task.creator) .SelfTaskNotAllowed
  require (c.task.status = .Open) .TaskNotOpen
  require (c.task.currentWorkers = 0) .TaskFullyClaimed
  require (book.state = .Open) .BidBookNotOpen
  require (bid.data.state.isOpen = true) .BidNotActive
  require (spec.bidLocked = true ∧ bid.data.state = .BoundActive) .BidJobSpecBindingRequired
  require (calculateBidTermsHash c bid.data spec = expectedBidTermsHash) .StaleBidAcceptance
  require (now < bid.data.expiresAt) .TaskExpired
  require (bid.data.bondLamports ≤ bid.lamports) .BidBookEnumerationMismatch
  require (bid.data.bidderAuthority = bidder.authority) .BidBookEnumerationMismatch
  require (bidder.status = .Active) .AgentNotActive
  require (hasRequiredAssignmentStake bidder.stake c.config.minAgentStake = true)
    .InsufficientStake
  require (hasCapabilities bidder c.task = true) .InsufficientCapabilities
  require (0 < c.task.minReputation → c.task.minReputation ≤ bidder.reputation)
    .InsufficientReputation
  require (bidder.activeTasks < maxActiveTasks) .MaxActiveTasksReached
  require (1 ≤ book.activeBids) .BidBookEnumerationMismatch
  validateCachedWinnerSelection c.task book c.bidKey bid.data now
  let expiresAt ← claimExpiry c.task c.config now
  let task ← c.task.incrementClaimGeneration
  let version ← addU64 book.version 1
  let active ← addU16 bidder.activeTasks 1
  let accepted ← addU64 state.totalBidsAccepted 1
  .ok { c with
    accounts := { c.accounts with
      task := { task with currentWorkers := 1, status := .InProgress }
      claims := c.accounts.claims.insert c.workerKey
        ⟨initBalance c.sys.rent taskClaimSize prefunded, newClaim now expiresAt⟩
      bids := c.accounts.bids.insert c.workerKey
        { bid with data := { bid.data with state := .Accepted, updatedAt := now } }
      bidBook := some { book with
        state := .Accepted
        acceptedBid := some c.workerKey
        version := version
        updatedAt := now
        winnerStaleSince := 0 } }
    worker := { c.worker with data := { bidder with activeTasks := active, lastActive := now } }
    bidder := some { state with totalBidsAccepted := accepted } }

end AgencCoordination
