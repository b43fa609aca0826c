import AgencCoordination.Effects.Claiming
import AgencCoordination.Program.Bidding

/-!
# What the bid instructions do

* **`BidMove`** — the four ways a bid instruction changes a book, its bids and the bidder's
  record: a bid is created, updated, promoted or removed.
* **`AcceptsBid`** — the fifth, the acceptance of the tracked bid.
* **`TouchesBids`** — bids come and go without moving anything else.
-/

namespace AgencCoordination

open Foundations

/-! ## Books -/

theorem requireBidTask_spec {task : Task} {u : Unit} (h : requireBidTask task = .ok u) :
    task.taskType = .BidExclusive ∧ task.maxWorkers = 1 ∧ task.rewardMint = none := by
  simpa only [requireBidTask, require_bind_eq_ok, require_eq_ok] using h

/-- A book as `initialize_bid_book` opens it. -/
structure OpenedBook (book : TaskBidBook) : Prop where
  state : book.state = .Open
  best : book.bestBid = 0
  fresh : book.winnerStaleSince = 0
  active : book.activeBids = 0

theorem initializeBidBook_spec {c c' : TaskContext} {signer : Pubkey} {policy : ℕ}
    {weights : WeightedScoreWeights} (h : initializeBidBook c signer policy weights = .ok c') :
    ∃ jobSpec book, c.accounts.task.status = .Open ∧
      c.accounts.task.taskType = .BidExclusive ∧ c.accounts.bidBook = none ∧ OpenedBook book ∧
      c' = { c with accounts := { c.accounts with
        jobSpec := jobSpec, bidBook := some book } } := by
  simp only [initializeBidBook, bind_eq_ok, require_eq_ok, Except.ok.injEq, Prod.exists,
    TaskContext.task_eq] at h
  obtain ⟨_, -, _, hnone, _, -, _, -, _, hbid, _, -, _, hstatus, _, -, _, -, h⟩ := h
  obtain ⟨_, _, -, _, -, rfl⟩ := h
  exact ⟨_, _, hstatus, (requireBidTask_spec hbid).1, hnone, ⟨rfl, rfl, rfl, rfl⟩, rfl⟩

/-! ## Bids -/

/-- A bid instruction changes the bid book, the bids and the bidder's record, and pays at most a
bond back. -/
def TouchesBids (c c' : TaskContext) : Prop :=
  ∃ book' bids' bidder' paid' ts,
    c.accounts.task.taskType = .BidExclusive ∧
    (∀ t ∈ ts, t.source = .bid c.key c.workerKey ∧ t.purpose = .bondRefund) ∧
    paid' = c.paid ++ ts ∧
    c' = { c with
      accounts := { c.accounts with bidBook := book', bids := bids' }
      bidder := bidder'
      paid := paid' }

/-- The instructions that create a bid, change its terms, present it again, or remove it. -/
inductive BidKind
  | created
  | updated
  | promoted
  | removed
  deriving DecidableEq

/-- The bid has a score in its book: its estimate fits the frozen window. -/
def Scores (book : TaskBidBook) (rewardAmount : ℕ) (bid : TaskBid) (score : ℕ) : Prop :=
  weightedTermsScore bid.requestedRewardLamports bid.etaSeconds bid.confidenceBps
    bid.reputationSnapshotBps rewardAmount book.scoreWindowSecs book.weights = .ok (some score)

/-- How a bid instruction other than the acceptance changes the book, the bids and the bidder's
record, and what it pays. -/
inductive BidMove (c : TaskContext) : BidKind → Option TaskBidBook →
    Ledger Pubkey (Account TaskBid) → Option BidderMarketState → List Transfer → Prop
  | created {book book' : TaskBidBook} {version totalBids : ℕ} {bid : Account TaskBid}
      {candidate : Option BidCandidate} {state' : BidderMarketState}
      (opened : c.accounts.bidBook = some book) (isOpen : book.state = .Open)
      (fresh : c.accounts.bids.lookup c.workerKey = none)
      (bound : bid.data.state = .BoundActive)
      (authority : bid.data.bidderAuthority = c.worker.data.authority)
      (backed : bid.data.bondLamports ≤ bid.lamports)
      (capped : bid.data.acceptedNoShowSlashBps ≤ maxConfidenceBps)
      (makes : c.candidate book bid.data = .ok candidate)
      (unscored : candidate = none → ∀ score, ¬Scores book c.accounts.task.rewardAmount bid.data score)
      (tracked : trackCandidate { book with
        version := version
        totalBids := totalBids
        activeBids := book.activeBids + 1
        updatedAt := c.sys.now } c.accounts.task candidate = .ok book')
      (counted : state'.activeBidCount = (c.bidder.getD {}).activeBidCount + 1) :
      BidMove c .created (some book') (c.accounts.bids.insert c.workerKey bid) (some state') []
  | updated {book book' : TaskBidBook} {version : ℕ} {stored : Account TaskBid} {bid : TaskBid}
      {incumbent candidate : Option BidCandidate}
      (opened : c.accounts.bidBook = some book) (isOpen : book.state = .Open)
      (loaded : c.accounts.bids.lookup c.workerKey = some stored)
      (wasOpen : stored.data.state.isOpen = true) (bound : bid.state = .BoundActive)
      (authority : bid.bidderAuthority = stored.data.bidderAuthority)
      (bond : bid.bondLamports = stored.data.bondLamports)
      (slash : bid.acceptedNoShowSlashBps = stored.data.acceptedNoShowSlashBps)
      (held : incumbentOf book c.accounts.task c.bidKey = .ok incumbent)
      (makes : c.candidate book bid = .ok candidate)
      (unscored : candidate = none → ∀ score, ¬Scores book c.accounts.task.rewardAmount bid score)
      (tracked : trackUpdate { book with version := version, updatedAt := c.sys.now }
        c.accounts.task c.bidKey incumbent candidate = .ok book') :
      BidMove c .updated (some book')
        (c.accounts.bids.insert c.workerKey { stored with data := bid }) c.bidder []
  | promoted {book book' : TaskBidBook} {version : ℕ} {bid : Account TaskBid}
      {candidate : BidCandidate} (opened : c.accounts.bidBook = some book)
      (isOpen : book.state = .Open) (loaded : c.accounts.bids.lookup c.workerKey = some bid)
      (makes : c.candidate book bid.data = .ok (some candidate))
      (installed : maybeInstallBetter book c.accounts.task candidate = .ok (book', true)) :
      BidMove c .promoted (some { book' with version := version, updatedAt := c.sys.now })
        c.accounts.bids c.bidder []
  | removed {book : TaskBidBook} {version : ℕ} {bid : Account TaskBid} {recipient : Pubkey}
      {bidder : BidderMarketState} (opened : c.accounts.bidBook = some book)
      (loaded : c.accounts.bids.lookup c.workerKey = some bid)
      (free : bid.data.state.isOpen = true ∨ book.state = .Open)
      (owed : recipient = bid.data.bidderAuthority ∨ recipient = c.worker.data.authority)
      (record : c.bidder = some bidder) (listed : 1 ≤ book.activeBids)
      (counted : 1 ≤ bidder.activeBidCount) :
      BidMove c .removed
        (some (if book.bestBid = c.bidKey then clearBest { book with
            activeBids := book.activeBids - 1, version := version, updatedAt := c.sys.now } c.sys.now
          else { book with
            activeBids := book.activeBids - 1, version := version, updatedAt := c.sys.now }))
        (c.accounts.bids.erase c.workerKey)
        (some { bidder with activeBidCount := bidder.activeBidCount - 1 })
        [⟨.bid c.key c.workerKey, recipient, .bondRefund, bid.lamports⟩]

/-- What a bid instruction other than the acceptance does to its context. -/
def MovesBid (kind : BidKind) (c c' : TaskContext) : Prop :=
  c.accounts.task.taskType = .BidExclusive ∧ ∃ book' bids' bidder' ts,
    BidMove c kind book' bids' bidder' ts ∧
    c' = { c with
      accounts := { c.accounts with bidBook := book', bids := bids' }
      bidder := bidder'
      paid := c.paid ++ ts }

theorem BidMove.payments {c : TaskContext} {kind : BidKind} {book' : Option TaskBidBook}
    {bids' : Ledger Pubkey (Account TaskBid)} {bidder' : Option BidderMarketState}
    {ts : List Transfer} (h : BidMove c kind book' bids' bidder' ts) :
    ∀ t ∈ ts, t.source = .bid c.key c.workerKey ∧ t.purpose = .bondRefund := by
  cases h <;> simp

theorem MovesBid.touches {kind : BidKind} {c c' : TaskContext} (h : MovesBid kind c c') : TouchesBids c c' := by
  obtain ⟨htype, book', bids', bidder', ts, hmove, rfl⟩ := h
  exact ⟨book', bids', bidder', _, ts, htype, hmove.payments, rfl, rfl⟩

theorem validateBidMarketplaceConfigValues_spec {m : BidMarketplaceConfig} {u : Unit}
    (h : validateBidMarketplaceConfigValues m = .ok u) :
    m.acceptedNoShowSlashBps ≤ maxConfidenceBps := by
  simp only [validateBidMarketplaceConfigValues, require_eq_ok] at h
  exact h.2.2.2.2.2

/-- Terms a bid may be posted with now can be kept before the deadline. -/
theorem validateBidTerms_spec {c : TaskContext} {m : BidMarketplaceConfig} {t : BidTerms} {u : Unit}
    (h : validateBidTerms c m t = .ok u) :
    c.sys.now < t.expiresAt ∧ c.sys.now < c.accounts.task.deadline ∧
      c.sys.now + t.etaSeconds ≤ c.accounts.task.deadline := by
  simp only [validateBidTerms, bind_eq_ok, addI64_eq_ok, require_eq_ok, TaskContext.task_eq] at h
  obtain ⟨_, -, _, -, _, -, _, -, _, ⟨-, rfl⟩, _, ⟨hdeadline, hkept⟩, _, hexpiry, -⟩ := h
  exact ⟨hexpiry, hdeadline, hkept⟩

/-- A bound bid that is still alive and makes no candidate has no score. -/
theorem bidCandidate_none {key : Pubkey} {bid : TaskBid} {task : Task} {now : ℤ}
    {book : TaskBidBook}
    (h : bidCandidate key bid task now book.scoreWindowSecs book.weights = .ok none)
    (hbound : bid.state = .BoundActive) (hexpiry : now < bid.expiresAt) (hdeadline : now < task.deadline)
    (hkept : now + bid.etaSeconds ≤ task.deadline) (score : ℕ) :
    ¬Scores book task.rewardAmount bid score := by
  intro hscores
  simp only [bidCandidate, bind_eq_ok, addI64_eq_ok] at h
  obtain ⟨_, -, _, -, _, -, _, -, _, ⟨-, rfl⟩, h⟩ := h
  have halive : ¬(bid.state ≠ .BoundActive ∨ bid.expiresAt ≤ now ∨ task.deadline ≤ now ∨
      task.deadline < now + bid.etaSeconds) := by
    rintro (hstate | hexpired | hpassed | hlate)
    · exact hstate hbound
    · omega
    · omega
    · omega
  rw [if_neg halive] at h
  rw [Scores] at hscores
  simp only [hscores, bind_eq_ok, Except.ok.injEq] at h
  obtain ⟨_, rfl, hnone⟩ := h
  cases hnone

theorem refreshBidWindow_activeBidCount (state : BidderMarketState) (now : ℤ) :
    (refreshBidWindow state now).activeBidCount = state.activeBidCount := by
  unfold refreshBidWindow
  split <;> rfl

theorem createBid_spec {c c' : TaskContext} {marketplace : Option BidMarketplaceConfig}
    {signer : Pubkey} {terms : BidTerms} {prefunded : ℕ}
    (h : createBid c marketplace signer terms prefunded = .ok c') : MovesBid .created c c' := by
  simp only [createBid, bind_eq_ok, demand_eq_ok, require_eq_ok, addU16_eq_ok, addU64_eq_ok,
    Except.ok.injEq, TaskContext.task_eq] at h
  obtain ⟨_, hsigner, m, -, book, hbook, _, hfresh, _, -, _, hconfig, _, hbid, _, -, h⟩ := h
  obtain ⟨_, -, _, -, _, hopen, _, -, _, -, _, -, _, -, _, -, _, hterms, _, -, _, -, h⟩ := h
  obtain ⟨_, -, _, -, _, -, _, ⟨-, rfl⟩, _, -, version, -, totalBids, -, _, ⟨-, rfl⟩, h⟩ := h
  obtain ⟨candidate, hcandidate, book', htracked, rfl⟩ := h
  refine ⟨(requireBidTask_spec hbid).1, some book', c.accounts.bids.insert c.workerKey ⟨_, _⟩,
    some _, [], @BidMove.created c book book' version totalBids ⟨_, _⟩ candidate _ hbook hopen
      hfresh rfl hsigner.symm (Nat.le_add_left _ _) (validateBidMarketplaceConfigValues_spec hconfig)
      hcandidate ?_ htracked ?_, by rw [List.append_nil]⟩
  · intro hnone
    rw [hnone] at hcandidate
    obtain ⟨hexpiry, hdeadline, hkept⟩ := validateBidTerms_spec hterms
    exact bidCandidate_none hcandidate rfl hexpiry hdeadline hkept
  · exact congrArg (· + 1) (refreshBidWindow_activeBidCount _ _)

theorem updateBid_spec {c c' : TaskContext} {marketplace : Option BidMarketplaceConfig}
    {signer : Pubkey} {terms : BidTerms}
    (h : updateBid c marketplace signer terms = .ok c') : MovesBid .updated c c' := by
  simp only [updateBid, bind_eq_ok, demand_eq_ok, require_eq_ok, Except.ok.injEq,
    TaskContext.task_eq] at h
  obtain ⟨_, -, m, -, book, hbook, stored, hstored, _, -, _, -, _, hbid, _, -, h⟩ := h
  obtain ⟨_, hwasOpen, _, hopen, _, -, _, -, _, -, _, hterms, _, -, incumbent, hincumbent, h⟩ := h
  obtain ⟨version, -, candidate, hcandidate, book', htracked, rfl⟩ := h
  refine ⟨(requireBidTask_spec hbid).1, some book',
    c.accounts.bids.insert c.workerKey { stored with data := _ }, c.bidder, [],
    .updated hbook hopen hstored hwasOpen ?_ ?_ ?_ ?_ hincumbent hcandidate ?_ htracked,
    by rw [List.append_nil]⟩
  · rfl
  · rfl
  · rfl
  · rfl
  · intro hnone
    rw [hnone] at hcandidate
    obtain ⟨hexpiry, hdeadline, hkept⟩ := validateBidTerms_spec hterms
    exact bidCandidate_none hcandidate rfl hexpiry hdeadline hkept

theorem promoteBid_spec {c c' : TaskContext} (h : promoteBid c = .ok c') :
    MovesBid .promoted c c' := by
  simp only [promoteBid, bind_eq_ok, demand_eq_ok, require_eq_ok, Except.ok.injEq, Prod.exists,
    TaskContext.task_eq] at h
  obtain ⟨book, hbook, bid, hstored, _, -, _, hbid, _, -, _, hopen, _, -, _, -, _, -, h⟩ := h
  obtain ⟨_, hmakes, candidate, rfl, book', _, hinstalled, _, rfl, version, -, rfl⟩ := h
  exact ⟨(requireBidTask_spec hbid).1, some _, c.accounts.bids, c.bidder, [],
    .promoted hbook hopen hstored hmakes hinstalled, by rw [List.append_nil]⟩

theorem removeBid_spec {c c' : TaskContext} {book : TaskBidBook} {bid : Account TaskBid}
    {recipient : Pubkey} (h : removeBid c book bid recipient = .ok c')
    (htype : c.accounts.task.taskType = .BidExclusive) (hbook : c.accounts.bidBook = some book)
    (hbid : c.accounts.bids.lookup c.workerKey = some bid)
    (hfree : bid.data.state.isOpen = true ∨ book.state = .Open)
    (howed : recipient = bid.data.bidderAuthority ∨ recipient = c.worker.data.authority) :
    MovesBid .removed c c' := by
  simp only [removeBid, decrementBidderActiveBidCount, bind_eq_ok, demand_eq_ok, subU_eq_ok,
    Except.ok.injEq] at h
  obtain ⟨_, ⟨hlisted, rfl⟩, version, -, bidder, hbidder, _, ⟨_, ⟨hcounted, rfl⟩, rfl⟩, rfl⟩ := h
  exact ⟨htype, _, _, _, _, .removed hbook hbid hfree howed hbidder hlisted hcounted, rfl⟩

theorem cancelBid_spec {c c' : TaskContext} {signer : Pubkey}
    (h : cancelBid c signer = .ok c') : MovesBid .removed c c' := by
  simp only [cancelBid, bind_eq_ok, demand_eq_ok, require_eq_ok, TaskContext.task_eq] at h
  obtain ⟨book, hbook, bid, hstored, _, -, _, hbid, _, hopen, _, -, _, -, h⟩ := h
  exact removeBid_spec h (requireBidTask_spec hbid).1 hbook hstored (.inl hopen) (.inl rfl)

theorem expireBid_spec {c c' : TaskContext} (h : expireBid c = .ok c') : MovesBid .removed c c' := by
  simp only [expireBid, bind_eq_ok, demand_eq_ok, require_eq_ok, TaskContext.task_eq] at h
  obtain ⟨book, hbook, bid, hstored, _, -, _, hbid, _, hopen, _, -, h⟩ := h
  exact removeBid_spec h (requireBidTask_spec hbid).1 hbook hstored (.inl hopen) (.inl rfl)

theorem demoteIneligibleBest_spec {c c' : TaskContext} (h : demoteIneligibleBest c = .ok c') :
    MovesBid .removed c c' := by
  simp only [demoteIneligibleBest, bind_eq_ok, demand_eq_ok, require_eq_ok,
    TaskContext.task_eq] at h
  obtain ⟨book, hbook, bid, hstored, _, -, _, hbid, _, hopen, _, -, _, -, h⟩ := h
  exact removeBid_spec h (requireBidTask_spec hbid).1 hbook hstored (.inr hopen) (.inr rfl)

/-! ## Ranking -/

/-- The candidate has the address and the terms of the bid. -/
structure CandidateOf (key : Pubkey) (bid : TaskBid) (candidate : BidCandidate) : Prop where
  key : candidate.key = key
  reward : candidate.requestedRewardLamports = bid.requestedRewardLamports
  eta : candidate.etaSeconds = bid.etaSeconds
  confidence : candidate.confidenceBps = bid.confidenceBps
  reputation : candidate.reputationSnapshotBps = bid.reputationSnapshotBps

/-- Only a bound bid makes a candidate, which has its terms and their score. -/
theorem bidCandidate_spec {key : Pubkey} {bid : TaskBid} {task : Task} {now : ℤ} {windowSecs : ℕ}
    {weights : WeightedScoreWeights} {candidate : BidCandidate}
    (h : bidCandidate key bid task now windowSecs weights = .ok (some candidate)) :
    bid.state = .BoundActive ∧ CandidateOf key bid candidate ∧
      weightedTermsScore bid.requestedRewardLamports bid.etaSeconds bid.confidenceBps
        bid.reputationSnapshotBps task.rewardAmount windowSecs weights
        = .ok (some candidate.weightedScore) := by
  simp only [bidCandidate, bind_eq_ok] at h
  obtain ⟨_, -, _, -, _, -, _, -, _, -, h⟩ := h
  rcases ite_eq_iff.mp h with ⟨-, h⟩ | ⟨hlive, h⟩
  · cases h
  · simp only [not_or, not_not] at hlive
    simp only [bind_eq_ok, Except.ok.injEq, Option.map_eq_some_iff] at h
    obtain ⟨_, hscore, score, rfl, rfl⟩ := h
    exact ⟨hlive.1, ⟨rfl, rfl, rfl, rfl, rfl⟩, hscore⟩

/-- Whether a candidate takes the lead from an incumbent. -/
def takesLead (policy : MatchingPolicy) (candidate : BidCandidate) :
    Option BidCandidate → Bool
  | none => true
  | some incumbent => candidateIsBetter candidate incumbent policy

theorem maybeInstallBetter_spec {book book' : TaskBidBook} {task : Task}
    {candidate : BidCandidate} {installed : Bool}
    (h : maybeInstallBetter book task candidate = .ok (book', installed)) :
    ∃ incumbent, cachedBestCandidate book task = .ok incumbent ∧
      installed = takesLead book.policy candidate incumbent ∧
      book' = if installed then installBest book candidate else book := by
  simp only [maybeInstallBetter, bind_eq_ok, Except.ok.injEq, Prod.mk.injEq] at h
  obtain ⟨incumbent, hincumbent, hbook, hinstalled⟩ := h
  refine ⟨incumbent, hincumbent, ?_, ?_⟩
  · rw [← hinstalled]
    cases incumbent <;> rfl
  · rw [← hbook, ← hinstalled]

/-- A candidate leaves the book as it is, or takes the lead. -/
theorem trackCandidate_spec {book book' : TaskBidBook} {task : Task}
    {candidate : Option BidCandidate} (h : trackCandidate book task candidate = .ok book') :
    candidate = none ∧ book' = book ∨
      ∃ presented incumbent, candidate = some presented ∧
        cachedBestCandidate book task = .ok incumbent ∧
        book' = if takesLead book.policy presented incumbent then installBest book presented
          else book := by
  cases candidate with
  | none => exact .inl ⟨rfl, (Except.ok.inj h).symm⟩
  | some presented =>
    simp only [trackCandidate, bind_eq_ok, Prod.exists, Except.ok.injEq] at h
    obtain ⟨_, installed, hinstall, rfl⟩ := h
    obtain ⟨incumbent, hincumbent, rfl, rfl⟩ := maybeInstallBetter_spec hinstall
    exact .inr ⟨presented, incumbent, rfl, hincumbent, rfl⟩

/-- An updated leader keeps the lead only when it is not worse than before; another bid is
tracked like a new one. -/
theorem trackUpdate_spec {book book' : TaskBidBook} {task : Task} {bidKey : Pubkey}
    {incumbent candidate : Option BidCandidate}
    (h : trackUpdate book task bidKey incumbent candidate = .ok book') :
    book.bestBid = bidKey ∧ (∃ before refreshed, incumbent = some before ∧
        candidate = some refreshed ∧ candidateIsBetter before refreshed book.policy = false ∧
        book' = installBest book refreshed) ∨
      book.bestBid ≠ bidKey ∧ trackCandidate book task candidate = .ok book' := by
  unfold trackUpdate at h
  rcases ite_eq_iff.mp h with ⟨hleads, h⟩ | ⟨hleads, h⟩
  · simp only [bind_eq_ok, demand_eq_ok, require_eq_ok, Except.ok.injEq] at h
    obtain ⟨before, hbefore, refreshed, hrefreshed, _, hnotWorse, rfl⟩ := h
    exact .inl ⟨hleads, before, refreshed, hbefore, hrefreshed, hnotWorse, rfl⟩
  · exact .inr ⟨hleads, h⟩

/-! ## Acceptance -/

/-- What the acceptance of the context's bid at `terms` has checked, and what it makes of the
book, the bids and the bidder's record. -/
structure AcceptsBid (c : TaskContext) (terms : BidTermsHash) (book : TaskBidBook)
    (bid : Account TaskBid) (c' : TaskContext) : Prop where
  opened : c.accounts.bidBook = some book
  isOpen : book.state = .Open
  loaded : c.accounts.bids.lookup c.workerKey = some bid
  bound : bid.data.state = .BoundActive
  best : book.bestBid ≠ 0 ∧ book.bestBid = c.bidKey
  cached : book.bestRewardLamports = bid.data.requestedRewardLamports ∧
    book.bestEtaSeconds = bid.data.etaSeconds ∧ book.bestConfidenceBps = bid.data.confidenceBps ∧
    book.bestReputationBps = bid.data.reputationSnapshotBps
  grace : 0 < book.winnerStaleSince → book.winnerStaleSince + bidRepromotionGraceSecs ≤ c.sys.now
  hashed : ∃ spec, c.accounts.jobSpec = some spec ∧ calculateBidTermsHash c bid.data spec = terms
  book' : ∃ version, c'.accounts.bidBook = some { book with
    state := .Accepted
    acceptedBid := some c.workerKey
    version := version
    updatedAt := c.sys.now
    winnerStaleSince := 0 }
  bids' : c'.accounts.bids = c.accounts.bids.insert c.workerKey
    { bid with data := { bid.data with state := .Accepted, updatedAt := c.sys.now } }
  bidder' : ∃ state accepted, c.bidder = some state ∧
    c'.bidder = some { state with totalBidsAccepted := accepted }

theorem checkRepromotionGrace_spec {book : TaskBidBook} {now : ℤ} {u : Unit}
    (h : checkRepromotionGrace book now = .ok u) (hstale : 0 < book.winnerStaleSince) :
    book.winnerStaleSince + bidRepromotionGraceSecs ≤ now := by
  simp only [checkRepromotionGrace, if_pos hstale, bind_eq_ok, addI64_eq_ok, require_eq_ok] at h
  obtain ⟨_, ⟨-, rfl⟩, hle⟩ := h
  exact hle

theorem acceptBid_spec {c c' : TaskContext} {signer : Pubkey}
    {expectedBidTermsHash : BidTermsHash} {prefunded : ℕ}
    (h : acceptBid c signer expectedBidTermsHash prefunded = .ok c') :
    ∃ expiresAt book bid, Assignable c expiresAt ∧
      c.accounts.task.taskType = .BidExclusive ∧
      c.accounts.task.status = .Open ∧
      AcceptsBid c expectedBidTermsHash book bid c' ∧
      Occupies c expiresAt c' := by
  simp only [acceptBid, validateCachedWinnerSelection, bind_eq_ok, require_eq_ok, demand_eq_ok,
    addU16_eq_ok, Except.ok.injEq, TaskContext.task_eq] at h
  obtain ⟨_, -, _, hfresh, book, hbook, bid, hstored, state, hbidder, spec, hspec, h⟩ := h
  obtain ⟨_, -, _, hdependency, _, -, _, hbid, _, -, _, -, _, hstatus, _, hslot, h⟩ := h
  obtain ⟨_, hopen, _, -, _, ⟨-, hbound⟩, _, hhash, _, -, _, -, _, -, _, -, _, -, _, -, h⟩ := h
  obtain ⟨_, -, _, hactive, _, -, _, ⟨_, -, _, hbest, _, hcached, _, hgrace, _, -, -⟩, h⟩ := h
  obtain ⟨expiresAt, hexpiry, task, htask, version, -, _, ⟨-, rfl⟩, accepted, -, rfl⟩ := h
  obtain ⟨htype, hmax, -⟩ := requireBidTask_spec hbid
  obtain ⟨claimGeneration, rfl⟩ := incrementClaimGeneration_spec htask
  refine ⟨expiresAt, book, bid, ⟨hdependency, ?_, hactive, hexpiry, ?_⟩, htype, hstatus, ?_, ?_⟩
  · rw [hslot, hmax]
    decide
  · intro claim hc
    rw [hfresh] at hc
    cases hc
  · exact ⟨hbook, hopen, hstored, hbound, hbest, hcached, checkRepromotionGrace_spec hgrace,
      ⟨spec, hspec, hhash⟩, ⟨version, rfl⟩, rfl, ⟨state, accepted, hbidder, rfl⟩⟩
  · refine ⟨1, .InProgress, _, claimGeneration, _, _, _, _, _, rfl, ?_, ?_⟩
    · rw [hslot]
    · rw [hstatus]
      rfl

end AgencCoordination
