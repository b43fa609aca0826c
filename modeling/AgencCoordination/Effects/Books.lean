import AgencCoordination.Effects.Steps

/-!
# Bid books, step by step

Every step of the program, seen from the bid books: which book and which bids it changes, what
the bidders' records are afterwards, and what it pays out of bids.

* **`BookMove`** — the ways one instruction changes a book, its bids and the bidders' records.
* **`Step.books`** — every step leaves all books alone or makes one of these moves on one.
-/

namespace AgencCoordination

open Foundations

/-! ## Payments out of bids -/

def Custody.isBid : Custody → Bool
  | .bid _ _ => true
  | _ => false

/-- The payments of a list that leave bids. -/
def bidPart (ts : List Transfer) : List Transfer := ts.filter fun t => t.source.isBid

section BidPart

variable {ts us : List Transfer} {key k : Pubkey}

@[simp] theorem bidPart_nil : bidPart [] = [] := rfl

@[simp] theorem bidPart_append : bidPart (ts ++ us) = bidPart ts ++ bidPart us :=
  List.filter_append ts us

theorem bidPart_eq_nil (h : ∀ t ∈ ts, t.source.isBid = false) : bidPart ts = [] := by
  rw [bidPart, List.filter_eq_nil_iff]
  intro t ht
  rw [h t ht]
  decide

theorem bidPart_eq_self (h : ∀ t ∈ ts, t.source = .bid key k) : bidPart ts = ts := by
  rw [bidPart, List.filter_eq_self]
  intro t ht
  rw [h t ht]
  rfl

theorem bidPart_bondPayments {poster : Pubkey} {disposition : BondDisposition}
    {bond : Option (Account CompletionBond)} :
    bidPart (bondPayments key poster disposition bond) = [] :=
  bidPart_eq_nil fun t ht => by rw [bondPayments_source t ht]; rfl

theorem bidPart_settles {t : Till} {payees : PayeeAccounts} {gross : ℕ} {completed : Bool}
    {escrow' : Option (Account TaskEscrow)} {vault' : Option ℕ}
    (h : Settles t payees gross completed escrow' vault' ts) : bidPart ts = [] :=
  bidPart_eq_nil fun x hx => by rcases h.source x hx with hs | hs <;> rw [hs] <;> rfl

theorem bidPart_empties {t : Till} {payees : PayeeAccounts} {escrow : Account TaskEscrow}
    {escrow' : Option (Account TaskEscrow)} (h : EmptiesEscrow t payees escrow escrow' ts) :
    bidPart ts = [] :=
  bidPart_eq_nil fun x hx => by rcases h.source x hx with hs | hs <;> rw [hs] <;> rfl

theorem bidPart_closes {c : TaskContext} (h : ClosesWorkerAccounts c ts) : bidPart ts = [] :=
  bidPart_eq_nil fun x hx => by rcases (h x hx).1 with hs | hs <;> rw [hs] <;> rfl

theorem bidPart_noShow {poster creator : Pubkey} {penalty : Prop}
    {bonds bonds' : Ledger Pubkey (Account CompletionBond)}
    (h : SettlesNoShow key poster creator penalty bonds bonds' ts) : bidPart ts = [] :=
  bidPart_eq_nil fun x hx => by rw [h.source x hx]; rfl

theorem bidPart_claimClosings {c : TaskContext} {recipient : Pubkey}
    {claim : Account TaskClaim} {forfeited : ℕ} :
    bidPart (claimClosings c recipient claim forfeited) = [] :=
  bidPart_eq_nil fun x hx => by rw [claimClosings_source x hx]; rfl

@[simp] theorem bidPart_claimClosing {c : TaskContext} {amount : ℕ} :
    bidPart [claimClosing c amount] = [] := rfl

@[simp] theorem bidPart_submissionClosing {c : TaskContext} {amount : ℕ} :
    bidPart [submissionClosing c amount] = [] := rfl

theorem bidPart_settlesBid {b : BidSide} {place : AcceptedBidBookDisposition}
    {disposition : AcceptedBidBondDisposition} {book' : Option TaskBidBook}
    {bids' : Ledger Pubkey (Account TaskBid)} {bidder' : Option BidderMarketState}
    (h : SettlesBid b place disposition book' bids' bidder' ts) : bidPart ts = ts :=
  bidPart_eq_self fun t ht => (h.payments t ht).1

theorem bidPart_cancelsBids {b : BidSide} {workers : ℕ} {penalty : Bool}
    {book' : Option TaskBidBook} {bids' : Ledger Pubkey (Account TaskBid)}
    {bidder' : Option BidderMarketState}
    (h : CancelsBids b workers penalty book' bids' bidder' ts) : bidPart ts = ts :=
  bidPart_eq_self fun t ht => h.payments t ht

end BidPart

/-! ## Handlers -/

/-- A handler that leaves the bid side of its context alone, payments included. -/
structure LeavesBids (c c' : TaskContext) : Prop extends KeepsBids c c' where
  paid : bidPart c'.paid = bidPart c.paid

/-- A handler that settles the accepted bid of a bid task, whatever else it does. -/
def SettlesBidOf (place : AcceptedBidBookDisposition) (disposition : AcceptedBidBondDisposition)
    (c c' : TaskContext) : Prop :=
  ∃ ts, SettlesBid c.bidSide place disposition c'.accounts.bidBook c'.accounts.bids c'.bidder ts ∧
    bidPart c'.paid = bidPart c.paid ++ ts

section Handlers

variable {c c' : TaskContext} {config : TaskValidationConfig}

theorem PaysAccepted.settlesBid {payees : PayeeAccounts} (h : PaysAccepted c config payees c') :
    SettlesBidOf .Close .Refund c c' := by
  obtain ⟨claim, stored, gross, price, escrow', vault', paidReward, book', bids', bidder',
    paidBid, votes', -, -, -, -, -, -, -, hsettles, hbid, _, _, _, _, _, _, _, _, rfl⟩ := h
  refine ⟨paidBid, hbid, ?_⟩
  simp only [bidPart_append, bidPart_settles hsettles, bidPart_settlesBid hbid,
    bidPart_bondPayments, bidPart_claimClosing, bidPart_submissionClosing, List.append_nil]

theorem RejectsClaim.settlesBid (h : RejectsClaim c config c') :
    SettlesBidOf .Reopen .Refund c c' := by
  obtain ⟨claim, submissions', votes', book', bids', bidder', paidBid, closings, -, -, -, -, -,
    hbid, hcloses, rfl⟩ := h
  refine ⟨paidBid, hbid, ?_⟩
  simp only [bidPart_append, bidPart_settlesBid hbid, bidPart_bondPayments,
    bidPart_closes hcloses, List.append_nil]

theorem completeTask_settlesBid {signer : Pubkey} {proofHash : Hash} {resultData : Option ℕ}
    {payees : PayeeAccounts} (h : completeTask c signer proofHash resultData payees = .ok c') :
    SettlesBidOf .Close .Refund c c' := by
  obtain ⟨claim, gross, price, escrow', vault', paidReward, book', bids', bidder', paidBid, -, -,
    -, -, -, -, -, hsettles, hbid, _, _, _, _, _, _, _, _, rfl⟩ := completeTask_spec h
  refine ⟨paidBid, hbid, ?_⟩
  simp only [bidPart_append, bidPart_settles hsettles, bidPart_settlesBid hbid,
    bidPart_bondPayments, bidPart_claimClosing, List.append_nil]

theorem expireClaim_settlesBid {caller : Pubkey} {withSubmission : Bool}
    (h : expireClaim c caller withSubmission = .ok c') :
    SettlesBidOf .Reopen (acceptedBidNoShowBondDisposition true) c c' := by
  obtain ⟨claim, escrow, reward, forfeited, book', bids', bidder', h⟩ := expireClaim_spec h
  obtain ⟨paidBid, bonds', paidBond, -, -, -, -, -, -, -, -, h⟩ := h
  obtain ⟨-, -, -, hbid, hbond, rfl⟩ := h
  refine ⟨paidBid, hbid, ?_⟩
  have hreward : bidPart [⟨.escrow c.key, caller, .cleanupReward, reward⟩] = [] := rfl
  simp only [bidPart_append, bidPart_settlesBid hbid, bidPart_noShow hbond, hreward,
    bidPart_claimClosings, List.append_nil]

theorem resolveDispute_settlesBid {d d' : Dispute} {signer : Pubkey} {signers : List Pubkey}
    {assigned approved : Bool} {payees : PayeeAccounts}
    (h : resolveDispute c d signer signers assigned approved payees = .ok (c', d')) :
    SettlesBidOf .Close (acceptedBidDisputeBondDisposition approved d.resolutionType) c c' := by
  obtain ⟨claim, escrow, escrow', vault', paidRuling, book', bids', h⟩ := resolveDispute_spec h
  obtain ⟨bidder', paidBid, live, validation', closings, paidClaim, creatorSide, h⟩ := h
  obtain ⟨workerSide, -, -, -, -, -, -, hempties, hbid, -, hcloses, hclose, h⟩ := h
  obtain ⟨_, _, _, _, _, _, _, -, -, rfl, rfl⟩ := h
  refine ⟨paidBid, hbid, ?_⟩
  simp only [bidPart_append, bidPart_empties hempties, bidPart_settlesBid hbid,
    bidPart_closes hcloses, bidPart_closes hclose, bidPart_bondPayments, List.append_nil]

theorem expireDispute_settlesBid {d d' : Dispute} (h : expireDispute c d = .ok (c', d')) :
    ∃ penalty, SettlesBidOf .Close (acceptedBidNoShowBondDisposition penalty) c c' := by
  obtain ⟨claim, escrow, escrow', vault', paidRefund, live, validation', h⟩ := expireDispute_spec h
  obtain ⟨closings, penalty, book', bids', bidder', paidBid, bonds', paidBond, h⟩ := h
  obtain ⟨-, -, -, -, -, -, hempties, -, hcloses, -, hbid, hbond, rfl, rfl⟩ := h
  refine ⟨penalty, paidBid, hbid, ?_⟩
  simp only [bidPart_append, bidPart_empties hempties, bidPart_settlesBid hbid,
    bidPart_closes hcloses, bidPart_noShow hbond, bidPart_bondPayments, bidPart_claimClosings,
    List.append_nil]

theorem PaysFrozen.leavesBids {payees : PayeeAccounts} {disposition : BondDisposition}
    (h : PaysFrozen c payees disposition c') :
    LeavesBids c c' := by
  obtain ⟨claim, stored, gross, escrow', vault', paidReward, -, -, -, -, -, -, hsettles, -, _, _,
    _, _, _, _, _, _, rfl⟩ := h
  refine ⟨⟨rfl, rfl, rfl⟩, ?_⟩
  simp only [bidPart_append, bidPart_settles hsettles, bidPart_bondPayments,
    bidPart_claimClosing, bidPart_submissionClosing, List.append_nil]

theorem CancelsFrozen.leavesBids (h : CancelsFrozen c c') : LeavesBids c c' := by
  obtain ⟨claim, stored, escrow, -, -, -, -, -, -, -, rfl⟩ := h
  refine ⟨⟨rfl, rfl, rfl⟩, ?_⟩
  have hclose : bidPart [closeEscrowTransfer c.key c.accounts.task.creator escrow.lamports] = [] :=
    rfl
  simp only [bidPart_append, bidPart_bondPayments, hclose, bidPart_claimClosing,
    bidPart_submissionClosing, List.append_nil]

theorem distributeGhostShare_leavesBids {payees : PayeeAccounts}
    (h : distributeGhostShare c payees = .ok c') : LeavesBids c c' := by
  obtain ⟨config, submission, claim, escrow, escrow', paidReward, h⟩ := distributeGhostShare_spec h
  obtain ⟨-, -, -, -, -, -, -, -, -, -, -, -, h⟩ := h
  obtain ⟨hsettles, _, _, _, _, _, _, rfl⟩ := h
  refine ⟨⟨rfl, rfl, rfl⟩, ?_⟩
  simp only [bidPart_append, bidPart_settles hsettles, bidPart_claimClosing,
    bidPart_submissionClosing, List.append_nil]

end Handlers

/-! ## Instructions on a worker -/

/-- What a bid instruction other than the acceptance does with the bid. -/
def WorkOp.bidKind : WorkOp → Option BidKind
  | .createBid _ _ _ => some .created
  | .updateBid _ _ => some .updated
  | .promoteBid => some .promoted
  | .cancelBid _ | .expireBid | .demoteIneligibleBest => some .removed
  | _ => none

/-- The instructions that end a claim without ending its task, so that an accepted bid's book
opens again. -/
def WorkOp.reopens : WorkOp → Bool
  | .rejectTaskResult _ _ | .expireClaim _ _ => true
  | .validateTaskResult _ _ approved => !approved
  | _ => false

/-- What an instruction on a worker does to the bid side of its context. -/
inductive WorkBids (c c' : TaskContext) : WorkOp → Prop
  | left {op : WorkOp} (leaves : LeavesBids c c') : WorkBids c c' op
  | moved {op : WorkOp} {kind : BidKind} (isKind : op.bidKind = some kind)
      (moves : MovesBid kind c c') : WorkBids c c' op
  | accepted {signer : Pubkey} {terms : BidTermsHash} {prefunded : ℕ} {book : TaskBidBook}
      {bid : Account TaskBid} (accepts : AcceptsBid c terms book bid c') (paid : c'.paid = c.paid) :
      WorkBids c c' (.acceptBid signer terms prefunded)
  | settled {op : WorkOp} {place : AcceptedBidBookDisposition}
      {disposition : AcceptedBidBondDisposition} (settles : SettlesBidOf place disposition c c')
      (reopening : place = .Reopen → op.reopens = true ∨
        ∃ config, c.accounts.validation = some config ∧ config.mode = .ValidatorQuorum)
      (bounded : disposition ≠ .FullSlashToCreator) : WorkBids c c' op

theorem Occupies.paid {c c' : TaskContext} {expiresAt : ℤ} (h : Occupies c expiresAt c') :
    c'.paid = c.paid := by
  obtain ⟨_, _, _, _, _, _, _, _, _, rfl, -⟩ := h
  rfl

theorem acceptedBidNoShowBondDisposition_ne (penalty : Bool) :
    acceptedBidNoShowBondDisposition penalty ≠ .FullSlashToCreator := by
  cases penalty <;> decide

theorem WorkOp.run_bids {w : World} {op : WorkOp} {c c' : TaskContext}
    (h : op.run w c = .ok c') : WorkBids c c' op := by
  have hsame : LeavesBids c c := ⟨⟨rfl, rfl, rfl⟩, rfl⟩
  cases op with
  | claimTaskWithJobSpec signer prefunded =>
    obtain ⟨_, -, -, -, -, hkeeps, hoccupies⟩ := claimTaskWithJobSpec_spec h
    exact .left ⟨hkeeps, congrArg bidPart hoccupies.paid⟩
  | createBid signer terms prefunded => exact .moved rfl (createBid_spec h)
  | updateBid signer terms => exact .moved rfl (updateBid_spec h)
  | cancelBid signer => exact .moved rfl (cancelBid_spec h)
  | expireBid => exact .moved rfl (expireBid_spec h)
  | promoteBid => exact .moved rfl (promoteBid_spec h)
  | demoteIneligibleBest => exact .moved rfl (demoteIneligibleBest_spec h)
  | acceptBid signer expectedBidTermsHash prefunded =>
    obtain ⟨_, _, _, -, -, -, haccepts, hoccupies⟩ := acceptBid_spec h
    exact .accepted haccepts hoccupies.paid
  | postWorkerBond signer prefunded =>
    have h : postCompletionBond c signer .Worker prefunded = .ok c' := h
    obtain ⟨_, -, -, -, -, -, -, -, -, rfl⟩ := postCompletionBond_spec h
    exact .left ⟨⟨rfl, rfl, rfl⟩, rfl⟩
  | submitTaskResult signer proofHash resultData prefunded =>
    obtain ⟨_, _, _, -, -, -, -, -, -, -, _, _, rfl⟩ := submitTaskResult_spec h
    exact .left ⟨⟨rfl, rfl, rfl⟩, rfl⟩
  | acceptTaskResult signer payees =>
    obtain ⟨_, _, -, -, -, -, hpays⟩ := acceptTaskResult_spec h
    exact .settled hpays.settlesBid nofun nofun
  | autoAcceptTaskResult payees =>
    obtain ⟨_, _, -, -, -, hpays⟩ := autoAcceptTaskResult_spec h
    exact .settled hpays.settlesBid nofun nofun
  | rejectTaskResult signer rejectionHash =>
    obtain ⟨_, _, -, -, -, -, hrejects⟩ := rejectTaskResult_spec h
    exact .settled hrejects.settlesBid (fun _ => .inl rfl) nofun
  | requestChanges signer changesHash =>
    obtain ⟨_, _, _, _, _, -, -, -, -, -, -, rfl⟩ := requestChanges_spec h
    exact .left ⟨⟨rfl, rfl, rfl⟩, rfl⟩
  | validateTaskResult reviewer validator approved =>
    obtain ⟨config, _, hr, -, hpays | ⟨hrejects, hmode⟩ | ⟨_, _, -, rfl⟩⟩ :=
      validateTaskResult_spec h
    · exact .settled hpays.settlesBid nofun nofun
    · refine .settled hrejects.settlesBid (fun _ => ?_) nofun
      cases approved with
      | false => exact .inl rfl
      | true => exact .inr ⟨config, hr.validation, hmode rfl⟩
    · exact .left ⟨⟨rfl, rfl, rfl⟩, rfl⟩
  | rejectAndFreeze signer rejectionHash =>
    obtain ⟨_, _, _, -, -, -, -, -, rfl⟩ := rejectAndFreeze_spec h
    exact .left ⟨⟨rfl, rfl, rfl⟩, rfl⟩
  | resolveRejectFrozen signers approveCompletion payees =>
    obtain ⟨_, hpays⟩ | hcancels := resolveRejectFrozen_spec h
    · exact .left hpays.leavesBids
    · exact .left hcancels.leavesBids
  | expireRejectFrozen payees => exact .left (expireRejectFrozen_spec h).leavesBids
  | completeTask signer proofHash resultData payees =>
    exact .settled (completeTask_settlesBid h) nofun nofun
  | expireClaim caller withSubmission =>
    exact .settled (expireClaim_settlesBid h) (fun _ => .inl rfl)
      (acceptedBidNoShowBondDisposition_ne true)
  | distributeGhostShare payees => exact .left (distributeGhostShare_leavesBids h)
  | reclaimTerminalClaim =>
    obtain ⟨_, _, _, closings, -, -, -, -, -, -, hcloses, rfl⟩ := reclaimTerminalClaim_spec h
    refine .left ⟨⟨rfl, rfl, rfl⟩, ?_⟩
    rw [bidPart_append, bidPart_closes hcloses, List.append_nil]

/-! ## Instructions on a dispute -/

/-- What an instruction on a dispute does to the bid side of its context. -/
inductive DisputeBids (c c' : TaskContext) : DisputeOp → Prop
  | left {op : DisputeOp} (leaves : LeavesBids c c') : DisputeBids c c' op
  | ruled {signer : Pubkey} {signers : List Pubkey} {assigned approved : Bool}
      {payees : PayeeAccounts} {disposition : AcceptedBidBondDisposition}
      (settles : SettlesBidOf .Close disposition c c') :
      DisputeBids c c' (.resolveDispute signer signers assigned approved payees)
  | expired {penalty : Bool}
      (settles : SettlesBidOf .Close (acceptedBidNoShowBondDisposition penalty) c c') :
      DisputeBids c c' .expireDispute

theorem DisputeOp.run_bids {w : World} {op : DisputeOp} {c c' : TaskContext} {d d' : Dispute}
    (h : op.run w c d = .ok (c', d')) : DisputeBids c c' op := by
  cases op with
  | cancelDispute signer =>
    obtain ⟨_, _, -, -, -, -, -, rfl, rfl⟩ := cancelDispute_spec h
    exact .left ⟨⟨rfl, rfl, rfl⟩, rfl⟩
  | resolveDispute signer signers withAssignment approved payees =>
    exact .ruled (resolveDispute_settlesBid h)
  | expireDispute =>
    obtain ⟨penalty, hsettles⟩ := expireDispute_settlesBid h
    exact .expired hsettles
  | settleDisputeClaim =>
    obtain ⟨claim, live, validation', closings, _, _, _, h⟩ := settleDisputeClaim_spec h
    obtain ⟨-, -, -, -, -, -, -, hcloses, -, -, -, rfl, rfl⟩ := h
    refine .left ⟨⟨rfl, rfl, rfl⟩, ?_⟩
    simp only [bidPart_append, bidPart_closes hcloses, bidPart_claimClosings, List.append_nil]
  | applyDisputeSlash withTokenAccounts =>
    obtain ⟨claim, _, slash, escrow', vault', paidReserve, _, _, h⟩ := applyDisputeSlash_spec h
    obtain ⟨_, _, _, _, -, -, -, -, -, -, -, -, hreserve, -, -, rfl, rfl⟩ := h
    refine .left ⟨⟨rfl, rfl, rfl⟩, ?_⟩
    have hslash : bidPart [⟨.agent c.workerKey, c.config.treasury, .stakeSlash, slash⟩] = [] := rfl
    have hpaid : bidPart paidReserve = [] :=
      bidPart_eq_nil fun t ht => by rcases (hreserve t ht).1 with hs | hs <;> rw [hs] <;> rfl
    simp only [bidPart_append, hslash, hpaid, bidPart_claimClosings, List.append_nil]

/-! ## Every step -/

namespace World

/-- The bid book of a task. -/
def bookOf (w : World) (key : Pubkey) : Option TaskBidBook :=
  (w.tasks.lookup key).bind TaskAccounts.bidBook

/-- The bids of a task. -/
def bidsOf (w : World) (key : Pubkey) : Ledger Pubkey (Account TaskBid) :=
  ((w.tasks.lookup key).map TaskAccounts.bids).getD ∅

/-- The record of a bidder. -/
def recordOf (w : World) (k : Pubkey) : Option BidderMarketState := w.bidders.lookup k

end World

namespace World

variable {w w' : World} {c : TaskContext} {key : Pubkey} {acc acc' : TaskAccounts}

theorem bookOf_eq (h : w.tasks.lookup key = some acc) : w.bookOf key = acc.bidBook := by
  rw [bookOf, h]
  rfl

theorem bidsOf_eq (h : w.tasks.lookup key = some acc) : w.bidsOf key = acc.bids := by
  rw [bidsOf, h]
  rfl

theorem bookOf_insert (h : w'.tasks = w.tasks.insert key acc') : w'.bookOf key = acc'.bidBook :=
  bookOf_eq (by rw [h, AList.lookup_insert])

theorem bidsOf_insert (h : w'.tasks = w.tasks.insert key acc') : w'.bidsOf key = acc'.bids :=
  bidsOf_eq (by rw [h, AList.lookup_insert])

theorem books_insert_ne (h : w'.tasks = w.tasks.insert key acc') {key' : Pubkey}
    (hne : key' ≠ key) : w'.bookOf key' = w.bookOf key' ∧ w'.bidsOf key' = w.bidsOf key' := by
  simp only [bookOf, bidsOf, h, AList.lookup_insert_ne hne, and_self]

/-- Storing a record that is there, or none, changes no record. -/
theorem storeBidder_recordOf_same {k : Pubkey} {bidder : Option BidderMarketState}
    (h : bidder = none ∨ bidder = w.recordOf k) : (w.storeBidder k bidder).recordOf = w.recordOf := by
  cases bidder with
  | none => rfl
  | some state =>
    funext j
    have hk : w.bidders.lookup k = some state := by
      rcases h with h | h
      · cases h
      · exact h.symm
    change (w.bidders.insert k state).lookup j = w.bidders.lookup j
    rw [Ledger.lookup_insert_eq_ite]
    split_ifs with hj
    · rw [hj, hk]
    · rfl

/-- Storing a record that is no less there than before. -/
theorem storeBidder_recordOf {k : Pubkey} {bidder : Option BidderMarketState}
    (h : bidder = none → w.recordOf k = none) :
    (w.storeBidder k bidder).recordOf = Function.update w.recordOf k bidder := by
  cases bidder with
  | none =>
    have hsame : Function.update w.recordOf k none = w.recordOf := by
      rw [← h rfl]
      exact Function.update_eq_self k w.recordOf
    rw [hsame]
    rfl
  | some state =>
    funext j
    change (w.bidders.insert k state).lookup j = _
    rw [Ledger.lookup_insert_eq_ite, Function.update_apply]
    rfl

theorem recordOf_congr (h : w'.bidders = w.bidders) : w'.recordOf = w.recordOf :=
  funext fun k => congrArg (AList.lookup k) h

/-- What storing a record does to the records, whatever else the world holds. -/
theorem storeBidder_congr {k : Pubkey} {bidder : Option BidderMarketState}
    (h : w'.bidders = w.bidders) :
    (w'.storeBidder k bidder).recordOf = (w.storeBidder k bidder).recordOf := by
  refine recordOf_congr ?_
  cases bidder with
  | none => exact h
  | some state => exact congrArg (AList.insert k state) h

@[simp] theorem storeTask_recordOf : (w.storeTask c).recordOf = w.recordOf := rfl

theorem storeWork_recordOf :
    (w.storeWork c).recordOf = (w.storeBidder c.workerKey c.bidder).recordOf := by
  rw [storeWork, storeTask_recordOf]
  exact storeBidder_congr rfl

end World

/-- The ways one instruction changes the book of the task `key`, its bids and the bidders'
records, and what it pays out of bids. -/
inductive BookMove (w : World) (key : Pubkey) (acc : TaskAccounts) :
    Instruction → Option TaskBidBook → Ledger Pubkey (Account TaskBid) →
      (Pubkey → Option BidderMarketState) → List Transfer → Prop
  | donated {k : Pubkey} {amount : ℕ} {bid : Account TaskBid}
      (loaded : acc.bids.lookup k = some bid) :
      BookMove w key acc (.donate (.bid key k) amount) acc.bidBook
        (acc.bids.insert k { bid with lamports := bid.lamports + amount }) w.recordOf []
  | opened {signer : Pubkey} {policy : ℕ} {weights : WeightedScoreWeights} {book : TaskBidBook}
      (closed : acc.bidBook = none) (status : acc.task.status = .Open)
      (type : acc.task.taskType = .BidExclusive) (fresh : OpenedBook book) :
      BookMove w key acc (.task key (.initializeBidBook signer policy weights)) (some book)
        acc.bids w.recordOf []
  | moved {k : Pubkey} {op : WorkOp} {kind : BidKind} {agent : Account AgentRegistration}
      {book' : Option TaskBidBook} {bids' : Ledger Pubkey (Account TaskBid)}
      {bidder' : Option BidderMarketState} {ts : List Transfer}
      (found : w.agents.lookup k = some agent) (isKind : op.bidKind = some kind)
      (type : acc.task.taskType = .BidExclusive)
      (move : BidMove (w.workContext key acc k agent) kind book' bids' bidder' ts) :
      BookMove w key acc (.work key k op) book' bids' (Function.update w.recordOf k bidder') ts
  | accepted {k signer : Pubkey} {terms : BidTermsHash} {prefunded : ℕ} {book : TaskBidBook}
      {bid : Account TaskBid} {agent : Account AgentRegistration} {c : TaskContext}
      (found : w.agents.lookup k = some agent)
      (accepts : AcceptsBid (w.workContext key acc k agent) terms book bid c) :
      BookMove w key acc (.work key k (.acceptBid signer terms prefunded)) c.accounts.bidBook
        c.accounts.bids (Function.update w.recordOf k c.bidder) []
  | settled {k : Pubkey} {i : Instruction} {agent : Account AgentRegistration}
      {place : AcceptedBidBookDisposition} {disposition : AcceptedBidBondDisposition}
      {book' : Option TaskBidBook} {bids' : Ledger Pubkey (Account TaskBid)}
      {bidder' : Option BidderMarketState} {ts : List Transfer}
      (found : w.agents.lookup k = some agent) (type : acc.task.taskType = .BidExclusive)
      (settles : SettlesBid (w.workContext key acc k agent).bidSide place disposition book' bids'
        bidder' ts)
      (reopening : place = .Reopen → ∃ op, i = .work key k op ∧ (op.reopens = true ∨
        ∃ config, acc.validation = some config ∧ config.mode = .ValidatorQuorum))
      (full : disposition = .FullSlashToCreator →
        ∃ disputeKey signer signers assigned approved payees, i = .dispute key disputeKey k
          (.resolveDispute signer signers assigned approved payees)) :
      BookMove w key acc i book' bids' (Function.update w.recordOf k bidder') ts
  | shut {signer : Pubkey} {workers : List Pubkey} {workerBondAuthority : Pubkey}
      {withParent : Bool} {book : TaskBidBook} {version : ℕ}
      (opened : acc.bidBook = some book) (idle : acc.task.currentWorkers = 0) :
      BookMove w key acc (.cancelTask key signer workers workerBondAuthority withParent)
        (some { book with state := .Closed, version := version, updatedAt := w.sys.now })
        acc.bids w.recordOf []
  | swept {signer : Pubkey} {withJobSpec withEscrow : Bool} {workerBond : Option Pubkey}
      {children : List TaskChild}
      (status : acc.task.status = .Completed ∨ acc.task.status = .Cancelled)
      (empty : acc.task.taskType = .BidExclusive →
        ∀ book, acc.bidBook = some book → book.activeBids = 0) :
      BookMove w key acc (.closeTask key signer withJobSpec withEscrow workerBond children) none
        acc.bids w.recordOf []

/-- How a step looks from the bid books. -/
inductive SeenFromBooks (w : World) (i : Instruction) (w' : World) (ts : List Transfer) : Prop
  | apart (books : ∀ key, w'.bookOf key = w.bookOf key) (bids : ∀ key, w'.bidsOf key = w.bidsOf key)
      (records : w'.recordOf = w.recordOf) (unpaid : bidPart ts = [])
  | moved {key : Pubkey} {acc : TaskAccounts} (loaded : w.tasks.lookup key = some acc)
      (move : BookMove w key acc i (w'.bookOf key) (w'.bidsOf key) w'.recordOf (bidPart ts))
      (others : ∀ key', key' ≠ key → w'.bookOf key' = w.bookOf key' ∧
        w'.bidsOf key' = w.bidsOf key')

/-- A step that writes the accounts of one task, but neither its book nor its bids, nor any
bidder's record. -/
theorem SeenFromBooks.of_same {w w' : World} {i : Instruction} {ts : List Transfer}
    {key : Pubkey} {acc acc' : TaskAccounts} (hw' : w'.tasks = w.tasks.insert key acc')
    (hacc : w.tasks.lookup key = some acc) (hbook : acc'.bidBook = acc.bidBook)
    (hbids : acc'.bids = acc.bids) (hrecords : w'.recordOf = w.recordOf)
    (hpaid : bidPart ts = []) : SeenFromBooks w i w' ts := by
  have hboth (key' : Pubkey) :
      w'.bookOf key' = w.bookOf key' ∧ w'.bidsOf key' = w.bidsOf key' := by
    by_cases hkey : key' = key
    · subst hkey
      rw [World.bookOf_insert hw', World.bidsOf_insert hw', World.bookOf_eq hacc,
        World.bidsOf_eq hacc]
      exact ⟨hbook, hbids⟩
    · exact World.books_insert_ne hw' hkey
  exact .apart (fun key' => (hboth key').1) (fun key' => (hboth key').2) hrecords hpaid

/-- A step that writes the accounts of one task and moves its book. -/
theorem SeenFromBooks.of_move {w w' : World} {i : Instruction} {ts : List Transfer}
    {key : Pubkey} {acc acc' : TaskAccounts} {records : Pubkey → Option BidderMarketState}
    (hw' : w'.tasks = w.tasks.insert key acc') (hacc : w.tasks.lookup key = some acc)
    (hrecords : w'.recordOf = records)
    (hmove : BookMove w key acc i acc'.bidBook acc'.bids records (bidPart ts)) :
    SeenFromBooks w i w' ts := by
  refine .moved hacc ?_ fun key' hne => World.books_insert_ne hw' hne
  rw [World.bookOf_insert hw', World.bidsOf_insert hw', hrecords]
  exact hmove

/-- A step that writes no task and no bidder's record. -/
theorem SeenFromBooks.of_tasks {w w' : World} {i : Instruction} {ts : List Transfer}
    (htasks : w'.tasks = w.tasks) (hrecords : w'.recordOf = w.recordOf)
    (hpaid : bidPart ts = []) : SeenFromBooks w i w' ts := by
  refine .apart (fun key => ?_) (fun key => ?_) hrecords hpaid
  · rw [World.bookOf, htasks, World.bookOf]
  · rw [World.bidsOf, htasks, World.bidsOf]

/-- A new task has neither a book nor bids. -/
theorem SeenFromBooks.of_fresh {w w' : World} {i : Instruction} {key : Pubkey}
    {acc : TaskAccounts} (hw' : w'.tasks = w.tasks.insert key acc)
    (hnew : w.tasks.lookup key = none) (hfresh : FreshAccounts w acc)
    (hrecords : w'.recordOf = w.recordOf) : SeenFromBooks w i w' [] := by
  have hboth (key' : Pubkey) :
      w'.bookOf key' = w.bookOf key' ∧ w'.bidsOf key' = w.bidsOf key' := by
    by_cases hkey : key' = key
    · subst hkey
      rw [World.bookOf_insert hw', World.bidsOf_insert hw', World.bookOf, World.bidsOf, hnew]
      exact ⟨hfresh.book, hfresh.bids⟩
    · exact World.books_insert_ne hw' hkey
  exact .apart (fun key' => (hboth key').1) (fun key' => (hboth key').2) hrecords rfl

/-! ## Records stay -/

theorem BidMove.record_kept {c : TaskContext} {kind : BidKind} {book' : Option TaskBidBook}
    {bids' : Ledger Pubkey (Account TaskBid)} {bidder' : Option BidderMarketState}
    {ts : List Transfer} (h : BidMove c kind book' bids' bidder' ts) (hnone : bidder' = none) :
    c.bidder = none := by
  cases h with
  | created => cases hnone
  | updated => exact hnone
  | promoted => exact hnone
  | removed => cases hnone

theorem SettlesBid.record_kept {b : BidSide} {place : AcceptedBidBookDisposition}
    {disposition : AcceptedBidBondDisposition} {book' : Option TaskBidBook}
    {bids' : Ledger Pubkey (Account TaskBid)} {bidder' : Option BidderMarketState}
    {ts : List Transfer} (h : SettlesBid b place disposition book' bids' bidder' ts)
    (hnone : bidder' = Option.none) : b.bidder = Option.none := by
  cases h with
  | none => exact hnone
  | settled => cases hnone

/-- The settlement of a bid task really settles; that of another task changes nothing. -/
theorem SettlesBid.cases_type {b : BidSide} {place : AcceptedBidBookDisposition}
    {disposition : AcceptedBidBondDisposition} {book' : Option TaskBidBook}
    {bids' : Ledger Pubkey (Account TaskBid)} {bidder' : Option BidderMarketState}
    {ts : List Transfer} (h : SettlesBid b place disposition book' bids' bidder' ts) :
    b.taskType = .BidExclusive ∨
      book' = b.book ∧ bids' = b.bids ∧ bidder' = b.bidder ∧ ts = [] := by
  cases h with
  | none => exact .inr ⟨rfl, rfl, rfl, rfl⟩
  | settled type => exact .inl type

/-! ## Groups of instructions -/

section Groups

variable {w w' : World} {key k : Pubkey} {acc : TaskAccounts} {agent : Account AgentRegistration}
  {c : TaskContext} {i : Instruction}

/-- An instruction on a worker that leaves the bid side alone. -/
theorem LeavesBids.seen (h : LeavesBids (w.workContext key acc k agent) c)
    (hacc : w.tasks.lookup key = some acc) (hw' : w'.tasks = w.tasks.insert key c.accounts)
    (hrecords : w'.recordOf = (w.storeBidder k c.bidder).recordOf) :
    SeenFromBooks w i w' c.paid := by
  refine .of_same hw' hacc h.book h.bids ?_ h.paid
  rw [hrecords]
  exact World.storeBidder_recordOf_same (.inr h.bidder)

/-- An instruction on a worker that settles the accepted bid. -/
theorem SettlesBidOf.seen {place : AcceptedBidBookDisposition}
    {disposition : AcceptedBidBondDisposition}
    (h : SettlesBidOf place disposition (w.workContext key acc k agent) c)
    (hacc : w.tasks.lookup key = some acc) (hagent : w.agents.lookup k = some agent)
    (hw' : w'.tasks = w.tasks.insert key c.accounts)
    (hrecords : w'.recordOf = (w.storeBidder k c.bidder).recordOf)
    (hreopening : place = .Reopen → ∃ op, i = .work key k op ∧ (op.reopens = true ∨
      ∃ config, acc.validation = some config ∧ config.mode = .ValidatorQuorum))
    (hfull : disposition = .FullSlashToCreator →
      ∃ disputeKey signer signers assigned approved payees, i = .dispute key disputeKey k
        (.resolveDispute signer signers assigned approved payees)) :
    SeenFromBooks w i w' c.paid := by
  obtain ⟨ts, hsettles, hpaid⟩ := h
  have hpaid : bidPart c.paid = ts := hpaid
  rcases hsettles.cases_type with htype | ⟨hbook, hbids, hbidder, hts⟩
  · refine .of_move hw' hacc (hrecords.trans (World.storeBidder_recordOf hsettles.record_kept)) ?_
    rw [hpaid]
    exact .settled hagent htype hsettles hreopening hfull
  · refine .of_same hw' hacc hbook hbids ?_ (hpaid.trans hts)
    rw [hrecords]
    exact World.storeBidder_recordOf_same (.inr hbidder)

theorem WorkBids.seen {op : WorkOp} (h : WorkBids (w.workContext key acc k agent) c op)
    (hacc : w.tasks.lookup key = some acc) (hagent : w.agents.lookup k = some agent)
    (hw' : w'.tasks = w.tasks.insert key c.accounts)
    (hrecords : w'.recordOf = (w.storeBidder k c.bidder).recordOf) :
    SeenFromBooks w (.work key k op) w' c.paid := by
  cases h with
  | left leaves => exact leaves.seen hacc hw' hrecords
  | moved isKind moves =>
    obtain ⟨htype, book', bids', bidder', ts, hmove, rfl⟩ := moves
    refine .of_move hw' hacc (hrecords.trans (World.storeBidder_recordOf hmove.record_kept)) ?_
    have hts : bidPart ts = ts :=
      bidPart_eq_self fun t ht => (hmove.payments t ht).1
    exact hts.symm ▸ .moved hagent isKind htype hmove
  | accepted accepts paid =>
    obtain ⟨state, accepted, -, hrecord⟩ := accepts.bidder'
    refine .of_move hw' hacc (hrecords.trans (World.storeBidder_recordOf fun hnone => ?_)) ?_
    · rw [hrecord] at hnone
      cases hnone
    · rw [paid]
      exact .accepted hagent accepts
  | settled settles reopening bounded =>
    exact settles.seen hacc hagent hw' hrecords (fun hplace => ⟨op, rfl, reopening hplace⟩)
      fun hfull => absurd hfull bounded

theorem DisputeBids.seen {op : DisputeOp} {disputeKey : Pubkey}
    (h : DisputeBids (w.workContext key acc k agent) c op)
    (hacc : w.tasks.lookup key = some acc) (hagent : w.agents.lookup k = some agent)
    (hw' : w'.tasks = w.tasks.insert key c.accounts)
    (hrecords : w'.recordOf = (w.storeBidder k c.bidder).recordOf) :
    SeenFromBooks w (.dispute key disputeKey k op) w' c.paid := by
  cases h with
  | left leaves => exact leaves.seen hacc hw' hrecords
  | ruled settles =>
    exact settles.seen hacc hagent hw' hrecords nofun fun _ => ⟨_, _, _, _, _, _, rfl⟩
  | expired settles =>
    exact settles.seen hacc hagent hw' hrecords nofun fun hfull =>
      absurd hfull (acceptedBidNoShowBondDisposition_ne _)

end Groups

theorem TaskOp.run_bids {w w' : World} {key : Pubkey} {acc : TaskAccounts} {op : TaskOp}
    {c : TaskContext} (h : op.run (w.taskContext key acc) = .ok c)
    (hacc : w.tasks.lookup key = some acc) (hw' : w'.tasks = w.tasks.insert key c.accounts)
    (hrecords : w'.recordOf = w.recordOf) : SeenFromBooks w (.task key op) w' c.paid := by
  cases op with
  | configureTaskValidation signer mode reviewWindowSecs validatorQuorum attestor =>
    obtain ⟨_, -, -, -, -, -, rfl⟩ := configureTaskValidation_spec h
    exact .of_same hw' hacc rfl rfl hrecords rfl
  | setTaskJobSpec signer jobSpecHash =>
    obtain ⟨_, -, rfl⟩ := setTaskJobSpec_spec h
    exact .of_same hw' hacc rfl rfl hrecords rfl
  | initializeBidBook signer policy weights =>
    obtain ⟨_, book, hstatus, htype, hnone, hfresh, rfl⟩ := initializeBidBook_spec h
    exact .of_move hw' hacc hrecords (.opened hnone hstatus htype hfresh)
  | postCreatorBond signer prefunded =>
    have h : postCompletionBond (w.taskContext key acc) signer .Creator prefunded = .ok c := h
    obtain ⟨_, -, -, -, -, -, -, -, -, rfl⟩ := postCompletionBond_spec h
    exact .of_same hw' hacc rfl rfl hrecords rfl
  | reclaimCompletionBond party role =>
    obtain ⟨-, rfl⟩ := reclaimCompletionBond_spec h
    refine .of_same hw' hacc rfl rfl hrecords ?_
    rw [bidPart_append, bidPart_bondPayments, List.append_nil]
    rfl

theorem cancelTask_seen {w w' : World} {key signer : Pubkey} {acc : TaskAccounts}
    {workers : List Pubkey} {workerBondAuthority : Pubkey} {withParent : Bool}
    {base c : TaskContext} {agents' : Ledger Pubkey (Account AgentRegistration)}
    (hacc : w.tasks.lookup key = some acc)
    (hlisted : workers = [] ∧ base = w.taskContext key acc ∨
      ∃ first rest worker, workers = first :: rest ∧ w.agents.lookup first = some worker ∧
        base = w.workContext key acc first worker)
    (h : cancelTask base w.agents signer workers workerBondAuthority withParent
      = .ok (c, agents')) (hw' : w'.tasks = w.tasks.insert key c.accounts)
    (hrecords : w'.recordOf = (w.storeBidder base.workerKey c.bidder).recordOf) :
    SeenFromBooks w (.cancelTask key signer workers workerBondAuthority withParent) w'
      c.paid := by
  have hbidder : base.bidder = none ∨ base.bidder = w.recordOf base.workerKey := by
    rcases hlisted with ⟨-, rfl⟩ | ⟨_, _, _, -, -, rfl⟩
    · exact .inl rfl
    · exact .inr rfl
  obtain ⟨hkey, haccounts, hsys, -, hpaid, -⟩ := listed_context hlisted
  obtain ⟨escrow, vault', paidRefund, book', bids', bidder', penalty, h⟩ := cancelTask_spec h
  obtain ⟨paidBid, workerKey, claims', paidClaims, bonds', paidBond, -, -, -, hworkers, h⟩ := h
  obtain ⟨-, -, -, -, -, -, -, -, hrefund, hbid, -, hclaims, hbond, rfl⟩ := h
  rw [haccounts] at hbid hworkers
  have hbids : bidPart (base.paid ++ paidRefund ++ paidBid ++ paidClaims ++
      bondPayments base.key base.accounts.task.creator .Refund
        (base.accounts.bonds.lookup base.accounts.task.creator) ++ paidBond) = paidBid := by
    have hnoRefund : bidPart paidRefund = [] :=
      bidPart_eq_nil fun t ht => by rcases (hrefund t ht).1 with hs | hs <;> rw [hs] <;> rfl
    have hnoClaims : bidPart paidClaims = [] :=
      bidPart_eq_nil fun t ht => by obtain ⟨⟨_, -, hs⟩, -⟩ := hclaims t ht; rw [hs]; rfl
    simp only [bidPart_append, hpaid, hnoRefund, bidPart_cancelsBids hbid, hnoClaims,
      bidPart_bondPayments, bidPart_noShow hbond, List.append_nil, List.nil_append]
  cases hbid with
  | none type =>
    refine .of_same hw' hacc (by rw [← haccounts]; rfl) (by rw [← haccounts]; rfl) ?_ hbids
    exact hrecords.trans (World.storeBidder_recordOf_same hbidder)
  | unopened type idle book =>
    refine .of_same hw' hacc ?_ (by rw [← haccounts]; rfl) ?_ hbids
    · rw [← haccounts]
      exact book.symm
    · exact hrecords.trans (World.storeBidder_recordOf_same hbidder)
  | shut type idle opened =>
    refine .of_move hw' hacc (hrecords.trans (World.storeBidder_recordOf_same hbidder)) ?_
    rw [hbids]
    rcases hlisted with ⟨-, rfl⟩ | ⟨_, _, _, -, -, rfl⟩
    · exact .shut opened idle
    · exact .shut opened idle
  | settled busy settles =>
    rcases hlisted with ⟨rfl, rfl⟩ | ⟨first, rest, worker, rfl, hworker, rfl⟩
    · rw [← hworkers] at busy
      exact absurd busy (Nat.lt_irrefl 0)
    · rcases settles.cases_type with htype | ⟨hbook, hbids', hrecord, hts⟩
      · refine .of_move hw' hacc
          (hrecords.trans (World.storeBidder_recordOf settles.record_kept)) ?_
        rw [hbids]
        exact .settled hworker htype settles nofun fun hfull =>
          absurd hfull (acceptedBidNoShowBondDisposition_ne _)
      · refine .of_same hw' hacc hbook hbids' ?_ (hbids.trans hts)
        exact hrecords.trans (World.storeBidder_recordOf_same (.inr hrecord))

/-- A finished bid task is swept only when its book counts no bid. -/
theorem closeTask_seen {w w' : World} {key signer : Pubkey} {acc : TaskAccounts}
    {withJobSpec withEscrow : Bool} {workerBond : Option Pubkey} {children : List TaskChild}
    {c : TaskContext} (hacc : w.tasks.lookup key = some acc)
    (h : closeTask (w.taskContext key acc) w.agents signer withJobSpec withEscrow workerBond
      children = .ok c) (hw' : w'.tasks = w.tasks.insert key c.accounts)
    (hrecords : w'.recordOf = w.recordOf) :
    SeenFromBooks w (.closeTask key signer withJobSpec withEscrow workerBond children) w'
      c.paid := by
  have hempty : acc.task.taskType = .BidExclusive →
      ∀ book, acc.bidBook = some book → book.activeBids = 0 := by
    simp only [closeTask, bind_eq_ok, require_eq_ok] at h
    obtain ⟨_, -, _, -, _, -, _, -, _, hempty, -⟩ := h
    exact hempty
  obtain ⟨escrow', paidEscrow, jobSpec', submissions', validation', h⟩ := closeTask_spec h
  obtain ⟨attestor', ts, hstatus, -, -, hescrow, -, -, -, hts, rfl⟩ := h
  refine .of_move hw' hacc hrecords ?_
  have hnoEscrow : bidPart paidEscrow = [] := by
    rcases hescrow with ⟨-, rfl⟩ | ⟨escrow, -, -, -, rfl⟩ <;> rfl
  have hnoChildren : bidPart ts = [] :=
    bidPart_eq_nil fun t ht => by obtain ⟨⟨_, hs⟩, -⟩ := hts t ht; rw [hs]; rfl
  have hpaid : bidPart ((w.taskContext key acc).paid ++ paidEscrow ++ ts) = [] := by
    rw [bidPart_append, bidPart_append, hnoEscrow, hnoChildren]
    rfl
  rw [hpaid]
  exact .swept hstatus hempty

theorem Credits.seen {w w' : World} {key : Pubkey} {amount : ℕ} {target : Custody}
    {acc acc' : TaskAccounts} (h : Credits key amount acc target acc')
    (hacc : w.tasks.lookup key = some acc) (hw' : w'.tasks = w.tasks.insert key acc')
    (hrecords : w'.recordOf = w.recordOf) : SeenFromBooks w (.donate target amount) w' [] := by
  cases h with
  | bid loaded => exact .of_move hw' hacc hrecords (.donated loaded)
  | escrow => exact .of_same hw' hacc rfl rfl hrecords rfl
  | tokenEscrow => exact .of_same hw' hacc rfl rfl hrecords rfl
  | claim => exact .of_same hw' hacc rfl rfl hrecords rfl
  | submission => exact .of_same hw' hacc rfl rfl hrecords rfl
  | bond => exact .of_same hw' hacc rfl rfl hrecords rfl

/-- Every step, seen from the bid books. -/
theorem Step.books {w w' : World} {i : Instruction} {ts : List Transfer}
    (h : Step w (i, ts) w') : SeenFromBooks w i w' ts := by
  cases h.does with
  | ticked later => exact .of_tasks rfl rfl rfl
  | donatedAgent outside credits => exact .of_tasks rfl rfl rfl
  | donatedTask inside loaded credits => exact credits.seen loaded rfl rfl
  | administered ran =>
    have hadmin := AdminOp.run_spec ran
    exact .of_tasks hadmin.tasks (World.recordOf_congr hadmin.bidders) rfl
  | agent ran =>
    obtain ⟨⟨_, _, -, rfl⟩, hts⟩ := AgentOp.run_spec ran
    refine .of_tasks rfl rfl (bidPart_eq_nil fun t ht => ?_)
    rw [(hts t ht).1]
    rfl
  | created ran =>
    obtain ⟨hnew, acc, _, _, _, hfresh, rfl⟩ := CreateOp.run_spec ran
    exact .of_fresh rfl hnew hfresh rfl
  | task loaded ran =>
    refine TaskOp.run_bids ran loaded ?_ rfl
    rw [World.storeTask_tasks, (TaskOp.run_frames ran).key]
    rfl
  | work loaded found ran rent =>
    have hframes := WorkOp.run_frames ran
    refine (WorkOp.run_bids ran).seen loaded found ?_ ?_
    · rw [World.storeWork_tasks, hframes.key]
      rfl
    · rw [World.storeWork_recordOf, hframes.workerKey]
      rfl
  | cancelled loaded listed ran =>
    have hframes := cancelTask_frames ran
    obtain ⟨hkey, -, -, -, hpaid, -⟩ := listed_context listed
    refine cancelTask_seen loaded listed ran ?_ ?_
    · rw [World.storeTask_tasks, hframes.key, hkey, World.storeBidder_tasks]
    · rw [World.storeTask_recordOf]
      exact World.storeBidder_congr rfl
  | closed loaded ran =>
    refine closeTask_seen loaded ran ?_ rfl
    rw [World.storeTask_tasks, (closeTask_frames ran).key]
    rfl
  | disputed ran =>
    obtain ⟨acc, _, _, _, -, hacc, -, -, -, -, -, -, -, -, -, rfl⟩ := initiateDispute_spec ran
    exact .of_same rfl hacc rfl rfl rfl rfl
  | ruled loaded found filed about ran rent =>
    have hframes := (DisputeOp.run_frames ran).1
    refine (DisputeOp.run_bids ran).seen loaded found ?_ ?_
    · change (w.storeWork _).tasks = _
      rw [World.storeWork_tasks, hframes.key]
      rfl
    · change (w.storeWork _).recordOf = _
      rw [World.storeWork_recordOf, hframes.workerKey]
      rfl
  | finalized ran =>
    obtain ⟨_, _, _, _, -, -, -, -, -, -, -, -, rfl, rfl⟩ := applyInitiatorSlash_spec ran
    exact .of_tasks rfl rfl rfl
  | repaired ran =>
    obtain ⟨_, _, -, -, -, -, -, -, rfl⟩ := repairDisputeInitiatorCounter_spec ran
    exact .of_tasks rfl rfl rfl

end AgencCoordination
