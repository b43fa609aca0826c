import AgencCoordination.Program.Completion

/-!
# Completion bonds and accepted bids

`settleCompletionBond` (`bond_helpers.rs`) and the settlement of an accepted bid
(`bid_settlement_helpers.rs`). Both close an account that holds somebody's money, so both
return the payments they make.
-/

namespace AgencCoordination

open Foundations

/-! ## Completion bonds -/

/-- `BondDisposition`: back to the poster, or the principal to a recipient. -/
inductive BondDisposition
  | Refund
  | Forfeit (recipient : Pubkey) (purpose : Purpose)
  deriving DecidableEq

/-- `settle_completion_bond` on the bond account of `poster`: nothing happens when no bond is
posted; otherwise the account is emptied and gone. -/
def settleCompletionBond (c : TaskContext) (poster : Pubkey) (expectedRole : BondRole)
    (disposition : BondDisposition) : Result TaskContext :=
  match c.accounts.bonds.lookup poster with
  | none => .ok c
  | some bond => do
      require (bond.data.role = expectedRole) .BondRoleMismatch
      let gone := { c with accounts := { c.accounts with bonds := c.accounts.bonds.erase poster } }
      match disposition with
      | .Refund => .ok (gone.pay [⟨.bond c.key poster, poster, .bondRefund, bond.lamports⟩])
      | .Forfeit recipient purpose => do
          let rest ← subU bond.lamports bond.data.amount
          .ok (gone.pay [⟨.bond c.key poster, recipient, purpose, bond.data.amount⟩,
            ⟨.bond c.key poster, poster, .bondRefund, rest⟩])

/-- The bond a role must lock: a quarter of the reward. -/
def completionBondAmount (task : Task) : ℕ := bpsOf task.rewardAmount bondBps

/-- `post_completion_bond`: a role's party locks its bond on an exclusive task. -/
def postCompletionBond (c : TaskContext) (signer : Pubkey) (role : BondRole) (prefunded : ℕ) :
    Result TaskContext := do
  require (c.accounts.bonds.lookup signer = none) .AccountAlreadyInUse
  checkVersionCompatible c.config
  require (dependencyParentCompleted c = true) .ParentTaskNotCompleted
  require (c.task.taskType = .Exclusive) .BondUnsupportedTaskType
  require (c.task.status = .Open ∨ c.task.status = .InProgress ∨
    c.task.status = .PendingValidation) .InvalidStatusTransition
  match role with
  | .Creator => require (signer = c.task.creator) .BondPartyMismatch
  | .Worker => do
      require (c.task.status = .InProgress ∨ c.task.status = .PendingValidation)
        .InvalidStatusTransition
      let claim ← demand (c.accounts.claims.lookup c.workerKey) .BondPartyMismatch
      require (c.worker.data.retired = false ∧
        (c.worker.data.status = .Active ∨ c.worker.data.status = .Busy) ∧
        c.worker.data.authority = signer) .BondPartyMismatch
      require (claim.data.isCompleted = false ∧ c.sys.now < claim.data.expiresAt)
        .BondPartyMismatch
  require (c.task.rewardMint = none) .BondUnsupportedTaskType
  require (c.task.constraintHash = 0 ∨ c.task.constraintHash = manualValidationSentinel)
    .BondUnsupportedTaskType
  let amount := completionBondAmount c.task
  .ok { c with accounts := { c.accounts with
    bonds := c.accounts.bonds.insert signer
      ⟨max (c.sys.rent.minimumBalance completionBondSize) prefunded + amount,
        { role := role, amount := amount, postedAt := c.sys.now }⟩ } }

/-- `reclaim_completion_bond`: anybody may return a bond to its poster once the task is
terminal. -/
def reclaimCompletionBond (c : TaskContext) (party : Pubkey) (role : BondRole) :
    Result TaskContext := do
  require (c.task.status = .Completed ∨ c.task.status = .Cancelled) .InvalidStatusTransition
  settleCompletionBond c party role .Refund

/-! ## Accepted bids -/

/-- `AcceptedBidBookDisposition`. -/
inductive AcceptedBidBookDisposition
  | Close
  | Reopen
  deriving DecidableEq

/-- `AcceptedBidBondDisposition`. -/
inductive AcceptedBidBondDisposition
  | Refund
  | FullSlashToCreator
  | SnapshottedNoShowSlashToCreator
  deriving DecidableEq

/-- `accepted_bid_no_show_bond_disposition`. -/
def acceptedBidNoShowBondDisposition (noShowPenaltyAllowed : Bool) : AcceptedBidBondDisposition :=
  if noShowPenaltyAllowed then .SnapshottedNoShowSlashToCreator else .Refund

/-- `load_accepted_bid_settlement_accounts`: the book, the accepted bid of the context's worker,
and the worker's bidder record. -/
def loadAcceptedBid (c : TaskContext) :
    Result (TaskBidBook × Account TaskBid × BidderMarketState) := do
  let book ← demand c.accounts.bidBook .AccountNotInitialized
  let bid ← demand (c.accounts.bids.lookup c.workerKey) .AccountNotInitialized
  let bidder ← demand c.bidder .AccountNotInitialized
  require (book.state = .Accepted) .BidBookNotAccepted
  require (bid.data.state = .Accepted) .BidBookNotAccepted
  require (book.acceptedBid = some c.workerKey) .BidBookNotAccepted
  .ok (book, bid, bidder)

/-- `apply_bid_book_disposition`. -/
def applyBidBookDisposition (book : TaskBidBook) (now : ℤ)
    (disposition : AcceptedBidBookDisposition) : Result TaskBidBook := do
  let active ← subU book.activeBids 1
  let version ← addU64 book.version 1
  match disposition with
  | .Close => .ok { book with
      activeBids := active, state := .Closed, version := version, updatedAt := now }
  | .Reopen => .ok { book with
      activeBids := active, state := .Open, acceptedBid := none, version := version
      updatedAt := now }

/-- `decrement_bidder_active_bid_count`. -/
def decrementBidderActiveBidCount (bidder : BidderMarketState) : Result BidderMarketState := do
  let active ← subU bidder.activeBidCount 1
  .ok { bidder with activeBidCount := active }

/-- The part of an accepted bid's bond that goes to the creator. -/
def bidBondSlash (bid : TaskBid) : AcceptedBidBondDisposition → Result ℕ
  | .Refund => .ok 0
  | .FullSlashToCreator => .ok bid.bondLamports
  | .SnapshottedNoShowSlashToCreator => do
      require (bid.acceptedNoShowSlashBps ≤ 10000) .InvalidInput
      .ok (bid.bondLamports * bid.acceptedNoShowSlashBps / 10000)

/-- Why a disposition slashes, for the payment record. -/
def bidBondPurpose : AcceptedBidBondDisposition → Purpose
  | .Refund => .bondRefund
  | .FullSlashToCreator => .bondForfeit
  | .SnapshottedNoShowSlashToCreator => .noShowForfeit

/-- `settle_accepted_bid`: slash, settle the book and the bidder's count, close the bid to its
bidder's wallet. -/
def settleAcceptedBid (c : TaskContext) (bidderAuthority : Pubkey)
    (bookDisposition : AcceptedBidBookDisposition)
    (bondDisposition : AcceptedBidBondDisposition) : Result TaskContext := do
  let (book, bid, bidder) ← loadAcceptedBid c
  require (bid.data.bidderAuthority = bidderAuthority) .UnauthorizedAgent
  let slash ← bidBondSlash bid.data bondDisposition
  let rest ← subU bid.lamports slash
  let book ← applyBidBookDisposition book c.sys.now bookDisposition
  let bidder ← decrementBidderActiveBidCount bidder
  .ok ({ c with
    accounts := { c.accounts with
      bidBook := some book, bids := c.accounts.bids.erase c.workerKey }
    bidder := some bidder }.pay
    [⟨.bid c.key c.workerKey, c.task.creator, bidBondPurpose bondDisposition, slash⟩,
      ⟨.bid c.key c.workerKey, bidderAuthority, .bondRefund, rest⟩])

/-- `load_bid_task_completion_meta`: the price a bid task settles at. -/
def loadBidTaskCompletionMeta (c : TaskContext) : Result (Option ℕ) :=
  if c.task.taskType = .BidExclusive then do
    let (_, bid, _) ← loadAcceptedBid c
    .ok (some bid.data.requestedRewardLamports)
  else .ok none

/-- `finalize_bid_task_completion`: the bond goes back and the book closes. -/
def finalizeBidTaskCompletion (c : TaskContext) : Result TaskContext :=
  if c.task.taskType = .BidExclusive then do
    let (_, bid, _) ← loadAcceptedBid c
    settleAcceptedBid c bid.data.bidderAuthority .Close .Refund
  else .ok c

/-- `close_bid_book_without_accepted_bid`. -/
def closeBidBookWithoutAcceptedBid (c : TaskContext) : Result TaskContext :=
  match c.accounts.bidBook with
  | none => .ok c
  | some book => do
      let version ← addU64 book.version 1
      .ok { c with accounts := { c.accounts with
        bidBook := some { book with
          state := .Closed, version := version, updatedAt := c.sys.now } } }

end AgencCoordination
