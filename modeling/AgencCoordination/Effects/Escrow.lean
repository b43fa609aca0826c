import AgencCoordination.Effects.Steps

/-!
# Escrows, step by step

Every step of the program, seen from the escrow of one task: what the escrow is afterwards, and
what it pays.

* **`EscrowMove`** — the ways one instruction changes the escrow of a task.
* **`TaskMove.escrow`** — every instruction on a task makes one of these moves.
-/

namespace AgencCoordination

open Foundations

/-! ## Payments out of other accounts -/

section Outside

variable {key k : Pubkey} {ts : List Transfer}

theorem Outside.nil : Outside key [] := by simp [Outside]

theorem outside_bondPayments {poster : Pubkey} {disposition : BondDisposition}
    {bond : Option (Account CompletionBond)} :
    Outside key (bondPayments k poster disposition bond) := by
  intro t ht
  rw [bondPayments_source t ht]
  rfl

theorem SettlesBid.outside {b : BidSide} {place : AcceptedBidBookDisposition}
    {disposition : AcceptedBidBondDisposition} {book' : Option TaskBidBook}
    {bids' : Ledger Pubkey (Account TaskBid)} {bidder' : Option BidderMarketState}
    (h : SettlesBid b place disposition book' bids' bidder' ts) : Outside key ts := by
  intro t ht
  rw [(h.payments t ht).1]
  rfl

theorem CancelsBids.outside {b : BidSide} {workers : ℕ} {penalty : Bool}
    {book' : Option TaskBidBook} {bids' : Ledger Pubkey (Account TaskBid)}
    {bidder' : Option BidderMarketState} (h : CancelsBids b workers penalty book' bids' bidder' ts) :
    Outside key ts := by
  intro t ht
  rw [h.payments t ht]
  rfl

theorem ClosesWorkerAccounts.outside {c : TaskContext} (h : ClosesWorkerAccounts c ts) :
    Outside key ts := by
  intro t ht
  rcases (h t ht).1 with hsource | hsource <;> rw [hsource] <;> rfl

theorem SettlesNoShow.outside {poster creator : Pubkey} {penalty : Prop}
    {bonds bonds' : Ledger Pubkey (Account CompletionBond)}
    (h : SettlesNoShow k poster creator penalty bonds bonds' ts) : Outside key ts := by
  intro t ht
  rw [h.source t ht]
  rfl

theorem outside_claimClosings {c : TaskContext} {recipient : Pubkey} {claim : Account TaskClaim}
    {forfeited : ℕ} : Outside key (claimClosings c recipient claim forfeited) := by
  intro t ht
  rw [claimClosings_source t ht]
  rfl

theorem outside_claimClosing {c : TaskContext} {amount : ℕ} :
    Outside key [claimClosing c amount] := by
  simp [Outside, claimClosing, Custody.isEscrow]

theorem outside_submissionClosing {c : TaskContext} {amount : ℕ} :
    Outside key [submissionClosing c amount] := by
  simp [Outside, submissionClosing, Custody.isEscrow]

end Outside

/-! ## Moves -/

/-- The gross amount of one settlement, and whether it is the task's last: a completion at the
worker's share or the accepted bid's price, or a slice of an abandoned contest. -/
inductive GrossOf (t : Till) (task : Task) : ℕ → Bool → Prop
  | completion {gross : ℕ} {price : Option ℕ} (gross_eq : completionGross task price = .ok gross)
      (unpriced : task.taskType ≠ .BidExclusive → price = none) :
      GrossOf t task gross (completesTask task)
  | slice {escrow : Account TaskEscrow} (loaded : t.escrow = some escrow)
      (live : 0 < task.liveSubmissions) :
      GrossOf t task ((escrow.data.amount - escrow.data.distributed) / task.liveSubmissions)
        (decide (task.liveAfterLeaving = 0))

/-- The ways one instruction changes the escrow of a task, and what it pays. -/
inductive EscrowMove (t : Till) (payees : PayeeAccounts) (task : Task) :
    Option (Account TaskEscrow) → List Transfer → Prop
  | kept {ts : List Transfer} (outside : Outside t.key ts) : EscrowMove t payees task t.escrow ts
  | donated {escrow : Account TaskEscrow} {amount : ℕ} (loaded : t.escrow = some escrow) :
      EscrowMove t payees task (some { escrow with lamports := escrow.lamports + amount }) []
  | settled {gross : ℕ} {completed : Bool} {escrow' : Option (Account TaskEscrow)}
      {vault' : Option ℕ} {ts us : List Transfer} (gross_of : GrossOf t task gross completed)
      (settles : Settles t payees gross completed escrow' vault' ts) (outside : Outside t.key us) :
      EscrowMove t payees task escrow' (ts ++ us)
  | cleaned {escrow : Account TaskEscrow} {reward : ℕ} {caller : Pubkey} {us : List Transfer}
      (loaded : t.escrow = some escrow) (within : escrow.data.distributed ≤ escrow.data.amount)
      (reward_eq : reward = cleanupRewardForTask t.mint.isSome
        (escrow.data.amount - escrow.data.distributed))
      (covered : reward ≤ escrow.lamports) (outside : Outside t.key us) :
      EscrowMove t payees task (some ⟨escrow.lamports - reward,
          { escrow.data with distributed := escrow.data.distributed + reward }⟩)
        (⟨.escrow t.key, caller, .cleanupReward, reward⟩ :: us)
  | emptied {escrow : Account TaskEscrow} {escrow' : Option (Account TaskEscrow)}
      {ts us : List Transfer} (loaded : t.escrow = some escrow)
      (within : escrow.data.distributed ≤ escrow.data.amount)
      (empties : EmptiesEscrow t payees escrow escrow' ts) (outside : Outside t.key us) :
      EscrowMove t payees task escrow' (ts ++ us)
  | refunded {escrow : Account TaskEscrow} {us : List Transfer} (mint : t.mint = none)
      (loaded : t.escrow = some escrow) (within : escrow.data.distributed ≤ escrow.data.amount)
      (covered : escrow.data.amount - escrow.data.distributed ≤ escrow.lamports)
      (outside : Outside t.key us) :
      EscrowMove t payees task none
        (⟨.escrow t.key, t.creator, .creatorRefund,
            escrow.data.amount - escrow.data.distributed⟩ ::
          closeEscrowTransfer t.key t.creator
            (escrow.lamports - (escrow.data.amount - escrow.data.distributed)) :: us)
  | returned {escrow : Account TaskEscrow} {us vs : List Transfer}
      (loaded : t.escrow = some escrow)
      (ended : task.status = .RejectFrozen ∨ escrow.data.isClosed = true)
      (before : Outside t.key us) (outside : Outside t.key vs) :
      EscrowMove t payees task none
        (us ++ closeEscrowTransfer t.key t.creator escrow.lamports :: vs)
  | token {escrow' : Option (Account TaskEscrow)} {ts : List Transfer} (mint : t.mint ≠ none)
      (free : ∀ x ∈ ts, x.source.isEscrow t.key = true →
        x.purpose ≠ .operatorFee ∧ x.purpose ≠ .referrerFee) : EscrowMove t payees task escrow' ts

/-- A handler that makes one move on the escrow. -/
def MovesEscrow (payees : PayeeAccounts) (c c' : TaskContext) : Prop :=
  ∃ t ts, (t = c.till ∨ t = c.snapshotTill) ∧ c'.paid = c.paid ++ ts ∧
    EscrowMove t payees c.accounts.task c'.accounts.escrow ts

/-- The accounts a caller passes for the marketplace's payees. -/
def WorkOp.payees : WorkOp → PayeeAccounts
  | .acceptTaskResult _ payees | .autoAcceptTaskResult payees | .resolveRejectFrozen _ _ payees
  | .expireRejectFrozen payees | .completeTask _ _ _ payees | .distributeGhostShare payees => payees
  | _ => {}

def DisputeOp.payees : DisputeOp → PayeeAccounts
  | .resolveDispute _ _ _ _ payees => payees
  | _ => {}

def Instruction.payees : Instruction → PayeeAccounts
  | .work _ _ op => op.payees
  | .dispute _ _ _ op => op.payees
  | _ => {}

/-- The payments after a handler: those before, then `ts`, then payments out of other accounts. -/
def PaysFirst (key : Pubkey) (ts paid paid' : List Transfer) : Prop :=
  ∃ us, paid' = paid ++ (ts ++ us) ∧ Outside key us

namespace PaysFirst

variable {key : Pubkey} {ts us paid paid' : List Transfer}

theorem first (key : Pubkey) (ts paid : List Transfer) : PaysFirst key ts paid (paid ++ ts) :=
  ⟨[], by rw [List.append_nil], Outside.nil⟩

theorem none (key : Pubkey) (paid : List Transfer) : PaysFirst key [] paid paid :=
  ⟨[], by rw [List.append_nil, List.append_nil], Outside.nil⟩

theorem append (h : PaysFirst key ts paid paid') (hus : Outside key us) :
    PaysFirst key ts paid (paid' ++ us) := by
  obtain ⟨vs, rfl, hvs⟩ := h
  exact ⟨vs ++ us, by simp only [List.append_assoc], hvs.append hus⟩

end PaysFirst

section Handlers

variable {c c' : TaskContext} {config : TaskValidationConfig} {payees : PayeeAccounts}

/-- A handler whose payments out of the escrow come first. -/
theorem MovesEscrow.of_pays {t : Till} {ts : List Transfer}
    (hpays : PaysFirst c.key ts c.paid c'.paid) (ht : t = c.till ∨ t = c.snapshotTill)
    (hmove : ∀ us, Outside c.key us →
      EscrowMove t payees c.accounts.task c'.accounts.escrow (ts ++ us)) :
    MovesEscrow payees c c' := by
  obtain ⟨us, hpaid, hus⟩ := hpays
  exact ⟨t, ts ++ us, ht, hpaid, hmove us hus⟩

/-- A handler that pays out of other accounts only. -/
theorem MovesEscrow.of_kept (hpays : PaysFirst c.key [] c.paid c'.paid)
    (hescrow : c'.accounts.escrow = c.accounts.escrow) : MovesEscrow payees c c' :=
  .of_pays hpays (.inl rfl) fun _ hus => hescrow ▸ .kept (t := c.till) hus

/-- A handler that pays nothing. -/
theorem MovesEscrow.of_unpaid (hescrow : c'.accounts.escrow = c.accounts.escrow)
    (hpaid : c'.paid = c.paid) : MovesEscrow payees c c' :=
  .of_kept (hpaid ▸ .none _ _) hescrow

/-- A handler on a token task, where no operator and no referrer is paid. -/
theorem MovesEscrow.of_token {ts : List Transfer} (hmint : c.accounts.task.rewardMint ≠ none)
    (hpays : PaysFirst c.key ts c.paid c'.paid)
    (hts : ∀ t ∈ ts, t.purpose ≠ .operatorFee ∧ t.purpose ≠ .referrerFee) :
    MovesEscrow payees c c' := by
  refine .of_pays hpays (.inl rfl) fun us hus => .token hmint fun x hx hsource => ?_
  rcases List.mem_append.mp hx with hx | hx
  · exact hts x hx
  · have hout : x.source.isEscrow c.key = false := hus x hx
    rw [show c.till.key = c.key from rfl, hout] at hsource
    cases hsource

theorem TouchesBids.escrow (h : TouchesBids c c') : MovesEscrow payees c c' := by
  obtain ⟨_, _, _, _, ts, -, hts, rfl, rfl⟩ := h
  refine .of_kept ((PaysFirst.none _ _).append fun t ht => ?_) rfl
  rw [(hts t ht).1]
  rfl

theorem Occupies.escrow {expiresAt : ℤ} (h : Occupies c expiresAt c') :
    MovesEscrow payees c c' := by
  obtain ⟨_, _, _, _, _, _, _, _, _, rfl, -⟩ := h
  exact .of_unpaid rfl rfl

theorem PaysAccepted.escrow (h : PaysAccepted c config payees c') : MovesEscrow payees c c' := by
  obtain ⟨claim, stored, gross, price, escrow', vault', paidReward, book', bids', bidder',
    paidBid, votes', -, -, -, -, -, hgross, hprice, hsettles, hbid, _, _, _, _, _, _, _, _,
    rfl⟩ := h
  refine .of_pays ((((((PaysFirst.first _ paidReward _).append hbid.outside).append
    outside_claimClosing).append outside_submissionClosing).append outside_bondPayments).append
      outside_bondPayments) (.inl rfl) fun us hus => ?_
  exact .settled (.completion hgross hprice) hsettles hus

theorem RejectsClaim.escrow (h : RejectsClaim c config c') : MovesEscrow payees c c' := by
  obtain ⟨claim, submissions', votes', book', bids', bidder', paidBid, closings, -, -, -, -, -,
    hbid, hcloses, rfl⟩ := h
  exact .of_kept ((((PaysFirst.none _ _).append hbid.outside).append
    outside_bondPayments).append hcloses.outside) rfl

theorem PaysFrozen.escrow {disposition : BondDisposition} (h : PaysFrozen c payees disposition c') :
    MovesEscrow payees c c' := by
  obtain ⟨claim, stored, gross, escrow', vault', paidReward, -, -, -, -, -, hgross, h⟩ := h
  obtain ⟨hsettles, -, _, _, _, _, _, _, _, _, rfl⟩ := h
  refine .of_pays (((((PaysFirst.first _ paidReward _).append outside_bondPayments).append
    outside_bondPayments).append outside_claimClosing).append outside_submissionClosing)
      (.inl rfl) fun us hus => ?_
  exact .settled (.completion hgross fun _ => rfl) hsettles hus

theorem CancelsFrozen.escrow (h : CancelsFrozen c c') : MovesEscrow payees c c' := by
  obtain ⟨claim, stored, escrow, -, -, hstatus, hescrow, -, -, -, rfl⟩ := h
  have hbefore : Outside c.key (bondPayments c.key c.worker.data.authority
      (.Forfeit c.config.treasury .bondForfeit)
      (c.accounts.bonds.lookup c.worker.data.authority) ++
    bondPayments c.key c.accounts.task.creator .Refund
      ((c.accounts.bonds.erase c.worker.data.authority).lookup c.accounts.task.creator)) :=
    outside_bondPayments.append outside_bondPayments
  have hafter : Outside c.key ([claimClosing c claim.lamports] ++
      [submissionClosing c stored.lamports]) :=
    outside_claimClosing.append outside_submissionClosing
  refine ⟨c.till, _, .inl rfl, ?_, .returned (t := c.till) hescrow (.inl hstatus) hbefore hafter⟩
  simp only [List.append_assoc]
  rfl

theorem completeTask_escrow {signer : Pubkey} {proofHash : Hash} {resultData : Option ℕ}
    (h : completeTask c signer proofHash resultData payees = .ok c') : MovesEscrow payees c c' := by
  obtain ⟨claim, gross, price, escrow', vault', paidReward, book', bids', h⟩ := completeTask_spec h
  obtain ⟨bidder', paidBid, -, -, -, -, -, hgross, hprice, hsettles, hbid, h⟩ := h
  obtain ⟨_, _, _, _, _, _, _, _, rfl⟩ := h
  refine .of_pays (((((PaysFirst.first _ paidReward _).append hbid.outside).append
    outside_claimClosing).append outside_bondPayments).append outside_bondPayments)
      (.inl rfl) fun us hus => ?_
  exact .settled (.completion hgross hprice) hsettles hus

theorem expireClaim_escrow {caller : Pubkey} {withSubmission : Bool}
    (h : expireClaim c caller withSubmission = .ok c') : MovesEscrow payees c c' := by
  obtain ⟨claim, escrow, reward, forfeited, book', bids', bidder', h⟩ := expireClaim_spec h
  obtain ⟨paidBid, bonds', paidBond, -, -, -, -, -, -, -, hescrow, hle, hreward, h⟩ := h
  obtain ⟨hcovered, hbid, hbond, rfl⟩ := h
  refine .of_pays ((((PaysFirst.first _ [⟨.escrow c.key, caller, .cleanupReward, reward⟩]
    _).append hbid.outside).append hbond.outside).append outside_claimClosings)
      (.inl rfl) fun us hus => ?_
  exact .cleaned (t := c.till) hescrow hle hreward hcovered hus

theorem distributeGhostShare_escrow (h : distributeGhostShare c payees = .ok c') :
    MovesEscrow payees c c' := by
  obtain ⟨config, submission, claim, escrow, escrow', paidReward, h⟩ :=
    distributeGhostShare_spec h
  obtain ⟨-, -, -, -, -, -, hescrow, -, hlive, -, -, -, h⟩ := h
  obtain ⟨hsettles, _, _, _, _, _, _, rfl⟩ := h
  refine .of_pays (((PaysFirst.first _ paidReward _).append outside_submissionClosing).append
    outside_claimClosing) (.inr rfl) fun us hus => ?_
  exact .settled (.slice hescrow hlive) hsettles hus

theorem WorkOp.run_escrow {w : World} {op : WorkOp} (h : op.run w c = .ok c') :
    MovesEscrow op.payees c c' := by
  cases op with
  | claimTaskWithJobSpec signer prefunded =>
    obtain ⟨_, -, -, -, -, -, hoccupies⟩ := claimTaskWithJobSpec_spec h
    exact hoccupies.escrow
  | createBid signer terms prefunded => exact (createBid_spec h).touches.escrow
  | updateBid signer terms => exact (updateBid_spec h).touches.escrow
  | cancelBid signer => exact (cancelBid_spec h).touches.escrow
  | expireBid => exact (expireBid_spec h).touches.escrow
  | promoteBid => exact (promoteBid_spec h).touches.escrow
  | demoteIneligibleBest => exact (demoteIneligibleBest_spec h).touches.escrow
  | acceptBid signer expectedBidTermsHash prefunded =>
    obtain ⟨_, _, _, -, -, -, -, hoccupies⟩ := acceptBid_spec h
    exact hoccupies.escrow
  | postWorkerBond signer prefunded =>
    have h : postCompletionBond c signer .Worker prefunded = .ok c' := h
    obtain ⟨_, -, -, -, -, -, -, -, -, rfl⟩ := postCompletionBond_spec h
    exact .of_unpaid rfl rfl
  | submitTaskResult signer proofHash resultData prefunded =>
    obtain ⟨_, _, _, -, -, -, -, -, -, -, _, _, rfl⟩ := submitTaskResult_spec h
    exact .of_unpaid rfl rfl
  | acceptTaskResult signer payees =>
    obtain ⟨_, _, -, -, -, -, hpays⟩ := acceptTaskResult_spec h
    exact hpays.escrow
  | autoAcceptTaskResult payees =>
    obtain ⟨_, _, -, -, -, hpays⟩ := autoAcceptTaskResult_spec h
    exact hpays.escrow
  | rejectTaskResult signer rejectionHash =>
    obtain ⟨_, _, -, -, -, -, hrejects⟩ := rejectTaskResult_spec h
    exact hrejects.escrow
  | requestChanges signer changesHash =>
    obtain ⟨_, _, _, _, _, -, -, -, -, -, -, rfl⟩ := requestChanges_spec h
    exact .of_unpaid rfl rfl
  | validateTaskResult reviewer validator approved =>
    obtain ⟨_, _, -, -, hpays | ⟨hrejects, -⟩ | ⟨_, _, -, rfl⟩⟩ := validateTaskResult_spec h
    · exact hpays.escrow
    · exact hrejects.escrow
    · exact .of_unpaid rfl rfl
  | rejectAndFreeze signer rejectionHash =>
    obtain ⟨_, _, _, -, -, -, -, -, rfl⟩ := rejectAndFreeze_spec h
    exact .of_unpaid rfl rfl
  | resolveRejectFrozen signers approveCompletion payees =>
    obtain ⟨_, hpays⟩ | hcancels := resolveRejectFrozen_spec h
    · exact hpays.escrow
    · exact hcancels.escrow
  | expireRejectFrozen payees => exact (expireRejectFrozen_spec h).escrow
  | completeTask signer proofHash resultData payees => exact completeTask_escrow h
  | expireClaim caller withSubmission => exact expireClaim_escrow h
  | distributeGhostShare payees => exact distributeGhostShare_escrow h
  | reclaimTerminalClaim =>
    obtain ⟨_, _, _, closings, -, -, -, -, -, -, hcloses, rfl⟩ := reclaimTerminalClaim_spec h
    exact .of_kept ((PaysFirst.none _ _).append hcloses.outside) rfl

theorem DisputeOp.run_escrow {w : World} {op : DisputeOp} {d d' : Dispute}
    (h : op.run w c d = .ok (c', d')) : MovesEscrow op.payees c c' := by
  cases op with
  | cancelDispute signer =>
    obtain ⟨_, _, -, -, -, -, -, rfl, rfl⟩ := cancelDispute_spec h
    exact .of_unpaid rfl rfl
  | resolveDispute signer signers withAssignment approved payees =>
    obtain ⟨claim, escrow, escrow', vault', paidRuling, book', bids', h⟩ := resolveDispute_spec h
    obtain ⟨bidder', paidBid, live, validation', closings, paidClaim, creatorSide, h⟩ := h
    obtain ⟨workerSide, -, -, -, -, hescrow, hle, hempties, hbid, -, hcloses, hclose, h⟩ := h
    obtain ⟨_, _, _, _, _, _, _, -, -, rfl, rfl⟩ := h
    refine .of_pays ((((((PaysFirst.first _ paidRuling _).append hbid.outside).append
      hcloses.outside).append hclose.outside).append outside_bondPayments).append
        outside_bondPayments) (.inl rfl) fun us hus => ?_
    exact .emptied (t := c.till) hescrow hle hempties hus
  | expireDispute =>
    obtain ⟨claim, escrow, escrow', vault', paidRefund, live, validation', h⟩ := expireDispute_spec h
    obtain ⟨closings, penalty, book', bids', bidder', paidBid, bonds', paidBond, h⟩ := h
    obtain ⟨-, -, -, -, hescrow, hle, hempties, -, hcloses, -, hbid, hbond, rfl, rfl⟩ := h
    refine .of_pays ((((((PaysFirst.first _ paidRefund _).append hcloses.outside).append
      hbid.outside).append outside_claimClosings).append outside_bondPayments).append
        hbond.outside) (.inl rfl) fun us hus => ?_
    exact .emptied (t := c.till) hescrow hle hempties hus
  | settleDisputeClaim =>
    obtain ⟨claim, live, validation', closings, _, _, _, h⟩ := settleDisputeClaim_spec h
    obtain ⟨-, -, -, -, -, -, -, hcloses, -, -, -, rfl, rfl⟩ := h
    exact .of_kept (((PaysFirst.none _ _).append hcloses.outside).append
      outside_claimClosings) rfl
  | applyDisputeSlash withTokenAccounts =>
    obtain ⟨claim, _, slash, escrow', vault', paidReserve, _, _, h⟩ := applyDisputeSlash_spec h
    obtain ⟨_, _, _, _, -, -, -, -, -, -, -, hsol, hreserve, -, -, rfl, rfl⟩ := h
    have hslash : Outside c.key [⟨.agent c.workerKey, c.config.treasury, .stakeSlash, slash⟩] := by
      simp [Outside, Custody.isEscrow]
    by_cases hmint : c.accounts.task.rewardMint = none
    · obtain ⟨hsame, rfl⟩ := hsol hmint
      exact .of_kept ((((PaysFirst.none _ _).append hslash).append Outside.nil).append
        outside_claimClosings) hsame
    · have hpays : PaysFirst c.key
          ([⟨.agent c.workerKey, c.config.treasury, .stakeSlash, slash⟩] ++ paidReserve) c.paid
          (c.paid ++ [⟨.agent c.workerKey, c.config.treasury, .stakeSlash, slash⟩] ++ paidReserve ++
            claimClosings c c.worker.data.authority claim 0) := by
        rw [List.append_assoc c.paid]
        exact (PaysFirst.first _ _ _).append outside_claimClosings
      refine .of_token hmint hpays fun t ht => ?_
      rcases List.mem_append.mp ht with ht | ht
      · obtain rfl := List.mem_singleton.mp ht
        simp
      · rcases (hreserve t ht).2 with hp | hp <;> rw [hp] <;> exact ⟨by decide, by decide⟩

theorem TaskOp.run_escrow {op : TaskOp} (h : op.run c = .ok c') : MovesEscrow payees c c' := by
  cases op with
  | configureTaskValidation signer mode reviewWindowSecs validatorQuorum attestor =>
    obtain ⟨_, -, -, -, -, -, rfl⟩ := configureTaskValidation_spec h
    exact .of_unpaid rfl rfl
  | setTaskJobSpec signer jobSpecHash =>
    obtain ⟨_, -, rfl⟩ := setTaskJobSpec_spec h
    exact .of_unpaid rfl rfl
  | initializeBidBook signer policy weights =>
    obtain ⟨_, _, -, -, -, -, rfl⟩ := initializeBidBook_spec h
    exact .of_unpaid rfl rfl
  | postCreatorBond signer prefunded =>
    have h : postCompletionBond c signer .Creator prefunded = .ok c' := h
    obtain ⟨_, -, -, -, -, -, -, -, -, rfl⟩ := postCompletionBond_spec h
    exact .of_unpaid rfl rfl
  | reclaimCompletionBond party role =>
    obtain ⟨-, rfl⟩ := reclaimCompletionBond_spec h
    exact .of_kept ((PaysFirst.none _ _).append outside_bondPayments) rfl

theorem cancelTask_escrow {agents agents' : Ledger Pubkey (Account AgentRegistration)}
    {signer : Pubkey} {workers : List Pubkey} {workerBondAuthority : Pubkey} {withParent : Bool}
    (h : cancelTask c agents signer workers workerBondAuthority withParent = .ok (c', agents')) :
    MovesEscrow payees c c' := by
  obtain ⟨escrow, vault', paidRefund, book', bids', bidder', penalty, h⟩ := cancelTask_spec h
  obtain ⟨paidBid, workerKey, claims', paidClaims, bonds', paidBond, -, -, -, -, -, h⟩ := h
  obtain ⟨-, -, -, -, hescrow, hle, hsol, hrefund, hbid, -, hclaims, hbond, rfl⟩ := h
  have hpays (ts : List Transfer) : PaysFirst c.key ts c.paid (c.paid ++ ts ++ paidBid ++
      paidClaims ++ bondPayments c.key c.accounts.task.creator .Refund
        (c.accounts.bonds.lookup c.accounts.task.creator) ++ paidBond) := by
    refine ((((PaysFirst.first _ ts _).append hbid.outside).append fun t ht => ?_).append
      outside_bondPayments).append hbond.outside
    obtain ⟨k, -, hsource⟩ := (hclaims t ht).1
    rw [hsource]
    rfl
  by_cases hmint : c.accounts.task.rewardMint = none
  · obtain ⟨hcovered, rfl⟩ := hsol hmint
    exact .of_pays (hpays _) (.inl rfl) fun us hus =>
      .refunded (t := c.till) hmint hescrow hle hcovered hus
  · refine .of_token hmint (hpays paidRefund) fun t ht => ?_
    rcases (hrefund t ht).2 with hp | hp <;> rw [hp] <;> exact ⟨by decide, by decide⟩

theorem closeTask_escrow {agents : Ledger Pubkey (Account AgentRegistration)} {signer : Pubkey}
    {withJobSpec withEscrow : Bool} {workerBond : Option Pubkey} {children : List TaskChild}
    (h : closeTask c agents signer withJobSpec withEscrow workerBond children = .ok c') :
    MovesEscrow payees c c' := by
  obtain ⟨escrow', paidEscrow, _, submissions', validation', attestor', ts, h⟩ := closeTask_spec h
  obtain ⟨-, -, -, hescrow, -, -, -, hts, rfl⟩ := h
  have hrest : Outside c.key ts := by
    intro t ht
    obtain ⟨k, hsource⟩ := (hts t ht).1
    rw [hsource]
    rfl
  rcases hescrow with ⟨rfl, rfl⟩ | ⟨escrow, hescrow, hclosed, rfl, rfl⟩
  · exact .of_kept (((PaysFirst.none _ _).append Outside.nil).append hrest) rfl
  · refine .of_pays ((PaysFirst.first _ _ _).append hrest) (.inl rfl) fun us hus => ?_
    exact .returned (t := c.till) hescrow (.inr hclosed) Outside.nil hus

end Handlers

/-! ## Every step -/

/-- The till of a task: its key, escrow and creator, and the terms and the mode its settlements
read. -/
structure TillOf (w : World) (key : Pubkey) (acc : TaskAccounts) (t : Till) : Prop where
  key : t.key = key
  creator : t.creator = acc.task.creator
  mint : t.mint = acc.task.rewardMint
  escrow : t.escrow = acc.escrow
  rent : t.rent = w.sys.rent
  terms : t.terms = resolveTaskMarketplaceTerms acc ∨ t.terms = acc.task.marketplaceTerms
  mode : t.mode = none ∨ t.mode = acc.validation.map TaskValidationConfig.mode

/-- The till of a context of the task. -/
theorem TillOf.of_context {w : World} {key : Pubkey} {acc : TaskAccounts} {c : TaskContext}
    {t : Till} (hkey : c.key = key) (haccounts : c.accounts = acc) (hsys : c.sys = w.sys)
    (ht : t = c.till ∨ t = c.snapshotTill) : TillOf w key acc t := by
  subst hkey haccounts
  rcases ht with rfl | rfl
  · exact ⟨rfl, rfl, rfl, rfl, congrArg Sysvars.rent hsys, .inl rfl, .inr rfl⟩
  · exact ⟨rfl, rfl, rfl, rfl, congrArg Sysvars.rent hsys, .inr rfl, .inl rfl⟩

theorem MovesEscrow.of_context {payees : PayeeAccounts} {w : World} {key : Pubkey}
    {acc : TaskAccounts} {c c' : TaskContext} (h : MovesEscrow payees c c') (hkey : c.key = key)
    (haccounts : c.accounts = acc) (hsys : c.sys = w.sys) (hpaid : c.paid = []) :
    ∃ t, TillOf w key acc t ∧ EscrowMove t payees acc.task c'.accounts.escrow c'.paid := by
  obtain ⟨t, ts, ht, hts, hmove⟩ := h
  refine ⟨t, .of_context hkey haccounts hsys ht, ?_⟩
  rw [hts, hpaid, List.nil_append, ← haccounts]
  exact hmove

/-- Every instruction on a task makes one move on its escrow. -/
theorem TaskMove.escrow {w : World} {key : Pubkey} {acc acc' : TaskAccounts} {i : Instruction}
    {ts : List Transfer} (h : TaskMove w key acc i acc' ts) :
    ∃ t, TillOf w key acc t ∧ EscrowMove t i.payees acc.task acc'.escrow ts := by
  have hidle : TillOf w key acc (w.taskContext key acc).till :=
    .of_context rfl rfl rfl (.inl rfl)
  cases h with
  | donated credits =>
    refine ⟨_, hidle, ?_⟩
    cases credits with
    | escrow loaded => exact .donated (t := (w.taskContext key acc).till) loaded
    | _ => exact .kept (t := (w.taskContext key acc).till) Outside.nil
  | task ran => exact (TaskOp.run_escrow ran).of_context rfl rfl rfl rfl
  | work found ran rent => exact (WorkOp.run_escrow ran).of_context rfl rfl rfl rfl
  | cancelled listed ran =>
    obtain ⟨hkey, haccounts, hsys, -, hpaid, -⟩ := listed_context listed
    exact (cancelTask_escrow ran).of_context hkey haccounts hsys hpaid
  | closed ran => exact (closeTask_escrow ran).of_context rfl rfl rfl rfl
  | disputed opens =>
    exact ⟨_, hidle, .kept (t := (w.taskContext key acc).till) Outside.nil⟩
  | ruled found filed about ran rent => exact (DisputeOp.run_escrow ran).of_context rfl rfl rfl rfl

end AgencCoordination
