import AgencCoordination.Invariants.Contest

/-!
# Token escrows, step by step

The tokens of a task lie in the token account of its escrow, and are booked in the escrow's
counter `distributed`; every handler reads the balance, transfers and closes on its own.

* **`TokenMove`** — the ways one instruction changes the two accounts of a task paid in tokens, and
  all that it pays out of them.
* **`TaskMove.tokens`** — every instruction on such a task makes one of these moves.
-/

namespace AgencCoordination

open Foundations

/-! ## Payments out of the escrow -/

/-- All payments out of the escrow of the task and out of its token account. -/
def escrowPayments (key : Pubkey) (ts : List Transfer) : List Transfer :=
  ts.filter fun t => t.source.isEscrow key

section Payments

variable {key : Pubkey} {ts us paid paid' : List Transfer}

theorem escrowPayments_append :
    escrowPayments key (ts ++ us) = escrowPayments key ts ++ escrowPayments key us :=
  List.filter_append _ _

theorem Outside.escrowPayments (h : Outside key us) : escrowPayments key us = [] := by
  refine List.filter_eq_nil_iff.mpr fun t ht => ?_
  rw [h t ht]
  exact Bool.false_ne_true

theorem escrowPayments_eq_self (h : ∀ t ∈ ts, t.source.isEscrow key = true) :
    escrowPayments key ts = ts :=
  List.filter_eq_self.mpr h

/-- What a handler pays first, when it pays nothing else out of the escrow. -/
theorem PaysFirst.escrowPayments (h : PaysFirst key ts paid paid') (hpaid : paid = []) :
    AgencCoordination.escrowPayments key paid' = AgencCoordination.escrowPayments key ts := by
  obtain ⟨us, rfl, hus⟩ := h
  rw [hpaid, List.nil_append, escrowPayments_append, hus.escrowPayments, List.append_nil]

@[simp] theorem isEscrow_escrow : (Custody.escrow key).isEscrow key = true := decide_eq_true rfl

@[simp] theorem isEscrow_tokenEscrow : (Custody.tokenEscrow key).isEscrow key = true :=
  decide_eq_true rfl

end Payments

/-! ## Moves -/

/-- A status after which the task goes on, or the one before. -/
def Continues (status status' : TaskStatus) : Prop :=
  status' = status ∨ status'.isLive = true ∨ status' = .Disputed

/-- How a ruling divides the tokens it pays at once: to the creator, to the worker, or half to
either. -/
def tokenRuling (key creator worker : Pubkey) (approved : Bool) (resolution : ResolutionType)
    (amount : ℕ) : List Transfer :=
  match approved, resolution with
  | false, _ | true, .Refund => [⟨.tokenEscrow key, creator, .creatorRefund, amount⟩]
  | true, .Complete => [⟨.tokenEscrow key, worker, .workerReward, amount⟩]
  | true, .Split =>
      [⟨.tokenEscrow key, creator, .creatorRefund, amount - amount / 2⟩,
        ⟨.tokenEscrow key, worker, .workerReward, amount / 2⟩]

/-- Who gets what else the token account holds after a ruling. -/
def rulingHeir (creator worker : Pubkey) (approved : Bool) (resolution : ResolutionType) : Pubkey :=
  if approved = true ∧ resolution = .Complete then worker else creator

/-- The ways one instruction changes the escrow and the token account of a task, after `extra`
tokens were sent in, and what it pays out of both. -/
inductive TokenMove (key treasury : Pubkey) (acc acc' : TaskAccounts) (extra : ℕ)
    (ps : List Transfer) : Prop
  /-- Nothing is booked and nothing is paid. -/
  | kept (books : acc'.escrow.map Account.data = acc.escrow.map Account.data)
      (vault : acc'.tokenEscrow = acc.tokenEscrow.map (· + extra))
      (completions : acc'.task.completions = acc.task.completions)
      (pending : acc'.task.workerSlashPending = acc.task.workerSlashPending)
      (status : Continues acc.task.status acc'.task.status)
      (unpaid : ∀ t ∈ ps, t.source = .escrow key ∧ t.amount = 0)
  /-- A completion before the last. -/
  | charged {escrow : Account TaskEscrow} {held gross reward fee : ℕ} {worker : Pubkey}
      (still : extra = 0) (going : ¬acc.task.status.isFinished)
      (loaded : acc.escrow = some escrow) (vault : acc.tokenEscrow = some held)
      (gross_eq : calculateRewardPerWorker acc.task = .ok gross)
      (before : completesTask acc.task = false) (shares : reward + fee = gross)
      (covered : gross ≤ held)
      (escrow' : acc'.escrow = some { escrow with data := { escrow.data with
        distributed := escrow.data.distributed + gross } })
      (vault' : acc'.tokenEscrow = some (held - gross))
      (completions : acc'.task.completions = acc.task.completions + 1)
      (status : Continues acc.task.status acc'.task.status)
      (paid : ps = [⟨.tokenEscrow key, worker, .workerReward, reward⟩,
        ⟨.tokenEscrow key, treasury, .protocolFee, fee⟩])
  /-- The last completion. -/
  | completed {escrow : Account TaskEscrow} {held gross reward fee : ℕ} {worker : Pubkey}
      (still : extra = 0) (going : ¬acc.task.status.isFinished)
      (loaded : acc.escrow = some escrow) (vault : acc.tokenEscrow = some held)
      (gross_eq : calculateRewardPerWorker acc.task = .ok gross)
      (last : completesTask acc.task = true) (shares : reward + fee = gross)
      (covered : gross ≤ held) (escrow' : acc'.escrow = none) (vault' : acc'.tokenEscrow = none)
      (finished : acc'.task.status.isFinished)
      (paid : ps = [⟨.tokenEscrow key, worker, .workerReward, reward⟩,
        ⟨.tokenEscrow key, treasury, .protocolFee, fee⟩,
        ⟨.tokenEscrow key, treasury, .closingBalance, held - gross⟩,
        closeEscrowTransfer key acc.task.creator escrow.lamports])
  /-- A cancellation or an expired dispute. -/
  | refunded {escrow : Account TaskEscrow} {held owed : ℕ} (still : extra = 0)
      (going : ¬acc.task.status.isFinished)
      (loaded : acc.escrow = some escrow) (vault : acc.tokenEscrow = some held)
      (owed_eq : escrow.data.distributed + owed = escrow.data.amount) (covered : owed ≤ held)
      (escrow' : acc'.escrow = none) (vault' : acc'.tokenEscrow = none)
      (finished : acc'.task.status.isFinished)
      (paid : ps = [⟨.tokenEscrow key, acc.task.creator, .creatorRefund, owed⟩,
        ⟨.tokenEscrow key, acc.task.creator, .closingBalance, held - owed⟩,
        closeEscrowTransfer key acc.task.creator escrow.lamports])
  /-- A ruling that holds nothing back. -/
  | ruled {escrow : Account TaskEscrow} {held owed : ℕ} {worker : Pubkey} {approved : Bool}
      {resolution : ResolutionType} (still : extra = 0) (going : ¬acc.task.status.isFinished)
      (loaded : acc.escrow = some escrow) (vault : acc.tokenEscrow = some held)
      (owed_eq : escrow.data.distributed + owed = escrow.data.amount) (covered : owed ≤ held)
      (escrow' : acc'.escrow = some { escrow with data := { escrow.data with
        distributed := escrow.data.distributed + owed, isClosed := true } })
      (vault' : acc'.tokenEscrow = none) (finished : acc'.task.status.isFinished)
      (paid : ps = tokenRuling key acc.task.creator worker approved resolution owed ++
        [⟨.tokenEscrow key, rulingHeir acc.task.creator worker approved resolution,
          .closingBalance, held - owed⟩])
  /-- A refund ruling against the worker, which holds a reserve back. -/
  | reserved {escrow : Account TaskEscrow} {held owed reserve : ℕ} (still : extra = 0)
      (going : ¬acc.task.status.isFinished)
      (loaded : acc.escrow = some escrow) (vault : acc.tokenEscrow = some held)
      (owed_eq : escrow.data.distributed + owed + reserve = escrow.data.amount)
      (some_reserve : 0 < reserve) (covered : owed ≤ held)
      (escrow' : acc'.escrow = some { escrow with data := { escrow.data with
        distributed := escrow.data.distributed + owed, isClosed := false } })
      (vault' : acc'.tokenEscrow = some (held - owed))
      (finished : acc'.task.status.isFinished) (pending : acc'.task.workerSlashPending = true)
      (paid : ps = [⟨.tokenEscrow key, acc.task.creator, .creatorRefund, owed⟩])
  /-- The slash takes the reserve, and what else the token account holds. -/
  | slashed {escrow : Account TaskEscrow} {held : ℕ} (still : extra = 0)
      (finished : acc.task.status.isFinished)
      (loaded : acc.escrow = some escrow) (vault : acc.tokenEscrow = some held)
      (escrow' : acc'.escrow = none) (vault' : acc'.tokenEscrow = none)
      (status : acc'.task.status = acc.task.status)
      (paid : ps = [⟨.tokenEscrow key, treasury, .stakeSlash, held⟩,
        closeEscrowTransfer key acc.task.creator escrow.lamports])
  /-- The slash of a ruling that held nothing back. -/
  | waived {escrow : Account TaskEscrow} (still : extra = 0) (loaded : acc.escrow = some escrow)
      (closed : escrow.data.isClosed = true) (escrow' : acc'.escrow = acc.escrow)
      (vault' : acc'.tokenEscrow = acc.tokenEscrow)
      (status : acc'.task.status = acc.task.status) (paid : ps = [])
  /-- The record a ruling left is closed with the task. -/
  | dropped {escrow : Account TaskEscrow} (still : extra = 0) (loaded : acc.escrow = some escrow)
      (closed : escrow.data.isClosed = true) (escrow' : acc'.escrow = none)
      (vault' : acc'.tokenEscrow = acc.tokenEscrow)
      (status : acc'.task.status = acc.task.status)
      (paid : ps = [closeEscrowTransfer key acc.task.creator escrow.lamports])

/-! ## Statuses -/

section Statuses

variable {status : TaskStatus}

theorem Continues.same (status : TaskStatus) : Continues status status := .inl rfl

theorem Continues.synced (status : TaskStatus) (pending workers : ℕ) :
    Continues status (syncedStatus status pending workers) := by
  unfold syncedStatus
  split_ifs
  · exact .inl rfl
  · exact .inr (.inl (reviewStatus_isLive _ _))

theorem Continues.reopened (manual : Bool) (validation : Option TaskValidationConfig)
    (status : TaskStatus) (workers : ℕ) :
    Continues status (reopenedStatus manual validation status workers) := by
  unfold reopenedStatus
  split_ifs
  · split
    · exact .synced _ _ _
    · exact .same _
  · exact .inr (.inl rfl)
  · exact .same _

theorem Continues.restored (live workers : ℕ) :
    Continues status (if status = .Disputed then restoreStatusAfterDisputeCancel live workers
      else status) := by
  unfold restoreStatusAfterDisputeCancel
  split_ifs
  all_goals first | exact .same _ | exact .inr (.inl rfl)

/-- What is going on is not finished. -/
theorem not_isFinished_of_isLive (h : status.isLive = true) : ¬status.isFinished := by
  rintro (rfl | rfl)
  · cases h
  · cases h

theorem Continues.going {status' : TaskStatus} (h : Continues status status')
    (hgoing : ¬status.isFinished) : ¬status'.isFinished := by
  rcases h with rfl | hlive | rfl
  · exact hgoing
  · exact not_isFinished_of_isLive hlive
  · rintro (h | h)
    · cases h
    · cases h

theorem Continues.unfrozen {status' : TaskStatus} (h : Continues status status')
    (hunfrozen : status ≠ .RejectFrozen) : status' ≠ .RejectFrozen := by
  rcases h with rfl | hlive | rfl
  · exact hunfrozen
  · rintro rfl
    cases hlive
  · decide

end Statuses

/-! ## The instructions on a worker -/

/-- What a handler makes of the token escrow of its task. -/
def MovesTokens (c c' : TaskContext) : Prop :=
  TokenMove c.key c.config.treasury c.accounts c'.accounts 0 (escrowPayments c.key c'.paid)

section Handlers

variable {c c' : TaskContext} {config : TaskValidationConfig} {payees : PayeeAccounts}

/-- A handler whose payments out of the escrow come first. -/
theorem MovesTokens.of_pays {ts : List Transfer} (hpaid : c.paid = [])
    (hpays : PaysFirst c.key ts c.paid c'.paid) (hts : ∀ t ∈ ts, t.source.isEscrow c.key = true)
    (hmove : TokenMove c.key c.config.treasury c.accounts c'.accounts 0 ts) : MovesTokens c c' := by
  have hps := hpays.escrowPayments hpaid
  rw [escrowPayments_eq_self hts] at hps
  unfold MovesTokens
  rw [hps]
  exact hmove

/-- A handler that touches neither the escrow nor its token account. -/
theorem MovesTokens.of_kept (hpaid : c.paid = []) (hpays : PaysFirst c.key [] c.paid c'.paid)
    (hescrow : c'.accounts.escrow = c.accounts.escrow)
    (hvault : c'.accounts.tokenEscrow = c.accounts.tokenEscrow)
    (hcompletions : c'.accounts.task.completions = c.accounts.task.completions)
    (hpending : c'.accounts.task.workerSlashPending = c.accounts.task.workerSlashPending)
    (hstatus : Continues c.accounts.task.status c'.accounts.task.status) : MovesTokens c c' := by
  refine .kept (by rw [hescrow]) ?_ hcompletions hpending hstatus ?_
  · rw [hvault]
    cases c.accounts.tokenEscrow with
    | none => rfl
    | some held => rfl
  · rw [hpays.escrowPayments hpaid]
    simp [escrowPayments]

/-- A handler that pays nothing. -/
theorem MovesTokens.of_unpaid (hpaid : c.paid = []) (hsame : c'.paid = c.paid)
    (hescrow : c'.accounts.escrow = c.accounts.escrow)
    (hvault : c'.accounts.tokenEscrow = c.accounts.tokenEscrow)
    (hcompletions : c'.accounts.task.completions = c.accounts.task.completions)
    (hpending : c'.accounts.task.workerSlashPending = c.accounts.task.workerSlashPending)
    (hstatus : Continues c.accounts.task.status c'.accounts.task.status) : MovesTokens c c' :=
  .of_kept hpaid (hsame ▸ .none _ _) hescrow hvault hcompletions hpending hstatus

/-- A handler that settles one completion. -/
theorem MovesTokens.of_settles {gross : ℕ} {escrow' : Option (Account TaskEscrow)}
    {vault' : Option ℕ} {ts : List Transfer}
    (h : Settles c.till payees gross (completesTask c.accounts.task) escrow' vault' ts)
    (hmint : c.accounts.task.rewardMint ≠ none)
    (hgross : calculateRewardPerWorker c.accounts.task = .ok gross)
    (hgoing : c.accounts.task.status.isLive = true) (hpaid : c.paid = [])
    (hpays : PaysFirst c.key ts c.paid c'.paid) (hescrow : c'.accounts.escrow = escrow')
    (hvault : c'.accounts.tokenEscrow = vault')
    (hcompletions : c'.accounts.task.completions = c.accounts.task.completions + 1)
    (hlast : completesTask c.accounts.task = true → c'.accounts.task.status.isFinished)
    (hbefore : completesTask c.accounts.task = false →
      Continues c.accounts.task.status c'.accounts.task.status) : MovesTokens c c' := by
  have hgoing := not_isFinished_of_isLive hgoing
  have hps := hpays.escrowPayments hpaid
  cases h with
  | sol mint => exact absurd mint hmint
  | token mint paid gone left tokens =>
    have hts : escrowPayments c.key ts = ts := by
      refine escrowPayments_eq_self fun x hx => ?_
      rcases (paid x hx).1 with hsource | ⟨hsource, -⟩
      · rw [hsource]
        exact isEscrow_tokenEscrow
      · rw [hsource]
        exact isEscrow_escrow
    rw [hts] at hps
    generalize hcompletes : completesTask c.accounts.task = completed at tokens
    cases tokens with
    | charged loaded held shares covered =>
      exact .charged rfl hgoing loaded held hgross hcompletes shares covered hescrow hvault
        hcompletions (hbefore hcompletes) hps
    | closed loaded held shares covered =>
      exact .completed rfl hgoing loaded held hgross hcompletes shares covered hescrow hvault
        (hlast hcompletes) hps

theorem PaysAccepted.tokens (h : PaysAccepted c config payees c')
    (hmint : c.accounts.task.rewardMint ≠ none)
    (htype : c.accounts.task.taskType ≠ .BidExclusive)
    (hstatus : c.accounts.task.status = .PendingValidation) (hpaid : c.paid = []) :
    MovesTokens c c' := by
  obtain ⟨claim, stored, gross, price, escrow', vault', paidReward, book', bids', bidder',
    paidBid, votes', -, -, -, -, -, hgross, hprice, hsettles, hbid, _, _, _, _, _, _, _, _,
    rfl⟩ := h
  rw [hprice htype] at hgross
  have haccepted := acceptedStatus_eq config hstatus
  refine .of_settles hsettles hmint hgross (by rw [hstatus]; rfl) hpaid
    ((((((PaysFirst.first _ paidReward _).append hbid.outside).append
      outside_claimClosing).append outside_submissionClosing).append
        outside_bondPayments).append outside_bondPayments) rfl rfl rfl (fun hlast => ?_)
    fun hbefore => ?_
  · rw [hlast] at haccepted
    exact .inl haccepted
  · rw [hbefore] at haccepted
    refine .inr (.inl ?_)
    show (acceptedStatus c.accounts.task config).isLive = true
    rw [haccepted]
    exact reviewStatus_isLive _ _

theorem RejectsClaim.tokens (h : RejectsClaim c config c') (hpaid : c.paid = []) :
    MovesTokens c c' := by
  obtain ⟨claim, submissions', votes', book', bids', bidder', paidBid, closings, -, -, -, -, -,
    hbid, hcloses, rfl⟩ := h
  exact .of_kept hpaid ((((PaysFirst.none _ _).append hbid.outside).append
    outside_bondPayments).append hcloses.outside) rfl rfl rfl rfl (.synced _ _ _)

theorem completeTask_tokens {signer : Pubkey} {proofHash : Hash} {resultData : Option ℕ}
    (h : completeTask c signer proofHash resultData payees = .ok c')
    (hmint : c.accounts.task.rewardMint ≠ none)
    (htype : c.accounts.task.taskType ≠ .BidExclusive) (hpaid : c.paid = []) :
    MovesTokens c c' := by
  obtain ⟨claim, gross, price, escrow', vault', paidReward, book', bids', h⟩ := completeTask_spec h
  obtain ⟨bidder', paidBid, -, hstatus, -, -, -, hgross, hprice, hsettles, hbid, h⟩ := h
  obtain ⟨_, _, _, _, _, _, _, _, rfl⟩ := h
  rw [hprice htype] at hgross
  refine .of_settles hsettles hmint hgross (by rw [hstatus]; rfl) hpaid
    (((((PaysFirst.first _ paidReward _).append hbid.outside).append
      outside_claimClosing).append outside_bondPayments).append outside_bondPayments)
    rfl rfl rfl (fun hlast => .inl (if_pos hlast)) fun hbefore => .inl (if_neg ?_)
  rw [hbefore]
  exact Bool.false_ne_true

/-- The cleanup reward of a token task is nothing. -/
theorem expireClaim_tokens {caller : Pubkey} {withSubmission : Bool}
    (h : expireClaim c caller withSubmission = .ok c')
    (hmint : c.accounts.task.rewardMint ≠ none) (hpaid : c.paid = []) : MovesTokens c c' := by
  obtain ⟨claim, escrow, reward, forfeited, book', bids', bidder', h⟩ := expireClaim_spec h
  obtain ⟨paidBid, bonds', paidBond, -, -, -, -, -, -, -, hescrow, hle, hreward, h⟩ := h
  obtain ⟨hcovered, hbid, hbond, rfl⟩ := h
  have hnothing : reward = 0 := by
    rw [hreward, cleanupRewardForTask, if_pos (Option.isSome_iff_ne_none.mpr hmint)]
  subst hnothing
  have hpays : PaysFirst c.key [⟨.escrow c.key, caller, .cleanupReward, 0⟩] c.paid
      (c.paid ++ [⟨.escrow c.key, caller, .cleanupReward, 0⟩] ++ paidBid ++ paidBond ++
        claimClosings c c.worker.data.authority claim forfeited) :=
    (((PaysFirst.first _ _ _).append hbid.outside).append hbond.outside).append
      outside_claimClosings
  refine .kept ?_ ?_ rfl rfl (.reopened _ _ _ _) ?_
  · show Option.map _ (some _) = _
    rw [hescrow]
    rfl
  · cases c.accounts.tokenEscrow with
    | none => rfl
    | some held => rfl
  · rw [hpays.escrowPayments hpaid]
    simp [escrowPayments]

theorem Occupies.tokens {expiresAt : ℤ} (h : Occupies c expiresAt c') (hpaid : c.paid = []) :
    MovesTokens c c' := by
  obtain ⟨_, _, _, _, _, _, _, _, _, rfl, -, hstatus⟩ := h
  refine .of_unpaid hpaid rfl rfl rfl rfl rfl (.inr (.inl ?_))
  show TaskStatus.isLive _ = true
  rw [hstatus]
  split_ifs <;> rfl

/-- The instructions on a worker. A token task has no bids, is never frozen by its creator, and is
no contest. -/
theorem WorkOp.run_tokens {w : World} {op : WorkOp} (h : op.run w c = .ok c')
    (hmint : c.accounts.task.rewardMint ≠ none)
    (htype : c.accounts.task.taskType ≠ .BidExclusive)
    (hunfrozen : c.accounts.task.status ≠ .RejectFrozen) (hpaid : c.paid = []) :
    MovesTokens c c' := by
  have hbids {c₁ : TaskContext} (ht : TouchesBids c c₁) : MovesTokens c c₁ := by
    obtain ⟨_, _, _, _, _, hbid, -⟩ := ht
    exact absurd hbid htype
  have hfrozen {payees : PayeeAccounts} {disposition : BondDisposition} {c₁ : TaskContext}
      (hp : PaysFrozen c payees disposition c₁) : MovesTokens c c₁ := by
    obtain ⟨_, _, _, _, _, _, -, -, hstatus, -⟩ := hp
    exact absurd hstatus hunfrozen
  cases op with
  | claimTaskWithJobSpec signer prefunded =>
    obtain ⟨_, -, -, -, -, -, hoccupies⟩ := claimTaskWithJobSpec_spec h
    exact hoccupies.tokens hpaid
  | createBid signer terms prefunded => exact hbids (createBid_spec h).touches
  | updateBid signer terms => exact hbids (updateBid_spec h).touches
  | cancelBid signer => exact hbids (cancelBid_spec h).touches
  | expireBid => exact hbids (expireBid_spec h).touches
  | promoteBid => exact hbids (promoteBid_spec h).touches
  | demoteIneligibleBest => exact hbids (demoteIneligibleBest_spec h).touches
  | acceptBid signer expectedBidTermsHash prefunded =>
    obtain ⟨_, _, _, -, -, -, -, hoccupies⟩ := acceptBid_spec h
    exact hoccupies.tokens hpaid
  | postWorkerBond signer prefunded =>
    have h : postCompletionBond c signer .Worker prefunded = .ok c' := h
    obtain ⟨_, -, -, -, -, -, -, -, -, rfl⟩ := postCompletionBond_spec h
    exact .of_unpaid hpaid rfl rfl rfl rfl rfl (.same _)
  | submitTaskResult signer proofHash resultData prefunded =>
    obtain ⟨_, _, _, -, -, -, -, -, -, -, _, _, rfl⟩ := submitTaskResult_spec h
    exact .of_unpaid hpaid rfl rfl rfl rfl rfl (.inr (.inl rfl))
  | acceptTaskResult signer payees =>
    obtain ⟨_, _, hreview, -, -, -, hpays⟩ := acceptTaskResult_spec h
    exact hpays.tokens hmint htype hreview.status hpaid
  | autoAcceptTaskResult payees =>
    obtain ⟨_, _, hreview, -, -, hpays⟩ := autoAcceptTaskResult_spec h
    exact hpays.tokens hmint htype hreview.status hpaid
  | rejectTaskResult signer rejectionHash =>
    obtain ⟨_, _, -, -, -, -, hrejects⟩ := rejectTaskResult_spec h
    exact hrejects.tokens hpaid
  | requestChanges signer changesHash =>
    obtain ⟨_, _, _, _, _, -, -, -, -, -, -, rfl⟩ := requestChanges_spec h
    exact .of_unpaid hpaid rfl rfl rfl rfl rfl (.synced _ _ _)
  | validateTaskResult reviewer validator approved =>
    obtain ⟨_, _, hreview, -, hpays | ⟨hrejects, -⟩ | ⟨_, _, -, rfl⟩⟩ := validateTaskResult_spec h
    · exact hpays.tokens hmint htype hreview.status hpaid
    · exact hrejects.tokens hpaid
    · exact .of_unpaid hpaid rfl rfl rfl rfl rfl (.same _)
  | rejectAndFreeze signer rejectionHash =>
    obtain ⟨_, _, _, -, -, hsol, -⟩ := rejectAndFreeze_spec h
    exact absurd hsol hmint
  | resolveRejectFrozen signers approveCompletion payees =>
    obtain ⟨_, hpays⟩ | ⟨_, _, _, -, -, hstatus, -⟩ := resolveRejectFrozen_spec h
    · exact hfrozen hpays
    · exact absurd hstatus hunfrozen
  | expireRejectFrozen payees => exact hfrozen (expireRejectFrozen_spec h)
  | completeTask signer proofHash resultData payees =>
    exact completeTask_tokens h hmint htype hpaid
  | expireClaim caller withSubmission => exact expireClaim_tokens h hmint hpaid
  | distributeGhostShare payees =>
    obtain ⟨_, _, _, _, _, _, -, -, -, -, -, hsol, -⟩ := distributeGhostShare_spec h
    exact absurd hsol hmint
  | reclaimTerminalClaim =>
    obtain ⟨_, _, _, closings, -, -, -, -, -, -, hcloses, rfl⟩ := reclaimTerminalClaim_spec h
    exact .of_kept hpaid ((PaysFirst.none _ _).append hcloses.outside) rfl rfl rfl rfl (.same _)

end Handlers

/-! ## Rulings -/

section Rulings

variable {c c' : TaskContext} {d d' : Dispute} {payees : PayeeAccounts}

/-- A ruling settles all that is left in the escrow; what else it pays comes from other
accounts. -/
theorem resolveDispute_settles {signer : Pubkey} {signers : List Pubkey} {assigned approved : Bool}
    (h : resolveDispute c d signer signers assigned approved payees = .ok (c', d')) :
    ∃ escrow contract uncommitted reserve c₁ payout us,
      c.accounts.escrow = some escrow ∧ escrow.data.distributed ≤ escrow.data.amount ∧
      c.accounts.task.status = .Disputed ∧
      contract + uncommitted = escrow.data.amount - escrow.data.distributed ∧
      slashReserve c (workerLostDispute approved d.resolutionType)
        (escrow.data.amount - escrow.data.distributed) = .ok reserve ∧
      settleRuling c approved d.resolutionType (resolveTaskMarketplaceTerms c.accounts) payees
        ⟨escrow.data.amount - escrow.data.distributed, contract, uncommitted⟩ reserve =
          .ok (c₁, payout) ∧
      c'.accounts.escrow = c₁.accounts.escrow ∧
      c'.accounts.tokenEscrow = c₁.accounts.tokenEscrow ∧
      c'.paid = c₁.paid ++ us ∧ Outside c.key us ∧
      c'.accounts.task.status = rulingStatus approved d.resolutionType ∧
      c'.accounts.task.workerSlashPending = workerLostDispute approved d.resolutionType := by
  simp only [resolveDispute, bind_eq_ok, demand_eq_ok, require_eq_ok, subU_eq_ok, Prod.exists,
    TaskContext.task_eq] at h
  obtain ⟨escrow, hescrow, _, -, _, -, _, hactive, _, -, _, hdefendant, h⟩ := h
  obtain ⟨claim, hclaim, _, -, _, -, _, hdisputed, _, ⟨hle, rfl⟩, h⟩ := h
  obtain ⟨price, -, contract, uncommitted, hfunds, reserve, hreserve, c₁, payout, h₁, h⟩ := h
  have hsum := contractualSettlementAmount_spec hfunds
  refine ⟨escrow, contract, uncommitted, reserve, c₁, payout, ?_⟩
  obtain ⟨escrow', vault', paidRuling, hempties, hc₁⟩ := settleRuling_spec h₁ hescrow rfl hsum
  subst hc₁
  obtain ⟨c₂, h₂, c₃, h₃, c₄, h₄, h⟩ := h
  obtain ⟨config, hconfig⟩ : ∃ config,
      (if approved = true ∧ d.resolutionType = .Complete then
        updateProtocolStats c.config contract c.accounts.task.rewardMint.isNone else c.config) =
          config := ⟨_, rfl⟩
  simp only [hconfig] at h₂
  obtain ⟨book', bids', bidder', paidBid, hbid, rfl⟩ := settleBidOf_spec h₂
  obtain ⟨tasksCompleted, totalEarned, hworker⟩ :=
    settleDefendant_eq c.worker.data (workerLostDispute approved d.resolutionType)
      c.accounts.task.rewardMint.isNone payout c.sys.now
  simp only [hworker] at h₃
  obtain ⟨live, validation', closings, hleaves, hcloses, rfl⟩ := sweepDisputeSubmission_spec h₃
  obtain ⟨paidClaim, hclaimCloses, hclose⟩ := closeDefendantClaim_eq _ claim
    (workerLostDispute approved d.resolutionType)
  rw [hclose] at h₄
  obtain ⟨creatorSide, workerSide, rfl⟩ := settleBondsAfterRuling_spec h₄
  obtain ⟨rfl, rfl⟩ := Prod.mk.inj (Except.ok.inj h)
  refine ⟨paidBid ++ closings ++ paidClaim ++
      bondPayments c.key c.accounts.task.creator (rulingDisposition config.treasury creatorSide)
        (c.accounts.bonds.lookup c.accounts.task.creator) ++
      bondPayments c.key c.worker.data.authority (rulingDisposition config.treasury workerSide)
        ((c.accounts.bonds.erase c.accounts.task.creator).lookup c.worker.data.authority),
    hescrow, hle, hdisputed, hsum, hreserve, h₁, rfl, rfl, ?_, ?_, rfl, rfl⟩
  · simp only [List.append_assoc]
  · exact (((hbid.outside.append hcloses.outside).append hclaimCloses.outside).append
      outside_bondPayments).append outside_bondPayments

/-- What is held back is part of what was left, and only of a refund against the worker. -/
theorem slashReserve_spec {workerLost : Bool} {remaining reserve : ℕ}
    (h : slashReserve c workerLost remaining = .ok reserve) :
    reserve ≤ remaining ∧ (0 < reserve → workerLost = true) := by
  unfold slashReserve at h
  split_ifs at h with hlost
  · simp only [percentageAmount, require_bind_eq_ok, Except.ok.injEq] at h
    obtain ⟨hpercentage, rfl⟩ := h
    refine ⟨?_, fun _ => (Bool.and_eq_true_iff.mp hlost).2⟩
    calc remaining * c.config.slashPercentage / 100 ≤ remaining * 100 / 100 :=
          Nat.div_le_div_right (Nat.mul_le_mul_left remaining hpercentage)
      _ = remaining := Nat.mul_div_cancel remaining (by decide)
  · obtain rfl := Except.ok.inj h
    exact ⟨Nat.zero_le _, fun hpos => absurd hpos (lt_irrefl 0)⟩

theorem workerLostDispute_eq_true {approved : Bool} {resolution : ResolutionType} :
    workerLostDispute approved resolution = true ↔ approved = true ∧ resolution = .Refund := by
  cases approved <;> cases resolution <;> decide

/-- The token side of a ruling, for an escrow with something left: it pays the division of what is
not held back, and what else is there to the same party unless a reserve stays. -/
theorem settleRulingToken_eq {c₁ : TaskContext} {approved : Bool} {resolution : ResolutionType}
    {funds : RulingFunds} {reserve held : ℕ} {payout : Option ℕ} {escrow : Account TaskEscrow}
    (h : settleRulingToken c approved resolution funds reserve = .ok (c₁, payout))
    (hescrow : c.accounts.escrow = some escrow) (hvault : c.accounts.tokenEscrow = some held)
    (hleft : 0 < funds.remaining) :
    funds.remaining - reserve ≤ held ∧
    c₁.accounts.escrow = some { escrow with data := { escrow.data with
      distributed := escrow.data.distributed + (funds.remaining - reserve)
      isClosed := decide (reserve = 0) } } ∧
    c₁.accounts.tokenEscrow =
      (if reserve = 0 then none else some (held - (funds.remaining - reserve))) ∧
    c₁.paid = c.paid ++ (tokenRuling c.key c.accounts.task.creator c.worker.data.authority approved
      resolution (funds.remaining - reserve) ++ if reserve = 0 then
        [⟨.tokenEscrow c.key, rulingHeir c.accounts.task.creator c.worker.data.authority approved
          resolution, .closingBalance, held - (funds.remaining - reserve)⟩] else []) := by
  simp only [settleRulingToken, bind_eq_ok, demand_eq_ok, subU_eq_ok, addU64_eq_ok, hescrow,
    hvault, Option.some.injEq, TaskContext.task_eq] at h
  obtain ⟨_, rfl, _, rfl, _, ⟨hcovered, rfl⟩, _, ⟨-, rfl⟩, h⟩ := h
  refine ⟨hcovered, ?_⟩
  have hne : funds.remaining ≠ 0 := hleft.ne'
  rcases approved with _ | _
  · obtain ⟨rfl, -⟩ := Prod.mk.inj (Except.ok.inj h)
    refine ⟨rfl, ?_, ?_⟩
    · simp only [TaskContext.pay, decide_eq_true_eq]
    · simp only [TaskContext.pay, tokenRuling, rulingHeir, decide_eq_true_eq, Bool.false_eq_true,
        false_and, if_false, List.singleton_append]
  · cases resolution with
    | Refund =>
      obtain ⟨rfl, -⟩ := Prod.mk.inj (Except.ok.inj h)
      refine ⟨rfl, ?_, ?_⟩
      · simp only [TaskContext.pay, decide_eq_true_eq]
      · simp only [TaskContext.pay, tokenRuling, rulingHeir, decide_eq_true_eq, reduceCtorEq,
          and_false, if_false, List.singleton_append]
    | Complete =>
      obtain ⟨rfl, -⟩ := Prod.mk.inj (Except.ok.inj h)
      refine ⟨rfl, ?_, ?_⟩
      · simp only [TaskContext.pay, decide_eq_true_eq]
      · simp only [TaskContext.pay, tokenRuling, rulingHeir, decide_eq_true_eq, and_self, if_true,
          List.singleton_append]
    | Split =>
      simp only [hne, if_false] at h
      obtain ⟨rfl, -⟩ := Prod.mk.inj (Except.ok.inj h)
      refine ⟨rfl, ?_, ?_⟩
      · simp only [TaskContext.pay, decide_eq_true_eq]
      · simp only [TaskContext.pay, tokenRuling, rulingHeir, decide_eq_true_eq, reduceCtorEq,
          and_false, if_false, List.cons_append, List.nil_append]

theorem tokenRuling_source {key creator worker : Pubkey} {approved : Bool}
    {resolution : ResolutionType} {amount : ℕ} :
    ∀ t ∈ tokenRuling key creator worker approved resolution amount,
      t.source = .tokenEscrow key := by
  cases approved <;> cases resolution <;> simp [tokenRuling]

/-- A disputed task still has something to divide: the two accounts are open, and something was
not distributed. -/
def StakesOpen (acc : TaskAccounts) : Prop :=
  ∃ escrow held, acc.escrow = some escrow ∧ acc.tokenEscrow = some held ∧
    escrow.data.distributed < escrow.data.amount

theorem resolveDispute_tokens {signer : Pubkey} {signers : List Pubkey} {assigned approved : Bool}
    (h : resolveDispute c d signer signers assigned approved payees = .ok (c', d'))
    (hmint : c.accounts.task.rewardMint ≠ none)
    (hopen : c.accounts.task.status = .Disputed → StakesOpen c.accounts) (hpaid : c.paid = []) :
    MovesTokens c c' := by
  obtain ⟨escrow, contract, uncommitted, reserve, c₁, payout, us, h⟩ := resolveDispute_settles h
  obtain ⟨hescrow, -, hdisputed, -, hreserve, hsettles, hescrow', hvault', hpays, hus, h⟩ := h
  obtain ⟨hstatus, hpending⟩ := h
  obtain ⟨e, held, he, hvault, hleft⟩ := hopen hdisputed
  obtain rfl := Option.some.inj (hescrow.symm.trans he)
  obtain ⟨hle, hlost⟩ := slashReserve_spec hreserve
  have hsol : c.accounts.task.rewardMint.isNone = false := by
    rwa [← Bool.not_eq_true, Option.isNone_iff_eq_none]
  simp only [settleRuling, hsol, Bool.false_eq_true, if_false, TaskContext.task_eq] at hsettles
  obtain ⟨hcovered, hbooks, htokens, hpaid₁⟩ :=
    settleRulingToken_eq hsettles hescrow hvault (Nat.sub_pos_of_lt hleft)
  have hgoing : ¬c.accounts.task.status.isFinished := by
    rw [hdisputed]
    decide
  have hfinished : c'.accounts.task.status.isFinished := by
    rw [hstatus]
    exact rulingStatus_isFinished _ _
  have hps : escrowPayments c.key c'.paid = escrowPayments c.key c₁.paid := by
    rw [hpays, escrowPayments_append, hus.escrowPayments, List.append_nil]
  rw [hpaid, List.nil_append] at hpaid₁
  rw [← hescrow'] at hbooks
  rw [← hvault'] at htokens
  dsimp only at hcovered hbooks htokens hpaid₁
  by_cases hnothing : reserve = 0
  · subst hnothing
    simp only [Nat.sub_zero, decide_true, if_true] at hcovered hbooks htokens hpaid₁
    have hpays : escrowPayments c.key c'.paid = c₁.paid := by
      rw [hps, hpaid₁]
      refine escrowPayments_eq_self fun t ht => ?_
      rcases List.mem_append.mp ht with ht | ht
      · rw [tokenRuling_source t ht]
        exact isEscrow_tokenEscrow
      · rw [List.mem_singleton.mp ht]
        exact isEscrow_tokenEscrow
    exact .ruled rfl hgoing hescrow hvault (Nat.add_sub_cancel' hleft.le) hcovered hbooks htokens
      hfinished (hpays.trans hpaid₁)
  · have hpos : 0 < reserve := Nat.pos_of_ne_zero hnothing
    obtain ⟨rfl, hrefund⟩ := workerLostDispute_eq_true.mp (hlost hpos)
    rw [decide_eq_false hnothing] at hbooks
    rw [if_neg hnothing] at htokens hpaid₁
    rw [hrefund, List.append_nil] at hpaid₁
    have hsum : escrow.data.distributed +
        (escrow.data.amount - escrow.data.distributed - reserve) + reserve =
          escrow.data.amount := by
      omega
    refine .reserved rfl hgoing hescrow hvault hsum hpos hcovered hbooks htokens hfinished ?_ ?_
    · rw [hpending, hlost hpos]
    · rw [hps, hpaid₁]
      refine escrowPayments_eq_self fun t ht => ?_
      rw [tokenRuling_source t ht]
      exact isEscrow_tokenEscrow

theorem refundExpiredDispute_tokens {c₁ : TaskContext} {escrow : Account TaskEscrow} {held : ℕ}
    (h : refundExpiredDispute c = .ok c₁) (hmint : c.accounts.task.rewardMint ≠ none)
    (hescrow : c.accounts.escrow = some escrow) (hvault : c.accounts.tokenEscrow = some held)
    (hleft : escrow.data.distributed < escrow.data.amount) :
    escrow.data.amount - escrow.data.distributed ≤ held ∧ c₁.accounts.escrow = none ∧
    c₁.accounts.tokenEscrow = none ∧
    c₁.paid = c.paid ++
      [⟨.tokenEscrow c.key, c.accounts.task.creator, .creatorRefund,
          escrow.data.amount - escrow.data.distributed⟩,
        ⟨.tokenEscrow c.key, c.accounts.task.creator, .closingBalance,
          held - (escrow.data.amount - escrow.data.distributed)⟩,
        closeEscrowTransfer c.key c.accounts.task.creator escrow.lamports] := by
  have hsol : c.accounts.task.rewardMint.isNone = false := by
    rwa [← Bool.not_eq_true, Option.isNone_iff_eq_none]
  have hne : ¬escrow.data.amount - escrow.data.distributed = 0 := (Nat.sub_pos_of_lt hleft).ne'
  simp only [refundExpiredDispute, bind_eq_ok, demand_eq_ok, subU_eq_ok, hescrow,
    Option.some.injEq, TaskContext.task_eq, hsol, Bool.false_eq_true, if_false] at h
  obtain ⟨_, rfl, _, ⟨-, rfl⟩, h⟩ := h
  simp only [hne, if_false, bind_eq_ok, demand_eq_ok, subU_eq_ok, hvault, Option.some.injEq,
    Except.ok.injEq] at h
  obtain ⟨_, rfl, _, ⟨hcovered, rfl⟩, rfl⟩ := h
  exact ⟨hcovered, rfl, rfl, rfl⟩

theorem expireDispute_tokens (h : expireDispute c d = .ok (c', d'))
    (hmint : c.accounts.task.rewardMint ≠ none)
    (hopen : c.accounts.task.status = .Disputed → StakesOpen c.accounts) (hpaid : c.paid = []) :
    MovesTokens c c' := by
  simp only [expireDispute, bind_eq_ok, demand_eq_ok, require_eq_ok, TaskContext.task_eq] at h
  obtain ⟨_, -, _, -, _, hdisputed, _, -, _, -, claim, -, c₁, h₁, h⟩ := h
  obtain ⟨c₂, h₂, c₃, h₃, c₄, h₄, c₅, h₅, h⟩ := h
  obtain ⟨escrow, held, hescrow, hvault, hleft⟩ := hopen hdisputed
  obtain ⟨hcovered, hescrow₁, hvault₁, hpaid₁⟩ :=
    refundExpiredDispute_tokens h₁ hmint hescrow hvault hleft
  obtain ⟨_, escrow', vault', paidRefund, -, -, -, rfl⟩ := refundExpiredDispute_spec h₁
  obtain ⟨live, validation', closings, -, hcloses, rfl⟩ := sweepDisputeSubmission_spec h₂
  obtain ⟨book', bids', bidder', paidBid, hbid, rfl⟩ := settleBidOf_spec h₃
  obtain ⟨-, rfl⟩ := settleCompletionBond_spec h₄
  obtain ⟨bonds', paidBond, hbond, rfl⟩ := settleNoShowBond_spec True h₅ fun _ => trivial
  obtain ⟨rfl, rfl⟩ := Prod.mk.inj (Except.ok.inj h)
  have hrefund := List.append_cancel_left hpaid₁
  have hgoing : ¬c.accounts.task.status.isFinished := by
    rw [hdisputed]
    decide
  rw [hrefund]
  refine .of_pays hpaid ((((((PaysFirst.first _ _ _).append hcloses.outside).append
    hbid.outside).append outside_claimClosings).append outside_bondPayments).append hbond.outside)
      (by simp [closeEscrowTransfer]) ?_
  exact .refunded rfl hgoing hescrow hvault (Nat.add_sub_cancel' hleft.le) hcovered hescrow₁
    hvault₁ (.inr rfl) rfl

/-- The slash sweeps the token account whenever the escrow is open. -/
theorem applyDisputeSlash_tokens {withTokenAccounts : Bool}
    (h : applyDisputeSlash c d withTokenAccounts = .ok (c', d'))
    (hmint : c.accounts.task.rewardMint ≠ none)
    (hended : d.status = .Resolved → c.accounts.task.status.isFinished) (hpaid : c.paid = []) :
    MovesTokens c c' := by
  have htoken : c.accounts.task.rewardMint.isSome = true := Option.isSome_iff_ne_none.mpr hmint
  simp only [applyDisputeSlash, bind_eq_ok, demand_eq_ok, require_eq_ok, TaskContext.task_eq] at h
  obtain ⟨claim, -, _, -, _, -, _, hresolved, pct, -, _, -, h⟩ := h
  obtain ⟨reserved, hreserved, _, -, slash, -, worker, -, c₁, h₁, _, -, h⟩ := h
  simp only [tokenReserveHeld, htoken, if_true, bind_eq_ok, demand_eq_ok, Except.ok.injEq,
    TaskContext.task_eq] at hreserved
  obtain ⟨escrow, hescrow, rfl⟩ := hreserved
  have hslash : Outside c.key [⟨.agent c.workerKey, c.config.treasury, .stakeSlash, slash⟩] := by
    simp [Outside, Custody.isEscrow]
  -- Whether or not the dispute was marked before, the accounts are those of the sweep.
  obtain ⟨hescrow', hvault', hstatus, us, hpays, hus⟩ :
      c'.accounts.escrow = c₁.accounts.escrow ∧ c'.accounts.tokenEscrow = c₁.accounts.tokenEscrow ∧
        c'.accounts.task.status = c₁.accounts.task.status ∧
        ∃ us, c'.paid = c₁.paid ++ us ∧ Outside c.key us := by
    obtain ⟨_, _, _, -, -, hc₁⟩ := settleTokenReserve_spec h₁
    subst hc₁
    by_cases happlied : d.slashApplied = true
    · simp only [happlied, if_true] at h
      obtain ⟨rfl, -⟩ := Prod.mk.inj (Except.ok.inj h)
      exact ⟨rfl, rfl, rfl, _, rfl, outside_claimClosings⟩
    · simp only [happlied] at h
      obtain ⟨rfl, -⟩ := Prod.mk.inj (Except.ok.inj h)
      exact ⟨rfl, rfl, rfl, _, rfl, outside_claimClosings⟩
  have hps : escrowPayments c.key c'.paid = escrowPayments c.key c₁.paid := by
    rw [hpays, escrowPayments_append, hus.escrowPayments, List.append_nil]
  unfold MovesTokens
  rw [hps]
  unfold settleTokenReserve at h₁
  split_ifs at h₁ with hsettle
  · simp only [bind_eq_ok, demand_eq_ok, Except.ok.injEq] at h₁
    obtain ⟨_, -, e, he, held, hvault, rfl⟩ := h₁
    obtain rfl := Option.some.inj (hescrow.symm.trans he)
    refine .slashed rfl (hended hresolved) hescrow hvault hescrow' hvault' hstatus ?_
    show escrowPayments c.key (c.paid ++ _ ++ _) = _
    rw [hpaid, List.nil_append, escrowPayments_append, hslash.escrowPayments, List.nil_append]
    exact escrowPayments_eq_self (by simp [closeEscrowTransfer, TaskContext.pay])
  · obtain rfl := Except.ok.inj h₁
    have hclosed : escrow.data.isClosed = true := by
      cases hc : escrow.data.isClosed with
      | true => rfl
      | false => simp [hc] at hsettle
    refine .waived rfl hescrow hclosed hescrow' hvault' hstatus ?_
    show escrowPayments c.key (c.paid ++ _) = _
    rw [hpaid, List.nil_append, hslash.escrowPayments]

theorem DisputeOp.run_tokens {w : World} {op : DisputeOp} (h : op.run w c d = .ok (c', d'))
    (hmint : c.accounts.task.rewardMint ≠ none)
    (hopen : c.accounts.task.status = .Disputed → StakesOpen c.accounts)
    (hended : d.status = .Resolved → c.accounts.task.status.isFinished) (hpaid : c.paid = []) :
    MovesTokens c c' := by
  cases op with
  | cancelDispute signer =>
    obtain ⟨status, _, -, -, hstatus, -, -, rfl, rfl⟩ := cancelDispute_spec h
    exact .of_unpaid hpaid rfl rfl rfl rfl rfl (hstatus ▸ .restored _ _)
  | resolveDispute signer signers withAssignment approved payees =>
    exact resolveDispute_tokens h hmint hopen hpaid
  | expireDispute => exact expireDispute_tokens h hmint hopen hpaid
  | settleDisputeClaim =>
    obtain ⟨claim, live, validation', closings, _, _, _, h⟩ := settleDisputeClaim_spec h
    obtain ⟨-, -, -, -, -, -, -, hcloses, -, -, -, rfl, rfl⟩ := h
    exact .of_kept hpaid (((PaysFirst.none _ _).append hcloses.outside).append
      outside_claimClosings) rfl rfl rfl rfl (.same _)
  | applyDisputeSlash withTokenAccounts => exact applyDisputeSlash_tokens h hmint hended hpaid

end Rulings

/-! ## The other instructions on a task -/

section Tasks

variable {c c' : TaskContext}

theorem TaskOp.run_tokens {op : TaskOp} (h : op.run c = .ok c') (hpaid : c.paid = []) :
    MovesTokens c c' := by
  cases op with
  | configureTaskValidation signer mode reviewWindowSecs validatorQuorum attestor =>
    obtain ⟨_, -, -, -, -, -, rfl⟩ := configureTaskValidation_spec h
    exact .of_unpaid hpaid rfl rfl rfl rfl rfl (.same _)
  | setTaskJobSpec signer jobSpecHash =>
    obtain ⟨_, -, rfl⟩ := setTaskJobSpec_spec h
    exact .of_unpaid hpaid rfl rfl rfl rfl rfl (.same _)
  | initializeBidBook signer policy weights =>
    obtain ⟨_, _, -, -, -, -, rfl⟩ := initializeBidBook_spec h
    exact .of_unpaid hpaid rfl rfl rfl rfl rfl (.same _)
  | postCreatorBond signer prefunded =>
    have h : postCompletionBond c signer .Creator prefunded = .ok c' := h
    obtain ⟨_, -, -, -, -, -, -, -, -, rfl⟩ := postCompletionBond_spec h
    exact .of_unpaid hpaid rfl rfl rfl rfl rfl (.same _)
  | reclaimCompletionBond party role =>
    obtain ⟨-, rfl⟩ := reclaimCompletionBond_spec h
    exact .of_kept hpaid ((PaysFirst.none _ _).append outside_bondPayments) rfl rfl rfl rfl
      (.same _)

theorem refundEscrow_tokens (h : refundEscrow c = .ok c')
    (hmint : c.accounts.task.rewardMint ≠ none) :
    ∃ escrow held, c.accounts.escrow = some escrow ∧ c.accounts.tokenEscrow = some held ∧
      escrow.data.distributed ≤ escrow.data.amount ∧
      escrow.data.amount - escrow.data.distributed ≤ held ∧
      c' = { c with
        accounts := { c.accounts with escrow := none, tokenEscrow := none }
        paid := c.paid ++
          [⟨.tokenEscrow c.key, c.accounts.task.creator, .creatorRefund,
              escrow.data.amount - escrow.data.distributed⟩,
            ⟨.tokenEscrow c.key, c.accounts.task.creator, .closingBalance,
              held - (escrow.data.amount - escrow.data.distributed)⟩,
            closeEscrowTransfer c.key c.accounts.task.creator escrow.lamports] } := by
  have htoken : c.accounts.task.rewardMint.isSome = true := Option.isSome_iff_ne_none.mpr hmint
  simp only [refundEscrow, bind_eq_ok, demand_eq_ok, subU_eq_ok, TaskContext.task_eq, htoken,
    if_true, Except.ok.injEq] at h
  obtain ⟨escrow, hescrow, _, ⟨hle, rfl⟩, held, hvault, _, ⟨hcovered, rfl⟩, rfl⟩ := h
  exact ⟨escrow, held, hescrow, hvault, hle, hcovered, rfl⟩

theorem cancelTask_tokens {agents agents' : Ledger Pubkey (Account AgentRegistration)}
    {signer : Pubkey} {workers : List Pubkey} {workerBondAuthority : Pubkey} {withParent : Bool}
    (h : cancelTask c agents signer workers workerBondAuthority withParent = .ok (c', agents'))
    (hmint : c.accounts.task.rewardMint ≠ none) (hpaid : c.paid = []) : MovesTokens c c' := by
  obtain ⟨_, _, _, _, _, _, _, _, _, _, _, _, _, -, hstatus, -⟩ := cancelTask_spec h
  have hgoing : ¬c.accounts.task.status.isFinished := by
    rcases hstatus with hstatus | ⟨hstatus, -⟩ <;> rw [hstatus] <;> decide
  simp only [cancelTask, bind_eq_ok, require_eq_ok, Prod.exists, Except.ok.injEq, Prod.mk.injEq,
    TaskContext.task_eq] at h
  obtain ⟨_, -, _, -, _, -, _, -, c₁, h₁, c₂, h₂, c₃, agents₃, h₃, h⟩ := h
  obtain ⟨c₄, h₄, _, -, c₅, h₅, rfl, rfl⟩ := h
  obtain ⟨escrow, held, hescrow, hvault, hle, hcovered, rfl⟩ := refundEscrow_tokens h₁ hmint
  obtain ⟨book', bids', bidder', paidBid, hbid, rfl⟩ := settleBidsOnCancel_spec h₂
  obtain ⟨-, -, -, workerKey, claims', paidClaims, -, -, hclaims, rfl⟩ :=
    closeCancelledClaims_spec h₃
  obtain ⟨-, rfl⟩ := settleCompletionBond_spec h₄
  obtain ⟨bonds', paidBond, hbond, rfl⟩ := settleNoShowBond_spec True h₅ fun _ => trivial
  have hclosed : Outside c.key paidClaims := by
    intro t ht
    obtain ⟨⟨k, -, hsource⟩, -⟩ := hclaims t ht
    rw [hsource]
    rfl
  refine .of_pays hpaid (((((PaysFirst.first _ _ _).append hbid.outside).append hclosed).append
    outside_bondPayments).append hbond.outside) (by simp [closeEscrowTransfer]) ?_
  exact .refunded rfl hgoing hescrow hvault (Nat.add_sub_cancel' hle) hcovered rfl rfl (.inr rfl)
    rfl

theorem closeTask_tokens {agents : Ledger Pubkey (Account AgentRegistration)} {signer : Pubkey}
    {withJobSpec withEscrow : Bool} {workerBond : Option Pubkey} {children : List TaskChild}
    (h : closeTask c agents signer withJobSpec withEscrow workerBond children = .ok c')
    (hpaid : c.paid = []) : MovesTokens c c' := by
  obtain ⟨escrow', paidEscrow, _, submissions', validation', attestor', ts, h⟩ := closeTask_spec h
  obtain ⟨-, -, -, hescrow, -, -, -, hts, rfl⟩ := h
  have hrest : Outside c.key ts := by
    intro t ht
    obtain ⟨k, hsource⟩ := (hts t ht).1
    rw [hsource]
    rfl
  rcases hescrow with ⟨rfl, rfl⟩ | ⟨escrow, hescrow, hclosed, rfl, rfl⟩
  · exact .of_kept hpaid (((PaysFirst.none _ _).append Outside.nil).append hrest) rfl rfl rfl rfl
      (.same _)
  · refine .of_pays hpaid ((PaysFirst.first _ _ _).append hrest) (by simp [closeEscrowTransfer]) ?_
    exact .dropped rfl hescrow hclosed rfl rfl rfl rfl

/-- The tokens an instruction sends into the token account of the task. -/
def Instruction.sendsTokens (key : Pubkey) : Instruction → ℕ
  | .donate (.tokenEscrow k) amount => if k = key then amount else 0
  | _ => 0

/-- Every instruction on a task paid in tokens makes one move on its two accounts. -/
theorem TaskMove.tokens {w : World} {key : Pubkey} {acc acc' : TaskAccounts} {i : Instruction}
    {ts : List Transfer} (h : TaskMove w key acc i acc' ts)
    (hmint : acc.task.rewardMint ≠ none) (htype : acc.task.taskType ≠ .BidExclusive)
    (hunfrozen : acc.task.status ≠ .RejectFrozen)
    (hopen : acc.task.status = .Disputed → StakesOpen acc)
    (hended : ∀ k d, w.disputes.lookup k = some d → d.task = key → d.status = .Resolved →
      acc.task.status.isFinished) :
    TokenMove key w.config.treasury acc acc' (i.sendsTokens key) (escrowPayments key ts) := by
  cases h with
  | @donated target amount acc' credits =>
    have hnone : escrowPayments key [] = [] := rfl
    rw [hnone]
    cases credits with
    | escrow loaded =>
      refine .kept (by rw [loaded]; rfl) ?_ rfl rfl (.same _) (by simp)
      cases acc.tokenEscrow with
      | none => rfl
      | some held => rfl
    | tokenEscrow loaded =>
      refine .kept rfl ?_ rfl rfl (.same _) (by simp)
      rw [loaded, Instruction.sendsTokens, if_pos rfl]
      rfl
    | claim | submission | bond | bid =>
      refine .kept rfl ?_ rfl rfl (.same _) (by simp)
      cases acc.tokenEscrow with
      | none => rfl
      | some held => rfl
  | task ran => exact TaskOp.run_tokens ran rfl
  | work found ran rent => exact WorkOp.run_tokens ran hmint htype hunfrozen rfl
  | cancelled listed ran =>
    obtain ⟨hkey, haccounts, -, hconfig, hpaid, -⟩ := listed_context listed
    have hmoves := cancelTask_tokens ran (by rw [haccounts]; exact hmint) hpaid
    unfold MovesTokens at hmoves
    rwa [hkey, haccounts, hconfig] at hmoves
  | closed ran => exact closeTask_tokens ran rfl
  | disputed opens =>
    refine .kept rfl ?_ rfl rfl (.inr (.inr rfl)) (by simp [escrowPayments])
    cases acc.tokenEscrow with
    | none => rfl
    | some held => rfl
  | ruled found filed about ran rent =>
    exact DisputeOp.run_tokens ran hmint hopen (hended _ _ filed about) rfl

end Tasks

end AgencCoordination
