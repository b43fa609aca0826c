import AgencCoordination.Effects.Bidding
import AgencCoordination.Program.Expiry

/-!
# What expiring, cancelling and cleaning up do

One lemma for each handler of `Program.Expiry`.

* **`expireClaim_spec`** — a worker who did not deliver loses the claim, the caller is paid.
* **`distributeGhostShare_spec`** — one slice of an abandoned contest.
* **`cancelTask_spec`** — the escrow goes back, every listed claim is closed.
* **`reclaimTerminalClaim_spec`, `closeTask_spec`** — what a finished task leaves behind.
-/

namespace AgencCoordination

open Foundations

/-! ## Expired claims -/

/-- What closing a claim pays: its surplus, when that is forfeit, and the rest. -/
def claimClosings (c : TaskContext) (recipient : Pubkey) (claim : Account TaskClaim)
    (forfeited : ℕ) : List Transfer :=
  [⟨.claim c.key c.workerKey, c.config.treasury, .depositForfeit, forfeited⟩,
    ⟨.claim c.key c.workerKey, recipient, .closingBalance, claim.lamports - forfeited⟩]

/-- The status of a task that lost a worker to expiry, from its review configuration, the status
it had and the workers it has left. -/
def reopenedStatus (manual : Bool) (validation : Option TaskValidationConfig)
    (status : TaskStatus) (workers : ℕ) : TaskStatus :=
  if manual then
    match validation with
    | some config => syncedStatus status config.pendingSubmissionCount workers
    | none => status
  else if workers = 0 ∧ status = .InProgress then .Open
  else status

/-- When a no-show may be penalised: on an exclusive task that had not to wait for its parent. -/
def NoShowPenalty (c : TaskContext) : Prop :=
  c.accounts.task.taskType = .Exclusive ∧ dependencyParentCompleted c = true

/-- How the end of a claim disposes of the completion bond of `poster`: not at all, back to the
poster, or to the creator as a no-show when `penalty` allows it. -/
inductive SettlesNoShow (key poster creator : Pubkey) (penalty : Prop)
    (bonds : Ledger Pubkey (Account CompletionBond)) :
    Ledger Pubkey (Account CompletionBond) → List Transfer → Prop
  | untouched : SettlesNoShow key poster creator penalty bonds bonds []
  | refunded : SettlesNoShow key poster creator penalty bonds (bonds.erase poster)
      (bondPayments key poster .Refund (bonds.lookup poster))
  | forfeited (allowed : penalty)
      (worker : ∀ bond, bonds.lookup poster = some bond →
        bond.data.role = .Worker ∧ bond.data.amount ≤ bond.lamports) :
      SettlesNoShow key poster creator penalty bonds (bonds.erase poster)
        (bondPayments key poster (.Forfeit creator .noShowForfeit) (bonds.lookup poster))

theorem settleNoShowBond_spec {c c' : TaskContext} {poster : Pubkey} {penaltyAllowed : Bool}
    (penalty : Prop) (h : settleNoShowBond c poster penaltyAllowed = .ok c')
    (hallowed : penaltyAllowed = true → penalty) :
    ∃ bonds' ts,
      SettlesNoShow c.key poster c.accounts.task.creator penalty c.accounts.bonds bonds' ts ∧
      c' = { c with
        accounts := { c.accounts with bonds := bonds' }
        paid := c.paid ++ ts } := by
  obtain ⟨hbond, rfl⟩ := settleCompletionBond_spec h
  cases penaltyAllowed with
  | true =>
    refine ⟨_, _, .forfeited (hallowed rfl) fun bond hb => ?_, rfl⟩
    exact ⟨(hbond bond hb).1, by simpa using (hbond bond hb).2⟩
  | false => exact ⟨_, _, .refunded, rfl⟩

theorem payCleanupReward_spec {c c' : TaskContext} {caller : Pubkey}
    (h : payCleanupReward c caller = .ok c') :
    ∃ escrow reward, c.accounts.escrow = some escrow ∧
      escrow.data.distributed ≤ escrow.data.amount ∧
      reward = cleanupRewardForTask c.accounts.task.rewardMint.isSome
        (escrow.data.amount - escrow.data.distributed) ∧
      reward ≤ escrow.lamports ∧
      c' = { c with
        accounts := { c.accounts with
          escrow := some ⟨escrow.lamports - reward,
            { escrow.data with distributed := escrow.data.distributed + reward }⟩ }
        paid := c.paid ++ [⟨.escrow c.key, caller, .cleanupReward, reward⟩] } := by
  simp only [payCleanupReward, bind_eq_ok, demand_eq_ok, subU_eq_ok, addU64_eq_ok,
    Except.ok.injEq, TaskContext.task_eq] at h
  obtain ⟨escrow, hescrow, _, ⟨hle, rfl⟩, _, ⟨hcovered, rfl⟩, _, ⟨-, rfl⟩, rfl⟩ := h
  exact ⟨escrow, _, hescrow, hle, rfl, hcovered, rfl⟩

theorem reopenAfterExpiry_spec {c c' : TaskContext} (h : reopenAfterExpiry c = .ok c') :
    (isManualValidationTask c.accounts.task = true → c.accounts.validation.isSome = true) ∧
    c' = { c with accounts := { c.accounts with task := { c.accounts.task with
      status := reopenedStatus (isManualValidationTask c.accounts.task) c.accounts.validation
        c.accounts.task.status c.accounts.task.currentWorkers } } } := by
  simp only [reopenAfterExpiry, TaskContext.task_eq] at h
  by_cases hmanual : isManualValidationTask c.accounts.task = true
  · simp only [hmanual, if_true, bind_eq_ok, Except.ok.injEq] at h
    obtain ⟨config, hconfig, rfl⟩ := h
    obtain ⟨-, hvalidation, -⟩ := ensureValidationConfig_spec hconfig
    refine ⟨fun _ => by simp [hvalidation], ?_⟩
    rw [syncStatus_eq hvalidation]
    simp only [reopenedStatus, hmanual, hvalidation, if_true]
  · rw [if_neg hmanual] at h
    refine ⟨fun hm => absurd hm hmanual, ?_⟩
    simp only [reopenedStatus, hmanual, Bool.false_eq_true, if_false]
    split_ifs at h with hopen
    · rw [if_pos hopen]
      exact (Except.ok.inj h).symm
    · rw [if_neg hopen]
      exact (Except.ok.inj h).symm

/-- An expired claim is gone: the caller has its reward, the slot is free, an accepted bid and a
no-show's bond are settled. -/
theorem expireClaim_spec {c c' : TaskContext} {caller : Pubkey} {withSubmission : Bool}
    (h : expireClaim c caller withSubmission = .ok c') :
    ∃ claim escrow reward forfeited book' bids' bidder' paidBid bonds' paidBond,
      c.accounts.claims.lookup c.workerKey = some claim ∧
      claim.data.isCompleted = false ∧
      (0 < claim.data.expiresAt ∧ claim.data.expiresAt < c.sys.now) ∧
      (c.accounts.task.status = .InProgress ∨ c.accounts.task.status = .PendingValidation) ∧
      (c.accounts.task.status = .PendingValidation →
        ∀ s, c.accounts.submissions.lookup c.workerKey = some s → s.data.status ≠ .Submitted) ∧
      (isContestConfiguredTask c.accounts.task = true →
        c.accounts.submissions.lookup c.workerKey = none) ∧
      (isManualValidationTask c.accounts.task = true → c.accounts.validation.isSome = true) ∧
      c.accounts.escrow = some escrow ∧
      escrow.data.distributed ≤ escrow.data.amount ∧
      reward = cleanupRewardForTask c.accounts.task.rewardMint.isSome
        (escrow.data.amount - escrow.data.distributed) ∧
      reward ≤ escrow.lamports ∧
      SettlesBid c.bidSide .Reopen (acceptedBidNoShowBondDisposition true) book' bids' bidder'
        paidBid ∧
      SettlesNoShow c.key c.worker.data.authority c.accounts.task.creator (NoShowPenalty c)
        c.accounts.bonds bonds' paidBond ∧
      c' = { c with
        accounts := { c.accounts with
          task := { c.accounts.task with
            currentWorkers := c.accounts.task.currentWorkers - 1
            status := reopenedStatus (isManualValidationTask c.accounts.task)
              c.accounts.validation c.accounts.task.status
              (c.accounts.task.currentWorkers - 1) }
          escrow := some ⟨escrow.lamports - reward,
            { escrow.data with distributed := escrow.data.distributed + reward }⟩
          claims := c.accounts.claims.erase c.workerKey
          bonds := bonds'
          bidBook := book'
          bids := bids' }
        worker := { c.worker with data := { c.worker.data with
          activeTasks := c.worker.data.activeTasks - 1 } }
        bidder := bidder'
        paid := c.paid ++ [⟨.escrow c.key, caller, .cleanupReward, reward⟩] ++ paidBid ++
          paidBond ++ claimClosings c c.worker.data.authority claim forfeited } := by
  simp only [expireClaim, bind_eq_ok, demand_eq_ok, require_eq_ok,
    TaskContext.task_eq] at h
  obtain ⟨_, -, claim, hclaim, _, -, _, hopen, _, hexpires, _, hexpired, _, -, h⟩ := h
  obtain ⟨_, hwith, _, hexpirable, _, -, c₁, h₁, _, hcontest, c₂, h₂, c₃, h₃, h⟩ := h
  obtain ⟨escrow, reward, hescrow, hle, hreward, hcovered, rfl⟩ := payCleanupReward_spec h₁
  obtain ⟨hvalidation, rfl⟩ := reopenAfterExpiry_spec h₂
  obtain ⟨book', bids', bidder', paidBid, hbid, rfl⟩ := settleBidOf_spec h₃
  have hstatus : c.accounts.task.status = .InProgress ∨
      c.accounts.task.status = .PendingValidation := by
    simp only [claimIsExpirable, Bool.and_eq_true, decide_eq_true_eq] at hexpirable
    exact hexpirable.1
  have hpending : c.accounts.task.status = .PendingValidation →
      ∀ s, c.accounts.submissions.lookup c.workerKey = some s → s.data.status ≠ .Submitted := by
    intro hpv s hs hsub
    simp [claimIsExpirable, hwith hpv, hs, hsub] at hexpirable
  have habsent : isContestConfiguredTask c.accounts.task = true →
      c.accounts.submissions.lookup c.workerKey = none := by
    intro hc
    have := hcontest hc
    simp only [Bool.and_eq_true, Option.isNone_iff_eq_none] at this
    exact this.2
  rcases ite_eq_iff.mp h with ⟨hno, h⟩ | ⟨-, h⟩
  · simp only [bind_eq_ok, Except.ok.injEq] at h
    obtain ⟨c₄, h₄, rfl⟩ := h
    obtain ⟨bonds', paidBond, hsettles, rfl⟩ :=
      settleNoShowBond_spec (NoShowPenalty c) h₄ fun hp => ⟨hno.2, hp⟩
    exact ⟨claim, escrow, reward, _, book', bids', bidder', paidBid, bonds', paidBond, hclaim, hopen,
      ⟨hexpires, hexpired⟩, hstatus, hpending, habsent, hvalidation, hescrow, hle, hreward,
      hcovered, hbid, hsettles, rfl⟩
  · obtain rfl := Except.ok.inj h
    refine ⟨claim, escrow, reward,
      if isContestConfiguredTask c.accounts.task then claimSurplus c.sys.rent claim else 0, book',
      bids', bidder', paidBid, _, _, hclaim, hopen,
      ⟨hexpires, hexpired⟩, hstatus, hpending, habsent, hvalidation, hescrow, hle, hreward,
      hcovered, hbid, .untouched, ?_⟩
    simp only [List.append_nil]
    rfl

/-! ## Abandoned contests -/

@[simp] theorem contestGhostAt_eq_ok {task : Task} {ghostAt : ℤ} :
    contestGhostAt task = .ok ghostAt ↔ 0 < task.deadline ∧
      (i64Min ≤ task.deadline + selectionWindowSecs ∧
        task.deadline + selectionWindowSecs ≤ i64Max) ∧
      ghostAt = task.deadline + selectionWindowSecs := by
  simp only [contestGhostAt, require_bind_eq_ok, addI64_eq_ok]

theorem ghostSplit_spec {slice feeBps : ℕ} {operatorLeg referrerLeg : Option FeeLeg}
    {rent : Rent} {s : RewardSplit}
    (h : ghostSplit slice feeBps operatorLeg referrerLeg rent = .ok s) :
    SplitOf s slice operatorLeg referrerLeg rent := by
  unfold ghostSplit at h
  split_ifs at h with hzero
  · obtain rfl := Except.ok.inj h
    subst hzero
    obtain ⟨hoperator, hreferrer⟩ := dueFees_zero operatorLeg referrerLeg rent
    exact ⟨rfl, hoperator.symm, hreferrer.symm⟩
  · simp only [bind_eq_ok, Prod.exists] at h
    obtain ⟨workerReward, protocolFee, hsplit, hcarve⟩ := h
    have hsum := (calculateRewardSplitForAmount_spec hsplit).1
    exact carveMarketplaceLegs_spec hcarve hsum

theorem payGhostSlice_spec {c c' : TaskContext} {escrow : Account TaskEscrow}
    {split : RewardSplit} {slice : ℕ} {operatorLeg referrerLeg : Option FeeLeg} {final : Bool}
    (h : payGhostSlice c escrow split operatorLeg referrerLeg final = .ok c')
    (hof : SplitOf split slice operatorLeg referrerLeg c.sys.rent) {payees : PayeeAccounts}
    (hlegs : LegsFor c.accounts.task.marketplaceTerms payees operatorLeg referrerLeg)
    (hescrow : c.accounts.escrow = some escrow) (hmint : c.accounts.task.rewardMint = none) :
    ∃ escrow' ts,
      Settles c.snapshotTill payees slice final escrow' c.accounts.tokenEscrow ts ∧
      c' = { c with
        accounts := { c.accounts with escrow := escrow' }
        paid := c.paid ++ ts } := by
  simp only [payGhostSlice, bind_eq_ok, require_eq_ok, addU64_eq_ok] at h
  obtain ⟨_, hcovered, _, ⟨hfits, rfl⟩, h⟩ := h
  have htotal := hof.total
  rw [htotal] at hcovered hfits
  refine ⟨_, _, .sol (t := c.snapshotTill) hmint hescrow hof (.inl hlegs) hcovered hfits, ?_⟩
  cases final <;>
    simp [TaskContext.pay, settledEscrow, settledPayments, TaskContext.till, TaskContext.snapshotTill,
      htotal] at h ⊢ <;>
    exact h.symm

/-- One slice: a waiting entry of an abandoned contest gets an equal share of the pool that is
left, and the last one completes the task. -/
theorem distributeGhostShare_spec {c c' : TaskContext} {payees : PayeeAccounts}
    (h : distributeGhostShare c payees = .ok c') :
    ∃ config submission claim escrow escrow' paidReward,
      UnderReview c config submission ∧ config.mode = .CreatorReview ∧
      c.accounts.task.isContestTask = true ∧
      c.accounts.claims.lookup c.workerKey = some claim ∧
      (0 < c.accounts.task.deadline ∧
        c.accounts.task.deadline + selectionWindowSecs ≤ c.sys.now) ∧
      c.accounts.task.rewardMint = none ∧
      c.accounts.escrow = some escrow ∧ escrow.data.distributed ≤ escrow.data.amount ∧
      0 < c.accounts.task.liveSubmissions ∧
      1 ≤ config.pendingSubmissionCount ∧
      1 ≤ c.accounts.task.currentWorkers ∧ 1 ≤ c.worker.data.activeTasks ∧
      Settles c.snapshotTill payees
        ((escrow.data.amount - escrow.data.distributed) / c.accounts.task.liveSubmissions)
        (decide (c.accounts.task.liveAfterLeaving = 0)) escrow' c.accounts.tokenEscrow
        paidReward ∧
    ∃ completedAt tasksCompleted totalEarned reputation completedTasks totalValue,
      c' = { c with
        accounts := { c.accounts with
          task := { c.accounts.task with
            liveSubmissions := c.accounts.task.liveAfterLeaving
            currentWorkers := c.accounts.task.currentWorkers - 1
            completions := c.accounts.task.completions + 1
            status := if c.accounts.task.liveAfterLeaving = 0 then .Completed
              else c.accounts.task.status
            completedAt := completedAt }
          escrow := escrow'
          validation := some { config with
            pendingSubmissionCount := config.pendingSubmissionCount - 1 }
          claims := c.accounts.claims.erase c.workerKey
          submissions := c.accounts.submissions.erase c.workerKey }
        worker := { c.worker with data := { c.worker.data with
          tasksCompleted := tasksCompleted
          totalEarned := totalEarned
          activeTasks := c.worker.data.activeTasks - 1
          lastActive := c.sys.now
          reputation := reputation } }
        config := { c.config with
          completedTasks := completedTasks, totalValueDistributed := totalValue }
        paid := c.paid ++ paidReward ++ [submissionClosing c submission.lamports] ++
          [claimClosing c claim.lamports] } := by
  simp only [distributeGhostShare, bind_eq_ok, demand_eq_ok, require_eq_ok, subU_eq_ok,
    addU8_eq_ok, contestGhostAt_eq_ok, computeGhostSlice, Except.ok.injEq,
    TaskContext.task_eq] at h
  obtain ⟨_, hclaimed, submission, hstored, escrow, hescrow, _, -, _, hstatus, h⟩ := h
  obtain ⟨_, hcontest, config, hconfig, _, hsubmitted, ghostAt, ⟨hpos, -, rfl⟩, h⟩ := h
  obtain ⟨_, hghost, _, hmint, pool, ⟨hle, rfl⟩, slice, ⟨_, hlive, rfl⟩, h⟩ := h
  obtain ⟨operatorLeg, hoperator, referrerLeg, hreferrer, split, hsplit, workers, ⟨hn, rfl⟩, h⟩ := h
  have hlegs : LegsFor c.accounts.task.marketplaceTerms payees operatorLeg referrerLeg :=
    ⟨buildFeeLeg_spec hoperator, buildFeeLeg_spec hreferrer⟩
  obtain ⟨completions, ⟨-, rfl⟩, c₁, h₁, worker, hworker, c₂, h₂, c₃, h₃, h₄⟩ := h
  obtain ⟨hmanual, hvalidation, hmode⟩ := ensureValidationConfig_spec hconfig
  obtain ⟨hpending, -, rfl⟩ := leaveReview_spec h₁
  obtain ⟨ha, tasksCompleted, totalEarned, reputation, rfl⟩ := updateWorkerState_spec hworker
  dsimp only at h₂
  by_cases hfinal : c.accounts.task.liveAfterLeaving = 0
  · simp only [hfinal, decide_true, if_true] at h₂ ⊢
    obtain ⟨escrow', paidReward, hsettles, rfl⟩ :=
      payGhostSlice_spec h₂ (ghostSplit_spec hsplit) hlegs hescrow hmint
    obtain ⟨stored, hlast, rfl⟩ := closeSubmission_spec h₃
    obtain rfl : submission = stored := Option.some.inj (hstored.symm.trans hlast)
    obtain ⟨claim, hclaim, rfl⟩ := closeClaim_spec h₄
    exact ⟨config, submission, claim, escrow, escrow', paidReward, ⟨by simp [hclaimed], hstored,
      hsubmitted, hstatus, hmanual, hvalidation⟩, by simpa [eq_comm] using hmode, hcontest, hclaim,
      ⟨hpos, hghost⟩, hmint, hescrow, hle, hlive, hpending, hn, ha, hsettles, _, tasksCompleted,
      totalEarned, reputation, _, _, rfl⟩
  · simp only [hfinal, decide_false, Bool.false_eq_true, if_false] at h₂ ⊢
    obtain ⟨escrow', paidReward, hsettles, rfl⟩ :=
      payGhostSlice_spec h₂ (ghostSplit_spec hsplit) hlegs hescrow hmint
    obtain ⟨stored, hlast, rfl⟩ := closeSubmission_spec h₃
    obtain rfl : submission = stored := Option.some.inj (hstored.symm.trans hlast)
    obtain ⟨claim, hclaim, rfl⟩ := closeClaim_spec h₄
    exact ⟨config, submission, claim, escrow, escrow', paidReward, ⟨by simp [hclaimed], hstored,
      hsubmitted, hstatus, hmanual, hvalidation⟩, by simpa [eq_comm] using hmode, hcontest, hclaim,
      ⟨hpos, hghost⟩, hmint, hescrow, hle, hlive, hpending, hn, ha, hsettles, _, tasksCompleted,
      totalEarned, reputation, _, _, rfl⟩

/-! ## Cancellation -/

/-- What a refund pays and leaves: everything in a SOL escrow goes to the creator. -/
theorem refundEscrow_spec {c c' : TaskContext} (h : refundEscrow c = .ok c') :
    ∃ escrow vault' ts, c.accounts.escrow = some escrow ∧
      escrow.data.distributed ≤ escrow.data.amount ∧
      (c.accounts.task.rewardMint = none →
        escrow.data.amount - escrow.data.distributed ≤ escrow.lamports ∧
        ts = [⟨.escrow c.key, c.accounts.task.creator, .creatorRefund,
            escrow.data.amount - escrow.data.distributed⟩,
          closeEscrowTransfer c.key c.accounts.task.creator
            (escrow.lamports - (escrow.data.amount - escrow.data.distributed))]) ∧
      (∀ t ∈ ts, (t.source = .escrow c.key ∨ t.source = .tokenEscrow c.key) ∧
        (t.purpose = .creatorRefund ∨ t.purpose = .closingBalance)) ∧
      c' = { c with
        accounts := { c.accounts with escrow := none, tokenEscrow := vault' }
        paid := c.paid ++ ts } := by
  simp only [refundEscrow, bind_eq_ok, demand_eq_ok, subU_eq_ok, TaskContext.task_eq] at h
  obtain ⟨escrow, hescrow, _, ⟨hle, rfl⟩, h⟩ := h
  rcases ite_eq_iff.mp h with ⟨hmint, h⟩ | ⟨hmint, h⟩
  · simp only [bind_eq_ok, demand_eq_ok, subU_eq_ok, Except.ok.injEq] at h
    obtain ⟨vault, -, _, -, rfl⟩ := h
    refine ⟨escrow, none, _, hescrow, hle, fun hnone => ?_, ?_, rfl⟩
    · simp [hnone] at hmint
    · simp [closeEscrowTransfer]
  · simp only [bind_eq_ok, subU_eq_ok, Except.ok.injEq] at h
    obtain ⟨_, ⟨hcovered, rfl⟩, rfl⟩ := h
    exact ⟨escrow, _, _, hescrow, hle, fun _ => ⟨hcovered, rfl⟩, by simp [closeEscrowTransfer],
      rfl⟩

/-- The loop over a cancelled task's workers closes exactly the listed claims, each of which was
open, and frees exactly their workers. -/
theorem closeCancelledClaims_spec {workers : List Pubkey} {c c' : TaskContext}
    {agents agents' : Ledger Pubkey (Account AgentRegistration)}
    (h : closeCancelledClaims c agents workers = .ok (c', agents')) :
    workers.Nodup ∧
    (∀ k ∈ workers, (c.accounts.claims.lookup k).isSome = true) ∧
    (∀ k ∈ workers, (agents.lookup k).isSome = true) ∧
    ∃ workerKey claims' ts,
      (∀ k, claims'.lookup k = if k ∈ workers then none else c.accounts.claims.lookup k) ∧
      (∀ k, agents'.lookup k = if k ∈ workers then
        (agents.lookup k).map fun a => { a with data := { a.data with
          activeTasks := a.data.activeTasks - 1 } } else agents.lookup k) ∧
      (∀ t ∈ ts, (∃ k ∈ workers, t.source = .claim c.key k) ∧
        (t.purpose = .depositForfeit ∨ t.purpose = .closingBalance)) ∧
      c' = { c with
        workerKey := workerKey
        accounts := { c.accounts with claims := claims' }
        paid := c.paid ++ ts } := by
  induction workers generalizing c agents with
  | nil =>
    obtain ⟨rfl, rfl⟩ := Prod.mk.inj (Except.ok.inj h)
    exact ⟨List.nodup_nil, by simp, by simp, c.workerKey, c.accounts.claims, [], by simp, by simp,
      by simp, by simp⟩
  | cons key rest ih =>
    simp only [closeCancelledClaims, bind_eq_ok, demand_eq_ok] at h
    obtain ⟨claim, hclaim, agent, hagent, h⟩ := h
    obtain ⟨hnodup, hclaims, hagents, workerKey, claims', ts, hclaims', hagents', hts, rfl⟩ := ih h
    dsimp only [closeClaimForfeitingSurplus, TaskContext.pay] at hclaims hclaims' hts ⊢
    have hkey : key ∉ rest := by
      intro hmem
      have := hclaims key hmem
      rw [AList.lookup_erase] at this
      cases this
    have hne : ∀ k ∈ rest, k ≠ key := fun k hk heq => hkey (heq ▸ hk)
    refine ⟨List.nodup_cons.mpr ⟨hkey, hnodup⟩, ?_, ?_, workerKey, claims',
      claimClosings { c with workerKey := key } agent.data.authority claim
        (if isContestConfiguredTask c.task then claimSurplus c.sys.rent claim else 0) ++ ts,
      ?_, ?_, ?_, by rw [← List.append_assoc]; rfl⟩
    · rintro k (_ | ⟨_, hk⟩)
      · simp [hclaim]
      · simpa [AList.lookup_erase_ne (hne k hk)] using hclaims k hk
    · rintro k (_ | ⟨_, hk⟩)
      · simp [hagent]
      · simpa [AList.lookup_insert_ne (hne k hk)] using hagents k hk
    · intro k
      rw [hclaims' k, Ledger.lookup_erase_eq_ite]
      by_cases hk : k = key
      · simp [hk]
      · simp [hk]
    · intro k
      rw [hagents' k, Ledger.lookup_insert_eq_ite]
      by_cases hk : k = key
      · subst hk
        simp [hkey, hagent]
      · simp [hk]
    · intro t ht
      rw [List.mem_append] at ht
      rcases ht with ht | ht
      · simp only [claimClosings, List.mem_cons, List.not_mem_nil, or_false] at ht
        rcases ht with rfl | rfl
        · exact ⟨⟨key, List.mem_cons_self, rfl⟩, .inl rfl⟩
        · exact ⟨⟨key, List.mem_cons_self, rfl⟩, .inr rfl⟩
      · obtain ⟨⟨k, hk, hsrc⟩, hpurpose⟩ := hts t ht
        exact ⟨⟨k, List.mem_cons_of_mem _ hk, hsrc⟩, hpurpose⟩

theorem validateCancelPrereqs_spec {task : Task} {now : ℤ} {u : Unit}
    (h : validateCancelPrereqs task now = .ok u) :
    (task.status = .Open ∨ task.status = .InProgress ∧ 0 < task.deadline ∧
      task.deadline < now ∧ (task.completions = 0 ∨ task.currentWorkers = 0)) ∧
    (task.isContestTask = true → task.liveSubmissions = 0) := by
  simp only [validateCancelPrereqs, require_bind_eq_ok, require_eq_ok] at h
  exact h.2

/-- The bid side of a cancellation: a book nobody was accepted from is shut, an accepted bid
settled. -/
inductive CancelsBids (b : BidSide) (workers : ℕ) (penalty : Bool) :
    Option TaskBidBook → Ledger Pubkey (Account TaskBid) → Option BidderMarketState →
      List Transfer → Prop
  | none (type : b.taskType ≠ .BidExclusive) :
      CancelsBids b workers penalty b.book b.bids b.bidder []
  | unopened (type : b.taskType = .BidExclusive) (idle : workers = 0) (book : b.book = .none) :
      CancelsBids b workers penalty .none b.bids b.bidder []
  | shut {book : TaskBidBook} {version : ℕ} (type : b.taskType = .BidExclusive)
      (idle : workers = 0) (opened : b.book = some book) :
      CancelsBids b workers penalty
        (some { book with state := .Closed, version := version, updatedAt := b.now }) b.bids
        b.bidder []
  | settled {book' : Option TaskBidBook} {bids' : Ledger Pubkey (Account TaskBid)}
      {bidder' : Option BidderMarketState} {ts : List Transfer} (busy : 0 < workers)
      (settles : SettlesBid b .Close (acceptedBidNoShowBondDisposition penalty) book' bids' bidder'
        ts) :
      CancelsBids b workers penalty book' bids' bidder' ts

theorem CancelsBids.payments {b : BidSide} {workers : ℕ} {penalty : Bool}
    {book' : Option TaskBidBook} {bids' : Ledger Pubkey (Account TaskBid)}
    {bidder' : Option BidderMarketState} {ts : List Transfer}
    (h : CancelsBids b workers penalty book' bids' bidder' ts) :
    ∀ t ∈ ts, t.source = .bid b.key b.worker := by
  cases h with
  | none => simp
  | unopened => simp
  | shut => simp
  | settled busy settles => exact fun t ht => (settles.payments t ht).1

theorem settleBidsOnCancel_spec {c c' : TaskContext} {penaltyAllowed : Bool}
    (h : settleBidsOnCancel c penaltyAllowed = .ok c') :
    ∃ book' bids' bidder' ts,
      CancelsBids c.bidSide c.accounts.task.currentWorkers penaltyAllowed book' bids' bidder' ts ∧
      c' = { c with
        accounts := { c.accounts with bidBook := book', bids := bids' }
        bidder := bidder'
        paid := c.paid ++ ts } := by
  simp only [settleBidsOnCancel, TaskContext.task_eq] at h
  rcases ite_eq_iff.mp h with ⟨htype, h⟩ | ⟨htype, h⟩
  · rcases ite_eq_iff.mp h with ⟨hidle, h⟩ | ⟨hn, h⟩
    · unfold closeBidBookWithoutAcceptedBid at h
      split at h
      · rename_i hbook
        obtain rfl := Except.ok.inj h
        refine ⟨none, c.accounts.bids, c.bidder, [], .unopened (b := c.bidSide) htype hidle hbook, ?_⟩
        rw [List.append_nil, ← hbook]
      · rename_i book hbook
        simp only [bind_eq_ok, Except.ok.injEq] at h
        obtain ⟨version, -, rfl⟩ := h
        exact ⟨some _, c.accounts.bids, c.bidder, [], .shut (b := c.bidSide) htype hidle hbook, by
          rw [List.append_nil]; rfl⟩
    · obtain ⟨book', bids', bidder', ts, hbid, rfl⟩ := settleAcceptedBid_spec h htype
      exact ⟨book', bids', bidder', ts, .settled (Nat.pos_of_ne_zero hn) hbid, rfl⟩
  · obtain rfl := Except.ok.inj h
    exact ⟨c.accounts.bidBook, c.accounts.bids, c.bidder, [], .none (b := c.bidSide) htype, by
      rw [List.append_nil]⟩

/-- When a cancellation may penalise the worker of the listed claims: the task was being worked
on and had not to wait for its parent, and the bond is of a listed worker's wallet. -/
def CancelPenalty (c : TaskContext) (agents : Ledger Pubkey (Account AgentRegistration))
    (workers : List Pubkey) (poster : Pubkey) : Prop :=
  c.accounts.task.status = .InProgress ∧ dependencyParentCompleted c = true ∧
    ∃ k ∈ workers, ∃ agent, agents.lookup k = some agent ∧ agent.data.authority = poster

/-- A cancelled task has no workers left, and its creator has what the escrow held. -/
theorem cancelTask_spec {c c' : TaskContext}
    {agents agents' : Ledger Pubkey (Account AgentRegistration)} {signer : Pubkey}
    {workers : List Pubkey} {workerBondAuthority : Pubkey} {withParent : Bool}
    (h : cancelTask c agents signer workers workerBondAuthority withParent = .ok (c', agents')) :
    ∃ escrow vault' paidRefund book' bids' bidder' penalty paidBid workerKey claims' paidClaims
        bonds' paidBond,
      c.accounts.task.creator = signer ∧
      (c.accounts.task.status = .Open ∨ c.accounts.task.status = .InProgress ∧
        0 < c.accounts.task.deadline ∧ c.accounts.task.deadline < c.sys.now ∧
        (c.accounts.task.completions = 0 ∨ c.accounts.task.currentWorkers = 0)) ∧
      (c.accounts.task.isContestTask = true → c.accounts.task.liveSubmissions = 0) ∧
      workers.length = c.accounts.task.currentWorkers ∧
      workers.Nodup ∧
      (∀ k ∈ workers, (c.accounts.claims.lookup k).isSome = true) ∧
      (∀ k ∈ workers, (agents.lookup k).isSome = true) ∧
      (∀ k, claims'.lookup k = if k ∈ workers then none else c.accounts.claims.lookup k) ∧
      (∀ k, agents'.lookup k = if k ∈ workers then
        (agents.lookup k).map fun a => { a with data := { a.data with
          activeTasks := a.data.activeTasks - 1 } } else agents.lookup k) ∧
      c.accounts.escrow = some escrow ∧
      escrow.data.distributed ≤ escrow.data.amount ∧
      (c.accounts.task.rewardMint = none →
        escrow.data.amount - escrow.data.distributed ≤ escrow.lamports ∧
        paidRefund = [⟨.escrow c.key, c.accounts.task.creator, .creatorRefund,
            escrow.data.amount - escrow.data.distributed⟩,
          closeEscrowTransfer c.key c.accounts.task.creator
            (escrow.lamports - (escrow.data.amount - escrow.data.distributed))]) ∧
      (∀ t ∈ paidRefund, (t.source = .escrow c.key ∨ t.source = .tokenEscrow c.key) ∧
        (t.purpose = .creatorRefund ∨ t.purpose = .closingBalance)) ∧
      CancelsBids c.bidSide c.accounts.task.currentWorkers penalty book' bids' bidder' paidBid ∧
      (penalty = true → c.accounts.task.status = .InProgress ∧
        dependencyParentCompleted c = true) ∧
      (∀ t ∈ paidClaims, (∃ k ∈ workers, t.source = .claim c.key k) ∧
        (t.purpose = .depositForfeit ∨ t.purpose = .closingBalance)) ∧
      SettlesNoShow c.key workerBondAuthority c.accounts.task.creator
        (CancelPenalty c agents workers workerBondAuthority)
        (c.accounts.bonds.erase c.accounts.task.creator) bonds' paidBond ∧
      c' = { c with
        workerKey := workerKey
        accounts := { c.accounts with
          task := { c.accounts.task with status := .Cancelled, currentWorkers := 0 }
          escrow := none
          tokenEscrow := vault'
          claims := claims'
          bonds := bonds'
          bidBook := book'
          bids := bids' }
        bidder := bidder'
        paid := c.paid ++ paidRefund ++ paidBid ++ paidClaims ++
          bondPayments c.key c.accounts.task.creator .Refund
            (c.accounts.bonds.lookup c.accounts.task.creator) ++ paidBond } := by
  simp only [cancelTask, bind_eq_ok, require_eq_ok, Prod.exists, Except.ok.injEq, Prod.mk.injEq,
    TaskContext.task_eq] at h
  obtain ⟨_, hcreator, _, -, _, hprereqs, _, hlength, c₁, h₁, c₂, h₂, c₃, agents₃, h₃, h⟩ := h
  obtain ⟨c₄, h₄, _, hwallet, c₅, h₅, rfl, rfl⟩ := h
  obtain ⟨hstatus, hcontest⟩ := validateCancelPrereqs_spec hprereqs
  obtain ⟨escrow, vault', paidRefund, hescrow, hle, hsol, hrefund, rfl⟩ := refundEscrow_spec h₁
  obtain ⟨book', bids', bidder', paidBid, hbid, rfl⟩ := settleBidsOnCancel_spec h₂
  obtain ⟨hnodup, hclaims, hagents, workerKey, claims', paidClaims, hclaims', hagents', hpaid,
    rfl⟩ := closeCancelledClaims_spec h₃
  obtain ⟨-, rfl⟩ := settleCompletionBond_spec h₄
  have hpenalty : (decide (c.accounts.task.status = .InProgress ∧
        0 < c.accounts.task.currentWorkers) &&
      (decide (c.accounts.task.dependencyType = .None) ||
        withParent && dependencyParentCompleted c)) = true →
      c.accounts.task.status = .InProgress ∧ dependencyParentCompleted c = true := by
    intro hp
    simp only [Bool.and_eq_true, Bool.or_eq_true, decide_eq_true_eq] at hp
    refine ⟨hp.1.1, hp.2.elim (fun hnone => ?_) fun hparent => hparent.2⟩
    simp [dependencyParentCompleted, hnone]
  obtain ⟨bonds', paidBond, hbond, rfl⟩ := settleNoShowBond_spec
      (CancelPenalty c agents workers workerBondAuthority) h₅ fun hp => by
    obtain ⟨k, hk, hlook⟩ := List.mem_filterMap.mp (hwallet hp)
    obtain ⟨agent, hagent, hauthority⟩ := Option.map_eq_some_iff.mp hlook
    exact ⟨(hpenalty hp).1, (hpenalty hp).2, k, hk, agent, hagent, hauthority⟩
  refine ⟨escrow, vault', paidRefund, book', bids', bidder', _, paidBid, workerKey, claims',
    paidClaims, bonds', paidBond, hcreator, hstatus, hcontest, hlength, hnodup, hclaims, hagents,
    hclaims', hagents', hescrow, hle, hsol, hrefund, hbid, hpenalty, hpaid, hbond, rfl⟩

/-! ## Cleaning up -/

/-- Closing the submission of the context's worker, if there is one. -/
theorem closeSubmissionIfAny_eq (c : TaskContext) (recipient : Pubkey) :
    ∃ ts, (∀ t ∈ ts, t.source = .submission c.key c.workerKey ∧ t.purpose = .closingBalance) ∧
      closeSubmissionIfAny c recipient = { c with
        accounts := { c.accounts with submissions := c.accounts.submissions.erase c.workerKey }
        paid := c.paid ++ ts } := by
  unfold closeSubmissionIfAny
  split
  · rename_i hnone
    exact ⟨[], by simp, by simp [Ledger.erase_of_lookup_eq_none hnone]⟩
  · exact ⟨_, by simp, rfl⟩

/-- Closing a claim and whatever submission its worker left. -/
theorem closeTerminalAccounts_eq (c : TaskContext) (claim : Account TaskClaim)
    (recipient : Pubkey) (forfeited : ℕ) :
    ∃ ts, ClosesWorkerAccounts c ts ∧
      closeSubmissionIfAny (closeClaimForfeitingSurplus c claim recipient forfeited) recipient =
        { c with
          accounts := { c.accounts with
            claims := c.accounts.claims.erase c.workerKey
            submissions := c.accounts.submissions.erase c.workerKey }
          paid := c.paid ++ ts } := by
  obtain ⟨ts, hts, heq⟩ := closeSubmissionIfAny_eq
    (closeClaimForfeitingSurplus c claim recipient forfeited) recipient
  refine ⟨claimClosings c recipient claim forfeited ++ ts, fun t ht => ?_, ?_⟩
  · rcases List.mem_append.mp ht with ht | ht
    · simp only [claimClosings, List.mem_cons, List.not_mem_nil, or_false] at ht
      rcases ht with rfl | rfl
      · exact ⟨.inl rfl, .inr rfl⟩
      · exact ⟨.inl rfl, .inl rfl⟩
    · exact ⟨.inr (hts t ht).1, .inl (hts t ht).2⟩
  · rw [heq, ← List.append_assoc]
    rfl

/-- The counters after a terminal claim took its submission, if that was still under review, out
of review. -/
theorem releaseTerminalSubmission_spec {c c' : TaskContext}
    (h : releaseTerminalSubmission c = .ok c') :
    ∃ live validation',
      LeavesIfSubmitted (isManualValidationTask c.accounts.task) c.accounts.task.liveSubmissions
        c.accounts.task.liveAfterLeaving (c.accounts.submissions.lookup c.workerKey)
        c.accounts.validation live validation' ∧
      c' = { c with accounts := { c.accounts with
        task := { c.accounts.task with liveSubmissions := live }
        validation := validation' } } := by
  unfold releaseTerminalSubmission at h
  split at h
  · rename_i hnone
    obtain rfl := Except.ok.inj h
    exact ⟨_, _, .idle (by simp [hnone]), rfl⟩
  · rename_i submission hsome
    split at h
    · rename_i hrejected
      obtain rfl := Except.ok.inj h
      exact ⟨_, _, .idle (by simp [hsome, hrejected]), rfl⟩
    · rename_i hsubmitted
      simp only [bind_eq_ok, require_eq_ok] at h
      obtain ⟨_, -, config, hconfig, h⟩ := h
      obtain ⟨hmanual, hvalidation, -⟩ := ensureValidationConfig_spec hconfig
      obtain ⟨hpending, -, rfl⟩ := leaveReview_spec h
      exact ⟨_, _, .managed hsome hsubmitted hmanual hvalidation hpending, rfl⟩
    · cases h
    · cases h

/-- A claim left behind by a finished task is closed with its submission, unless a dispute still
reserves it. -/
theorem reclaimTerminalClaim_spec {c c' : TaskContext} (h : reclaimTerminalClaim c = .ok c') :
    ∃ claim live validation' closings,
      c.accounts.claims.lookup c.workerKey = some claim ∧
      (c.accounts.task.status = .Completed ∨ c.accounts.task.status = .Cancelled) ∧
      c.accounts.task.workerSlashPending = false ∧
      c.accounts.task.peerSettlementPending = false ∧
      0 < c.accounts.task.currentWorkers ∧
      LeavesIfSubmitted (isManualValidationTask c.accounts.task) c.accounts.task.liveSubmissions
        c.accounts.task.liveAfterLeaving (c.accounts.submissions.lookup c.workerKey)
        c.accounts.validation live validation' ∧
      ClosesWorkerAccounts c closings ∧
      c' = { c with
        accounts := { c.accounts with
          task := { c.accounts.task with
            liveSubmissions := live
            currentWorkers := c.accounts.task.currentWorkers - 1 }
          validation := validation'
          claims := c.accounts.claims.erase c.workerKey
          submissions := c.accounts.submissions.erase c.workerKey }
        worker := { c.worker with data := { c.worker.data with
          activeTasks := c.worker.data.activeTasks - 1 } }
        paid := c.paid ++ closings } := by
  simp only [reclaimTerminalClaim, validateTerminalClaimNotDisputeReserved, bind_eq_ok,
    demand_eq_ok, require_eq_ok, Except.ok.injEq, TaskContext.task_eq] at h
  obtain ⟨claim, hclaim, _, -, _, hstatus, _, -, _, ⟨_, ⟨hslash, hn⟩, hpeers⟩, c₁, h₁, rfl⟩ := h
  obtain ⟨live, validation', hleaves, rfl⟩ := releaseTerminalSubmission_spec h₁
  obtain ⟨ts, hts, heq⟩ := closeTerminalAccounts_eq _ claim _ _
  rw [heq]
  exact ⟨claim, live, validation', ts, hclaim, hstatus, hslash, hpeers, hn, hleaves, hts, rfl⟩

/-- What the children a caller lists may change: the review accounts of a task with nothing
pending, and submissions that are not under review. -/
theorem closeTaskChildren_spec {children : List TaskChild} {c c' : TaskContext}
    {agents : Ledger Pubkey (Account AgentRegistration)}
    (h : closeTaskChildren c agents children = .ok c') :
    ∃ submissions' validation' attestor' ts,
      (∀ k s, submissions'.lookup k = some s → c.accounts.submissions.lookup k = some s) ∧
      (∀ k s, c.accounts.submissions.lookup k = some s → s.data.status = .Submitted →
        submissions'.lookup k = some s) ∧
      (validation' = c.accounts.validation ∨ validation' = none) ∧
      (∀ t ∈ ts, (∃ k, t.source = .submission c.key k) ∧ t.purpose = .closingBalance) ∧
      c' = { c with
        accounts := { c.accounts with
          submissions := submissions'
          validation := validation'
          attestor := attestor' }
        paid := c.paid ++ ts } := by
  induction children generalizing c with
  | nil =>
    obtain rfl := Except.ok.inj h
    exact ⟨_, _, _, [], fun _ _ hs => hs, fun _ _ hs _ => hs, .inl rfl, by simp,
      by rw [List.append_nil]⟩
  | cons child rest ih =>
    simp only [closeTaskChildren, bind_eq_ok] at h
    obtain ⟨c₁, h₁, h⟩ := h
    obtain ⟨submissions', validation', attestor', ts, hold, hkept, hval, hts, rfl⟩ := ih h
    cases child with
    | validationConfig =>
      simp only [closeTaskChild, bind_eq_ok, Except.ok.injEq] at h₁
      obtain ⟨_, -, _, -, rfl⟩ := h₁
      exact ⟨_, _, _, ts, hold, hkept, .inr (hval.elim id id), hts, rfl⟩
    | attestorConfig =>
      simp only [closeTaskChild, Except.ok.injEq] at h₁
      subst h₁
      exact ⟨_, _, _, ts, hold, hkept, hval, hts, rfl⟩
    | submission worker =>
      simp only [closeTaskChild, bind_eq_ok, demand_eq_ok, require_eq_ok, Except.ok.injEq] at h₁
      obtain ⟨submission, hstored, _, hstatus, agent, -, rfl⟩ := h₁
      refine ⟨submissions', validation', attestor', _ :: ts, fun k s hs => ?_, fun k s hs hsub => ?_,
        hval, ?_, by rw [List.append_cons]; rfl⟩
      · have := hold k s hs
        dsimp only [TaskContext.pay] at this
        rw [Ledger.lookup_erase_eq_ite] at this
        split_ifs at this
        exact this
      · refine hkept k s ?_ hsub
        dsimp only [TaskContext.pay]
        rw [Ledger.lookup_erase_eq_ite, if_neg, hs]
        rintro rfl
        obtain rfl := Option.some.inj (hstored.symm.trans hs)
        rcases hstatus with hstatus | hstatus <;> simp [hsub] at hstatus
      · rintro t (_ | ⟨_, ht⟩)
        · exact ⟨⟨worker, rfl⟩, rfl⟩
        · exact hts t ht

/-- The creator's clean-up keeps the task record, the claims and the bonds. -/
theorem closeTask_spec {c c' : TaskContext}
    {agents : Ledger Pubkey (Account AgentRegistration)} {signer : Pubkey}
    {withJobSpec withEscrow : Bool} {workerBond : Option Pubkey} {children : List TaskChild}
    (h : closeTask c agents signer withJobSpec withEscrow workerBond children = .ok c') :
    ∃ escrow' paidEscrow jobSpec' submissions' validation' attestor' ts,
      (c.accounts.task.status = .Completed ∨ c.accounts.task.status = .Cancelled) ∧
      c.accounts.task.currentWorkers = 0 ∧
      c.accounts.task.workerSlashPending = false ∧
      (escrow' = c.accounts.escrow ∧ paidEscrow = [] ∨
        ∃ escrow, c.accounts.escrow = some escrow ∧ escrow.data.isClosed = true ∧
          escrow' = none ∧
          paidEscrow = [closeEscrowTransfer c.key c.accounts.task.creator escrow.lamports]) ∧
      (∀ k s, submissions'.lookup k = some s → c.accounts.submissions.lookup k = some s) ∧
      (∀ k s, c.accounts.submissions.lookup k = some s → s.data.status = .Submitted →
        submissions'.lookup k = some s) ∧
      (validation' = c.accounts.validation ∨ validation' = none) ∧
      (∀ t ∈ ts, (∃ k, t.source = .submission c.key k) ∧ t.purpose = .closingBalance) ∧
      c' = { c with
        accounts := { c.accounts with
          escrow := escrow'
          jobSpec := jobSpec'
          bidBook := none
          hire := none
          submissions := submissions'
          validation := validation'
          attestor := attestor' }
        paid := c.paid ++ paidEscrow ++ ts } := by
  simp only [closeTask, validateTaskClosable, bind_eq_ok, require_eq_ok, TaskContext.task_eq] at h
  obtain ⟨_, -, _, ⟨_, hstatus, _, hworkers, hslash⟩, _, -, _, -, _, -, h⟩ := h
  rcases ite_eq_iff.mp h with ⟨-, h⟩ | ⟨-, h⟩
  · simp only [bind_eq_ok, demand_eq_ok, require_eq_ok, closeEscrow, Except.ok.injEq] at h
    obtain ⟨escrow, hescrow, _, hclosed, _, ⟨_, hescrow', rfl⟩, h⟩ := h
    obtain rfl := Option.some.inj (hescrow.symm.trans hescrow')
    obtain ⟨submissions', validation', attestor', ts, hold, hkept, hval, hts, rfl⟩ :=
      closeTaskChildren_spec h
    exact ⟨none, _, _, submissions', validation', attestor', ts, hstatus, hworkers, hslash,
      .inr ⟨escrow, hescrow, hclosed, rfl, rfl⟩, hold, hkept, hval, hts, rfl⟩
  · obtain ⟨submissions', validation', attestor', ts, hold, hkept, hval, hts, rfl⟩ :=
      closeTaskChildren_spec h
    exact ⟨_, [], _, submissions', validation', attestor', ts, hstatus, hworkers, hslash,
      .inl ⟨rfl, rfl⟩, hold, hkept, hval, hts, by simp only [List.append_nil]; rfl⟩

end AgencCoordination
