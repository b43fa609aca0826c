import AgencCoordination.Effects.Payments
import AgencCoordination.Program.Review

/-!
# What submitting, reviewing and completing do

One lemma for each handler of `Program.Review`, stating the facts a successful call checked and
the context it returned as an update of the context it was given.

* **`submitTaskResult_spec`** — a submission enters review.
* **`payAcceptedSubmission_spec`** — every acceptance: a submission leaves review, its claim is
  closed and one completion is settled.
* **`releaseRejected_spec`** — every rejection that ends a claim.
* **`rejectAndFreeze_spec`** and the two exits from a frozen task.
-/

namespace AgencCoordination

open Foundations

/-! ## Pieces -/

theorem ensureValidationConfig_spec {accounts : TaskAccounts} {expected : Option ValidationMode}
    {config : TaskValidationConfig} (h : ensureValidationConfig accounts expected = .ok config) :
    isManualValidationTask accounts.task = true ∧ accounts.validation = some config ∧
      (expected = none ∨ expected = some config.mode) := by
  simp only [ensureValidationConfig, bind_eq_ok, require_eq_ok, demand_eq_ok,
    Except.ok.injEq] at h
  obtain ⟨_, hmanual, config, hconfig, _, hmode, rfl⟩ := h
  exact ⟨hmanual, hconfig, hmode⟩

theorem closeClaim_spec {c c' : TaskContext} {recipient : Pubkey}
    (h : closeClaim c recipient = .ok c') :
    ∃ claim, c.accounts.claims.lookup c.workerKey = some claim ∧ c' = { c with
      accounts := { c.accounts with claims := c.accounts.claims.erase c.workerKey }
      paid := c.paid ++
        [⟨.claim c.key c.workerKey, recipient, .closingBalance, claim.lamports⟩] } := by
  simp only [closeClaim, bind_eq_ok, demand_eq_ok, Except.ok.injEq] at h
  obtain ⟨claim, hclaim, rfl⟩ := h
  exact ⟨claim, hclaim, rfl⟩

theorem closeSubmission_spec {c c' : TaskContext} {recipient : Pubkey}
    (h : closeSubmission c recipient = .ok c') :
    ∃ submission, c.accounts.submissions.lookup c.workerKey = some submission ∧ c' = { c with
      accounts := { c.accounts with submissions := c.accounts.submissions.erase c.workerKey }
      paid := c.paid ++
        [⟨.submission c.key c.workerKey, recipient, .closingBalance, submission.lamports⟩] } := by
  simp only [closeSubmission, bind_eq_ok, demand_eq_ok, Except.ok.injEq] at h
  obtain ⟨submission, hsubmission, rfl⟩ := h
  exact ⟨submission, hsubmission, rfl⟩

/-- `live_submissions` after one submission left review. -/
def Task.liveAfterLeaving (task : Task) : ℕ :=
  if task.taskSchema < taskSchemaContestAware then task.liveSubmissions
  else task.liveSubmissions - 1

/-- `live_submissions` after one more submission entered review. -/
def Task.liveAfterEntering (task : Task) : ℕ :=
  if task.taskSchema < taskSchemaContestAware then task.liveSubmissions
  else task.liveSubmissions + 1

theorem noteSubmissionEnteredReview_spec {task task' : Task}
    (h : noteSubmissionEnteredReview task = .ok task') :
    task' = { task with liveSubmissions := task.liveAfterEntering } := by
  unfold noteSubmissionEnteredReview at h
  split_ifs at h with hschema
  · obtain rfl := Except.ok.inj h
    simp [Task.liveAfterEntering, hschema]
  · simp only [bind_eq_ok, addU8_eq_ok, Except.ok.injEq] at h
    obtain ⟨_, ⟨-, rfl⟩, rfl⟩ := h
    simp [Task.liveAfterEntering, hschema]

theorem noteSubmissionLeftReview_spec {task task' : Task}
    (h : noteSubmissionLeftReview task = .ok task') :
    (taskSchemaContestAware ≤ task.taskSchema → 1 ≤ task.liveSubmissions) ∧
      task' = { task with liveSubmissions := task.liveAfterLeaving } := by
  unfold noteSubmissionLeftReview at h
  split_ifs at h with hschema
  · obtain rfl := Except.ok.inj h
    exact ⟨fun hge => absurd hschema (by omega), by simp [Task.liveAfterLeaving, hschema]⟩
  · simp only [bind_eq_ok, subU_eq_ok, Except.ok.injEq] at h
    obtain ⟨_, ⟨hle, rfl⟩, rfl⟩ := h
    exact ⟨fun _ => hle, by simp [Task.liveAfterLeaving, hschema]⟩

theorem leaveReview_spec {c c' : TaskContext} {config : TaskValidationConfig}
    (h : leaveReview c config = .ok c') :
    1 ≤ config.pendingSubmissionCount ∧
    (taskSchemaContestAware ≤ c.accounts.task.taskSchema →
      1 ≤ c.accounts.task.liveSubmissions) ∧
    c' = { c with accounts := { c.accounts with
      task := { c.accounts.task with liveSubmissions := c.accounts.task.liveAfterLeaving }
      validation := some { config with
        pendingSubmissionCount := config.pendingSubmissionCount - 1 } } } := by
  simp only [leaveReview, decrementPendingSubmissionCount, bind_eq_ok, subU_eq_ok,
    Except.ok.injEq] at h
  obtain ⟨_, ⟨_, ⟨hle, rfl⟩, rfl⟩, task, htask, rfl⟩ := h
  obtain ⟨hlive, rfl⟩ := noteSubmissionLeftReview_spec htask
  exact ⟨hle, hlive, rfl⟩

theorem releaseSlot_spec {c c' : TaskContext} (h : releaseSlot c = .ok c') :
    1 ≤ c.accounts.task.currentWorkers ∧ 1 ≤ c.worker.data.activeTasks ∧ c' = { c with
      accounts := { c.accounts with
        task := { c.accounts.task with
          currentWorkers := c.accounts.task.currentWorkers - 1 } }
      worker := { c.worker with data := { c.worker.data with
        activeTasks := c.worker.data.activeTasks - 1, lastActive := c.sys.now } } } := by
  simp only [releaseSlot, releaseClaimSlot, bind_eq_ok, subU_eq_ok, Except.ok.injEq,
    Prod.exists, Prod.mk.injEq] at h
  obtain ⟨_, _, ⟨_, ⟨hn, rfl⟩, _, ⟨ha, rfl⟩, rfl, rfl⟩, rfl⟩ := h
  exact ⟨hn, ha, rfl⟩

/-- The status `sync_task_validation_status` leaves a task with. -/
def syncedStatus (status : TaskStatus) (pendingSubmissionCount currentWorkers : ℕ) : TaskStatus :=
  if status = .Completed ∨ status = .RejectFrozen then status
  else reviewStatus pendingSubmissionCount currentWorkers

theorem syncTaskValidationStatus_eq (task : Task) (config : TaskValidationConfig) :
    syncTaskValidationStatus task config = { task with
      status := syncedStatus task.status config.pendingSubmissionCount task.currentWorkers } := by
  unfold syncTaskValidationStatus syncedStatus
  split_ifs <;> rfl

theorem syncStatus_eq {c : TaskContext} {config : TaskValidationConfig}
    (h : c.accounts.validation = some config) :
    syncStatus c = { c with accounts := { c.accounts with task := { c.accounts.task with
      status := syncedStatus c.accounts.task.status config.pendingSubmissionCount
        c.accounts.task.currentWorkers } } } := by
  simp only [syncStatus, h, TaskContext.task_eq, syncTaskValidationStatus_eq]

theorem settleBidOf_spec {c c' : TaskContext} {bookDisposition : AcceptedBidBookDisposition}
    {bondDisposition : AcceptedBidBondDisposition}
    (h : settleBidOf c bookDisposition bondDisposition = .ok c') :
    ∃ book' bids' bidder' ts,
      SettlesBid c.bidSide bookDisposition bondDisposition book' bids' bidder' ts ∧
      c' = { c with
        accounts := { c.accounts with bidBook := book', bids := bids' }
        bidder := bidder'
        paid := c.paid ++ ts } := by
  unfold settleBidOf at h
  split_ifs at h with htype
  · exact settleAcceptedBid_spec h htype
  · obtain rfl := Except.ok.inj h
    exact ⟨_, _, _, _, .none (b := c.bidSide) htype, by simp [TaskContext.bidSide]⟩

/-- How a handler that ends a claim treats its submission: one under review leaves review, on a
task with a review configuration also from the pending count. -/
inductive LeavesIfSubmitted (manual : Bool) (live leaving : ℕ)
    (stored : Option (Account TaskSubmission)) (validation : Option TaskValidationConfig) :
    ℕ → Option TaskValidationConfig → Prop
  | idle (idle : ∀ s, stored = some s → s.data.status ≠ .Submitted) :
      LeavesIfSubmitted manual live leaving stored validation live validation
  | managed {config : TaskValidationConfig} {submission : Account TaskSubmission}
      (loaded : stored = some submission) (submitted : submission.data.status = .Submitted)
      (reviewed : manual = true) (configured : validation = some config)
      (pending : 1 ≤ config.pendingSubmissionCount) :
      LeavesIfSubmitted manual live leaving stored validation leaving
        (some { config with pendingSubmissionCount := config.pendingSubmissionCount - 1 })
  | unmanaged {submission : Account TaskSubmission}
      (loaded : stored = some submission) (submitted : submission.data.status = .Submitted)
      (unreviewed : manual = false) :
      LeavesIfSubmitted manual live leaving stored validation leaving validation

/-! ## Submitting -/

theorem submitTaskResult_spec {c c' : TaskContext} {signer : Pubkey} {proofHash : Hash}
    {resultData : Option ℕ} {prefunded : ℕ}
    (h : submitTaskResult c signer proofHash resultData prefunded = .ok c') :
    ∃ claim config submission,
      c.accounts.claims.lookup c.workerKey = some claim ∧
      isManualValidationTask c.accounts.task = true ∧
      c.accounts.validation = some config ∧
      (c.accounts.task.status = .InProgress ∨ c.accounts.task.status = .PendingValidation) ∧
      (0 < c.accounts.task.deadline → c.sys.now ≤ c.accounts.task.deadline) ∧
      (∀ s, c.accounts.submissions.lookup c.workerKey = some s → s.data.status ≠ .Submitted) ∧
      submission.data.status = .Submitted ∧
    ∃ proofHash resultData, c' = { c with accounts := { c.accounts with
      task := { c.accounts.task with
        status := .PendingValidation
        liveSubmissions := c.accounts.task.liveAfterEntering }
      validation := some { config with
        pendingSubmissionCount := config.pendingSubmissionCount + 1 }
      claims := c.accounts.claims.insert c.workerKey { claim with data := { claim.data with
        proofHash := proofHash
        resultData := resultData
        completedAt := 0
        isCompleted := false
        isValidated := false } }
      submissions := c.accounts.submissions.insert c.workerKey submission } } := by
  simp only [submitTaskResult, incrementPendingSubmissionCount, bind_eq_ok, demand_eq_ok,
    require_eq_ok, addU16_eq_ok, addI64_eq_ok, Except.ok.injEq, TaskContext.task_eq] at h
  obtain ⟨_, -, claim, hclaim, _, -, _, hstatus, config, hconfig, _, -, _, -, _, hdeadline, _, -,
    _, -, _, -, _, hnew, _, -, _, -, _, ⟨_, ⟨-, rfl⟩, rfl⟩, task, htask, _, -, rfl⟩ := h
  obtain ⟨hmanual, hvalidation, -⟩ := ensureValidationConfig_spec hconfig
  obtain rfl := noteSubmissionEnteredReview_spec htask
  refine ⟨claim, config, _, hclaim, hmanual, hvalidation, hstatus, hdeadline, fun s hs => ?_, ?_,
    proofHash, resultData.getD 0, rfl⟩
  · simpa [hs] using hnew
  · rfl

/-! ## Accepting -/

/-- Payments that close the claim, or the submission, of the context's worker. -/
def claimClosing (c : TaskContext) (amount : ℕ) : Transfer :=
  ⟨.claim c.key c.workerKey, c.worker.data.authority, .closingBalance, amount⟩

def submissionClosing (c : TaskContext) (amount : ℕ) : Transfer :=
  ⟨.submission c.key c.workerKey, c.worker.data.authority, .closingBalance, amount⟩

/-- The status of a task after one more completion under review. -/
def acceptedStatus (task : Task) (config : TaskValidationConfig) : TaskStatus :=
  syncedStatus (if completesTask task then .Completed else task.status)
    (config.pendingSubmissionCount - 1) (task.currentWorkers - 1)

theorem acceptedStatus_eq {task : Task} (config : TaskValidationConfig)
    (h : task.status = .PendingValidation) :
    acceptedStatus task config = if completesTask task then .Completed
      else reviewStatus (config.pendingSubmissionCount - 1) (task.currentWorkers - 1) := by
  unfold acceptedStatus syncedStatus
  split_ifs <;> simp_all

/-- The gross amount of a completion does not depend on the review counters. -/
theorem completionGross_live (task : Task) (live : ℕ) (price : Option ℕ) :
    completionGross { task with liveSubmissions := live } price = completionGross task price := by
  cases price with
  | none => simp only [completionGross, calculateRewardPerWorker]
  | some => rfl

/-- What every acceptance does to the context it is given: one completion is settled at `gross`,
claim and submission are closed, and both bonds go back. -/
def PaysAccepted (c : TaskContext) (config : TaskValidationConfig) (payees : PayeeAccounts)
    (c' : TaskContext) : Prop :=
  ∃ claim stored gross price escrow' vault' paidReward book' bids' bidder' paidBid votes',
    c.accounts.claims.lookup c.workerKey = some claim ∧
    c.accounts.submissions.lookup c.workerKey = some stored ∧
    1 ≤ config.pendingSubmissionCount ∧
    1 ≤ c.accounts.task.currentWorkers ∧ 1 ≤ c.worker.data.activeTasks ∧
    completionGross c.accounts.task price = .ok gross ∧
    (c.accounts.task.taskType ≠ .BidExclusive → price = none) ∧
    Settles c.till payees gross (completesTask c.accounts.task) escrow' vault' paidReward ∧
    SettlesBid c.bidSide .Close .Refund book' bids' bidder' paidBid ∧
    ∃ completedAt result rated tasksCompleted totalEarned reputation completedTasks totalValue,
      c' = { c with
        accounts := { c.accounts with
          task := { c.accounts.task with
            liveSubmissions := c.accounts.task.liveAfterLeaving
            currentWorkers := c.accounts.task.currentWorkers - 1
            completions := c.accounts.task.completions + 1
            status := acceptedStatus c.accounts.task config
            completedAt := completedAt
            result := result
            ratingFeeQualified := rated }
          escrow := escrow'
          tokenEscrow := vault'
          validation := some { config with
            pendingSubmissionCount := config.pendingSubmissionCount - 1 }
          claims := c.accounts.claims.erase c.workerKey
          submissions := c.accounts.submissions.erase c.workerKey
          votes := votes'
          bonds := (c.accounts.bonds.erase c.accounts.task.creator).erase
            c.worker.data.authority
          bidBook := book'
          bids := bids' }
        worker := { c.worker with data := { c.worker.data with
          tasksCompleted := tasksCompleted
          totalEarned := totalEarned
          activeTasks := c.worker.data.activeTasks - 1
          lastActive := c.sys.now
          reputation := reputation } }
        bidder := bidder'
        config := { c.config with
          completedTasks := completedTasks, totalValueDistributed := totalValue }
        paid := c.paid ++ paidReward ++ paidBid ++ [claimClosing c claim.lamports] ++
          [submissionClosing c stored.lamports] ++
          bondPayments c.key c.accounts.task.creator .Refund
            (c.accounts.bonds.lookup c.accounts.task.creator) ++
          bondPayments c.key c.worker.data.authority .Refund
            ((c.accounts.bonds.erase c.accounts.task.creator).lookup
              c.worker.data.authority) }

theorem payAcceptedSubmission_spec {c c' : TaskContext} {config : TaskValidationConfig}
    {submission : TaskSubmission}
    {feeLegs : TaskContext → Result (Option FeeLeg × Option FeeLeg)} {payees : PayeeAccounts}
    (h : payAcceptedSubmission c config submission feeLegs = .ok c')
    (hconfig : c.accounts.validation = some config)
    (hlegs : ∀ c₁ r, c₁.till.mode = some config.mode → feeLegs c₁ = .ok r →
      c₁.till.Passes payees r.1 r.2) :
    PaysAccepted c config payees c' := by
  simp only [payAcceptedSubmission, bind_eq_ok, Prod.exists] at h
  obtain ⟨_, -, _, -, c₁, h₁, price, hprice, operatorLeg, referrerLeg, hfees, c₂, h₂, c₃, h₃, c₄,
    h₄, c₅, h₅, c₆, h₆, h₇⟩ := h
  obtain ⟨hpending, -, rfl⟩ := leaveReview_spec h₁
  have hpassed := hlegs _ _ rfl hfees
  obtain ⟨gross, escrow', vault', paidReward, hgross, hsettles, -, hn, ha, -, completedAt, result,
    rated, tasksCompleted, totalEarned, reputation, completedTasks, totalValue, rfl⟩ :=
    executeCompletionRewards_spec h₂ hpassed
  replace hsettles : Settles c.till payees gross (completesTask c.accounts.task) escrow' vault'
      paidReward := by
    have htill : c.till.mode = some config.mode := by simp [TaskContext.till, hconfig]
    have hsame : c.till = { c.till with mode := some config.mode } := by rw [← htill]
    rw [hsame]
    exact hsettles
  rw [syncStatus_eq rfl] at h₃
  obtain ⟨book', bids', bidder', paidBid, hbid, rfl⟩ := finalizeBidTaskCompletion_spec h₃
  obtain ⟨claim, hclaim, rfl⟩ := closeClaim_spec h₄
  obtain ⟨stored, hstored, rfl⟩ := closeSubmission_spec h₅
  obtain ⟨-, rfl⟩ := settleCompletionBond_spec h₆
  obtain ⟨-, rfl⟩ := settleCompletionBond_spec h₇
  rw [completionGross_live] at hgross
  refine ⟨claim, stored, gross, price, escrow', vault', paidReward, book', bids', bidder', paidBid,
    _, hclaim, hstored, hpending, hn, ha, hgross, fun htype => ?_, hsettles, hbid, completedAt, result,
    rated, tasksCompleted, totalEarned, reputation, completedTasks, totalValue, rfl⟩
  exact loadBidTaskCompletionMeta_eq_none hprice htype

/-- The checks every creator-side review decision starts with. -/
structure UnderReview (c : TaskContext) (config : TaskValidationConfig)
    (submission : Account TaskSubmission) : Prop where
  claim : (c.accounts.claims.lookup c.workerKey).isSome = true
  stored : c.accounts.submissions.lookup c.workerKey = some submission
  submitted : submission.data.status = .Submitted
  status : c.accounts.task.status = .PendingValidation
  manual : isManualValidationTask c.accounts.task = true
  validation : c.accounts.validation = some config

theorem acceptTaskResult_spec {c c' : TaskContext} {signer : Pubkey} {payees : PayeeAccounts}
    (h : acceptTaskResult c signer payees = .ok c') :
    ∃ config submission, UnderReview c config submission ∧ config.mode = .CreatorReview ∧
      c.accounts.task.creator = signer ∧
      validateContestAcceptWindow c.accounts.task c.sys.now = .ok () ∧
      PaysAccepted c config payees c' := by
  simp only [acceptTaskResult, bind_eq_ok, demand_eq_ok, require_eq_ok, TaskContext.task_eq] at h
  obtain ⟨_, hcreator, claim, hclaim, submission, hstored, _, -, _, hstatus, _, hsubmitted,
    config, hconfig, _, hwindow, h⟩ := h
  obtain ⟨hmanual, hvalidation, hmode⟩ := ensureValidationConfig_spec hconfig
  exact ⟨config, submission, ⟨by simp [hclaim], hstored, hsubmitted, hstatus, hmanual, hvalidation⟩,
    by simpa [eq_comm] using hmode, hcreator, hwindow, payAcceptedSubmission_spec h hvalidation
      fun _ _ _ hr => .inl (buildMarketplaceFeeLegs_spec hr)⟩

theorem autoAcceptTaskResult_spec {c c' : TaskContext} {payees : PayeeAccounts}
    (h : autoAcceptTaskResult c payees = .ok c') :
    ∃ config submission, UnderReview c config submission ∧ config.mode = .CreatorReview ∧
      c.accounts.task.isContestTask = false ∧ PaysAccepted c config payees c' := by
  simp only [autoAcceptTaskResult, bind_eq_ok, demand_eq_ok, require_eq_ok,
    TaskContext.task_eq] at h
  obtain ⟨claim, hclaim, submission, hstored, _, -, _, hstatus, config, hconfig, _, hsubmitted,
    _, hcontest, _, -, h⟩ := h
  obtain ⟨hmanual, hvalidation, hmode⟩ := ensureValidationConfig_spec hconfig
  exact ⟨config, submission, ⟨by simp [hclaim], hstored, hsubmitted, hstatus, hmanual, hvalidation⟩,
    by simpa [eq_comm] using hmode, hcontest, payAcceptedSubmission_spec h hvalidation
      fun _ _ _ hr => .inl (buildMarketplaceFeeLegs_spec hr)⟩

/-! ## Rejecting -/

/-- The accounts of the context's worker that a handler closes pay their balance out. -/
def ClosesWorkerAccounts (c : TaskContext) (ts : List Transfer) : Prop :=
  ∀ t ∈ ts, (t.source = .claim c.key c.workerKey ∨ t.source = .submission c.key c.workerKey) ∧
    (t.purpose = .closingBalance ∨ t.purpose = .depositForfeit)

/-- What every rejection that ends a claim does: the submission leaves review, the claim is
closed, the worker's bond goes back. -/
def RejectsClaim (c : TaskContext) (config : TaskValidationConfig) (c' : TaskContext) : Prop :=
  ∃ claim submissions' votes' book' bids' bidder' paidBid closings,
    c.accounts.claims.lookup c.workerKey = some claim ∧
    (submissions' = c.accounts.submissions.erase c.workerKey ∨
      ∃ rejected, rejected.data.status = .Rejected ∧
        submissions' = c.accounts.submissions.insert c.workerKey rejected) ∧
    1 ≤ config.pendingSubmissionCount ∧
    1 ≤ c.accounts.task.currentWorkers ∧ 1 ≤ c.worker.data.activeTasks ∧
    SettlesBid c.bidSide .Reopen .Refund book' bids' bidder' paidBid ∧
    ClosesWorkerAccounts c closings ∧
    c' = { c with
      accounts := { c.accounts with
        task := { c.accounts.task with
          liveSubmissions := c.accounts.task.liveAfterLeaving
          currentWorkers := c.accounts.task.currentWorkers - 1
          status := syncedStatus c.accounts.task.status (config.pendingSubmissionCount - 1)
            (c.accounts.task.currentWorkers - 1) }
        validation := some { config with
          pendingSubmissionCount := config.pendingSubmissionCount - 1 }
        claims := c.accounts.claims.erase c.workerKey
        submissions := submissions'
        votes := votes'
        bonds := c.accounts.bonds.erase c.worker.data.authority
        bidBook := book'
        bids := bids' }
      worker := { c.worker with data := { c.worker.data with
        activeTasks := c.worker.data.activeTasks - 1, lastActive := c.sys.now } }
      bidder := bidder'
      paid := c.paid ++ paidBid ++ bondPayments c.key c.worker.data.authority .Refund
        (c.accounts.bonds.lookup c.worker.data.authority) ++ closings }

theorem releaseRejected_spec {c c' : TaskContext} {config : TaskValidationConfig}
    {submission : Account TaskSubmission} {rejectionHash : Hash}
    (h : releaseRejected c config submission rejectionHash = .ok c') :
    ∃ rejected book' bids' bidder' paidBid,
      rejected.data.status = .Rejected ∧
      1 ≤ config.pendingSubmissionCount ∧
      1 ≤ c.accounts.task.currentWorkers ∧ 1 ≤ c.worker.data.activeTasks ∧
      SettlesBid c.bidSide .Reopen .Refund book' bids' bidder' paidBid ∧
      c' = { c with
        accounts := { c.accounts with
          task := { c.accounts.task with
            liveSubmissions := c.accounts.task.liveAfterLeaving
            currentWorkers := c.accounts.task.currentWorkers - 1
            status := syncedStatus c.accounts.task.status (config.pendingSubmissionCount - 1)
              (c.accounts.task.currentWorkers - 1) }
          validation := some { config with
            pendingSubmissionCount := config.pendingSubmissionCount - 1 }
          submissions := c.accounts.submissions.insert c.workerKey rejected
          bonds := c.accounts.bonds.erase c.worker.data.authority
          bidBook := book'
          bids := bids' }
        worker := { c.worker with data := { c.worker.data with
          activeTasks := c.worker.data.activeTasks - 1, lastActive := c.sys.now } }
        bidder := bidder'
        paid := c.paid ++ paidBid ++ bondPayments c.key c.worker.data.authority .Refund
          (c.accounts.bonds.lookup c.worker.data.authority) } := by
  simp only [releaseRejected, setSubmission, bind_eq_ok] at h
  obtain ⟨c₁, h₁, c₂, h₂, c₃, h₃, h₄⟩ := h
  obtain ⟨hpending, -, rfl⟩ := leaveReview_spec h₁
  obtain ⟨hn, ha, rfl⟩ := releaseSlot_spec h₂
  obtain ⟨book', bids', bidder', paidBid, hbid, rfl⟩ := settleBidOf_spec h₃
  rw [syncStatus_eq rfl] at h₄
  obtain ⟨-, rfl⟩ := settleCompletionBond_spec h₄
  exact ⟨_, book', bids', bidder', paidBid, rfl, hpending, hn, ha, hbid, rfl⟩

theorem rejectTaskResult_spec {c c' : TaskContext} {signer : Pubkey} {rejectionHash : Hash}
    (h : rejectTaskResult c signer rejectionHash = .ok c') :
    ∃ config submission, UnderReview c config submission ∧ config.mode = .CreatorReview ∧
      c.accounts.task.creator = signer ∧
      validateContestRejectWindow c.accounts.task c.sys.now = .ok () ∧
      RejectsClaim c config c' := by
  simp only [rejectTaskResult, bind_eq_ok, demand_eq_ok, require_eq_ok, TaskContext.task_eq] at h
  obtain ⟨_, hcreator, claim, hclaim, submission, hstored, _, -, _, hstatus, config, hconfig,
    _, hsubmitted, _, hwindow, _, -, c₁, h₁, c₂, h₂, h₃⟩ := h
  obtain ⟨hmanual, hvalidation, hmode⟩ := ensureValidationConfig_spec hconfig
  refine ⟨config, submission, ⟨by simp [hclaim], hstored, hsubmitted, hstatus, hmanual,
    hvalidation⟩, by simpa [eq_comm] using hmode, hcreator, hwindow, ?_⟩
  obtain ⟨rejected, book', bids', bidder', paidBid, -, hpending, hn, ha, hbid, rfl⟩ :=
    releaseRejected_spec h₁
  obtain ⟨claim, hclaim, rfl⟩ := closeClaim_spec h₂
  obtain ⟨stored, -, rfl⟩ := closeSubmission_spec h₃
  refine ⟨claim, _, c.accounts.votes, book', bids', bidder', paidBid,
    [claimClosing c claim.lamports, submissionClosing c stored.lamports], hclaim,
    .inl rfl, hpending, hn, ha, hbid, ?_, ?_⟩
  · simp [ClosesWorkerAccounts, claimClosing, submissionClosing]
  · simp [claimClosing, submissionClosing, Ledger.erase_insert]

/-- A later deadline, when there is one and it is too early for `minimum`. -/
def extendDeadline (deadline minimum : ℤ) : ℤ :=
  if 0 < deadline ∧ deadline < minimum then minimum else deadline

theorem le_extendDeadline (deadline minimum : ℤ) : deadline ≤ extendDeadline deadline minimum := by
  unfold extendDeadline
  split_ifs with h
  · exact h.2.le
  · exact le_refl _

theorem extendDeadline_pos_iff {deadline minimum : ℤ} :
    0 < extendDeadline deadline minimum ↔ 0 < deadline := by
  unfold extendDeadline
  split_ifs with h
  · exact ⟨fun _ => h.1, fun _ => h.1.trans h.2⟩
  · exact Iff.rfl

theorem requestChanges_spec {c c' : TaskContext} {signer : Pubkey} {changesHash : Hash}
    (h : requestChanges c signer changesHash = .ok c') :
    ∃ config submission claim rejected minimum,
      UnderReview c config submission ∧
      c.accounts.task.creator = signer ∧
      isContestConfiguredTask c.accounts.task = false ∧
      c.accounts.claims.lookup c.workerKey = some claim ∧
      rejected.data.status = .Rejected ∧
      1 ≤ config.pendingSubmissionCount ∧
      c' = { c with accounts := { c.accounts with
        task := { c.accounts.task with
          liveSubmissions := c.accounts.task.liveAfterLeaving
          status := syncedStatus c.accounts.task.status (config.pendingSubmissionCount - 1)
            c.accounts.task.currentWorkers
          deadline := extendDeadline c.accounts.task.deadline minimum }
        validation := some { config with
          pendingSubmissionCount := config.pendingSubmissionCount - 1 }
        claims := c.accounts.claims.insert c.workerKey { claim with data := { claim.data with
          proofHash := 0
          resultData := 0
          isCompleted := false
          isValidated := false
          completedAt := 0
          expiresAt := extendDeadline claim.data.expiresAt minimum } }
        submissions := c.accounts.submissions.insert c.workerKey rejected } } := by
  simp only [requestChanges, setSubmission, bind_eq_ok, demand_eq_ok, require_eq_ok, addI64_eq_ok,
    TaskContext.task_eq] at h
  obtain ⟨_, hcreator, claim, hclaim, submission, hstored, _, -, _, hstatus, config, hconfig,
    _, hsubmitted, _, hcontest, _, -, _, -, minimum, -, c₁, h₁, h⟩ := h
  obtain ⟨hmanual, hvalidation, -⟩ := ensureValidationConfig_spec hconfig
  obtain ⟨hpending, -, rfl⟩ := leaveReview_spec h₁
  simp only [syncStatus, TaskContext.task_eq, syncTaskValidationStatus_eq] at h
  obtain rfl := Except.ok.inj h
  exact ⟨config, submission, claim, _, minimum, ⟨by simp [hclaim], hstored, hsubmitted, hstatus,
    hmanual, hvalidation⟩, hcreator, hcontest, hclaim, rfl, hpending, rfl⟩

/-! ## Votes -/

/-- A vote changes the tally of a submission under review and nothing else. -/
theorem recordVote_spec {c : TaskContext} {submission : Account TaskSubmission}
    {reviewer : Pubkey} {approved : Bool} {r : TaskContext × TaskSubmission}
    (h : recordVote c submission reviewer approved = .ok r) :
    r.2.status = submission.data.status ∧
    r.2.approvalCount = submission.data.approvalCount + (if approved then 1 else 0) ∧
    ∃ votes', r.1 = { c with accounts := { c.accounts with
      votes := votes'
      submissions := c.accounts.submissions.insert c.workerKey
        ⟨submission.lamports, r.2⟩ } } := by
  simp only [recordVote, setSubmission, bind_eq_ok, require_eq_ok, addU8_eq_ok,
    Except.ok.injEq] at h
  obtain ⟨_, -, _, ⟨-, rfl⟩, _, -, rfl⟩ := h
  exact ⟨rfl, rfl, _, rfl⟩

theorem closeAttestorVote_eq (c : TaskContext) (config : TaskValidationConfig)
    (reviewer : Pubkey) : ∃ votes', closeAttestorVote c config reviewer =
      { c with accounts := { c.accounts with votes := votes' } } := by
  unfold closeAttestorVote
  split_ifs
  · exact ⟨_, rfl⟩
  · exact ⟨_, rfl⟩

/-- Where more than one vote decides, validators do. -/
theorem reviewQuorum_mode {c : TaskContext} {config : TaskValidationConfig} {reviewer : Pubkey}
    {validator : Option (Pubkey × AgentRegistration)} {quorum : ℕ}
    (h : reviewQuorum c config reviewer validator = .ok quorum) (hmany : quorum ≠ 1) :
    config.mode = .ValidatorQuorum := by
  unfold reviewQuorum at h
  split at h
  · assumption
  · simp only [bind_eq_ok, Except.ok.injEq] at h
    obtain ⟨_, -, _, -, _, -, hone⟩ := h
    exact absurd hone.symm hmany
  · cases h
  · cases h

/-- A reviewer's decision accepts, rejects, or only counts a vote. An approval rejects only where
the votes of others can. -/
theorem validateTaskResult_spec {c c' : TaskContext} {reviewer : Pubkey}
    {validator : Option (Pubkey × AgentRegistration)} {approved : Bool}
    (h : validateTaskResult c reviewer validator approved = .ok c') :
    ∃ config submission, UnderReview c config submission ∧ config.mode ≠ .CreatorReview ∧
      (PaysAccepted c config {} c' ∨
        RejectsClaim c config c' ∧ (approved = true → config.mode = .ValidatorQuorum) ∨
        ∃ voted votes', voted.data.status = .Submitted ∧
          c' = { c with accounts := { c.accounts with
            votes := votes'
            submissions := c.accounts.submissions.insert c.workerKey voted } }) := by
  simp only [validateTaskResult, bind_eq_ok, demand_eq_ok, require_eq_ok, Prod.exists,
    TaskContext.task_eq] at h
  obtain ⟨claim, hclaim, submission, hstored, _, -, _, hstatus, config, hconfig, _, hsubmitted,
    quorum, hquorum, c₁, data, hvote, h⟩ := h
  obtain ⟨hmanual, hvalidation, -⟩ := ensureValidationConfig_spec hconfig
  obtain ⟨hdata, hcount, votes₁, hc₁⟩ := recordVote_spec hvote
  dsimp only at hdata hcount hc₁
  subst hc₁
  have hmode : config.mode ≠ .CreatorReview := by
    intro hmode
    simp [reviewQuorum, hmode] at hquorum
  refine ⟨config, submission, ⟨by simp [hclaim], hstored, hsubmitted, hstatus, hmanual,
    hvalidation⟩, hmode, ?_⟩
  split_ifs at h with happrove hreject
  · left
    simp only [bind_eq_ok, Except.ok.injEq] at h
    obtain ⟨_, -, c₂, h₂, rfl⟩ := h
    have hpays : PaysAccepted _ config {} c₂ :=
      payAcceptedSubmission_spec h₂ hvalidation fun _ _ htill hr =>
        .inr ⟨by rw [← Except.ok.inj hr], by rw [← Except.ok.inj hr], _, htill, hmode⟩
    obtain ⟨claim, stored, gross, price, escrow', vault', paidReward, book', bids', bidder',
      paidBid, _, hclaim, hvoted, hpending, hn, ha, hgross, hprice, hsettles, hbid, completedAt,
      result, rated, tasksCompleted, totalEarned, reputation, completedTasks, totalValue, rfl⟩ :=
      hpays
    obtain rfl : stored = ⟨submission.lamports, data⟩ := by simpa [eq_comm] using hvoted
    obtain ⟨votes₂, hvotes⟩ := closeAttestorVote_eq _ config reviewer
    rw [hvotes]
    refine ⟨claim, submission, gross, price, escrow', vault', paidReward, book', bids', bidder',
      paidBid, votes₂, hclaim, hstored, hpending, hn, ha, hgross, hprice, hsettles, hbid,
      completedAt, result, rated, tasksCompleted, totalEarned, reputation, completedTasks,
      totalValue, ?_⟩
    dsimp only
    rw [Ledger.erase_insert]
    rfl
  · right
    left
    simp only [bind_eq_ok, Except.ok.injEq] at h
    obtain ⟨c₂, h₂, c₃, h₃, rfl⟩ := h
    obtain ⟨rejected, book', bids', bidder', paidBid, hrejected, hpending, hn, ha, hbid, rfl⟩ :=
      releaseRejected_spec h₂
    obtain ⟨claim, hclaim, rfl⟩ := closeClaim_spec h₃
    obtain ⟨votes₂, hvotes⟩ := closeAttestorVote_eq _ config reviewer
    rw [hvotes]
    refine ⟨⟨claim, c.accounts.submissions.insert c.workerKey rejected, votes₂, book', bids',
      bidder', paidBid, [claimClosing c claim.lamports], hclaim, .inr ⟨rejected, hrejected, rfl⟩,
      hpending, hn, ha, hbid, by simp [ClosesWorkerAccounts, claimClosing], ?_⟩, ?_⟩
    · dsimp only
      rw [AList.insert_insert]
      rfl
    · intro hvoted
      refine reviewQuorum_mode hquorum fun hone => happrove ?_
      rw [hone, hcount, hvoted]
      exact Nat.le_add_left 1 _
  · simp only [Except.ok.injEq] at h
    exact .inr (.inr ⟨_, votes₁, hdata.trans hsubmitted, h.symm⟩)

/-! ## Freezing -/

theorem rejectAndFreeze_spec {c c' : TaskContext} {signer : Pubkey} {rejectionHash : Hash}
    (h : rejectAndFreeze c signer rejectionHash = .ok c') :
    ∃ config submission rejected, UnderReview c config submission ∧
      c.accounts.task.taskType = .Exclusive ∧ c.accounts.task.rewardMint = none ∧
      rejected.data.status = .Rejected ∧ 1 ≤ config.pendingSubmissionCount ∧
      c' = { c with accounts := { c.accounts with
        task := { c.accounts.task with
          liveSubmissions := c.accounts.task.liveAfterLeaving
          status := .RejectFrozen }
        validation := some { config with
          pendingSubmissionCount := config.pendingSubmissionCount - 1 }
        submissions := c.accounts.submissions.insert c.workerKey rejected } } := by
  simp only [rejectAndFreeze, setSubmission, bind_eq_ok, demand_eq_ok, require_eq_ok,
    TaskContext.task_eq] at h
  obtain ⟨_, -, claim, hclaim, submission, hstored, _, -, _, hstatus, _, htype, _, hmint, config,
    hconfig, _, hsubmitted, _, -, c₁, h₁, h⟩ := h
  obtain ⟨hmanual, hvalidation, -⟩ := ensureValidationConfig_spec hconfig
  obtain ⟨hpending, -, rfl⟩ := leaveReview_spec h₁
  obtain rfl := Except.ok.inj h
  exact ⟨config, submission, _, ⟨by simp [hclaim], hstored, hsubmitted, hstatus, hmanual,
    hvalidation⟩, htype, hmint, rfl, hpending, rfl⟩

/-- What both exits in the worker's favour do to a frozen task: one completion is settled, claim
and submission are closed, the worker's bond goes back and the creator's is disposed of. -/
def PaysFrozen (c : TaskContext) (payees : PayeeAccounts) (disposition : BondDisposition)
    (c' : TaskContext) : Prop :=
  ∃ claim stored gross escrow' vault' paidReward,
    c.accounts.claims.lookup c.workerKey = some claim ∧
    c.accounts.submissions.lookup c.workerKey = some stored ∧
    c.accounts.task.status = .RejectFrozen ∧
    1 ≤ c.accounts.task.currentWorkers ∧ 1 ≤ c.worker.data.activeTasks ∧
    completionGross c.accounts.task none = .ok gross ∧
    Settles c.till payees gross (completesTask c.accounts.task) escrow' vault' paidReward ∧
    (∀ bond, (c.accounts.bonds.erase c.worker.data.authority).lookup c.accounts.task.creator =
      some bond → disposition = .Refund ∨ bond.data.amount ≤ bond.lamports) ∧
    ∃ completedAt result rated tasksCompleted totalEarned reputation completedTasks totalValue,
      c' = { c with
        accounts := { c.accounts with
          task := { c.accounts.task with
            currentWorkers := c.accounts.task.currentWorkers - 1
            completions := c.accounts.task.completions + 1
            status := if completesTask c.accounts.task then .Completed
              else c.accounts.task.status
            completedAt := completedAt
            result := result
            ratingFeeQualified := rated }
          escrow := escrow'
          tokenEscrow := vault'
          claims := c.accounts.claims.erase c.workerKey
          submissions := c.accounts.submissions.erase c.workerKey
          bonds := (c.accounts.bonds.erase c.worker.data.authority).erase
            c.accounts.task.creator }
        worker := { c.worker with data := { c.worker.data with
          tasksCompleted := tasksCompleted
          totalEarned := totalEarned
          activeTasks := c.worker.data.activeTasks - 1
          lastActive := c.sys.now
          reputation := reputation } }
        config := { c.config with
          completedTasks := completedTasks, totalValueDistributed := totalValue }
        paid := c.paid ++ paidReward ++
          bondPayments c.key c.worker.data.authority .Refund
            (c.accounts.bonds.lookup c.worker.data.authority) ++
          bondPayments c.key c.accounts.task.creator disposition
            ((c.accounts.bonds.erase c.worker.data.authority).lookup
              c.accounts.task.creator) ++
          [claimClosing c claim.lamports] ++ [submissionClosing c stored.lamports] }

theorem payFrozenSubmission_spec {c c₁ c₂ c₃ c' : TaskContext} {submission : TaskSubmission}
    {payees : PayeeAccounts} {disposition : BondDisposition}
    (hstatus : c.accounts.task.status = .RejectFrozen)
    (h₁ : payFrozenSubmission c submission payees = .ok c₁)
    (h₂ : settleCompletionBond c₁ c₁.accounts.task.creator .Creator disposition = .ok c₂)
    (h₃ : closeClaim c₂ c₂.worker.data.authority = .ok c₃)
    (h₄ : closeSubmission c₃ c₃.worker.data.authority = .ok c') :
    PaysFrozen c payees disposition c' := by
  simp only [payFrozenSubmission, bind_eq_ok, Prod.exists] at h₁
  obtain ⟨operatorLeg, referrerLeg, hlegs, _, hpay, hbond⟩ := h₁
  obtain ⟨gross, escrow', vault', paidReward, hgross, hsettles, -, hn, ha, -, completedAt, result,
    rated, tasksCompleted, totalEarned, reputation, completedTasks, totalValue, rfl⟩ :=
    executeCompletionRewards_spec hpay (.inl (buildMarketplaceFeeLegs_spec hlegs))
  obtain ⟨-, rfl⟩ := settleCompletionBond_spec hbond
  obtain ⟨hcovered, rfl⟩ := settleCompletionBond_spec h₂
  obtain ⟨claim, hclaim, rfl⟩ := closeClaim_spec h₃
  obtain ⟨stored, hstored, rfl⟩ := closeSubmission_spec h₄
  exact ⟨claim, stored, gross, escrow', vault', paidReward, hclaim, hstored, hstatus, hn, ha,
    hgross, hsettles, fun bond hb => (hcovered bond hb).2, completedAt, result, rated,
    tasksCompleted, totalEarned, reputation, completedTasks, totalValue, rfl⟩

/-- What the exit in the creator's favour does: the task is cancelled, the escrow returned, the
worker's bond forfeit to the treasury. -/
def CancelsFrozen (c c' : TaskContext) : Prop :=
  ∃ claim stored escrow,
    c.accounts.claims.lookup c.workerKey = some claim ∧
    c.accounts.submissions.lookup c.workerKey = some stored ∧
    c.accounts.task.status = .RejectFrozen ∧
    c.accounts.escrow = some escrow ∧
    1 ≤ c.accounts.task.currentWorkers ∧ 1 ≤ c.worker.data.activeTasks ∧
    (∀ bond, c.accounts.bonds.lookup c.worker.data.authority = some bond →
      bond.data.amount ≤ bond.lamports) ∧
    c' = { c with
      accounts := { c.accounts with
        task := { c.accounts.task with
          status := .Cancelled
          currentWorkers := c.accounts.task.currentWorkers - 1 }
        escrow := none
        claims := c.accounts.claims.erase c.workerKey
        submissions := c.accounts.submissions.erase c.workerKey
        bonds := (c.accounts.bonds.erase c.worker.data.authority).erase
          c.accounts.task.creator }
      worker := { c.worker with data := { c.worker.data with
        activeTasks := c.worker.data.activeTasks - 1, lastActive := c.sys.now } }
      paid := c.paid ++
        bondPayments c.key c.worker.data.authority (.Forfeit c.config.treasury .bondForfeit)
          (c.accounts.bonds.lookup c.worker.data.authority) ++
        bondPayments c.key c.accounts.task.creator .Refund
          ((c.accounts.bonds.erase c.worker.data.authority).lookup c.accounts.task.creator) ++
        [closeEscrowTransfer c.key c.accounts.task.creator escrow.lamports] ++
        [claimClosing c claim.lamports] ++ [submissionClosing c stored.lamports] }

theorem resolveRejectFrozen_spec {c c' : TaskContext} {signers : List Pubkey}
    {approveCompletion : Bool} {payees : PayeeAccounts}
    (h : resolveRejectFrozen c signers approveCompletion payees = .ok c') :
    (∃ treasury, PaysFrozen c payees (.Forfeit treasury .bondForfeit) c') ∨ CancelsFrozen c c' := by
  simp only [resolveRejectFrozen, bind_eq_ok, demand_eq_ok, require_eq_ok,
    TaskContext.task_eq] at h
  obtain ⟨_, -, submission, -, _, -, _, -, _, -, _, hstatus, h⟩ := h
  cases approveCompletion with
  | true =>
    simp only [if_true, bind_eq_ok] at h
    obtain ⟨c₀, h₀, c₁, h₁, c₂, h₂, h₃⟩ := h
    exact .inl ⟨_, payFrozenSubmission_spec hstatus h₀ h₁ h₂ h₃⟩
  | false =>
    simp only [Bool.false_eq_true, if_false, bind_eq_ok, closeEscrow, demand_eq_ok,
      Except.ok.injEq] at h
    obtain ⟨_, hslot, _, hworker, _, hcreator, _, ⟨escrow, hescrow, rfl⟩, c₂, h₂, h₃⟩ := h
    obtain ⟨hn, ha, rfl⟩ := releaseSlot_spec hslot
    obtain ⟨hcovered, rfl⟩ := settleCompletionBond_spec hworker
    obtain ⟨-, rfl⟩ := settleCompletionBond_spec hcreator
    obtain ⟨claim, hclaim, rfl⟩ := closeClaim_spec h₂
    obtain ⟨stored, hstored, rfl⟩ := closeSubmission_spec h₃
    refine .inr ⟨claim, stored, escrow, hclaim, hstored, hstatus, hescrow, hn, ha,
      fun bond hb => ?_, rfl⟩
    simpa using (hcovered bond hb).2

theorem expireRejectFrozen_spec {c c' : TaskContext} {payees : PayeeAccounts}
    (h : expireRejectFrozen c payees = .ok c') : PaysFrozen c payees .Refund c' := by
  simp only [expireRejectFrozen, bind_eq_ok, demand_eq_ok, require_eq_ok,
    TaskContext.task_eq] at h
  obtain ⟨_, -, submission, -, _, -, _, hstatus, _, -, c₁, h₁, c₂, h₂, c₃, h₃, h₄⟩ := h
  exact payFrozenSubmission_spec hstatus h₁ h₂ h₃ h₄

/-! ## Completing without review -/

theorem validateCompletionPrereqs_spec {task : Task} {claim : TaskClaim} {now : ℤ} {u : Unit}
    (h : validateCompletionPrereqs task claim now = .ok u) :
    task.status = .InProgress ∧ (0 < task.deadline → now ≤ task.deadline) ∧
      claim.isCompleted = false := by
  simp only [validateCompletionPrereqs, require_bind_eq_ok] at h
  exact ⟨h.2.2.1, h.2.2.2.1, h.2.2.2.2.1⟩

theorem completeTask_spec {c c' : TaskContext} {signer : Pubkey} {proofHash : Hash}
    {resultData : Option ℕ} {payees : PayeeAccounts}
    (h : completeTask c signer proofHash resultData payees = .ok c') :
    ∃ claim gross price escrow' vault' paidReward book' bids' bidder' paidBid,
      c.accounts.claims.lookup c.workerKey = some claim ∧
      c.accounts.task.status = .InProgress ∧
      isManualValidationTask c.accounts.task = false ∧
      1 ≤ c.accounts.task.currentWorkers ∧ 1 ≤ c.worker.data.activeTasks ∧
      completionGross c.accounts.task price = .ok gross ∧
      (c.accounts.task.taskType ≠ .BidExclusive → price = none) ∧
      Settles c.till payees gross (completesTask c.accounts.task) escrow' vault' paidReward ∧
      SettlesBid c.bidSide .Close .Refund book' bids' bidder' paidBid ∧
    ∃ completedAt result rated tasksCompleted totalEarned reputation completedTasks totalValue,
      c' = { c with
        accounts := { c.accounts with
          task := { c.accounts.task with
            currentWorkers := c.accounts.task.currentWorkers - 1
            completions := c.accounts.task.completions + 1
            status := if completesTask c.accounts.task then .Completed
              else c.accounts.task.status
            completedAt := completedAt
            result := result
            ratingFeeQualified := rated }
          escrow := escrow'
          tokenEscrow := vault'
          claims := c.accounts.claims.erase c.workerKey
          bonds := (c.accounts.bonds.erase c.accounts.task.creator).erase
            c.worker.data.authority
          bidBook := book'
          bids := bids' }
        worker := { c.worker with data := { c.worker.data with
          tasksCompleted := tasksCompleted
          totalEarned := totalEarned
          activeTasks := c.worker.data.activeTasks - 1
          lastActive := c.sys.now
          reputation := reputation } }
        bidder := bidder'
        config := { c.config with
          completedTasks := completedTasks, totalValueDistributed := totalValue }
        paid := c.paid ++ paidReward ++ paidBid ++ [claimClosing c claim.lamports] ++
          bondPayments c.key c.accounts.task.creator .Refund
            (c.accounts.bonds.lookup c.accounts.task.creator) ++
          bondPayments c.key c.worker.data.authority .Refund
            ((c.accounts.bonds.erase c.accounts.task.creator).lookup
              c.worker.data.authority) } := by
  simp only [completeTask, bind_eq_ok, demand_eq_ok, require_eq_ok, Prod.exists,
    TaskContext.task_eq] at h
  obtain ⟨_, -, claim₀, -, price, hprice, _, -, _, -, _, -, _, -, _, hprereqs, _, hmanual, _, -,
    operatorLeg, referrerLeg, hlegs, c₁, h₁, c₂, h₂, c₃, h₃, c₄, h₄, h₅⟩ := h
  obtain ⟨gross, escrow', vault', paidReward, hgross, hsettles, -, hn, ha, -, completedAt, result,
    rated, tasksCompleted, totalEarned, reputation, completedTasks, totalValue, rfl⟩ :=
    executeCompletionRewards_spec h₁ (.inl (buildMarketplaceFeeLegs_spec hlegs))
  obtain ⟨book', bids', bidder', paidBid, hbid, rfl⟩ := finalizeBidTaskCompletion_spec h₂
  obtain ⟨claim, hclaim, rfl⟩ := closeClaim_spec h₃
  obtain ⟨-, rfl⟩ := settleCompletionBond_spec h₄
  obtain ⟨-, rfl⟩ := settleCompletionBond_spec h₅
  exact ⟨claim, gross, price, escrow', vault', paidReward, book', bids', bidder', paidBid, hclaim,
    (validateCompletionPrereqs_spec hprereqs).1, hmanual, hn, ha, hgross,
    loadBidTaskCompletionMeta_eq_none hprice, hsettles, hbid, completedAt, result, rated,
    tasksCompleted, totalEarned, reputation, completedTasks, totalValue, rfl⟩

end AgencCoordination
