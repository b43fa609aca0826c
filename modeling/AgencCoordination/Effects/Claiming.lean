import AgencCoordination.Effects.Review
import AgencCoordination.Program.Creation

/-!
# What setting up and claiming do

One lemma for each instruction that creates a task, configures it, posts or reclaims a bond on
it or claims it.

* **`FreshTask`** — what every creating instruction stores (`CreateOp`'s five handlers).
* **`claimTaskWithJobSpec_spec`** — a slot is taken (`Occupies`).
-/

namespace AgencCoordination

open Foundations

/-! ## Taking a slot -/

/-- A new claim of the context's worker: one more slot is taken, by a worker who has one more
task, and the claim lasts until `expiresAt`. -/
def Occupies (c : TaskContext) (expiresAt : ℤ) (c' : TaskContext) : Prop :=
  ∃ workers status lamports claimGeneration reputation lastActive bidBook' bids' bidder',
    c' = { c with
      accounts := { c.accounts with
        task := { c.accounts.task with
          currentWorkers := workers
          status := status
          claimGeneration := claimGeneration }
        claims := c.accounts.claims.insert c.workerKey ⟨lamports, newClaim c.sys.now expiresAt⟩
        bidBook := bidBook'
        bids := bids' }
      worker := { c.worker with data := { c.worker.data with
        reputation := reputation
        activeTasks := c.worker.data.activeTasks + 1
        lastActive := lastActive } }
      bidder := bidder' } ∧
    workers = c.accounts.task.currentWorkers + 1 ∧
    status = if c.accounts.task.status = .PendingValidation then .PendingValidation
      else .InProgress

theorem incrementClaimGeneration_spec {task task' : Task}
    (h : task.incrementClaimGeneration = .ok task') :
    ∃ claimGeneration, task' = { task with claimGeneration := claimGeneration } := by
  simp only [Task.incrementClaimGeneration, bind_eq_ok, addU64_eq_ok, Except.ok.injEq] at h
  obtain ⟨_, -, rfl⟩ := h
  exact ⟨_, rfl⟩

/-- What both ways of taking a slot have checked. -/
structure Assignable (c : TaskContext) (expiresAt : ℤ) : Prop where
  dependency : validateTaskDependency c = .ok ()
  slots : c.accounts.task.currentWorkers < min c.accounts.task.maxWorkers disputeSafeMaxWorkers
  tasks : c.worker.data.activeTasks < maxActiveTasks
  expiry : claimExpiry c.accounts.task c.config c.sys.now = .ok expiresAt
  unclaimed : ∀ claim, c.accounts.claims.lookup c.workerKey = some claim →
    claim.data.claimedAt ≤ 0

/-- The entry deposit only raises the balance of the new claim. -/
theorem depositContestEntry_eq {c : TaskContext} {claim : Account TaskClaim}
    (h : c.accounts.claims.lookup c.workerKey = some claim) :
    (∃ lamports, depositContestEntry c = { c with accounts := { c.accounts with
      claims := c.accounts.claims.insert c.workerKey ⟨lamports, claim.data⟩ } }) ∨
      depositContestEntry c = c := by
  unfold depositContestEntry
  split_ifs
  · exact .inl ⟨_, by rw [h]⟩
  · exact .inr rfl

theorem claimTaskWithJobSpec_spec {c c' : TaskContext} {signer : Pubkey} {prefunded : ℕ}
    (h : claimTaskWithJobSpec c signer prefunded = .ok c') :
    ∃ expiresAt, Assignable c expiresAt ∧
      c.accounts.task.taskType ≠ .BidExclusive ∧
      (0 < c.accounts.task.deadline → c.sys.now < c.accounts.task.deadline) ∧
      (c.accounts.task.status = .Open ∨ c.accounts.task.status = .InProgress ∨
        claimableDuringPendingValidation c.accounts.task = true) ∧
      KeepsBids c c' ∧ Occupies c expiresAt c' := by
  simp only [claimTaskWithJobSpec, bind_eq_ok, Except.ok.injEq] at h
  obtain ⟨_, -, spec, -, _, -, _, -, _, hdependency, c₁, hclaim, rfl⟩ := h
  simp only [processClaim, bind_eq_ok, require_eq_ok, addU8_eq_ok, addU16_eq_ok, Except.ok.injEq,
    TaskContext.task_eq] at hclaim
  obtain ⟨_, -, _, -, _, -, _, hunclaimed, _, hstatus, _, htype, _, -, _, hdeadline, h⟩ := hclaim
  obtain ⟨_, hslots, _, -, _, -, _, -, _, -, _, hactive, expiresAt, hexpiry, task, htask, h⟩ := h
  obtain ⟨_, ⟨-, rfl⟩, _, ⟨-, rfl⟩, hc₁⟩ := h
  obtain ⟨claimGeneration, rfl⟩ := incrementClaimGeneration_spec htask
  refine ⟨expiresAt, ⟨hdependency, hslots, hactive, hexpiry, fun claim hc => ?_⟩, htype, hdeadline,
    hstatus, ?_⟩
  · simpa [hc] using hunclaimed
  · obtain ⟨balance, hclaim⟩ : ∃ balance, c₁.accounts.claims.lookup c₁.workerKey =
        some ⟨balance, newClaim c.sys.now expiresAt⟩ := by
      rw [← hc₁]
      exact ⟨_, AList.lookup_insert _⟩
    rcases depositContestEntry_eq hclaim with ⟨lamports, hdeposit⟩ | hdeposit
    · rw [hdeposit, ← hc₁]
      refine ⟨⟨rfl, rfl, rfl⟩, _, _, lamports, claimGeneration,
        decayedReputation c.worker.data c.sys.now, c.sys.now, c.accounts.bidBook,
        c.accounts.bids, c.bidder, ?_, rfl, rfl⟩
      dsimp only
      rw [AList.insert_insert]
    · rw [hdeposit, ← hc₁]
      exact ⟨⟨rfl, rfl, rfl⟩, _, _, _, claimGeneration, _, _, _, _, _, rfl, rfl, rfl⟩

/-! ## Completion bonds -/

/-- Posting a bond adds an entry that was not there, with at least its principal on it. -/
theorem postCompletionBond_spec {c c' : TaskContext} {signer : Pubkey} {role : BondRole}
    {prefunded : ℕ} (h : postCompletionBond c signer role prefunded = .ok c') :
    ∃ bond, c.accounts.bonds.lookup signer = none ∧
      c.accounts.task.taskType = .Exclusive ∧
      c.accounts.task.rewardMint = none ∧
      (c.accounts.task.status = .Open ∨ c.accounts.task.status = .InProgress ∨
        c.accounts.task.status = .PendingValidation) ∧
      bond.data.role = role ∧ bond.data.amount ≤ bond.lamports ∧
      (role = .Creator → signer = c.accounts.task.creator) ∧
      (role = .Worker → c.worker.data.authority = signer ∧
        (c.accounts.claims.lookup c.workerKey).isSome = true) ∧
      c' = { c with accounts := { c.accounts with
        bonds := c.accounts.bonds.insert signer bond } } := by
  cases role with
  | Creator =>
    simp only [postCompletionBond, bind_eq_ok, require_eq_ok, Except.ok.injEq,
      TaskContext.task_eq] at h
    obtain ⟨_, hfresh, _, -, _, -, _, htype, _, hstatus, _, hparty, _, hmint, _, -, rfl⟩ := h
    exact ⟨_, hfresh, htype, hmint, hstatus, rfl, Nat.le_add_left _ _, fun _ => hparty, by simp,
      rfl⟩
  | Worker =>
    simp only [postCompletionBond, bind_eq_ok, require_eq_ok, demand_eq_ok, Except.ok.injEq,
      TaskContext.task_eq] at h
    obtain ⟨_, hfresh, _, -, _, -, _, htype, _, hstatus, _, -, claim, hclaim, h⟩ := h
    obtain ⟨_, ⟨-, -, hparty⟩, _, -, _, hmint, _, -, rfl⟩ := h
    exact ⟨_, hfresh, htype, hmint, hstatus, rfl, Nat.le_add_left _ _, by simp,
      fun _ => ⟨hparty, by simp [hclaim]⟩, rfl⟩

/-- Reclaiming needs a finished task and nothing else. -/
theorem reclaimCompletionBond_spec {c c' : TaskContext} {party : Pubkey} {role : BondRole}
    (h : reclaimCompletionBond c party role = .ok c') :
    (c.accounts.task.status = .Completed ∨ c.accounts.task.status = .Cancelled) ∧
    c' = { c with
      accounts := { c.accounts with bonds := c.accounts.bonds.erase party }
      paid := c.paid ++ bondPayments c.key party .Refund (c.accounts.bonds.lookup party) } := by
  simp only [reclaimCompletionBond, bind_eq_ok, require_eq_ok, TaskContext.task_eq] at h
  obtain ⟨_, hstatus, h⟩ := h
  exact ⟨hstatus, (settleCompletionBond_spec h).2⟩

/-! ## Configuration -/

/-- Configuring review turns an untouched task into a manually validated one with nothing
pending. -/
theorem configureTaskValidation_spec {c c' : TaskContext} {signer : Pubkey}
    {mode : ValidationMode} {reviewWindowSecs : ℤ} {validatorQuorum : ℕ} {attestor : Option Pubkey}
    (h : configureTaskValidation c signer mode reviewWindowSecs validatorQuorum attestor = .ok c') :
    ∃ config, c.accounts.task.status = .Open ∧ c.accounts.task.currentWorkers = 0 ∧
      c.accounts.task.completions = 0 ∧
      (c.accounts.task.taskType = .Competitive → config.mode = .CreatorReview) ∧
      config.pendingSubmissionCount = 0 ∧
      c' = { c with accounts := { c.accounts with
        task := { c.accounts.task with constraintHash := manualValidationSentinel }
        validation := some config
        attestor := attestor } } := by
  simp only [configureTaskValidation, validateConfigurableTask, validateTaskSupportsValidationMode,
    bind_eq_ok, require_eq_ok, Except.ok.injEq, TaskContext.task_eq] at h
  obtain ⟨_, -, _, -, _, -, _, -, _, -, _, -, _, -, _, -, _, -, h⟩ := h
  obtain ⟨_, ⟨_, hstatus, hworkers, hcompletions⟩, _, ⟨_, hmode, _, -, -⟩, h⟩ := h
  obtain ⟨_, -, _, -, rfl⟩ := h
  exact ⟨_, hstatus, hworkers, hcompletions, fun htype => (hmode htype).2, rfl, rfl⟩

theorem setTaskJobSpec_spec {c c' : TaskContext} {signer : Pubkey} {jobSpecHash : Hash}
    (h : setTaskJobSpec c signer jobSpecHash = .ok c') :
    ∃ jobSpec, c.accounts.task.status = .Open ∧
      c' = { c with accounts := { c.accounts with jobSpec := jobSpec } } := by
  simp only [setTaskJobSpec, validateConfigurableTask, bind_eq_ok, require_eq_ok, Except.ok.injEq,
    TaskContext.task_eq] at h
  obtain ⟨_, -, _, -, _, -, _, -, _, ⟨_, hstatus, -⟩, _, -, _, -, rfl⟩ := h
  exact ⟨_, hstatus, rfl⟩

/-! ## Creation -/

/-- What holds of the task record of every new task. -/
structure FreshTask (task : Task) : Prop where
  status : task.status = .Open
  workers : task.currentWorkers = 0
  completions : task.completions = 0
  live : task.liveSubmissions = 0
  schema : task.taskSchema = taskSchemaContestAware
  slash : task.workerSlashPending = false
  peers : task.peerSettlementPending = false
  generation : task.claimGeneration = 0
  slots : 0 < task.maxWorkers ∧ task.maxWorkers ≤ disputeSafeMaxWorkers
  exclusive : task.taskType = .Exclusive → task.maxWorkers = 1
  bidExclusive : task.taskType = .BidExclusive → task.maxWorkers = 1 ∧ task.rewardMint = none
  competitive : task.taskType = .Competitive → task.rewardMint = none ∧ 0 < task.deadline
  required : task.requiredCompletions =
    if task.taskType = .Collaborative then task.maxWorkers else 1
  reward : 0 < task.rewardAmount
  collaborative : task.taskType = .Collaborative → task.requiredCompletions ≤ task.rewardAmount

/-- The accounts every creating instruction stores: an untouched task with a funded escrow, under
creator review when the instruction installs it. -/
structure FreshAccounts (w : World) (accounts : TaskAccounts) : Prop where
  task : FreshTask accounts.task
  claims : accounts.claims = ∅
  submissions : accounts.submissions = ∅
  bonds : accounts.bonds = ∅
  bids : accounts.bids = ∅
  book : accounts.bidBook = none
  escrow : ∃ pre, accounts.escrow = some (initEscrow w.sys.rent accounts.task pre)
  review : accounts.task.constraintHash = 0 ∧ accounts.validation = none ∨
    accounts.task.constraintHash = manualValidationSentinel ∧
      accounts.task.taskType = .Exclusive ∧
      ∃ config, accounts.validation = some config ∧ config.pendingSubmissionCount = 0 ∧
        config.mode = .CreatorReview
  operator : accounts.hire = none → accounts.task.operatorFeeBps = 0
  hire : ∀ hire, accounts.hire = some hire →
    hire.operator = accounts.task.operator ∧ hire.referrer = accounts.task.referrer
  token : accounts.task.rewardMint ≠ none →
    accounts.task.operatorFeeBps = 0 ∧ accounts.task.referrerFeeBps = 0
  dependency : accounts.task.dependencyType ≠ .None →
    ∃ parent, accounts.task.dependsOn = some parent ∧ (w.tasks.lookup parent).isSome = true

theorem initTaskFields_spec {p : TaskParams} {creator : Pubkey} {feeBps : ℕ} {now : ℤ}
    {task : Task} (h : initTaskFields p creator feeBps now = .ok task)
    (hparams : validateTaskParams p = .ok ()) (hbid : validateBidTaskMode p = .ok ())
    (hreward : 0 < p.rewardAmount) :
    FreshTask task ∧ task.constraintHash = 0 ∧ task.dependencyType = .None ∧
      task.taskType = p.taskType ∧ task.operatorFeeBps = 0 ∧ task.referrerFeeBps = 0 ∧
      task.rewardMint = p.rewardMint := by
  simp only [initTaskFields, validateRewardCoversRequiredCompletions, bind_eq_ok, require_eq_ok,
    Except.ok.injEq] at h
  obtain ⟨_, hcover, _, hmint, _, hdeadline, rfl⟩ := h
  simp only [validateTaskParams, require_bind_eq_ok, require_eq_ok] at hparams
  simp only [validateBidTaskMode, require_bind_eq_ok, require_eq_ok] at hbid
  obtain ⟨-, -, -, hslots, hexclusive, -⟩ := hparams
  exact ⟨{
    status := rfl
    workers := rfl
    completions := rfl
    live := rfl
    schema := rfl
    slash := rfl
    peers := rfl
    generation := rfl
    slots := hslots
    exclusive := hexclusive
    bidExclusive := fun htype => ⟨hbid.1 htype, hbid.2 htype⟩
    competitive := fun htype => ⟨hmint htype, hdeadline htype⟩
    required := rfl
    reward := hreward
    collaborative := hcover }, rfl, rfl, rfl, rfl, rfl, rfl⟩

/-- A creating instruction stores fresh accounts under a new address, and otherwise only updates
its creator's throttle and the count of tasks. -/
def Creates (w : World) (key : Pubkey) (w' : World) : Prop :=
  w.tasks.lookup key = none ∧ ∃ accounts rateLimits quotas totalTasks,
    FreshAccounts w accounts ∧
    w' = { w with
      tasks := w.tasks.insert key accounts
      rateLimits := rateLimits
      quotas := quotas
      config := { w.config with totalTasks := totalTasks } }

theorem storeNewTask_spec {w w' : World} {key authority : Pubkey} {throttle : CreationThrottle}
    {accounts : TaskAccounts} (h : storeNewTask w key authority throttle accounts = .ok w')
    (hkey : w.tasks.lookup key = none) (hfresh : FreshAccounts w accounts) :
    Creates w key w' := by
  simp only [storeNewTask, bind_eq_ok, addU64_eq_ok, Except.ok.injEq] at h
  obtain ⟨_, -, rfl⟩ := h
  exact ⟨hkey, accounts, _, _, _, hfresh, rfl⟩

theorem createTask_spec {w w' : World} {key creator creatorAgent : Pubkey} {p : TaskParams}
    {constraintHash : Option Hash} {referrer : Option Pubkey} {referrerFeeBps : ℕ}
    {useQuota : Bool} {pre : Prefunding}
    (h : createTask w key creator creatorAgent p constraintHash referrer referrerFeeBps useQuota
      pre = .ok w') : Creates w key w' := by
  simp only [createTask, bind_eq_ok, require_eq_ok, Prod.exists] at h
  obtain ⟨_, hkey, _, -, _, -, _, hparams, _, -, _, -, _, hbid, _, hreward, h⟩ := h
  obtain ⟨_, -, _, -, _, -, _, -, throttle, -, task, htask, h⟩ := h
  obtain ⟨referrerKey, referrerBps, -, _, hsol, _, -, h⟩ := h
  obtain ⟨hfresh, hhash, hdep, -, hoperator, -, hmint⟩ :=
    initTaskFields_spec htask hparams hbid hreward
  exact storeNewTask_spec h hkey {
    task := { hfresh with }
    claims := rfl
    submissions := rfl
    bonds := rfl
    bids := rfl
    book := rfl
    escrow := ⟨pre, rfl⟩
    review := .inl ⟨hhash, rfl⟩
    operator := fun _ => hoperator
    hire := by simp [newTaskAccounts]
    token := fun htoken => ⟨hoperator, hsol.resolve_right (hmint ▸ htoken)⟩
    dependency := fun hne => absurd hdep hne }

theorem createDependentTask_spec {w w' : World} {key creator creatorAgent parentKey : Pubkey}
    {p : TaskParams} {constraintHash : Option Hash} {dependencyType : DependencyType}
    {useQuota : Bool} {pre : Prefunding}
    (h : createDependentTask w key creator creatorAgent parentKey p constraintHash dependencyType
      useQuota pre = .ok w') : Creates w key w' := by
  simp only [createDependentTask, bind_eq_ok, require_eq_ok, demand_eq_ok] at h
  obtain ⟨_, hkey, _, -, _, -, _, hparams, _, -, _, -, _, hbid, parent, hparent, h⟩ := h
  obtain ⟨_, -, _, -, _, -, _, -, _, -, _, -, _, -, _, -, throttle, -, _, hreward, h⟩ := h
  obtain ⟨task, htask, h⟩ := h
  obtain ⟨hfresh, hhash, -, -, hoperator, hreferrer, -⟩ :=
    initTaskFields_spec htask hparams hbid hreward
  exact storeNewTask_spec h hkey {
    task := { hfresh with }
    claims := rfl
    submissions := rfl
    bonds := rfl
    bids := rfl
    book := rfl
    escrow := ⟨pre, rfl⟩
    review := .inl ⟨hhash, rfl⟩
    operator := fun _ => hoperator
    hire := by simp [newTaskAccounts]
    token := fun _ => ⟨hoperator, hreferrer⟩
    dependency := fun _ => ⟨parentKey, rfl, by simp [hparent]⟩ }

theorem createTaskHumanless_spec {w w' : World} {key creator : Pubkey} {p : TaskParams}
    {reviewWindowSecs : ℤ} {referrer : Option Pubkey} {referrerFeeBps : ℕ} {useQuota : Bool}
    {pre : Prefunding}
    (h : createTaskHumanless w key creator p reviewWindowSecs referrer referrerFeeBps useQuota pre
      = .ok w') : Creates w key w' := by
  simp only [createTaskHumanless, bind_eq_ok, require_eq_ok, Prod.exists] at h
  obtain ⟨_, hkey, _, hparams, _, -, _, hreward, _, -, _, -, _, -, _, -, h⟩ := h
  obtain ⟨throttle, -, task, htask, referrerKey, referrerBps, -, _, -, h⟩ := h
  obtain ⟨hfresh, -, hdep, htype, hoperator, -, hmint⟩ := initTaskFields_spec htask hparams
    (by simp [validateBidTaskMode]) hreward
  exact storeNewTask_spec h hkey {
    task := { hfresh with }
    claims := rfl
    submissions := rfl
    bonds := rfl
    bids := rfl
    book := rfl
    escrow := ⟨pre, rfl⟩
    review := .inr ⟨rfl, htype, _, rfl, rfl, rfl⟩
    operator := fun _ => hoperator
    hire := by simp [newTaskAccounts]
    token := fun htoken => absurd hmint htoken
    dependency := fun hne => absurd hdep hne }

/-- A hire opens an exclusive task in SOL with the listing's price. -/
theorem hireFromListingCore_spec {w : World} {key creator : Pubkey} {listing : ServiceListing}
    {taskId taskJobSpecHash : Hash} {expectedPrice expectedVersion : ℕ}
    {referrer : Option Pubkey} {referrerFeeBps : ℕ} {useQuota : Bool}
    {r : CreationThrottle × Task × HireRecord}
    (h : hireFromListingCore w key creator listing taskId taskJobSpecHash expectedPrice
      expectedVersion referrer referrerFeeBps useQuota = .ok r) :
    FreshTask r.2.1 ∧ r.2.1.constraintHash = 0 ∧ r.2.1.dependencyType = .None ∧
      r.2.1.taskType = .Exclusive ∧ r.2.1.rewardMint = none ∧
      r.2.2.operator = r.2.1.operator ∧ r.2.2.referrer = r.2.1.referrer := by
  simp only [hireFromListingCore, validateHireTerms, initTaskFields,
    validateRewardCoversRequiredCompletions, bind_eq_ok, require_eq_ok, Prod.exists,
    Except.ok.injEq] at h
  obtain ⟨_, -, _, -, _, ⟨_, -, _, -, _, -, _, -, _, -, hprice⟩, _, -, _, -, _, -, h⟩ := h
  obtain ⟨_, -, throttle, -, task, ⟨_, -, _, -, _, -, rfl⟩, _, -, _, _, -, _, -, rfl⟩ := h
  exact ⟨{
    status := rfl
    workers := rfl
    completions := rfl
    live := rfl
    schema := rfl
    slash := rfl
    peers := rfl
    generation := rfl
    slots := (by decide : 0 < 1 ∧ 1 ≤ disputeSafeMaxWorkers)
    exclusive := fun _ => rfl
    bidExclusive := by simp
    competitive := by simp
    required := rfl
    reward := by simpa using Nat.lt_of_lt_of_le (by decide) hprice
    collaborative := by simp }, rfl, rfl, rfl, rfl, rfl, rfl⟩

theorem hireFromListing_spec {w w' : World} {key creator creatorAgent : Pubkey}
    {listing : ServiceListing} {taskId taskJobSpecHash : Hash}
    {expectedPrice expectedVersion : ℕ} {referrer : Option Pubkey} {referrerFeeBps : ℕ}
    {useQuota : Bool} {pre : Prefunding}
    (h : hireFromListing w key creator creatorAgent listing taskId taskJobSpecHash expectedPrice
      expectedVersion referrer referrerFeeBps useQuota pre = .ok w') : Creates w key w' := by
  simp only [hireFromListing, bind_eq_ok, require_eq_ok, Prod.exists] at h
  obtain ⟨_, hkey, _, -, _, -, _, -, _, -, _, -, throttle, task, hire, hcore, h⟩ := h
  obtain ⟨hfresh, hhash, hdep, -, hmint, hterms⟩ := hireFromListingCore_spec hcore
  exact storeNewTask_spec h hkey {
    task := { hfresh with }
    claims := rfl
    submissions := rfl
    bonds := rfl
    bids := rfl
    book := rfl
    escrow := ⟨pre, rfl⟩
    review := .inl ⟨hhash, rfl⟩
    operator := by simp
    hire := fun hire' hhire => Option.some.inj hhire ▸ hterms
    token := fun htoken => absurd hmint htoken
    dependency := fun hne => absurd hdep hne }

theorem hireFromListingHumanless_spec {w w' : World} {key creator : Pubkey}
    {listing : ServiceListing} {taskId taskJobSpecHash : Hash}
    {expectedPrice expectedVersion : ℕ} {reviewWindowSecs : ℤ} {referrer : Option Pubkey}
    {referrerFeeBps : ℕ} {useQuota : Bool} {pre : Prefunding}
    (h : hireFromListingHumanless w key creator listing taskId taskJobSpecHash expectedPrice
      expectedVersion reviewWindowSecs referrer referrerFeeBps useQuota pre = .ok w') :
    Creates w key w' := by
  simp only [hireFromListingHumanless, bind_eq_ok, require_eq_ok, Prod.exists] at h
  obtain ⟨_, hkey, _, -, _, -, _, -, throttle, task, hire, hcore, h⟩ := h
  obtain ⟨hfresh, -, hdep, htype, hmint, hterms⟩ := hireFromListingCore_spec hcore
  exact storeNewTask_spec h hkey {
    task := { hfresh with }
    claims := rfl
    submissions := rfl
    bonds := rfl
    bids := rfl
    book := rfl
    escrow := ⟨pre, rfl⟩
    review := .inr ⟨rfl, htype, _, rfl, rfl, rfl⟩
    operator := by simp
    hire := fun hire' hhire => Option.some.inj hhire ▸ hterms
    token := fun htoken => absurd hmint htoken
    dependency := fun hne => absurd hdep hne }

end AgencCoordination
