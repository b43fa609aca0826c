import AgencCoordination.Effects.Claiming
import AgencCoordination.Effects.Disputes
import AgencCoordination.Program.Program

/-!
# What every instruction keeps

A task instruction may change the accounts of its task, the record of its worker and two
statistics of the protocol, and pays only out of accounts of its task or out of an agent.

* **`Frames`** — that, for the context a handler is given and the one it returns.
* **`TaskOp.run_frames`, `WorkOp.run_frames`, `DisputeOp.run_frames`** — every handler keeps to
  it.
* **`SameTerms`** — the terms of a task its creation fixed for good.
-/

namespace AgencCoordination

open Foundations

/-! ## Payments -/

/-- The payments `paid'` go on from `paid`, out of accounts with the property `P`. -/
def PaysFrom (P : Custody → Prop) (paid paid' : List Transfer) : Prop :=
  ∃ ts, paid' = paid ++ ts ∧ ∀ t ∈ ts, P t.source

namespace PaysFrom

variable {P Q : Custody → Prop} {paid paid' ts : List Transfer}

theorem refl (P : Custody → Prop) (paid : List Transfer) : PaysFrom P paid paid :=
  ⟨[], by simp, by simp⟩

theorem append (h : PaysFrom P paid paid') (hts : ∀ t ∈ ts, P t.source) :
    PaysFrom P paid (paid' ++ ts) := by
  obtain ⟨us, rfl, hus⟩ := h
  refine ⟨us ++ ts, List.append_assoc _ _ _, fun t ht => ?_⟩
  exact (List.mem_append.mp ht).elim (hus t) (hts t)

theorem mono (h : PaysFrom P paid paid') (hPQ : ∀ source, P source → Q source) :
    PaysFrom Q paid paid' := by
  obtain ⟨ts, hpaid, hts⟩ := h
  exact ⟨ts, hpaid, fun t ht => hPQ _ (hts t ht)⟩

/-- Nothing was paid before the handler ran. -/
theorem forall_mem (h : PaysFrom P [] paid) : ∀ t ∈ paid, P t.source := by
  obtain ⟨ts, rfl, hts⟩ := h
  exact hts

end PaysFrom

/-- The accounts derived from the task `key`. -/
def Custody.ofTask (key : Pubkey) (source : Custody) : Prop := source.task = some key

/-- The accounts derived from the task `key`, and the agents. -/
def Custody.ofTaskOrAgent (key : Pubkey) (source : Custody) : Prop :=
  source.task = some key ∨ source.task = none

theorem bondPayments_source {key poster : Pubkey} {disposition : BondDisposition}
    {bond : Option (Account CompletionBond)} :
    ∀ t ∈ bondPayments key poster disposition bond, t.source = .bond key poster := by
  cases bond with
  | none => simp [bondPayments]
  | some bond => cases disposition <;> simp [bondPayments]

/-- A settlement pays out of the escrow, or the token account, of its task. -/
theorem Settles.source {t : Till} {payees : PayeeAccounts} {gross : ℕ} {completed : Bool}
    {escrow' : Option (Account TaskEscrow)} {vault' : Option ℕ} {ts : List Transfer}
    (h : Settles t payees gross completed escrow' vault' ts) :
    ∀ x ∈ ts, x.source = .escrow t.key ∨ x.source = .tokenEscrow t.key := by
  cases h with
  | sol mint loaded split_of passed covered fits =>
    intro x hx
    simp only [settledPayments, List.mem_append] at hx
    rcases hx with hx | hx
    · exact .inl (rewardTransfers_legs _ _ _ _ _ _ x hx).1
    · cases completed
      · simp at hx
      · simp only [if_true, List.mem_singleton] at hx
        exact .inl (by rw [hx]; rfl)
  | token mint paid gone => exact fun x hx => (paid x hx).1.symm.imp_left And.left

section Sources

variable {key k : Pubkey} {source : Custody}

theorem ofTask_escrow (h : source = .escrow key ∨ source = .tokenEscrow key) :
    source.ofTask key := by
  rcases h with rfl | rfl <;> rfl

theorem ofTask_bond (h : source = .bond key k) : source.ofTask key := by
  rw [h]
  rfl

theorem ofTask_bid (h : source = .bid key k) : source.ofTask key := by
  rw [h]
  rfl

theorem ofTask_worker (h : source = .claim key k ∨ source = .submission key k) :
    source.ofTask key := by
  rcases h with rfl | rfl <;> rfl

end Sources

/-! ## Frames -/

/-- The terms its creation fixed for a task. -/
structure TaskTerms where
  creator : Pubkey
  rewardAmount : ℕ
  maxWorkers : ℕ
  taskType : TaskType
  requiredCompletions : ℕ
  dependsOn : Option Pubkey
  dependencyType : DependencyType
  rewardMint : Option Pubkey
  taskSchema : ℕ

def Task.terms (task : Task) : TaskTerms :=
  ⟨task.creator, task.rewardAmount, task.maxWorkers, task.taskType, task.requiredCompletions,
    task.dependsOn, task.dependencyType, task.rewardMint, task.taskSchema⟩

/-- What no instruction changes about a task. -/
structure SameTerms (task task' : Task) : Prop where
  terms : task'.terms = task.terms
  /-- Once installed, review stays. -/
  manual : isManualValidationTask task = true → isManualValidationTask task' = true
  /-- A contest under review keeps its deadline. -/
  deadline : isContestConfiguredTask task = true → task'.deadline = task.deadline
  /-- The constraint changes only to the sentinel of review. -/
  constraint : task'.constraintHash = task.constraintHash ∨
    task'.constraintHash = manualValidationSentinel

namespace SameTerms

variable {task task' : Task}

/-- A handler that leaves review and deadline alone. -/
theorem of_eq (terms : task'.terms = task.terms)
    (constraintHash : task'.constraintHash = task.constraintHash)
    (deadline : task'.deadline = task.deadline) : SameTerms task task' := by
  refine ⟨terms, fun h => ?_, fun _ => deadline, .inl constraintHash⟩
  rw [isManualValidationTask, constraintHash]
  exact h

theorem refl (task : Task) : SameTerms task task := .of_eq rfl rfl rfl

variable (h : SameTerms task task')
include h

theorem creator : task'.creator = task.creator := congrArg TaskTerms.creator h.terms

theorem rewardAmount : task'.rewardAmount = task.rewardAmount :=
  congrArg TaskTerms.rewardAmount h.terms

theorem maxWorkers : task'.maxWorkers = task.maxWorkers := congrArg TaskTerms.maxWorkers h.terms

theorem taskType : task'.taskType = task.taskType := congrArg TaskTerms.taskType h.terms

theorem requiredCompletions : task'.requiredCompletions = task.requiredCompletions :=
  congrArg TaskTerms.requiredCompletions h.terms

theorem dependsOn : task'.dependsOn = task.dependsOn := congrArg TaskTerms.dependsOn h.terms

theorem dependencyType : task'.dependencyType = task.dependencyType :=
  congrArg TaskTerms.dependencyType h.terms

theorem rewardMint : task'.rewardMint = task.rewardMint := congrArg TaskTerms.rewardMint h.terms

theorem taskSchema : task'.taskSchema = task.taskSchema := congrArg TaskTerms.taskSchema h.terms

end SameTerms

/-- The protocol configuration up to its two running statistics. -/
def SameProtocol (config config' : ProtocolConfig) : Prop :=
  ∃ completedTasks totalValue, config' = { config with
    completedTasks := completedTasks, totalValueDistributed := totalValue }

theorem SameProtocol.refl (config : ProtocolConfig) : SameProtocol config config := ⟨_, _, rfl⟩

/-- What a handler keeps of the context it is given. -/
structure Frames (c c' : TaskContext) : Prop where
  sys : c'.sys = c.sys
  key : c'.key = c.key
  config : SameProtocol c.config c'.config
  terms : SameTerms c.accounts.task c'.accounts.task

/-- A handler without a worker also pays out of accounts of its task only. -/
structure FramesTask (c c' : TaskContext) : Prop extends Frames c c' where
  paid : PaysFrom (Custody.ofTask c.key) c.paid c'.paid

/-- What a handler with one worker keeps of that worker. -/
structure FramesWorker (c c' : TaskContext) : Prop extends Frames c c' where
  workerKey : c'.workerKey = c.workerKey
  authority : c'.worker.data.authority = c.worker.data.authority
  votes : c'.worker.data.activeDisputeVotes = c.worker.data.activeDisputeVotes

/-- What a handler other than a dispute's also keeps of the worker: its account, its stake and the
number of disputes against it. It pays out of accounts of its task only. -/
structure FramesStake (c c' : TaskContext) : Prop extends FramesWorker c c' where
  lamports : c'.worker.lamports = c.worker.lamports
  stake : c'.worker.data.stake = c.worker.data.stake
  asDefendant : c'.worker.data.disputesAsDefendant = c.worker.data.disputesAsDefendant
  paid : PaysFrom (Custody.ofTask c.key) c.paid c'.paid

section Handlers

variable {c c' : TaskContext} {d d' : Dispute}

theorem PaysAccepted.frames {config : TaskValidationConfig} {payees : PayeeAccounts}
    (h : PaysAccepted c config payees c') :
    FramesStake c c' := by
  obtain ⟨claim, stored, gross, price, escrow', vault', paidReward, book', bids', h⟩ := h
  obtain ⟨bidder', paidBid, votes', -, -, -, -, -, -, -, hsettles, hbid, h⟩ := h
  obtain ⟨_, _, _, _, _, _, _, _, rfl⟩ := h
  refine ⟨⟨⟨rfl, rfl, ⟨_, _, rfl⟩, .of_eq rfl rfl rfl⟩, rfl, rfl, rfl⟩, rfl, rfl, rfl, ?_⟩
  refine ((((((PaysFrom.refl _ _).append ?_).append ?_).append ?_).append ?_).append ?_).append ?_
  · exact fun t ht => ofTask_escrow (hsettles.source t ht)
  · exact fun t ht => ofTask_bid (hbid.payments t ht).1
  · simp [claimClosing, Custody.ofTask, Custody.task]
  · simp [submissionClosing, Custody.ofTask, Custody.task]
  · exact fun t ht => ofTask_bond (bondPayments_source t ht)
  · exact fun t ht => ofTask_bond (bondPayments_source t ht)

theorem RejectsClaim.frames {config : TaskValidationConfig} (h : RejectsClaim c config c') :
    FramesStake c c' := by
  obtain ⟨claim, submissions', votes', book', bids', bidder', paidBid, closings, h⟩ := h
  obtain ⟨-, -, -, -, -, hbid, hcloses, rfl⟩ := h
  refine ⟨⟨⟨rfl, rfl, .refl _, .of_eq rfl rfl rfl⟩, rfl, rfl, rfl⟩, rfl, rfl, rfl, ?_⟩
  refine (((PaysFrom.refl _ _).append ?_).append ?_).append ?_
  · exact fun t ht => ofTask_bid (hbid.payments t ht).1
  · exact fun t ht => ofTask_bond (bondPayments_source t ht)
  · exact fun t ht => ofTask_worker (hcloses t ht).1

theorem PaysFrozen.frames {payees : PayeeAccounts} {disposition : BondDisposition}
    (h : PaysFrozen c payees disposition c') :
    FramesStake c c' := by
  obtain ⟨claim, stored, gross, escrow', vault', paidReward, h⟩ := h
  obtain ⟨-, -, -, -, -, -, hsettles, -, h⟩ := h
  obtain ⟨_, _, _, _, _, _, _, _, rfl⟩ := h
  refine ⟨⟨⟨rfl, rfl, ⟨_, _, rfl⟩, .of_eq rfl rfl rfl⟩, rfl, rfl, rfl⟩, rfl, rfl, rfl, ?_⟩
  refine (((((PaysFrom.refl _ _).append ?_).append ?_).append ?_).append ?_).append ?_
  · exact fun t ht => ofTask_escrow (hsettles.source t ht)
  · exact fun t ht => ofTask_bond (bondPayments_source t ht)
  · exact fun t ht => ofTask_bond (bondPayments_source t ht)
  · simp [claimClosing, Custody.ofTask, Custody.task]
  · simp [submissionClosing, Custody.ofTask, Custody.task]

theorem CancelsFrozen.frames (h : CancelsFrozen c c') : FramesStake c c' := by
  obtain ⟨claim, stored, escrow, -, -, -, -, -, -, -, rfl⟩ := h
  refine ⟨⟨⟨rfl, rfl, .refl _, .of_eq rfl rfl rfl⟩, rfl, rfl, rfl⟩, rfl, rfl, rfl, ?_⟩
  refine (((((PaysFrom.refl _ _).append ?_).append ?_).append ?_).append ?_).append ?_
  · exact fun t ht => ofTask_bond (bondPayments_source t ht)
  · exact fun t ht => ofTask_bond (bondPayments_source t ht)
  · simp [closeEscrowTransfer, Custody.ofTask, Custody.task]
  · simp [claimClosing, Custody.ofTask, Custody.task]
  · simp [submissionClosing, Custody.ofTask, Custody.task]

theorem TouchesBids.frames (h : TouchesBids c c') : FramesStake c c' := by
  obtain ⟨book', bids', bidder', paid', ts, -, hts, rfl, rfl⟩ := h
  exact ⟨⟨⟨rfl, rfl, .refl _, .of_eq rfl rfl rfl⟩, rfl, rfl, rfl⟩, rfl, rfl, rfl,
    (PaysFrom.refl _ _).append fun t ht => ofTask_bid (hts t ht).1⟩

theorem Occupies.frames {expiresAt : ℤ} (h : Occupies c expiresAt c') : FramesStake c c' := by
  obtain ⟨workers, status, lamports, claimGeneration, reputation, lastActive, h⟩ := h
  obtain ⟨bidBook', bids', bidder', rfl, -, -⟩ := h
  exact ⟨⟨⟨rfl, rfl, .refl _, .of_eq rfl rfl rfl⟩, rfl, rfl, rfl⟩, rfl, rfl, rfl, .refl _ _⟩

theorem SettlesNoShow.source {key poster creator : Pubkey} {penalty : Prop}
    {bonds bonds' : Ledger Pubkey (Account CompletionBond)} {ts : List Transfer}
    (h : SettlesNoShow key poster creator penalty bonds bonds' ts) :
    ∀ t ∈ ts, t.source = .bond key poster := by
  cases h with
  | untouched => simp
  | refunded => exact bondPayments_source
  | forfeited => exact bondPayments_source

theorem claimClosings_source {recipient : Pubkey} {claim : Account TaskClaim} {forfeited : ℕ} :
    ∀ t ∈ claimClosings c recipient claim forfeited, t.source = .claim c.key c.workerKey := by
  simp [claimClosings]

theorem EmptiesEscrow.source {t : Till} {payees : PayeeAccounts} {escrow : Account TaskEscrow}
    {escrow' : Option (Account TaskEscrow)} {ts : List Transfer}
    (h : EmptiesEscrow t payees escrow escrow' ts) :
    ∀ x ∈ ts, x.source = .escrow t.key ∨ x.source = .tokenEscrow t.key :=
  fun x hx => (h.sources x hx).1

/-- A handler that leaves terms, worker and payments alone. -/
theorem FramesWorker.of_eq (sys : c'.sys = c.sys) (key : c'.key = c.key)
    (config : c'.config = c.config) (terms : SameTerms c.accounts.task c'.accounts.task)
    (workerKey : c'.workerKey = c.workerKey)
    (authority : c'.worker.data.authority = c.worker.data.authority)
    (votes : c'.worker.data.activeDisputeVotes = c.worker.data.activeDisputeVotes) :
    FramesWorker c c' := by
  refine ⟨⟨sys, key, ?_, terms⟩, workerKey, authority, votes⟩
  rw [config]
  exact .refl _

theorem completeTask_frames {signer : Pubkey} {proofHash : Hash} {resultData : Option ℕ}
    {payees : PayeeAccounts} (h : completeTask c signer proofHash resultData payees = .ok c') :
    FramesStake c c' := by
  obtain ⟨claim, gross, price, escrow', vault', paidReward, book', bids', h⟩ := completeTask_spec h
  obtain ⟨bidder', paidBid, -, -, -, -, -, -, -, hsettles, hbid, h⟩ := h
  obtain ⟨_, _, _, _, _, _, _, _, rfl⟩ := h
  refine ⟨⟨⟨rfl, rfl, ⟨_, _, rfl⟩, .of_eq rfl rfl rfl⟩, rfl, rfl, rfl⟩, rfl, rfl, rfl, ?_⟩
  refine (((((PaysFrom.refl _ _).append ?_).append ?_).append ?_).append ?_).append ?_
  · exact fun t ht => ofTask_escrow (hsettles.source t ht)
  · exact fun t ht => ofTask_bid (hbid.payments t ht).1
  · simp [claimClosing, Custody.ofTask, Custody.task]
  · exact fun t ht => ofTask_bond (bondPayments_source t ht)
  · exact fun t ht => ofTask_bond (bondPayments_source t ht)

theorem expireClaim_frames {caller : Pubkey} {withSubmission : Bool}
    (h : expireClaim c caller withSubmission = .ok c') : FramesStake c c' := by
  obtain ⟨claim, escrow, reward, forfeited, book', bids', bidder', h⟩ := expireClaim_spec h
  obtain ⟨paidBid, bonds', paidBond, -, -, -, -, -, -, -, -, h⟩ := h
  obtain ⟨-, -, -, hbid, hbond, rfl⟩ := h
  refine ⟨⟨⟨rfl, rfl, .refl _, .of_eq rfl rfl rfl⟩, rfl, rfl, rfl⟩, rfl, rfl, rfl, ?_⟩
  refine ((((PaysFrom.refl _ _).append ?_).append ?_).append ?_).append ?_
  · simp [Custody.ofTask, Custody.task]
  · exact fun t ht => ofTask_bid (hbid.payments t ht).1
  · exact fun t ht => ofTask_bond (hbond.source t ht)
  · exact fun t ht => ofTask_worker (.inl (claimClosings_source t ht))

theorem distributeGhostShare_frames {payees : PayeeAccounts}
    (h : distributeGhostShare c payees = .ok c') : FramesStake c c' := by
  obtain ⟨config, submission, claim, escrow, escrow', paidReward, h⟩ := distributeGhostShare_spec h
  obtain ⟨-, -, -, -, -, -, -, -, -, -, -, -, h⟩ := h
  obtain ⟨hsettles, _, _, _, _, _, _, rfl⟩ := h
  refine ⟨⟨⟨rfl, rfl, ⟨_, _, rfl⟩, .of_eq rfl rfl rfl⟩, rfl, rfl, rfl⟩, rfl, rfl, rfl, ?_⟩
  refine (((PaysFrom.refl _ _).append ?_).append ?_).append ?_
  · exact fun t ht => ofTask_escrow (hsettles.source t ht)
  · simp [submissionClosing, Custody.ofTask, Custody.task]
  · simp [claimClosing, Custody.ofTask, Custody.task]

theorem WorkOp.run_frames {w : World} {op : WorkOp} (h : op.run w c = .ok c') :
    FramesStake c c' := by
  have hplain : SameTerms c.accounts.task c.accounts.task := .refl _
  cases op with
  | claimTaskWithJobSpec signer prefunded =>
    obtain ⟨_, -, -, -, -, -, hoccupies⟩ := claimTaskWithJobSpec_spec h
    exact hoccupies.frames
  | createBid signer terms prefunded => exact (createBid_spec h).touches.frames
  | updateBid signer terms => exact (updateBid_spec h).touches.frames
  | cancelBid signer => exact (cancelBid_spec h).touches.frames
  | expireBid => exact (expireBid_spec h).touches.frames
  | promoteBid => exact (promoteBid_spec h).touches.frames
  | demoteIneligibleBest => exact (demoteIneligibleBest_spec h).touches.frames
  | acceptBid signer expectedBidTermsHash prefunded =>
    obtain ⟨_, _, _, -, -, -, -, hoccupies⟩ := acceptBid_spec h
    exact hoccupies.frames
  | postWorkerBond signer prefunded =>
    have h : postCompletionBond c signer .Worker prefunded = .ok c' := h
    obtain ⟨_, -, -, -, -, -, -, -, -, rfl⟩ := postCompletionBond_spec h
    exact ⟨.of_eq rfl rfl rfl hplain rfl rfl rfl, rfl, rfl, rfl, .refl _ _⟩
  | submitTaskResult signer proofHash resultData prefunded =>
    obtain ⟨_, _, _, -, -, -, -, -, -, -, _, _, rfl⟩ := submitTaskResult_spec h
    exact ⟨.of_eq rfl rfl rfl (.of_eq rfl rfl rfl) rfl rfl rfl, rfl, rfl, rfl, .refl _ _⟩
  | acceptTaskResult signer payees =>
    obtain ⟨_, _, -, -, -, -, hpays⟩ := acceptTaskResult_spec h
    exact hpays.frames
  | autoAcceptTaskResult payees =>
    obtain ⟨_, _, -, -, -, hpays⟩ := autoAcceptTaskResult_spec h
    exact hpays.frames
  | rejectTaskResult signer rejectionHash =>
    obtain ⟨_, _, -, -, -, -, hrejects⟩ := rejectTaskResult_spec h
    exact hrejects.frames
  | requestChanges signer changesHash =>
    obtain ⟨_, _, _, _, minimum, -, -, hcontest, -, -, -, rfl⟩ := requestChanges_spec h
    refine ⟨.of_eq rfl rfl rfl ⟨rfl, id, fun hc => ?_, .inl rfl⟩ rfl rfl rfl, rfl, rfl, rfl,
      .refl _ _⟩
    rw [hcontest] at hc
    cases hc
  | validateTaskResult reviewer validator approved =>
    obtain ⟨_, _, -, -, hpays | ⟨hrejects, -⟩ | ⟨_, _, -, rfl⟩⟩ := validateTaskResult_spec h
    · exact hpays.frames
    · exact hrejects.frames
    · exact ⟨.of_eq rfl rfl rfl hplain rfl rfl rfl, rfl, rfl, rfl, .refl _ _⟩
  | rejectAndFreeze signer rejectionHash =>
    obtain ⟨_, _, _, -, -, -, -, -, rfl⟩ := rejectAndFreeze_spec h
    exact ⟨.of_eq rfl rfl rfl (.of_eq rfl rfl rfl) rfl rfl rfl, rfl, rfl, rfl, .refl _ _⟩
  | resolveRejectFrozen signers approveCompletion payees =>
    obtain ⟨_, hpays⟩ | hcancels := resolveRejectFrozen_spec h
    · exact hpays.frames
    · exact hcancels.frames
  | expireRejectFrozen payees => exact (expireRejectFrozen_spec h).frames
  | completeTask signer proofHash resultData payees => exact completeTask_frames h
  | expireClaim caller withSubmission => exact expireClaim_frames h
  | distributeGhostShare payees => exact distributeGhostShare_frames h
  | reclaimTerminalClaim =>
    obtain ⟨_, _, _, closings, -, -, -, -, -, -, hcloses, rfl⟩ := reclaimTerminalClaim_spec h
    exact ⟨⟨⟨rfl, rfl, .refl _, .of_eq rfl rfl rfl⟩, rfl, rfl, rfl⟩, rfl, rfl, rfl,
      (PaysFrom.refl _ _).append fun t ht => ofTask_worker (hcloses t ht).1⟩

theorem TaskOp.run_frames {op : TaskOp} (h : op.run c = .ok c') : FramesStake c c' := by
  have hplain : SameTerms c.accounts.task c.accounts.task := .refl _
  cases op with
  | configureTaskValidation signer mode reviewWindowSecs validatorQuorum attestor =>
    obtain ⟨_, -, -, -, -, -, rfl⟩ := configureTaskValidation_spec h
    refine ⟨.of_eq rfl rfl rfl ⟨rfl, fun _ => ?_, fun _ => rfl, .inr rfl⟩ rfl rfl rfl, rfl, rfl,
      rfl, .refl _ _⟩
    exact decide_eq_true rfl
  | setTaskJobSpec signer jobSpecHash =>
    obtain ⟨_, -, rfl⟩ := setTaskJobSpec_spec h
    exact ⟨.of_eq rfl rfl rfl hplain rfl rfl rfl, rfl, rfl, rfl, .refl _ _⟩
  | initializeBidBook signer policy weights =>
    obtain ⟨_, _, -, -, -, -, rfl⟩ := initializeBidBook_spec h
    exact ⟨.of_eq rfl rfl rfl hplain rfl rfl rfl, rfl, rfl, rfl, .refl _ _⟩
  | postCreatorBond signer prefunded =>
    have h : postCompletionBond c signer .Creator prefunded = .ok c' := h
    obtain ⟨_, -, -, -, -, -, -, -, -, rfl⟩ := postCompletionBond_spec h
    exact ⟨.of_eq rfl rfl rfl hplain rfl rfl rfl, rfl, rfl, rfl, .refl _ _⟩
  | reclaimCompletionBond party role =>
    obtain ⟨-, rfl⟩ := reclaimCompletionBond_spec h
    exact ⟨⟨⟨rfl, rfl, .refl _, hplain⟩, rfl, rfl, rfl⟩, rfl, rfl, rfl,
      (PaysFrom.refl _ _).append fun t ht => ofTask_bond (bondPayments_source t ht)⟩

/-- What no later step changes about a dispute, the finalizer's mark apart. -/
structure SameFiling (d d' : Dispute) : Prop where
  task : d'.task = d.task
  initiator : d'.initiator = d.initiator
  initiatorAuthority : d'.initiatorAuthority = d.initiatorAuthority
  tracked : d'.initiatorTracked = d.initiatorTracked
  applied : d'.initiatorSlashApplied = d.initiatorSlashApplied
  defendant : d'.defendant = d.defendant
  resolutionType : d'.resolutionType = d.resolutionType

theorem DisputeOp.run_frames {w : World} {op : DisputeOp} (h : op.run w c d = .ok (c', d')) :
    FramesWorker c c' ∧ SameFiling d d' := by
  cases op with
  | cancelDispute signer =>
    obtain ⟨_, _, -, -, -, -, -, rfl, rfl⟩ := cancelDispute_spec h
    exact ⟨.of_eq rfl rfl rfl (.of_eq rfl rfl rfl) rfl rfl rfl,
      rfl, rfl, rfl, rfl, rfl, rfl, rfl⟩
  | resolveDispute signer signers withAssignment approved payees =>
    obtain ⟨claim, escrow, escrow', vault', paidRuling, book', bids', h⟩ := resolveDispute_spec h
    obtain ⟨bidder', paidBid, live, validation', closings, paidClaim, creatorSide, h⟩ := h
    obtain ⟨workerSide, -, -, -, -, -, -, -, -, -, -, -, h⟩ := h
    obtain ⟨_, _, _, _, _, _, _, -, -, rfl, rfl⟩ := h
    exact ⟨⟨⟨rfl, rfl, ⟨_, _, rfl⟩, .of_eq rfl rfl rfl⟩, rfl, rfl, rfl⟩,
      rfl, rfl, rfl, rfl, rfl, rfl, rfl⟩
  | expireDispute =>
    obtain ⟨claim, escrow, escrow', vault', paidRefund, live, validation', h⟩ := expireDispute_spec h
    obtain ⟨closings, penalty, book', bids', bidder', paidBid, bonds', paidBond, h⟩ := h
    obtain ⟨-, -, -, -, -, -, -, -, -, -, -, -, rfl, rfl⟩ := h
    exact ⟨⟨⟨rfl, rfl, .refl _, .of_eq rfl rfl rfl⟩, rfl, rfl, rfl⟩,
      rfl, rfl, rfl, rfl, rfl, rfl, rfl⟩
  | settleDisputeClaim =>
    obtain ⟨claim, live, validation', closings, _, _, _, h⟩ := settleDisputeClaim_spec h
    obtain ⟨-, -, -, -, -, -, -, -, -, -, -, rfl, rfl⟩ := h
    exact ⟨⟨⟨rfl, rfl, .refl _, .of_eq rfl rfl rfl⟩, rfl, rfl, rfl⟩,
      rfl, rfl, rfl, rfl, rfl, rfl, rfl⟩
  | applyDisputeSlash withTokenAccounts =>
    obtain ⟨claim, _, slash, escrow', vault', paidReserve, _, _, h⟩ := applyDisputeSlash_spec h
    obtain ⟨_, _, _, _, -, -, -, -, -, -, -, -, -, -, -, rfl, rfl⟩ := h
    exact ⟨⟨⟨rfl, rfl, .refl _, .of_eq rfl rfl rfl⟩, rfl, rfl, rfl⟩,
      rfl, rfl, rfl, rfl, rfl, rfl, rfl⟩

/-- A dispute is settled out of the accounts of its task; only the slash debits an agent. -/
theorem DisputeOp.run_paid {w : World} {op : DisputeOp} (h : op.run w c d = .ok (c', d'))
    (hop : ∀ withTokenAccounts, op ≠ .applyDisputeSlash withTokenAccounts) :
    PaysFrom (Custody.ofTask c.key) c.paid c'.paid := by
  cases op with
  | cancelDispute signer =>
    obtain ⟨_, _, -, -, -, -, -, rfl, rfl⟩ := cancelDispute_spec h
    exact .refl _ _
  | resolveDispute signer signers withAssignment approved payees =>
    obtain ⟨claim, escrow, escrow', vault', paidRuling, book', bids', h⟩ := resolveDispute_spec h
    obtain ⟨bidder', paidBid, live, validation', closings, paidClaim, creatorSide, h⟩ := h
    obtain ⟨workerSide, -, -, -, -, -, -, hempties, hbid, -, hcloses, hclose, h⟩ := h
    obtain ⟨_, _, _, _, _, _, _, -, -, rfl, rfl⟩ := h
    refine ((((((PaysFrom.refl _ _).append ?_).append ?_).append ?_).append ?_).append ?_).append ?_
    · exact fun t ht => ofTask_escrow (hempties.source t ht)
    · exact fun t ht => ofTask_bid (hbid.payments t ht).1
    · exact fun t ht => ofTask_worker (hcloses t ht).1
    · exact fun t ht => ofTask_worker (hclose t ht).1
    · exact fun t ht => ofTask_bond (bondPayments_source t ht)
    · exact fun t ht => ofTask_bond (bondPayments_source t ht)
  | expireDispute =>
    obtain ⟨claim, escrow, escrow', vault', paidRefund, live, validation', h⟩ := expireDispute_spec h
    obtain ⟨closings, penalty, book', bids', bidder', paidBid, bonds', paidBond, h⟩ := h
    obtain ⟨-, -, -, -, -, -, hempties, -, hcloses, -, hbid, hbond, rfl, rfl⟩ := h
    refine ((((((PaysFrom.refl _ _).append ?_).append ?_).append ?_).append ?_).append ?_).append ?_
    · exact fun t ht => ofTask_escrow (hempties.source t ht)
    · exact fun t ht => ofTask_worker (hcloses t ht).1
    · exact fun t ht => ofTask_bid (hbid.payments t ht).1
    · exact fun t ht => ofTask_worker (.inl (claimClosings_source t ht))
    · exact fun t ht => ofTask_bond (bondPayments_source t ht)
    · exact fun t ht => ofTask_bond (hbond.source t ht)
  | settleDisputeClaim =>
    obtain ⟨claim, live, validation', closings, _, _, _, h⟩ := settleDisputeClaim_spec h
    obtain ⟨-, -, -, -, -, -, -, hcloses, -, -, -, rfl, rfl⟩ := h
    refine ((PaysFrom.refl _ _).append ?_).append ?_
    · exact fun t ht => ofTask_worker (hcloses t ht).1
    · exact fun t ht => ofTask_worker (.inl (claimClosings_source t ht))
  | applyDisputeSlash withTokenAccounts => exact absurd rfl (hop withTokenAccounts)

/-- The payments of a slash, after the slash itself. -/
theorem applyDisputeSlash_paid {withTokenAccounts : Bool}
    (h : applyDisputeSlash c d withTokenAccounts = .ok (c', d')) :
    ∃ slash, PaysFrom (Custody.ofTask c.key)
      (c.paid ++ [⟨.agent c.workerKey, c.config.treasury, .stakeSlash, slash⟩]) c'.paid := by
  obtain ⟨claim, _, slash, escrow', vault', paidReserve, _, _, h⟩ := applyDisputeSlash_spec h
  obtain ⟨_, _, _, _, -, -, -, -, -, -, -, -, hreserve, -, -, rfl, rfl⟩ := h
  refine ⟨slash, ((PaysFrom.refl _ _).append ?_).append ?_⟩
  · exact fun t ht => ofTask_escrow (hreserve t ht).1.symm
  · exact fun t ht => ofTask_worker (.inl (claimClosings_source t ht))

theorem DisputeOp.run_paid_weak {w : World} {op : DisputeOp} (h : op.run w c d = .ok (c', d')) :
    PaysFrom (Custody.ofTaskOrAgent c.key) c.paid c'.paid := by
  by_cases hop : ∃ withTokenAccounts, op = .applyDisputeSlash withTokenAccounts
  · obtain ⟨withTokenAccounts, rfl⟩ := hop
    obtain ⟨slash, ts, hpaid, hts⟩ := applyDisputeSlash_paid h
    refine ⟨[⟨.agent c.workerKey, c.config.treasury, .stakeSlash, slash⟩] ++ ts, ?_, ?_⟩
    · rw [hpaid, List.append_assoc]
    · intro t ht
      rcases List.mem_append.mp ht with ht | ht
      · rw [List.mem_singleton.mp ht]
        exact .inr rfl
      · exact .inl (hts t ht)
  · have hpaid := DisputeOp.run_paid h fun b hb => hop ⟨b, hb⟩
    exact hpaid.mono fun source hsource => .inl hsource

theorem cancelTask_frames {agents agents' : Ledger Pubkey (Account AgentRegistration)}
    {signer : Pubkey} {workers : List Pubkey} {workerBondAuthority : Pubkey} {withParent : Bool}
    (h : cancelTask c agents signer workers workerBondAuthority withParent = .ok (c', agents')) :
    FramesTask c c' := by
  obtain ⟨escrow, vault', paidRefund, book', bids', bidder', penalty, h⟩ := cancelTask_spec h
  obtain ⟨paidBid, workerKey, claims', paidClaims, bonds', paidBond, -, -, -, -, -, h⟩ := h
  obtain ⟨-, -, -, -, -, -, -, hrefund, hbid, -, hclaims, hbond, rfl⟩ := h
  refine ⟨⟨rfl, rfl, .refl _, .of_eq rfl rfl rfl⟩, ?_⟩
  refine (((((PaysFrom.refl _ _).append ?_).append ?_).append ?_).append ?_).append ?_
  · exact fun t ht => ofTask_escrow (hrefund t ht).1
  · exact fun t ht => ofTask_bid (hbid.payments t ht)
  · rintro t ht
    obtain ⟨⟨k, -, hk⟩, -⟩ := hclaims t ht
    exact ofTask_worker (.inl hk)
  · exact fun t ht => ofTask_bond (bondPayments_source t ht)
  · exact fun t ht => ofTask_bond (hbond.source t ht)

theorem closeTask_frames {agents : Ledger Pubkey (Account AgentRegistration)} {signer : Pubkey}
    {withJobSpec withEscrow : Bool} {workerBond : Option Pubkey} {children : List TaskChild}
    (h : closeTask c agents signer withJobSpec withEscrow workerBond children = .ok c') :
    FramesTask c c' := by
  obtain ⟨escrow', paidEscrow, jobSpec', submissions', validation', h⟩ := closeTask_spec h
  obtain ⟨attestor', ts, -, -, -, hescrow, -, -, -, hts, rfl⟩ := h
  refine ⟨⟨rfl, rfl, .refl _, .of_eq rfl rfl rfl⟩, ?_⟩
  refine ((PaysFrom.refl _ _).append ?_).append ?_
  · rcases hescrow with ⟨-, rfl⟩ | ⟨escrow, -, -, -, rfl⟩
    · simp
    · simp [closeEscrowTransfer, Custody.ofTask, Custody.task]
  · rintro t ht
    obtain ⟨⟨k, hk⟩, -⟩ := hts t ht
    exact ofTask_worker (.inr hk)

end Handlers

end AgencCoordination
