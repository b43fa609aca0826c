import AgencCoordination.Invariants.Conservation
import AgencCoordination.Invariants.Occupancy
import AgencCoordination.Invariants.Review

/-!
# Contests

A contest is a competitive task under review by its creator. It pays one winner, or, when the
creator stays silent, every entry that waits; it cannot be disputed, sent back for changes or
accepted automatically.

* **`ContestMove`** — the instructions that can succeed on a contest that has not ended.
* **`ContestSound`** — what every reachable world keeps about competitive tasks.
* **`TaskMove.contest`** — every step on such a contest is one of these.
-/

namespace AgencCoordination

open Foundations

/-! ## What a contest allows -/

/-- What one instruction may do to a contest that has not ended. -/
inductive ContestMove (w : World) (key : Pubkey) (acc : TaskAccounts) :
    Instruction → TaskAccounts → List Transfer → Prop
  | donated {target : Custody} {amount : ℕ} {acc' : TaskAccounts}
      (credits : Credits key amount acc target acc') :
      ContestMove w key acc (.donate target amount) acc' []
  /-- Before anybody entered, the review and the job specification may be set. -/
  | prepared {op : TaskOp} {constraintHash : Hash} {validation : Option TaskValidationConfig}
      {attestor : Option Pubkey} {jobSpec : Option TaskJobSpec} (opened : acc.task.status = .Open) :
      ContestMove w key acc (.task key op)
        { acc with
          task := { acc.task with constraintHash := constraintHash }
          validation := validation
          attestor := attestor
          jobSpec := jobSpec } []
  | entered {k signer : Pubkey} {prefunded : ℕ} {agent : Account AgentRegistration}
      {c : TaskContext} (found : w.agents.lookup k = some agent)
      (ran : claimTaskWithJobSpec (w.workContext key acc k agent) signer prefunded = .ok c) :
      ContestMove w key acc (.work key k (.claimTaskWithJobSpec signer prefunded)) c.accounts c.paid
  | submitted {k signer : Pubkey} {proofHash : Hash} {resultData : Option ℕ} {prefunded : ℕ}
      {agent : Account AgentRegistration} {c : TaskContext}
      (found : w.agents.lookup k = some agent)
      (ran : submitTaskResult (w.workContext key acc k agent) signer proofHash resultData prefunded
        = .ok c) :
      ContestMove w key acc (.work key k (.submitTaskResult signer proofHash resultData prefunded))
        c.accounts c.paid
  | accepted {k signer : Pubkey} {payees : PayeeAccounts} {agent : Account AgentRegistration}
      {c : TaskContext} (found : w.agents.lookup k = some agent)
      (ran : acceptTaskResult (w.workContext key acc k agent) signer payees = .ok c) :
      ContestMove w key acc (.work key k (.acceptTaskResult signer payees)) c.accounts c.paid
  | rejected {k signer : Pubkey} {rejectionHash : Hash} {agent : Account AgentRegistration}
      {c : TaskContext} (found : w.agents.lookup k = some agent)
      (ran : rejectTaskResult (w.workContext key acc k agent) signer rejectionHash = .ok c) :
      ContestMove w key acc (.work key k (.rejectTaskResult signer rejectionHash)) c.accounts
        c.paid
  | expired {k caller : Pubkey} {withSubmission : Bool} {agent : Account AgentRegistration}
      {c : TaskContext} (found : w.agents.lookup k = some agent)
      (ran : expireClaim (w.workContext key acc k agent) caller withSubmission = .ok c) :
      ContestMove w key acc (.work key k (.expireClaim caller withSubmission)) c.accounts c.paid
  | shared {k : Pubkey} {payees : PayeeAccounts} {agent : Account AgentRegistration}
      {c : TaskContext} (found : w.agents.lookup k = some agent)
      (ran : distributeGhostShare (w.workContext key acc k agent) payees = .ok c) :
      ContestMove w key acc (.work key k (.distributeGhostShare payees)) c.accounts c.paid
  | cancelled {signer : Pubkey} {workers : List Pubkey} {workerBondAuthority : Pubkey}
      {withParent : Bool} {base c : TaskContext}
      {agents' : Ledger Pubkey (Account AgentRegistration)}
      (listed : workers = [] ∧ base = w.taskContext key acc ∨
        ∃ first rest worker, workers = first :: rest ∧ w.agents.lookup first = some worker ∧
          base = w.workContext key acc first worker)
      (ran : cancelTask base w.agents signer workers workerBondAuthority withParent
        = .ok (c, agents')) :
      ContestMove w key acc (.cancelTask key signer workers workerBondAuthority withParent)
        c.accounts c.paid
  | withdrawn {disputeKey k signer : Pubkey} {agent : Account AgentRegistration}
      {d d' : Dispute} {c : TaskContext} (found : w.agents.lookup k = some agent)
      (filed : w.disputes.lookup disputeKey = some d) (about : d.task = key)
      (ran : cancelDispute (w.workContext key acc k agent) d signer = .ok (c, d')) :
      ContestMove w key acc (.dispute key disputeKey k (.cancelDispute signer)) c.accounts c.paid

/-- What every reachable world keeps about a competitive task. -/
structure ContestSound (acc : TaskAccounts) : Prop where
  mint : acc.task.taskType = .Competitive → acc.task.rewardMint = none
  required : acc.task.taskType = .Competitive → acc.task.requiredCompletions = 1
  mode : acc.task.taskType = .Competitive →
    ∀ config, acc.validation = some config → config.mode = .CreatorReview
  /-- A contest is never disputed or frozen, and ends with nothing under review. -/
  thawed : isContestConfiguredTask acc.task = true →
    acc.task.status.isLive = true ∨ acc.task.status.isFinished ∧ acc.submitters = ∅

/-- A contest is a competitive task of the current schema, under review. -/
theorem isContestConfiguredTask_iff {task : Task} : isContestConfiguredTask task = true ↔
    (taskSchemaContestAware ≤ task.taskSchema ∧ task.taskType = .Competitive) ∧
      isManualValidationTask task = true := by
  rw [isContestConfiguredTask, Bool.and_eq_true, Task.isContestTask, decide_eq_true_eq]

section Contests

variable {w : World} {key : Pubkey} {acc acc' : TaskAccounts} {i : Instruction}
  {ts : List Transfer}

theorem TaskOp.contest {op : TaskOp} {c : TaskContext}
    (h : op.run (w.taskContext key acc) = .ok c) (htype : acc.task.taskType = .Competitive)
    (hlive : acc.task.status.isLive = true) :
    ContestMove w key acc (.task key op) c.accounts c.paid := by
  cases op with
  | configureTaskValidation signer mode reviewWindowSecs validatorQuorum attestor =>
    have h : AgencCoordination.configureTaskValidation (w.taskContext key acc) signer mode
      reviewWindowSecs validatorQuorum attestor = .ok c := h
    obtain ⟨_, hopen, -, -, -, -, rfl⟩ := configureTaskValidation_spec h
    exact .prepared hopen
  | setTaskJobSpec signer jobSpecHash =>
    have h : AgencCoordination.setTaskJobSpec (w.taskContext key acc) signer jobSpecHash = .ok c :=
      h
    obtain ⟨_, hopen, rfl⟩ := setTaskJobSpec_spec h
    exact .prepared hopen
  | initializeBidBook signer policy weights =>
    obtain ⟨_, _, -, hbid, -⟩ := initializeBidBook_spec h
    rw [show (w.taskContext key acc).accounts.task.taskType = .Competitive from htype] at hbid
    cases hbid
  | postCreatorBond signer prefunded =>
    have h : postCompletionBond (w.taskContext key acc) signer .Creator prefunded = .ok c := h
    obtain ⟨_, -, hexclusive, -⟩ := postCompletionBond_spec h
    rw [show (w.taskContext key acc).accounts.task.taskType = .Competitive from htype]
      at hexclusive
    cases hexclusive
  | reclaimCompletionBond party role =>
    obtain ⟨hdone, -⟩ := reclaimCompletionBond_spec h
    have hdone : acc.task.status = .Completed ∨ acc.task.status = .Cancelled := hdone
    rcases hdone with hdone | hdone <;> rw [hdone] at hlive <;> cases hlive

/-- A bid instruction is for another kind of task. -/
theorem TouchesBids.not_contest {c c' : TaskContext} (h : TouchesBids c c')
    (htype : c.accounts.task.taskType = .Competitive) : False := by
  obtain ⟨_, _, _, _, _, hbid, -⟩ := h
  rw [htype] at hbid
  cases hbid

/-- Of the instructions on a worker, a contest that has not ended allows six. -/
theorem WorkOp.contest {k : Pubkey} {op : WorkOp} {agent : Account AgentRegistration}
    {c : TaskContext} (found : w.agents.lookup k = some agent)
    (h : op.run w (w.workContext key acc k agent) = .ok c) (hs : ContestSound acc)
    (hcontest : isContestConfiguredTask acc.task = true)
    (hlive : acc.task.status.isLive = true) :
    ContestMove w key acc (.work key k op) c.accounts c.paid := by
  obtain ⟨⟨hschema, htype⟩, hmanual⟩ := isContestConfiguredTask_iff.mp hcontest
  have hnot : acc.task.status ≠ .RejectFrozen ∧ acc.task.status ≠ .Completed ∧
      acc.task.status ≠ .Cancelled := by
    refine ⟨?_, ?_, ?_⟩ <;> intro hstatus <;> rw [hstatus] at hlive <;> cases hlive
  have hcompetitive : (w.workContext key acc k agent).accounts.task.taskType = .Competitive :=
    htype
  cases op with
  | claimTaskWithJobSpec signer prefunded => exact .entered found h
  | createBid signer terms prefunded =>
    exact ((createBid_spec h).touches.not_contest hcompetitive).elim
  | updateBid signer terms => exact ((updateBid_spec h).touches.not_contest hcompetitive).elim
  | cancelBid signer => exact ((cancelBid_spec h).touches.not_contest hcompetitive).elim
  | expireBid => exact ((expireBid_spec h).touches.not_contest hcompetitive).elim
  | promoteBid => exact ((promoteBid_spec h).touches.not_contest hcompetitive).elim
  | demoteIneligibleBest =>
    exact ((demoteIneligibleBest_spec h).touches.not_contest hcompetitive).elim
  | acceptBid signer expectedBidTermsHash prefunded =>
    obtain ⟨_, _, _, -, hbid, -⟩ := acceptBid_spec h
    rw [hcompetitive] at hbid
    cases hbid
  | postWorkerBond signer prefunded =>
    have h : postCompletionBond (w.workContext key acc k agent) signer .Worker prefunded = .ok c :=
      h
    obtain ⟨_, -, hexclusive, -⟩ := postCompletionBond_spec h
    rw [hcompetitive] at hexclusive
    cases hexclusive
  | submitTaskResult signer proofHash resultData prefunded => exact .submitted found h
  | acceptTaskResult signer payees => exact .accepted found h
  | autoAcceptTaskResult payees =>
    obtain ⟨_, _, -, -, hnone, -⟩ := autoAcceptTaskResult_spec h
    rw [show (w.workContext key acc k agent).accounts.task.isContestTask = true from
      decide_eq_true ⟨hschema, htype⟩] at hnone
    cases hnone
  | rejectTaskResult signer rejectionHash => exact .rejected found h
  | requestChanges signer changesHash =>
    obtain ⟨_, _, _, _, _, -, -, hnone, -⟩ := requestChanges_spec h
    rw [show isContestConfiguredTask (w.workContext key acc k agent).accounts.task = true from
      hcontest] at hnone
    cases hnone
  | validateTaskResult reviewer validator approved =>
    obtain ⟨_, _, hr, hmode, -⟩ := validateTaskResult_spec h
    exact absurd (hs.mode htype _ hr.validation) hmode
  | rejectAndFreeze signer rejectionHash =>
    obtain ⟨_, _, _, -, hexclusive, -⟩ := rejectAndFreeze_spec h
    rw [hcompetitive] at hexclusive
    cases hexclusive
  | resolveRejectFrozen signers approveCompletion payees =>
    obtain ⟨_, _, _, _, _, _, _, -, -, hstatus, -⟩ | ⟨_, _, _, -, -, hstatus, -⟩ :=
      resolveRejectFrozen_spec h
    · exact absurd hstatus hnot.1
    · exact absurd hstatus hnot.1
  | expireRejectFrozen payees =>
    obtain ⟨_, _, _, _, _, _, -, -, hstatus, -⟩ := expireRejectFrozen_spec h
    exact absurd hstatus hnot.1
  | completeTask signer proofHash resultData payees =>
    obtain ⟨_, _, _, _, _, _, _, _, _, _, -, -, hunreviewed, -⟩ := completeTask_spec h
    rw [show isManualValidationTask (w.workContext key acc k agent).accounts.task = true from
      hmanual] at hunreviewed
    cases hunreviewed
  | expireClaim caller withSubmission => exact .expired found h
  | distributeGhostShare payees => exact .shared found h
  | reclaimTerminalClaim =>
    obtain ⟨_, _, _, _, -, hdone, -⟩ := reclaimTerminalClaim_spec h
    rcases hdone with hdone | hdone
    · exact absurd hdone hnot.2.1
    · exact absurd hdone hnot.2.2

/-- Nothing else can happen to a contest that has not ended. -/
theorem TaskMove.contest (h : TaskMove w key acc i acc' ts) (hs : ContestSound acc)
    (hdisputes : ∀ key d, w.disputes.lookup key = some d → DisputeInv w d)
    (hacc : w.tasks.lookup key = some acc) (hcontest : isContestConfiguredTask acc.task = true)
    (hlive : acc.task.status.isLive = true) : ContestMove w key acc i acc' ts := by
  obtain ⟨⟨-, htype⟩, -⟩ := isContestConfiguredTask_iff.mp hcontest
  have hdone : ¬acc.task.status.isFinished := by
    rintro (hdone | hdone) <;> rw [hdone] at hlive <;> cases hlive
  have hdisputed : acc.task.status ≠ .Disputed := by
    intro hstatus
    rw [hstatus] at hlive
    cases hlive
  cases h with
  | donated credits => exact .donated credits
  | task ran => exact TaskOp.contest ran htype hlive
  | work found ran rent => exact WorkOp.contest found ran hs hcontest hlive
  | cancelled listed ran => exact .cancelled listed ran
  | closed ran =>
    obtain ⟨_, _, _, _, _, _, _, hfinished, -⟩ := closeTask_spec ran
    exact absurd hfinished hdone
  | disputed opens =>
    obtain ⟨acc₀, _, _, _, -, hacc₀, -, hnone, -⟩ := opens
    obtain rfl : acc = acc₀ := Option.some.inj (hacc.symm.trans hacc₀)
    rw [hcontest] at hnone
    cases hnone
  | @ruled disputeKey k op agent d d' c found filed about ran rent =>
    obtain ⟨acc₀, hacc₀, hended⟩ := (hdisputes _ _ filed).task
    rw [about] at hacc₀
    obtain rfl : acc = acc₀ := Option.some.inj (hacc.symm.trans hacc₀)
    cases op with
    | cancelDispute signer => exact .withdrawn found filed about ran
    | resolveDispute signer signers withAssignment approved payees =>
      obtain ⟨_, _, _, _, _, _, _, _, _, _, _, _, _, _, _, -, -, -, hstatus, -⟩ :=
        resolveDispute_spec ran
      exact absurd hstatus hdisputed
    | expireDispute =>
      obtain ⟨_, _, _, _, _, _, _, _, _, _, _, _, _, _, _, -, -, -, hstatus, -⟩ :=
        expireDispute_spec ran
      exact absurd hstatus hdisputed
    | settleDisputeClaim =>
      obtain ⟨_, _, _, _, _, _, _, hpending, -⟩ := settleDisputeClaim_spec ran
      exact absurd (hended (.inr (.inr hpending))).1 hdone
    | applyDisputeSlash withTokenAccounts =>
      obtain ⟨_, _, _, _, _, _, _, _, _, _, _, _, -, -, hresolved, -⟩ := applyDisputeSlash_spec ran
      exact absurd (hended (.inl hresolved)).1 hdone

end Contests

/-! ## Who installs a review -/

/-- What only the configuration of the review and the rulings of disputes change about a task. -/
def Task.marks (task : Task) : Hash × Bool × Bool :=
  (task.constraintHash, task.workerSlashPending, task.peerSettlementPending)

section Constraint

variable {c c' : TaskContext} {config : TaskValidationConfig}

theorem WorkOp.run_marks {w : World} {op : WorkOp} (h : op.run w c = .ok c') :
    c'.accounts.task.marks = c.accounts.task.marks := by
  have hbids {c₁ : TaskContext} (ht : TouchesBids c c₁) :
      c₁.accounts.task.marks = c.accounts.task.marks := by
    obtain ⟨_, _, _, _, _, -, -, -, rfl⟩ := ht
    rfl
  have hoccupied {expiresAt : ℤ} {c₁ : TaskContext} (ho : Occupies c expiresAt c₁) :
      c₁.accounts.task.marks = c.accounts.task.marks := by
    obtain ⟨_, _, _, _, _, _, _, _, _, rfl, -⟩ := ho
    rfl
  have hpaid {config : TaskValidationConfig} {payees : PayeeAccounts} {c₁ : TaskContext}
      (hp : PaysAccepted c config payees c₁) :
      c₁.accounts.task.marks = c.accounts.task.marks := by
    obtain ⟨_, _, _, _, _, _, _, _, _, _, _, _, -, -, -, -, -, -, -, -, -, _, _, _, _, _, _, _, _,
      rfl⟩ := hp
    rfl
  have hrejected {config : TaskValidationConfig} {c₁ : TaskContext}
      (hr : RejectsClaim c config c₁) :
      c₁.accounts.task.marks = c.accounts.task.marks := by
    obtain ⟨_, _, _, _, _, _, _, _, -, -, -, -, -, -, -, rfl⟩ := hr
    rfl
  have hfrozen {payees : PayeeAccounts} {disposition : BondDisposition} {c₁ : TaskContext}
      (hp : PaysFrozen c payees disposition c₁) :
      c₁.accounts.task.marks = c.accounts.task.marks := by
    obtain ⟨_, _, _, _, _, _, -, -, -, -, -, -, -, -, _, _, _, _, _, _, _, _, rfl⟩ := hp
    rfl
  cases op with
  | claimTaskWithJobSpec signer prefunded =>
    obtain ⟨_, -, -, -, -, -, ho⟩ := claimTaskWithJobSpec_spec h
    exact hoccupied ho
  | createBid signer terms prefunded => exact hbids (createBid_spec h).touches
  | updateBid signer terms => exact hbids (updateBid_spec h).touches
  | cancelBid signer => exact hbids (cancelBid_spec h).touches
  | expireBid => exact hbids (expireBid_spec h).touches
  | promoteBid => exact hbids (promoteBid_spec h).touches
  | demoteIneligibleBest => exact hbids (demoteIneligibleBest_spec h).touches
  | acceptBid signer expectedBidTermsHash prefunded =>
    obtain ⟨_, _, _, -, -, -, -, ho⟩ := acceptBid_spec h
    exact hoccupied ho
  | postWorkerBond signer prefunded =>
    have h : postCompletionBond c signer .Worker prefunded = .ok c' := h
    obtain ⟨_, -, -, -, -, -, -, -, -, rfl⟩ := postCompletionBond_spec h
    rfl
  | submitTaskResult signer proofHash resultData prefunded =>
    obtain ⟨_, _, _, -, -, -, -, -, -, -, _, _, rfl⟩ := submitTaskResult_spec h
    rfl
  | acceptTaskResult signer payees =>
    obtain ⟨_, _, -, -, -, -, hp⟩ := acceptTaskResult_spec h
    exact hpaid hp
  | autoAcceptTaskResult payees =>
    obtain ⟨_, _, -, -, -, hp⟩ := autoAcceptTaskResult_spec h
    exact hpaid hp
  | rejectTaskResult signer rejectionHash =>
    obtain ⟨_, _, -, -, -, -, hr⟩ := rejectTaskResult_spec h
    exact hrejected hr
  | requestChanges signer changesHash =>
    obtain ⟨_, _, _, _, _, -, -, -, -, -, -, rfl⟩ := requestChanges_spec h
    rfl
  | validateTaskResult reviewer validator approved =>
    obtain ⟨_, _, -, -, hp | ⟨hr, -⟩ | ⟨_, _, -, rfl⟩⟩ := validateTaskResult_spec h
    · exact hpaid hp
    · exact hrejected hr
    · rfl
  | rejectAndFreeze signer rejectionHash =>
    obtain ⟨_, _, _, -, -, -, -, -, rfl⟩ := rejectAndFreeze_spec h
    rfl
  | resolveRejectFrozen signers approveCompletion payees =>
    obtain ⟨_, hp⟩ | ⟨_, _, _, -, -, -, -, -, -, -, rfl⟩ := resolveRejectFrozen_spec h
    · exact hfrozen hp
    · rfl
  | expireRejectFrozen payees => exact hfrozen (expireRejectFrozen_spec h)
  | completeTask signer proofHash resultData payees =>
    obtain ⟨_, _, _, _, _, _, _, _, _, _, -, -, -, -, -, -, -, -, -, hc⟩ := completeTask_spec h
    obtain ⟨_, _, _, _, _, _, _, _, rfl⟩ := hc
    rfl
  | expireClaim caller withSubmission =>
    obtain ⟨_, _, _, _, _, _, _, _, _, _, -, -, -, -, -, -, -, -, -, -, -, -, -, rfl⟩ :=
      expireClaim_spec h
    rfl
  | distributeGhostShare payees =>
    obtain ⟨_, _, _, _, _, _, -, -, -, -, -, -, -, -, -, -, -, -, -, _, _, _, _, _, _, rfl⟩ :=
      distributeGhostShare_spec h
    rfl
  | reclaimTerminalClaim =>
    obtain ⟨_, _, _, _, -, -, -, -, -, -, -, rfl⟩ := reclaimTerminalClaim_spec h
    rfl

theorem DisputeOp.run_constraint {w : World} {op : DisputeOp} {d d' : Dispute}
    (h : op.run w c d = .ok (c', d')) :
    c'.accounts.task.constraintHash = c.accounts.task.constraintHash := by
  cases op with
  | cancelDispute signer =>
    obtain ⟨_, _, -, -, -, -, -, rfl, rfl⟩ := cancelDispute_spec h
    rfl
  | resolveDispute signer signers withAssignment approved payees =>
    obtain ⟨_, _, _, _, _, _, _, _, _, _, _, _, _, _, _, -, -, -, -, -, -, -, -, -, -, -, h⟩ :=
      resolveDispute_spec h
    obtain ⟨_, _, _, _, _, _, _, -, -, rfl, rfl⟩ := h
    rfl
  | expireDispute =>
    obtain ⟨_, _, _, _, _, _, _, _, _, _, _, _, _, _, _, -, -, -, -, -, -, -, -, -, -, -, -, rfl,
      rfl⟩ := expireDispute_spec h
    rfl
  | settleDisputeClaim =>
    obtain ⟨_, _, _, _, _, _, _, -, -, -, -, -, -, -, -, -, -, -, rfl, -⟩ :=
      settleDisputeClaim_spec h
    rfl
  | applyDisputeSlash withTokenAccounts =>
    obtain ⟨_, _, _, _, _, _, _, _, _, _, _, _, -, -, -, -, -, -, -, -, -, -, -, rfl, -⟩ :=
      applyDisputeSlash_spec h
    rfl

/-- A task comes under review only by its configuration, while it is open; besides that only
disputes touch its marks. -/
inductive MarkMove (w : World) (key : Pubkey) (acc : TaskAccounts) (i : Instruction)
    (acc' : TaskAccounts) : Prop
  | kept (same : acc'.task.marks = acc.task.marks)
  | configured {config : TaskValidationConfig} {attestor : Option Pubkey}
      (opened : acc.task.status = .Open) (idle : acc.task.currentWorkers = 0)
      (after : acc' = { acc with
        task := { acc.task with constraintHash := manualValidationSentinel }
        validation := some config
        attestor := attestor })
  | ruled {disputeKey k : Pubkey} {op : DisputeOp} {agent : Account AgentRegistration}
      {d d' : Dispute} {c : TaskContext} (instruction : i = .dispute key disputeKey k op)
      (filed : w.disputes.lookup disputeKey = some d) (about : d.task = key)
      (ran : op.run w (w.workContext key acc k agent) d = .ok (c, d'))
      (after : acc' = c.accounts)

theorem TaskMove.marks {w : World} {key : Pubkey} {acc acc' : TaskAccounts} {i : Instruction}
    {ts : List Transfer} (h : TaskMove w key acc i acc' ts) : MarkMove w key acc i acc' := by
  cases h with
  | donated credits => exact .kept (by rw [credits.task])
  | @task op c ran =>
    cases op with
    | configureTaskValidation signer mode reviewWindowSecs validatorQuorum attestor =>
      obtain ⟨_, hopen, hidle, -, -, -, rfl⟩ := configureTaskValidation_spec ran
      exact .configured hopen hidle rfl
    | setTaskJobSpec signer jobSpecHash =>
      obtain ⟨_, -, rfl⟩ := setTaskJobSpec_spec ran
      exact .kept rfl
    | initializeBidBook signer policy weights =>
      obtain ⟨_, _, -, -, -, -, rfl⟩ := initializeBidBook_spec ran
      exact .kept rfl
    | postCreatorBond signer prefunded =>
      have ran : postCompletionBond (w.taskContext key acc) signer .Creator prefunded = .ok c := ran
      obtain ⟨_, -, -, -, -, -, -, -, -, rfl⟩ := postCompletionBond_spec ran
      exact .kept rfl
    | reclaimCompletionBond party role =>
      obtain ⟨-, rfl⟩ := reclaimCompletionBond_spec ran
      exact .kept rfl
  | work found ran rent => exact .kept (WorkOp.run_marks ran)
  | cancelled listed ran =>
    obtain ⟨-, haccounts, -⟩ := listed_context listed
    obtain ⟨_, _, _, _, _, _, _, h⟩ := cancelTask_spec ran
    obtain ⟨_, _, _, _, _, _, -, -, -, -, -, -, -, -, -, -, -, -, -, -, -, -, -, rfl⟩ := h
    rw [← haccounts]
    exact .kept rfl
  | closed ran =>
    obtain ⟨_, _, _, _, _, _, _, -, -, -, -, -, -, -, -, rfl⟩ := closeTask_spec ran
    exact .kept rfl
  | disputed opens => exact .kept rfl
  | ruled found filed about ran rent => exact .ruled rfl filed about ran rfl

/-- The constraint of a task changes only by its configuration. -/
theorem MarkMove.constraint {w : World} {key : Pubkey} {acc acc' : TaskAccounts}
    {i : Instruction} (h : MarkMove w key acc i acc') :
    acc'.task.constraintHash = acc.task.constraintHash ∨ acc.task.status = .Open ∧
      acc'.task.status = .Open := by
  cases h with
  | kept same => exact .inl (congrArg Prod.fst same)
  | configured opened idle after =>
    rw [after]
    exact .inr ⟨opened, opened⟩
  | ruled instruction filed about ran after =>
    rw [after]
    exact .inl (DisputeOp.run_constraint ran)

/-- Whether a task is a contest under review goes by its terms and its constraint. -/
theorem SameTerms.contest_eq {task task' : Task} (h : SameTerms task task')
    (hsame : task'.constraintHash = task.constraintHash) :
    isContestConfiguredTask task' = isContestConfiguredTask task := by
  rw [isContestConfiguredTask, isContestConfiguredTask, Task.isContestTask, Task.isContestTask,
    isManualValidationTask, isManualValidationTask, h.taskSchema, h.taskType, hsame]

end Constraint

/-! ## The end of a contest -/

section Ends

variable {w w' : World} {key : Pubkey} {acc acc' : TaskAccounts} {i : Instruction}
  {ts : List Transfer}

theorem reviewStatus_isLive (pending workers : ℕ) : (reviewStatus pending workers).isLive = true := by
  unfold reviewStatus
  split_ifs <;> rfl

theorem syncedStatus_isLive {status : TaskStatus} (h : status.isLive = true)
    (pending workers : ℕ) : (syncedStatus status pending workers).isLive = true := by
  unfold syncedStatus
  split_ifs
  · exact h
  · exact reviewStatus_isLive _ _

/-- Within the selection window a contest can be awarded only to its sole live entry. -/
theorem validateContestAcceptWindow_spec {task : Task} {now : ℤ}
    (h : validateContestAcceptWindow task now = .ok ()) (hcontest : task.isContestTask = true) :
    0 < task.deadline ∧ now < task.deadline + selectionWindowSecs ∧ task.liveSubmissions = 1 := by
  simp only [validateContestAcceptWindow, hcontest, if_true, bind_eq_ok, contestGhostAt_eq_ok,
    require_eq_ok] at h
  obtain ⟨_, ⟨hdeadline, -, rfl⟩, _, hbefore, hsole⟩ := h
  exact ⟨hdeadline, hbefore, hsole⟩

theorem validateContestRejectWindow_spec {task : Task} {now : ℤ}
    (h : validateContestRejectWindow task now = .ok ()) (hcontest : task.isContestTask = true) :
    0 < task.deadline ∧ now < task.deadline + selectionWindowSecs := by
  simp only [validateContestRejectWindow, hcontest, if_true, bind_eq_ok, contestGhostAt_eq_ok,
    require_eq_ok] at h
  obtain ⟨_, ⟨hdeadline, -, rfl⟩, hbefore⟩ := h
  exact ⟨hdeadline, hbefore⟩

theorem isContestTask_of_configured {task : Task} (h : isContestConfiguredTask task = true) :
    task.isContestTask = true := by
  rw [isContestConfiguredTask, Bool.and_eq_true] at h
  exact h.1

/-- What leaves review on a contest is counted off. -/
theorem liveAfterLeaving_of_configured {task : Task} (h : isContestConfiguredTask task = true) :
    task.liveAfterLeaving = task.liveSubmissions - 1 :=
  if_neg (Nat.not_lt.mpr (isContestConfiguredTask_iff.mp h).1.1)

/-- A contest goes on, or it ends with no live entry. -/
theorem ContestMove.ends (h : ContestMove w key acc i acc' ts)
    (hcontest : isContestConfiguredTask acc.task = true)
    (hlive : acc.task.status.isLive = true) : acc'.task.status.isLive = true ∨
      acc'.task.status.isFinished ∧ acc'.task.liveSubmissions = 0 := by
  have hawardable := isContestTask_of_configured hcontest
  have hmanual := (isContestConfiguredTask_iff.mp hcontest).2
  cases h with
  | donated credits =>
    rw [credits.task]
    exact .inl hlive
  | prepared opened => exact .inl hlive
  | entered found ran =>
    obtain ⟨_, -, -, -, -, -, _, _, _, _, _, _, _, _, _, rfl, -, hstatus⟩ :=
      claimTaskWithJobSpec_spec ran
    refine .inl ?_
    show TaskStatus.isLive _ = true
    rw [hstatus]
    split_ifs <;> rfl
  | submitted found ran =>
    obtain ⟨_, _, _, -, -, -, -, -, -, -, _, _, rfl⟩ := submitTaskResult_spec ran
    exact .inl rfl
  | @accepted k signer payees agent c found ran =>
    obtain ⟨config, _, hr, -, -, hwindow, hpays⟩ := acceptTaskResult_spec ran
    obtain ⟨-, -, hsole⟩ := validateContestAcceptWindow_spec hwindow hawardable
    obtain ⟨_, _, _, _, _, _, _, _, _, _, _, _, -, -, -, -, -, -, -, -, -, _, _, _, _, _, _, _, _,
      rfl⟩ := hpays
    have hsole : acc.task.liveSubmissions = 1 := hsole
    have hleft : acc.task.liveAfterLeaving = 0 := by
      rw [liveAfterLeaving_of_configured hcontest, hsole]
    have hstatus : acceptedStatus acc.task config = if completesTask acc.task then .Completed
        else reviewStatus (config.pendingSubmissionCount - 1) (acc.task.currentWorkers - 1) :=
      acceptedStatus_eq config hr.status
    show (acceptedStatus acc.task config).isLive = true ∨
      (acceptedStatus acc.task config).isFinished ∧ acc.task.liveAfterLeaving = 0
    rw [hstatus]
    split_ifs
    · exact .inr ⟨.inl rfl, hleft⟩
    · exact .inl (reviewStatus_isLive _ _)
  | rejected found ran =>
    obtain ⟨_, _, -, -, -, -, _, _, _, _, _, _, _, _, -, -, -, -, -, -, -, rfl⟩ :=
      rejectTaskResult_spec ran
    exact .inl (syncedStatus_isLive hlive _ _)
  | @expired k caller withSubmission agent c found ran =>
    obtain ⟨_, _, _, _, _, _, _, _, _, _, -, -, -, -, -, -, hconfigured, -, -, -, -, -, -, rfl⟩ :=
      expireClaim_spec ran
    obtain ⟨config, hconfig⟩ := Option.isSome_iff_exists.mp (hconfigured hmanual)
    have hconfig : acc.validation = some config := hconfig
    refine .inl ?_
    show (reopenedStatus (isManualValidationTask acc.task) acc.validation acc.task.status
      (acc.task.currentWorkers - 1)).isLive = true
    unfold reopenedStatus
    rw [if_pos hmanual, hconfig]
    exact syncedStatus_isLive hlive _ _
  | @shared k payees agent c found ran =>
    obtain ⟨_, _, _, _, _, _, -, -, -, -, -, -, -, -, -, -, -, -, -, _, _, _, _, _, _, rfl⟩ :=
      distributeGhostShare_spec ran
    by_cases hlast : acc.task.liveAfterLeaving = 0
    · refine .inr ⟨.inl (if_pos hlast), hlast⟩
    · refine .inl ?_
      show TaskStatus.isLive (if acc.task.liveAfterLeaving = 0 then _ else acc.task.status) = true
      rw [if_neg hlast]
      exact hlive
  | cancelled listed ran =>
    obtain ⟨-, haccounts, -⟩ := listed_context listed
    obtain ⟨_, _, _, _, _, _, _, _, _, _, _, _, _, -, -, hsilent, h⟩ := cancelTask_spec ran
    obtain ⟨-, -, -, -, -, -, -, -, -, -, -, -, -, -, rfl⟩ := h
    rw [haccounts] at hsilent
    refine .inr ⟨.inr rfl, ?_⟩
    show _ = 0
    rw [haccounts]
    exact hsilent hawardable
  | withdrawn found filed about ran =>
    obtain ⟨status, _, -, -, hstatus, -, -, rfl, -⟩ := cancelDispute_spec ran
    have hnot : acc.task.status ≠ .Disputed := by
      intro hdisputed
      rw [hdisputed] at hlive
      cases hlive
    have hsame : status = acc.task.status := hstatus.trans (if_neg hnot)
    refine .inl ?_
    show TaskStatus.isLive status = true
    rw [hsame]
    exact hlive

theorem FreshAccounts.contestSound (h : FreshAccounts w acc) : ContestSound acc := by
  refine ⟨fun htype => (h.task.competitive htype).1, fun htype => ?_, fun htype config hconfig => ?_,
    fun _ => .inl ?_⟩
  · rw [h.task.required, if_neg (by rw [htype]; decide)]
  · rcases h.review with ⟨-, hnone⟩ | ⟨-, hexclusive, -⟩
    · rw [hnone] at hconfig
      cases hconfig
    · rw [htype] at hexclusive
      cases hexclusive
  · rw [h.task.status]
    rfl

/-- Every step keeps what a competitive task relies on. -/
theorem TaskMove.contestSound (h : TaskMove w key acc i acc' ts) (hs : ContestSound acc)
    (hdisputes : ∀ key d, w.disputes.lookup key = some d → DisputeInv w d)
    (hacc : w.tasks.lookup key = some acc) {r' : Roster Pubkey} (hstaffed : Staffed acc' r') :
    ContestSound acc' := by
  have hterms := h.terms
  refine ⟨fun htype => ?_, fun htype => ?_, fun htype config' hconfig' => ?_, fun hcontest => ?_⟩
  · rw [hterms.rewardMint]
    exact hs.mint (hterms.taskType ▸ htype)
  · rw [hterms.requiredCompletions]
    exact hs.required (hterms.taskType ▸ htype)
  · rw [hterms.taskType] at htype
    rcases h.review with hkeeps | ⟨_, _, _, _, _, c, hran, rfl⟩
    · obtain ⟨config, hconfig, hsettings⟩ := hkeeps.review config' hconfig'
      exact (congrArg Prod.fst hsettings).trans (hs.mode htype config hconfig)
    · obtain ⟨config, -, -, -, hmode, -, rfl⟩ := configureTaskValidation_spec hran
      obtain rfl := Option.some.inj hconfig'
      exact hmode htype
  · have hempty : acc'.task.liveSubmissions = 0 → acc'.submitters = ∅ := by
      intro hnone
      rw [← hstaffed.tracks.waiting, ← Finset.card_eq_zero, ← hstaffed.tracks.counted.live]
      exact hnone
    rcases h.marks.constraint with hsame | ⟨-, hopen⟩
    swap
    · rw [hopen]
      exact .inl rfl
    have hbefore : isContestConfiguredTask acc.task = true := by
      rw [← hterms.contest_eq hsame]
      exact hcontest
    rcases hs.thawed hbefore with hlive | ⟨hdone, hnobody⟩
    · exact ((h.contest hs hdisputes hacc hbefore hlive).ends hbefore hlive).imp_right
        (And.imp_right hempty)
    · have hmove := h.finished hdone hacc
      refine .inr ⟨?_, Finset.eq_empty_of_forall_notMem fun k => ?_⟩
      · rw [hmove.status hdone]
        exact hdone
      · refine hmove.submitters ?_
        rw [hnobody]
        exact Finset.notMem_empty k

/-- In every reachable world the competitive tasks are sound. -/
theorem Reachable.contestSound (h : Reachable w) (hacc : w.tasks.lookup key = some acc) :
    ContestSound acc := by
  refine Reachable.induct (I := fun w => ∀ key acc, w.tasks.lookup key = some acc →
    ContestSound acc) (fun w hgenesis key acc hacc => ?_) (fun w label w' hw hstep hI key acc hacc => ?_)
    h key acc hacc
  · rw [hgenesis.tasks] at hacc
    cases hacc
  · obtain ⟨i, ts⟩ := label
    obtain ⟨r', hstaffed⟩ := (occupancy (hw.step hstep)).tasks key acc hacc
    cases Step.task hstep key with
    | apart same unpaid => exact hI key acc (same ▸ hacc)
    | created new stored fresh unpaid =>
      obtain rfl := Option.some.inj (hacc.symm.trans stored)
      exact fresh.contestSound
    | moved loaded stored move =>
      obtain rfl := Option.some.inj (hacc.symm.trans stored)
      exact move.contestSound (hI key _ loaded) (dispute_inv hw) loaded hstaffed

/-- A contest with a live entry is under review, and has not ended. -/
theorem Reachable.contest_underReview (h : Reachable w) (hacc : w.tasks.lookup key = some acc)
    (hcontest : isContestConfiguredTask acc.task = true) (hwaiting : acc.submitters.Nonempty) :
    acc.task.status = .PendingValidation := by
  obtain ⟨r, hstaffed⟩ := (occupancy h).tasks key acc hacc
  rcases (h.contestSound hacc).thawed hcontest with hlive | ⟨-, hnobody⟩
  · have hpos : 0 < r.waiting.card := by
      rw [hstaffed.tracks.waiting]
      exact hwaiting.card_pos
    rw [hstaffed.fits.review (isContestConfiguredTask_iff.mp hcontest).2 hlive, reviewStatus,
      if_pos hpos]
  · rw [hnobody] at hwaiting
    exact absurd hwaiting Finset.not_nonempty_empty

/-- A dispute never ended a contest: the task it ended was not one, and is not configured any
more. -/
theorem Reachable.contest_undisputed (h : Reachable w) {disputeKey : Pubkey} {d : Dispute}
    (hd : w.disputes.lookup disputeKey = some d) (hended : d.hasEnded)
    (hacc : w.tasks.lookup d.task = some acc) : isContestConfiguredTask acc.task = false := by
  revert hd hended hacc
  refine Reachable.induct (I := fun w => ∀ disputeKey d acc, w.disputes.lookup disputeKey = some d →
    d.hasEnded → w.tasks.lookup d.task = some acc → isContestConfiguredTask acc.task = false)
    (fun w hgenesis disputeKey d acc hd _ _ => ?_)
    (fun w label w' hw hstep hI disputeKey d' acc' hd' hended hacc' => ?_) h disputeKey d acc
  · rw [hgenesis.disputes] at hd
    cases hd
  obtain ⟨i, ts⟩ := label
  have hstays {d : Dispute} (hd : w.disputes.lookup disputeKey = some d) (hended : d.hasEnded)
      (hacc' : w'.tasks.lookup d.task = some acc') : isContestConfiguredTask acc'.task = false := by
    obtain ⟨acc₀, hacc₀, hdone⟩ := (dispute_inv hw disputeKey d hd).task
    have hbefore := hI disputeKey d acc₀ hd hended hacc₀
    cases Step.task hstep d.task with
    | apart same unpaid =>
      rw [same, hacc₀] at hacc'
      obtain rfl := Option.some.inj hacc'
      exact hbefore
    | created new stored fresh unpaid =>
      rw [new] at hacc₀
      cases hacc₀
    | moved loaded stored move =>
      obtain rfl := Option.some.inj (hacc₀.symm.trans loaded)
      obtain rfl := Option.some.inj (hacc'.symm.trans stored)
      rcases move.marks.constraint with hsame | ⟨hopen, -⟩
      · rw [move.terms.contest_eq hsame]
        exact hbefore
      · have hfinished := (hdone hended).1
        rw [hopen] at hfinished
        rcases hfinished with hfinished | hfinished <;> cases hfinished
  cases Step.dispute hstep disputeKey with
  | apart same other => exact hstays (same ▸ hd') hended hacc'
  | opened new stored record named task =>
    obtain rfl := Option.some.inj (hd'.symm.trans stored)
    obtain ⟨_, hrecord⟩ := record
    exact absurd hrecord.status hended.not_active
  | finalized filed stored final =>
    obtain rfl := Option.some.inj (hd'.symm.trans stored)
    exact hstays filed hended hacc'
  | @ruled taskKey k op acc agent d _ c _ filed stored about loaded left found ran =>
    obtain rfl := Option.some.inj (hd'.symm.trans stored)
    rw [(DisputeOp.run_frames ran).2.task, about, left] at hacc'
    obtain rfl := Option.some.inj hacc'
    have hsame : isContestConfiguredTask c.accounts.task = isContestConfiguredTask acc.task :=
      (DisputeOp.run_frames ran).1.terms.contest_eq (DisputeOp.run_constraint ran)
    rw [hsame]
    have hdisputed (hstatus : acc.task.status = .Disputed) :
        isContestConfiguredTask acc.task = false := by
      by_contra hcontest
      rw [Bool.not_eq_false] at hcontest
      rcases (hw.contestSound loaded).thawed hcontest with hlive | ⟨hdone, -⟩
      · rw [hstatus] at hlive
        cases hlive
      · rw [hstatus] at hdone
        rcases hdone with hdone | hdone <;> cases hdone
    cases op with
    | cancelDispute signer =>
      obtain ⟨_, _, -, -, -, -, -, -, rfl⟩ := cancelDispute_spec ran
      rcases hended with hended | hended | hended <;> cases hended
    | resolveDispute signer signers withAssignment approved payees =>
      obtain ⟨_, _, _, _, _, _, _, _, _, _, _, _, _, _, _, -, -, -, hstatus, -⟩ :=
        resolveDispute_spec ran
      exact hdisputed hstatus
    | expireDispute =>
      obtain ⟨_, _, _, _, _, _, _, _, _, _, _, _, _, _, _, -, -, -, hstatus, -⟩ :=
        expireDispute_spec ran
      exact hdisputed hstatus
    | settleDisputeClaim =>
      obtain ⟨_, _, _, _, _, _, _, hpending, -⟩ := settleDisputeClaim_spec ran
      exact hI disputeKey d acc filed (.inr (.inr hpending)) (about ▸ loaded)
    | applyDisputeSlash withTokenAccounts =>
      obtain ⟨_, _, _, _, _, _, _, _, _, _, _, _, -, -, hresolved, -⟩ := applyDisputeSlash_spec ran
      exact hI disputeKey d acc filed (.inl hresolved) (about ▸ loaded)

end Ends

end AgencCoordination
