import AgencCoordination.Effects.Steps

/-!
# Finished tasks

A task that is completed or cancelled stays so, and hardly anything can still happen to it: its
bids and bonds are returned, its claims are closed by a reclaim, as peers of a dispute or by the
slash, and its creator cleans up.

* **`FinishedMove`** — the instructions that still apply to a finished task.
* **`TaskMove.finished`** — there are no others.
* **`FinishedMove.status`, `FinishedMove.claims`, `FinishedMove.starts`** — the status stays, no
  claim is opened, and nothing is started.
-/

namespace AgencCoordination

open Foundations

/-- A task that is completed or cancelled. -/
def TaskStatus.isFinished (status : TaskStatus) : Prop :=
  status = .Completed ∨ status = .Cancelled

instance (status : TaskStatus) : Decidable status.isFinished :=
  inferInstanceAs (Decidable (_ ∨ _))

theorem rulingStatus_isFinished (approved : Bool) (resolution : ResolutionType) :
    (rulingStatus approved resolution).isFinished := by
  unfold rulingStatus
  split
  · exact .inl rfl
  · exact .inr rfl

/-- The instructions that start something on the task `key`: a claim, a submission, the
acceptance of a bid, a completion bond, or a dispute. -/
def Instruction.starts (key : Pubkey) : Instruction → Bool
  | .work k _ (.claimTaskWithJobSpec _ _) | .work k _ (.submitTaskResult _ _ _ _)
  | .work k _ (.acceptBid _ _ _) | .work k _ (.postWorkerBond _ _)
  | .task k (.postCreatorBond _ _) | .initiateDispute k _ _ => decide (k = key)
  | _ => false

/-- What one instruction may still do to a finished task. -/
inductive FinishedMove (w : World) (key : Pubkey) (acc : TaskAccounts) :
    Instruction → TaskAccounts → List Transfer → Prop
  | donated {target : Custody} {amount : ℕ} {acc' : TaskAccounts}
      (credits : Credits key amount acc target acc') :
      FinishedMove w key acc (.donate target amount) acc' []
  | bid {k : Pubkey} {op : WorkOp} {agent : Account AgentRegistration} {c : TaskContext}
      (found : w.agents.lookup k = some agent)
      (touches : TouchesBids (w.workContext key acc k agent) c)
      (tends : (Instruction.work key k op).starts key = false) :
      FinishedMove w key acc (.work key k op) c.accounts c.paid
  | bond {party : Pubkey} {role : BondRole} {c : TaskContext}
      (ran : reclaimCompletionBond (w.taskContext key acc) party role = .ok c) :
      FinishedMove w key acc (.task key (.reclaimCompletionBond party role)) c.accounts c.paid
  | claim {k : Pubkey} {agent : Account AgentRegistration} {c : TaskContext}
      (found : w.agents.lookup k = some agent)
      (ran : reclaimTerminalClaim (w.workContext key acc k agent) = .ok c) :
      FinishedMove w key acc (.work key k .reclaimTerminalClaim) c.accounts c.paid
  | closed {signer : Pubkey} {withJobSpec withEscrow : Bool} {workerBond : Option Pubkey}
      {children : List TaskChild} {c : TaskContext}
      (ran : closeTask (w.taskContext key acc) w.agents signer withJobSpec withEscrow workerBond
        children = .ok c) :
      FinishedMove w key acc (.closeTask key signer withJobSpec withEscrow workerBond children)
        c.accounts c.paid
  | withdrawn {disputeKey k signer : Pubkey} {agent : Account AgentRegistration}
      {d d' : Dispute} {c : TaskContext} (found : w.agents.lookup k = some agent)
      (filed : w.disputes.lookup disputeKey = some d) (about : d.task = key)
      (ran : cancelDispute (w.workContext key acc k agent) d signer = .ok (c, d')) :
      FinishedMove w key acc (.dispute key disputeKey k (.cancelDispute signer)) c.accounts c.paid
  | settled {disputeKey k : Pubkey} {agent : Account AgentRegistration} {d d' : Dispute}
      {c : TaskContext} (found : w.agents.lookup k = some agent)
      (filed : w.disputes.lookup disputeKey = some d) (about : d.task = key)
      (ran : settleDisputeClaim (w.workContext key acc k agent) d = .ok (c, d')) :
      FinishedMove w key acc (.dispute key disputeKey k .settleDisputeClaim) c.accounts c.paid
  | slashed {disputeKey k : Pubkey} {withTokenAccounts : Bool}
      {agent : Account AgentRegistration} {d d' : Dispute} {c : TaskContext}
      (found : w.agents.lookup k = some agent)
      (filed : w.disputes.lookup disputeKey = some d) (about : d.task = key)
      (ran : applyDisputeSlash (w.workContext key acc k agent) d withTokenAccounts
        = .ok (c, d')) :
      FinishedMove w key acc (.dispute key disputeKey k (.applyDisputeSlash withTokenAccounts))
        c.accounts c.paid

section Exhaustion

variable {w : World} {key : Pubkey} {acc acc' : TaskAccounts} {i : Instruction}
  {ts : List Transfer}

/-- Only reclaiming a bond needs no open task. -/
theorem TaskOp.finished {op : TaskOp} {c : TaskContext}
    (h : op.run (w.taskContext key acc) = .ok c) (hdone : acc.task.status.isFinished) :
    FinishedMove w key acc (.task key op) c.accounts c.paid := by
  have hnot : acc.task.status ≠ .Open ∧ acc.task.status ≠ .InProgress ∧
      acc.task.status ≠ .PendingValidation := by
    rcases hdone with hdone | hdone <;> rw [hdone] <;> decide
  cases op with
  | configureTaskValidation signer mode reviewWindowSecs validatorQuorum attestor =>
    obtain ⟨_, hopen, -⟩ := configureTaskValidation_spec h
    exact absurd hopen hnot.1
  | setTaskJobSpec signer jobSpecHash =>
    obtain ⟨_, hopen, -⟩ := setTaskJobSpec_spec h
    exact absurd hopen hnot.1
  | initializeBidBook signer policy weights =>
    obtain ⟨_, _, hopen, -⟩ := initializeBidBook_spec h
    exact absurd hopen hnot.1
  | postCreatorBond signer prefunded =>
    have h : postCompletionBond (w.taskContext key acc) signer .Creator prefunded = .ok c := h
    obtain ⟨_, -, -, -, hstatus, -⟩ := postCompletionBond_spec h
    rcases hstatus with hstatus | hstatus | hstatus
    · exact absurd hstatus hnot.1
    · exact absurd hstatus hnot.2.1
    · exact absurd hstatus hnot.2.2
  | reclaimCompletionBond party role => exact .bond h

/-- Of the instructions on a worker, a finished task allows those on bids and the reclaim. -/
theorem WorkOp.finished {k : Pubkey} {op : WorkOp} {agent : Account AgentRegistration}
    {c : TaskContext} (hagent : w.agents.lookup k = some agent)
    (h : op.run w (w.workContext key acc k agent) = .ok c)
    (hdone : acc.task.status.isFinished) :
    FinishedMove w key acc (.work key k op) c.accounts c.paid := by
  have hnot : acc.task.status ≠ .Open ∧ acc.task.status ≠ .InProgress ∧
      acc.task.status ≠ .PendingValidation ∧ acc.task.status ≠ .RejectFrozen := by
    rcases hdone with hdone | hdone <;> rw [hdone] <;> decide
  have hreview {config : TaskValidationConfig} {submission : Account TaskSubmission}
      (hr : UnderReview (w.workContext key acc k agent) config submission) : False :=
    hnot.2.2.1 hr.status
  cases op with
  | claimTaskWithJobSpec signer prefunded =>
    obtain ⟨_, -, -, -, hstatus, -⟩ := claimTaskWithJobSpec_spec h
    rcases hstatus with hstatus | hstatus | hstatus
    · exact absurd hstatus hnot.1
    · exact absurd hstatus hnot.2.1
    · simp only [claimableDuringPendingValidation, Bool.and_eq_true, decide_eq_true_eq] at hstatus
      exact absurd hstatus.1.1 hnot.2.2.1
  | createBid signer terms prefunded => exact .bid hagent (createBid_spec h).touches rfl
  | updateBid signer terms => exact .bid hagent (updateBid_spec h).touches rfl
  | cancelBid signer => exact .bid hagent (cancelBid_spec h).touches rfl
  | expireBid => exact .bid hagent (expireBid_spec h).touches rfl
  | promoteBid => exact .bid hagent (promoteBid_spec h).touches rfl
  | demoteIneligibleBest => exact .bid hagent (demoteIneligibleBest_spec h).touches rfl
  | acceptBid signer expectedBidTermsHash prefunded =>
    obtain ⟨_, _, _, -, -, hopen, -⟩ := acceptBid_spec h
    exact absurd hopen hnot.1
  | postWorkerBond signer prefunded =>
    have h : postCompletionBond (w.workContext key acc k agent) signer .Worker prefunded = .ok c :=
      h
    obtain ⟨_, -, -, -, hstatus, -⟩ := postCompletionBond_spec h
    rcases hstatus with hstatus | hstatus | hstatus
    · exact absurd hstatus hnot.1
    · exact absurd hstatus hnot.2.1
    · exact absurd hstatus hnot.2.2.1
  | submitTaskResult signer proofHash resultData prefunded =>
    obtain ⟨_, _, _, -, -, -, hstatus, -⟩ := submitTaskResult_spec h
    rcases hstatus with hstatus | hstatus
    · exact absurd hstatus hnot.2.1
    · exact absurd hstatus hnot.2.2.1
  | acceptTaskResult signer payees =>
    obtain ⟨_, _, hr, -⟩ := acceptTaskResult_spec h
    exact (hreview hr).elim
  | autoAcceptTaskResult payees =>
    obtain ⟨_, _, hr, -⟩ := autoAcceptTaskResult_spec h
    exact (hreview hr).elim
  | rejectTaskResult signer rejectionHash =>
    obtain ⟨_, _, hr, -⟩ := rejectTaskResult_spec h
    exact (hreview hr).elim
  | requestChanges signer changesHash =>
    obtain ⟨_, _, _, _, _, hr, -⟩ := requestChanges_spec h
    exact (hreview hr).elim
  | validateTaskResult reviewer validator approved =>
    obtain ⟨_, _, hr, -⟩ := validateTaskResult_spec h
    exact (hreview hr).elim
  | rejectAndFreeze signer rejectionHash =>
    obtain ⟨_, _, _, hr, -⟩ := rejectAndFreeze_spec h
    exact (hreview hr).elim
  | resolveRejectFrozen signers approveCompletion payees =>
    obtain ⟨_, _, _, _, _, _, _, -, -, hstatus, -⟩ | ⟨_, _, _, -, -, hstatus, -⟩ :=
      resolveRejectFrozen_spec h
    · exact absurd hstatus hnot.2.2.2
    · exact absurd hstatus hnot.2.2.2
  | expireRejectFrozen payees =>
    obtain ⟨_, _, _, _, _, _, -, -, hstatus, -⟩ := expireRejectFrozen_spec h
    exact absurd hstatus hnot.2.2.2
  | completeTask signer proofHash resultData payees =>
    obtain ⟨_, _, _, _, _, _, _, _, _, _, -, hstatus, -⟩ := completeTask_spec h
    exact absurd hstatus hnot.2.1
  | expireClaim caller withSubmission =>
    obtain ⟨_, _, _, _, _, _, _, _, _, _, -, -, -, hstatus, -⟩ := expireClaim_spec h
    rcases hstatus with hstatus | hstatus
    · exact absurd hstatus hnot.2.1
    · exact absurd hstatus hnot.2.2.1
  | distributeGhostShare payees =>
    obtain ⟨_, _, _, _, _, _, hr, -⟩ := distributeGhostShare_spec h
    exact (hreview hr).elim
  | reclaimTerminalClaim => exact .claim hagent h

/-- Nothing else can happen to a finished task. -/
theorem TaskMove.finished (h : TaskMove w key acc i acc' ts)
    (hdone : acc.task.status.isFinished) (hacc : w.tasks.lookup key = some acc) :
    FinishedMove w key acc i acc' ts := by
  have hnot : acc.task.status ≠ .Open ∧ acc.task.status ≠ .InProgress ∧
      acc.task.status ≠ .PendingValidation ∧ acc.task.status ≠ .Disputed := by
    rcases hdone with hdone | hdone <;> rw [hdone] <;> decide
  cases h with
  | donated credits => exact .donated credits
  | task ran => exact TaskOp.finished ran hdone
  | work found ran rent => exact WorkOp.finished found ran hdone
  | cancelled listed ran =>
    obtain ⟨-, hbase, -⟩ := listed_context listed
    obtain ⟨_, _, _, _, _, _, _, _, _, _, _, _, _, -, hstatus, -⟩ := cancelTask_spec ran
    rw [hbase] at hstatus
    rcases hstatus with hstatus | ⟨hstatus, -⟩
    · exact absurd hstatus hnot.1
    · exact absurd hstatus hnot.2.1
  | closed ran => exact .closed ran
  | disputed opens =>
    obtain ⟨acc₀, _, _, _, -, hacc₀, -, -, hstatus, -⟩ := opens
    obtain rfl : acc = acc₀ := Option.some.inj (hacc.symm.trans hacc₀)
    rcases hstatus with hstatus | hstatus
    · exact absurd hstatus hnot.2.1
    · exact absurd hstatus hnot.2.2.1
  | @ruled disputeKey k op agent d d' c found filed about ran rent =>
    cases op with
    | cancelDispute signer => exact .withdrawn found filed about ran
    | resolveDispute signer signers withAssignment approved payees =>
      obtain ⟨_, _, _, _, _, _, _, _, _, _, _, _, _, _, _, -, -, -, hstatus, -⟩ :=
        resolveDispute_spec ran
      exact absurd hstatus hnot.2.2.2
    | expireDispute =>
      obtain ⟨_, _, _, _, _, _, _, _, _, _, _, _, _, _, _, -, -, -, hstatus, -⟩ :=
        expireDispute_spec ran
      exact absurd hstatus hnot.2.2.2
    | settleDisputeClaim => exact .settled found filed about ran
    | applyDisputeSlash withTokenAccounts => exact .slashed found filed about ran

end Exhaustion

section Keeps

variable {w : World} {key : Pubkey} {acc acc' : TaskAccounts} {i : Instruction}
  {ts : List Transfer}

/-- Nothing can be started on a finished task. -/
theorem FinishedMove.starts (h : FinishedMove w key acc i acc' ts) : i.starts key = false := by
  cases h with
  | bid found touches tends => exact tends
  | _ => rfl

/-- A finished task keeps its status. -/
theorem FinishedMove.status (h : FinishedMove w key acc i acc' ts)
    (hdone : acc.task.status.isFinished) : acc'.task.status = acc.task.status := by
  cases h with
  | donated credits => rw [credits.task]
  | bid found touches =>
    obtain ⟨_, _, _, _, _, -, -, -, rfl⟩ := touches
    rfl
  | bond ran =>
    obtain ⟨-, rfl⟩ := reclaimCompletionBond_spec ran
    rfl
  | claim found ran =>
    obtain ⟨_, _, _, _, -, -, -, -, -, -, -, rfl⟩ := reclaimTerminalClaim_spec ran
    rfl
  | closed ran =>
    obtain ⟨_, _, _, _, _, _, _, -, -, -, -, -, -, -, -, rfl⟩ := closeTask_spec ran
    rfl
  | withdrawn found filed about ran =>
    obtain ⟨_, _, -, -, rfl, -, -, rfl, -⟩ := cancelDispute_spec ran
    have hnot : acc.task.status ≠ .Disputed := by
      rcases hdone with hdone | hdone <;> rw [hdone] <;> decide
    exact if_neg hnot
  | settled found filed about ran =>
    obtain ⟨_, _, _, _, _, _, _, -, -, -, -, -, -, -, -, -, -, -, rfl, -⟩ :=
      settleDisputeClaim_spec ran
    rfl
  | slashed found filed about ran =>
    obtain ⟨_, _, _, _, _, _, _, _, _, _, _, _, -, -, -, -, -, -, -, -, -, -, -, rfl, -⟩ :=
      applyDisputeSlash_spec ran
    rfl

/-- Where a ledger after an erasure has an entry, it had one before. -/
theorem lookup_eq_none_erase {α : Type} {s : Ledger Pubkey α} {k k' : Pubkey}
    (h : s.lookup k = none) : (s.erase k').lookup k = none := by
  rw [Ledger.lookup_erase_eq_ite, h, ite_self]

/-- No claim is opened on a finished task. -/
theorem FinishedMove.claims (h : FinishedMove w key acc i acc' ts) {k : Pubkey}
    (hk : acc.claims.lookup k = none) : acc'.claims.lookup k = none := by
  cases h with
  | donated credits =>
    cases credits with
    | @claim k' claim loaded =>
      have hne : k ≠ k' := by
        rintro rfl
        rw [hk] at loaded
        cases loaded
      exact (AList.lookup_insert_ne hne).trans hk
    | escrow => exact hk
    | tokenEscrow => exact hk
    | submission => exact hk
    | bond => exact hk
    | bid => exact hk
  | bid found touches =>
    obtain ⟨_, _, _, _, _, -, -, -, rfl⟩ := touches
    exact hk
  | bond ran =>
    obtain ⟨-, rfl⟩ := reclaimCompletionBond_spec ran
    exact hk
  | claim found ran =>
    obtain ⟨_, _, _, _, -, -, -, -, -, -, -, rfl⟩ := reclaimTerminalClaim_spec ran
    exact lookup_eq_none_erase hk
  | closed ran =>
    obtain ⟨_, _, _, _, _, _, _, -, -, -, -, -, -, -, -, rfl⟩ := closeTask_spec ran
    exact hk
  | withdrawn found filed about ran =>
    obtain ⟨_, _, -, -, -, -, -, rfl, -⟩ := cancelDispute_spec ran
    exact hk
  | settled found filed about ran =>
    obtain ⟨_, _, _, _, _, _, _, -, -, -, -, -, -, -, -, -, -, -, rfl, -⟩ :=
      settleDisputeClaim_spec ran
    exact lookup_eq_none_erase hk
  | slashed found filed about ran =>
    obtain ⟨_, _, _, _, _, _, _, _, _, _, _, _, -, -, -, -, -, -, -, -, -, -, -, rfl, -⟩ :=
      applyDisputeSlash_spec ran
    exact lookup_eq_none_erase hk

end Keeps

/-- A finished task stays finished, and no claim is opened on it any more. -/
theorem Step.finished {w w' : World} {i : Instruction} {ts : List Transfer}
    (h : Step w (i, ts) w') {key : Pubkey} {acc : TaskAccounts}
    (hacc : w.tasks.lookup key = some acc) (hdone : acc.task.status.isFinished) :
    ∃ acc', w'.tasks.lookup key = some acc' ∧ acc'.task.status = acc.task.status ∧
      ∀ k, acc.claims.lookup k = none → acc'.claims.lookup k = none := by
  cases h.task key with
  | apart same unpaid => exact ⟨acc, same.trans hacc, rfl, fun _ => id⟩
  | created new stored fresh unpaid =>
    rw [new] at hacc
    cases hacc
  | @moved acc₀ acc' loaded stored move =>
    obtain rfl : acc = acc₀ := Option.some.inj (hacc.symm.trans loaded)
    have hmove := move.finished hdone hacc
    exact ⟨acc', stored, hmove.status hdone, fun _ => hmove.claims⟩

end AgencCoordination
