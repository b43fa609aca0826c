import AgencCoordination.Invariants.Finished

/-!
# Review settings and fees

Who reviews a task is settled while it is open: only `configure_task_validation` installs another
mode, and no instruction changes the fees a task was created with.

* **`KeepsReview`** — what every instruction but one keeps of a task's review settings and fees.
* **`ReviewSound`** — no task is reviewed by a quorum of validators, a task reviewed by an
  attestor or paid in tokens owes no operator and no referrer, and a hire record names the payees
  of its task.
-/

namespace AgencCoordination

open Foundations

/-- The fees a task is created with. -/
structure TaskFees where
  protocolFeeBps : ℕ
  operator : Pubkey
  operatorFeeBps : ℕ
  referrer : Pubkey
  referrerFeeBps : ℕ

def Task.fees (task : Task) : TaskFees :=
  ⟨task.protocolFeeBps, task.operator, task.operatorFeeBps, task.referrer, task.referrerFeeBps⟩

/-- The settings of a review: its mode and its window. -/
def TaskValidationConfig.settings (config : TaskValidationConfig) : ValidationMode × ℤ :=
  (config.mode, config.reviewWindowSecs)

/-- A review configuration of `validation'` has the settings of the one of `validation`. -/
def SameReview (validation validation' : Option TaskValidationConfig) : Prop :=
  ∀ config', validation' = some config' →
    ∃ config, validation = some config ∧ config'.settings = config.settings

namespace SameReview

variable {validation validation' : Option TaskValidationConfig} {config : TaskValidationConfig}

theorem of_eq (h : validation' = validation) : SameReview validation validation' :=
  fun config' hconfig' => ⟨config', h ▸ hconfig', rfl⟩

theorem of_settings (h : validation = some config) {config' : TaskValidationConfig}
    (hsettings : config'.settings = config.settings) : SameReview validation (some config') := by
  intro config'' hconfig''
  obtain rfl := Option.some.inj hconfig''
  exact ⟨config, h, hsettings⟩

theorem of_eq_or_none (h : validation' = validation ∨ validation' = none) :
    SameReview validation validation' := by
  rcases h with h | h
  · exact .of_eq h
  · intro config' hconfig'
    rw [h] at hconfig'
    cases hconfig'

theorem of_leaves {manual : Bool} {live leaving live' : ℕ}
    {stored : Option (Account TaskSubmission)}
    (h : LeavesIfSubmitted manual live leaving stored validation live' validation') :
    SameReview validation validation' := by
  cases h with
  | idle => exact .of_eq rfl
  | managed loaded submitted reviewed configured pending => exact .of_settings configured rfl
  | unmanaged => exact .of_eq rfl

end SameReview

/-- A submission that leaves review leaves a configuration where there was one. -/
theorem LeavesIfSubmitted.installed {manual : Bool} {live leaving live' : ℕ}
    {stored : Option (Account TaskSubmission)} {validation validation' : Option TaskValidationConfig}
    (h : LeavesIfSubmitted manual live leaving stored validation live' validation')
    (hinstalled : validation.isSome = true) : validation'.isSome = true := by
  cases h with
  | idle => exact hinstalled
  | managed => rfl
  | unmanaged => exact hinstalled

/-- What an instruction keeps of the review and the fees of a task; the review configuration and
the hire record of a finished task that nobody works on may go. -/
structure KeepsReview (acc acc' : TaskAccounts) : Prop where
  review : SameReview acc.validation acc'.validation
  installed : acc.validation.isSome = true → acc'.validation.isSome = true ∨
    acc'.task.status.isFinished ∧ acc'.task.currentWorkers = 0
  constraint : acc'.task.constraintHash = acc.task.constraintHash
  fees : acc'.task.fees = acc.task.fees
  hire : acc'.hire = acc.hire ∨ acc'.hire = none ∧ acc'.task.status.isFinished

section Handlers

variable {c c' : TaskContext} {config : TaskValidationConfig}

theorem KeepsReview.of_same {acc acc' : TaskAccounts} (review : acc'.validation = acc.validation)
    (constraint : acc'.task.constraintHash = acc.task.constraintHash)
    (fees : acc'.task.fees = acc.task.fees) (hire : acc'.hire = acc.hire) :
    KeepsReview acc acc' :=
  ⟨.of_eq review, fun h => .inl (by rw [review]; exact h), constraint, fees, .inl hire⟩

/-- The mode of a task with a submission under review comes from its configuration. -/
theorem UnderReview.keeps {submission : Account TaskSubmission}
    (h : UnderReview c config submission) {config' : TaskValidationConfig}
    (hvalidation : c'.accounts.validation = some config')
    (hsettings : config'.settings = config.settings)
    (hconstraint : c'.accounts.task.constraintHash = c.accounts.task.constraintHash)
    (hfees : c'.accounts.task.fees = c.accounts.task.fees)
    (hhire : c'.accounts.hire = c.accounts.hire) : KeepsReview c.accounts c'.accounts := by
  refine ⟨?_, fun _ => .inl ?_, hconstraint, hfees, .inl hhire⟩
  · rw [hvalidation]
    exact .of_settings h.validation hsettings
  · rw [hvalidation]
    rfl

theorem PaysAccepted.keepsReview {submission : Account TaskSubmission} {payees : PayeeAccounts}
    (hr : UnderReview c config submission) (h : PaysAccepted c config payees c') :
    KeepsReview c.accounts c'.accounts := by
  obtain ⟨claim, stored, gross, price, escrow', vault', paidReward, book', bids', bidder',
    paidBid, votes', -, -, -, -, -, -, -, -, -, _, _, _, _, _, _, _, _, rfl⟩ := h
  exact hr.keeps rfl rfl rfl rfl rfl

theorem RejectsClaim.keepsReview {submission : Account TaskSubmission}
    (hr : UnderReview c config submission) (h : RejectsClaim c config c') :
    KeepsReview c.accounts c'.accounts := by
  obtain ⟨claim, submissions', votes', book', bids', bidder', paidBid, closings, -, -, -, -, -, -,
    -, rfl⟩ := h
  exact hr.keeps rfl rfl rfl rfl rfl

theorem PaysFrozen.keepsReview {payees : PayeeAccounts} {disposition : BondDisposition}
    (h : PaysFrozen c payees disposition c') :
    KeepsReview c.accounts c'.accounts := by
  obtain ⟨claim, stored, gross, escrow', vault', paidReward, -, -, -, -, -, -, -, -, _, _, _, _,
    _, _, _, _, rfl⟩ := h
  exact .of_same rfl rfl rfl rfl

theorem WorkOp.run_review {w : World} {op : WorkOp} (h : op.run w c = .ok c') :
    KeepsReview c.accounts c'.accounts := by
  cases op with
  | claimTaskWithJobSpec signer prefunded =>
    obtain ⟨_, -, -, -, -, -, hoccupies⟩ := claimTaskWithJobSpec_spec h
    obtain ⟨_, _, _, _, _, _, _, _, _, rfl, -⟩ := hoccupies
    exact .of_same rfl rfl rfl rfl
  | createBid signer terms prefunded =>
    obtain ⟨_, _, _, _, _, -, -, -, rfl⟩ := (createBid_spec h).touches
    exact .of_same rfl rfl rfl rfl
  | updateBid signer terms =>
    obtain ⟨_, _, _, _, _, -, -, -, rfl⟩ := (updateBid_spec h).touches
    exact .of_same rfl rfl rfl rfl
  | cancelBid signer =>
    obtain ⟨_, _, _, _, _, -, -, -, rfl⟩ := (cancelBid_spec h).touches
    exact .of_same rfl rfl rfl rfl
  | expireBid =>
    obtain ⟨_, _, _, _, _, -, -, -, rfl⟩ := (expireBid_spec h).touches
    exact .of_same rfl rfl rfl rfl
  | promoteBid =>
    obtain ⟨_, _, _, _, _, -, -, -, rfl⟩ := (promoteBid_spec h).touches
    exact .of_same rfl rfl rfl rfl
  | demoteIneligibleBest =>
    obtain ⟨_, _, _, _, _, -, -, -, rfl⟩ := (demoteIneligibleBest_spec h).touches
    exact .of_same rfl rfl rfl rfl
  | acceptBid signer expectedBidTermsHash prefunded =>
    obtain ⟨_, _, _, -, -, -, -, hoccupies⟩ := acceptBid_spec h
    obtain ⟨_, _, _, _, _, _, _, _, _, rfl, -⟩ := hoccupies
    exact .of_same rfl rfl rfl rfl
  | postWorkerBond signer prefunded =>
    have h : postCompletionBond c signer .Worker prefunded = .ok c' := h
    obtain ⟨_, -, -, -, -, -, -, -, -, rfl⟩ := postCompletionBond_spec h
    exact .of_same rfl rfl rfl rfl
  | submitTaskResult signer proofHash resultData prefunded =>
    obtain ⟨_, _, _, -, -, hvalidation, -, -, -, -, _, _, rfl⟩ := submitTaskResult_spec h
    exact ⟨.of_settings hvalidation rfl, fun _ => .inl rfl, rfl, rfl, .inl rfl⟩
  | acceptTaskResult signer payees =>
    obtain ⟨_, _, hr, -, -, -, hpays⟩ := acceptTaskResult_spec h
    exact hpays.keepsReview hr
  | autoAcceptTaskResult payees =>
    obtain ⟨_, _, hr, -, -, hpays⟩ := autoAcceptTaskResult_spec h
    exact hpays.keepsReview hr
  | rejectTaskResult signer rejectionHash =>
    obtain ⟨_, _, hr, -, -, -, hrejects⟩ := rejectTaskResult_spec h
    exact hrejects.keepsReview hr
  | requestChanges signer changesHash =>
    obtain ⟨_, _, _, _, _, hr, -, -, -, -, -, rfl⟩ := requestChanges_spec h
    exact hr.keeps rfl rfl rfl rfl rfl
  | validateTaskResult reviewer validator approved =>
    obtain ⟨_, _, hr, -, hpays | ⟨hrejects, -⟩ | ⟨_, _, -, rfl⟩⟩ := validateTaskResult_spec h
    · exact hpays.keepsReview hr
    · exact hrejects.keepsReview hr
    · exact .of_same rfl rfl rfl rfl
  | rejectAndFreeze signer rejectionHash =>
    obtain ⟨_, _, _, hr, -, -, -, -, rfl⟩ := rejectAndFreeze_spec h
    exact hr.keeps rfl rfl rfl rfl rfl
  | resolveRejectFrozen signers approveCompletion payees =>
    obtain ⟨_, hpays⟩ | hcancels := resolveRejectFrozen_spec h
    · exact hpays.keepsReview
    · obtain ⟨_, _, _, -, -, -, -, -, -, -, rfl⟩ := hcancels
      exact .of_same rfl rfl rfl rfl
  | expireRejectFrozen payees => exact (expireRejectFrozen_spec h).keepsReview
  | completeTask signer proofHash resultData payees =>
    obtain ⟨_, _, _, _, _, _, _, _, _, _, -, -, -, -, -, -, -, -, -, _, _, _, _, _, _, _, _, rfl⟩ :=
      completeTask_spec h
    exact .of_same rfl rfl rfl rfl
  | expireClaim caller withSubmission =>
    obtain ⟨_, _, _, _, _, _, _, h⟩ := expireClaim_spec h
    obtain ⟨_, _, _, -, -, -, -, -, -, -, -, -, -, -, -, -, rfl⟩ := h
    exact .of_same rfl rfl rfl rfl
  | distributeGhostShare payees =>
    obtain ⟨_, _, _, _, _, _, hr, h⟩ := distributeGhostShare_spec h
    obtain ⟨-, -, -, -, -, -, -, -, -, -, -, -, _, _, _, _, _, _, rfl⟩ := h
    exact hr.keeps rfl rfl rfl rfl rfl
  | reclaimTerminalClaim =>
    obtain ⟨_, _, _, _, -, -, -, -, -, hleaves, -, rfl⟩ := reclaimTerminalClaim_spec h
    exact ⟨.of_leaves hleaves, fun h => .inl (hleaves.installed h), rfl, rfl, .inl rfl⟩

theorem DisputeOp.run_review {w : World} {op : DisputeOp} {d d' : Dispute}
    (h : op.run w c d = .ok (c', d')) : KeepsReview c.accounts c'.accounts := by
  cases op with
  | cancelDispute signer =>
    obtain ⟨_, _, -, -, -, hvalidation, -, rfl, rfl⟩ := cancelDispute_spec h
    rcases hvalidation with rfl | ⟨config, debt, hconfig, rfl⟩
    · exact .of_same rfl rfl rfl rfl
    · exact ⟨.of_settings hconfig rfl, fun _ => .inl rfl, rfl, rfl, .inl rfl⟩
  | resolveDispute signer signers withAssignment approved payees =>
    obtain ⟨claim, escrow, escrow', vault', paidRuling, book', bids', h⟩ := resolveDispute_spec h
    obtain ⟨bidder', paidBid, live, validation', closings, paidClaim, creatorSide, h⟩ := h
    obtain ⟨workerSide, -, -, -, -, -, -, -, -, hleaves, -, -, h⟩ := h
    obtain ⟨_, _, _, _, _, _, _, -, -, rfl, rfl⟩ := h
    exact ⟨.of_leaves hleaves, fun h => .inl (hleaves.installed h), rfl, rfl, .inl rfl⟩
  | expireDispute =>
    obtain ⟨claim, escrow, escrow', vault', paidRefund, live, validation', h⟩ := expireDispute_spec h
    obtain ⟨closings, penalty, book', bids', bidder', paidBid, bonds', paidBond, h⟩ := h
    obtain ⟨-, -, -, -, -, -, -, hleaves, -, -, -, -, rfl, rfl⟩ := h
    exact ⟨.of_leaves hleaves, fun h => .inl (hleaves.installed h), rfl, rfl, .inl rfl⟩
  | settleDisputeClaim =>
    obtain ⟨claim, live, validation', closings, _, _, _, h⟩ := settleDisputeClaim_spec h
    obtain ⟨-, -, -, -, -, -, hleaves, -, -, -, -, rfl, rfl⟩ := h
    exact ⟨.of_leaves hleaves, fun h => .inl (hleaves.installed h), rfl, rfl, .inl rfl⟩
  | applyDisputeSlash withTokenAccounts =>
    obtain ⟨claim, _, slash, escrow', vault', paidReserve, _, _, h⟩ := applyDisputeSlash_spec h
    obtain ⟨_, _, _, _, -, -, -, -, -, -, -, -, -, -, -, rfl, rfl⟩ := h
    exact .of_same rfl rfl rfl rfl

end Handlers

/-! ## One step -/

/-- Who may be configured to review a task, and what a task that an attestor reviews may owe. -/
theorem configureTaskValidation_review {c c' : TaskContext} {signer : Pubkey}
    {mode : ValidationMode} {reviewWindowSecs : ℤ} {validatorQuorum : ℕ} {attestor : Option Pubkey}
    (h : configureTaskValidation c signer mode reviewWindowSecs validatorQuorum attestor = .ok c') :
    mode ≠ .Auto ∧ mode ≠ .ValidatorQuorum ∧ c.accounts.hire = none ∧
      (mode ≠ .CreatorReview → c.accounts.task.referrerFeeBps = 0) ∧
      ∃ config, c'.accounts.validation = some config ∧ config.mode = mode ∧
        c'.accounts.task.fees = c.accounts.task.fees ∧ c'.accounts.hire = c.accounts.hire := by
  simp only [configureTaskValidation, bind_eq_ok, require_eq_ok, Except.ok.injEq,
    TaskContext.task_eq] at h
  obtain ⟨_, -, _, -, _, -, _, hhire, _, hauto, _, hquorum, _, -, _, -, _, -, _, -, _, -, h⟩ := h
  obtain ⟨_, hreferrer, _, -, rfl⟩ := h
  exact ⟨hauto, hquorum, hhire, hreferrer, _, rfl, rfl, rfl, rfl⟩

/-- An instruction keeps the review settings and the fees of a task, or configures its review. -/
theorem TaskMove.review {w : World} {key : Pubkey} {acc acc' : TaskAccounts} {i : Instruction}
    {ts : List Transfer} (h : TaskMove w key acc i acc' ts) : KeepsReview acc acc' ∨
      ∃ signer mode window quorum attestor c,
        configureTaskValidation (w.taskContext key acc) signer mode window quorum attestor
          = .ok c ∧ acc' = c.accounts := by
  cases h with
  | donated credits =>
    left
    cases credits <;> exact .of_same rfl rfl rfl rfl
  | @task op c ran =>
    cases op with
    | configureTaskValidation signer mode reviewWindowSecs validatorQuorum attestor =>
      exact .inr ⟨signer, mode, reviewWindowSecs, validatorQuorum, attestor, c, ran, rfl⟩
    | setTaskJobSpec signer jobSpecHash =>
      obtain ⟨_, -, rfl⟩ := setTaskJobSpec_spec ran
      exact .inl (.of_same rfl rfl rfl rfl)
    | initializeBidBook signer policy weights =>
      obtain ⟨_, _, -, -, -, -, rfl⟩ := initializeBidBook_spec ran
      exact .inl (.of_same rfl rfl rfl rfl)
    | postCreatorBond signer prefunded =>
      have ran : postCompletionBond (w.taskContext key acc) signer .Creator prefunded = .ok c := ran
      obtain ⟨_, -, -, -, -, -, -, -, -, rfl⟩ := postCompletionBond_spec ran
      exact .inl (.of_same rfl rfl rfl rfl)
    | reclaimCompletionBond party role =>
      obtain ⟨-, rfl⟩ := reclaimCompletionBond_spec ran
      exact .inl (.of_same rfl rfl rfl rfl)
  | work found ran rent => exact .inl (WorkOp.run_review ran)
  | cancelled listed ran =>
    left
    obtain ⟨-, haccounts, -⟩ := listed_context listed
    obtain ⟨_, _, _, _, _, _, _, h⟩ := cancelTask_spec ran
    obtain ⟨_, _, _, _, _, _, -, -, -, -, -, -, -, -, -, -, -, -, -, -, -, -, -, rfl⟩ := h
    rw [← haccounts]
    exact .of_same rfl rfl rfl rfl
  | closed ran =>
    left
    obtain ⟨_, _, _, _, _, h⟩ := closeTask_spec ran
    obtain ⟨_, _, hstatus, hworkers, -, -, -, -, hvalidation, -, rfl⟩ := h
    exact ⟨.of_eq_or_none hvalidation, fun _ => .inr ⟨hstatus, hworkers⟩, rfl, rfl,
      .inr ⟨rfl, hstatus⟩⟩
  | disputed opens => exact .inl (.of_same rfl rfl rfl rfl)
  | ruled found filed about ran rent => exact .inl (DisputeOp.run_review ran)

/-! ## Every reachable world -/

/-- Who may review a task, and what it may owe. -/
structure ReviewSound (acc : TaskAccounts) : Prop where
  mode : ∀ config, acc.validation = some config →
    config.mode = .CreatorReview ∨ config.mode = .ExternalAttestation
  unpaid : ∀ config, acc.validation = some config → config.mode = .ExternalAttestation →
    acc.task.operatorFeeBps = 0 ∧ acc.task.referrerFeeBps = 0
  hired : acc.hire = none → ¬acc.task.status.isFinished → acc.task.operatorFeeBps = 0
  hire : ∀ hire, acc.hire = some hire →
    hire.operator = acc.task.operator ∧ hire.referrer = acc.task.referrer
  token : acc.task.rewardMint ≠ none →
    acc.task.operatorFeeBps = 0 ∧ acc.task.referrerFeeBps = 0

theorem FreshAccounts.reviewSound {w : World} {acc : TaskAccounts} (h : FreshAccounts w acc) :
    ReviewSound acc := by
  have hmode (config : TaskValidationConfig) (hconfig : acc.validation = some config) :
      config.mode = .CreatorReview := by
    rcases h.review with ⟨-, hnone⟩ | ⟨-, -, config', hsome, -, hmode⟩
    · rw [hnone] at hconfig
      cases hconfig
    · obtain rfl := Option.some.inj (hconfig.symm.trans hsome)
      exact hmode
  refine ⟨fun config hconfig => .inl (hmode config hconfig), fun config hconfig hattested => ?_,
    fun hhire _ => h.operator hhire, h.hire, h.token⟩
  rw [hmode config hconfig] at hattested
  cases hattested

theorem KeepsReview.sound {acc acc' : TaskAccounts} (h : KeepsReview acc acc')
    (hdone : acc.task.status.isFinished → acc'.task.status.isFinished)
    (hmint : acc'.task.rewardMint = acc.task.rewardMint) (hs : ReviewSound acc) :
    ReviewSound acc' := by
  have hoperator : acc'.task.operatorFeeBps = acc.task.operatorFeeBps :=
    congrArg TaskFees.operatorFeeBps h.fees
  have hreferrer : acc'.task.referrerFeeBps = acc.task.referrerFeeBps :=
    congrArg TaskFees.referrerFeeBps h.fees
  refine ⟨fun config' hconfig' => ?_, fun config' hconfig' hmode => ?_, fun hhire hopen => ?_,
    fun hire hhire => ?_, fun htoken => ?_⟩
  · obtain ⟨config, hconfig, hsettings⟩ := h.review config' hconfig'
    have hmode : config'.mode = config.mode := congrArg Prod.fst hsettings
    rw [hmode]
    exact hs.mode config hconfig
  · obtain ⟨config, hconfig, hsettings⟩ := h.review config' hconfig'
    have hsame : config'.mode = config.mode := congrArg Prod.fst hsettings
    rw [hoperator, hreferrer]
    exact hs.unpaid config hconfig (hsame ▸ hmode)
  · rw [hoperator]
    rcases h.hire with hsame | ⟨-, hfinished⟩
    · exact hs.hired (hsame ▸ hhire) fun hfinished => hopen (hdone hfinished)
    · exact absurd hfinished hopen
  · have hpayees : acc'.task.operator = acc.task.operator ∧
        acc'.task.referrer = acc.task.referrer :=
      ⟨congrArg TaskFees.operator h.fees, congrArg TaskFees.referrer h.fees⟩
    rw [hpayees.1, hpayees.2]
    rcases h.hire with hsame | ⟨hnone, -⟩
    · exact hs.hire hire (hsame ▸ hhire)
    · rw [hnone] at hhire
      cases hhire
  · rw [hoperator, hreferrer]
    exact hs.token (hmint ▸ htoken)

theorem TaskMove.reviewSound {w : World} {key : Pubkey} {acc acc' : TaskAccounts}
    {i : Instruction} {ts : List Transfer} (h : TaskMove w key acc i acc' ts)
    (hacc : w.tasks.lookup key = some acc) (hs : ReviewSound acc) : ReviewSound acc' := by
  have hmint := h.terms.rewardMint
  rcases h.review with hkeeps | ⟨signer, mode, window, quorum, attestor, c, hran, rfl⟩
  · refine hkeeps.sound (fun hdone => ?_) hmint hs
    rw [(h.finished hdone hacc).status hdone]
    exact hdone
  · obtain ⟨_, hopen, -⟩ := configureTaskValidation_spec hran
    obtain ⟨hauto, hquorum, hhire, hreferrer, config, hconfig, hmode, hfees, hsame⟩ :=
      configureTaskValidation_review hran
    have hoperator : acc.task.operatorFeeBps = 0 := by
      refine hs.hired hhire fun hdone => ?_
      have hopen : acc.task.status = .Open := hopen
      rw [hopen] at hdone
      revert hdone
      decide
    have hfeesOperator : c.accounts.task.operatorFeeBps = acc.task.operatorFeeBps :=
      congrArg TaskFees.operatorFeeBps hfees
    have hfeesReferrer : c.accounts.task.referrerFeeBps = acc.task.referrerFeeBps :=
      congrArg TaskFees.referrerFeeBps hfees
    have hthis (config' : TaskValidationConfig) (h' : c.accounts.validation = some config') :
        config'.mode = mode := by
      rw [← Option.some.inj (hconfig.symm.trans h'), hmode]
    refine ⟨fun config' h' => ?_, fun config' h' hattested => ⟨?_, ?_⟩, fun _ _ => ?_,
      fun hire hhire' => ?_, fun htoken => ?_⟩
    · rw [hthis config' h']
      cases mode with
      | Auto => exact absurd rfl hauto
      | CreatorReview => exact .inl rfl
      | ValidatorQuorum => exact absurd rfl hquorum
      | ExternalAttestation => exact .inr rfl
    · rw [hfeesOperator, hoperator]
    · rw [hfeesReferrer]
      refine hreferrer ?_
      rw [← hthis config' h', hattested]
      decide
    · rw [hfeesOperator, hoperator]
    · rw [hsame, show (w.taskContext key acc).accounts.hire = acc.hire from rfl] at hhire'
      rw [show acc.hire = none from hhire] at hhire'
      cases hhire'
    · rw [hfeesOperator, hfeesReferrer]
      exact hs.token (hmint ▸ htoken)

/-- In every reachable world the review settings of every task are sound. -/
theorem Reachable.reviewSound {w : World} (h : Reachable w) {key : Pubkey} {acc : TaskAccounts}
    (hacc : w.tasks.lookup key = some acc) : ReviewSound acc := by
  refine Reachable.induct (I := fun w => ∀ key acc, w.tasks.lookup key = some acc →
    ReviewSound acc) (fun w hgenesis key acc hacc => ?_) (fun w label w' _ hstep hI key acc hacc => ?_)
    h key acc hacc
  · rw [hgenesis.tasks] at hacc
    cases hacc
  · obtain ⟨i, ts⟩ := label
    cases Step.task hstep key with
    | apart same unpaid => exact hI key acc (same ▸ hacc)
    | created new stored fresh unpaid =>
      obtain rfl := Option.some.inj (hacc.symm.trans stored)
      exact fresh.reviewSound
    | moved loaded stored move =>
      obtain rfl := Option.some.inj (hacc.symm.trans stored)
      exact move.reviewSound loaded (hI key _ loaded)

end AgencCoordination
