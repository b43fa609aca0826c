import AgencCoordination.Invariants.Finished

/-!
# What a task pins

The job specification of a task, its hire record and its description, and who may claim it, step
by step.

* **`KeepsPinned`** — an instruction that leaves all of it alone, and opens no claim.
* **`PinnedMove`** — the instructions that do not: publication, the opening of a bid book, an
  assignment, and the clean-up of a finished task.
* **`TaskMove.pinned`** — every instruction on a task is one or the other.
* **`CreateOp.pins`** — what a new task pins.
-/

namespace AgencCoordination

open Foundations

/-! ## Claims -/

/-- Every claim of `claims'` was one of `claims`. -/
def NoNewClaims (claims claims' : Ledger Pubkey (Account TaskClaim)) : Prop :=
  ∀ k, claims.lookup k = none → claims'.lookup k = none

namespace NoNewClaims

variable {claims : Ledger Pubkey (Account TaskClaim)}

theorem refl (claims : Ledger Pubkey (Account TaskClaim)) : NoNewClaims claims claims :=
  fun _ hk => hk

theorem erase (claims : Ledger Pubkey (Account TaskClaim)) (k : Pubkey) :
    NoNewClaims claims (claims.erase k) := by
  intro j hj
  rw [Ledger.lookup_erase_eq_ite]
  split_ifs
  · rfl
  · exact hj

theorem overwrite {k : Pubkey} {claim : Account TaskClaim} (h : claims.lookup k = some claim)
    (claim' : Account TaskClaim) : NoNewClaims claims (claims.insert k claim') := by
  intro j hj
  rw [Ledger.lookup_insert_eq_ite]
  split_ifs with hjk
  · subst hjk
    rw [h] at hj
    cases hj
  · exact hj

theorem of_ite {lost : Prop} [Decidable lost] {claims' : Ledger Pubkey (Account TaskClaim)}
    (h : NoNewClaims claims claims') :
    NoNewClaims claims (if lost then claims else claims') := by
  split_ifs
  · exact .refl _
  · exact h

end NoNewClaims

/-! ## Handlers -/

/-- What an instruction keeps that neither publishes nor locks the job specification, assigns the
task or cleans it up. -/
structure KeepsPinned (acc acc' : TaskAccounts) : Prop where
  jobSpec : acc'.jobSpec = acc.jobSpec
  hire : acc'.hire = acc.hire
  description : acc'.task.description = acc.task.description
  claims : NoNewClaims acc.claims acc'.claims

section Handlers

variable {c c' : TaskContext} {config : TaskValidationConfig}

theorem PaysAccepted.keepsPinned {payees : PayeeAccounts} (h : PaysAccepted c config payees c') :
    KeepsPinned c.accounts c'.accounts := by
  obtain ⟨claim, stored, gross, price, escrow', vault', paidReward, book', bids', bidder',
    paidBid, votes', -, -, -, -, -, -, -, -, -, _, _, _, _, _, _, _, _, rfl⟩ := h
  exact ⟨rfl, rfl, rfl, .erase _ _⟩

theorem RejectsClaim.keepsPinned (h : RejectsClaim c config c') :
    KeepsPinned c.accounts c'.accounts := by
  obtain ⟨claim, submissions', votes', book', bids', bidder', paidBid, closings, -, -, -, -, -, -,
    -, rfl⟩ := h
  exact ⟨rfl, rfl, rfl, .erase _ _⟩

theorem PaysFrozen.keepsPinned {payees : PayeeAccounts} {disposition : BondDisposition}
    (h : PaysFrozen c payees disposition c') : KeepsPinned c.accounts c'.accounts := by
  obtain ⟨claim, stored, gross, escrow', vault', paidReward, -, -, -, -, -, -, -, -, _, _, _, _,
    _, _, _, _, rfl⟩ := h
  exact ⟨rfl, rfl, rfl, .erase _ _⟩

theorem TouchesBids.keepsPinned (h : TouchesBids c c') : KeepsPinned c.accounts c'.accounts := by
  obtain ⟨_, _, _, _, _, -, -, -, rfl⟩ := h
  exact ⟨rfl, rfl, rfl, .refl _⟩

/-- The two instructions that assign a task to a worker. -/
def WorkOp.assigns : WorkOp → Bool
  | .claimTaskWithJobSpec _ _ | .acceptBid _ _ _ => true
  | _ => false

/-- An assignment opens one claim, and pins nothing new. -/
structure AssignsPinned (k : Pubkey) (acc acc' : TaskAccounts) : Prop where
  jobSpec : acc'.jobSpec = acc.jobSpec
  hire : acc'.hire = acc.hire
  description : acc'.task.description = acc.task.description
  others : ∀ j, j ≠ k → acc'.claims.lookup j = acc.claims.lookup j

theorem Occupies.pinned {expiresAt : ℤ} (h : Occupies c expiresAt c') :
    AssignsPinned c.workerKey c.accounts c'.accounts := by
  obtain ⟨_, _, _, _, _, _, _, _, _, rfl, -⟩ := h
  refine ⟨rfl, rfl, rfl, fun j hj => ?_⟩
  rw [Ledger.lookup_insert_eq_ite, if_neg hj]

theorem WorkOp.run_pinned {w : World} {op : WorkOp} (h : op.run w c = .ok c') :
    KeepsPinned c.accounts c'.accounts ∨
      op.assigns = true ∧ AssignsPinned c.workerKey c.accounts c'.accounts := by
  cases op with
  | claimTaskWithJobSpec signer prefunded =>
    obtain ⟨_, -, -, -, -, -, hoccupies⟩ := claimTaskWithJobSpec_spec h
    exact .inr ⟨rfl, hoccupies.pinned⟩
  | acceptBid signer expectedBidTermsHash prefunded =>
    obtain ⟨_, _, _, -, -, -, -, hoccupies⟩ := acceptBid_spec h
    exact .inr ⟨rfl, hoccupies.pinned⟩
  | createBid signer terms prefunded => exact .inl (createBid_spec h).touches.keepsPinned
  | updateBid signer terms => exact .inl (updateBid_spec h).touches.keepsPinned
  | cancelBid signer => exact .inl (cancelBid_spec h).touches.keepsPinned
  | expireBid => exact .inl (expireBid_spec h).touches.keepsPinned
  | promoteBid => exact .inl (promoteBid_spec h).touches.keepsPinned
  | demoteIneligibleBest => exact .inl (demoteIneligibleBest_spec h).touches.keepsPinned
  | postWorkerBond signer prefunded =>
    have h : postCompletionBond c signer .Worker prefunded = .ok c' := h
    obtain ⟨_, -, -, -, -, -, -, -, -, rfl⟩ := postCompletionBond_spec h
    exact .inl ⟨rfl, rfl, rfl, .refl _⟩
  | submitTaskResult signer proofHash resultData prefunded =>
    obtain ⟨_, _, _, hclaim, -, -, -, -, -, -, _, _, rfl⟩ := submitTaskResult_spec h
    exact .inl ⟨rfl, rfl, rfl, .overwrite hclaim _⟩
  | acceptTaskResult signer payees =>
    obtain ⟨_, _, -, -, -, -, hpays⟩ := acceptTaskResult_spec h
    exact .inl hpays.keepsPinned
  | autoAcceptTaskResult payees =>
    obtain ⟨_, _, -, -, -, hpays⟩ := autoAcceptTaskResult_spec h
    exact .inl hpays.keepsPinned
  | rejectTaskResult signer rejectionHash =>
    obtain ⟨_, _, -, -, -, -, hrejects⟩ := rejectTaskResult_spec h
    exact .inl hrejects.keepsPinned
  | requestChanges signer changesHash =>
    obtain ⟨_, _, _, _, _, -, -, -, hclaim, -, -, rfl⟩ := requestChanges_spec h
    exact .inl ⟨rfl, rfl, rfl, .overwrite hclaim _⟩
  | validateTaskResult reviewer validator approved =>
    obtain ⟨_, _, -, -, hpays | ⟨hrejects, -⟩ | ⟨_, _, -, rfl⟩⟩ := validateTaskResult_spec h
    · exact .inl hpays.keepsPinned
    · exact .inl hrejects.keepsPinned
    · exact .inl ⟨rfl, rfl, rfl, .refl _⟩
  | rejectAndFreeze signer rejectionHash =>
    obtain ⟨_, _, _, -, -, -, -, -, rfl⟩ := rejectAndFreeze_spec h
    exact .inl ⟨rfl, rfl, rfl, .refl _⟩
  | resolveRejectFrozen signers approveCompletion payees =>
    obtain ⟨_, hpays⟩ | hcancels := resolveRejectFrozen_spec h
    · exact .inl hpays.keepsPinned
    · obtain ⟨_, _, _, -, -, -, -, -, -, -, rfl⟩ := hcancels
      exact .inl ⟨rfl, rfl, rfl, .erase _ _⟩
  | expireRejectFrozen payees => exact .inl (expireRejectFrozen_spec h).keepsPinned
  | completeTask signer proofHash resultData payees =>
    obtain ⟨_, _, _, _, _, _, _, _, _, _, -, -, -, -, -, -, -, -, -, _, _, _, _, _, _, _, _, rfl⟩ :=
      completeTask_spec h
    exact .inl ⟨rfl, rfl, rfl, .erase _ _⟩
  | expireClaim caller withSubmission =>
    obtain ⟨_, _, _, _, _, _, _, h⟩ := expireClaim_spec h
    obtain ⟨_, _, _, -, -, -, -, -, -, -, -, -, -, -, -, -, rfl⟩ := h
    exact .inl ⟨rfl, rfl, rfl, .erase _ _⟩
  | distributeGhostShare payees =>
    obtain ⟨_, _, _, _, _, _, -, h⟩ := distributeGhostShare_spec h
    obtain ⟨-, -, -, -, -, -, -, -, -, -, -, -, _, _, _, _, _, _, rfl⟩ := h
    exact .inl ⟨rfl, rfl, rfl, .erase _ _⟩
  | reclaimTerminalClaim =>
    obtain ⟨_, _, _, _, -, -, -, -, -, -, -, rfl⟩ := reclaimTerminalClaim_spec h
    exact .inl ⟨rfl, rfl, rfl, .erase _ _⟩

theorem DisputeOp.run_pinned {w : World} {op : DisputeOp} {d d' : Dispute}
    (h : op.run w c d = .ok (c', d')) : KeepsPinned c.accounts c'.accounts := by
  cases op with
  | cancelDispute signer =>
    obtain ⟨_, _, -, -, -, -, -, rfl, rfl⟩ := cancelDispute_spec h
    exact ⟨rfl, rfl, rfl, .refl _⟩
  | resolveDispute signer signers withAssignment approved payees =>
    obtain ⟨claim, escrow, escrow', vault', paidRuling, book', bids', h⟩ := resolveDispute_spec h
    obtain ⟨bidder', paidBid, live, validation', closings, paidClaim, creatorSide, h⟩ := h
    obtain ⟨workerSide, -, -, -, -, -, -, -, -, -, -, -, h⟩ := h
    obtain ⟨_, _, _, _, _, _, _, -, -, rfl, rfl⟩ := h
    exact ⟨rfl, rfl, rfl, .of_ite (.erase _ _)⟩
  | expireDispute =>
    obtain ⟨claim, escrow, escrow', vault', paidRefund, live, validation', h⟩ := expireDispute_spec h
    obtain ⟨closings, penalty, book', bids', bidder', paidBid, bonds', paidBond, h⟩ := h
    obtain ⟨-, -, -, -, -, -, -, -, -, -, -, -, rfl, rfl⟩ := h
    exact ⟨rfl, rfl, rfl, .erase _ _⟩
  | settleDisputeClaim =>
    obtain ⟨claim, live, validation', closings, _, _, _, h⟩ := settleDisputeClaim_spec h
    obtain ⟨-, -, -, -, -, -, -, -, -, -, -, rfl, rfl⟩ := h
    exact ⟨rfl, rfl, rfl, .erase _ _⟩
  | applyDisputeSlash withTokenAccounts =>
    obtain ⟨claim, _, slash, escrow', vault', paidReserve, _, _, h⟩ := applyDisputeSlash_spec h
    obtain ⟨_, _, _, _, -, -, -, -, -, -, -, -, -, -, -, rfl, rfl⟩ := h
    exact ⟨rfl, rfl, rfl, .erase _ _⟩

/-- A publication is of an open task whose specification no bid book has locked; a hired task
publishes what its description commits it to. -/
theorem setTaskJobSpec_pins {signer : Pubkey} {jobSpecHash : Hash}
    (h : setTaskJobSpec c signer jobSpecHash = .ok c') :
    (c.accounts.jobSpec.getD {}).bidLocked = false ∧ jobSpecHash ≠ 0 ∧
      (c.accounts.hire.isSome = true → c.accounts.task.description.2 = jobSpecHash) ∧
      ∃ spec, c'.accounts = { c.accounts with jobSpec := some spec } ∧
        spec.jobSpecHash = jobSpecHash := by
  simp only [setTaskJobSpec, bind_eq_ok, require_eq_ok, Except.ok.injEq, TaskContext.task_eq] at h
  obtain ⟨_, -, _, hhash, _, -, _, -, _, -, _, hlock, _, hhire, rfl⟩ := h
  exact ⟨hlock, hhash, fun hsome => (hhire hsome).2, _, rfl, rfl⟩

/-- Opening a bid book locks the job specification. -/
theorem initializeBidBook_pins {signer : Pubkey} {policy : ℕ} {weights : WeightedScoreWeights}
    (h : initializeBidBook c signer policy weights = .ok c') :
    ∃ spec book, c.accounts.jobSpec = some spec ∧
      c'.accounts = { c.accounts with
        jobSpec := some { spec with bidLocked := true }
        bidBook := some book } := by
  simp only [initializeBidBook, bind_eq_ok, demand_eq_ok, Except.ok.injEq, Prod.exists] at h
  obtain ⟨_, -, _, -, spec, hspec, _, -, _, -, _, -, _, -, _, -, _, -, h⟩ := h
  obtain ⟨_, _, -, _, -, rfl⟩ := h
  exact ⟨spec, _, hspec, rfl⟩

/-- A clean-up closes the job specification or leaves it alone. -/
theorem closeTask_jobSpec {agents : Ledger Pubkey (Account AgentRegistration)} {signer : Pubkey}
    {withJobSpec withEscrow : Bool} {workerBond : Option Pubkey} {children : List TaskChild}
    (h : closeTask c agents signer withJobSpec withEscrow workerBond children = .ok c') :
    c'.accounts.jobSpec = c.accounts.jobSpec ∨ c'.accounts.jobSpec = none := by
  have hor (spec : Option TaskJobSpec) :
      (if withJobSpec = true then none else spec) = spec ∨
        (if withJobSpec = true then none else spec) = none := by
    split_ifs
    · exact .inr rfl
    · exact .inl rfl
  simp only [closeTask, bind_eq_ok] at h
  obtain ⟨_, -, _, -, _, -, _, -, _, -, h⟩ := h
  rcases ite_eq_iff.mp h with ⟨-, h⟩ | ⟨-, h⟩
  · simp only [bind_eq_ok, closeEscrow, Except.ok.injEq] at h
    obtain ⟨_, -, _, -, _, ⟨_, -, rfl⟩, h⟩ := h
    obtain ⟨_, _, _, _, -, -, -, -, rfl⟩ := closeTaskChildren_spec h
    exact hor _
  · obtain ⟨_, _, _, _, -, -, -, -, rfl⟩ := closeTaskChildren_spec h
    exact hor _

end Handlers

/-! ## One step -/

/-- How an instruction looks from what the task pins. -/
inductive PinnedMove (key : Pubkey) (acc : TaskAccounts) : Instruction → TaskAccounts → Prop
  | kept {i : Instruction} {acc' : TaskAccounts} (keeps : KeepsPinned acc acc') :
      PinnedMove key acc i acc'
  | published {signer : Pubkey} {jobSpecHash : Hash} {spec : TaskJobSpec}
      (unlocked : (acc.jobSpec.getD {}).bidLocked = false) (nonzero : jobSpecHash ≠ 0)
      (committed : acc.hire.isSome = true → acc.task.description.2 = jobSpecHash)
      (hash : spec.jobSpecHash = jobSpecHash) :
      PinnedMove key acc (.task key (.setTaskJobSpec signer jobSpecHash))
        { acc with jobSpec := some spec }
  | locked {signer : Pubkey} {policy : ℕ} {weights : WeightedScoreWeights} {spec : TaskJobSpec}
      {book : TaskBidBook} (unopened : acc.bidBook = none) (loaded : acc.jobSpec = some spec) :
      PinnedMove key acc (.task key (.initializeBidBook signer policy weights))
        { acc with
          jobSpec := some { spec with bidLocked := true }
          bidBook := some book }
  | assigned {k : Pubkey} {op : WorkOp} {acc' : TaskAccounts} (assigns : op.assigns = true)
      (pinned : AssignsPinned k acc acc') : PinnedMove key acc (.work key k op) acc'
  | swept {signer : Pubkey} {withJobSpec withEscrow : Bool} {workerBond : Option Pubkey}
      {children : List TaskChild} {acc' : TaskAccounts} (finished : acc.task.status.isFinished)
      (same : acc'.task = acc.task) (claims : acc'.claims = acc.claims)
      (closes : acc'.hire = none) (jobSpec : acc'.jobSpec = acc.jobSpec ∨ acc'.jobSpec = none) :
      PinnedMove key acc (.closeTask key signer withJobSpec withEscrow workerBond children) acc'

/-- Every instruction on a task, seen from what the task pins. -/
theorem TaskMove.pinned {w : World} {key : Pubkey} {acc acc' : TaskAccounts} {i : Instruction}
    {ts : List Transfer} (h : TaskMove w key acc i acc' ts) : PinnedMove key acc i acc' := by
  cases h with
  | donated credits =>
    cases credits with
    | claim loaded => exact .kept ⟨rfl, rfl, rfl, .overwrite loaded _⟩
    | escrow loaded => exact .kept ⟨rfl, rfl, rfl, .refl _⟩
    | tokenEscrow loaded => exact .kept ⟨rfl, rfl, rfl, .refl _⟩
    | submission loaded => exact .kept ⟨rfl, rfl, rfl, .refl _⟩
    | bond loaded => exact .kept ⟨rfl, rfl, rfl, .refl _⟩
    | bid loaded => exact .kept ⟨rfl, rfl, rfl, .refl _⟩
  | @task op c ran =>
    cases op with
    | configureTaskValidation signer mode reviewWindowSecs validatorQuorum attestor =>
      have ran : configureTaskValidation (w.taskContext key acc) signer mode reviewWindowSecs
        validatorQuorum attestor = .ok c := ran
      obtain ⟨_, -, -, -, -, -, rfl⟩ := configureTaskValidation_spec ran
      exact .kept ⟨rfl, rfl, rfl, .refl _⟩
    | setTaskJobSpec signer jobSpecHash =>
      obtain ⟨hlock, hnonzero, hcommitted, spec, hacc, hhash⟩ := setTaskJobSpec_pins ran
      rw [hacc]
      exact .published hlock hnonzero hcommitted hhash
    | initializeBidBook signer policy weights =>
      obtain ⟨spec, book, hspec, hacc⟩ := initializeBidBook_pins ran
      obtain ⟨_, _, -, -, hnone, -, -⟩ := initializeBidBook_spec ran
      rw [hacc]
      exact .locked hnone hspec
    | postCreatorBond signer prefunded =>
      have ran : postCompletionBond (w.taskContext key acc) signer .Creator prefunded = .ok c := ran
      obtain ⟨_, -, -, -, -, -, -, -, -, rfl⟩ := postCompletionBond_spec ran
      exact .kept ⟨rfl, rfl, rfl, .refl _⟩
    | reclaimCompletionBond party role =>
      obtain ⟨-, rfl⟩ := reclaimCompletionBond_spec ran
      exact .kept ⟨rfl, rfl, rfl, .refl _⟩
  | work found ran rent =>
    rcases WorkOp.run_pinned ran with hkeeps | ⟨hassigns, hpinned⟩
    · exact .kept hkeeps
    · exact .assigned hassigns hpinned
  | cancelled listed ran =>
    obtain ⟨-, haccounts, -⟩ := listed_context listed
    obtain ⟨_, _, _, _, _, _, _, h⟩ := cancelTask_spec ran
    obtain ⟨_, _, claims', _, _, _, -, -, -, -, -, -, -, hclaims, h⟩ := h
    obtain ⟨-, -, -, -, -, -, -, -, -, rfl⟩ := h
    rw [← haccounts]
    refine .kept ⟨rfl, rfl, rfl, fun k hk => ?_⟩
    change claims'.lookup k = none
    rw [hclaims]
    split_ifs
    · rfl
    · exact hk
  | closed ran =>
    have hclosed := ran
    obtain ⟨_, _, _, _, _, h⟩ := closeTask_spec ran
    obtain ⟨_, _, hstatus, -, -, -, -, -, -, -, rfl⟩ := h
    exact .swept hstatus rfl rfl rfl (closeTask_jobSpec hclosed)
  | disputed opens => exact .kept ⟨rfl, rfl, rfl, .refl _⟩
  | ruled found filed about ran rent => exact .kept (DisputeOp.run_pinned ran)

/-! ## Creation -/

/-- The listing a creating instruction hires from, and the job specification it commits to. -/
def CreateOp.hires : CreateOp → Option (ServiceListing × Hash)
  | .hireFromListing _ listing _ taskJobSpecHash _ _ _ _ => some (listing, taskJobSpecHash)
  | .hireFromListingHumanless listing _ taskJobSpecHash _ _ _ _ _ => some (listing, taskJobSpecHash)
  | _ => none

/-- What a new task pins: nothing, or a hire's commitments to the listing and to the work. -/
structure FreshPins (op : CreateOp) (acc : TaskAccounts) : Prop where
  jobSpec : acc.jobSpec = none
  direct : op.hires = none → acc.hire = none
  hired : ∀ listing taskJobSpecHash, op.hires = some (listing, taskJobSpecHash) →
    (∃ hire, acc.hire = some hire ∧ hire.listing = listing.key) ∧ listing.specHash ≠ 0 ∧
      taskJobSpecHash ≠ 0 ∧ acc.task.description = (listing.specHash, taskJobSpecHash)

theorem hireFromListingCore_pins {w : World} {key creator : Pubkey} {listing : ServiceListing}
    {taskId taskJobSpecHash : Hash} {expectedPrice expectedVersion : ℕ}
    {referrer : Option Pubkey} {referrerFeeBps : ℕ} {useQuota : Bool}
    {throttle : CreationThrottle} {task : Task} {hire : HireRecord}
    (h : hireFromListingCore w key creator listing taskId taskJobSpecHash expectedPrice
      expectedVersion referrer referrerFeeBps useQuota = .ok (throttle, task, hire)) :
    hire.listing = listing.key ∧ listing.specHash ≠ 0 ∧ taskJobSpecHash ≠ 0 ∧
      task.description = (listing.specHash, taskJobSpecHash) := by
  simp only [hireFromListingCore, initTaskFields, bind_eq_ok, require_eq_ok, Prod.exists,
    Except.ok.injEq, Prod.mk.injEq] at h
  obtain ⟨_, -, _, -, _, -, _, -, _, -, _, hspec, _, hwork, h⟩ := h
  obtain ⟨_, -, _, ⟨_, -, _, -, _, -, rfl⟩, _, -, _, _, -, _, -, -, rfl, rfl⟩ := h
  exact ⟨rfl, hspec, hwork, rfl⟩

theorem storeNewTask_stores {w w' : World} {key authority : Pubkey} {throttle : CreationThrottle}
    {accounts : TaskAccounts} (h : storeNewTask w key authority throttle accounts = .ok w') :
    w'.tasks.lookup key = some accounts := by
  simp only [storeNewTask, bind_eq_ok, Except.ok.injEq] at h
  obtain ⟨_, -, rfl⟩ := h
  exact AList.lookup_insert _

theorem CreateOp.pins {w w' : World} {key creator : Pubkey} {useQuota : Bool} {pre : Prefunding}
    {op : CreateOp} (h : op.run w key creator useQuota pre = .ok w') :
    ∃ acc, w'.tasks.lookup key = some acc ∧ FreshPins op acc := by
  cases op with
  | createTask creatorAgent params constraintHash referrer referrerFeeBps =>
    simp only [CreateOp.run, AgencCoordination.createTask, bind_eq_ok, Prod.exists] at h
    obtain ⟨_, -, _, -, _, -, _, -, _, -, _, -, _, -, _, -, h⟩ := h
    obtain ⟨_, -, _, -, _, -, _, -, _, -, _, -, _, _, -, _, -, _, -, h⟩ := h
    exact ⟨_, storeNewTask_stores h, rfl, fun _ => rfl, by simp [CreateOp.hires]⟩
  | createDependentTask creatorAgent parent params constraintHash dependencyType =>
    simp only [CreateOp.run, AgencCoordination.createDependentTask, bind_eq_ok] at h
    obtain ⟨_, -, _, -, _, -, _, -, _, -, _, -, _, -, _, -, h⟩ := h
    obtain ⟨_, -, _, -, _, -, _, -, _, -, _, -, _, -, _, -, _, -, _, -, _, -, h⟩ := h
    exact ⟨_, storeNewTask_stores h, rfl, fun _ => rfl, by simp [CreateOp.hires]⟩
  | createTaskHumanless params reviewWindowSecs referrer referrerFeeBps =>
    simp only [CreateOp.run, AgencCoordination.createTaskHumanless, bind_eq_ok, Prod.exists] at h
    obtain ⟨_, -, _, -, _, -, _, -, _, -, _, -, _, -, _, -, h⟩ := h
    obtain ⟨_, -, _, -, _, _, -, _, -, h⟩ := h
    exact ⟨_, storeNewTask_stores h, rfl, fun _ => rfl, by simp [CreateOp.hires]⟩
  | hireFromListing creatorAgent listing taskId taskJobSpecHash price version referrer bps =>
    simp only [CreateOp.run, AgencCoordination.hireFromListing, bind_eq_ok, Prod.exists] at h
    obtain ⟨_, -, _, -, _, -, _, -, _, -, _, -, throttle, task, hire, hcore, h⟩ := h
    obtain ⟨hlisting, hspec, hwork, hdescription⟩ := hireFromListingCore_pins hcore
    refine ⟨_, storeNewTask_stores h, rfl, by simp [CreateOp.hires], ?_⟩
    intro listing' hash' hhires
    obtain ⟨rfl, rfl⟩ := Prod.mk.inj (Option.some.inj hhires)
    exact ⟨⟨hire, rfl, hlisting⟩, hspec, hwork, hdescription⟩
  | hireFromListingHumanless listing taskId taskJobSpecHash price version window referrer bps =>
    simp only [CreateOp.run, AgencCoordination.hireFromListingHumanless, bind_eq_ok,
      Prod.exists] at h
    obtain ⟨_, -, _, -, _, -, _, -, throttle, task, hire, hcore, h⟩ := h
    obtain ⟨hlisting, hspec, hwork, hdescription⟩ := hireFromListingCore_pins hcore
    refine ⟨_, storeNewTask_stores h, rfl, by simp [CreateOp.hires], ?_⟩
    intro listing' hash' hhires
    obtain ⟨rfl, rfl⟩ := Prod.mk.inj (Option.some.inj hhires)
    exact ⟨⟨hire, rfl, hlisting⟩, hspec, hwork, hdescription⟩

end AgencCoordination
