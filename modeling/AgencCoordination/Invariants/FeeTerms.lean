import AgencCoordination.Invariants.Fees
import AgencCoordination.Invariants.Goods
import AgencCoordination.Invariants.WorkTerms

/-!
# Fee terms that settle

What a task's creation checks of its fees is all a settlement of it asks.

* **`FeesSettleable`** — the terms snapshotted on a task name payees that can be paid, under the
  combined cap.
* **`CreateOp.fees`** — every creation leaves such terms, and a hire does because its listing has
  a payee for its fee.
* **`FeesSettleable.legs`, `FeesSettleable.split`** — with such terms the legs are built and the
  split of any price succeeds.
* **`fee_terms_settle`** — so in every run, whatever happens to the protocol's configuration.
-/

namespace AgencCoordination

open Foundations

/-! ## The terms of a task -/

/-- The fee terms of a task, as its creation checks them. -/
structure FeesSettleable (sys : Sysvars) (key : Pubkey) (acc : TaskAccounts) : Prop where
  hire : ∀ hire, acc.hire = some hire →
    (⟨hire.operator, hire.operatorFeeBps, hire.referrer, hire.referrerFeeBps⟩ : MarketplaceTerms) =
      acc.task.marketplaceTerms
  operatorNamed : acc.task.operator = 0 → acc.task.operatorFeeBps = 0
  referrerNamed : acc.task.referrer = 0 → acc.task.referrerFeeBps = 0
  destinations : validateMarketplacePayeeDestinations sys key acc.task.creator acc.task.operator
    acc.task.operatorFeeBps acc.task.referrer acc.task.referrerFeeBps = .ok ()
  operatorCap : acc.task.operatorFeeBps ≤ maxOperatorFeeBps
  referrerCap : acc.task.referrerFeeBps ≤ maxReferrerFeeBps
  combined : acc.task.protocolFeeBps + acc.task.operatorFeeBps + acc.task.referrerFeeBps ≤
    maxCombinedFeeBps
  solOnly : acc.task.rewardMint ≠ none →
    acc.task.operatorFeeBps = 0 ∧ acc.task.referrerFeeBps = 0

/-- A settlement resolves the terms on the task, with the hire record or without. -/
theorem FeesSettleable.resolve {sys : Sysvars} {key : Pubkey} {acc : TaskAccounts}
    (h : FeesSettleable sys key acc) :
    resolveTaskMarketplaceTerms acc = acc.task.marketplaceTerms := by
  unfold resolveTaskMarketplaceTerms
  split_ifs with hnamed
  · rfl
  · obtain ⟨hoperator, hreferrer⟩ := not_or.mp hnamed
    have hoperator : acc.task.operator = 0 := not_not.mp hoperator
    have hreferrer : acc.task.referrer = 0 := not_not.mp hreferrer
    cases hhire : acc.hire with
    | some hire => exact h.hire hire hhire
    | none =>
      change (⟨0, 0, 0, 0⟩ : MarketplaceTerms) = acc.task.marketplaceTerms
      rw [Task.marketplaceTerms, hoperator, hreferrer, h.operatorNamed hoperator,
        h.referrerNamed hreferrer]

/-! ## Creation -/

/-- The operator terms a listing may have. -/
def OffersOperator (operator : Pubkey) (operatorFeeBps : ℕ) : Prop :=
  operatorFeeBps ≤ maxOperatorFeeBps ∧ (operatorFeeBps = 0 ∨ operator ≠ 0)

/-- A snapshot of referrer terms is empty, or under both caps with a payee. -/
theorem resolveReferrerSnapshot_spec {referrer : Option Pubkey}
    {referrerFeeBps protocolFeeBps operatorFeeBps : ℕ} {creator : Pubkey} {r : Pubkey × ℕ}
    (h : resolveReferrerSnapshot referrer referrerFeeBps protocolFeeBps operatorFeeBps creator
      = .ok r)
    (hprotocol : protocolFeeBps ≤ 2000) (hoperator : operatorFeeBps ≤ maxOperatorFeeBps) :
    (r.1 = 0 → r.2 = 0) ∧ r.2 ≤ maxReferrerFeeBps ∧
      protocolFeeBps + operatorFeeBps + r.2 ≤ maxCombinedFeeBps := by
  unfold resolveReferrerSnapshot at h
  dsimp only at h
  split_ifs at h with hnone
  · simp only [require_bind_eq_ok, Except.ok.injEq] at h
    obtain ⟨-, rfl⟩ := h
    refine ⟨fun _ => rfl, Nat.zero_le _, ?_⟩
    simp only [maxOperatorFeeBps, maxCombinedFeeBps] at *
    omega
  · simp only [require_bind_eq_ok, Except.ok.injEq] at h
    obtain ⟨hcap, hcombined, -, rfl⟩ := h
    exact ⟨fun hzero => absurd (.inl hzero) hnone, hcap, hcombined⟩

/-- What a new task takes from its parameters. -/
theorem initTaskFields_fees {p : TaskParams} {creator : Pubkey} {protocolFeeBps : ℕ} {now : ℤ}
    {task : Task} (h : initTaskFields p creator protocolFeeBps now = .ok task) :
    task.creator = creator ∧ task.rewardMint = p.rewardMint ∧
      task.fees = ⟨protocolFeeBps, 0, 0, 0, 0⟩ := by
  simp only [initTaskFields, bind_eq_ok, Except.ok.injEq] at h
  obtain ⟨_, -, _, -, _, -, rfl⟩ := h
  exact ⟨rfl, rfl, rfl⟩

/-- A task with only a referrer, or with nobody to pay. -/
theorem FeesSettleable.of_direct {sys : Sysvars} {key creator referrer : Pubkey}
    {referrerFeeBps protocolFeeBps : ℕ} {acc : TaskAccounts} (hhire : acc.hire = none)
    (hcreator : acc.task.creator = creator)
    (hfees : acc.task.fees = ⟨protocolFeeBps, 0, 0, referrer, referrerFeeBps⟩)
    (hnamed : referrer = 0 → referrerFeeBps = 0) (hcap : referrerFeeBps ≤ maxReferrerFeeBps)
    (hcombined : protocolFeeBps + 0 + referrerFeeBps ≤ maxCombinedFeeBps)
    (hmint : referrerFeeBps = 0 ∨ acc.task.rewardMint = none)
    (hpayable : validateMarketplacePayeeDestinations sys key creator 0 0 referrer referrerFeeBps
      = .ok ()) : FeesSettleable sys key acc := by
  have hprotocol : acc.task.protocolFeeBps = protocolFeeBps := congrArg TaskFees.protocolFeeBps hfees
  have hoperator : acc.task.operator = 0 := congrArg TaskFees.operator hfees
  have hoperatorFee : acc.task.operatorFeeBps = 0 := congrArg TaskFees.operatorFeeBps hfees
  have hreferrer : acc.task.referrer = referrer := congrArg TaskFees.referrer hfees
  have hreferrerFee : acc.task.referrerFeeBps = referrerFeeBps :=
    congrArg TaskFees.referrerFeeBps hfees
  constructor
  · intro hire hsome
    rw [hhire] at hsome
    cases hsome
  · exact fun _ => hoperatorFee
  · rw [hreferrer, hreferrerFee]
    exact hnamed
  · rw [hcreator, hoperator, hoperatorFee, hreferrer, hreferrerFee]
    exact hpayable
  · rw [hoperatorFee]
    exact Nat.zero_le _
  · rw [hreferrerFee]
    exact hcap
  · rw [hprotocol, hoperatorFee, hreferrerFee]
    exact hcombined
  · intro htoken
    exact ⟨hoperatorFee, by rw [hreferrerFee]; exact hmint.resolve_right htoken⟩

/-- Both hires snapshot terms that settle, from a listing whose fee has a payee. -/
theorem hireFromListingCore_fees {w : World} {key creator : Pubkey} {listing : ServiceListing}
    {taskId taskJobSpecHash : Hash} {expectedPrice expectedVersion : ℕ}
    {referrer : Option Pubkey} {referrerFeeBps : ℕ} {useQuota : Bool}
    {throttle : CreationThrottle} {task : Task} {hire : HireRecord} {acc : TaskAccounts}
    (h : hireFromListingCore w key creator listing taskId taskJobSpecHash expectedPrice
      expectedVersion referrer referrerFeeBps useQuota = .ok (throttle, task, hire))
    (hprotocol : w.config.protocolFeeBps ≤ 2000)
    (hoffers : OffersOperator listing.operator listing.operatorFeeBps)
    (hcreator : acc.task.creator = task.creator) (hfees : acc.task.fees = task.fees)
    (hmint : acc.task.rewardMint = task.rewardMint) (hhire : acc.hire = some hire) :
    FeesSettleable w.sys key acc := by
  simp only [hireFromListingCore, bind_eq_ok, Prod.exists, Except.ok.injEq, Prod.mk.injEq] at h
  obtain ⟨_, -, _, -, _, -, _, -, _, -, _, -, _, -, _, -, created, hcreated, h⟩ := h
  obtain ⟨_, -, referrerKey, referrerBps, hreferrer, _, hpayable, -, rfl, rfl⟩ := h
  obtain ⟨hcreatedBy, hcreatedMint, hcreatedFees⟩ := initTaskFields_fees hcreated
  have hoperatorBps : (if listing.operator ≠ 0 then listing.operatorFeeBps else 0) =
      listing.operatorFeeBps := by
    split_ifs with hnamed
    · rfl
    · exact (hoffers.2.resolve_right hnamed).symm
  rw [hoperatorBps] at hreferrer hpayable hfees
  obtain ⟨hnamed, hcap, hcombined⟩ := resolveReferrerSnapshot_spec hreferrer hprotocol hoffers.1
  have hprotocolFee : acc.task.protocolFeeBps = w.config.protocolFeeBps :=
    (congrArg TaskFees.protocolFeeBps hfees).trans (congrArg TaskFees.protocolFeeBps hcreatedFees)
  have hoperator : acc.task.operator = listing.operator := congrArg TaskFees.operator hfees
  have hoperatorFee : acc.task.operatorFeeBps = listing.operatorFeeBps :=
    congrArg TaskFees.operatorFeeBps hfees
  have hreferrerKey : acc.task.referrer = referrerKey := congrArg TaskFees.referrer hfees
  have hreferrerFee : acc.task.referrerFeeBps = referrerBps :=
    congrArg TaskFees.referrerFeeBps hfees
  constructor
  · intro stored hstored
    obtain rfl := Option.some.inj (hhire.symm.trans hstored)
    rw [Task.marketplaceTerms, hoperator, hoperatorFee, hreferrerKey, hreferrerFee]
  · rw [hoperator, hoperatorFee]
    exact fun hzero => hoffers.2.resolve_right (not_not.mpr hzero)
  · rw [hreferrerKey, hreferrerFee]
    exact hnamed
  · rw [hcreator, hcreatedBy, hoperator, hoperatorFee, hreferrerKey, hreferrerFee]
    exact hpayable
  · rw [hoperatorFee]
    exact hoffers.1
  · rw [hreferrerFee]
    exact hcap
  · rw [hprotocolFee, hoperatorFee, hreferrerFee]
    exact hcombined
  · intro htoken
    rw [hmint] at htoken
    exact absurd hcreatedMint htoken

/-- Every creation leaves fee terms that settle. -/
theorem CreateOp.fees {w w' : World} {key creator : Pubkey} {useQuota : Bool} {pre : Prefunding}
    {op : CreateOp} (h : op.run w key creator useQuota pre = .ok w')
    (hprotocol : w.config.protocolFeeBps ≤ 2000)
    (hoffers : ∀ listing taskJobSpecHash, op.hires = some (listing, taskJobSpecHash) →
      OffersOperator listing.operator listing.operatorFeeBps) :
    ∃ acc, w'.tasks.lookup key = some acc ∧ FeesSettleable w.sys key acc := by
  cases op with
  | createTask creatorAgent params constraintHash referrer referrerFeeBps =>
    simp only [CreateOp.run, AgencCoordination.createTask, bind_eq_ok, require_eq_ok,
      Prod.exists] at h
    obtain ⟨_, -, _, -, _, -, _, -, _, -, _, -, _, -, _, -, h⟩ := h
    obtain ⟨_, -, _, -, _, -, _, -, throttle, -, task, htask, h⟩ := h
    obtain ⟨referrerKey, referrerBps, hreferrer, _, hmint, _, hpayable, h⟩ := h
    obtain ⟨hby, htaskMint, hfees⟩ := initTaskFields_fees htask
    obtain ⟨hnamed, hcap, hcombined⟩ := resolveReferrerSnapshot_spec hreferrer hprotocol
      (Nat.zero_le _)
    refine ⟨_, storeNewTask_stores h, .of_direct rfl hby ?_ hnamed hcap hcombined ?_ hpayable⟩
    · change (⟨task.protocolFeeBps, task.operator, task.operatorFeeBps, referrerKey,
        referrerBps⟩ : TaskFees) = _
      rw [show task.protocolFeeBps = w.config.protocolFeeBps from
          congrArg TaskFees.protocolFeeBps hfees,
        show task.operator = 0 from congrArg TaskFees.operator hfees,
        show task.operatorFeeBps = 0 from congrArg TaskFees.operatorFeeBps hfees]
    · exact hmint.imp_right htaskMint.trans
  | createDependentTask creatorAgent parent params constraintHash dependencyType =>
    simp only [CreateOp.run, AgencCoordination.createDependentTask, bind_eq_ok] at h
    obtain ⟨_, -, _, -, _, -, _, -, _, -, _, -, _, -, _, -, h⟩ := h
    obtain ⟨_, -, _, -, _, -, _, -, _, -, _, -, _, -, _, -, _, -, _, -, task, htask, h⟩ := h
    obtain ⟨hby, htaskMint, hfees⟩ := initTaskFields_fees htask
    refine ⟨_, storeNewTask_stores h, .of_direct rfl hby hfees (fun _ => rfl) (Nat.zero_le _) ?_
      (.inl rfl) rfl⟩
    simp only [maxCombinedFeeBps]
    omega
  | createTaskHumanless params reviewWindowSecs referrer referrerFeeBps =>
    simp only [CreateOp.run, AgencCoordination.createTaskHumanless, bind_eq_ok, Prod.exists] at h
    obtain ⟨_, -, _, -, _, -, _, -, _, -, _, -, _, -, _, -, h⟩ := h
    obtain ⟨throttle, -, task, htask, referrerKey, referrerBps, hreferrer, _, hpayable, h⟩ := h
    obtain ⟨hby, htaskMint, hfees⟩ := initTaskFields_fees htask
    obtain ⟨hnamed, hcap, hcombined⟩ := resolveReferrerSnapshot_spec hreferrer hprotocol
      (Nat.zero_le _)
    refine ⟨_, storeNewTask_stores h, .of_direct rfl hby ?_ hnamed hcap hcombined ?_ hpayable⟩
    · change (⟨task.protocolFeeBps, task.operator, task.operatorFeeBps, referrerKey,
        referrerBps⟩ : TaskFees) = _
      rw [show task.protocolFeeBps = w.config.protocolFeeBps from
          congrArg TaskFees.protocolFeeBps hfees,
        show task.operator = 0 from congrArg TaskFees.operator hfees,
        show task.operatorFeeBps = 0 from congrArg TaskFees.operatorFeeBps hfees]
    · exact .inr htaskMint
  | hireFromListing creatorAgent listing taskId taskJobSpecHash price version referrer bps =>
    simp only [CreateOp.run, AgencCoordination.hireFromListing, bind_eq_ok, Prod.exists] at h
    obtain ⟨_, -, _, -, _, -, _, -, _, -, _, -, throttle, task, hire, hcore, h⟩ := h
    exact ⟨_, storeNewTask_stores h, hireFromListingCore_fees hcore hprotocol
      (hoffers listing taskJobSpecHash rfl) rfl rfl rfl rfl⟩
  | hireFromListingHumanless listing taskId taskJobSpecHash price version window referrer bps =>
    simp only [CreateOp.run, AgencCoordination.hireFromListingHumanless, bind_eq_ok,
      Prod.exists] at h
    obtain ⟨_, -, _, -, _, -, _, -, throttle, task, hire, hcore, h⟩ := h
    exact ⟨_, storeNewTask_stores h, hireFromListingCore_fees hcore hprotocol
      (hoffers listing taskJobSpecHash rfl) rfl rfl rfl rfl⟩

/-! ## Steps -/

/-- An instruction keeps the fees of a task, and its hire record unless it closes it. -/
theorem TaskMove.fees {w : World} {key : Pubkey} {acc acc' : TaskAccounts} {i : Instruction}
    {ts : List Transfer} (h : TaskMove w key acc i acc' ts) :
    acc'.task.fees = acc.task.fees ∧ (acc'.hire = acc.hire ∨ acc'.hire = none) := by
  rcases h.review with hkeeps | ⟨signer, mode, window, quorum, attestor, c, ran, rfl⟩
  · exact ⟨hkeeps.fees, hkeeps.hire.imp_right And.left⟩
  · obtain ⟨-, -, -, -, _, -, -, hfees, hhire⟩ := configureTaskValidation_review ran
    exact ⟨hfees, .inl hhire⟩

theorem FeesSettleable.keep {sys sys' : Sysvars} {key : Pubkey} {acc acc' : TaskAccounts}
    (h : FeesSettleable sys key acc) (hfees : acc'.task.fees = acc.task.fees)
    (hhire : acc'.hire = acc.hire ∨ acc'.hire = none)
    (hcreator : acc'.task.creator = acc.task.creator)
    (hmint : acc'.task.rewardMint = acc.task.rewardMint)
    (hsys : ∃ now, sys' = { sys with now := now }) : FeesSettleable sys' key acc' := by
  obtain ⟨now, rfl⟩ := hsys
  have hprotocol : acc'.task.protocolFeeBps = acc.task.protocolFeeBps :=
    congrArg TaskFees.protocolFeeBps hfees
  have hoperator : acc'.task.operator = acc.task.operator := congrArg TaskFees.operator hfees
  have hoperatorFee : acc'.task.operatorFeeBps = acc.task.operatorFeeBps :=
    congrArg TaskFees.operatorFeeBps hfees
  have hreferrer : acc'.task.referrer = acc.task.referrer := congrArg TaskFees.referrer hfees
  have hreferrerFee : acc'.task.referrerFeeBps = acc.task.referrerFeeBps :=
    congrArg TaskFees.referrerFeeBps hfees
  constructor
  · intro hire hsome
    rw [Task.marketplaceTerms, hoperator, hoperatorFee, hreferrer, hreferrerFee]
    rcases hhire with hsame | hnone
    · rw [hsame] at hsome
      exact h.hire hire hsome
    · rw [hnone] at hsome
      cases hsome
  · rw [hoperator, hoperatorFee]
    exact h.operatorNamed
  · rw [hreferrer, hreferrerFee]
    exact h.referrerNamed
  · rw [hcreator, hoperator, hoperatorFee, hreferrer, hreferrerFee]
    exact h.destinations
  · rw [hoperatorFee]
    exact h.operatorCap
  · rw [hreferrerFee]
    exact h.referrerCap
  · rw [hprotocol, hoperatorFee, hreferrerFee]
    exact h.combined
  · rw [hmint, hoperatorFee, hreferrerFee]
    exact h.solOnly

/-- The terms of a task settle after a step as before it. -/
theorem Step.feesSettleable {w w' : World} {i : Instruction} {ts : List Transfer}
    (h : Step w (i, ts) w') {key : Pubkey} {acc : TaskAccounts}
    (hacc : w.tasks.lookup key = some acc) (hs : FeesSettleable w.sys key acc) :
    ∃ acc', w'.tasks.lookup key = some acc' ∧ acc'.task.fees = acc.task.fees ∧
      FeesSettleable w'.sys key acc' := by
  obtain ⟨now, -, hsys⟩ := h.sys
  cases h.task key with
  | apart same unpaid =>
    exact ⟨acc, same.trans hacc, rfl, hs.keep rfl (.inl rfl) rfl rfl ⟨now, hsys⟩⟩
  | created new stored fresh unpaid =>
    rw [new] at hacc
    cases hacc
  | @moved acc₀ acc' loaded stored move =>
    obtain rfl : acc = acc₀ := Option.some.inj (hacc.symm.trans loaded)
    obtain ⟨hfees, hhire⟩ := move.fees
    have hterms := move.terms.terms
    exact ⟨acc', stored, hfees, hs.keep hfees hhire (congrArg TaskTerms.creator hterms)
      (congrArg TaskTerms.rewardMint hterms) ⟨now, hsys⟩⟩

/-- The bound of the protocol fee is checked where it is set. -/
theorem AdminOp.protocolFee {w w' : World} {signers : List Pubkey} {op : AdminOp}
    (h : op.run w signers = .ok w') (hfee : w.config.protocolFeeBps ≤ 2000) :
    w'.config.protocolFeeBps ≤ 2000 := by
  cases op with
  | updateProtocolFee protocolFeeBps =>
    simp only [AdminOp.run, AgencCoordination.updateProtocolFee, bind_eq_ok, require_eq_ok,
      Except.ok.injEq] at h
    obtain ⟨_, hbound, _, -, rfl⟩ := h
    exact hbound
  | updateTreasury newTreasury =>
    simp only [AdminOp.run, AgencCoordination.updateTreasury, bind_eq_ok, Except.ok.injEq] at h
    obtain ⟨_, -, _, -, _, -, rfl⟩ := h
    exact hfee
  | updateLaunchControls paused mask revision =>
    simp only [AdminOp.run, AgencCoordination.updateLaunchControls, bind_eq_ok,
      Except.ok.injEq] at h
    obtain ⟨_, -, _, -, rfl⟩ := h
    exact hfee
  | updateRateLimits taskCooldown maxTasks disputeCooldown maxDisputes minStake =>
    simp only [AdminOp.run, AgencCoordination.updateRateLimits, bind_eq_ok, Except.ok.injEq] at h
    obtain ⟨_, -, _, -, _, -, _, -, _, -, rfl⟩ := h
    exact hfee
  | configureTaskCreationQuota taskAuthority maxTasks enabled =>
    simp only [AdminOp.run, AgencCoordination.configureTaskCreationQuota, bind_eq_ok,
      Except.ok.injEq] at h
    obtain ⟨_, -, _, -, _, -, _, -, _, -, rfl⟩ := h
    exact hfee
  | initializeBidMarketplace config =>
    simp only [AdminOp.run, AgencCoordination.initializeBidMarketplace, bind_eq_ok,
      Except.ok.injEq] at h
    obtain ⟨_, -, _, -, _, -, _, -, rfl⟩ := h
    exact hfee
  | updateBidMarketplaceConfig config =>
    simp only [AdminOp.run, AgencCoordination.updateBidMarketplaceConfig, bind_eq_ok,
      Except.ok.injEq] at h
    obtain ⟨_, -, _, -, _, -, _, -, rfl⟩ := h
    exact hfee
  | assignDisputeResolver resolver =>
    simp only [AdminOp.run, AgencCoordination.assignDisputeResolver, bind_eq_ok,
      Except.ok.injEq] at h
    obtain ⟨_, -, _, -, rfl⟩ := h
    exact hfee
  | revokeDisputeResolver resolver =>
    simp only [AdminOp.run, AgencCoordination.revokeDisputeResolver, bind_eq_ok,
      Except.ok.injEq] at h
    obtain ⟨_, -, _, -, rfl⟩ := h
    exact hfee

theorem SameProtocol.protocolFeeBps {config config' : ProtocolConfig}
    (h : SameProtocol config config') : config'.protocolFeeBps = config.protocolFeeBps := by
  obtain ⟨_, _, rfl⟩ := h
  rfl

/-- The protocol fee stays within its bound. -/
theorem Step.protocolFee {w w' : World} {i : Instruction} {ts : List Transfer}
    (h : Step w (i, ts) w') (hfee : w.config.protocolFeeBps ≤ 2000) :
    w'.config.protocolFeeBps ≤ 2000 := by
  have hkept {config' : ProtocolConfig} (hsame : SameProtocol w.config config') :
      config'.protocolFeeBps ≤ 2000 := by
    rw [hsame.protocolFeeBps]
    exact hfee
  cases h.does with
  | ticked later => exact hfee
  | donatedAgent outside credits => exact hfee
  | donatedTask inside loaded credits => exact hfee
  | administered ran => exact AdminOp.protocolFee ran hfee
  | agent ran =>
    obtain ⟨⟨_, _, -, rfl⟩, -⟩ := AgentOp.run_spec ran
    exact hfee
  | created ran =>
    obtain ⟨-, _, _, _, _, -, rfl⟩ := CreateOp.run_spec ran
    exact hfee
  | task loaded ran => exact hkept (TaskOp.run_frames ran).config
  | work loaded found ran rent => exact hkept (WorkOp.run_frames ran).config
  | cancelled loaded listed ran =>
    have hconfig := (cancelTask_frames ran).config
    obtain ⟨-, -, -, hbase, -, -⟩ := listed_context listed
    rw [hbase] at hconfig
    exact hkept hconfig
  | closed loaded ran => exact hkept (closeTask_frames ran).config
  | disputed ran =>
    obtain ⟨_, _, _, _, -, -, -, -, -, -, -, -, -, -, -, rfl⟩ := initiateDispute_spec ran
    exact hfee
  | ruled loaded found filed about ran rent => exact hkept (DisputeOp.run_frames ran).1.config
  | finalized ran =>
    obtain ⟨_, _, _, _, -, -, -, -, -, -, -, -, -, rfl⟩ := applyInitiatorSlash_spec ran
    exact hfee
  | repaired ran =>
    obtain ⟨_, _, -, -, -, -, -, -, rfl⟩ := repairDisputeInitiatorCounter_spec ran
    exact hfee

/-- The protocol fee of a reachable world is within its bound. -/
theorem Reachable.protocolFee {w : World} (h : Reachable w) : w.config.protocolFeeBps ≤ 2000 :=
  h.induct (I := fun w => w.config.protocolFeeBps ≤ 2000) (fun _ hg => hg.protocolFeeBps)
    fun _ _ _ _ hs hfee => Step.protocolFee hs hfee

/-! ## Listings -/

theorem validateOperatorFeeInvariant_spec {operator : Pubkey} {operatorFeeBps : ℕ} {u : Unit}
    (h : validateOperatorFeeInvariant operator operatorFeeBps = .ok u) :
    OffersOperator operator operatorFeeBps := by
  simp only [validateOperatorFeeInvariant, bind_eq_ok, require_eq_ok] at h
  obtain ⟨_, hcap, hnamed⟩ := h
  exact ⟨hcap, hnamed⟩

/-- Every listing has operator terms within its bounds. -/
def ListingsOffer (m : Market) : Prop :=
  ∀ key stored, m.listings.lookup key = some stored →
    OffersOperator stored.operator stored.operatorFeeBps

theorem ListingsOffer.insert {m : Market} (h : ListingsOffer m) {key : Pubkey}
    {stored : ServiceListingAccount} (hs : OffersOperator stored.operator stored.operatorFeeBps) :
    ∀ k listing, (m.listings.insert key stored).lookup k = some listing →
      OffersOperator listing.operator listing.operatorFeeBps := by
  intro k listing hlisting
  rw [Ledger.lookup_insert_eq_ite] at hlisting
  split_ifs at hlisting
  · obtain rfl := Option.some.inj hlisting
    exact hs
  · exact h k listing hlisting

/-- An instruction on a listing checks the terms it leaves behind, or does not touch them. -/
theorem ListingOp.offers {m : Market} {key : Pubkey} {op : ListingOp}
    {stored : ServiceListingAccount} (h : op.run m key = .ok stored) (hm : ListingsOffer m) :
    OffersOperator stored.operator stored.operatorFeeBps := by
  cases op with
  | create provider signer params =>
    simp only [ListingOp.run, createServiceListing, bind_eq_ok, Except.ok.injEq] at h
    obtain ⟨_, -, _, -, _, -, _, -, _, -, _, -, _, -, _, -, _, -, _, -, _, -, _, -, h⟩ := h
    obtain ⟨_, hoffers, rfl⟩ := h
    exact validateOperatorFeeInvariant_spec hoffers
  | update signer changes =>
    simp only [ListingOp.run, updateServiceListing, bind_eq_ok, Except.ok.injEq] at h
    obtain ⟨_, -, _, -, _, -, _, -, _, -, _, -, _, -, _, -, described, -, h⟩ := h
    obtain ⟨_, -, _, -, _, -, _, hoffers, _, -, rfl⟩ := h
    exact validateOperatorFeeInvariant_spec hoffers
  | setState signer target =>
    simp only [ListingOp.run, setServiceListingState, bind_eq_ok, demand_eq_ok,
      Except.ok.injEq] at h
    obtain ⟨before, hbefore, _, -, _, -, _, -, _, -, _, -, _, -, rfl⟩ := h
    exact hm key before hbefore

theorem enterMarket_offers {m m' : Market} {presented : Presented} {i : Instruction}
    (h : enterMarket m presented i = .ok m') (hm : ListingsOffer m) : ListingsOffer m' := by
  have htaken {listing : ServiceListing} (h : enterHire m listing = .ok m') : ListingsOffer m' := by
    simp only [enterHire, takeListingSlot, bind_eq_ok, demand_eq_ok, Except.ok.injEq] at h
    obtain ⟨stored, hstored, _, ⟨_, -, _, -, rfl⟩, rfl⟩ := h
    exact hm.insert (hm _ stored hstored)
  unfold enterMarket at h
  split at h
  · exact htaken h
  · exact htaken h
  · obtain rfl := Except.ok.inj h
    exact hm
  · simp only [enterClose, bind_eq_ok] at h
    obtain ⟨accounts, -, h⟩ := h
    cases hhire : accounts.hire with
    | none =>
      rw [hhire] at h
      obtain rfl := Except.ok.inj h
      exact hm
    | some hire =>
      simp only [hhire, releaseListingSlot, bind_eq_ok, demand_eq_ok, Except.ok.injEq] at h
      obtain ⟨_, -, stored, hstored, _, ⟨_, -, rfl⟩, rfl⟩ := h
      exact hm.insert (hm _ stored hstored)
  · obtain rfl := Except.ok.inj h
    exact hm

theorem MarketStep.listingsOffer {m m' : Market} {i : MarketInstruction} {p : Payments}
    (h : MarketStep m (i, p) m') (hm : ListingsOffer m) : ListingsOffer m' := by
  cases h.move with
  | core gated step entered =>
    have hentered := enterMarket_offers entered hm
    exact hentered
  | moderation ran => exact hm
  | listing ran => exact hm.insert (ListingOp.offers ran hm)
  | goods ran =>
    cases GoodsOp.move ran with
    | created fresh ran => exact hm
    | updated loaded ran => exact hm
    | purchased loaded unsold ran => exact hm

/-! ## Settlement -/

/-- The leg a payee is owed, when the caller passes `account` for it. -/
def owedLeg (payee : Pubkey) (feeBps : ℕ) (account : PayeeAccount) : Option FeeLeg :=
  if feeBps = 0 ∨ payee = 0 then none else some ⟨account, feeBps⟩

theorem buildFeeLeg_owed {payee : Pubkey} {feeBps : ℕ} {account : PayeeAccount}
    {missing invalid : CoordinationError} (hkey : account.key = payee) :
    buildFeeLeg payee feeBps (some account) missing invalid
      = .ok (owedLeg payee feeBps account) := by
  unfold buildFeeLeg owedLeg
  split_ifs
  · rfl
  · simp only [bind_eq_ok, demand_eq_ok, require_eq_ok]
    exact ⟨account, rfl, (), hkey, rfl⟩

/-- The rate of the leg that is owed: the whole fee, as a fee has a payee. -/
theorem owedLeg_feeBps {payee : Pubkey} {feeBps : ℕ} {account : PayeeAccount}
    (hnamed : payee = 0 → feeBps = 0) :
    ((owedLeg payee feeBps account).map FeeLeg.feeBps).getD 0 = feeBps := by
  unfold owedLeg
  split_ifs with hfree
  · exact (hfree.elim id hnamed).symm
  · rfl

/-- The accounts a settlement works on are those of the task: its key, its creator and its fee
terms are the ones the creation checked. -/
structure SettlesTask (m : Market) (key : Pubkey) (acc : TaskAccounts) (c : TaskContext) :
    Prop where
  key : c.key = key
  sys : c.sys = m.world.sys
  creator : c.accounts.task.creator = acc.task.creator
  fees : c.accounts.task.fees = acc.task.fees
  hire : c.accounts.hire = acc.hire
  mint : c.accounts.task.rewardMint = acc.task.rewardMint

/-- With its payees' accounts the fee legs of a task are built. -/
theorem FeesSettleable.legs {m : Market} {key : Pubkey} {acc : TaskAccounts} {c : TaskContext}
    (h : FeesSettleable m.world.sys key acc) (hc : SettlesTask m key acc c)
    {operator referrer : PayeeAccount} (hoperator : operator.key = acc.task.operator)
    (hreferrer : referrer.key = acc.task.referrer) :
    buildMarketplaceFeeLegs c (some operator) (some referrer) =
      .ok (owedLeg acc.task.operator acc.task.operatorFeeBps operator,
        owedLeg acc.task.referrer acc.task.referrerFeeBps referrer) := by
  have hkept : FeesSettleable c.sys c.key c.accounts := by
    rw [hc.sys, hc.key]
    exact h.keep hc.fees (.inl hc.hire) hc.creator hc.mint ⟨m.world.sys.now, rfl⟩
  have hterms : resolveTaskMarketplaceTerms c.accounts = acc.task.marketplaceTerms := by
    rw [hkept.resolve, Task.marketplaceTerms, Task.marketplaceTerms,
      show c.accounts.task.operator = acc.task.operator from congrArg TaskFees.operator hc.fees,
      show c.accounts.task.operatorFeeBps = acc.task.operatorFeeBps from
        congrArg TaskFees.operatorFeeBps hc.fees,
      show c.accounts.task.referrer = acc.task.referrer from congrArg TaskFees.referrer hc.fees,
      show c.accounts.task.referrerFeeBps = acc.task.referrerFeeBps from
        congrArg TaskFees.referrerFeeBps hc.fees]
  simp only [buildMarketplaceFeeLegs, bind_eq_ok, hterms, TaskContext.task_eq, hc.key, hc.sys,
    hc.creator]
  exact ⟨(), h.destinations, _, buildFeeLeg_owed hoperator, _, buildFeeLeg_owed hreferrer, rfl⟩

/-- A worker's reputation only lowers the protocol fee. -/
theorem calculateFeeWithReputation_le (taskProtocolFeeBps workerReputation : ℕ) :
    calculateFeeWithReputation taskProtocolFeeBps workerReputation ≤ taskProtocolFeeBps := by
  unfold calculateFeeWithReputation
  split_ifs with hzero
  · exact Nat.zero_le _
  · exact max_le (by omega) (Nat.sub_le _ _)

/-- Within the caps the combined fees are what the rates say. -/
theorem calculateCombinedFees_eq {base p o r : ℕ} (ho : o ≤ maxOperatorFeeBps)
    (hr : r ≤ maxReferrerFeeBps) (hsum : p + o + r ≤ maxCombinedFeeBps) :
    calculateCombinedFees base p o r = .ok (bpsOf base o, bpsOf base r) := by
  have hfloor : workerFloorBps ≤ basisPointsDivisor - (p + o + r) := by
    simp only [workerFloorBps, basisPointsDivisor, maxCombinedFeeBps] at *
    omega
  simp only [calculateCombinedFees, require_bind_eq_ok]
  exact ⟨ho, hr, hsum, hfloor, trivial⟩

/-- Three floored fees under the combined cap leave something of every price. -/
theorem bpsOf_sum_lt {gross p o r : ℕ} (hpos : 0 < gross) (hlt : gross < u64Limit)
    (hsum : p + o + r ≤ maxCombinedFeeBps) :
    bpsOf gross p + bpsOf gross o + bpsOf gross r < gross := by
  have hle (bps : ℕ) (hbps : bps ≤ maxCombinedFeeBps) :
      basisPointsDivisor * bpsOf gross bps ≤ gross * bps := by
    rw [bpsOf_eq hlt (hbps.trans (by decide))]
    exact Nat.mul_div_le _ _
  have hp := hle p (by omega)
  have ho := hle o (by omega)
  have hr := hle r (by omega)
  have hall : gross * p + gross * o + gross * r ≤ gross * maxCombinedFeeBps := by
    rw [← Nat.mul_add, ← Nat.mul_add]
    exact Nat.mul_le_mul_left gross hsum
  simp only [basisPointsDivisor, maxCombinedFeeBps] at *
  omega

/-- The split of any price succeeds: both legs are in lamports and under the caps, and the worker
keeps something. -/
theorem FeesSettleable.split {sys : Sysvars} {key : Pubkey} {acc : TaskAccounts}
    (h : FeesSettleable sys key acc) {gross : ℕ} (hpos : 0 < gross) (hlt : gross < u64Limit)
    (workerReputation : ℕ) (operator referrer : PayeeAccount) (rent : Rent) :
    ∃ split, completionSplit acc.task
      (calculateFeeWithReputation acc.task.protocolFeeBps workerReputation) (some gross)
      (owedLeg acc.task.operator acc.task.operatorFeeBps operator)
      (owedLeg acc.task.referrer acc.task.referrerFeeBps referrer) rent = .ok split := by
  have hfee := calculateFeeWithReputation_le acc.task.protocolFeeBps workerReputation
  generalize calculateFeeWithReputation acc.task.protocolFeeBps workerReputation = feeBps at hfee ⊢
  have hsum : feeBps + acc.task.operatorFeeBps + acc.task.referrerFeeBps ≤ maxCombinedFeeBps := by
    have := h.combined
    omega
  have hleft := bpsOf_sum_lt hpos hlt hsum
  have hgross : calculateRewardSplitForAmount gross feeBps =
      .ok (gross - bpsOf gross feeBps, bpsOf gross feeBps) := by
    simp only [calculateRewardSplitForAmount, bind_eq_ok, subU_eq_ok, require_eq_ok]
    exact ⟨_, ⟨by omega, rfl⟩, (), by omega, rfl⟩
  have hmint : (owedLeg acc.task.operator acc.task.operatorFeeBps operator = none ∧
      owedLeg acc.task.referrer acc.task.referrerFeeBps referrer = none) ∨
      acc.task.rewardMint = none := by
    by_cases htoken : acc.task.rewardMint = none
    · exact .inr htoken
    · obtain ⟨hoperator, hreferrer⟩ := h.solOnly htoken
      exact .inl ⟨if_pos (.inl hoperator), if_pos (.inl hreferrer)⟩
  suffices hcarve : ∃ split, carveMarketplaceLegs gross feeBps (gross - bpsOf gross feeBps)
      (bpsOf gross feeBps) (owedLeg acc.task.operator acc.task.operatorFeeBps operator)
      (owedLeg acc.task.referrer acc.task.referrerFeeBps referrer) rent = .ok split by
    obtain ⟨split, hcarve⟩ := hcarve
    refine ⟨split, ?_⟩
    simp only [completionSplit, completionGross, bind_eq_ok, require_eq_ok, Prod.exists]
    exact ⟨gross, rfl, _, _, hgross, (), hmint, hcarve⟩
  unfold carveMarketplaceLegs
  split_ifs
  · exact ⟨_, rfl⟩
  · simp only [bind_eq_ok, subU_eq_ok, require_eq_ok, Prod.exists,
      owedLeg_feeBps h.operatorNamed, owedLeg_feeBps h.referrerNamed,
      calculateCombinedFees_eq h.operatorCap h.referrerCap hsum]
    exact ⟨_, _, _, rfl, _, ⟨by omega, rfl⟩, (), by omega, rfl⟩

/-- What two legs are credited is at most what they are due. -/
theorem legsFee_le {gross o r : ℕ} (operatorLeg referrerLeg : Option FeeLeg) (rent : Rent)
    (hfees : o + r ≤ gross) :
    (splitCreditableMarketplaceFees (operatorLeg.map fun leg => (leg.payee, o))
      (referrerLeg.map fun leg => (leg.payee, r)) rent).operatorFee +
      (splitCreditableMarketplaceFees (operatorLeg.map fun leg => (leg.payee, o))
        (referrerLeg.map fun leg => (leg.payee, r)) rent).referrerFee ≤ gross := by
  have hdue (leg : Option FeeLeg) (fee : ℕ) :
      ((leg.map fun l => (l.payee, fee)).map Prod.snd).getD 0 ≤ fee := by
    cases leg with
    | none => exact Nat.zero_le _
    | some leg => exact le_rfl
  have hoperator := splitCreditableMarketplaceFees_operator
    (operatorLeg.map fun leg => (leg.payee, o)) (referrerLeg.map fun leg => (leg.payee, r)) rent
  have hreferrer := splitCreditableMarketplaceFees_referrer
    (operatorLeg.map fun leg => (leg.payee, o)) (referrerLeg.map fun leg => (leg.payee, r)) rent
  have ho := hdue operatorLeg o
  have hr := hdue referrerLeg r
  omega

/-- A ruling pays its legs out of any share, and never more than the share. -/
theorem FeesSettleable.ruling {sys : Sysvars} {key : Pubkey} {acc : TaskAccounts}
    (h : FeesSettleable sys key acc) (c : TaskContext) {gross : ℕ} (hlt : gross < u64Limit)
    {operator referrer : PayeeAccount} (hoperator : operator.key = acc.task.operator)
    (hreferrer : referrer.key = acc.task.referrer) :
    ∃ ts legsFee, payDisputeMarketplaceLegs c (resolveTaskMarketplaceTerms acc)
      ⟨some operator, some referrer⟩ gross = .ok (ts, legsFee) ∧ legsFee ≤ gross := by
  have hsum : 0 + acc.task.operatorFeeBps + acc.task.referrerFeeBps ≤ maxCombinedFeeBps := by
    have := h.combined
    omega
  have hfees : bpsOf gross acc.task.operatorFeeBps + bpsOf gross acc.task.referrerFeeBps ≤ gross := by
    rcases Nat.eq_zero_or_pos gross with rfl | hpos
    · simp [bpsOf]
    · have hleft := bpsOf_sum_lt hpos hlt hsum
      omega
  have hbuilt : buildOperatorLeg acc.task.operator acc.task.operatorFeeBps (some operator) =
        .ok (owedLeg acc.task.operator acc.task.operatorFeeBps operator) ∧
      buildReferrerLeg acc.task.referrer acc.task.referrerFeeBps (some referrer) =
        .ok (owedLeg acc.task.referrer acc.task.referrerFeeBps referrer) :=
    ⟨buildFeeLeg_owed hoperator, buildFeeLeg_owed hreferrer⟩
  have hoperatorFee := @owedLeg_feeBps _ _ operator h.operatorNamed
  have hreferrerFee := @owedLeg_feeBps _ _ referrer h.referrerNamed
  generalize owedLeg acc.task.operator acc.task.operatorFeeBps operator = operatorLeg at *
  generalize owedLeg acc.task.referrer acc.task.referrerFeeBps referrer = referrerLeg at *
  have hcombined : calculateCombinedFees gross 0 ((operatorLeg.map FeeLeg.feeBps).getD 0)
      ((referrerLeg.map FeeLeg.feeBps).getD 0) = .ok (bpsOf gross acc.task.operatorFeeBps,
        bpsOf gross acc.task.referrerFeeBps) := by
    rw [hoperatorFee, hreferrerFee]
    exact calculateCombinedFees_eq h.operatorCap h.referrerCap hsum
  have hdue := legsFee_le operatorLeg referrerLeg c.sys.rent hfees
  by_cases hnone : operatorLeg = none ∧ referrerLeg = none
  · refine ⟨[], 0, ?_, Nat.zero_le _⟩
    simp only [h.resolve, payDisputeMarketplaceLegs, Task.marketplaceTerms, bind_eq_ok]
    exact ⟨operatorLeg, hbuilt.1, referrerLeg, hbuilt.2, if_pos hnone⟩
  · obtain ⟨fees, hcredited⟩ : ∃ fees, fees = splitCreditableMarketplaceFees
        (operatorLeg.map fun leg => (leg.payee, bpsOf gross acc.task.operatorFeeBps))
        (referrerLeg.map fun leg => (leg.payee, bpsOf gross acc.task.referrerFeeBps)) c.sys.rent :=
      ⟨_, rfl⟩
    rw [← hcredited] at hdue
    refine ⟨legTransfer c.key operatorLeg .operatorFee fees.operatorFee ++
      legTransfer c.key referrerLeg .referrerFee fees.referrerFee, _, ?_, hdue⟩
    simp only [h.resolve, payDisputeMarketplaceLegs, Task.marketplaceTerms, bind_eq_ok]
    refine ⟨operatorLeg, hbuilt.1, referrerLeg, hbuilt.2, ?_⟩
    rw [if_neg hnone]
    simp only [bind_eq_ok]
    exact ⟨_, hcombined, by rw [hcredited]⟩

/-! ## Runs -/

/-- A creation in the marketplace leaves terms that settle. -/
theorem MarketStep.created_fees {m m' : Market} {presented : Presented} {key creator : Pubkey}
    {useQuota : Bool} {pre : Prefunding} {op : CreateOp} {p : Payments}
    (h : MarketStep m (.core presented (.create key creator useQuota pre op), p) m')
    (hprotocol : m.world.config.protocolFeeBps ≤ 2000) (hlistings : ListingsOffer m) :
    ∃ acc, m'.world.tasks.lookup key = some acc ∧ FeesSettleable m'.world.sys key acc := by
  obtain ⟨hgate, hstep⟩ := h.core
  have hran : op.run m.world key creator useQuota pre = .ok m'.world := by
    generalize m'.world = w' at hstep
    generalize p.transfers = ts at hstep
    cases hstep.does with
    | created ran => exact ran
  have hoffers (listing : ServiceListing) (taskJobSpecHash : Hash)
      (hhires : op.hires = some (listing, taskJobSpecHash)) :
      OffersOperator listing.operator listing.operatorFeeBps := by
    obtain ⟨⟨stored, hstored, hterms⟩, -⟩ := gateHire_spec (contentGate_hire hhires hgate)
    have hstoredOffers := hlistings _ stored hstored
    rw [← hterms]
    exact hstoredOffers
  obtain ⟨acc, hacc, hfees⟩ := CreateOp.fees hran hprotocol hoffers
  obtain ⟨now, -, hsys⟩ := hstep.sys
  exact ⟨acc, hacc, hfees.keep rfl (.inl rfl) rfl rfl ⟨now, hsys⟩⟩

/-- The task keeps the fees it was created with, and they settle. -/
def KeepsFees (fees : TaskFees) (key : Pubkey) (m : Market) : Prop :=
  ∃ acc, m.world.tasks.lookup key = some acc ∧ acc.task.fees = fees ∧
    FeesSettleable m.world.sys key acc

theorem MarketStep.keepsFees {m m' : Market} {i : MarketInstruction} {p : Payments}
    (h : MarketStep m (i, p) m') {fees : TaskFees} {key : Pubkey} (hkeeps : KeepsFees fees key m) :
    KeepsFees fees key m' := by
  obtain ⟨acc, hacc, hfees, hs⟩ := hkeeps
  rcases h.world with hsame | ⟨_, _, -, hstep⟩
  · refine ⟨acc, ?_, hfees, ?_⟩
    · rw [hsame]
      exact hacc
    · rw [hsame]
      exact hs
  · obtain ⟨acc', hacc', hkept, hs'⟩ := hstep.feesSettleable hacc hs
    exact ⟨acc', hacc', hkept.trans hfees, hs'⟩

/-- In every run, whatever happens to the protocol's configuration after a task was created: the
legs of its snapshotted terms are built from the accounts of its payees, the combined cap holds at
the protocol fee a settlement charges any worker and at the fee of a ruling, and the split of any
price and of any ruled share succeeds. -/
theorem fee_terms_settle {start m : Market} {log : List MarketEntry} (hstart : start.Genesis)
    (hrun : Run MarketStep start log m) :
    ∀ log₁ e log₂, log = log₁ ++ e :: log₂ → ∀ presented key creator useQuota pre op,
      e.label.1 = .core presented (.create key creator useQuota pre op) →
    ∃ created acc, e.after.world.tasks.lookup key = some created ∧
      m.world.tasks.lookup key = some acc ∧
      acc.task.protocolFeeBps = created.task.protocolFeeBps ∧
    ∀ terms, terms = resolveTaskMarketplaceTerms created →
    ∀ operator referrer : PayeeAccount, operator.key = terms.operator →
      referrer.key = terms.referrer →
    (∀ c, SettlesTask m key acc c → buildMarketplaceFeeLegs c (some operator) (some referrer) =
      .ok (owedLeg terms.operator terms.operatorFeeBps operator,
        owedLeg terms.referrer terms.referrerFeeBps referrer)) ∧
    (∀ gross reputation, calculateCombinedFees gross
        (calculateFeeWithReputation acc.task.protocolFeeBps reputation) terms.operatorFeeBps
        terms.referrerFeeBps =
      .ok (bpsOf gross terms.operatorFeeBps, bpsOf gross terms.referrerFeeBps)) ∧
    (∀ gross, calculateCombinedFees gross 0 terms.operatorFeeBps terms.referrerFeeBps =
      .ok (bpsOf gross terms.operatorFeeBps, bpsOf gross terms.referrerFeeBps)) ∧
    (∀ gross reputation rent, 0 < gross → gross < u64Limit → ∃ split, completionSplit acc.task
        (calculateFeeWithReputation acc.task.protocolFeeBps reputation) (some gross)
        (owedLeg terms.operator terms.operatorFeeBps operator)
        (owedLeg terms.referrer terms.referrerFeeBps referrer) rent = .ok split) ∧
    ∀ c gross, gross < u64Limit → ∃ paid legsFee, payDisputeMarketplaceLegs c
        (resolveTaskMarketplaceTerms acc) ⟨some operator, some referrer⟩ gross =
          .ok (paid, legsFee) ∧ legsFee ≤ gross := by
  rintro log₁ ⟨before, ⟨i, p⟩, after⟩ log₂ rfl presented key creator useQuota pre op hlabel
  obtain ⟨hfirst, hs, hrest⟩ := hrun.split_at
  obtain rfl : i = _ := hlabel
  have hreachable : before.Reachable := ⟨start, log₁, hstart, hfirst⟩
  have hlistings : ListingsOffer before := by
    refine hfirst.invariant (I := ListingsOffer) (fun _ _ _ hs h => hs.listingsOffer h) ?_
    intro k stored hstored
    rw [hstart.listings] at hstored
    cases hstored
  obtain ⟨created, hcreated, hsettles⟩ := hs.created_fees hreachable.world.protocolFee hlistings
  obtain ⟨acc, hacc, hfees, hend⟩ := hrest.invariant (I := KeepsFees created.task.fees key)
    (fun _ _ _ hs h => hs.keepsFees h) ⟨created, hcreated, rfl, hsettles⟩
  have hterms : resolveTaskMarketplaceTerms created =
      ⟨acc.task.operator, acc.task.operatorFeeBps, acc.task.referrer, acc.task.referrerFeeBps⟩ := by
    rw [hsettles.resolve, Task.marketplaceTerms,
      show acc.task.operator = created.task.operator from congrArg TaskFees.operator hfees,
      show acc.task.operatorFeeBps = created.task.operatorFeeBps from
        congrArg TaskFees.operatorFeeBps hfees,
      show acc.task.referrer = created.task.referrer from congrArg TaskFees.referrer hfees,
      show acc.task.referrerFeeBps = created.task.referrerFeeBps from
        congrArg TaskFees.referrerFeeBps hfees]
  refine ⟨created, acc, hcreated, hacc, congrArg TaskFees.protocolFeeBps hfees, ?_⟩
  rintro terms rfl operator referrer hoperator hreferrer
  rw [hterms] at hoperator hreferrer ⊢
  have hcombined (protocolFeeBps gross : ℕ) (hle : protocolFeeBps ≤ acc.task.protocolFeeBps) :
      calculateCombinedFees gross protocolFeeBps acc.task.operatorFeeBps acc.task.referrerFeeBps =
        .ok (bpsOf gross acc.task.operatorFeeBps, bpsOf gross acc.task.referrerFeeBps) := by
    refine calculateCombinedFees_eq hend.operatorCap hend.referrerCap ?_
    have := hend.combined
    omega
  refine ⟨?_, ?_, ?_, ?_, ?_⟩
  · intro c hc
    exact hend.legs hc hoperator hreferrer
  · intro gross reputation
    exact hcombined _ gross (calculateFeeWithReputation_le _ _)
  · intro gross
    exact hcombined 0 gross (Nat.zero_le _)
  · intro gross reputation rent hpos hlt
    exact hend.split hpos hlt reputation operator referrer rent
  · intro c gross hlt
    exact hend.ruling c hlt hoperator hreferrer

/-- The provider `11` lists a service with an operator's fee, and the listing is attested. -/
def listingScript : List MarketInstruction :=
  [.core {} (.agent 10 (.registerAgent 100 1 1000000 0)),
    .core {} (.agent 11 (.registerAgent 101 1 1000000 0)),
    .moderation (.configure 1 9 true),
    .listing 70 (.create 11 101 ⟨5, 6, 7, 0, 8, "agenc://listing/8", 50000, none, 1, 3600, 2,
      some 300, 1500⟩),
    .moderation (.recordListing 9 false 70 8 { status := .Clean, riskScore := 0 })]

/-- A hire from that listing, brought by the referrer `301`. -/
def referredHire : MarketInstruction :=
  .core { moderator := 9 } (.create 50 100 false {} (.hireFromListing 10
    { key := 70
      authority := 101
      providerAgent := 11
      specHash := 8
      price := 50000
      requiredCapabilities := 1
      defaultDeadlineSecs := 3600
      operator := 300
      operatorFeeBps := 1500
      active := true
      maxOpenJobs := 2
      version := 1 } 21 22 50000 1 (some 301) 500))

/-- The marketplace after that hire. -/
def referredMarket : Market :=
  (((executeMarket (deployedMarket.after listingScript) referredHire).toOption).map Prod.fst).getD
    deployedMarket

/-- Both legs of the hire are built after the protocol fee was raised to its bound. -/
theorem fee_terms_settle_raised :
    ∃ log m acc, Run MarketStep deployedMarket log m ∧ m.world.config.protocolFeeBps = 2000 ∧
      m.world.tasks.lookup 50 = some acc ∧
      buildMarketplaceFeeLegs (m.world.taskContext 50 acc) (some ⟨300, 0, 0⟩) (some ⟨301, 0, 0⟩) =
        .ok (some ⟨⟨300, 0, 0⟩, 1500⟩, some ⟨⟨301, 0, 0⟩, 500⟩) := by
  obtain ⟨log₁, hlisted⟩ := deployedMarket.run_after listingScript
  have hsome : ((executeMarket (deployedMarket.after listingScript) referredHire).toOption).isSome =
      true := by decide +kernel
  have hhired : ∃ p, MarketStep (deployedMarket.after listingScript) (referredHire, p)
      referredMarket := by
    obtain ⟨⟨m, p⟩, hexec⟩ := Option.isSome_iff_exists.mp hsome
    refine ⟨p, MarketStep.of_toOption ?_⟩
    rw [referredMarket, hexec]
    rfl
  obtain ⟨p, hhired⟩ := hhired
  obtain ⟨log₂, hraised⟩ := referredMarket.run_after [.core {} (.admin [1, 3] (.updateProtocolFee
    2000))]
  have hrun := (hlisted.snoc hhired).append hraised
  rw [List.append_assoc] at hrun
  obtain ⟨created, acc, hcreated, hacc, -, hsettles⟩ :=
    fee_terms_settle deployedMarket_genesis hrun log₁ _ log₂ rfl _ _ _ _ _ _ rfl
  have hterms : (referredMarket.world.tasks.lookup 50).map resolveTaskMarketplaceTerms =
      some ⟨300, 1500, 301, 500⟩ := by decide +kernel
  rw [show referredMarket.world.tasks.lookup 50 = some created from hcreated] at hterms
  have hterms := (Option.some.inj hterms).symm
  obtain ⟨hlegs, -⟩ := hsettles _ hterms ⟨300, 0, 0⟩ ⟨301, 0, 0⟩ rfl rfl
  exact ⟨_, _, acc, hrun, by decide +kernel, hacc, hlegs _ ⟨rfl, rfl, rfl, rfl, rfl, rfl⟩⟩

end AgencCoordination
