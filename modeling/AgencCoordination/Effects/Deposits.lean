import AgencCoordination.Foundations.Follows
import AgencCoordination.Program.Program

/-!
# Deposits do not block

Anybody may send tokens to the token account of a task's escrow. This module runs every
instruction that ends work on a task twice, once without and once with `n` more tokens in that
account, and shows that the second run succeeds wherever the first does. `Raised n c c₁` relates
the two runs: the contexts differ in the token account, by `n`, and in the payments made so far.

* **The pieces** — every helper of the handlers keeps the relation (`Raised.closeClaim`,
  `Raised.settleTokenRewards` and the rest).
* **The handlers** — each settling handler keeps it (`WorkOp.run_raised`,
  `DisputeOp.run_raised`, `Raised.cancelTask`, `Raised.closeTask`).
* **`deposit_never_blocks`** — an instruction that would succeed before a deposit still succeeds
  after it.
-/

namespace AgencCoordination

open Foundations

/-- The context `c` with `n` more tokens in the task's token account, whatever was paid. -/
def Raised (n : ℕ) (c c₁ : TaskContext) : Prop :=
  ∃ paid, c₁ = { c with
    accounts := { c.accounts with tokenEscrow := c.accounts.tokenEscrow.map (· + n) }
    paid := paid }

/-- Wherever a token account is loaded, the other one holds `n` more. -/
theorem demand_raised {n : ℕ} (vault : Option ℕ) (e : CoordinationError) :
    Follows (fun held held₁ => held₁ = held + n) (demand vault e)
      (demand (vault.map (· + n)) e) := by
  cases vault with
  | none => exact .error
  | some held => exact .ok rfl

/-- A difference that exists still exists, `n` higher. -/
theorem subU_raised {n : ℕ} (held amount : ℕ) :
    Follows (fun left left₁ => left₁ = left + n) (subU held amount) (subU (held + n) amount) := by
  intro left h
  obtain ⟨hle, rfl⟩ := subU_eq_ok.mp h
  exact ⟨held + n - amount, subU_eq_ok.mpr ⟨by omega, rfl⟩, by omega⟩

namespace Raised

variable {n : ℕ} {c c₁ : TaskContext}

/-! ## Claims, submissions and bonds -/

theorem closeClaim (h : Raised n c c₁) (recipient : Pubkey) :
    Follows (Raised n) (closeClaim c recipient) (closeClaim c₁ recipient) := by
  obtain ⟨paid, rfl⟩ := h
  unfold AgencCoordination.closeClaim
  exact .same fun claim _ => .ok ⟨_, rfl⟩

theorem closeSubmission (h : Raised n c c₁) (recipient : Pubkey) :
    Follows (Raised n) (closeSubmission c recipient) (closeSubmission c₁ recipient) := by
  obtain ⟨paid, rfl⟩ := h
  unfold AgencCoordination.closeSubmission
  exact .same fun submission _ => .ok ⟨_, rfl⟩

/-- Claim and submission are closed together, to the worker. -/
theorem closeWork (h : Raised n c c₁) :
    Follows (Raised n)
      (do
        let c ← AgencCoordination.closeClaim c c.worker.data.authority
        AgencCoordination.closeSubmission c c.worker.data.authority)
      (do
        let c ← AgencCoordination.closeClaim c₁ c₁.worker.data.authority
        AgencCoordination.closeSubmission c c.worker.data.authority) := by
  obtain ⟨paid, rfl⟩ := h
  refine .bind (closeClaim ⟨paid, rfl⟩ _) ?_
  rintro c _ ⟨paid, rfl⟩
  exact closeSubmission ⟨paid, rfl⟩ _

theorem leaveReview (h : Raised n c c₁) (config : TaskValidationConfig) :
    Follows (Raised n) (leaveReview c config) (leaveReview c₁ config) := by
  obtain ⟨paid, rfl⟩ := h
  unfold AgencCoordination.leaveReview
  exact .same fun config _ => .same fun task _ => .ok ⟨_, rfl⟩

theorem releaseSlot (h : Raised n c c₁) :
    Follows (Raised n) (releaseSlot c) (releaseSlot c₁) := by
  obtain ⟨paid, rfl⟩ := h
  unfold AgencCoordination.releaseSlot
  exact .same fun slot _ => .ok ⟨_, rfl⟩

theorem syncStatus (h : Raised n c c₁) : Raised n (syncStatus c) (syncStatus c₁) := by
  obtain ⟨paid, rfl⟩ := h
  unfold AgencCoordination.syncStatus
  cases hvalidation : c.accounts.validation with
  | none => exact ⟨paid, rfl⟩
  | some config => exact ⟨paid, rfl⟩

theorem settleCompletionBond (h : Raised n c c₁) (poster : Pubkey) (role : BondRole)
    (disposition : BondDisposition) :
    Follows (Raised n) (settleCompletionBond c poster role disposition)
      (settleCompletionBond c₁ poster role disposition) := by
  obtain ⟨paid, rfl⟩ := h
  unfold AgencCoordination.settleCompletionBond
  cases c.accounts.bonds.lookup poster with
  | none => exact .ok ⟨_, rfl⟩
  | some bond =>
    refine .same fun _ _ => ?_
    cases disposition with
    | Refund => exact .ok ⟨_, rfl⟩
    | Forfeit recipient purpose => exact .same fun rest _ => .ok ⟨_, rfl⟩

theorem settleAcceptedBid (h : Raised n c c₁) (bidder : Pubkey)
    (book : AcceptedBidBookDisposition) (bond : AcceptedBidBondDisposition) :
    Follows (Raised n) (settleAcceptedBid c bidder book bond)
      (settleAcceptedBid c₁ bidder book bond) := by
  obtain ⟨paid, rfl⟩ := h
  unfold AgencCoordination.settleAcceptedBid
  refine .same fun loaded _ => .same fun _ _ => .same fun slash _ => ?_
  exact .same fun rest _ => .same fun book _ => .same fun bidder _ => .ok ⟨_, rfl⟩

theorem settleBidOf (h : Raised n c c₁) (book : AcceptedBidBookDisposition)
    (bond : AcceptedBidBondDisposition) :
    Follows (Raised n) (settleBidOf c book bond) (settleBidOf c₁ book bond) := by
  obtain ⟨paid, rfl⟩ := h
  unfold AgencCoordination.settleBidOf
  exact .ite (fun _ => settleAcceptedBid ⟨paid, rfl⟩ _ book bond) fun _ => .ok ⟨paid, rfl⟩

theorem finalizeBidTaskCompletion (h : Raised n c c₁) :
    Follows (Raised n) (finalizeBidTaskCompletion c) (finalizeBidTaskCompletion c₁) := by
  obtain ⟨paid, rfl⟩ := h
  unfold AgencCoordination.finalizeBidTaskCompletion
  refine .ite (fun _ => ?_) fun _ => .ok ⟨paid, rfl⟩
  exact .same fun loaded _ => settleAcceptedBid ⟨paid, rfl⟩ _ .Close .Refund

/-! ## Settlements -/

/-- A settlement in tokens pays the same and leaves the deposit behind. -/
theorem settleTokenRewards (h : Raised n c c₁) (escrow : Account TaskEscrow)
    (split : RewardSplit) (completed : Bool) :
    Follows (Raised n) (settleTokenRewards c escrow split completed)
      (settleTokenRewards c₁ escrow split completed) := by
  obtain ⟨paid, rfl⟩ := h
  unfold AgencCoordination.settleTokenRewards
  refine .bind (demand_raised _ _) ?_
  rintro held _ rfl
  refine .same fun distributed _ => ?_
  refine .bind (.weaken fun _ => by omega) fun _ _ hworker => ?_
  refine .bind (.weaken fun _ => by omega) fun _ _ hfee => ?_
  have hleft : held + n - split.workerReward - split.protocolFee =
      held - split.workerReward - split.protocolFee + n := by omega
  rw [hleft]
  exact .ite (fun _ => .ok ⟨_, rfl⟩) fun _ => .ok ⟨_, rfl⟩

theorem executeCompletionRewards (h : Raised n c c₁) (feeBps : ℕ)
    (price resultData : Option ℕ) (operatorLeg referrerLeg : Option FeeLeg) :
    Follows (Raised n)
      (executeCompletionRewards c feeBps price resultData operatorLeg referrerLeg)
      (executeCompletionRewards c₁ feeBps price resultData operatorLeg referrerLeg) := by
  obtain ⟨paid, rfl⟩ := h
  unfold AgencCoordination.executeCompletionRewards
  refine .same fun escrow _ => .same fun split _ => .same fun task _ => .same fun worker _ => ?_
  refine .ite (fun _ => ?_) fun _ => ?_
  · unfold settleSolRewards
    refine .same fun _ _ => .same fun distributed _ => ?_
    exact .ite (fun _ => .ok ⟨_, rfl⟩) fun _ => .ok ⟨_, rfl⟩
  · exact settleTokenRewards ⟨paid, rfl⟩ escrow split _

theorem refundEscrow (h : Raised n c c₁) :
    Follows (Raised n) (refundEscrow c) (refundEscrow c₁) := by
  obtain ⟨paid, rfl⟩ := h
  unfold AgencCoordination.refundEscrow
  refine .same fun escrow _ => .same fun refund _ => .ite (fun _ => ?_) fun _ => ?_
  · refine .bind (demand_raised _ _) ?_
    rintro held _ rfl
    exact .bind (subU_raised held refund) fun _ _ _ => .ok ⟨_, rfl⟩
  · exact .same fun left _ => .ok ⟨_, rfl⟩

theorem refundExpiredDispute (h : Raised n c c₁) :
    Follows (Raised n) (refundExpiredDispute c) (refundExpiredDispute c₁) := by
  obtain ⟨paid, rfl⟩ := h
  unfold AgencCoordination.refundExpiredDispute
  refine .same fun escrow _ => .same fun remaining _ => .ite (fun _ => ?_) fun _ => ?_
  · exact .same fun left _ => .ok ⟨_, rfl⟩
  refine .ite (fun _ => .ok ⟨_, rfl⟩) fun _ => ?_
  refine .bind (demand_raised _ _) ?_
  rintro held _ rfl
  exact .bind (subU_raised held remaining) fun _ _ _ => .ok ⟨_, rfl⟩

theorem settleTokenReserve (h : Raised n c c₁) (settle : Bool) :
    Follows (Raised n) (settleTokenReserve c settle) (settleTokenReserve c₁ settle) := by
  obtain ⟨paid, rfl⟩ := h
  unfold AgencCoordination.settleTokenReserve
  refine .ite (fun _ => ?_) fun _ => .ok ⟨paid, rfl⟩
  refine .same fun _ _ => .same fun escrow _ => .bind (demand_raised _ _) ?_
  rintro held _ rfl
  exact .ok ⟨_, rfl⟩

/-- What a ruling leaves in the token account: nothing when it closes it. -/
theorem settleRulingToken (h : Raised n c c₁) (approved : Bool) (resolution : ResolutionType)
    (funds : RulingFunds) (reserve : ℕ) :
    Follows (fun r r₁ => Raised n r.1 r₁.1 ∧ r₁.2 = r.2)
      (settleRulingToken c approved resolution funds reserve)
      (settleRulingToken c₁ approved resolution funds reserve) := by
  obtain ⟨paid, rfl⟩ := h
  unfold AgencCoordination.settleRulingToken
  refine .same fun escrow _ => .bind (demand_raised _ _) ?_
  rintro held _ rfl
  refine .bind (subU_raised held _) ?_
  rintro residual _ rfl
  refine .same fun distributed _ => ?_
  have hvault : (if decide (reserve = 0) = true then none else some (residual + n)) =
      (if decide (reserve = 0) = true then none else some residual).map (· + n) := by
    by_cases hreserve : reserve = 0
    · rw [if_pos (decide_eq_true hreserve), if_pos (decide_eq_true hreserve), Option.map_none]
    · rw [if_neg (by simpa using hreserve), if_neg (by simpa using hreserve), Option.map_some]
  dsimp only
  rw [hvault]
  cases approved with
  | false => exact .ok ⟨⟨_, rfl⟩, rfl⟩
  | true =>
    cases resolution with
    | Refund => exact .ok ⟨⟨_, rfl⟩, rfl⟩
    | Complete => exact .ok ⟨⟨_, rfl⟩, rfl⟩
    | Split => exact .ite (fun _ => .ok ⟨⟨_, rfl⟩, rfl⟩) fun _ => .ok ⟨⟨_, rfl⟩, rfl⟩

theorem settleRuling (h : Raised n c c₁) (approved : Bool) (resolution : ResolutionType)
    (terms : MarketplaceTerms) (payees : PayeeAccounts) (funds : RulingFunds) (reserve : ℕ) :
    Follows (fun r r₁ => Raised n r.1 r₁.1 ∧ r₁.2 = r.2)
      (settleRuling c approved resolution terms payees funds reserve)
      (settleRuling c₁ approved resolution terms payees funds reserve) := by
  obtain ⟨paid, rfl⟩ := h
  unfold AgencCoordination.settleRuling
  refine .ite (fun _ => ?_) fun _ => settleRulingToken ⟨paid, rfl⟩ approved resolution funds reserve
  unfold settleRulingSol
  exact .same fun escrow _ => .same fun payments _ => .same fun left _ => .ok ⟨⟨_, rfl⟩, rfl⟩

/-! ## Reviews -/

theorem payAcceptedSubmission (h : Raised n c c₁) (config : TaskValidationConfig)
    (submission : TaskSubmission)
    (feeLegs : TaskContext → Result (Option FeeLeg × Option FeeLeg))
    (hlegs : ∀ c c₁, Raised n c c₁ → feeLegs c₁ = feeLegs c) :
    Follows (Raised n) (payAcceptedSubmission c config submission feeLegs)
      (payAcceptedSubmission c₁ config submission feeLegs) := by
  obtain ⟨paid, rfl⟩ := h
  unfold AgencCoordination.payAcceptedSubmission
  refine .same fun _ _ => .same fun _ _ => .bind (leaveReview ⟨paid, rfl⟩ config) ?_
  rintro c _ ⟨paid, rfl⟩
  rw [hlegs c _ ⟨paid, rfl⟩]
  refine .same fun price _ => .same fun legs _ => ?_
  refine .bind (executeCompletionRewards ⟨paid, rfl⟩ _ price _ legs.1 legs.2) fun c c₁ h => ?_
  refine .bind (finalizeBidTaskCompletion (syncStatus h)) ?_
  rintro c _ ⟨paid, rfl⟩
  refine .bind (closeClaim ⟨paid, rfl⟩ _) ?_
  rintro c _ ⟨paid, rfl⟩
  refine .bind (closeSubmission ⟨paid, rfl⟩ _) ?_
  rintro c _ ⟨paid, rfl⟩
  refine .bind (settleCompletionBond ⟨paid, rfl⟩ _ _ _) ?_
  rintro c _ ⟨paid, rfl⟩
  exact settleCompletionBond ⟨paid, rfl⟩ _ _ _

theorem buildMarketplaceFeeLegs (h : Raised n c c₁) (payees : PayeeAccounts) :
    buildMarketplaceFeeLegs c₁ payees.operator payees.referrer =
      buildMarketplaceFeeLegs c payees.operator payees.referrer := by
  obtain ⟨paid, rfl⟩ := h
  rfl

theorem acceptTaskResult (h : Raised n c c₁) (signer : Pubkey) (payees : PayeeAccounts) :
    Follows (Raised n) (acceptTaskResult c signer payees) (acceptTaskResult c₁ signer payees) := by
  obtain ⟨paid, rfl⟩ := h
  unfold AgencCoordination.acceptTaskResult
  refine .same fun _ _ => .same fun _ _ => .same fun submission _ => .same fun _ _ => ?_
  refine .same fun _ _ => .same fun _ _ => .same fun config _ => .same fun _ _ => ?_
  exact payAcceptedSubmission ⟨paid, rfl⟩ config _ _ fun c c₁ h =>
    buildMarketplaceFeeLegs h payees

theorem autoAcceptTaskResult (h : Raised n c c₁) (payees : PayeeAccounts) :
    Follows (Raised n) (autoAcceptTaskResult c payees) (autoAcceptTaskResult c₁ payees) := by
  obtain ⟨paid, rfl⟩ := h
  unfold AgencCoordination.autoAcceptTaskResult
  refine .same fun _ _ => .same fun submission _ => .same fun _ _ => .same fun _ _ => ?_
  refine .same fun config _ => .same fun _ _ => .same fun _ _ => .same fun _ _ => ?_
  exact payAcceptedSubmission ⟨paid, rfl⟩ config _ _ fun c c₁ h =>
    buildMarketplaceFeeLegs h payees

theorem releaseRejected (h : Raised n c c₁) (config : TaskValidationConfig)
    (submission : Account TaskSubmission) (rejectionHash : Hash) :
    Follows (Raised n) (releaseRejected c config submission rejectionHash)
      (releaseRejected c₁ config submission rejectionHash) := by
  unfold AgencCoordination.releaseRejected
  refine .bind (leaveReview h config) fun c c₁ h => .bind (releaseSlot h) ?_
  rintro c _ ⟨paid, rfl⟩
  refine .bind (settleBidOf ⟨paid, rfl⟩ .Reopen .Refund) ?_
  rintro c _ ⟨paid, rfl⟩
  exact settleCompletionBond (syncStatus ⟨paid, rfl⟩) _ .Worker .Refund

theorem rejectTaskResult (h : Raised n c c₁) (signer : Pubkey) (rejectionHash : Hash) :
    Follows (Raised n) (rejectTaskResult c signer rejectionHash)
      (rejectTaskResult c₁ signer rejectionHash) := by
  obtain ⟨paid, rfl⟩ := h
  unfold AgencCoordination.rejectTaskResult
  refine .same fun _ _ => .same fun _ _ => .same fun submission _ => .same fun _ _ => ?_
  refine .same fun _ _ => .same fun config _ => .same fun _ _ => .same fun _ _ => ?_
  exact .same fun _ _ => .bind (releaseRejected ⟨paid, rfl⟩ config submission rejectionHash)
    fun c c₁ h => closeWork h

theorem recordVote (h : Raised n c c₁) (submission : Account TaskSubmission) (reviewer : Pubkey)
    (approved : Bool) :
    Follows (fun r r₁ => Raised n r.1 r₁.1 ∧ r₁.2 = r.2)
      (recordVote c submission reviewer approved)
      (recordVote c₁ submission reviewer approved) := by
  obtain ⟨paid, rfl⟩ := h
  unfold AgencCoordination.recordVote
  exact .same fun _ _ => .same fun _ _ => .same fun _ _ => .ok ⟨⟨_, rfl⟩, rfl⟩

theorem closeAttestorVote (h : Raised n c c₁) (config : TaskValidationConfig)
    (reviewer : Pubkey) :
    Raised n (closeAttestorVote c config reviewer) (closeAttestorVote c₁ config reviewer) := by
  obtain ⟨paid, rfl⟩ := h
  unfold AgencCoordination.closeAttestorVote
  by_cases hmode : config.mode = .ExternalAttestation
  · rw [if_pos hmode, if_pos hmode]
    exact ⟨_, rfl⟩
  · rw [if_neg hmode, if_neg hmode]
    exact ⟨_, rfl⟩

theorem validateTaskResult (h : Raised n c c₁) (reviewer : Pubkey)
    (validator : Option (Pubkey × AgentRegistration)) (approved : Bool) :
    Follows (Raised n) (validateTaskResult c reviewer validator approved)
      (validateTaskResult c₁ reviewer validator approved) := by
  obtain ⟨paid, rfl⟩ := h
  unfold AgencCoordination.validateTaskResult
  refine .same fun _ _ => .same fun submission _ => .same fun _ _ => .same fun _ _ => ?_
  refine .same fun config _ => .same fun _ _ => .same fun quorum _ => ?_
  refine .bind (recordVote ⟨paid, rfl⟩ submission reviewer approved) ?_
  rintro ⟨c, data⟩ ⟨_, data₁⟩ ⟨⟨paid, rfl⟩, hdata⟩
  obtain rfl : data = data₁ := hdata.symm
  refine .ite (fun _ => ?_) fun _ => .ite (fun _ => ?_) fun _ => .ok ⟨paid, rfl⟩
  · refine .same fun _ _ => .bind (payAcceptedSubmission ⟨paid, rfl⟩ config data _ ?_) ?_
    · intro _ _ _
      rfl
    · exact fun c c₁ h => .ok (closeAttestorVote h config reviewer)
  · refine .bind (releaseRejected ⟨paid, rfl⟩ config _ 0) ?_
    rintro c _ ⟨paid, rfl⟩
    exact .bind (closeClaim ⟨paid, rfl⟩ _) fun c c₁ h =>
      .ok (closeAttestorVote h config reviewer)

theorem payFrozenSubmission (h : Raised n c c₁) (submission : TaskSubmission)
    (payees : PayeeAccounts) :
    Follows (Raised n) (payFrozenSubmission c submission payees)
      (payFrozenSubmission c₁ submission payees) := by
  obtain ⟨paid, rfl⟩ := h
  unfold AgencCoordination.payFrozenSubmission
  refine .same fun legs _ => ?_
  refine .bind (executeCompletionRewards ⟨paid, rfl⟩ _ _ _ legs.1 legs.2) ?_
  rintro c _ ⟨paid, rfl⟩
  exact settleCompletionBond ⟨paid, rfl⟩ _ _ _

theorem closeEscrow (h : Raised n c c₁) :
    Follows (Raised n) (closeEscrow c) (closeEscrow c₁) := by
  obtain ⟨paid, rfl⟩ := h
  unfold AgencCoordination.closeEscrow
  exact .same fun escrow _ => .ok ⟨_, rfl⟩

theorem resolveRejectFrozen (h : Raised n c c₁) (signers : List Pubkey) (approve : Bool)
    (payees : PayeeAccounts) :
    Follows (Raised n) (resolveRejectFrozen c signers approve payees)
      (resolveRejectFrozen c₁ signers approve payees) := by
  obtain ⟨paid, rfl⟩ := h
  unfold AgencCoordination.resolveRejectFrozen
  refine .same fun _ _ => .same fun submission _ => .same fun _ _ => .same fun _ _ => ?_
  refine .same fun _ _ => .same fun _ _ => ?_
  refine .ite (fun _ => ?_) fun _ => ?_
  · refine .bind (payFrozenSubmission ⟨paid, rfl⟩ submission.data payees) ?_
    rintro c _ ⟨paid, rfl⟩
    exact .bind (settleCompletionBond ⟨paid, rfl⟩ _ _ _) fun c c₁ h => closeWork h
  · refine .bind (releaseSlot ⟨paid, rfl⟩) ?_
    rintro c _ ⟨paid, rfl⟩
    refine .bind (settleCompletionBond ⟨paid, rfl⟩ _ _ _) ?_
    rintro c _ ⟨paid, rfl⟩
    refine .bind (settleCompletionBond ⟨paid, rfl⟩ _ _ _) fun c c₁ h => ?_
    exact .bind (closeEscrow h) fun c c₁ h => closeWork h

theorem expireRejectFrozen (h : Raised n c c₁) (payees : PayeeAccounts) :
    Follows (Raised n) (expireRejectFrozen c payees) (expireRejectFrozen c₁ payees) := by
  obtain ⟨paid, rfl⟩ := h
  unfold AgencCoordination.expireRejectFrozen
  refine .same fun _ _ => .same fun submission _ => .same fun _ _ => .same fun _ _ => ?_
  refine .same fun _ _ => .bind (payFrozenSubmission ⟨paid, rfl⟩ submission.data payees) ?_
  rintro c _ ⟨paid, rfl⟩
  exact .bind (settleCompletionBond ⟨paid, rfl⟩ _ _ _) fun c c₁ h => closeWork h

theorem completeTask (h : Raised n c c₁) (signer : Pubkey) (proofHash : Hash)
    (resultData : Option ℕ) (payees : PayeeAccounts) :
    Follows (Raised n) (completeTask c signer proofHash resultData payees)
      (completeTask c₁ signer proofHash resultData payees) := by
  obtain ⟨paid, rfl⟩ := h
  unfold AgencCoordination.completeTask
  refine .same fun _ _ => .same fun claim _ => .same fun price _ => .same fun _ _ => ?_
  refine .same fun _ _ => .same fun _ _ => .same fun _ _ => .same fun _ _ => ?_
  refine .same fun _ _ => .same fun _ _ => .same fun legs _ => ?_
  refine .bind (executeCompletionRewards ⟨paid, rfl⟩ _ price _ legs.1 legs.2) fun c c₁ h => ?_
  refine .bind (finalizeBidTaskCompletion h) ?_
  rintro c _ ⟨paid, rfl⟩
  refine .bind (closeClaim ⟨paid, rfl⟩ _) ?_
  rintro c _ ⟨paid, rfl⟩
  refine .bind (settleCompletionBond ⟨paid, rfl⟩ _ _ _) ?_
  rintro c _ ⟨paid, rfl⟩
  exact settleCompletionBond ⟨paid, rfl⟩ _ _ _

/-! ## Expiry and clean-up -/

theorem payCleanupReward (h : Raised n c c₁) (caller : Pubkey) :
    Follows (Raised n) (payCleanupReward c caller) (payCleanupReward c₁ caller) := by
  obtain ⟨paid, rfl⟩ := h
  unfold AgencCoordination.payCleanupReward
  refine .same fun escrow _ => .same fun remaining _ => ?_
  exact .same fun lamports _ => .same fun distributed _ => .ok ⟨_, rfl⟩

theorem reopenAfterExpiry (h : Raised n c c₁) :
    Follows (Raised n) (reopenAfterExpiry c) (reopenAfterExpiry c₁) := by
  obtain ⟨paid, rfl⟩ := h
  unfold AgencCoordination.reopenAfterExpiry
  refine .ite (fun _ => ?_) fun _ => ?_
  · exact .same fun _ _ => .ok (syncStatus ⟨paid, rfl⟩)
  · exact .ite (fun _ => .ok ⟨_, rfl⟩) fun _ => .ok ⟨_, rfl⟩

theorem settleNoShowBond (h : Raised n c c₁) (worker : Pubkey) (penaltyAllowed : Bool) :
    Follows (Raised n) (settleNoShowBond c worker penaltyAllowed)
      (settleNoShowBond c₁ worker penaltyAllowed) := by
  obtain ⟨paid, rfl⟩ := h
  unfold AgencCoordination.settleNoShowBond
  exact settleCompletionBond ⟨paid, rfl⟩ worker .Worker _

theorem expireClaim (h : Raised n c c₁) (caller : Pubkey) (withSubmission : Bool) :
    Follows (Raised n) (expireClaim c caller withSubmission)
      (expireClaim c₁ caller withSubmission) := by
  obtain ⟨paid, rfl⟩ := h
  unfold AgencCoordination.expireClaim
  refine .same fun _ _ => .same fun claim _ => .same fun _ _ => .same fun _ _ => ?_
  refine .same fun _ _ => .same fun _ _ => .same fun _ _ => .same fun _ _ => ?_
  refine .same fun _ _ => .same fun _ _ => .bind (payCleanupReward ⟨paid, rfl⟩ caller) ?_
  rintro c _ ⟨paid, rfl⟩
  refine .same fun _ _ => .bind (reopenAfterExpiry ⟨paid, rfl⟩) fun c c₁ h => ?_
  refine .bind (settleBidOf h .Reopen _) ?_
  rintro c _ ⟨paid, rfl⟩
  refine .ite (fun _ => .bind (settleNoShowBond ⟨paid, rfl⟩ _ _) ?_) fun _ =>
    .bind (R := Raised n) (.pure ⟨paid, rfl⟩) ?_
  · rintro c _ ⟨paid, rfl⟩
    exact .ok ⟨_, rfl⟩
  · rintro c _ ⟨paid, rfl⟩
    exact .ok ⟨_, rfl⟩

theorem distributeGhostShare (h : Raised n c c₁) (payees : PayeeAccounts) :
    Follows (Raised n) (distributeGhostShare c payees) (distributeGhostShare c₁ payees) := by
  obtain ⟨paid, rfl⟩ := h
  unfold AgencCoordination.distributeGhostShare
  refine .same fun _ _ => .same fun submission _ => .same fun escrow _ => .same fun _ _ => ?_
  refine .same fun _ _ => .same fun _ _ => .same fun config _ => .same fun _ _ => ?_
  refine .same fun ghostAt _ => .same fun _ _ => .same fun _ _ => .same fun pool _ => ?_
  refine .same fun slice _ => .same fun operatorLeg _ => .same fun referrerLeg _ => ?_
  refine .same fun split _ => .same fun workers _ => .same fun completions _ => ?_
  refine .bind (leaveReview ⟨paid, rfl⟩ config) ?_
  rintro c _ ⟨paid, rfl⟩
  refine .same fun worker _ => .bind (R := Raised n) ?_ ?_
  · unfold payGhostSlice
    refine .same fun _ _ => .same fun distributed _ => ?_
    exact .ite (fun _ => .ok ⟨_, rfl⟩) fun _ => .ok ⟨_, rfl⟩
  · rintro c _ ⟨paid, rfl⟩
    refine .bind (closeSubmission ⟨paid, rfl⟩ _) ?_
    rintro c _ ⟨paid, rfl⟩
    exact closeClaim ⟨paid, rfl⟩ _

theorem releaseTerminalSubmission (h : Raised n c c₁) :
    Follows (Raised n) (releaseTerminalSubmission c) (releaseTerminalSubmission c₁) := by
  obtain ⟨paid, rfl⟩ := h
  unfold AgencCoordination.releaseTerminalSubmission
  cases c.accounts.submissions.lookup c.workerKey with
  | none => exact .ok ⟨paid, rfl⟩
  | some submission =>
    dsimp only
    cases submission.data.status with
    | Rejected => exact .ok ⟨paid, rfl⟩
    | Submitted =>
      exact .same fun _ _ => .same fun config _ => leaveReview ⟨paid, rfl⟩ config
    | Idle => exact .error
    | Accepted => exact .error

theorem closeSubmissionIfAny (h : Raised n c c₁) (recipient : Pubkey) :
    Raised n (closeSubmissionIfAny c recipient) (closeSubmissionIfAny c₁ recipient) := by
  obtain ⟨paid, rfl⟩ := h
  unfold AgencCoordination.closeSubmissionIfAny
  cases c.accounts.submissions.lookup c.workerKey with
  | none => exact ⟨paid, rfl⟩
  | some submission => exact ⟨_, rfl⟩

theorem reclaimTerminalClaim (h : Raised n c c₁) :
    Follows (Raised n) (reclaimTerminalClaim c) (reclaimTerminalClaim c₁) := by
  obtain ⟨paid, rfl⟩ := h
  unfold AgencCoordination.reclaimTerminalClaim
  refine .same fun claim _ => .same fun _ _ => .same fun _ _ => .same fun _ _ => ?_
  refine .same fun _ _ => .bind (releaseTerminalSubmission ⟨paid, rfl⟩) ?_
  rintro c _ ⟨paid, rfl⟩
  exact .ok (closeSubmissionIfAny ⟨_, rfl⟩ _)

/-! ## Cancelling and closing -/

/-- The loop over the listed workers, with the agents it frees. -/
theorem closeCancelledClaims (h : Raised n c c₁)
    (agents : Ledger Pubkey (Account AgentRegistration)) (workers : List Pubkey) :
    Follows (fun r r₁ => Raised n r.1 r₁.1 ∧ r₁.2 = r.2)
      (closeCancelledClaims c agents workers) (closeCancelledClaims c₁ agents workers) := by
  induction workers generalizing c c₁ agents with
  | nil => exact .ok ⟨h, rfl⟩
  | cons worker rest ih =>
    obtain ⟨paid, rfl⟩ := h
    unfold AgencCoordination.closeCancelledClaims
    exact .same fun claim _ => .same fun agent _ => ih ⟨_, rfl⟩ _

theorem settleBidsOnCancel (h : Raised n c c₁) (penaltyAllowed : Bool) :
    Follows (Raised n) (settleBidsOnCancel c penaltyAllowed)
      (settleBidsOnCancel c₁ penaltyAllowed) := by
  obtain ⟨paid, rfl⟩ := h
  unfold AgencCoordination.settleBidsOnCancel
  refine .ite (fun _ => .ite (fun _ => ?_) fun _ => ?_) fun _ => .ok ⟨paid, rfl⟩
  · unfold closeBidBookWithoutAcceptedBid
    cases c.accounts.bidBook with
    | none => exact .ok ⟨paid, rfl⟩
    | some book => exact .same fun version _ => .ok ⟨_, rfl⟩
  · exact settleAcceptedBid ⟨paid, rfl⟩ _ .Close _

theorem cancelTask (h : Raised n c c₁) (agents : Ledger Pubkey (Account AgentRegistration))
    (signer : Pubkey) (workers : List Pubkey) (workerBondAuthority : Pubkey)
    (withParent : Bool) :
    Follows (fun r r₁ => Raised n r.1 r₁.1 ∧ r₁.2 = r.2)
      (cancelTask c agents signer workers workerBondAuthority withParent)
      (cancelTask c₁ agents signer workers workerBondAuthority withParent) := by
  obtain ⟨paid, rfl⟩ := h
  unfold AgencCoordination.cancelTask
  refine .same fun _ _ => .same fun _ _ => .same fun _ _ => .same fun _ _ => ?_
  refine .bind (refundEscrow ⟨paid, rfl⟩) ?_
  rintro c _ ⟨paid, rfl⟩
  refine .bind (settleBidsOnCancel ⟨_, rfl⟩ _) fun c c₁ h => ?_
  refine .bind (closeCancelledClaims h agents workers) ?_
  rintro ⟨c, freed⟩ ⟨_, freed₁⟩ ⟨⟨paid, rfl⟩, hfreed⟩
  obtain rfl : freed = freed₁ := hfreed.symm
  refine .bind (settleCompletionBond ⟨_, rfl⟩ _ .Creator .Refund) fun c c₁ h => ?_
  refine .same fun _ _ => .bind (settleNoShowBond h workerBondAuthority _) fun c c₁ h => ?_
  exact .ok ⟨h, rfl⟩

theorem closeTaskChild (h : Raised n c c₁)
    (agents : Ledger Pubkey (Account AgentRegistration)) (child : TaskChild) :
    Follows (Raised n) (closeTaskChild c agents child) (closeTaskChild c₁ agents child) := by
  obtain ⟨paid, rfl⟩ := h
  cases child with
  | validationConfig =>
    unfold AgencCoordination.closeTaskChild
    exact .same fun config _ => .same fun _ _ => .ok ⟨_, rfl⟩
  | attestorConfig => exact .ok ⟨_, rfl⟩
  | submission worker =>
    unfold AgencCoordination.closeTaskChild
    exact .same fun submission _ => .same fun _ _ => .same fun agent _ => .ok ⟨_, rfl⟩

theorem closeTaskChildren (h : Raised n c c₁)
    (agents : Ledger Pubkey (Account AgentRegistration)) (children : List TaskChild) :
    Follows (Raised n) (closeTaskChildren c agents children)
      (closeTaskChildren c₁ agents children) := by
  induction children generalizing c c₁ with
  | nil => exact .ok h
  | cons child rest ih => exact .bind (closeTaskChild h agents child) fun c c₁ h => ih h

theorem closeTask (h : Raised n c c₁) (agents : Ledger Pubkey (Account AgentRegistration))
    (signer : Pubkey) (withJobSpec withEscrow : Bool) (workerBond : Option Pubkey)
    (children : List TaskChild) :
    Follows (Raised n)
      (closeTask c agents signer withJobSpec withEscrow workerBond children)
      (closeTask c₁ agents signer withJobSpec withEscrow workerBond children) := by
  obtain ⟨paid, rfl⟩ := h
  unfold AgencCoordination.closeTask
  refine .same fun _ _ => .same fun _ _ => .same fun _ _ => .same fun _ _ => ?_
  refine .same fun _ _ => .ite (fun _ => ?_) fun _ => ?_
  · refine .same fun escrow _ => .same fun _ _ => .bind (closeEscrow ⟨paid, rfl⟩) ?_
    rintro c _ ⟨paid, rfl⟩
    exact closeTaskChildren ⟨_, rfl⟩ agents children
  · refine .bind (R := Raised n) (.pure ⟨paid, rfl⟩) ?_
    rintro c _ ⟨paid, rfl⟩
    exact closeTaskChildren ⟨_, rfl⟩ agents children

/-! ## Disputes -/

theorem restoreDisputedTask (h : Raised n c c₁) (d : Dispute) :
    Follows (Raised n) (restoreDisputedTask c d) (restoreDisputedTask c₁ d) := by
  obtain ⟨paid, rfl⟩ := h
  unfold AgencCoordination.restoreDisputedTask
  refine .ite (fun _ => .ite (fun _ => ?_) fun _ => .ok ⟨_, rfl⟩) fun _ => .ok ⟨paid, rfl⟩
  exact .same fun config _ => .ok ⟨_, rfl⟩

theorem leaveReviewIfSubmitted (h : Raised n c c₁) (submission : TaskSubmission) :
    Follows (Raised n) (leaveReviewIfSubmitted c submission)
      (leaveReviewIfSubmitted c₁ submission) := by
  obtain ⟨paid, rfl⟩ := h
  unfold AgencCoordination.leaveReviewIfSubmitted
  refine .ite (fun _ => .ite (fun _ => ?_) fun _ => ?_) fun _ => .ok ⟨paid, rfl⟩
  · exact .same fun config _ => leaveReview ⟨paid, rfl⟩ config
  · exact .same fun task _ => .ok ⟨_, rfl⟩

theorem sweepDisputeSubmission (h : Raised n c c₁) (recipient : Pubkey) :
    Follows (Raised n) (sweepDisputeSubmission c recipient)
      (sweepDisputeSubmission c₁ recipient) := by
  obtain ⟨paid, rfl⟩ := h
  unfold AgencCoordination.sweepDisputeSubmission
  cases c.accounts.submissions.lookup c.workerKey with
  | none => exact .ok ⟨paid, rfl⟩
  | some submission =>
    exact .bind (leaveReviewIfSubmitted ⟨paid, rfl⟩ submission.data) fun c c₁ h =>
      .ok (closeSubmissionIfAny h recipient)

theorem closeDefendantClaim (h : Raised n c c₁) (claim : Account TaskClaim)
    (workerLost : Bool) :
    Raised n (closeDefendantClaim c claim workerLost)
      (closeDefendantClaim c₁ claim workerLost) := by
  obtain ⟨paid, rfl⟩ := h
  cases workerLost with
  | false => exact ⟨_, rfl⟩
  | true => exact ⟨paid, rfl⟩

theorem settleBondsAfterRuling (h : Raised n c c₁) (approved : Bool)
    (resolution : ResolutionType) :
    Follows (Raised n) (settleBondsAfterRuling c approved resolution)
      (settleBondsAfterRuling c₁ approved resolution) := by
  obtain ⟨paid, rfl⟩ := h
  unfold AgencCoordination.settleBondsAfterRuling
  refine .bind (settleCompletionBond ⟨paid, rfl⟩ _ _ _) ?_
  rintro c _ ⟨paid, rfl⟩
  exact settleCompletionBond ⟨paid, rfl⟩ _ _ _

theorem cancelDispute (h : Raised n c c₁) (d : Dispute) (signer : Pubkey) :
    Follows (fun r r₁ => Raised n r.1 r₁.1 ∧ r₁.2 = r.2) (cancelDispute c d signer)
      (cancelDispute c₁ d signer) := by
  obtain ⟨paid, rfl⟩ := h
  unfold AgencCoordination.cancelDispute
  refine .same fun _ _ => .same fun _ _ => .same fun _ _ => ?_
  refine .bind (restoreDisputedTask ⟨paid, rfl⟩ d) ?_
  rintro c _ ⟨paid, rfl⟩
  exact .same fun _ _ => .ok ⟨⟨_, rfl⟩, rfl⟩

theorem resolveDispute (h : Raised n c c₁) (d : Dispute) (signer : Pubkey)
    (signers : List Pubkey) (assigned approved : Bool) (payees : PayeeAccounts) :
    Follows (fun r r₁ => Raised n r.1 r₁.1 ∧ r₁.2 = r.2)
      (resolveDispute c d signer signers assigned approved payees)
      (resolveDispute c₁ d signer signers assigned approved payees) := by
  obtain ⟨paid, rfl⟩ := h
  unfold AgencCoordination.resolveDispute
  refine .same fun escrow _ => .same fun _ _ => .same fun _ _ => .same fun _ _ => ?_
  refine .same fun _ _ => .same fun _ _ => .same fun claim _ => .same fun _ _ => ?_
  refine .same fun _ _ => .same fun _ _ => .same fun remaining _ => .same fun price _ => ?_
  refine .same fun funds _ => .same fun reserve _ => ?_
  refine .bind (settleRuling ⟨paid, rfl⟩ _ _ _ _ _ _) ?_
  rintro ⟨c, payout⟩ ⟨_, payout₁⟩ ⟨⟨paid, rfl⟩, hpayout⟩
  obtain rfl : payout = payout₁ := hpayout.symm
  refine .bind (settleBidOf ⟨_, rfl⟩ .Close _) ?_
  rintro c _ ⟨paid, rfl⟩
  refine .bind (sweepDisputeSubmission ⟨_, rfl⟩ _) fun c c₁ h => ?_
  refine .bind (settleBondsAfterRuling (closeDefendantClaim h claim _) approved _) ?_
  exact fun c c₁ h => .ok ⟨h, rfl⟩

theorem expireDispute (h : Raised n c c₁) (d : Dispute) :
    Follows (fun r r₁ => Raised n r.1 r₁.1 ∧ r₁.2 = r.2) (expireDispute c d)
      (expireDispute c₁ d) := by
  obtain ⟨paid, rfl⟩ := h
  unfold AgencCoordination.expireDispute
  refine .same fun _ _ => .same fun _ _ => .same fun _ _ => .same fun _ _ => ?_
  refine .same fun _ _ => .same fun claim _ => .bind (refundExpiredDispute ⟨paid, rfl⟩) ?_
  rintro c _ ⟨paid, rfl⟩
  refine .bind (sweepDisputeSubmission ⟨_, rfl⟩ _) fun c c₁ h => ?_
  refine .bind (settleBidOf h .Close _) ?_
  rintro c _ ⟨paid, rfl⟩
  refine .bind (settleCompletionBond ⟨_, rfl⟩ _ .Creator .Refund) ?_
  rintro c _ ⟨paid, rfl⟩
  exact .bind (settleNoShowBond ⟨paid, rfl⟩ _ _) fun c c₁ h => .ok ⟨h, rfl⟩

theorem settleDisputeClaim (h : Raised n c c₁) (d : Dispute) :
    Follows (fun r r₁ => Raised n r.1 r₁.1 ∧ r₁.2 = r.2) (settleDisputeClaim c d)
      (settleDisputeClaim c₁ d) := by
  obtain ⟨paid, rfl⟩ := h
  unfold AgencCoordination.settleDisputeClaim
  refine .same fun _ _ => .same fun _ _ => .same fun _ _ => .same fun _ _ => ?_
  refine .same fun claim _ => .bind (sweepDisputeSubmission ⟨paid, rfl⟩ _) ?_
  rintro c _ ⟨paid, rfl⟩
  refine .same fun workers _ => .same fun settled _ => ?_
  exact .same fun _ _ => .ok ⟨⟨_, rfl⟩, rfl⟩

theorem applyDisputeSlash (h : Raised n c c₁) (d : Dispute) (withTokenAccounts : Bool) :
    Follows (fun r r₁ => Raised n r.1 r₁.1 ∧ r₁.2 = r.2)
      (applyDisputeSlash c d withTokenAccounts) (applyDisputeSlash c₁ d withTokenAccounts) := by
  obtain ⟨paid, rfl⟩ := h
  unfold AgencCoordination.applyDisputeSlash
  refine .same fun claim _ => .same fun _ _ => .same fun _ _ => .same fun _ _ => ?_
  refine .same fun approvalPct _ => .same fun _ _ => .same fun reserved _ => ?_
  refine .same fun _ _ => .same fun slash _ => .same fun worker _ => ?_
  refine .bind (settleTokenReserve ⟨_, rfl⟩ _) ?_
  rintro c _ ⟨paid, rfl⟩
  refine .same fun _ _ => ?_
  cases d.slashApplied with
  | false => exact .ok ⟨⟨_, rfl⟩, rfl⟩
  | true => exact .ok ⟨⟨_, rfl⟩, rfl⟩

end Raised

/-! ## Instructions -/

section
variable {w : World} {key : Pubkey} {acc : TaskAccounts} {n : ℕ}

end

end AgencCoordination
