import AgencCoordination.Effects.Escrow
import AgencCoordination.Invariants.Review

/-!
# Operator and referrer fees

Every instruction that pays a worker out of a task's escrow pays the operator and the referrer
what they are due of the same gross amount, at the terms snapshotted on the task.

* **`fee_legs_honoured`** — that, in every run, with the terms fixed for good, and no terms to
  honour where a settlement passes no legs.
-/

namespace AgencCoordination

open Foundations

/-! ## Whose terms a settlement reads -/

/-- Without a payee there is no leg, whatever the fee. -/
theorem LegFor.of_nobody {feeBps feeBps' : ℕ} {account : Option PayeeAccount}
    {leg : Option FeeLeg} (h : LegFor 0 feeBps account leg) : LegFor 0 feeBps' account leg := by
  cases h with
  | absent => exact .absent (.inr rfl)
  | owed owed => exact absurd rfl owed.2

/-- The terms a settlement resolves build the legs of the snapshot. -/
theorem LegsFor.snapshot {acc : TaskAccounts} {payees : PayeeAccounts}
    {operatorLeg referrerLeg : Option FeeLeg} (hs : ReviewSound acc)
    (h : LegsFor (resolveTaskMarketplaceTerms acc) payees operatorLeg referrerLeg) :
    LegsFor acc.task.marketplaceTerms payees operatorLeg referrerLeg := by
  unfold resolveTaskMarketplaceTerms at h
  split_ifs at h with hnamed
  · exact h
  · obtain ⟨hoperator, hreferrer⟩ := not_or.mp hnamed
    have hoperator : acc.task.operator = 0 := not_not.mp hoperator
    have hreferrer : acc.task.referrer = 0 := not_not.mp hreferrer
    have hterms : acc.task.marketplaceTerms =
        ⟨0, acc.task.operatorFeeBps, 0, acc.task.referrerFeeBps⟩ := by
      rw [Task.marketplaceTerms, hoperator, hreferrer]
    rw [hterms]
    split at h
    · rename_i hire hhire
      obtain ⟨hsameOperator, hsameReferrer⟩ := hs.hire hire hhire
      rw [hsameOperator, hsameReferrer, hoperator, hreferrer] at h
      exact ⟨h.operator.of_nobody, h.referrer.of_nobody⟩
    · exact ⟨h.operator.of_nobody, h.referrer.of_nobody⟩

theorem HonoursLegs.snapshot {acc : TaskAccounts} {payees : PayeeAccounts} {rent : Rent}
    {key : Pubkey} {ts : List Transfer} (hs : ReviewSound acc)
    (h : HonoursLegs (resolveTaskMarketplaceTerms acc) payees rent key ts) :
    HonoursLegs acc.task.marketplaceTerms payees rent key ts := by
  obtain ⟨operatorLeg, referrerLeg, hlegs, hpaid⟩ := h
  exact ⟨operatorLeg, referrerLeg, hlegs.snapshot hs, hpaid⟩

/-! ## One step -/

/-- A task that another than the creator reviews owes neither fee. -/
theorem ReviewSound.free {acc : TaskAccounts} (h : ReviewSound acc) {config : TaskValidationConfig}
    (hconfig : acc.validation = some config) (hmode : config.mode ≠ .CreatorReview) :
    acc.task.operatorFeeBps = 0 ∧ acc.task.referrerFeeBps = 0 :=
  h.unpaid config hconfig ((h.mode config hconfig).resolve_left hmode)

section Moves

variable {w : World} {key : Pubkey} {acc : TaskAccounts} {t : Till} {payees : PayeeAccounts}
  {ts us : List Transfer}

/-- A settlement in SOL carries the legs of the snapshot. -/
theorem settled_honours (ht : TillOf w key acc t) (hs : ReviewSound acc) {gross : ℕ}
    {completed : Bool} {escrow : Account TaskEscrow} {split : RewardSplit}
    {operatorLeg referrerLeg : Option FeeLeg}
    (hof : SplitOf split gross operatorLeg referrerLeg t.rent)
    (hpassed : t.Passes payees operatorLeg referrerLeg) :
    HonoursLegs acc.task.marketplaceTerms payees w.sys.rent key
      (settledPayments t escrow split operatorLeg referrerLeg completed) := by
  have hclosing : ∀ u ∈ (if completed then
      [closeEscrowTransfer t.key t.creator (escrow.lamports - split.total)] else []),
      u.source.isEscrow key = true → u.purpose.isSettlementLeg = false := by
    intro u hu _
    cases completed with
    | true =>
      obtain rfl := List.mem_singleton.mp hu
      rfl
    | false => cases hu
  have hrewards : HonoursLegs acc.task.marketplaceTerms payees w.sys.rent key
      (rewardTransfers t.key t.worker t.treasury operatorLeg referrerLeg split) := by
    rw [← ht.rent, ht.key]
    rcases hpassed with hlegs | ⟨rfl, rfl, mode, hmode, hother⟩
    · rcases ht.terms with hterms | hterms
      · rw [hterms] at hlegs
        exact honoursLegs_rewardTransfers hof _ _ _ (hlegs.snapshot hs)
      · rw [hterms] at hlegs
        exact honoursLegs_rewardTransfers hof _ _ _ hlegs
    · -- nobody passed a leg on, so the task owes none
      rcases ht.mode with hnone | hsome
      · rw [hnone] at hmode
        cases hmode
      · rw [hsome] at hmode
        obtain ⟨config, hconfig, rfl⟩ := Option.map_eq_some_iff.mp hmode
        obtain ⟨hoperator, hreferrer⟩ := hs.free hconfig hother
        exact honoursLegs_rewardTransfers hof _ _ _
          ⟨.absent (.inl hoperator), .absent (.inl hreferrer)⟩
  exact hrewards.append hclosing

/-- A task paid in tokens carries no legs, and pays none. -/
theorem token_honours (ht : TillOf w key acc t) (hs : ReviewSound acc) (hmint : t.mint ≠ none)
    (hts : ∀ x ∈ ts, x.source.isEscrow key = true →
      x.purpose ≠ .operatorFee ∧ x.purpose ≠ .referrerFee) :
    HonoursLegs acc.task.marketplaceTerms payees w.sys.rent key ts := by
  obtain ⟨hoperator, hreferrer⟩ := hs.token (ht.mint ▸ hmint)
  exact .of_free hoperator hreferrer hts

/-- A move that pays a worker honours the task's legs. -/
theorem EscrowMove.honours {escrow' : Option (Account TaskEscrow)} (ht : TillOf w key acc t)
    (hs : ReviewSound acc) (h : EscrowMove t payees acc.task escrow' ts)
    (hworker : ∃ x ∈ ts, x.source.isEscrow key = true ∧ x.purpose = .workerReward) :
    HonoursLegs acc.task.marketplaceTerms payees w.sys.rent key ts := by
  have hkey := ht.key
  obtain ⟨x, hx, hsource, hpurpose⟩ := hworker
  cases h with
  | kept outside =>
    rw [← hkey, outside x hx] at hsource
    cases hsource
  | donated => cases hx
  | @settled _ _ _ _ ts us gross_of settles outside =>
    rw [hkey] at outside
    cases settles with
    | sol mint loaded split_of passed covered fits =>
      exact (settled_honours ht hs split_of passed).append_outside outside
    | token mint paid gone =>
      refine token_honours ht hs mint fun y hy hfrom => ?_
      rcases List.mem_append.mp hy with hy | hy
      · rcases (paid y hy).2 with hp | hp | hp <;> rw [hp] <;> exact ⟨by decide, by decide⟩
      · rw [outside y hy] at hfrom
        cases hfrom
  | cleaned loaded within reward_eq covered outside =>
    rw [hkey] at outside
    rcases List.mem_cons.mp hx with rfl | hx
    · cases hpurpose
    · rw [outside x hx] at hsource
      cases hsource
  | @emptied _ _ ts us loaded within empties outside =>
    rw [hkey] at outside
    have hpaid : x ∈ ts := (List.mem_append.mp hx).resolve_right fun hx => by
      rw [outside x hx] at hsource
      cases hsource
    refine HonoursLegs.append_outside ?_ outside
    by_cases hmint : t.mint = none
    · obtain ⟨-, -, paid, hpays, rfl⟩ := empties.sol hmint
      have hclosing (amount : ℕ) : ∀ u ∈ [closeEscrowTransfer t.key t.creator amount],
          u.source.isEscrow key = true → u.purpose.isSettlementLeg = false := by
        intro u hu _
        obtain rfl := List.mem_singleton.mp hu
        rfl
      refine HonoursLegs.append ?_ (hclosing _)
      have hworker : x ∈ paid := (List.mem_append.mp hpaid).resolve_right fun hx => by
        rw [List.mem_singleton.mp hx] at hpurpose
        cases hpurpose
      have hhonours := hpays.honours ⟨x, hworker, hpurpose⟩
      rw [ht.rent, hkey] at hhonours
      rcases ht.terms with hterms | hterms
      · rw [hterms] at hhonours
        exact hhonours.snapshot hs
      · rw [hterms] at hhonours
        exact hhonours
    · exact token_honours ht hs hmint fun y hy _ => empties.token hmint y hy
  | refunded mint loaded within covered outside =>
    rw [hkey] at outside
    rcases List.mem_cons.mp hx with rfl | hx
    · cases hpurpose
    · rcases List.mem_cons.mp hx with rfl | hx
      · cases hpurpose
      · rw [outside x hx] at hsource
        cases hsource
  | returned loaded ended before outside =>
    rw [hkey] at before outside
    rcases List.mem_append.mp hx with hx | hx
    · rw [before x hx] at hsource
      cases hsource
    · rcases List.mem_cons.mp hx with rfl | hx
      · cases hpurpose
      · rw [outside x hx] at hsource
        cases hsource
  | token mint free =>
    rw [hkey] at free
    exact token_honours ht hs mint free

end Moves

/-! ## Every run -/

/-- The terms snapshotted on a task stay. -/
theorem TaskMove.marketplaceTerms {w : World} {key : Pubkey} {acc acc' : TaskAccounts}
    {i : Instruction} {ts : List Transfer} (h : TaskMove w key acc i acc' ts) :
    acc'.task.marketplaceTerms = acc.task.marketplaceTerms := by
  have hfees : acc'.task.fees = acc.task.fees := by
    rcases h.review with hkeeps | ⟨_, _, _, _, _, c, hran, rfl⟩
    · exact hkeeps.fees
    · obtain ⟨-, -, -, -, _, -, -, hfees, -⟩ := configureTaskValidation_review hran
      exact hfees
  rw [Task.marketplaceTerms, Task.marketplaceTerms,
    show acc'.task.operator = acc.task.operator from congrArg TaskFees.operator hfees,
    show acc'.task.operatorFeeBps = acc.task.operatorFeeBps from
      congrArg TaskFees.operatorFeeBps hfees,
    show acc'.task.referrer = acc.task.referrer from congrArg TaskFees.referrer hfees,
    show acc'.task.referrerFeeBps = acc.task.referrerFeeBps from
      congrArg TaskFees.referrerFeeBps hfees]

/-- In every run the terms snapshotted on a task never change; every step that pays a worker out
of the task's escrow pays the operator and the referrer exactly what these terms make of the
settlement's gross amount, up to a fee its payee cannot hold; and a task whose reviewer's
settlements pass no legs on owes neither fee. -/
theorem fee_legs_honoured {start w : World} {log : List LogEntry} (hstart : Genesis start)
    (hrun : Run Step start log w) :
    (∀ e ∈ log, ∀ key acc, e.before.tasks.lookup key = some acc →
      ∃ acc', e.after.tasks.lookup key = some acc' ∧
        acc'.task.marketplaceTerms = acc.task.marketplaceTerms) ∧
    (∀ e ∈ log, ∀ key acc, e.before.tasks.lookup key = some acc →
      (∃ t ∈ e.label.2, t.source.isEscrow key = true ∧ t.purpose = .workerReward) →
      HonoursLegs acc.task.marketplaceTerms e.label.1.payees e.before.sys.rent key e.label.2) ∧
    ∀ key acc config, w.tasks.lookup key = some acc → acc.validation = some config →
      config.mode ≠ .CreatorReview →
      acc.task.operatorFeeBps = 0 ∧ acc.task.referrerFeeBps = 0 := by
  refine ⟨fun e he key acc hacc => ?_, fun e he key acc hacc hworker => ?_,
    fun key acc config hacc hconfig hmode => ?_⟩
  · obtain ⟨_, _, -, -, hstep, -⟩ := hrun.split_mem he
    cases Step.task hstep key with
    | apart same unpaid => exact ⟨acc, same.trans hacc, rfl⟩
    | created new stored fresh unpaid =>
      rw [new] at hacc
      cases hacc
    | moved loaded stored move =>
      obtain rfl := Option.some.inj (hacc.symm.trans loaded)
      exact ⟨_, stored, move.marketplaceTerms⟩
  · obtain ⟨log₁, _, -, hbefore, hstep, -⟩ := hrun.split_mem he
    have hreachable : Reachable e.before := ⟨start, log₁, hstart, hbefore⟩
    obtain ⟨x, hx, hsource, -⟩ := id hworker
    cases Step.task hstep key with
    | apart same unpaid =>
      refine absurd ?_ (unpaid x hx)
      cases hcustody : x.source with
      | escrow k => rw [hcustody] at hsource; simpa [Custody.isEscrow, Custody.task] using hsource
      | tokenEscrow k =>
        rw [hcustody] at hsource; simpa [Custody.isEscrow, Custody.task] using hsource
      | _ => rw [hcustody] at hsource; cases hsource
    | created new stored fresh unpaid =>
      rw [new] at hacc
      cases hacc
    | moved loaded stored move =>
      obtain rfl := Option.some.inj (hacc.symm.trans loaded)
      obtain ⟨t, ht, hmove⟩ := move.escrow
      exact hmove.honours ht (hreachable.reviewSound hacc) hworker
  · exact (Reachable.reviewSound ⟨start, log, hstart, hrun⟩ hacc).free hconfig hmode

/-- A creator-review task with a referrer, whose worker has submitted. -/
def referredScript : List Instruction :=
  [.agent 11 (.registerAgent 101 1 1000000 0),
    .create 50 100 false {} (.createTaskHumanless
      ⟨1, 1, (1, 0), 100000000, 1, 5000, .Exclusive, 0, none⟩ 3600 (some 20) 100),
    .task 50 (.setTaskJobSpec 100 7),
    .work 50 11 (.claimTaskWithJobSpec 101 0),
    .work 50 11 (.submitTaskResult 101 9 none 0)]

/-- The acceptance of that submission. -/
def referredAccept : Instruction :=
  .work 50 11 (.acceptTaskResult 100 { referrer := some ⟨20, 2000000, 0⟩ })

/-- The acceptance pays the referrer its hundredth of the reward. -/
theorem fee_legs_honoured_referred :
    ∃ w ts, Step (deployed.after referredScript) (referredAccept, ts) w ∧
      HonoursLegs ⟨0, 0, 20, 100⟩ referredAccept.payees ⟨3480, 2⟩ 50 ts ∧
      paymentsFor 50 .referrerFee ts = [⟨.escrow 50, 20, .referrerFee, 1000000⟩] := by
  obtain ⟨log, hrun⟩ := deployed.run_after referredScript
  have hexec : (execute (deployed.after referredScript) referredAccept).toOption.map (fun r =>
      (paymentsFor 50 .workerReward r.2, paymentsFor 50 .referrerFee r.2)) =
        some ([⟨.escrow 50, 101, .workerReward, 99000000⟩],
          [⟨.escrow 50, 20, .referrerFee, 1000000⟩]) := by
    decide +kernel
  obtain ⟨⟨w, ts⟩, hexec, hpaid⟩ := Option.map_eq_some_iff.mp hexec
  obtain ⟨hworker, hreferrer⟩ := Prod.mk.inj hpaid
  have hstep : Step (deployed.after referredScript) (referredAccept, ts) w := .of_toOption hexec
  refine ⟨w, ts, hstep, ?_, hreferrer⟩
  have hacc : ((deployed.after referredScript).tasks.lookup 50).map (fun acc =>
      acc.task.marketplaceTerms) = some ⟨0, 0, 20, 100⟩ := by
    decide +kernel
  obtain ⟨acc, hacc, hterms⟩ := Option.map_eq_some_iff.mp hacc
  have hrent : (deployed.after referredScript).sys.rent = ⟨3480, 2⟩ := by decide +kernel
  have hmem : (⟨.escrow 50, 101, .workerReward, 99000000⟩ : Transfer) ∈
      paymentsFor 50 .workerReward ts := by
    rw [hworker]
    exact List.mem_singleton.mpr rfl
  have hhonours := (fee_legs_honoured deployed_genesis (hrun.snoc hstep)).2.1
    ⟨_, (referredAccept, ts), w⟩ (List.mem_append_right _ (List.mem_singleton.mpr rfl)) 50 acc hacc
    ⟨_, List.mem_of_mem_filter hmem, rfl, rfl⟩
  rw [hterms, hrent] at hhonours
  exact hhonours

end AgencCoordination
