import AgencCoordination.Foundations.EqualShares
import AgencCoordination.Invariants.FeeTerms
import AgencCoordination.Program.SettlementMath

/-!
# The arithmetic of a settlement

No operation of a settlement overflows: the shares of the collaborators of a task divide its
reward, and worker, treasury, operator and referrer divide a share, the worker with at least six
parts in ten.

* **`Checked.bpsOf_eq_ok`** — the 128-bit product and the cut to 64 bits lose nothing.
* **`Checked.settlementSplit_ok`** — any positive base is divided.
* **`shares_and_split`** — the shares of a task and the split of each.
-/

namespace AgencCoordination

open Foundations

namespace Checked

/-! ## Fees -/

section Fees

variable {base bps p o r : ℕ}

/-- The fee of any rate on a 64-bit amount. -/
theorem bpsOf_eq_ok (hbase : base < u64Limit) (hbps : bps ≤ basisPointsDivisor) :
    bpsOf base bps = .ok (base * bps / basisPointsDivisor) := by
  have hproduct : base * bps < u128Limit := by
    calc base * bps ≤ base * basisPointsDivisor := Nat.mul_le_mul_left base hbps
      _ < u64Limit * basisPointsDivisor := Nat.mul_lt_mul_of_pos_right hbase (by decide)
      _ ≤ u128Limit := by decide
  have hfee : base * bps / basisPointsDivisor < u64Limit := (mul_bps_div_le hbps).trans_lt hbase
  simp only [bpsOf, bind_eq_ok, mulU128_eq_ok, divU_eq_ok, Except.ok.injEq]
  exact ⟨_, ⟨hproduct, rfl⟩, _, ⟨by decide, rfl⟩, Nat.mod_eq_of_lt hfee⟩

/-- The checked fee is the fee. -/
theorem bpsOf_spec {fee : ℕ} (h : bpsOf base bps = .ok fee) :
    fee = AgencCoordination.bpsOf base bps := by
  simp only [bpsOf, bind_eq_ok, mulU128_eq_ok, divU_eq_ok, Except.ok.injEq] at h
  obtain ⟨_, ⟨-, rfl⟩, _, ⟨-, rfl⟩, rfl⟩ := h
  rfl

/-- Three floored fees under the combined cap leave six parts in ten. -/
theorem fees_floor (hsum : p + o + r ≤ maxCombinedFeeBps) :
    workerFloorBps * base + basisPointsDivisor * (base * p / basisPointsDivisor +
      base * o / basisPointsDivisor + base * r / basisPointsDivisor) ≤
        basisPointsDivisor * base := by
  have hp := Nat.mul_div_le (base * p) basisPointsDivisor
  have ho := Nat.mul_div_le (base * o) basisPointsDivisor
  have hr := Nat.mul_div_le (base * r) basisPointsDivisor
  have hall : base * p + base * o + base * r ≤ base * maxCombinedFeeBps := by
    rw [← Nat.mul_add, ← Nat.mul_add]
    exact Nat.mul_le_mul_left base hsum
  simp only [workerFloorBps, basisPointsDivisor, maxCombinedFeeBps] at *
  omega

theorem calculateRewardSplitForAmount_ok (hpos : 0 < base) (hbase : base < u64Limit)
    (hp : p ≤ maxCombinedFeeBps) :
    calculateRewardSplitForAmount base p =
      .ok (base - base * p / basisPointsDivisor, base * p / basisPointsDivisor) := by
  have hfloor := @fees_floor base p 0 0 hp
  simp only [workerFloorBps, basisPointsDivisor, Nat.mul_zero, Nat.zero_div, Nat.add_zero]
    at hfloor
  simp only [calculateRewardSplitForAmount, bind_eq_ok, subU_eq_ok, require_eq_ok,
    bpsOf_eq_ok hbase (hp.trans (by decide)), Except.ok.injEq]
  refine ⟨_, rfl, _, ⟨?_, rfl⟩, (), ?_, rfl⟩
  · simp only [basisPointsDivisor]
    omega
  · simp only [basisPointsDivisor]
    omega

/-- Nothing is not divided. -/
theorem calculateRewardSplitForAmount_zero :
    calculateRewardSplitForAmount 0 p = .error .RewardTooSmall := by
  have hfee : bpsOf 0 p = .ok 0 := by
    simp [bpsOf, mulU128, divU, asU64, basisPointsDivisor, u128Limit]
  rw [calculateRewardSplitForAmount, hfee]
  rfl

theorem calculateCombinedFees_ok (hbase : base < u64Limit) (ho : o ≤ maxOperatorFeeBps)
    (hr : r ≤ maxReferrerFeeBps) (hsum : p + o + r ≤ maxCombinedFeeBps) :
    calculateCombinedFees base p o r =
      .ok (base * o / basisPointsDivisor, base * r / basisPointsDivisor) := by
  have hop : bpsOf base o = _ := bpsOf_eq_ok hbase (ho.trans (by decide))
  have href : bpsOf base r = _ := bpsOf_eq_ok hbase (hr.trans (by decide))
  simp only [maxCombinedFeeBps] at hsum
  simp only [calculateCombinedFees, bind_eq_ok, require_eq_ok, addU64_eq_ok, checkedSub_eq_ok,
    hop, href, Except.ok.injEq]
  refine ⟨(), ho, (), hr, _, ⟨?_, rfl⟩, _, ⟨?_, rfl⟩, (), hsum, _, ⟨?_, rfl⟩, (), ?_, _, rfl, _,
    rfl, rfl⟩
  · simp only [u64Limit]
    omega
  · simp only [u64Limit]
    omega
  · simp only [basisPointsDivisor]
    omega
  · simp only [workerFloorBps, basisPointsDivisor]
    omega

end Fees

/-! ## The split -/

/-- Legs and a protocol fee the program lets a task have: each leg under its cap, all three rates
under the combined cap, and legs only on a task paid in lamports. -/
structure AdmissibleFees (task : Task) (protocolFeeBps : ℕ) (operatorLeg referrerLeg : Option FeeLeg)
    (withTokenAccounts : Bool) : Prop where
  operator : activeFeeBps operatorLeg ≤ maxOperatorFeeBps
  referrer : activeFeeBps referrerLeg ≤ maxReferrerFeeBps
  combined : protocolFeeBps + activeFeeBps operatorLeg + activeFeeBps referrerLeg ≤
    maxCombinedFeeBps
  sol : 0 < activeFeeBps operatorLeg ∨ 0 < activeFeeBps referrerLeg →
    task.rewardMint = none ∧ withTokenAccounts = false

/-- A split that divides `base`: nothing is lost, no fee is above its rate, and the worker has at
least six parts in ten. -/
structure SplitsBase (s : RewardSplit) (base p o r : ℕ) : Prop where
  total : s.workerReward + s.protocolFee + s.operatorFee + s.referrerFee = base
  protocol : s.protocolFee = base * p / basisPointsDivisor
  operator : s.operatorFee ≤ base * o / basisPointsDivisor
  referrer : s.referrerFee ≤ base * r / basisPointsDivisor
  floor : workerFloorBps * base ≤ basisPointsDivisor * s.workerReward

section Split

variable {task : Task} {base p : ℕ} {operatorLeg referrerLeg : Option FeeLeg} {rent : Rent}
  {withTokenAccounts : Bool}

/-- A leg that is not there has no fee. -/
theorem legFee_getD (leg : Option FeeLeg) :
    ((leg.map fun l => (l.payee, base * activeFeeBps leg / basisPointsDivisor)).map
      Prod.snd).getD 0 = base * activeFeeBps leg / basisPointsDivisor := by
  cases leg with
  | none => simp [activeFeeBps]
  | some leg => rfl

theorem carveLegs_ok (hfees : AdmissibleFees task p operatorLeg referrerLeg withTokenAccounts)
    (hpos : 0 < base) (hbase : base < u64Limit) :
    ∃ s, carveLegs task p (base - base * p / basisPointsDivisor) (base * p / basisPointsDivisor)
        operatorLeg referrerLeg rent withTokenAccounts = .ok s ∧
      SplitsBase s base p (activeFeeBps operatorLeg) (activeFeeBps referrerLeg) := by
  have hfloor := @fees_floor base _ _ _ hfees.combined
  have hcombined := calculateCombinedFees_ok hbase hfees.operator hfees.referrer hfees.combined
  have hoperatorDue := @legFee_getD base operatorLeg
  have hreferrerDue := @legFee_getD base referrerLeg
  have hoperatorFree : activeFeeBps operatorLeg = 0 →
      base * activeFeeBps operatorLeg / basisPointsDivisor = 0 := fun h => by rw [h]; simp
  have hreferrerFree : activeFeeBps referrerLeg = 0 →
      base * activeFeeBps referrerLeg / basisPointsDivisor = 0 := fun h => by rw [h]; simp
  -- From here on the three fees are numbers.
  obtain ⟨pf, hpf⟩ : ∃ pf, pf = base * p / basisPointsDivisor := ⟨_, rfl⟩
  obtain ⟨o, ho⟩ : ∃ o, o = base * activeFeeBps operatorLeg / basisPointsDivisor := ⟨_, rfl⟩
  obtain ⟨r, hr⟩ : ∃ r, r = base * activeFeeBps referrerLeg / basisPointsDivisor := ⟨_, rfl⟩
  rw [← hpf] at hfloor ⊢
  rw [← ho] at hfloor hcombined hoperatorDue hoperatorFree
  rw [← hr] at hfloor hcombined hreferrerDue hreferrerFree
  have hoperator := splitCreditableMarketplaceFees_operator
    (operatorLeg.map fun leg => (leg.payee, o)) (referrerLeg.map fun leg => (leg.payee, r)) rent
  have hreferrer := splitCreditableMarketplaceFees_referrer
    (operatorLeg.map fun leg => (leg.payee, o)) (referrerLeg.map fun leg => (leg.payee, r)) rent
  rw [hoperatorDue] at hoperator
  rw [hreferrerDue] at hreferrer
  obtain ⟨fees, hcredited⟩ : ∃ fees, fees = splitCreditableMarketplaceFees
      (operatorLeg.map fun leg => (leg.payee, o)) (referrerLeg.map fun leg => (leg.payee, r))
      rent := ⟨_, rfl⟩
  rw [← hcredited] at hoperator hreferrer
  simp only [workerFloorBps, basisPointsDivisor] at hfloor
  simp only [u64Limit] at hbase
  unfold carveLegs
  split_ifs with hactive
  · have hforfeited : fees.forfeited =
        .ok (fees.forfeitedOperatorFee + fees.forfeitedReferrerFee) := by
      rw [CreditableMarketplaceFees.forfeited, addU64_eq_ok]
      exact ⟨by simp only [u64Limit]; omega, rfl⟩
    simp only [bind_eq_ok, require_eq_ok, addU64_eq_ok, subU_eq_ok, Prod.exists,
      Except.ok.injEq, u64Limit]
    refine ⟨⟨base - pf - (o + r) + (fees.forfeitedOperatorFee + fees.forfeitedReferrerFee), pf,
      fees.operatorFee, fees.referrerFee⟩, ⟨(), hfees.sol hactive, base, ⟨?_, ?_⟩, o, r, hcombined,
      o + r, ⟨?_, rfl⟩, base - pf - (o + r), ⟨?_, rfl⟩, (), ?_,
      fees.forfeitedOperatorFee + fees.forfeitedReferrerFee, ?_, _, ⟨?_, rfl⟩, ?_⟩,
      ?_, hpf, ?_, ?_, ?_⟩
    · omega
    · omega
    · omega
    · omega
    · omega
    · rw [← hforfeited, hcredited]
    · omega
    · rw [hcredited]
    · show base - pf - (o + r) + (fees.forfeitedOperatorFee + fees.forfeitedReferrerFee) + pf +
        fees.operatorFee + fees.referrerFee = base
      omega
    · rw [← ho]
      show fees.operatorFee ≤ o
      omega
    · rw [← hr]
      show fees.referrerFee ≤ r
      omega
    · simp only [workerFloorBps, basisPointsDivisor]
      omega
  · have hnoOperator : o = 0 := hoperatorFree (by omega)
    have hnoReferrer : r = 0 := hreferrerFree (by omega)
    refine ⟨_, rfl, ?_, hpf, Nat.zero_le _, Nat.zero_le _, ?_⟩
    · simp only
      omega
    · simp only [workerFloorBps, basisPointsDivisor]
      omega

/-- A split of a 64-bit base has a 64-bit total. -/
theorem SplitsBase.splitTotal {s : RewardSplit} {o r : ℕ} (h : SplitsBase s base p o r)
    (hbase : base < u64Limit) : Checked.splitTotal s = .ok base := by
  have htotal := h.total
  simp only [Checked.splitTotal, bind_eq_ok, addU64_eq_ok]
  exact ⟨_, ⟨by omega, rfl⟩, _, ⟨by omega, rfl⟩, by omega, by omega⟩

/-- The amount a settlement divides: the accepted bid's price, or the share of the next worker. -/
def grossOf (task : Task) (rewardAmountOverride : Option ℕ) : Result ℕ :=
  match rewardAmountOverride with
  | some amount => .ok amount
  | none => calculateRewardPerWorker task

theorem twoWaySplit_of_gross {rewardAmountOverride : Option ℕ}
    (hgross : grossOf task rewardAmountOverride = .ok base) :
    twoWaySplit task p rewardAmountOverride = calculateRewardSplitForAmount base p := by
  cases rewardAmountOverride with
  | none =>
    change calculateRewardPerWorker task = .ok base at hgross
    rw [twoWaySplit, calculateRewardSplit, hgross]
    rfl
  | some amount =>
    obtain rfl := Except.ok.inj hgross
    rfl

/-- Any positive base is divided, and no operation on the way overflows. -/
theorem settlementSplit_ok {rewardAmountOverride : Option ℕ}
    (hfees : AdmissibleFees task p operatorLeg referrerLeg withTokenAccounts)
    (hgross : grossOf task rewardAmountOverride = .ok base) (hpos : 0 < base)
    (hbase : base < u64Limit) :
    ∃ s, settlementSplit task p rewardAmountOverride operatorLeg referrerLeg rent
        withTokenAccounts = .ok (s, base) ∧
      SplitsBase s base p (activeFeeBps operatorLeg) (activeFeeBps referrerLeg) := by
  have hp : p ≤ maxCombinedFeeBps := by
    have := hfees.combined
    omega
  obtain ⟨s, hcarved, hsplit⟩ := @carveLegs_ok _ _ _ _ _ rent _ hfees hpos hbase
  refine ⟨s, ?_, hsplit⟩
  simp only [settlementSplit, twoWaySplit_of_gross hgross,
    calculateRewardSplitForAmount_ok hpos hbase hp, bind_eq_ok, Prod.exists, Except.ok.injEq]
  exact ⟨_, _, rfl, s, hcarved, base, hsplit.splitTotal hbase, rfl⟩

/-- Nothing is not divided. -/
theorem settlementSplit_zero {rewardAmountOverride : Option ℕ}
    (hgross : grossOf task rewardAmountOverride = .ok 0) :
    settlementSplit task p rewardAmountOverride operatorLeg referrerLeg rent withTokenAccounts =
      .error .RewardTooSmall := by
  rw [settlementSplit, twoWaySplit_of_gross hgross, calculateRewardSplitForAmount_zero]
  rfl

end Split

/-! ## The shares of a task -/

/-- The next collaborator's share goes by how many were paid before. -/
theorem calculateRewardPerWorker_eq {task : Task} (hcollaborative : task.taskType = .Collaborative)
    (hreward : task.rewardAmount < u64Limit) (hrequired : 0 < task.requiredCompletions) :
    calculateRewardPerWorker task =
      .ok (roundedShare task.rewardAmount task.requiredCompletions task.completions) := by
  have hle := @roundedShare_le task.rewardAmount _ task.completions hrequired
  simp only [calculateRewardPerWorker, hcollaborative, bind_eq_ok, divU_eq_ok, remU_eq_ok]
  refine ⟨_, ⟨hrequired.ne', rfl⟩, _, ⟨hrequired.ne', rfl⟩, ?_⟩
  unfold roundedShare at hle ⊢
  split_ifs with hfirst
  · rw [if_pos hfirst] at hle
    rw [addU64_eq_ok]
    exact ⟨by omega, rfl⟩
  · rfl

/-! ## Connection -/

/-- A leg as the builders give it: with a fee and a payee. -/
def IsBuilt (leg : Option FeeLeg) : Prop := ∀ l, leg = some l → 0 < l.feeBps ∧ l.payee.key ≠ 0

theorem IsBuilt.feeBps {leg : Option FeeLeg} (h : IsBuilt leg) :
    activeFeeBps leg = (leg.map FeeLeg.feeBps).getD 0 := by
  cases leg with
  | none => rfl
  | some leg => exact if_pos (h leg rfl)

theorem IsBuilt.active {leg : Option FeeLeg} (h : IsBuilt leg) :
    0 < activeFeeBps leg ↔ leg ≠ none := by
  rw [h.feeBps]
  cases leg with
  | none => simp
  | some leg => simpa using (h leg rfl).1

section Connection

variable {task : Task} {p total : ℕ} {rewardAmountOverride : Option ℕ}
  {operatorLeg referrerLeg : Option FeeLeg} {rent : Rent} {withTokenAccounts : Bool}
  {s : RewardSplit}

theorem calculateRewardSplitForAmount_spec {gross : ℕ} {split : ℕ × ℕ}
    (h : calculateRewardSplitForAmount gross p = .ok split) :
    AgencCoordination.calculateRewardSplitForAmount gross p = .ok split := by
  simp only [calculateRewardSplitForAmount, bind_eq_ok] at h
  obtain ⟨fee, hfee, hsplit⟩ := h
  obtain rfl := bpsOf_spec hfee
  simp only [AgencCoordination.calculateRewardSplitForAmount, bind_eq_ok]
  exact hsplit

theorem grossOf_spec {gross : ℕ} (h : grossOf task rewardAmountOverride = .ok gross) :
    completionGross task rewardAmountOverride = .ok gross := by
  cases rewardAmountOverride with
  | some amount => exact h
  | none =>
    change calculateRewardPerWorker task = .ok gross at h
    show AgencCoordination.calculateRewardPerWorker task = .ok gross
    unfold calculateRewardPerWorker at h
    unfold AgencCoordination.calculateRewardPerWorker
    cases htype : task.taskType with
    | Collaborative =>
      simp only [htype, bind_eq_ok, divU_eq_ok, remU_eq_ok] at h
      obtain ⟨_, ⟨hrequired, rfl⟩, _, ⟨-, rfl⟩, h⟩ := h
      simp only [require_bind_eq_ok]
      exact ⟨hrequired, h⟩
    | Exclusive => simpa only [htype] using h
    | Competitive => simpa only [htype] using h
    | BidExclusive => simpa only [htype] using h

theorem calculateCombinedFees_spec {base o r : ℕ} {fees : ℕ × ℕ}
    (h : calculateCombinedFees base p o r = .ok fees) :
    AgencCoordination.calculateCombinedFees base p o r = .ok fees := by
  simp only [calculateCombinedFees, bind_eq_ok, require_eq_ok, addU64_eq_ok, checkedSub_eq_ok,
    Except.ok.injEq] at h
  obtain ⟨_, ho, _, hr, _, ⟨-, rfl⟩, _, ⟨-, rfl⟩, _, hcap, _, ⟨-, rfl⟩, _, hfloor, h⟩ := h
  obtain ⟨operatorFee, hoperator, referrerFee, hreferrer, rfl⟩ := h
  obtain rfl := bpsOf_spec hoperator
  obtain rfl := bpsOf_spec hreferrer
  simp only [AgencCoordination.calculateCombinedFees, require_bind_eq_ok]
  exact ⟨ho, hr, hcap, hfloor, trivial⟩

/-- The checked computation gives the split the program model pays. -/
theorem settlementSplit_completionSplit (hoperator : IsBuilt operatorLeg)
    (hreferrer : IsBuilt referrerLeg)
    (h : settlementSplit task p rewardAmountOverride operatorLeg referrerLeg rent
      withTokenAccounts = .ok (s, total)) :
    completionSplit task p rewardAmountOverride operatorLeg referrerLeg rent = .ok s ∧
      total = s.total := by
  simp only [settlementSplit, bind_eq_ok, Prod.exists, Except.ok.injEq, Prod.mk.injEq] at h
  obtain ⟨workerReward, protocolFee, htwoWay, split, hcarve, sum, hsum, rfl, rfl⟩ := h
  obtain ⟨gross, hgross, hsplit⟩ : ∃ gross, grossOf task rewardAmountOverride = .ok gross ∧
      calculateRewardSplitForAmount gross p = .ok (workerReward, protocolFee) := by
    cases rewardAmountOverride with
    | some amount => exact ⟨amount, rfl, htwoWay⟩
    | none =>
      simp only [twoWaySplit, calculateRewardSplit, bind_eq_ok] at htwoWay
      exact htwoWay
  have htwo := calculateRewardSplitForAmount_spec hsplit
  have hbase := (AgencCoordination.calculateRewardSplitForAmount_spec htwo).1
  obtain rfl : workerReward + protocolFee = gross := hbase
  refine ⟨?_, ?_⟩
  · simp only [completionSplit, bind_eq_ok, require_eq_ok, Prod.exists]
    refine ⟨_, grossOf_spec hgross, workerReward, protocolFee, htwo, ?_⟩
    unfold carveLegs at hcarve
    unfold carveMarketplaceLegs
    rcases ite_eq_iff.mp hcarve with ⟨hactive, hcarve⟩ | ⟨hidle, hcarve⟩
    · rw [hoperator.active, hreferrer.active] at hactive
      have hlegs : ¬ (operatorLeg = none ∧ referrerLeg = none) := by
        rwa [not_and_or]
      simp only [bind_eq_ok, require_eq_ok, addU64_eq_ok, subU_eq_ok, Prod.exists,
        CreditableMarketplaceFees.forfeited, Except.ok.injEq] at hcarve
      obtain ⟨_, hsol, _, ⟨-, rfl⟩, o, r, hcombined, _, ⟨-, rfl⟩, _, ⟨hle, rfl⟩, hcarve⟩ := hcarve
      obtain ⟨_, hpos, _, ⟨-, rfl⟩, _, ⟨-, rfl⟩, rfl⟩ := hcarve
      refine ⟨(), .inr hsol.1, ?_⟩
      rw [if_neg hlegs, ← hoperator.feeBps, ← hreferrer.feeBps]
      simp only [bind_eq_ok, require_eq_ok, subU_eq_ok, Prod.exists, Except.ok.injEq]
      exact ⟨o, r, calculateCombinedFees_spec hcombined, _, ⟨hle, rfl⟩, (), hpos, rfl⟩
    · rw [hoperator.active, hreferrer.active, not_or, not_not, not_not] at hidle
      exact ⟨(), .inl hidle, by rw [if_pos hidle]; exact hcarve⟩
  · simp only [splitTotal, bind_eq_ok, addU64_eq_ok] at hsum
    obtain ⟨_, ⟨-, rfl⟩, _, ⟨-, rfl⟩, -, rfl⟩ := hsum
    rfl

end Connection

end Checked

/-- **Shares and split.** The gross shares of a collaborative task are positive, fall by at most
one lamport from the first to the last, and add up to the reward. Any settlement divides its base
between worker, treasury, operator and referrer without an overflow, and leaves the worker six
parts in ten; only a base of nothing is refused. -/
theorem shares_and_split :
    (∀ task : Task, task.taskType = .Collaborative → task.rewardAmount < u64Limit →
      1 ≤ task.requiredCompletions → task.requiredCompletions ≤ task.rewardAmount →
      ∃ share : ℕ → ℕ,
        (∀ i < task.requiredCompletions,
          Checked.calculateRewardPerWorker { task with completions := i } = .ok (share i)) ∧
        (∀ i, 1 ≤ share i) ∧
        (∀ i j, i ≤ j → share j ≤ share i) ∧
        (∀ i j, share i ≤ share j + 1) ∧
        ∑ i ∈ Finset.range task.requiredCompletions, share i = task.rewardAmount) ∧
    ∀ (task : Task) (rewardAmountOverride : Option ℕ) (base p : ℕ)
      (operatorLeg referrerLeg : Option FeeLeg) (rent : Rent) (withTokenAccounts : Bool),
      Checked.AdmissibleFees task p operatorLeg referrerLeg withTokenAccounts →
      Checked.grossOf task rewardAmountOverride = .ok base → base < u64Limit →
      (0 < base → ∃ s, Checked.settlementSplit task p rewardAmountOverride operatorLeg referrerLeg
          rent withTokenAccounts = .ok (s, base) ∧
        Checked.SplitsBase s base p (activeFeeBps operatorLeg) (activeFeeBps referrerLeg)) ∧
      (base = 0 → Checked.settlementSplit task p rewardAmountOverride operatorLeg referrerLeg rent
        withTokenAccounts = .error .RewardTooSmall) := by
  refine ⟨fun task hcollaborative hreward hrequired hfunded => ?_, ?_⟩
  · refine ⟨roundedShare task.rewardAmount task.requiredCompletions, fun i _ => ?_,
      fun i => roundedShare_pos hrequired hfunded, fun i j hij => roundedShare_antitone hij,
      fun i j => roundedShare_near, sum_roundedShare hrequired⟩
    exact Checked.calculateRewardPerWorker_eq hcollaborative hreward hrequired
  · intro task rewardAmountOverride base p operatorLeg referrerLeg rent withTokenAccounts hfees
      hgross hbase
    refine ⟨fun hpos => Checked.settlementSplit_ok hfees hgross hpos hbase, ?_⟩
    rintro rfl
    exact Checked.settlementSplit_zero hgross

/-- Ten lamports between three collaborators, and a million under three fees. -/
theorem shares_and_split_three :
    (∃ share : ℕ → ℕ, ∑ i ∈ Finset.range 3, share i = 10 ∧ ∀ i, 1 ≤ share i) ∧
    ∃ s, Checked.settlementSplit {} 500 (some 1000000) (some ⟨⟨30, 0, 0⟩, 1000⟩)
        (some ⟨⟨31, 1000000, 0⟩, 300⟩) ⟨3480, 2⟩ false = .ok (s, 1000000) ∧
      6000 * 1000000 ≤ 10000 * s.workerReward := by
  obtain ⟨hshares, hsplit⟩ := shares_and_split
  obtain ⟨share, -, hpos, -, -, hsum⟩ := hshares
    { taskType := .Collaborative, rewardAmount := 10, requiredCompletions := 3 } rfl (by decide)
    (by decide) (by decide)
  obtain ⟨s, hs, hdivides⟩ := (hsplit {} (some 1000000) 1000000 500 (some ⟨⟨30, 0, 0⟩, 1000⟩)
    (some ⟨⟨31, 1000000, 0⟩, 300⟩) ⟨3480, 2⟩ false
    ⟨by decide, by decide, by decide, fun _ => ⟨rfl, rfl⟩⟩ rfl (by decide)).1 (by decide)
  exact ⟨⟨share, hsum, hpos⟩, s, hs, hdivides.floor⟩

end AgencCoordination
