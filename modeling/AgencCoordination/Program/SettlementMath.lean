import AgencCoordination.Program.Completion

/-!
# The arithmetic of a settlement

The fee computations of `completion_helpers.rs` with every machine operation in its place: the
products in 128 bits, the quotients cut to 64, each `checked_*` with its error. The definitions of
`Program.Completion` are these with the operations that cannot fail left out.

* **`Checked.calculateRewardPerWorker`** — the share of the next collaborator.
* **`Checked.settlementSplit`** — the head of `execute_completion_rewards`, up to the total it
  holds against the escrow.
-/

namespace AgencCoordination

open Foundations

/-! ## Wide integers -/

def u128Limit : ℕ := 2 ^ 128

/-- `u128::checked_mul(..).ok_or(ArithmeticOverflow)`. -/
def mulU128 (a b : ℕ) : Result ℕ :=
  if a * b < u128Limit then .ok (a * b) else .error .ArithmeticOverflow

/-- `checked_div(..).ok_or(ArithmeticOverflow)` of an unsigned integer of any width. -/
def divU (a b : ℕ) : Result ℕ := if b = 0 then .error .ArithmeticOverflow else .ok (a / b)

/-- `checked_rem(..).ok_or(ArithmeticOverflow)` of an unsigned integer of any width. -/
def remU (a b : ℕ) : Result ℕ := if b = 0 then .error .ArithmeticOverflow else .ok (a % b)

/-- `as u64`. -/
def asU64 (a : ℕ) : ℕ := a % u64Limit

@[simp] theorem mulU128_eq_ok {a b r : ℕ} : mulU128 a b = .ok r ↔ a * b < u128Limit ∧ r = a * b := by
  unfold mulU128
  split_ifs with h
  · simp [h, eq_comm]
  · simp [h]

@[simp] theorem divU_eq_ok {a b r : ℕ} : divU a b = .ok r ↔ b ≠ 0 ∧ r = a / b := by
  unfold divU
  split_ifs with h
  · simp [h]
  · simp [h, eq_comm]

@[simp] theorem remU_eq_ok {a b r : ℕ} : remU a b = .ok r ↔ b ≠ 0 ∧ r = a % b := by
  unfold remU
  split_ifs with h
  · simp [h]
  · simp [h, eq_comm]

/-- `CreditableMarketplaceFees::forfeited`. -/
def CreditableMarketplaceFees.forfeited (fees : CreditableMarketplaceFees) : Result ℕ :=
  addU64 fees.forfeitedOperatorFee fees.forfeitedReferrerFee

/-- The rate of a leg that is there, has a fee and names a payee; else nothing. -/
def activeFeeBps (leg : Option FeeLeg) : ℕ :=
  match leg with
  | some leg => if 0 < leg.feeBps ∧ leg.payee.key ≠ 0 then leg.feeBps else 0
  | none => 0

namespace Checked

/-! ## Fees -/

/-- One fee: the product in 128 bits, the quotient cut to 64. -/
def bpsOf (amount bps : ℕ) : Result ℕ := do
  let product ← mulU128 amount bps
  let fee ← divU product basisPointsDivisor
  .ok (asU64 fee)

/-- `calculate_reward_split_for_amount`. -/
def calculateRewardSplitForAmount (rewardPerWorker protocolFeeBps : ℕ) : Result (ℕ × ℕ) := do
  let protocolFee ← bpsOf rewardPerWorker protocolFeeBps
  let workerReward ← subU rewardPerWorker protocolFee
  require (0 < workerReward) .RewardTooSmall
  .ok (workerReward, protocolFee)

/-- `calculate_reward_per_worker`. -/
def calculateRewardPerWorker (task : Task) : Result ℕ :=
  match task.taskType with
  | .Collaborative => do
      let baseShare ← divU task.rewardAmount task.requiredCompletions
      let remainder ← remU task.rewardAmount task.requiredCompletions
      if task.completions < remainder then addU64 baseShare 1 else .ok baseShare
  | .Competitive | .Exclusive | .BidExclusive => .ok task.rewardAmount

/-- `calculate_reward_split`. -/
def calculateRewardSplit (task : Task) (protocolFeeBps : ℕ) : Result (ℕ × ℕ) := do
  let rewardPerWorker ← calculateRewardPerWorker task
  calculateRewardSplitForAmount rewardPerWorker protocolFeeBps

/-- `calculate_combined_fees`. -/
def calculateCombinedFees (base protocolFeeBps operatorFeeBps referrerFeeBps : ℕ) :
    Result (ℕ × ℕ) := do
  require (operatorFeeBps ≤ maxOperatorFeeBps) .ListingOperatorFeeTooHigh
  require (referrerFeeBps ≤ maxReferrerFeeBps) .ReferrerFeeTooHigh
  let protocolAndOperator ← addU64 protocolFeeBps operatorFeeBps
  let combinedBps ← addU64 protocolAndOperator referrerFeeBps
  require (combinedBps ≤ maxCombinedFeeBps) .CombinedFeeAboveCap
  let workerBps ← checkedSub basisPointsDivisor combinedBps .CombinedFeeAboveCap
  require (workerFloorBps ≤ workerBps) .CombinedFeeAboveCap
  let operatorFee ← bpsOf base operatorFeeBps
  let referrerFee ← bpsOf base referrerFeeBps
  .ok (operatorFee, referrerFee)

/-! ## The settlement -/

/-- The worker reward and protocol fee: of the accepted bid's price, or of the share. -/
def twoWaySplit (task : Task) (protocolFeeBps : ℕ) (rewardAmountOverride : Option ℕ) :
    Result (ℕ × ℕ) :=
  match rewardAmountOverride with
  | some amount => calculateRewardSplitForAmount amount protocolFeeBps
  | none => calculateRewardSplit task protocolFeeBps

/-- Carve the two legs out of the worker's reward; what their payees cannot be credited goes
back to the worker. -/
def carveLegs (task : Task) (protocolFeeBps workerReward protocolFee : ℕ)
    (operatorLeg referrerLeg : Option FeeLeg) (rent : Rent) (withTokenAccounts : Bool) :
    Result RewardSplit :=
  if 0 < activeFeeBps operatorLeg ∨ 0 < activeFeeBps referrerLeg then do
    require (task.rewardMint = none ∧ withTokenAccounts = false) .InvalidTokenMint
    let base ← addU64 workerReward protocolFee
    let (operatorFee, referrerFee) ← calculateCombinedFees base protocolFeeBps
      (activeFeeBps operatorLeg) (activeFeeBps referrerLeg)
    let totalLegs ← addU64 operatorFee referrerFee
    let carved ← subU workerReward totalLegs
    require (0 < carved) .RewardTooSmall
    let fees := splitCreditableMarketplaceFees
      (operatorLeg.map fun leg => (leg.payee, operatorFee))
      (referrerLeg.map fun leg => (leg.payee, referrerFee)) rent
    let forfeited ← fees.forfeited
    let workerReward ← addU64 carved forfeited
    .ok ⟨workerReward, protocolFee, fees.operatorFee, fees.referrerFee⟩
  else .ok ⟨workerReward, protocolFee, 0, 0⟩

/-- The total a settlement holds against the escrow, one addition after another. -/
def splitTotal (split : RewardSplit) : Result ℕ := do
  let total ← addU64 split.workerReward split.protocolFee
  let total ← addU64 total split.operatorFee
  addU64 total split.referrerFee

/-- The head of `execute_completion_rewards`: the split of one settlement and its total. -/
def settlementSplit (task : Task) (protocolFeeBps : ℕ) (rewardAmountOverride : Option ℕ)
    (operatorLeg referrerLeg : Option FeeLeg) (rent : Rent) (withTokenAccounts : Bool) :
    Result (RewardSplit × ℕ) := do
  let (workerReward, protocolFee) ← twoWaySplit task protocolFeeBps rewardAmountOverride
  let split ← carveLegs task protocolFeeBps workerReward protocolFee operatorLeg referrerLeg rent
    withTokenAccounts
  let total ← splitTotal split
  .ok (split, total)

end Checked

end AgencCoordination
