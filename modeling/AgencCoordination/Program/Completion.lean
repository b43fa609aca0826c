import AgencCoordination.Program.TaskValidation

/-!
# Completion payouts

The functions of `completion_helpers.rs`: how a gross reward splits between worker, treasury,
operator and referrer, and `executeCompletionRewards`, the settlement every completion, accept
and freeze exit goes through.
-/

namespace AgencCoordination

open Foundations

/-! ## Fees -/

/-- `calculate_reputation_fee_discount` over `REPUTATION_FEE_TIERS`. -/
def calculateReputationFeeDiscount (reputation : ℕ) : ℕ :=
  if 9500 ≤ reputation then 15
  else if 9000 ≤ reputation then 10
  else if 8000 ≤ reputation then 5
  else 0

/-- `calculate_fee_with_reputation`. -/
def calculateFeeWithReputation (taskProtocolFeeBps workerReputation : ℕ) : ℕ :=
  if taskProtocolFeeBps = 0 then 0
  else max 1 (taskProtocolFeeBps - calculateReputationFeeDiscount workerReputation)

/-- The fraction `bps / 10000` of an amount, computed in 128 bits and cut to 64. -/
def bpsOf (amount bps : ℕ) : ℕ := amount * bps / basisPointsDivisor % u64Limit

/-- `calculate_reward_split_for_amount`: worker reward and protocol fee. -/
def calculateRewardSplitForAmount (rewardPerWorker protocolFeeBps : ℕ) : Result (ℕ × ℕ) := do
  let protocolFee := bpsOf rewardPerWorker protocolFeeBps
  let workerReward ← subU rewardPerWorker protocolFee
  require (0 < workerReward) .RewardTooSmall
  .ok (workerReward, protocolFee)

/-- `calculate_reward_per_worker`: the first `reward % required` collaborators get one lamport
more. -/
def calculateRewardPerWorker (task : Task) : Result ℕ :=
  match task.taskType with
  | .Collaborative => do
      require (task.requiredCompletions ≠ 0) .ArithmeticOverflow
      let baseShare := task.rewardAmount / task.requiredCompletions
      let remainder := task.rewardAmount % task.requiredCompletions
      if task.completions < remainder then addU64 baseShare 1 else .ok baseShare
  | .Competitive | .Exclusive | .BidExclusive => .ok task.rewardAmount

/-- `calculate_combined_fees`: operator and referrer fee under the combined cap. -/
def calculateCombinedFees (base protocolFeeBps operatorFeeBps referrerFeeBps : ℕ) :
    Result (ℕ × ℕ) := do
  require (operatorFeeBps ≤ maxOperatorFeeBps) .ListingOperatorFeeTooHigh
  require (referrerFeeBps ≤ maxReferrerFeeBps) .ReferrerFeeTooHigh
  let combinedBps := protocolFeeBps + operatorFeeBps + referrerFeeBps
  require (combinedBps ≤ maxCombinedFeeBps) .CombinedFeeAboveCap
  require (workerFloorBps ≤ basisPointsDivisor - combinedBps) .CombinedFeeAboveCap
  .ok (bpsOf base operatorFeeBps, bpsOf base referrerFeeBps)

/-! ## Operator and referrer legs -/

/-- `OperatorLeg` and `ReferrerLeg`: a payee and its fee. -/
structure FeeLeg where
  payee : PayeeAccount
  feeBps : ℕ
  deriving DecidableEq

/-- `resolve_referrer_snapshot`: the referrer terms a new task pins. -/
def resolveReferrerSnapshot (referrer : Option Pubkey)
    (referrerFeeBps protocolFeeBps operatorFeeBps : ℕ) (creator : Pubkey) :
    Result (Pubkey × ℕ) := do
  let referrerKey := referrer.getD 0
  if referrerKey = 0 ∨ referrerFeeBps = 0 then do
    require (referrerFeeBps = 0 ∨ referrerKey ≠ 0) .MissingReferrerAccount
    .ok (0, 0)
  else do
    require (referrerFeeBps ≤ maxReferrerFeeBps) .ReferrerFeeTooHigh
    require (protocolFeeBps + operatorFeeBps + referrerFeeBps ≤ maxCombinedFeeBps)
      .CombinedFeeAboveCap
    require (referrerKey ≠ creator) .ReferrerIsCreator
    .ok (referrerKey, referrerFeeBps)

/-- `require_payable_marketplace_payee`: neither the program nor a reserved key can be credited. -/
def requirePayableMarketplacePayee (sys : Sysvars) (payee : Pubkey) : Result Unit :=
  require (payee ≠ sys.programId ∧ payee ∉ sys.reservedPayeeKeys) .MarketplacePayeeUnpayable

/-- `validate_marketplace_payee_destinations`. -/
def validateMarketplacePayeeDestinations (sys : Sysvars) (taskKey creator operator : Pubkey)
    (operatorFeeBps : ℕ) (referrer : Pubkey) (referrerFeeBps : ℕ) : Result Unit := do
  if 0 < operatorFeeBps then do
    require (operator ≠ 0) .ListingOperatorRequired
    require (operator ≠ creator) .OperatorIsCreator
    require (operator ≠ taskKey ∧ operator ≠ sys.escrowAddress taskKey)
      .MarketplacePayeeAccountAlias
    requirePayableMarketplacePayee sys operator
  else pure ()
  if 0 < referrerFeeBps then do
    require (referrer ≠ 0) .MissingReferrerAccount
    require (referrer ≠ creator) .ReferrerIsCreator
    require (referrer ≠ taskKey ∧ referrer ≠ sys.escrowAddress taskKey)
      .MarketplacePayeeAccountAlias
    requirePayableMarketplacePayee sys referrer
  else pure ()

/-- `MarketplaceTerms`. -/
structure MarketplaceTerms where
  operator : Pubkey
  operatorFeeBps : ℕ
  referrer : Pubkey
  referrerFeeBps : ℕ
  deriving DecidableEq

/-- `resolve_task_marketplace_terms`: the terms snapshotted on the task, else those of its hire
record, else none. -/
def resolveTaskMarketplaceTerms (accounts : TaskAccounts) : MarketplaceTerms :=
  if accounts.task.operator ≠ 0 ∨ accounts.task.referrer ≠ 0 then
    ⟨accounts.task.operator, accounts.task.operatorFeeBps, accounts.task.referrer,
      accounts.task.referrerFeeBps⟩
  else
    match accounts.hire with
    | some hire =>
        ⟨hire.operator, hire.operatorFeeBps, hire.referrer, hire.referrerFeeBps⟩
    | none => ⟨0, 0, 0, 0⟩

/-- One leg of the marketplace fees: absent without a fee and a payee, else the account the
caller passes must be the payee's. -/
def buildFeeLeg (payee : Pubkey) (feeBps : ℕ) (account : Option PayeeAccount)
    (missing invalid : CoordinationError) : Result (Option FeeLeg) :=
  if feeBps = 0 ∨ payee = 0 then .ok none
  else do
    let acct ← demand account missing
    require (acct.key = payee) invalid
    .ok (some ⟨acct, feeBps⟩)

/-- `build_referrer_leg`. -/
def buildReferrerLeg (referrer : Pubkey) (referrerFeeBps : ℕ)
    (referrerAccount : Option PayeeAccount) : Result (Option FeeLeg) :=
  buildFeeLeg referrer referrerFeeBps referrerAccount .MissingReferrerAccount
    .InvalidReferrerAccount

/-- The operator leg, as `build_marketplace_fee_legs` builds it. -/
def buildOperatorLeg (operator : Pubkey) (operatorFeeBps : ℕ)
    (operatorAccount : Option PayeeAccount) : Result (Option FeeLeg) :=
  buildFeeLeg operator operatorFeeBps operatorAccount .MissingOperatorAccount
    .InvalidOperatorAccount

/-- `build_marketplace_fee_legs`. -/
def buildMarketplaceFeeLegs (c : TaskContext) (operatorAccount referrerAccount :
    Option PayeeAccount) : Result (Option FeeLeg × Option FeeLeg) := do
  let terms := resolveTaskMarketplaceTerms c.accounts
  validateMarketplacePayeeDestinations c.sys c.key c.task.creator terms.operator
    terms.operatorFeeBps terms.referrer terms.referrerFeeBps
  let operatorLeg ← buildOperatorLeg terms.operator terms.operatorFeeBps operatorAccount
  let referrerLeg ← buildReferrerLeg terms.referrer terms.referrerFeeBps referrerAccount
  .ok (operatorLeg, referrerLeg)

/-- `CreditableMarketplaceFees`. -/
structure CreditableMarketplaceFees where
  operatorFee : ℕ := 0
  referrerFee : ℕ := 0
  forfeitedOperatorFee : ℕ := 0
  forfeitedReferrerFee : ℕ := 0
  deriving DecidableEq

/-- `marketplace_payee_accepts`. -/
def marketplacePayeeAccepts (payee : PayeeAccount) (credit : ℕ) (rent : Rent) : Bool :=
  if payee.lamports + credit < u64Limit then rent.isExempt (payee.lamports + credit) payee.dataLen
  else true

/-- Whether one leg can be credited; two legs of one payee are credited together. -/
def legCreditable (leg other : Option (PayeeAccount × ℕ)) (rent : Rent) : Bool :=
  match leg with
  | none => true
  | some (payee, fee) =>
      if fee = 0 then true
      else
        let shared :=
          match other with
          | some (otherPayee, otherFee) =>
              if otherPayee.key = payee.key then satAdd u64Limit fee otherFee else fee
          | none => fee
        marketplacePayeeAccepts payee shared rent

/-- `split_creditable_marketplace_fees`: a leg its payee cannot hold is forfeited to the
worker. -/
def splitCreditableMarketplaceFees (operator referrer : Option (PayeeAccount × ℕ))
    (rent : Rent) : CreditableMarketplaceFees :=
  let operatorFee := (operator.map Prod.snd).getD 0
  let referrerFee := (referrer.map Prod.snd).getD 0
  let operatorOk := legCreditable operator referrer rent
  let referrerOk := legCreditable referrer operator rent
  { operatorFee := if operatorOk then operatorFee else 0
    referrerFee := if referrerOk then referrerFee else 0
    forfeitedOperatorFee := if operatorOk then 0 else operatorFee
    forfeitedReferrerFee := if referrerOk then 0 else referrerFee }

/-! ## Settlement splits -/

/-- What one settlement pays out of the escrow. -/
structure RewardSplit where
  workerReward : ℕ
  protocolFee : ℕ
  operatorFee : ℕ
  referrerFee : ℕ
  deriving DecidableEq

/-- Everything a settlement charges to `distributed`. -/
def RewardSplit.total (s : RewardSplit) : ℕ :=
  s.workerReward + s.protocolFee + s.operatorFee + s.referrerFee

/-- Carve the operator and referrer legs out of the worker's share of a gross amount. -/
def carveMarketplaceLegs (gross protocolFeeBps workerReward protocolFee : ℕ)
    (operatorLeg referrerLeg : Option FeeLeg) (rent : Rent) : Result RewardSplit :=
  if operatorLeg = none ∧ referrerLeg = none then
    .ok ⟨workerReward, protocolFee, 0, 0⟩
  else do
    let (operatorFee, referrerFee) ← calculateCombinedFees gross protocolFeeBps
      ((operatorLeg.map FeeLeg.feeBps).getD 0) ((referrerLeg.map FeeLeg.feeBps).getD 0)
    let carved ← subU workerReward (operatorFee + referrerFee)
    require (0 < carved) .RewardTooSmall
    let fees := splitCreditableMarketplaceFees
      (operatorLeg.map fun leg => (leg.payee, operatorFee))
      (referrerLeg.map fun leg => (leg.payee, referrerFee)) rent
    .ok ⟨carved + (fees.forfeitedOperatorFee + fees.forfeitedReferrerFee), protocolFee,
      fees.operatorFee, fees.referrerFee⟩

/-- The gross amount of a completion: the accepted bid's price, or the worker's share. -/
def completionGross (task : Task) (rewardAmountOverride : Option ℕ) : Result ℕ :=
  match rewardAmountOverride with
  | some amount => .ok amount
  | none => calculateRewardPerWorker task

/-- The fee computation at the head of `execute_completion_rewards`. Both legs are paid in SOL
only. -/
def completionSplit (task : Task) (protocolFeeBps : ℕ) (rewardAmountOverride : Option ℕ)
    (operatorLeg referrerLeg : Option FeeLeg) (rent : Rent) : Result RewardSplit := do
  let gross ← completionGross task rewardAmountOverride
  let (workerReward, protocolFee) ← calculateRewardSplitForAmount gross protocolFeeBps
  require ((operatorLeg = none ∧ referrerLeg = none) ∨ task.rewardMint = none) .InvalidTokenMint
  carveMarketplaceLegs gross protocolFeeBps workerReward protocolFee operatorLeg referrerLeg rent

/-! ## Books -/

/-- `completion_reputation_gain`. -/
def completionReputationGain (protocolFee : ℕ) (sol : Bool) : ℕ :=
  if sol then min (protocolFee / reputationFeeLamportsPerPoint) reputationPerCompletion else 0

/-- `update_worker_state`. -/
def updateWorkerState (worker : AgentRegistration) (reward protocolFee : ℕ) (sol : Bool)
    (timestamp : ℤ) : Result AgentRegistration := do
  let active ← subU worker.activeTasks 1
  .ok { worker with
    tasksCompleted := satAdd u64Limit worker.tasksCompleted 1
    totalEarned := if sol then satAdd u64Limit worker.totalEarned reward else worker.totalEarned
    activeTasks := active
    lastActive := timestamp
    reputation := min (satAdd u16Limit worker.reputation
      (completionReputationGain protocolFee sol)) maxReputation }

/-- `update_protocol_stats`. -/
def updateProtocolStats (config : ProtocolConfig) (reward : ℕ) (sol : Bool) : ProtocolConfig :=
  { config with
    completedTasks := satAdd u64Limit config.completedTasks 1
    totalValueDistributed :=
      if sol then satAdd u64Limit config.totalValueDistributed reward
      else config.totalValueDistributed }

/-- Whether the next completion is the last one required. -/
def completesTask (task : Task) : Bool := decide (task.requiredCompletions ≤ task.completions + 1)

/-- `update_task_state`. -/
def updateTaskState (task : Task) (timestamp : ℤ) (resultData : Option ℕ) : Result Task := do
  let workers ← subU task.currentWorkers 1
  let completions ← addU8 task.completions 1
  if completesTask task then
    .ok { task with
      currentWorkers := workers
      completions := completions
      status := .Completed
      completedAt := timestamp
      result := resultData.getD 0 }
  else .ok { task with currentWorkers := workers, completions := completions }

/-- `Task::record_rating_fee`. -/
def recordRatingFee (task : Task) (protocolFee : ℕ) (independentSolFee : Bool) : Task :=
  { task with
    ratingFeeQualified := task.ratingFeeQualified ||
      (independentSolFee && decide (minRatingProtocolFeeLamports ≤ protocolFee)) }

/-- The payment of one leg, if there is one. -/
def legTransfer (key : Pubkey) (leg : Option FeeLeg) (purpose : Purpose) (amount : ℕ) :
    List Transfer :=
  match leg with
  | some l => [⟨.escrow key, l.payee.key, purpose, amount⟩]
  | none => []

/-- The SOL payments of one settlement (`transfer_rewards`). -/
def rewardTransfers (key worker treasury : Pubkey) (operatorLeg referrerLeg : Option FeeLeg)
    (split : RewardSplit) : List Transfer :=
  ([⟨.escrow key, worker, .workerReward, split.workerReward⟩,
    ⟨.escrow key, treasury, .protocolFee, split.protocolFee⟩] : List Transfer) ++
  legTransfer key operatorLeg .operatorFee split.operatorFee ++
  legTransfer key referrerLeg .referrerFee split.referrerFee

/-- The balance payment of an escrow that is being closed. -/
def closeEscrowTransfer (key creator : Pubkey) (lamports : ℕ) : Transfer :=
  ⟨.escrow key, creator, .closingBalance, lamports⟩

/-- The SOL side of a settlement: pay the split, and close the escrow to the creator when the
task is done. -/
def settleSolRewards (c : TaskContext) (escrow : Account TaskEscrow) (split : RewardSplit)
    (operatorLeg referrerLeg : Option FeeLeg) (completed : Bool) : Result TaskContext := do
  require (split.total ≤ escrow.lamports) .InsufficientEscrowBalance
  let distributed ← addU64 escrow.data.distributed split.total
  let paid := rewardTransfers c.key c.worker.data.authority c.config.treasury operatorLeg
    referrerLeg split
  let left := escrow.lamports - split.total
  if completed then
    .ok ({ c with accounts := { c.accounts with escrow := none } }.pay
      (paid ++ [closeEscrowTransfer c.key c.task.creator left]))
  else
    .ok ({ c with accounts := { c.accounts with
      escrow := some ⟨left, { escrow.data with distributed := distributed }⟩ } }.pay paid)

/-- The token side of a settlement: pay worker and treasury from the token account; when the
task is done, sweep what is left to the treasury and close both accounts. -/
def settleTokenRewards (c : TaskContext) (escrow : Account TaskEscrow) (split : RewardSplit)
    (completed : Bool) : Result TaskContext := do
  let vault ← demand c.accounts.tokenEscrow .AccountNotInitialized
  let distributed ← addU64 escrow.data.distributed split.total
  require (split.workerReward ≤ vault) .TokenTransferFailed
  require (split.protocolFee ≤ vault - split.workerReward) .InsufficientEscrowBalance
  let left := vault - split.workerReward - split.protocolFee
  let paid : List Transfer :=
    [⟨.tokenEscrow c.key, c.worker.data.authority, .workerReward, split.workerReward⟩,
      ⟨.tokenEscrow c.key, c.config.treasury, .protocolFee, split.protocolFee⟩]
  if completed then
    .ok ({ c with accounts := { c.accounts with escrow := none, tokenEscrow := none } }.pay
      (paid ++ ([⟨.tokenEscrow c.key, c.config.treasury, .closingBalance, left⟩,
        closeEscrowTransfer c.key c.task.creator escrow.lamports] : List Transfer)))
  else
    .ok ({ c with accounts := { c.accounts with
      tokenEscrow := some left
      escrow := some { escrow with data := { escrow.data with distributed := distributed } } } }.pay
      paid)

/-- `execute_completion_rewards`. The claim it also stamps is closed by every caller. -/
def executeCompletionRewards (c : TaskContext) (protocolFeeBps : ℕ)
    (rewardAmountOverride resultData : Option ℕ) (operatorLeg referrerLeg : Option FeeLeg) :
    Result TaskContext := do
  let escrow ← demand c.accounts.escrow .AccountNotInitialized
  let split ← completionSplit c.task protocolFeeBps rewardAmountOverride operatorLeg referrerLeg
    c.sys.rent
  let sol := c.task.rewardMint.isNone
  let completed := completesTask c.task
  let task ← updateTaskState c.task c.sys.now resultData
  let worker ← updateWorkerState c.worker.data split.workerReward split.protocolFee sol c.sys.now
  let config :=
    if completed then
      updateProtocolStats c.config (rewardAmountOverride.getD c.task.rewardAmount) sol
    else c.config
  let independentSolFee := sol && decide (c.config.treasury ≠ c.task.creator ∧
    c.config.treasury ≠ c.worker.data.authority)
  let c₁ : TaskContext := { c with
    accounts := { c.accounts with
      task := recordRatingFee task split.protocolFee independentSolFee }
    worker := { c.worker with data := worker }
    config := config }
  if sol then settleSolRewards c₁ escrow split operatorLeg referrerLeg completed
  else settleTokenRewards c₁ escrow split completed

end AgencCoordination
