import AgencCoordination.Program.Program

/-!
# The accounts of a cancellation

`cancel_task` settles the accounts its caller lists after the fixed ones: the parent of a
dependent task, three accounts for each worker (the claim, the agent and the wallet the claim's
rent goes to), and the accounts of a bid. This module is the handler over such a list, whatever
accounts are on it and in whatever order.

* **`splitCancelDependencyParent`** — the optional parent in front.
* **`drainCancelledClaims`** — the loop over the worker accounts, three at a time.
* **`processCancelTask`** — the whole handler, from the world and the list.
-/

namespace AgencCoordination

open Foundations

/-- The address of an account a caller may list: a task, an agent or a wallet, by its key, or an
account derived from a task or from a bidder. -/
inductive AccountAddress
  | key (key : Pubkey)
  | claim (task worker : Pubkey)
  | bidBook (task : Pubkey)
  | bid (task bidder : Pubkey)
  | bidderMarketState (bidder : Pubkey)
  deriving DecidableEq, Repr

/-- One account of the caller's list. -/
structure AccountInfo where
  address : AccountAddress
  isWritable : Bool
  deriving DecidableEq, Repr

/-! ## The shape of the list -/

/-- How many accounts of the bid follow the worker accounts. -/
def bidSuffixLen (task : Task) : ℕ :=
  if task.taskType = .BidExclusive then
    if task.currentWorkers = 0 then 1 else 3
  else 0

/-- `dependency_parent_completed` over the caller's list: the first account must be the parent. -/
def loadDependencyParent (c : TaskContext) (remaining : List AccountInfo) : Result Bool := do
  let parent ← demand c.task.dependsOn .InvalidDependencyType
  let info ← demand remaining.head? .ParentTaskAccountRequired
  require (info.address = .key parent) .ParentTaskAccountRequired
  .ok (dependencyParentCompleted c)

/-- `split_cancel_dependency_parent`: the rest of the list, and whether it shows that the task
had not to wait for its parent. -/
def splitCancelDependencyParent (c : TaskContext) (remaining : List AccountInfo)
    (expected : ℕ) : Result (List AccountInfo × Bool) :=
  if c.task.dependencyType = .None then do
    require (remaining.length = expected) .InvalidInput
    .ok (remaining, true)
  else if remaining.length = expected then .ok (remaining, false)
  else do
    require (remaining.length = expected + 1) .InvalidInput
    let parentCompleted ← loadDependencyParent c remaining
    .ok (remaining.drop 1, parentCompleted)

/-- The worker accounts and the accounts of the bid. -/
def splitBidAccounts (task : Task) (settlement : List AccountInfo) :
    Result (List AccountInfo × List AccountInfo) :=
  if task.taskType = .BidExclusive then do
    require (settlement.length = 3 * task.currentWorkers + bidSuffixLen task)
      .BidSettlementAccountsRequired
    .ok (settlement.take (3 * task.currentWorkers), settlement.drop (3 * task.currentWorkers))
  else .ok (settlement, [])

/-- The accounts of a bid must be the derived ones, and writable where they are written. -/
def requireBidAccounts (c : TaskContext) (bidAccounts : List AccountInfo) : Result Unit :=
  if c.task.taskType = .BidExclusive then
    if c.task.currentWorkers = 0 then
      require (bidAccounts.map AccountInfo.address = [.bidBook c.key] ∧
        (c.accounts.bidBook.isSome = true → ∀ info ∈ bidAccounts, info.isWritable = true))
        .InvalidInput
    else
      require (bidAccounts = [⟨.bidBook c.key, true⟩, ⟨.bid c.key c.workerKey, true⟩,
        ⟨.bidderMarketState c.workerKey, true⟩]) .InvalidInput
  else .ok ()

/-! ## The loop -/

/-- The claim of one triple. It must be a writable claim on this task that was not closed
earlier in the loop. -/
def loadCancelledClaim (c : TaskContext) (info : AccountInfo) :
    Result (Pubkey × Account TaskClaim) :=
  match info.address with
  | .claim task worker => do
      require (info.isWritable = true) .InvalidInput
      require (task = c.key) .InvalidInput
      let claim ← demand (c.accounts.claims.lookup worker) .AccountNotInitialized
      .ok (worker, claim)
  | .key _ | .bidBook _ | .bid _ _ | .bidderMarketState _ => .error .InvalidAccountOwner

/-- The agent of one triple. -/
def loadCancelledWorker (agents : Ledger Pubkey (Account AgentRegistration)) (worker : Pubkey)
    (info : AccountInfo) : Result (Account AgentRegistration) := do
  require (info.isWritable = true) .InvalidInput
  require (info.address = .key worker) .InvalidInput
  demand (agents.lookup worker) .InvalidAccountOwner

/-- The loop over the worker triples: each claim is closed to its worker's wallet, the surplus
of a contest entry goes to the treasury, and each worker has one task less. -/
def drainCancelledClaims (c : TaskContext) (agents : Ledger Pubkey (Account AgentRegistration))
    (withTreasury : Bool) :
    List AccountInfo → Result (TaskContext × Ledger Pubkey (Account AgentRegistration))
  | [] => .ok (c, agents)
  | claimInfo :: workerInfo :: rentRecipientInfo :: rest => do
      let (key, claim) ← loadCancelledClaim c claimInfo
      let agent ← loadCancelledWorker agents key workerInfo
      require (rentRecipientInfo.address = .key agent.data.authority) .InvalidRentRecipient
      require (rentRecipientInfo.isWritable = true) .InvalidInput
      let forfeited := if isContestConfiguredTask c.task then claimSurplus c.sys.rent claim else 0
      require (0 < forfeited → withTreasury = true) .ContestForfeitTreasuryRequired
      drainCancelledClaims
        (closeClaimForfeitingSurplus { c with workerKey := key } claim agent.data.authority
          forfeited)
        (agents.insert key { agent with data := { agent.data with
          activeTasks := agent.data.activeTasks - 1 } })
        withTreasury rest
  | _ :: _ => .error .InvalidInput

/-- The wallets of the triples, one of which a forfeited completion bond must belong to. -/
def liveWorkerWallets : List AccountInfo → List AccountAddress
  | _ :: _ :: rentRecipientInfo :: rest => rentRecipientInfo.address :: liveWorkerWallets rest
  | _ => []

/-! ## The handler -/

/-- The context of the cancellation: the bid, if there is one, is the first listed worker's. -/
def cancelContext (w : World) (key : Pubkey) (accounts : TaskAccounts) :
    List AccountInfo → Result TaskContext
  | [] => .ok (w.taskContext key accounts)
  | claimInfo :: _ => do
      let (worker, _) ← loadCancelledClaim (w.taskContext key accounts) claimInfo
      let agent ← demand (w.agents.lookup worker) .InvalidAccountOwner
      .ok (w.workContext key accounts worker agent)

/-- `process_cancel_task` over the caller's accounts. `withTreasury` says whether the treasury
is passed. -/
def processCancelTask (w : World) (key signer : Pubkey) (remaining : List AccountInfo)
    (workerBondAuthority : Pubkey) (withTreasury : Bool) : Result (World × List Transfer) := do
  let accounts ← demand (w.tasks.lookup key) .AccountNotInitialized
  let task := accounts.task
  require (task.creator = signer) .UnauthorizedTaskAction
  checkVersionCompatibleForExit w.config
  validateCancelPrereqs task w.sys.now
  let noShow := decide (task.status = .InProgress ∧ 0 < task.currentWorkers)
  let (settlement, parentCompleted) ← splitCancelDependencyParent (w.taskContext key accounts)
    remaining (3 * task.currentWorkers + bidSuffixLen task)
  let (workerAccounts, bidAccounts) ← splitBidAccounts task settlement
  require (0 < task.currentWorkers → remaining ≠ []) .WorkerAccountsRequired
  let base ← cancelContext w key accounts workerAccounts
  let penaltyAllowed := noShow && parentCompleted
  let c ← refundEscrow base
  requireBidAccounts base bidAccounts
  let c ← settleBidsOnCancel { c with accounts := { c.accounts with
    task := { c.task with status := .Cancelled } } } penaltyAllowed
  require (workerAccounts.length % 3 = 0) .InvalidInput
  require (workerAccounts.length / 3 = task.currentWorkers) .IncompleteWorkerAccounts
  let (c, agents) ← drainCancelledClaims c w.agents withTreasury workerAccounts
  let c := { c with accounts := { c.accounts with task := { c.task with currentWorkers := 0 } } }
  let c ← settleCompletionBond c c.task.creator .Creator .Refund
  require (penaltyAllowed = true → .key workerBondAuthority ∈ liveWorkerWallets workerAccounts)
    .BondNotTiedToNoShowWorker
  let c ← settleNoShowBond c workerBondAuthority penaltyAllowed
  .ok (({ w with agents := agents }.storeBidder base.workerKey c.bidder).storeTask c, c.paid)

namespace World

/-- What the chain holds after an instruction: what the handler left, or, when it failed, what
was there before. -/
def commit (w : World) : Result (World × List Transfer) → World × List Transfer
  | .ok result => result
  | .error _ => (w, [])

end World

end AgencCoordination
