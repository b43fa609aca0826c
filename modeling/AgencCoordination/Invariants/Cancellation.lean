import AgencCoordination.Invariants.EntryDeposits
import AgencCoordination.Program.CancelAccounts

/-!
# What a cancellation drains

The caller of `cancel_task` chooses the accounts it settles. Whatever the list, a cancellation
that goes through has settled every open claim of the task once, and nothing else.

* **`drainCancelledClaims_spec`** — the loop over the list is the loop over the workers it names.
* **`processCancelTask_execute`** — the handler over the list refines the one over the workers.
* **`cancel_drains`** — what is processed, freed and paid.
-/

namespace AgencCoordination

open Foundations

/-! ## The listed workers -/

/-- The wallet of an agent. -/
def walletOf (agents : Ledger Pubkey (Account AgentRegistration)) (k : Pubkey) : Option Pubkey :=
  (agents.lookup k).map fun agent => agent.data.authority

/-- The three accounts a worker of the task `key` is listed with. -/
def workerTriple (key : Pubkey) (agents : Ledger Pubkey (Account AgentRegistration))
    (k : Pubkey) : List AccountInfo :=
  (walletOf agents k).elim [] fun wallet =>
    [⟨.claim key k, true⟩, ⟨.key k, true⟩, ⟨.key wallet, true⟩]

section Loop

variable {c c' : TaskContext} {agents agents' : Ledger Pubkey (Account AgentRegistration)}

theorem loadCancelledClaim_eq_ok {info : AccountInfo} {k : Pubkey} {claim : Account TaskClaim} :
    loadCancelledClaim c info = .ok (k, claim) ↔
      info = ⟨.claim c.key k, true⟩ ∧ c.accounts.claims.lookup k = some claim := by
  obtain ⟨address, isWritable⟩ := info
  unfold loadCancelledClaim
  cases address with
  | claim task worker =>
    simp only [bind_eq_ok, require_eq_ok, demand_eq_ok, Except.ok.injEq, Prod.mk.injEq,
      AccountInfo.mk.injEq, AccountAddress.claim.injEq]
    constructor
    · rintro ⟨_, hwritable, _, htask, _, hclaim, rfl, rfl⟩
      exact ⟨⟨⟨htask, rfl⟩, hwritable⟩, hclaim⟩
    · rintro ⟨⟨⟨htask, rfl⟩, hwritable⟩, hclaim⟩
      exact ⟨(), hwritable, (), htask, claim, hclaim, rfl, rfl⟩
  | key => simp
  | bidBook => simp
  | bid => simp
  | bidderMarketState => simp

theorem loadCancelledWorker_eq_ok {info : AccountInfo} {k : Pubkey}
    {agent : Account AgentRegistration} :
    loadCancelledWorker agents k info = .ok agent ↔
      info = ⟨.key k, true⟩ ∧ agents.lookup k = some agent := by
  obtain ⟨address, isWritable⟩ := info
  simp only [loadCancelledWorker, bind_eq_ok, require_eq_ok, demand_eq_ok, AccountInfo.mk.injEq]
  constructor
  · rintro ⟨_, hwritable, _, haddress, hagent⟩
    exact ⟨⟨haddress, hwritable⟩, hagent⟩
  · rintro ⟨⟨haddress, hwritable⟩, hagent⟩
    exact ⟨(), hwritable, (), haddress, hagent⟩

/-- Freeing a worker leaves every wallet as it was. -/
theorem walletOf_insert {k : Pubkey} {agent agent' : Account AgentRegistration}
    (hagent : agents.lookup k = some agent)
    (hsame : agent'.data.authority = agent.data.authority) :
    walletOf (agents.insert k agent') = walletOf agents := by
  funext j
  unfold walletOf
  rw [Ledger.lookup_insert_eq_ite]
  split_ifs with hj
  · rw [hj, hagent, Option.map_some, Option.map_some, hsame]
  · rfl

/-- The loop over a list is the loop over the workers it names, three accounts for each. -/
theorem drainCancelledClaims_spec {withTreasury : Bool} {infos : List AccountInfo}
    (h : drainCancelledClaims c agents withTreasury infos = .ok (c', agents')) :
    ∃ workers, infos = workers.flatMap (workerTriple c.key agents) ∧
      infos.length = 3 * workers.length ∧
      closeCancelledClaims c agents workers = .ok (c', agents') ∧
      liveWorkerWallets infos = (workers.filterMap (walletOf agents)).map .key := by
  fun_induction drainCancelledClaims c agents withTreasury infos with
  | case1 c agents => exact ⟨[], rfl, rfl, h, rfl⟩
  | case2 c agents claimInfo workerInfo rentRecipientInfo rest ih =>
    simp only [bind_eq_ok, require_eq_ok, Prod.exists, loadCancelledClaim_eq_ok,
      loadCancelledWorker_eq_ok] at h
    obtain ⟨k, claim, ⟨rfl, hclaim⟩, agent, ⟨rfl, hagent⟩, _, haddress, _, hwritable, h⟩ := h
    obtain ⟨_, -, h⟩ := h
    obtain ⟨workers, hinfos, hlength, hclosed, hwallets⟩ := ih k claim agent h
    have hwallet := @walletOf_insert agents k agent { agent with data := { agent.data with
      activeTasks := agent.data.activeTasks - 1 } } hagent rfl
    have hlisted : walletOf agents k = some agent.data.authority := by
      rw [walletOf, hagent, Option.map_some]
    obtain rfl : rentRecipientInfo = ⟨.key agent.data.authority, true⟩ := by
      obtain ⟨address, isWritable⟩ := rentRecipientInfo
      rw [AccountInfo.mk.injEq]
      exact ⟨haddress, hwritable⟩
    refine ⟨k :: workers, ?_, ?_, ?_, ?_⟩
    · have htriple : workerTriple c.key (agents.insert k { agent with data := { agent.data with
          activeTasks := agent.data.activeTasks - 1 } }) = workerTriple c.key agents := by
        funext j
        rw [workerTriple, hwallet, workerTriple]
      have hrest : rest = workers.flatMap (workerTriple c.key agents) := by
        rw [← htriple]
        exact hinfos
      rw [List.flatMap_cons, ← hrest, workerTriple, hlisted]
      rfl
    · simp only [List.length_cons, hlength]
      omega
    · simp only [closeCancelledClaims, bind_eq_ok, demand_eq_ok]
      exact ⟨claim, hclaim, agent, hagent, hclosed⟩
    · rw [liveWorkerWallets, hwallets, hwallet, List.filterMap_cons, hlisted]
      rfl
  | case3 => cases h

end Loop

/-! ## The list -/

/-- What may stand in front of the worker accounts: nothing, or the task a dependent task
depends on. -/
inductive ListsParent (task : Task) : List AccountInfo → Prop
  | absent : ListsParent task []
  | present {parent : Pubkey} {isWritable : Bool} (dependent : task.dependencyType ≠ .None)
      (parent_eq : task.dependsOn = some parent) : ListsParent task [⟨.key parent, isWritable⟩]

/-- What stands behind the worker accounts: for a bid task its book, and with a worker the
accepted bid and the bidder's account too. -/
inductive ListsBid (key : Pubkey) (task : Task) (workers : List Pubkey) : List AccountInfo → Prop
  | none (type : task.taskType ≠ .BidExclusive) : ListsBid key task workers []
  | book {isWritable : Bool} (type : task.taskType = .BidExclusive) (idle : workers = []) :
      ListsBid key task workers [⟨.bidBook key, isWritable⟩]
  | accepted {k : Pubkey} (type : task.taskType = .BidExclusive)
      (first : workers.head? = some k) :
      ListsBid key task workers
        [⟨.bidBook key, true⟩, ⟨.bid key k, true⟩, ⟨.bidderMarketState k, true⟩]

section Handler

variable {w : World} {key signer workerBondAuthority : Pubkey} {acc : TaskAccounts}
  {remaining : List AccountInfo} {withTreasury : Bool}

theorem splitCancelDependencyParent_spec {c : TaskContext} {expected : ℕ}
    {settlement : List AccountInfo} {parentCompleted : Bool}
    (h : splitCancelDependencyParent c remaining expected = .ok (settlement, parentCompleted)) :
    ∃ parent withParent, remaining = parent ++ settlement ∧ ListsParent c.accounts.task parent ∧
      parentCompleted = (decide (c.accounts.task.dependencyType = .None) ||
        (withParent && dependencyParentCompleted c)) := by
  simp only [splitCancelDependencyParent, TaskContext.task_eq] at h
  rcases ite_eq_iff.mp h with ⟨hnone, h⟩ | ⟨hdependent, h⟩
  · simp only [bind_eq_ok, Except.ok.injEq, Prod.mk.injEq] at h
    obtain ⟨_, -, rfl, rfl⟩ := h
    exact ⟨[], true, rfl, .absent, by rw [decide_eq_true hnone, Bool.true_or]⟩
  · rcases ite_eq_iff.mp h with ⟨-, h⟩ | ⟨-, h⟩
    · obtain ⟨rfl, rfl⟩ := Prod.mk.inj (Except.ok.inj h)
      exact ⟨[], false, rfl, .absent, by rw [decide_eq_false hdependent]; rfl⟩
    · simp only [loadDependencyParent, TaskContext.task_eq, bind_eq_ok, require_eq_ok,
        demand_eq_ok, Except.ok.injEq, Prod.mk.injEq] at h
      obtain ⟨_, -, _, ⟨parent, hparent, info, hinfo, _, haddress, rfl⟩, rfl, rfl⟩ := h
      obtain ⟨rest, rfl⟩ := List.head?_eq_some_iff.mp hinfo
      obtain ⟨address, isWritable⟩ := info
      obtain rfl : address = .key parent := haddress
      exact ⟨[⟨.key parent, isWritable⟩], true, rfl, .present hdependent hparent, by
        rw [decide_eq_false hdependent]; rfl⟩

theorem splitBidAccounts_spec {task : Task} {settlement workerAccounts bidAccounts :
    List AccountInfo} (h : splitBidAccounts task settlement = .ok (workerAccounts, bidAccounts)) :
    settlement = workerAccounts ++ bidAccounts ∧
      (task.taskType ≠ .BidExclusive → bidAccounts = []) := by
  simp only [splitBidAccounts] at h
  rcases ite_eq_iff.mp h with ⟨hbid, h⟩ | ⟨hbid, h⟩
  · simp only [bind_eq_ok, Except.ok.injEq, Prod.mk.injEq] at h
    obtain ⟨_, -, rfl, rfl⟩ := h
    exact ⟨(List.take_append_drop _ _).symm, fun hne => absurd hbid hne⟩
  · obtain ⟨rfl, rfl⟩ := Prod.mk.inj (Except.ok.inj h)
    exact ⟨(List.append_nil _).symm, fun _ => rfl⟩

/-- The accounts of the bid are those of the first listed worker. -/
theorem requireBidAccounts_spec {c : TaskContext} {workers : List Pubkey}
    {bidAccounts : List AccountInfo} {u : Unit} (h : requireBidAccounts c bidAccounts = .ok u)
    (hnone : c.accounts.task.taskType ≠ .BidExclusive → bidAccounts = [])
    (hall : workers.length = c.accounts.task.currentWorkers)
    (hfirst : ∀ k, workers.head? = some k → c.workerKey = k) :
    ListsBid c.key c.accounts.task workers bidAccounts := by
  simp only [requireBidAccounts, TaskContext.task_eq] at h
  rcases ite_eq_iff.mp h with ⟨hbid, h⟩ | ⟨hbid, h⟩
  · rcases ite_eq_iff.mp h with ⟨hidle, h⟩ | ⟨hbusy, h⟩
    · rw [require_eq_ok, List.map_eq_singleton_iff] at h
      obtain ⟨⟨⟨address, isWritable⟩, rfl, haddress⟩, -⟩ := h
      obtain rfl : address = .bidBook c.key := haddress
      exact .book hbid (List.length_eq_zero_iff.mp (hall.trans hidle))
    · rw [require_eq_ok] at h
      cases workers with
      | nil => exact absurd hall.symm hbusy
      | cons k rest =>
        rw [h, hfirst k rfl]
        exact .accepted hbid rfl
  · rw [hnone hbid]
    exact .none hbid

/-- The context of a cancellation has the task's accounts. -/
theorem cancelContext_loads {infos : List AccountInfo} {base : TaskContext}
    (h : cancelContext w key acc infos = .ok base) :
    base.key = key ∧ base.accounts = acc ∧ base.config = w.config ∧ base.sys = w.sys ∧
      base.parent = w.parentStatus acc := by
  unfold cancelContext at h
  split at h
  · obtain rfl := Except.ok.inj h
    exact ⟨rfl, rfl, rfl, rfl, rfl⟩
  · simp only [bind_eq_ok, Prod.exists, Except.ok.injEq] at h
    obtain ⟨_, _, -, agent, -, rfl⟩ := h
    exact ⟨rfl, rfl, rfl, rfl, rfl⟩

/-- It is the context of the first listed worker. -/
theorem cancelContext_first {workers : List Pubkey} {base : TaskContext}
    (h : cancelContext w key acc (workers.flatMap (workerTriple key w.agents)) = .ok base)
    (hagents : ∀ k ∈ workers, (w.agents.lookup k).isSome = true) :
    (workers = [] ∧ base = w.taskContext key acc) ∨
      ∃ k rest agent, workers = k :: rest ∧ w.agents.lookup k = some agent ∧
        base = w.workContext key acc k agent := by
  cases workers with
  | nil => exact .inl ⟨rfl, (Except.ok.inj h).symm⟩
  | cons k rest =>
    obtain ⟨agent, hagent⟩ := Option.isSome_iff_exists.mp (hagents k List.mem_cons_self)
    rw [List.flatMap_cons, workerTriple, walletOf, hagent] at h
    simp only [Option.map_some, Option.elim_some, List.cons_append, cancelContext, bind_eq_ok,
      demand_eq_ok, Prod.exists, loadCancelledClaim_eq_ok, AccountInfo.mk.injEq,
      AccountAddress.claim.injEq, Except.ok.injEq] at h
    obtain ⟨_, claim, ⟨⟨⟨-, rfl⟩, -⟩, -⟩, agent', hagent', rfl⟩ := h
    exact .inr ⟨_, rest, agent', rfl, hagent', rfl⟩

/-- A cancellation over any list of accounts is one over the workers the list names. -/
theorem processCancelTask_execute {result : World × List Transfer}
    (h : processCancelTask w key signer remaining workerBondAuthority withTreasury =
      .ok result) :
    ∃ acc parent workers bid withParent, w.tasks.lookup key = some acc ∧
      remaining = parent ++ workers.flatMap (workerTriple key w.agents) ++ bid ∧
      ListsParent acc.task parent ∧ ListsBid key acc.task workers bid ∧
      execute w (.cancelTask key signer workers workerBondAuthority withParent) = .ok result := by
  simp only [processCancelTask, bind_eq_ok, demand_eq_ok, require_eq_ok, Prod.exists,
    Except.ok.injEq] at h
  obtain ⟨acc, hacc, _, hcreator, _, hversion, _, hprereqs, settlement, parentCompleted, hsplit,
    h⟩ := h
  obtain ⟨workerAccounts, bidAccounts, hbids, _, -, base, hbase, c₁, h₁, _, hrequire, c₂, h₂, h⟩ :=
    h
  obtain ⟨_, hmod, _, hdiv, c₃, agents₃, h₃, c₄, h₄, _, hwallet, c₅, h₅, rfl⟩ := h
  obtain ⟨parent, withParent, hremaining, hparent, hcompleted⟩ :=
    splitCancelDependencyParent_spec hsplit
  obtain ⟨hsettlement, hnone⟩ := splitBidAccounts_spec hbids
  have hc₁ := refundEscrow_spec h₁
  have hc₂ := settleBidsOnCancel_spec h₂
  obtain ⟨workers, hinfos, hlength, hclosed, hwallets⟩ := drainCancelledClaims_spec h₃
  obtain ⟨escrow, vault', paidRefund, -, -, -, -, hc₁⟩ := hc₁
  obtain ⟨book', bids', bidder', paidBid, -, hc₂⟩ := hc₂
  have hkeys : c₂.key = base.key := by
    rw [hc₂, hc₁]
  have hall : workers.length = acc.task.currentWorkers := by
    omega
  have hagents := (closeCancelledClaims_spec hclosed).2.2.1
  obtain ⟨rfl, rfl, hconfig, hsys, hstatus⟩ := cancelContext_loads hbase
  rw [hkeys] at hinfos
  have hbase' := cancelContext_first (hinfos ▸ hbase) hagents
  obtain rfl : parentCompleted = (decide (base.accounts.task.dependencyType = .None) ||
      (withParent && dependencyParentCompleted base)) := by
    rw [hcompleted, dependencyParentCompleted, dependencyParentCompleted, hstatus]
    rfl
  have hwallet' : (decide (base.accounts.task.status = .InProgress ∧
        0 < base.accounts.task.currentWorkers) &&
      (decide (base.accounts.task.dependencyType = .None) ||
        (withParent && dependencyParentCompleted base))) = true →
      workerBondAuthority ∈ workers.filterMap (walletOf w.agents) := by
    intro hpenalty
    have hmem := hwallet hpenalty
    rw [hwallets, List.mem_map] at hmem
    obtain ⟨wallet, hwallet, heq⟩ := hmem
    exact AccountAddress.key.inj heq ▸ hwallet
  have hfirst : ∀ k, workers.head? = some k → base.workerKey = k := by
    rintro k hk
    rcases hbase' with ⟨rfl, -⟩ | ⟨j, rest, agent, rfl, -, hworker⟩
    · cases hk
    · rw [hworker]
      exact Option.some.inj hk
  refine ⟨base.accounts, parent, workers, bidAccounts, withParent, hacc, ?_, hparent,
    requireBidAccounts_spec hrequire hnone hall hfirst, ?_⟩
  · rw [hremaining, hsettlement, hinfos, List.append_assoc]
  · have hran : cancelTask base w.agents signer workers workerBondAuthority withParent =
        .ok (c₅, agents₃) := by
      simp only [cancelTask, bind_eq_ok, require_eq_ok, Prod.exists, Except.ok.injEq,
        Prod.mk.injEq, TaskContext.task_eq]
      exact ⟨(), hcreator, (), hconfig ▸ hversion, (), hsys ▸ hprereqs, (), hall, c₁, h₁, c₂,
        h₂, c₃, agents₃, hclosed, c₄, h₄, (), hwallet', c₅, h₅, rfl, rfl⟩
    rcases hbase' with ⟨rfl, hidle⟩ | ⟨k, rest, agent, rfl, hagent, hworker⟩
    · simp only [execute, executeCancel, bind_eq_ok, demand_eq_ok, Prod.exists, Except.ok.injEq]
      exact ⟨base.accounts, hacc, base, hidle.symm, c₅, agents₃, hran, rfl⟩
    · simp only [execute, executeCancel, bind_eq_ok, demand_eq_ok, Prod.exists, Except.ok.injEq]
      exact ⟨base.accounts, hacc, agent, hagent, base, hworker.symm, c₅, agents₃, hran, rfl⟩

end Handler

/-! ## Payments -/

section Payments

variable {c c' : TaskContext}

/-- The account the reward of a task is in. -/
def rewardCustody (key : Pubkey) (task : Task) : Custody :=
  if task.rewardMint.isSome then .tokenEscrow key else .escrow key

/-- A refund pays the creator what is left of the reward once, and nobody else anything. -/
theorem refundEscrow_pays (h : refundEscrow c = .ok c') :
    ∃ escrow rest, c.accounts.escrow = some escrow ∧
      escrow.data.distributed ≤ escrow.data.amount ∧
      c'.paid = c.paid ++ ⟨rewardCustody c.key c.accounts.task, c.accounts.task.creator,
        .creatorRefund, escrow.data.amount - escrow.data.distributed⟩ :: rest ∧
      ∀ t ∈ rest, t.purpose = .closingBalance ∧ t.recipient = c.accounts.task.creator := by
  simp only [refundEscrow, bind_eq_ok, demand_eq_ok, subU_eq_ok, TaskContext.task_eq] at h
  obtain ⟨escrow, hescrow, _, ⟨hle, rfl⟩, h⟩ := h
  rcases ite_eq_iff.mp h with ⟨hmint, h⟩ | ⟨hmint, h⟩
  · simp only [bind_eq_ok, demand_eq_ok, subU_eq_ok, Except.ok.injEq] at h
    obtain ⟨vault, -, residual, -, rfl⟩ := h
    refine ⟨escrow, [⟨.tokenEscrow c.key, c.accounts.task.creator, .closingBalance, residual⟩,
      closeEscrowTransfer c.key c.accounts.task.creator escrow.lamports], hescrow, hle, ?_, ?_⟩
    · rw [rewardCustody, if_pos hmint]
      rfl
    · simp [closeEscrowTransfer]
  · simp only [bind_eq_ok, subU_eq_ok, Except.ok.injEq] at h
    obtain ⟨left, -, rfl⟩ := h
    refine ⟨escrow, [closeEscrowTransfer c.key c.accounts.task.creator left], hescrow, hle, ?_, ?_⟩
    · rw [rewardCustody, if_neg hmint]
      rfl
    · simp [closeEscrowTransfer]

/-- What a cancellation pays out of the escrow is the refund, and what the closing leaves of the
balance, all of it to the creator. -/
theorem cancelTask_refund {agents agents' : Ledger Pubkey (Account AgentRegistration)}
    {signer : Pubkey} {workers : List Pubkey} {workerBondAuthority : Pubkey} {withParent : Bool}
    (h : cancelTask c agents signer workers workerBondAuthority withParent = .ok (c', agents'))
    (hpaid : c.paid = []) :
    ∃ escrow, c.accounts.escrow = some escrow ∧ escrow.data.distributed ≤ escrow.data.amount ∧
      paymentsFor c.key .creatorRefund c'.paid = [⟨rewardCustody c.key c.accounts.task,
        c.accounts.task.creator, .creatorRefund,
        escrow.data.amount - escrow.data.distributed⟩] ∧
      ∀ t ∈ c'.paid, t.source.isEscrow c.key = true → t.recipient = c.accounts.task.creator := by
  simp only [cancelTask, bind_eq_ok, require_eq_ok, Prod.exists, Except.ok.injEq, Prod.mk.injEq,
    TaskContext.task_eq] at h
  obtain ⟨_, -, _, -, _, -, _, -, c₁, h₁, c₂, h₂, c₃, agents₃, h₃, h⟩ := h
  obtain ⟨c₄, h₄, _, -, c₅, h₅, rfl, rfl⟩ := h
  obtain ⟨escrow, rest, hescrow, hle, hpays, hrest⟩ := refundEscrow_pays h₁
  obtain ⟨_, vault', paidRefund, -, -, -, -, rfl⟩ := refundEscrow_spec h₁
  obtain ⟨book', bids', bidder', paidBid, hbid, rfl⟩ := settleBidsOnCancel_spec h₂
  obtain ⟨-, -, -, workerKey, claims', paidClaims, -, -, hclaims, rfl⟩ :=
    closeCancelledClaims_spec h₃
  obtain ⟨-, rfl⟩ := settleCompletionBond_spec h₄
  obtain ⟨bonds', paidBond, hbond, rfl⟩ := settleNoShowBond_spec True h₅ fun _ => trivial
  have hrefund := List.append_cancel_left hpays
  have hclosed : Outside c.key paidClaims := by
    intro t ht
    obtain ⟨⟨k, -, hsource⟩, -⟩ := hclaims t ht
    rw [hsource]
    rfl
  have hothers : Outside c.key (paidBid ++ paidClaims ++
      bondPayments c.key c.accounts.task.creator .Refund
        (c.accounts.bonds.lookup c.accounts.task.creator) ++ paidBond) :=
    ((hbid.outside.append hclosed).append outside_bondPayments).append hbond.outside
  have hsum : c.paid ++ paidRefund ++ paidBid ++ paidClaims ++
      bondPayments c.key c.accounts.task.creator .Refund
        (c.accounts.bonds.lookup c.accounts.task.creator) ++ paidBond =
      paidRefund ++ (paidBid ++ paidClaims ++
        bondPayments c.key c.accounts.task.creator .Refund
          (c.accounts.bonds.lookup c.accounts.task.creator) ++ paidBond) := by
    rw [hpaid, List.nil_append]
    simp only [List.append_assoc]
  have hsource : (rewardCustody c.key c.accounts.task).isEscrow c.key = true := by
    unfold rewardCustody
    split_ifs
    · exact decide_eq_true rfl
    · exact decide_eq_true rfl
  refine ⟨escrow, hescrow, hle, ?_, fun t ht hin => ?_⟩
  · show paymentsFor c.key .creatorRefund (c.paid ++ paidRefund ++ paidBid ++ paidClaims ++
      bondPayments c.key c.accounts.task.creator .Refund
        (c.accounts.bonds.lookup c.accounts.task.creator) ++ paidBond) = _
    have hclosing : paymentsFor c.key .creatorRefund rest = [] := by
      refine paymentsFor_eq_nil fun t ht _ => ?_
      rw [(hrest t ht).1]
      decide
    rw [hsum, paymentsFor_append, hothers.paymentsFor, List.append_nil, hrefund, paymentsFor,
      List.filter_cons_of_pos (by rw [hsource]; rfl)]
    exact congrArg _ hclosing
  · change t ∈ c.paid ++ paidRefund ++ paidBid ++ paidClaims ++
      bondPayments c.key c.accounts.task.creator .Refund
        (c.accounts.bonds.lookup c.accounts.task.creator) ++ paidBond at ht
    rw [hsum, List.mem_append] at ht
    rcases ht with ht | ht
    · rw [hrefund] at ht
      rcases List.mem_cons.mp ht with rfl | ht
      · rfl
      · exact (hrest t ht).2
    · rw [hothers t ht] at hin
      cases hin

end Payments

/-! ## What a cancellation has done -/

/-- The claim an account is, by the task and the worker it is derived from. -/
def AccountInfo.claimOf (info : AccountInfo) : Option (Pubkey × Pubkey) :=
  match info.address with
  | .claim task worker => some (task, worker)
  | .key _ | .bidBook _ | .bid _ _ | .bidderMarketState _ => none

/-- The claims on a list of accounts. -/
def listedClaims (infos : List AccountInfo) : List (Pubkey × Pubkey) :=
  infos.filterMap AccountInfo.claimOf

/-- What a cancellation of the task `key` over a list of accounts has done, when the list names
`workers`: the worker accounts are theirs, they are all who had an open claim and each is named
once, each of them has one task less and nobody else is touched, the creator is refunded what was
not paid out, and a claim goes to its worker's wallet but for the surplus of a contest entry. -/
structure Drained (w w' : World) (key : Pubkey) (acc : TaskAccounts)
    (remaining : List AccountInfo) (workers : List Pubkey) (ts : List Transfer) : Prop where
  listed : ∃ parent bid,
    remaining = parent ++ workers.flatMap (workerTriple key w.agents) ++ bid ∧
      ListsParent acc.task parent ∧ ListsBid key acc.task workers bid
  claims : listedClaims remaining = workers.map fun k => (key, k)
  once : workers.Nodup
  all : workers.length = acc.task.currentWorkers
  openClaims : ∀ k, k ∈ workers ↔ (acc.claims.lookup k).isSome = true
  emptied : ∃ acc', w'.tasks.lookup key = some acc' ∧ acc'.task.status = .Cancelled ∧
    acc'.task.currentWorkers = 0 ∧ ∀ k, acc'.claims.lookup k = none
  freed : ∀ k ∈ workers, activeTasksOf w k = activeTasksOf w' k + 1
  others : ∀ k, k ∉ workers → w'.agents.lookup k = w.agents.lookup k
  refund : ∃ escrow, acc.escrow = some escrow ∧ escrow.data.distributed ≤ escrow.data.amount ∧
    paymentsFor key .creatorRefund ts = [⟨rewardCustody key acc.task, acc.task.creator,
      .creatorRefund, escrow.data.amount - escrow.data.distributed⟩]
  remainder : ∀ t ∈ ts, t.source.isEscrow key = true → t.recipient = acc.task.creator
  deposits : ∀ k ∈ workers, ∃ claim agent forfeited, acc.claims.lookup k = some claim ∧
    w.agents.lookup k = some agent ∧
    forfeited = (if isContestConfiguredTask acc.task then claimSurplus w.sys.rent claim else 0) ∧
    claimPart key k ts = [⟨.claim key k, w.config.treasury, .depositForfeit, forfeited⟩,
      ⟨.claim key k, agent.data.authority, .closingBalance, claim.lamports - forfeited⟩]

section Drains

variable {w w' : World} {key signer workerBondAuthority : Pubkey} {acc : TaskAccounts}
  {remaining : List AccountInfo} {withTreasury : Bool} {ts : List Transfer}

/-- The claims on a well-formed list are those of its workers. -/
theorem listedClaims_eq {task : Task} {parent bid : List AccountInfo} {workers : List Pubkey}
    (hparent : ListsParent task parent) (hbid : ListsBid key task workers bid)
    (hagents : ∀ k ∈ workers, (w.agents.lookup k).isSome = true) :
    listedClaims (parent ++ workers.flatMap (workerTriple key w.agents) ++ bid) =
      workers.map fun k => (key, k) := by
  have hfront : listedClaims parent = [] := by
    cases hparent with
    | absent => rfl
    | present => rfl
  have hback : listedClaims bid = [] := by
    cases hbid with
    | none => rfl
    | book => rfl
    | accepted => rfl
  have hworkers : ∀ ks : List Pubkey, (∀ k ∈ ks, (w.agents.lookup k).isSome = true) →
      listedClaims (ks.flatMap (workerTriple key w.agents)) = ks.map fun k => (key, k) := by
    intro ks hks
    induction ks with
    | nil => rfl
    | cons k ks ih =>
      obtain ⟨agent, hagent⟩ := Option.isSome_iff_exists.mp (hks k List.mem_cons_self)
      have htriple : workerTriple key w.agents k =
          [⟨.claim key k, true⟩, ⟨.key k, true⟩, ⟨.key agent.data.authority, true⟩] := by
        rw [workerTriple, walletOf, hagent]
        rfl
      rw [List.flatMap_cons, listedClaims, List.filterMap_append, htriple, List.map_cons,
        ← ih fun j hj => hks j (List.mem_cons_of_mem _ hj)]
      rfl
  rw [listedClaims, List.filterMap_append, List.filterMap_append]
  change listedClaims parent ++ listedClaims _ ++ listedClaims bid = _
  rw [hfront, hback, hworkers workers hagents, List.nil_append, List.append_nil]

/-- A cancellation that goes through has drained the task. -/
theorem Reachable.drained (hw : Reachable w)
    (h : processCancelTask w key signer remaining workerBondAuthority withTreasury =
      .ok (w', ts)) :
    ∃ acc workers, w.tasks.lookup key = some acc ∧
      Drained w w' key acc remaining workers ts := by
  obtain ⟨acc, parent, workers, bid, withParent, hacc, hremaining, hparent, hbid, hran⟩ :=
    processCancelTask_execute h
  obtain ⟨r, hs⟩ := (occupancy hw).tasks key acc hacc
  have hstep : Step w (.cancelTask key signer workers workerBondAuthority withParent, ts) w' :=
    hran
  have hdoes := hstep.does
  cases hdoes with
  | @cancelled _ _ _ _ _ acc' base c agents' loaded listed ran =>
    obtain rfl := Option.some.inj (hacc.symm.trans loaded)
    obtain ⟨hkey, haccounts, hsys, hconfig, hpaid, -⟩ := listed_context listed
    have hstaffed := cancelTask_staffed ran (haccounts.symm ▸ hs)
    have hclosed := cancelTask_claimPart ran hpaid
    obtain ⟨escrow, hescrow, hle, hrefund, hremainder⟩ := cancelTask_refund ran hpaid
    rw [hkey, haccounts] at hclosed hrefund hremainder
    rw [haccounts] at hescrow
    obtain ⟨hempty, hseats, hagents'⟩ := hstaffed
    obtain ⟨_, _, _, _, _, _, _, _, _, _, _, _, _, -, -, -, hall, hnodup, -, hagents, -, -, -, -,
      -, -, -, -, -, -, hc⟩ := cancelTask_spec ran
    rw [haccounts] at hall
    have hcontract : ∀ k, k ∈ workers ↔ (acc.claims.lookup k).isSome = true := fun k =>
      (hseats k).trans hs.tracks.mem_seated
    have hstored : ((({ w with agents := agents' } : World).storeBidder base.workerKey
        c.bidder).storeTask c).agents = agents' := by
      unfold World.storeTask World.storeBidder
      split <;> rfl
    refine ⟨acc, workers, hacc, ⟨parent, bid, hremaining, hparent, hbid⟩,
      hremaining ▸ listedClaims_eq hparent hbid hagents, hnodup, hall, hcontract,
      ⟨c.accounts, ?_, ?_, ?_, ?_⟩, fun k hk => ?_, fun k hk => ?_,
      ⟨escrow, hescrow, hle, hrefund⟩, hremainder, fun k hk => ?_⟩
    · have hck : c.key = key := by
        rw [hc]
        exact hkey
      unfold World.storeTask
      rw [hck]
      exact AList.lookup_insert _
    · rw [hc]
    · rw [hc]
    · intro k
      have hgone : ¬ (c.accounts.claims.lookup k).isSome = true := fun hopen =>
        Finset.notMem_empty k (hempty.tracks.mem_seated.mpr hopen)
      rwa [Bool.not_eq_true, Option.isSome_eq_false_iff, Option.isNone_iff_eq_none] at hgone
    · obtain ⟨agent, hagent⟩ := Option.isSome_iff_exists.mp (hagents k hk)
      have hpos : 0 < activeTasksOf w k := by
        rw [(occupancy hw).active]
        exact Finset.card_pos.mpr ⟨key, (mem_openClaims hacc hs).mpr ((hseats k).mp hk)⟩
      have hbefore : activeTasksOf w k = agent.data.activeTasks := counterOf_of_lookup hagent
      have hafter := hagents' k
      rw [if_pos hk, hagent, Option.map_some, ← hstored] at hafter
      rw [activeTasksOf, counterOf_of_lookup hafter]
      show activeTasksOf w k = agent.data.activeTasks - 1 + 1
      omega
    · rw [hstored, hagents' k, if_neg hk]
    · obtain ⟨claim, hclaim⟩ := Option.isSome_iff_exists.mp ((hcontract k).mp hk)
      obtain ⟨agent, hagent⟩ := Option.isSome_iff_exists.mp (hagents k hk)
      have hpart := hclosed k
      rw [if_pos hk, hclaim, hagent] at hpart
      refine ⟨claim, agent, cancelForfeit base claim, hclaim, hagent, ?_, ?_⟩
      · rw [cancelForfeit, haccounts, hsys]
      · rw [← hconfig, ← hkey] at *
        exact hpart

/-- **What a cancellation drains.** Whatever accounts are listed: a cancellation that fails
changes nothing; one that goes through has drained exactly the open claims of the task; and a
list that names a claim twice, or one that is not open on the task, fails. -/
theorem cancel_drains (hw : Reachable w) (key signer workerBondAuthority : Pubkey)
    (remaining : List AccountInfo) (withTreasury : Bool) :
    (∀ e, processCancelTask w key signer remaining workerBondAuthority withTreasury = .error e →
      w.commit (processCancelTask w key signer remaining workerBondAuthority withTreasury) =
        (w, [])) ∧
    (∀ w' ts, processCancelTask w key signer remaining workerBondAuthority withTreasury =
        .ok (w', ts) →
      w.commit (processCancelTask w key signer remaining workerBondAuthority withTreasury) =
        (w', ts) ∧
      ∃ acc workers, w.tasks.lookup key = some acc ∧
        Drained w w' key acc remaining workers ts) ∧
    (∀ acc, w.tasks.lookup key = some acc →
      (¬ (listedClaims remaining).Nodup ∨ ∃ claim ∈ listedClaims remaining,
        claim.1 ≠ key ∨ acc.claims.lookup claim.2 = none) →
      ∃ e, processCancelTask w key signer remaining workerBondAuthority withTreasury =
        .error e) := by
  refine ⟨fun e h => ?_, fun w' ts h => ⟨?_, hw.drained h⟩, fun acc hacc hbad => ?_⟩
  · rw [h]
    rfl
  · rw [h]
    rfl
  · cases h : processCancelTask w key signer remaining workerBondAuthority withTreasury with
    | error e => exact ⟨e, rfl⟩
    | ok result =>
      obtain ⟨acc', workers, hacc', hdrained⟩ := hw.drained h
      obtain rfl := Option.some.inj (hacc.symm.trans hacc')
      rw [hdrained.claims] at hbad
      rcases hbad with hbad | ⟨claim, hclaim, hbad⟩
      · exact absurd (hdrained.once.map fun _ _ heq => (Prod.mk.inj heq).2) hbad
      · obtain ⟨k, hk, rfl⟩ := List.mem_map.mp hclaim
        rcases hbad with hbad | hbad
        · exact absurd rfl hbad
        · have hopen := (hdrained.openClaims k).mp hk
          rw [hbad] at hopen
          cases hopen

end Drains

/-- The accounts of the two entrants of the contest below, the second one first. -/
def entrantAccounts : List AccountInfo :=
  [⟨.claim 50 12, true⟩, ⟨.key 12, true⟩, ⟨.key 102, true⟩,
    ⟨.claim 50 11, true⟩, ⟨.key 11, true⟩, ⟨.key 101, true⟩]

/-- A contest both of whose entrants stay silent is cancelled with both of them listed, and not
with one of them listed twice. -/
theorem cancel_drains_silent :
    (∃ w' ts acc workers,
      processCancelTask (deployed.after (silentScript.take 8 ++ [.tick 200000])) 50 100
        entrantAccounts 101 true = .ok (w', ts) ∧
      Drained (deployed.after (silentScript.take 8 ++ [.tick 200000])) w' 50 acc
        entrantAccounts workers ts) ∧
    ∃ e, processCancelTask (deployed.after (silentScript.take 8 ++ [.tick 200000])) 50 100
      (entrantAccounts.take 3 ++ entrantAccounts.take 3) 101 true = .error e := by
  have hloaded : ((deployed.after (silentScript.take 8 ++ [.tick 200000])).tasks.lookup
      50).isSome = true := by
    decide +kernel
  obtain ⟨acc, hacc⟩ := Option.isSome_iff_exists.mp hloaded
  have hruns : (processCancelTask (deployed.after (silentScript.take 8 ++ [.tick 200000])) 50 100
      entrantAccounts 101 true).toOption.isSome = true := by
    decide +kernel
  have hreach := deployed_genesis.reachable_after (silentScript.take 8 ++ [.tick 200000])
  obtain ⟨-, hdrains, -⟩ := cancel_drains hreach 50 100 101 entrantAccounts true
  obtain ⟨-, -, hrejects⟩ := cancel_drains hreach 50 100 101
    (entrantAccounts.take 3 ++ entrantAccounts.take 3) true
  refine ⟨?_, hrejects acc hacc (.inl (by decide))⟩
  cases hran : processCancelTask (deployed.after (silentScript.take 8 ++ [.tick 200000])) 50 100
      entrantAccounts 101 true with
  | error e =>
    rw [hran] at hruns
    cases hruns
  | ok result =>
    obtain ⟨-, acc', workers, -, hdrained⟩ := hdrains result.1 result.2 hran
    exact ⟨result.1, result.2, acc', workers, rfl, hdrained⟩

end AgencCoordination
