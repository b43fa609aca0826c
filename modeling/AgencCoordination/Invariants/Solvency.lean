import AgencCoordination.Effects.Escrow

/-!
# Solvency of escrows

The escrow of a SOL task pays cleanup rewards, shares of a collaborative task, slices of an
abandoned contest, refunds and rulings out of one pool. Cleanup rewards are capped by what is
left of it; the shares of a collaborative task are not, they come from the fixed reward.

* **`Solvent`** — the escrow has not distributed more than its amount, and holds its rent and
  what it has not distributed.
* **`EscrowFate`** — what an instruction but a donation makes of the escrow.
* **`TaskMove.solvent`** — every step keeps it, when a share it pays before the last is within
  what is left.
* **`escrow_solvency`** — over every run whose shares are so, every escrow of a SOL task is
  solvent.
* **`share_exceeds_pool`** — a donation after a cleanup lets a share through that is not.
-/

namespace AgencCoordination

open Foundations

/-! ## The pool -/

/-- The escrow has not distributed more than its amount, and holds the rent and the rest. -/
def Solvent (rent : Rent) (escrow : Account TaskEscrow) : Prop :=
  escrow.data.distributed ≤ escrow.data.amount ∧
    rent.minimumBalance taskEscrowSize + (escrow.data.amount - escrow.data.distributed) ≤
      escrow.lamports

namespace Solvent

variable {rent : Rent} {escrow : Account TaskEscrow}

/-- A payment out of what is left. -/
theorem pay {amount : ℕ} (h : Solvent rent escrow)
    (hle : amount ≤ escrow.data.amount - escrow.data.distributed) :
    Solvent rent ⟨escrow.lamports - amount,
      { escrow.data with distributed := escrow.data.distributed + amount }⟩ := by
  obtain ⟨hwithin, hheld⟩ := h
  refine ⟨?_, ?_⟩
  · show escrow.data.distributed + amount ≤ escrow.data.amount
    omega
  · show _ + (escrow.data.amount - (escrow.data.distributed + amount)) ≤ escrow.lamports - amount
    omega

theorem donate {amount : ℕ} (h : Solvent rent escrow) :
    Solvent rent { escrow with lamports := escrow.lamports + amount } :=
  ⟨h.1, h.2.trans (Nat.le_add_right _ _)⟩

/-- What a refund or a ruling owes is what is left, and it is covered. -/
theorem remaining (h : Solvent rent escrow) :
    subU escrow.data.amount escrow.data.distributed =
        .ok (escrow.data.amount - escrow.data.distributed) ∧
      escrow.data.amount - escrow.data.distributed ≤ escrow.lamports := by
  refine ⟨?_, ?_⟩
  · unfold subU
    rw [checkedSub_eq_ok]
    exact ⟨h.1, rfl⟩
  · exact (Nat.le_add_left _ _).trans h.2

/-- A new escrow holds its rent and its amount. -/
theorem init {task : Task} {pre : Prefunding} (hmint : task.rewardMint = none) :
    Solvent rent (initEscrow rent task pre) := by
  refine ⟨Nat.zero_le _, ?_⟩
  simp only [initEscrow, hmint, Option.isNone_none, if_true, Nat.sub_zero]
  exact Nat.add_le_add_right (le_max_left _ _) _

end Solvent

/-! ## Shares -/

/-- The votes of a reviewer decide that the submission is accepted. -/
def Approves (acc : TaskAccounts) (worker : Pubkey) (approved : Bool) : Prop :=
  ∃ config stored, acc.validation = some config ∧ acc.submissions.lookup worker = some stored ∧
    (if config.mode = .ExternalAttestation then 1 else config.validatorQuorum) ≤
      stored.data.approvalCount + if approved then 1 else 0

/-- The instructions that pay a worker the share or the price of a completion. -/
def WorkOp.PaysShare (acc : TaskAccounts) (worker : Pubkey) : WorkOp → Prop
  | .acceptTaskResult _ _ | .autoAcceptTaskResult _ | .completeTask _ _ _ _
  | .resolveRejectFrozen _ _ _ | .expireRejectFrozen _ => True
  | .validateTaskResult _ _ approved => Approves acc worker approved
  | _ => False

/-- The next share of the reward is within what the escrow has not distributed. -/
def ShareWithin (acc : TaskAccounts) : Prop :=
  ∀ escrow share, acc.escrow = some escrow → calculateRewardPerWorker acc.task = .ok share →
    share ≤ escrow.data.amount - escrow.data.distributed

/-- Only a collaborative task takes more than one completion. -/
def SharesOnly (task : Task) : Prop :=
  task.taskType ≠ .Collaborative → task.requiredCompletions ≤ 1

/-- A share of a collaborative task, paid before the last, is within what is left. -/
def PaysWithin (acc : TaskAccounts) (worker : Pubkey) (op : WorkOp) : Prop :=
  op.PaysShare acc worker → acc.task.taskType = .Collaborative →
    completesTask acc.task = false → ShareWithin acc

/-- What an instruction other than a donation makes of the escrow of a SOL task: a payment that
leaves it open is within what is left, or settles a completion before the last, when the
instruction `pays` one. -/
inductive EscrowFate (pays : Prop) (acc : TaskAccounts) : Option (Account TaskEscrow) → Prop
  | same : EscrowFate pays acc acc.escrow
  | gone : EscrowFate pays acc none
  | paid {escrow : Account TaskEscrow} {amount : ℕ} (loaded : acc.escrow = some escrow)
      (covered : amount ≤ escrow.lamports)
      (due : amount ≤ escrow.data.amount - escrow.data.distributed ∨
        pays ∧ completesTask acc.task = false ∧ ∃ price,
          completionGross acc.task price = .ok amount ∧
          (acc.task.taskType ≠ .BidExclusive → price = none)) :
      EscrowFate pays acc (some ⟨escrow.lamports - amount,
        { escrow.data with distributed := escrow.data.distributed + amount }⟩)
  | token {after : Option (Account TaskEscrow)} (mint : acc.task.rewardMint ≠ none) :
      EscrowFate pays acc after

section Handlers

variable {c c' : TaskContext} {config : TaskValidationConfig} {payees : PayeeAccounts}
  {pays : Prop}

theorem EscrowFate.mono {pays' : Prop} {acc : TaskAccounts} {after : Option (Account TaskEscrow)}
    (h : EscrowFate pays acc after) (hpays : pays → pays') : EscrowFate pays' acc after := by
  cases h with
  | same => exact .same
  | gone => exact .gone
  | paid loaded covered due => exact .paid loaded covered (due.imp_right (And.imp_left hpays))
  | token mint => exact .token mint

theorem EscrowFate.of_same {acc : TaskAccounts} {after : Option (Account TaskEscrow)}
    (h : after = acc.escrow) : EscrowFate pays acc after := by
  rw [h]
  exact .same

theorem EscrowFate.of_none {acc : TaskAccounts} {after : Option (Account TaskEscrow)}
    (h : after = none) : EscrowFate pays acc after := by
  rw [h]
  exact .gone

/-- A settlement within what is left, or of a completion. -/
theorem EscrowFate.of_settles {acc : TaskAccounts} {after : Option (Account TaskEscrow)}
    {t : Till} {gross : ℕ} {completed : Bool} {vault' : Option ℕ} {ts : List Transfer}
    (h : Settles t payees gross completed after vault' ts) (ht : t.escrow = acc.escrow)
    (hmint : t.mint = acc.task.rewardMint)
    (hdue : completed = false → ∀ escrow, acc.escrow = some escrow →
      gross ≤ escrow.data.amount - escrow.data.distributed ∨
        pays ∧ completesTask acc.task = false ∧ ∃ price,
          completionGross acc.task price = .ok gross ∧
          (acc.task.taskType ≠ .BidExclusive → price = none)) :
    EscrowFate pays acc after := by
  cases completed with
  | true =>
    cases h with
    | sol => exact .gone
    | token mint paid gone left => exact .of_none (gone rfl)
  | false =>
    cases h with
    | @sol escrow _ _ _ mint loaded split_of passed covered fits =>
      have loaded := ht.symm.trans loaded
      exact .paid loaded covered (hdue rfl escrow loaded)
    | token mint paid gone left =>
      rw [hmint] at mint
      exact .token mint

/-- The settlement of a completion. -/
theorem EscrowFate.of_completion {acc : TaskAccounts} {after : Option (Account TaskEscrow)}
    {t : Till} {gross : ℕ} {price : Option ℕ} {vault' : Option ℕ} {ts : List Transfer}
    (h : Settles t payees gross (completesTask acc.task) after vault' ts)
    (ht : t.escrow = acc.escrow) (hmint : t.mint = acc.task.rewardMint)
    (hgross : completionGross acc.task price = .ok gross)
    (hprice : acc.task.taskType ≠ .BidExclusive → price = none) (hpays : pays) :
    EscrowFate pays acc after :=
  .of_settles h ht hmint fun hlast _ _ => .inr ⟨hpays, hlast, price, hgross, hprice⟩

theorem TouchesBids.fate (h : TouchesBids c c') :
    EscrowFate pays c.accounts c'.accounts.escrow := by
  obtain ⟨_, _, _, _, _, -, -, -, rfl⟩ := h
  exact .of_same rfl

theorem Occupies.fate {expiresAt : ℤ} (h : Occupies c expiresAt c') :
    EscrowFate pays c.accounts c'.accounts.escrow := by
  obtain ⟨_, _, _, _, _, _, _, _, _, rfl, -⟩ := h
  exact .of_same rfl

theorem PaysAccepted.fate (h : PaysAccepted c config payees c') (hpays : pays) :
    EscrowFate pays c.accounts c'.accounts.escrow := by
  obtain ⟨claim, stored, gross, price, escrow', vault', paidReward, book', bids', bidder',
    paidBid, votes', -, -, -, -, -, hgross, hprice, hsettles, -, _, _, _, _, _, _, _, _, rfl⟩ := h
  exact .of_completion hsettles rfl rfl hgross hprice hpays

theorem RejectsClaim.fate (h : RejectsClaim c config c') :
    EscrowFate pays c.accounts c'.accounts.escrow := by
  obtain ⟨_, _, _, _, _, _, _, _, -, -, -, -, -, -, -, rfl⟩ := h
  exact .of_same rfl

theorem PaysFrozen.fate {disposition : BondDisposition}
    (h : PaysFrozen c payees disposition c') (hpays : pays) :
    EscrowFate pays c.accounts c'.accounts.escrow := by
  obtain ⟨claim, stored, gross, escrow', vault', paidReward, -, -, -, -, -, hgross, h⟩ := h
  obtain ⟨hsettles, -, _, _, _, _, _, _, _, _, rfl⟩ := h
  exact .of_completion hsettles rfl rfl hgross (fun _ => rfl) hpays

theorem CancelsFrozen.fate (h : CancelsFrozen c c') :
    EscrowFate pays c.accounts c'.accounts.escrow := by
  obtain ⟨_, _, _, -, -, -, -, -, -, -, rfl⟩ := h
  exact .of_none rfl

theorem expireClaim_fate {caller : Pubkey} {withSubmission : Bool}
    (h : expireClaim c caller withSubmission = .ok c') :
    EscrowFate pays c.accounts c'.accounts.escrow := by
  obtain ⟨claim, escrow, reward, forfeited, book', bids', bidder', h⟩ := expireClaim_spec h
  obtain ⟨paidBid, bonds', paidBond, -, -, -, -, -, -, -, hescrow, hle, hreward, h⟩ := h
  obtain ⟨hcovered, -, -, rfl⟩ := h
  refine .paid hescrow hcovered (.inl ?_)
  rw [hreward, cleanupRewardForTask]
  split_ifs
  · exact Nat.zero_le _
  · exact min_le_right _ _

theorem distributeGhostShare_fate (h : distributeGhostShare c payees = .ok c') :
    EscrowFate pays c.accounts c'.accounts.escrow := by
  obtain ⟨_, _, _, escrow, _, _, -, -, -, -, -, -, hescrow, -, -, -, -, -, h⟩ :=
    distributeGhostShare_spec h
  obtain ⟨hsettles, _, _, _, _, _, _, rfl⟩ := h
  refine .of_settles hsettles rfl rfl fun _ e he => .inl ?_
  obtain rfl := Option.some.inj (hescrow.symm.trans he)
  exact Nat.div_le_self _ _

theorem reviewQuorum_eq {reviewer : Pubkey} {validator : Option (Pubkey × AgentRegistration)}
    {quorum : ℕ} (h : reviewQuorum c config reviewer validator = .ok quorum) :
    quorum = if config.mode = .ExternalAttestation then 1 else config.validatorQuorum := by
  unfold reviewQuorum at h
  split at h
  · rename_i hmode
    simp only [bind_eq_ok, Prod.exists, Except.ok.injEq] at h
    obtain ⟨_, _, -, _, -, _, -, _, -, _, -, _, -, rfl⟩ := h
    rw [if_neg (by rw [hmode]; decide)]
  · rename_i hmode
    simp only [bind_eq_ok, Except.ok.injEq] at h
    obtain ⟨_, -, _, -, _, -, rfl⟩ := h
    rw [if_pos hmode]
  · cases h
  · cases h

/-- Votes that do not decide for the submission leave the escrow. -/
theorem validateTaskResult_unpaid {reviewer : Pubkey}
    {validator : Option (Pubkey × AgentRegistration)} {approved : Bool}
    (h : validateTaskResult c reviewer validator approved = .ok c')
    (happroves : ¬Approves c.accounts c.workerKey approved) :
    c'.accounts.escrow = c.accounts.escrow := by
  simp only [validateTaskResult, bind_eq_ok, demand_eq_ok, require_eq_ok, Prod.exists,
    TaskContext.task_eq] at h
  obtain ⟨claim, hclaim, submission, hstored, _, -, _, -, config, hconfig, _, -, quorum, hquorum,
    c₁, data, hvote, h⟩ := h
  obtain ⟨-, hvalidation, -⟩ := ensureValidationConfig_spec hconfig
  obtain ⟨-, hcount, votes₁, hc₁⟩ := recordVote_spec hvote
  dsimp only at hcount hc₁
  subst hc₁
  split_ifs at h with happrove hreject
  · refine absurd ⟨config, submission, hvalidation, hstored, ?_⟩ happroves
    rw [← reviewQuorum_eq hquorum, ← hcount]
    exact happrove
  · simp only [bind_eq_ok, Except.ok.injEq] at h
    obtain ⟨c₂, h₂, c₃, h₃, rfl⟩ := h
    obtain ⟨_, _, _, _, _, -, -, -, -, -, rfl⟩ := releaseRejected_spec h₂
    obtain ⟨_, -, rfl⟩ := closeClaim_spec h₃
    obtain ⟨_, hvotes⟩ := closeAttestorVote_eq _ config reviewer
    rw [hvotes]
  · obtain rfl := Except.ok.inj h
    rfl

/-- A reviewer pays a share only when the votes decide so. -/
theorem validateTaskResult_fate {reviewer : Pubkey}
    {validator : Option (Pubkey × AgentRegistration)} {approved : Bool}
    (h : validateTaskResult c reviewer validator approved = .ok c') :
    EscrowFate (Approves c.accounts c.workerKey approved) c.accounts c'.accounts.escrow := by
  by_cases happroves : Approves c.accounts c.workerKey approved
  · obtain ⟨_, _, -, -, hpays | ⟨hrejects, -⟩ | ⟨_, _, -, rfl⟩⟩ := validateTaskResult_spec h
    · exact hpays.fate happroves
    · exact hrejects.fate
    · exact .of_same rfl
  · exact .of_same (validateTaskResult_unpaid h happroves)

theorem WorkOp.run_fate {w : World} {op : WorkOp} (h : op.run w c = .ok c') :
    EscrowFate (op.PaysShare c.accounts c.workerKey) c.accounts c'.accounts.escrow := by
  cases op with
  | claimTaskWithJobSpec signer prefunded =>
    obtain ⟨_, -, -, -, -, -, hoccupies⟩ := claimTaskWithJobSpec_spec h
    exact hoccupies.fate
  | createBid signer terms prefunded => exact (createBid_spec h).touches.fate
  | updateBid signer terms => exact (updateBid_spec h).touches.fate
  | cancelBid signer => exact (cancelBid_spec h).touches.fate
  | expireBid => exact (expireBid_spec h).touches.fate
  | promoteBid => exact (promoteBid_spec h).touches.fate
  | demoteIneligibleBest => exact (demoteIneligibleBest_spec h).touches.fate
  | acceptBid signer expectedBidTermsHash prefunded =>
    obtain ⟨_, _, _, -, -, -, -, hoccupies⟩ := acceptBid_spec h
    exact hoccupies.fate
  | postWorkerBond signer prefunded =>
    have h : postCompletionBond c signer .Worker prefunded = .ok c' := h
    obtain ⟨_, -, -, -, -, -, -, -, -, rfl⟩ := postCompletionBond_spec h
    exact .of_same rfl
  | submitTaskResult signer proofHash resultData prefunded =>
    obtain ⟨_, _, _, -, -, -, -, -, -, -, _, _, rfl⟩ := submitTaskResult_spec h
    exact .of_same rfl
  | acceptTaskResult signer payees =>
    obtain ⟨_, _, -, -, -, -, hpays⟩ := acceptTaskResult_spec h
    exact hpays.fate trivial
  | autoAcceptTaskResult payees =>
    obtain ⟨_, _, -, -, -, hpays⟩ := autoAcceptTaskResult_spec h
    exact hpays.fate trivial
  | rejectTaskResult signer rejectionHash =>
    obtain ⟨_, _, -, -, -, -, hrejects⟩ := rejectTaskResult_spec h
    exact hrejects.fate
  | requestChanges signer changesHash =>
    obtain ⟨_, _, _, _, _, -, -, -, -, -, -, rfl⟩ := requestChanges_spec h
    exact .of_same rfl
  | validateTaskResult reviewer validator approved =>
    exact validateTaskResult_fate h
  | rejectAndFreeze signer rejectionHash =>
    obtain ⟨_, _, _, -, -, -, -, -, rfl⟩ := rejectAndFreeze_spec h
    exact .of_same rfl
  | resolveRejectFrozen signers approveCompletion payees =>
    obtain ⟨_, hpays⟩ | hcancels := resolveRejectFrozen_spec h
    · exact hpays.fate trivial
    · exact hcancels.fate
  | expireRejectFrozen payees =>
    exact (expireRejectFrozen_spec h).fate trivial
  | completeTask signer proofHash resultData payees =>
    obtain ⟨_, _, _, _, _, _, _, _, _, _, -, -, -, -, -, hgross, hprice, hsettles, -, h⟩ :=
      completeTask_spec h
    obtain ⟨_, _, _, _, _, _, _, _, rfl⟩ := h
    exact .of_completion hsettles rfl rfl hgross hprice trivial
  | expireClaim caller withSubmission => exact expireClaim_fate h
  | distributeGhostShare payees => exact distributeGhostShare_fate h
  | reclaimTerminalClaim =>
    obtain ⟨_, _, _, _, -, -, -, -, -, -, -, rfl⟩ := reclaimTerminalClaim_spec h
    exact .of_same rfl

theorem TaskOp.run_fate {op : TaskOp} (h : op.run c = .ok c') :
    EscrowFate pays c.accounts c'.accounts.escrow := by
  cases op with
  | configureTaskValidation signer mode reviewWindowSecs validatorQuorum attestor =>
    obtain ⟨_, -, -, -, -, -, rfl⟩ := configureTaskValidation_spec h
    exact .of_same rfl
  | setTaskJobSpec signer jobSpecHash =>
    obtain ⟨_, -, rfl⟩ := setTaskJobSpec_spec h
    exact .of_same rfl
  | initializeBidBook signer policy weights =>
    obtain ⟨_, _, -, -, -, -, rfl⟩ := initializeBidBook_spec h
    exact .of_same rfl
  | postCreatorBond signer prefunded =>
    have h : postCompletionBond c signer .Creator prefunded = .ok c' := h
    obtain ⟨_, -, -, -, -, -, -, -, -, rfl⟩ := postCompletionBond_spec h
    exact .of_same rfl
  | reclaimCompletionBond party role =>
    obtain ⟨-, rfl⟩ := reclaimCompletionBond_spec h
    exact .of_same rfl

theorem DisputeOp.run_fate {w : World} {op : DisputeOp} {d d' : Dispute}
    (h : op.run w c d = .ok (c', d')) : EscrowFate pays c.accounts c'.accounts.escrow := by
  by_cases hmint : c.accounts.task.rewardMint = none
  swap
  · exact .token hmint
  cases op with
  | cancelDispute signer =>
    obtain ⟨_, _, -, -, -, -, -, rfl, rfl⟩ := cancelDispute_spec h
    exact .of_same rfl
  | resolveDispute signer signers withAssignment approved payees =>
    obtain ⟨_, _, _, _, _, _, _, _, _, _, _, _, _, _, _, -, -, -, -, -, -, hempties, -, -, -, -, h⟩ :=
      resolveDispute_spec h
    obtain ⟨_, _, _, _, _, _, _, -, -, rfl, rfl⟩ := h
    exact .of_none (hempties.sol hmint).1
  | expireDispute =>
    obtain ⟨_, _, _, _, _, _, _, _, _, _, _, _, _, _, _, -, -, -, -, -, -, hempties, -, -, -, -, -, rfl,
      rfl⟩ := expireDispute_spec h
    exact .of_none (hempties.sol hmint).1
  | settleDisputeClaim =>
    obtain ⟨_, _, _, _, _, _, _, -, -, -, -, -, -, -, -, -, -, -, rfl, -⟩ :=
      settleDisputeClaim_spec h
    exact .of_same rfl
  | applyDisputeSlash withTokenAccounts =>
    obtain ⟨_, _, _, _, _, _, _, _, _, _, _, _, -, -, -, -, -, -, -, hsol, -, -, -, rfl, -⟩ :=
      applyDisputeSlash_spec h
    exact .of_same (hsol hmint).1

theorem cancelTask_fate {agents agents' : Ledger Pubkey (Account AgentRegistration)}
    {signer : Pubkey} {workers : List Pubkey} {workerBondAuthority : Pubkey} {withParent : Bool}
    (h : cancelTask c agents signer workers workerBondAuthority withParent = .ok (c', agents')) :
    EscrowFate pays c.accounts c'.accounts.escrow := by
  obtain ⟨_, _, _, _, _, _, _, _, _, _, _, _, _, -, -, -, -, -, -, -, -, -, -, -, -, -, -, -, h⟩ :=
    cancelTask_spec h
  obtain ⟨-, -, rfl⟩ := h
  exact .of_none rfl

theorem closeTask_fate {agents : Ledger Pubkey (Account AgentRegistration)} {signer : Pubkey}
    {withJobSpec withEscrow : Bool} {workerBond : Option Pubkey} {children : List TaskChild}
    (h : closeTask c agents signer withJobSpec withEscrow workerBond children = .ok c') :
    EscrowFate pays c.accounts c'.accounts.escrow := by
  obtain ⟨escrow', _, _, _, _, _, _, -, -, -, hescrow, -, -, -, -, rfl⟩ := closeTask_spec h
  rcases hescrow with ⟨rfl, -⟩ | ⟨_, -, -, rfl, -⟩
  · exact .of_same rfl
  · exact .of_none rfl

end Handlers

/-! ## Every step -/

section Steps

variable {w w' : World} {key : Pubkey} {acc acc' : TaskAccounts} {i : Instruction}
  {ts : List Transfer} {rent : Rent}

/-- The instruction pays the completion of a worker on the task. -/
def Instruction.PaysShare (key : Pubkey) (acc : TaskAccounts) (i : Instruction) : Prop :=
  ∃ k op, i = .work key k op ∧ op.PaysShare acc k

/-- Every instruction on a task but a donation makes this of its escrow. -/
theorem TaskMove.fate (h : TaskMove w key acc i acc' ts)
    (hdonation : ∀ amount, i ≠ .donate (.escrow key) amount) :
    EscrowFate (i.PaysShare key acc) acc acc'.escrow := by
  cases h with
  | donated credits =>
    cases credits with
    | escrow loaded => exact absurd rfl (hdonation _)
    | _ => exact .of_same rfl
  | task ran => exact TaskOp.run_fate ran
  | work found ran rent => exact (WorkOp.run_fate ran).mono fun h => ⟨_, _, rfl, h⟩
  | cancelled listed ran =>
    obtain ⟨-, haccounts, -⟩ := listed_context listed
    rw [← haccounts]
    exact cancelTask_fate ran
  | closed ran => exact closeTask_fate ran
  | disputed opens => exact .of_same rfl
  | ruled found filed about ran rent => exact DisputeOp.run_fate ran

/-- A completion before the last pays a share of a collaborative task. -/
theorem completionGross_share {task : Task} {price : Option ℕ} {gross : ℕ}
    (hgross : completionGross task price = .ok gross)
    (hprice : task.taskType ≠ .BidExclusive → price = none) (hshares : SharesOnly task)
    (hlast : completesTask task = false) :
    task.taskType = .Collaborative ∧ calculateRewardPerWorker task = .ok gross := by
  have htype : task.taskType = .Collaborative := by
    by_contra htype
    have hone := hshares htype
    have hlast := of_decide_eq_false hlast
    omega
  refine ⟨htype, ?_⟩
  have hnone : price = none := hprice (by rw [htype]; decide)
  rw [hnone] at hgross
  exact hgross

/-- A solvent escrow stays solvent when the shares the instruction pays are within what is
left. -/
theorem EscrowFate.solvent {after : Option (Account TaskEscrow)}
    (h : EscrowFate (i.PaysShare key acc) acc after) (hmint : acc.task.rewardMint = none)
    (hshares : SharesOnly acc.task) (hwithin : ∀ k op, i = .work key k op → PaysWithin acc k op)
    (hsolvent : ∀ escrow, acc.escrow = some escrow → Solvent rent escrow) :
    ∀ escrow, after = some escrow → Solvent rent escrow := by
  intro escrow' hescrow'
  cases h with
  | same => exact hsolvent escrow' hescrow'
  | gone => cases hescrow'
  | @paid escrow amount loaded covered due =>
    obtain rfl := Option.some.inj hescrow'
    refine (hsolvent escrow loaded).pay ?_
    rcases due with hle | ⟨⟨k, op, hi, hpays⟩, hlast, price, hgross, hprice⟩
    · exact hle
    · obtain ⟨htype, hshare⟩ := completionGross_share hgross hprice hshares hlast
      exact hwithin k op hi hpays htype hlast escrow amount loaded hshare
  | token mint => exact absurd hmint mint

theorem TaskMove.solvent (h : TaskMove w key acc i acc' ts)
    (hmint : acc.task.rewardMint = none) (hshares : SharesOnly acc.task)
    (hwithin : ∀ k op, i = .work key k op → PaysWithin acc k op)
    (hsolvent : ∀ escrow, acc.escrow = some escrow → Solvent rent escrow) :
    ∀ escrow, acc'.escrow = some escrow → Solvent rent escrow := by
  by_cases hdonation : ∃ amount, i = .donate (.escrow key) amount
  · obtain ⟨amount, rfl⟩ := hdonation
    cases h with
    | donated credits =>
      cases credits with
      | escrow loaded =>
        intro escrow' hescrow'
        obtain rfl := Option.some.inj hescrow'
        exact (hsolvent _ loaded).donate
  · exact (h.fate fun amount hi => hdonation ⟨amount, hi⟩).solvent hmint hshares hwithin hsolvent

/-- The escrows of SOL tasks are solvent. -/
def EscrowsSolvent (w : World) : Prop :=
  ∀ key acc, w.tasks.lookup key = some acc → SharesOnly acc.task ∧
    (acc.task.rewardMint = none → ∀ escrow, acc.escrow = some escrow →
      Solvent w.sys.rent escrow)

/-- The step pays no share of a collaborative task in SOL, before the last, that exceeds what is
left. -/
def SharesCovered (e : LogEntry) : Prop :=
  ∀ key k op acc, e.label.1 = .work key k op → e.before.tasks.lookup key = some acc →
    acc.task.rewardMint = none → PaysWithin acc k op

theorem SameTerms.sharesOnly {task task' : Task} (h : SameTerms task task')
    (hshares : SharesOnly task) : SharesOnly task' := by
  unfold SharesOnly
  rw [h.requiredCompletions, h.taskType]
  exact hshares

theorem Step.solvent {e : LogEntry} (h : Step e.before e.label e.after)
    (hcovered : SharesCovered e) (hsolvent : EscrowsSolvent e.before) :
    EscrowsSolvent e.after := by
  obtain ⟨before, ⟨i, ts⟩, after⟩ := e
  dsimp only at h hsolvent ⊢
  obtain ⟨-, hrent, -⟩ := h.environment
  intro key acc' hacc'
  rw [hrent]
  cases h.task key with
  | apart same unpaid =>
    rw [same] at hacc'
    exact hsolvent key acc' hacc'
  | created new stored fresh unpaid =>
    obtain rfl := Option.some.inj (stored.symm.trans hacc')
    refine ⟨fun htype => ?_, fun hmint escrow hescrow => ?_⟩
    · rw [fresh.task.required, if_neg htype]
    · obtain ⟨pre, hinit⟩ := fresh.escrow
      obtain rfl := Option.some.inj (hinit.symm.trans hescrow)
      exact Solvent.init hmint
  | @moved acc _ loaded stored move =>
    obtain rfl := Option.some.inj (stored.symm.trans hacc')
    obtain ⟨hshares, hescrows⟩ := hsolvent key acc loaded
    have hterms := move.terms
    refine ⟨hterms.sharesOnly hshares, fun hmint => ?_⟩
    rw [hterms.rewardMint] at hmint
    refine move.solvent hmint hshares (fun k op hi => ?_) (hescrows hmint)
    exact hcovered key k op acc hi loaded hmint

/-- From every initial world, in every run that pays no share of a collaborative SOL task, before
the last, beyond what the escrow has left: no open escrow of a SOL task has distributed more than
its amount, each holds its rent-exempt minimum and all it has not distributed, and so what a
refund or a ruling owes is defined and covered. -/
theorem escrow_solvency {start w : World} {log : List LogEntry} (hstart : Genesis start)
    (hrun : Run Step start log w) (hcovered : ∀ e ∈ log, SharesCovered e) :
    ∀ key acc escrow, w.tasks.lookup key = some acc → acc.task.rewardMint = none →
      acc.escrow = some escrow →
      escrow.data.distributed ≤ escrow.data.amount ∧
      w.sys.rent.minimumBalance taskEscrowSize +
        (escrow.data.amount - escrow.data.distributed) ≤ escrow.lamports ∧
      subU escrow.data.amount escrow.data.distributed =
        .ok (escrow.data.amount - escrow.data.distributed) ∧
      escrow.data.amount - escrow.data.distributed ≤ escrow.lamports := by
  intro key acc escrow hacc hmint hescrow
  have hsolvent : EscrowsSolvent w := by
    refine hrun.invariant_of (I := EscrowsSolvent) (C := SharesCovered)
      (fun _ hs hC hI => Step.solvent hs hC hI) hcovered ?_
    intro key acc hacc
    rw [hstart.tasks] at hacc
    cases hacc
  have h := (hsolvent key acc hacc).2 hmint escrow hescrow
  exact ⟨h.1, h.2, h.remaining⟩

end Steps

/-! ## Fixed runs -/

/-- A collaborative task of two workers, one of whom submits while the claim of the other
expires. -/
def cleanupScript : List Instruction :=
  [.agent 10 (.registerAgent 100 1 1000000 0), .agent 11 (.registerAgent 101 1 1000000 0),
   .agent 12 (.registerAgent 102 1 1000000 0),
   .create 50 100 false {} (.createTask 10
     ⟨1, 1, (1, 0), 1500, 2, 5000, .Collaborative, 0, none⟩ none none 0),
   .task 50 (.configureTaskValidation 100 .CreatorReview 3600 0 none),
   .task 50 (.setTaskJobSpec 100 7),
   .work 50 11 (.claimTaskWithJobSpec 101 0),
   .work 50 12 (.claimTaskWithJobSpec 102 0),
   .work 50 11 (.submitTaskResult 101 9 none 0),
   .tick 9000,
   .work 50 12 (.expireClaim 7 true)]

/-- After the cleanup the escrow is solvent. -/
theorem escrow_solvency_cleanup :
    ∃ log acc escrow, Run Step deployed log (deployed.after cleanupScript) ∧
      (deployed.after cleanupScript).tasks.lookup 50 = some acc ∧ acc.escrow = some escrow ∧
      escrow.data.distributed = 1000 ∧ escrow.data.distributed ≤ escrow.data.amount := by
  have hcheck : ((deployed.after cleanupScript).tasks.lookup 50).map (fun acc =>
      (acc.task.rewardMint, acc.escrow.map fun e => e.data.distributed)) =
        some (none, some 1000) := by
    decide +kernel
  obtain ⟨acc, hacc, hcheck⟩ := Option.map_eq_some_iff.mp hcheck
  obtain ⟨hmint, hescrow⟩ := Prod.mk.inj hcheck
  obtain ⟨escrow, hescrow, hdistributed⟩ := Option.map_eq_some_iff.mp hescrow
  obtain ⟨log, hrun, hscript⟩ := deployed.run_script cleanupScript
  have hcovered : ∀ e ∈ log, SharesCovered e := by
    intro e he key k op acc hi _ _ hpays
    have hmem := hscript e he
    rw [hi] at hmem
    simp only [cleanupScript, List.mem_cons, reduceCtorEq, false_or, Instruction.work.injEq,
      List.not_mem_nil, or_false] at hmem
    rcases hmem with ⟨-, -, rfl⟩ | ⟨-, -, rfl⟩ | ⟨-, -, rfl⟩ | ⟨-, -, rfl⟩ <;> exact hpays.elim
  have hwithin := (escrow_solvency deployed_genesis hrun hcovered 50 acc escrow hacc hmint
    hescrow).1
  exact ⟨log, acc, escrow, hrun, hacc, hescrow, hdistributed, hwithin⟩

/-- After a cleanup reward and a donation, a share goes through that is larger than what is left:
the escrow stays open and has distributed more than its amount. -/
theorem share_exceeds_pool :
    ∃ log acc escrow, Run Step deployed log (deployed.after (cleanupScript ++
        [.donate (.escrow 50) 1000, .work 50 11 (.acceptTaskResult 100 {})])) ∧
      (deployed.after (cleanupScript ++
        [.donate (.escrow 50) 1000, .work 50 11 (.acceptTaskResult 100 {})])).tasks.lookup 50 =
          some acc ∧
      acc.task.rewardMint = none ∧ acc.escrow = some escrow ∧
      escrow.data.amount < escrow.data.distributed := by
  have hcheck : ((deployed.after (cleanupScript ++
      [.donate (.escrow 50) 1000, .work 50 11 (.acceptTaskResult 100 {})])).tasks.lookup 50).map
        (fun acc => (acc.task.rewardMint,
          acc.escrow.map fun e => (e.data.amount, e.data.distributed))) =
        some (none, some (1500, 1750)) := by
    decide +kernel
  obtain ⟨acc, hacc, hcheck⟩ := Option.map_eq_some_iff.mp hcheck
  obtain ⟨hmint, hescrow⟩ := Prod.mk.inj hcheck
  obtain ⟨escrow, hescrow, hbooks⟩ := Option.map_eq_some_iff.mp hescrow
  obtain ⟨hamount, hdistributed⟩ := Prod.mk.inj hbooks
  obtain ⟨log, hrun⟩ := deployed.run_after (cleanupScript ++
    [.donate (.escrow 50) 1000, .work 50 11 (.acceptTaskResult 100 {})])
  refine ⟨log, acc, escrow, hrun, hacc, hmint, hescrow, ?_⟩
  rw [hamount, hdistributed]
  decide

end AgencCoordination
