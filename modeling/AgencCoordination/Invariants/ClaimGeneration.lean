import AgencCoordination.Program.TaskReserved
import AgencCoordination.Invariants.GhostSplit
import AgencCoordination.Invariants.Occupancy
import AgencCoordination.Sdk.Claimable

/-!
# The claim generation

A reviewer who has read a task names the generation of the claim it reviewed. The generation is
one of the fields packed in the reserved bytes of the task.

* **`ReservedWrite.run_generation`** — of the writers of the reserved bytes, only the increment
  changes the generation, and it raises it by one.
* **`TaskMove.generation`** — a step on a task opens no claim and keeps the generation, or opens
  one claim and raises it by one.
* **`claim_generation_counts`** — over a run, the generation grows by the claims opened.
-/

namespace AgencCoordination

open Foundations Foundations.Bytes

/-! ## The packed fields -/

namespace Reserved

variable {r r' : Reserved} {i : ℕ} {b : UInt8} {bytes bytes' : List UInt8}

/-- A byte outside the generation can be written without changing it. -/
theorem claimGeneration_set (hi : i < 16) (h : i < 3 ∨ 11 ≤ i) :
    claimGeneration (Vector.set r i b hi) = claimGeneration r := by
  unfold claimGeneration
  simp (disch := omega) only [Vector.getElem_set_ne]

theorem getElem_copyGeneration (hi : i < 16) :
    (r.copyGeneration bytes)[i] = if 3 ≤ i ∧ i < 11 then bytes.getD (i - 3) 0 else r[i] := by
  unfold copyGeneration
  rw [Vector.getElem_ofFn]
  rfl

theorem getElem_copyGeneration_of_out (hi : i < 16) (h : i < 3 ∨ 11 ≤ i) :
    (r.copyGeneration bytes)[i] = r[i] := by
  rw [getElem_copyGeneration hi, if_neg (by omega)]

/-- Writing the generation and a byte outside it commutes. -/
theorem copyGeneration_set (hi : i < 16) (h : i < 3 ∨ 11 ≤ i) :
    copyGeneration (Vector.set r i b hi) bytes = Vector.set (r.copyGeneration bytes) i b hi := by
  refine Vector.ext fun j hj => ?_
  rw [getElem_copyGeneration hj, Vector.getElem_set, Vector.getElem_set, getElem_copyGeneration hj]
  split_ifs with hin heq
  · omega
  · rfl
  · rfl
  · rfl

theorem copyGeneration_copyGeneration :
    (r.copyGeneration bytes').copyGeneration bytes = r.copyGeneration bytes := by
  refine Vector.ext fun j hj => ?_
  rw [getElem_copyGeneration hj, getElem_copyGeneration hj, getElem_copyGeneration hj]
  split_ifs with hin
  · rfl
  · rfl

/-- What was written as the generation is read back. -/
theorem claimGeneration_copyGeneration (n : ℕ) :
    (r.copyGeneration (littleEndian 8 n)).claimGeneration = n % 256 ^ 8 := by
  rw [← ofLittleEndian_littleEndian]
  unfold claimGeneration
  simp only [getElem_copyGeneration]
  rfl

/-- The increment raises the generation by one and keeps every other field. -/
structure Increments (r r' : Reserved) : Prop where
  generation : r'.claimGeneration = r.claimGeneration + 1
  taskSchema : r'.taskSchema = r.taskSchema
  liveSubmissions : r'.liveSubmissions = r.liveSubmissions
  workerSlashPending : r'.workerSlashPending = r.workerSlashPending
  peerSettlementPending : r'.peerSettlementPending = r.peerSettlementPending
  ratingFeeQualified : r'.ratingFeeQualified = r.ratingFeeQualified
  validateReservedFields : r'.validateReservedFields = r.validateReservedFields

theorem incrementClaimGeneration_increments (h : r.incrementClaimGeneration = .ok r') :
    Increments r r' := by
  simp only [incrementClaimGeneration, bind_eq_ok, addU64_eq_ok, Except.ok.injEq] at h
  obtain ⟨next, ⟨hfits, rfl⟩, rfl⟩ := h
  have hout {j : ℕ} (hj : j < 16) (hj' : j < 3 ∨ 11 ≤ j) :=
    @getElem_copyGeneration_of_out r j (littleEndian 8 (r.claimGeneration + 1)) hj hj'
  have hvalid : validateReservedFields (r.copyGeneration (littleEndian 8 (r.claimGeneration + 1))) =
      r.validateReservedFields := by
    unfold validateReservedFields
    simp (disch := omega) only [hout]
  constructor
  · rw [claimGeneration_copyGeneration]
    exact Nat.mod_eq_of_lt hfits
  · unfold taskSchema
    rw [hout (by decide) (by decide)]
  · unfold liveSubmissions
    rw [hout (by decide) (by decide)]
  · unfold workerSlashPending
    rw [hout (by decide) (by decide)]
  · unfold peerSettlementPending
    rw [hout (by decide) (by decide)]
  · unfold ratingFeeQualified
    rw [hvalid, hout (by decide) (by decide)]
  · exact hvalid

end Reserved

/-- Only the increment changes the generation. -/
theorem ReservedWrite.run_generation {write : ReservedWrite} {r r' : Reserved}
    (h : write.run r = .ok r') : r'.claimGeneration = r.claimGeneration +
      if write = .incrementClaimGeneration then 1 else 0 := by
  by_cases hwrite : write = .incrementClaimGeneration
  · subst hwrite
    rw [if_pos rfl]
    exact (Reserved.incrementClaimGeneration_increments h).generation
  · rw [if_neg hwrite, Nat.add_zero]
    have hset {i : ℕ} {b : UInt8} (hi : i < 16) (hout : i < 3 ∨ 11 ≤ i)
        (hr' : Vector.set r i b hi = r') : r'.claimGeneration = r.claimGeneration := by
      rw [← hr', Reserved.claimGeneration_set hi hout]
    cases write with
    | setTaskSchema schema => exact hset (by decide) (by decide) (Except.ok.inj h)
    | setLiveSubmissions count => exact hset (by decide) (by decide) (Except.ok.inj h)
    | setWorkerSlashPending pending => exact hset (by decide) (by decide) (Except.ok.inj h)
    | setPeerSettlementPending pending => exact hset (by decide) (by decide) (Except.ok.inj h)
    | recordRatingFee protocolFee independentSolFee =>
      have hr' : r.recordRatingFee protocolFee independentSolFee = r' := Except.ok.inj h
      rw [Reserved.recordRatingFee] at hr'
      split_ifs at hr' with hfee
      · exact hset (by decide) (by decide) hr'
      · rw [hr']
    | incrementClaimGeneration => exact absurd rfl hwrite

/-! ## The bytes of a task -/

section Bytes

variable {task task' : Task}

/-- The bytes are those the indexers read. -/
theorem Task.reserved_toList (task : Task) : task.reserved.toList = Sdk.reservedBytes task := rfl

theorem Task.reserved_generation (h : task.claimGeneration < u64Limit) :
    task.reserved.claimGeneration = task.claimGeneration := by
  rw [Task.reserved, Reserved.claimGeneration_copyGeneration]
  exact Nat.mod_eq_of_lt h

/-- A task whose other flags are written like `write` has its bytes written like `write`. -/
theorem Task.reserved_set {i : ℕ} {b : UInt8} (hi : i < 16) (h : i < 3 ∨ 11 ≤ i)
    (hflags : task'.reservedFlags = Vector.set task.reservedFlags i b hi)
    (hgeneration : task'.claimGeneration = task.claimGeneration) :
    task'.reserved = Vector.set task.reserved i b hi := by
  rw [Task.reserved, hflags, hgeneration, Reserved.copyGeneration_set hi h, Task.reserved]

theorem Task.reserved_liveSubmissions (n : ℕ) :
    Task.reserved { task with liveSubmissions := n } =
      task.reserved.setLiveSubmissions (UInt8.ofNat n) :=
  Task.reserved_set (by decide) (by decide) rfl rfl

theorem Task.reserved_workerSlashPending (b : Bool) :
    Task.reserved { task with workerSlashPending := b } = task.reserved.setWorkerSlashPending b :=
  Task.reserved_set (by decide) (by decide) rfl rfl

theorem Task.reserved_peerSettlementPending (b : Bool) :
    Task.reserved { task with peerSettlementPending := b } =
      task.reserved.setPeerSettlementPending b :=
  Task.reserved_set (by decide) (by decide) rfl rfl

/-- The increment of the model is the increment of the bytes. -/
theorem Task.reserved_increment (hfits : task.claimGeneration < u64Limit)
    (h : task.incrementClaimGeneration = .ok task') :
    task.reserved.incrementClaimGeneration = .ok task'.reserved := by
  simp only [Task.incrementClaimGeneration, bind_eq_ok, addU64_eq_ok, Except.ok.injEq] at h
  obtain ⟨next, ⟨hnext, rfl⟩, rfl⟩ := h
  simp only [Reserved.incrementClaimGeneration, bind_eq_ok, addU64_eq_ok, Except.ok.injEq,
    Task.reserved_generation hfits]
  refine ⟨_, ⟨hnext, rfl⟩, ?_⟩
  rw [Task.reserved, Reserved.copyGeneration_copyGeneration]
  rfl

end Bytes

/-! ## What an instruction does to the generation -/

/-- The handlers that create a claim account. -/
def WorkOp.opensClaim : WorkOp → Bool
  | .claimTaskWithJobSpec _ _ | .acceptBid _ _ _ => true
  | _ => false

/-- The instruction opens no claim and leaves the generation alone. -/
structure KeepsGeneration (acc acc' : TaskAccounts) : Prop where
  generation : acc'.task.claimGeneration = acc.task.claimGeneration
  vacant : ∀ k, acc.claims.lookup k = none → acc'.claims.lookup k = none

/-- The instruction opens the claim of `k`, and only that, and raises the generation by one. -/
structure RaisesGeneration (k : Pubkey) (acc acc' : TaskAccounts) : Prop where
  generation : acc'.task.claimGeneration = acc.task.claimGeneration + 1
  fits : acc'.task.claimGeneration < u64Limit
  free : acc.claims.lookup k = none
  opened : (acc'.claims.lookup k).isSome = true
  others : ∀ j, j ≠ k → acc'.claims.lookup j = acc.claims.lookup j

namespace KeepsGeneration

variable {acc acc' : TaskAccounts} {k : Pubkey}

theorem of_same (hgeneration : acc'.task.claimGeneration = acc.task.claimGeneration)
    (hclaims : acc'.claims = acc.claims) : KeepsGeneration acc acc' :=
  ⟨hgeneration, fun k hk => by rw [hclaims, hk]⟩

theorem of_erase (hgeneration : acc'.task.claimGeneration = acc.task.claimGeneration)
    (hclaims : acc'.claims = acc.claims.erase k) : KeepsGeneration acc acc' := by
  refine ⟨hgeneration, fun j hj => ?_⟩
  rw [hclaims, Ledger.lookup_erase_eq_ite, hj, ite_self]

/-- Rewriting a claim that is open. -/
theorem of_insert {claim claim' : Account TaskClaim}
    (hgeneration : acc'.task.claimGeneration = acc.task.claimGeneration)
    (hopen : acc.claims.lookup k = some claim)
    (hclaims : acc'.claims = acc.claims.insert k claim') : KeepsGeneration acc acc' := by
  refine ⟨hgeneration, fun j hj => ?_⟩
  rw [hclaims, AList.lookup_insert_ne, hj]
  rintro rfl
  rw [hj] at hopen
  cases hopen

end KeepsGeneration

section Handlers

variable {c c' : TaskContext} {w : World}

theorem incrementClaimGeneration_succ {task task' : Task}
    (h : task.incrementClaimGeneration = .ok task') :
    task'.claimGeneration = task.claimGeneration + 1 ∧ task'.claimGeneration < u64Limit := by
  simp only [Task.incrementClaimGeneration, bind_eq_ok, addU64_eq_ok, Except.ok.injEq] at h
  obtain ⟨next, ⟨hnext, rfl⟩, rfl⟩ := h
  exact ⟨rfl, hnext⟩

@[simp] theorem depositContestEntry_task (c : TaskContext) :
    (depositContestEntry c).accounts.task = c.accounts.task := by
  unfold depositContestEntry
  split
  · split
    · rfl
    · rfl
  · rfl

theorem claimTaskWithJobSpec_generation {signer : Pubkey} {prefunded : ℕ}
    (h : claimTaskWithJobSpec c signer prefunded = .ok c') :
    c'.accounts.task.claimGeneration = c.accounts.task.claimGeneration + 1 ∧
      c'.accounts.task.claimGeneration < u64Limit := by
  simp only [claimTaskWithJobSpec, bind_eq_ok, Except.ok.injEq] at h
  obtain ⟨_, -, spec, -, _, -, _, -, _, -, c₁, hclaim, rfl⟩ := h
  simp only [processClaim, bind_eq_ok, Except.ok.injEq, TaskContext.task_eq] at hclaim
  obtain ⟨_, -, _, -, _, -, _, -, _, -, _, -, _, -, _, -, hclaim⟩ := hclaim
  obtain ⟨_, -, _, -, _, -, _, -, _, -, _, -, _, -, task, htask, hclaim⟩ := hclaim
  obtain ⟨workers, -, active, -, rfl⟩ := hclaim
  obtain ⟨hnext, hfits⟩ := incrementClaimGeneration_succ htask
  rw [depositContestEntry_task]
  exact ⟨hnext, hfits⟩

theorem acceptBid_generation {signer : Pubkey} {expectedBidTermsHash : BidTermsHash}
    {prefunded : ℕ} (h : acceptBid c signer expectedBidTermsHash prefunded = .ok c') :
    c.accounts.claims.lookup c.workerKey = none ∧
      c'.accounts.task.claimGeneration = c.accounts.task.claimGeneration + 1 ∧
      c'.accounts.task.claimGeneration < u64Limit := by
  simp only [acceptBid, bind_eq_ok, require_eq_ok, demand_eq_ok, Except.ok.injEq,
    TaskContext.task_eq] at h
  obtain ⟨_, -, _, hfresh, book, -, bid, -, state, -, spec, -, h⟩ := h
  obtain ⟨_, -, _, -, _, -, _, -, _, -, _, -, _, -, _, -, h⟩ := h
  obtain ⟨_, -, _, -, _, -, _, -, _, -, _, -, _, -, _, -, _, -, _, -, h⟩ := h
  obtain ⟨_, -, _, -, _, -, _, -, expiresAt, -, task, htask, h⟩ := h
  obtain ⟨version, -, active, -, accepted, -, rfl⟩ := h
  obtain ⟨hnext, hfits⟩ := incrementClaimGeneration_succ htask
  exact ⟨hfresh, hnext, hfits⟩

/-- A handler on one worker opens its claim or none. -/
theorem WorkOp.run_generation {op : WorkOp} (h : op.run w c = .ok c')
    (hstamped : ∀ claim, c.accounts.claims.lookup c.workerKey = some claim →
      0 < claim.data.claimedAt) :
    if op.opensClaim = true then RaisesGeneration c.workerKey c.accounts c'.accounts
    else KeepsGeneration c.accounts c'.accounts := by
  have hbids {c₁ : TaskContext} (ht : TouchesBids c c₁) :
      KeepsGeneration c.accounts c₁.accounts := by
    obtain ⟨_, _, _, _, _, -, -, -, rfl⟩ := ht
    exact .of_same rfl rfl
  have hoccupied {expiresAt : ℤ} {c₁ : TaskContext} (ho : Occupies c expiresAt c₁)
      (hfree : c.accounts.claims.lookup c.workerKey = none)
      (hnext : c₁.accounts.task.claimGeneration = c.accounts.task.claimGeneration + 1 ∧
        c₁.accounts.task.claimGeneration < u64Limit) :
      RaisesGeneration c.workerKey c.accounts c₁.accounts := by
    obtain ⟨_, _, lamports, _, _, _, _, _, _, rfl, -⟩ := ho
    refine ⟨hnext.1, hnext.2, hfree, ?_, fun j hj => AList.lookup_insert_ne hj⟩
    dsimp only
    rw [AList.lookup_insert]
    rfl
  have hpaid {config : TaskValidationConfig} {payees : PayeeAccounts} {c₁ : TaskContext}
      (hp : PaysAccepted c config payees c₁) : KeepsGeneration c.accounts c₁.accounts := by
    obtain ⟨_, _, _, _, _, _, _, _, _, _, _, _, -, -, -, -, -, -, -, -, -, _, _, _, _, _, _, _, _,
      rfl⟩ := hp
    exact .of_erase rfl rfl
  have hrejected {config : TaskValidationConfig} {c₁ : TaskContext}
      (hr : RejectsClaim c config c₁) : KeepsGeneration c.accounts c₁.accounts := by
    obtain ⟨_, _, _, _, _, _, _, _, -, -, -, -, -, -, -, rfl⟩ := hr
    exact .of_erase rfl rfl
  have hfrozen {payees : PayeeAccounts} {disposition : BondDisposition} {c₁ : TaskContext}
      (hp : PaysFrozen c payees disposition c₁) : KeepsGeneration c.accounts c₁.accounts := by
    obtain ⟨_, _, _, _, _, _, -, -, -, -, -, -, -, -, _, _, _, _, _, _, _, _, rfl⟩ := hp
    exact .of_erase rfl rfl
  cases op with
  | claimTaskWithJobSpec signer prefunded =>
    have h : AgencCoordination.claimTaskWithJobSpec c signer prefunded = .ok c' := h
    obtain ⟨_, hassignable, -, -, -, -, ho⟩ := claimTaskWithJobSpec_spec h
    refine hoccupied ho ?_ (claimTaskWithJobSpec_generation h)
    cases hclaim : c.accounts.claims.lookup c.workerKey with
    | none => rfl
    | some claim =>
      exact absurd (hstamped claim hclaim) (not_lt.mpr (hassignable.unclaimed claim hclaim))
  | createBid signer terms prefunded => exact hbids (createBid_spec h).touches
  | updateBid signer terms => exact hbids (updateBid_spec h).touches
  | cancelBid signer => exact hbids (cancelBid_spec h).touches
  | expireBid => exact hbids (expireBid_spec h).touches
  | promoteBid => exact hbids (promoteBid_spec h).touches
  | demoteIneligibleBest => exact hbids (demoteIneligibleBest_spec h).touches
  | acceptBid signer expectedBidTermsHash prefunded =>
    have h : AgencCoordination.acceptBid c signer expectedBidTermsHash prefunded = .ok c' := h
    obtain ⟨_, _, _, -, -, -, -, ho⟩ := acceptBid_spec h
    obtain ⟨hfree, hnext⟩ := acceptBid_generation h
    exact hoccupied ho hfree hnext
  | postWorkerBond signer prefunded =>
    have h : postCompletionBond c signer .Worker prefunded = .ok c' := h
    obtain ⟨_, -, -, -, -, -, -, -, -, rfl⟩ := postCompletionBond_spec h
    exact .of_same rfl rfl
  | submitTaskResult signer proofHash resultData prefunded =>
    obtain ⟨claim, _, _, hopen, -, -, -, -, -, -, _, _, rfl⟩ := submitTaskResult_spec h
    exact .of_insert rfl hopen rfl
  | acceptTaskResult signer payees =>
    obtain ⟨_, _, -, -, -, -, hp⟩ := acceptTaskResult_spec h
    exact hpaid hp
  | autoAcceptTaskResult payees =>
    obtain ⟨_, _, -, -, -, hp⟩ := autoAcceptTaskResult_spec h
    exact hpaid hp
  | rejectTaskResult signer rejectionHash =>
    obtain ⟨_, _, -, -, -, -, hr⟩ := rejectTaskResult_spec h
    exact hrejected hr
  | requestChanges signer changesHash =>
    obtain ⟨_, _, claim, _, _, -, -, -, hopen, -, -, rfl⟩ := requestChanges_spec h
    exact .of_insert rfl hopen rfl
  | validateTaskResult reviewer validator approved =>
    obtain ⟨_, _, -, -, hp | ⟨hr, -⟩ | ⟨_, _, -, rfl⟩⟩ := validateTaskResult_spec h
    · exact hpaid hp
    · exact hrejected hr
    · exact .of_same rfl rfl
  | rejectAndFreeze signer rejectionHash =>
    obtain ⟨_, _, _, -, -, -, -, -, rfl⟩ := rejectAndFreeze_spec h
    exact .of_same rfl rfl
  | resolveRejectFrozen signers approveCompletion payees =>
    obtain ⟨_, hp⟩ | ⟨_, _, _, -, -, -, -, -, -, -, rfl⟩ := resolveRejectFrozen_spec h
    · exact hfrozen hp
    · exact .of_erase rfl rfl
  | expireRejectFrozen payees => exact hfrozen (expireRejectFrozen_spec h)
  | completeTask signer proofHash resultData payees =>
    obtain ⟨_, _, _, _, _, _, _, _, _, _, -, -, -, -, -, -, -, -, -, hc⟩ := completeTask_spec h
    obtain ⟨_, _, _, _, _, _, _, _, rfl⟩ := hc
    exact .of_erase rfl rfl
  | expireClaim caller withSubmission =>
    obtain ⟨_, _, _, _, _, _, _, _, _, _, -, -, -, -, -, -, -, -, -, -, -, -, -, rfl⟩ :=
      expireClaim_spec h
    exact .of_erase rfl rfl
  | distributeGhostShare payees =>
    obtain ⟨_, _, _, _, _, _, -, -, -, -, -, -, -, -, -, -, -, -, -, _, _, _, _, _, _, rfl⟩ :=
      distributeGhostShare_spec h
    exact .of_erase rfl rfl
  | reclaimTerminalClaim =>
    obtain ⟨_, _, _, _, -, -, -, -, -, -, -, rfl⟩ := reclaimTerminalClaim_spec h
    exact .of_erase rfl rfl

theorem DisputeOp.run_generation {op : DisputeOp} {d d' : Dispute}
    (h : op.run w c d = .ok (c', d')) : KeepsGeneration c.accounts c'.accounts := by
  cases op with
  | cancelDispute signer =>
    obtain ⟨_, _, -, -, -, -, -, rfl, rfl⟩ := cancelDispute_spec h
    exact .of_same rfl rfl
  | resolveDispute signer signers withAssignment approved payees =>
    obtain ⟨_, _, _, _, _, _, _, _, _, _, _, _, _, _, _, -, -, -, -, -, -, -, -, -, -, -, h⟩ :=
      resolveDispute_spec h
    obtain ⟨_, _, _, _, _, _, _, -, -, rfl, rfl⟩ := h
    by_cases hlost : workerLostDispute approved d.resolutionType = true
    · exact .of_same rfl (if_pos hlost)
    · exact .of_erase rfl (if_neg hlost)
  | expireDispute =>
    obtain ⟨_, _, _, _, _, _, _, _, _, _, _, _, _, _, _, -, -, -, -, -, -, -, -, -, -, -, -, rfl,
      rfl⟩ := expireDispute_spec h
    exact .of_erase rfl rfl
  | settleDisputeClaim =>
    obtain ⟨_, _, _, _, _, _, _, -, -, -, -, -, -, -, -, -, -, -, rfl, -⟩ :=
      settleDisputeClaim_spec h
    exact .of_erase rfl rfl
  | applyDisputeSlash withTokenAccounts =>
    obtain ⟨_, _, _, _, _, _, _, _, _, _, _, _, -, -, -, -, -, -, -, -, -, -, -, rfl, -⟩ :=
      applyDisputeSlash_spec h
    exact .of_erase rfl rfl

end Handlers

section Tasks

variable {w : World} {key : Pubkey} {acc acc' : TaskAccounts} {i : Instruction}
  {ts : List Transfer}

theorem Credits.generation {amount : ℕ} {target : Custody} (h : Credits key amount acc target acc') :
    KeepsGeneration acc acc' := by
  cases h with
  | claim loaded => exact .of_insert rfl loaded rfl
  | escrow | tokenEscrow | submission | bond | bid => exact .of_same rfl rfl

theorem TaskOp.run_generation {op : TaskOp} {c c' : TaskContext} (h : op.run c = .ok c') :
    KeepsGeneration c.accounts c'.accounts := by
  cases op with
  | configureTaskValidation signer mode reviewWindowSecs validatorQuorum attestor =>
    obtain ⟨_, -, -, -, -, -, rfl⟩ := configureTaskValidation_spec h
    exact .of_same rfl rfl
  | setTaskJobSpec signer jobSpecHash =>
    obtain ⟨_, -, rfl⟩ := setTaskJobSpec_spec h
    exact .of_same rfl rfl
  | initializeBidBook signer policy weights =>
    obtain ⟨_, _, -, -, -, -, rfl⟩ := initializeBidBook_spec h
    exact .of_same rfl rfl
  | postCreatorBond signer prefunded =>
    have h : postCompletionBond c signer .Creator prefunded = .ok c' := h
    obtain ⟨_, -, -, -, -, -, -, -, -, rfl⟩ := postCompletionBond_spec h
    exact .of_same rfl rfl
  | reclaimCompletionBond party role =>
    obtain ⟨-, rfl⟩ := reclaimCompletionBond_spec h
    exact .of_same rfl rfl

/-- The instruction creates a claim on the task `key`. -/
def Instruction.opensClaim (key : Pubkey) : Instruction → Bool
  | .work key' _ op => decide (key' = key) && op.opensClaim
  | _ => false

/-- A step on a task creates one claim and raises the generation by one, or none and keeps it. -/
theorem TaskMove.generation (h : TaskMove w key acc i acc' ts) (ho : Occupancy w)
    (hacc : w.tasks.lookup key = some acc) :
    if i.opensClaim key = true then ∃ k op, i = .work key k op ∧ RaisesGeneration k acc acc'
    else KeepsGeneration acc acc' := by
  cases h with
  | donated credits => exact credits.generation
  | task ran => exact TaskOp.run_generation ran
  | @work k op agent c found ran rent =>
    obtain ⟨r, hs⟩ := ho.tasks key acc hacc
    have hmove := WorkOp.run_generation ran (hs.tracks.claims.stamped k)
    rw [Instruction.opensClaim, decide_eq_true rfl, Bool.true_and]
    split_ifs at hmove with hop
    · rw [if_pos hop]
      exact ⟨k, op, rfl, hmove⟩
    · rw [if_neg hop]
      exact hmove
  | cancelled listed ran =>
    obtain ⟨-, haccounts, -⟩ := listed_context listed
    obtain ⟨_, _, _, _, _, _, _, h⟩ := cancelTask_spec ran
    obtain ⟨_, _, claims', _, _, _, -, -, -, -, -, -, -, hclaims, -, -, -, -, -, -, -, -, -, rfl⟩ := h
    rw [← haccounts]
    refine ⟨rfl, fun k hk => ?_⟩
    rw [hclaims k, hk, ite_self]
  | closed ran =>
    obtain ⟨_, _, _, _, _, _, _, -, -, -, -, -, -, -, -, rfl⟩ := closeTask_spec ran
    exact KeepsGeneration.of_same rfl rfl
  | disputed opens => exact KeepsGeneration.of_same rfl rfl
  | ruled found filed about ran rent => exact DisputeOp.run_generation ran

end Tasks

/-! ## Runs -/

section Runs

variable {w w' : World} {key : Pubkey} {i : Instruction} {ts : List Transfer}

/-- The workers with an open claim on the task `key`. -/
def claimantsOf (w : World) (key : Pubkey) : Finset Pubkey :=
  (w.tasks.lookup key).elim ∅ TaskAccounts.claimants

/-- The generation that the reserved bytes of the task `key` hold. -/
def generationOf (w : World) (key : Pubkey) : ℕ :=
  (w.tasks.lookup key).elim 0 fun acc => acc.task.reserved.claimGeneration

/-- The claims on the task `key` that the step opens. -/
def claimsOpened (key : Pubkey) (e : LogEntry) : Finset Pubkey :=
  claimantsOf e.after key \ claimantsOf e.before key

/-- The generation fits its eight bytes. -/
def GenerationFits (w : World) : Prop :=
  ∀ key acc, w.tasks.lookup key = some acc → acc.task.claimGeneration < u64Limit

theorem KeepsGeneration.claimants {acc acc' : TaskAccounts} (h : KeepsGeneration acc acc') :
    acc'.claimants \ acc.claimants = ∅ := by
  rw [Finset.sdiff_eq_empty_iff_subset]
  intro k hk
  rw [TaskAccounts.mem_claimants] at hk ⊢
  by_contra hnone
  rw [h.vacant k (Option.not_isSome_iff_eq_none.mp hnone)] at hk
  cases hk

theorem RaisesGeneration.claimants {acc acc' : TaskAccounts} {k : Pubkey}
    (h : RaisesGeneration k acc acc') : acc'.claimants \ acc.claimants = {k} := by
  ext j
  rw [Finset.mem_sdiff, Finset.mem_singleton, TaskAccounts.mem_claimants, TaskAccounts.mem_claimants]
  constructor
  · rintro ⟨hopened, hfree⟩
    by_contra hj
    rw [h.others j hj] at hopened
    exact hfree hopened
  · rintro rfl
    rw [h.free]
    exact ⟨h.opened, by simp⟩

theorem Reachable.generationFits (hw : Reachable w) : GenerationFits w := by
  refine hw.induct (I := GenerationFits) ?_ ?_
  · intro w hgenesis key acc hacc
    rw [hgenesis.tasks] at hacc
    cases hacc
  · rintro w ⟨i, ts⟩ w' hw hs hfits key acc' hacc'
    cases hs.task key with
    | apart same unpaid => exact hfits key acc' (same ▸ hacc')
    | created new stored fresh unpaid =>
      obtain rfl := Option.some.inj (stored.symm.trans hacc')
      rw [fresh.task.generation]
      decide
    | moved loaded stored move =>
      obtain rfl := Option.some.inj (stored.symm.trans hacc')
      have hmove := move.generation (occupancy hw) loaded
      split_ifs at hmove
      · obtain ⟨k, _, -, hraises⟩ := hmove
        exact hraises.fits
      · rw [hmove.generation]
        exact hfits key _ loaded

theorem generationOf_of_lookup (hw : Reachable w) {acc : TaskAccounts}
    (hacc : w.tasks.lookup key = some acc) : generationOf w key = acc.task.claimGeneration := by
  rw [generationOf, hacc]
  exact Task.reserved_generation (hw.generationFits key acc hacc)

theorem generationOf_of_none (hacc : w.tasks.lookup key = none) : generationOf w key = 0 := by
  rw [generationOf, hacc]
  rfl

theorem claimantsOf_of_lookup {acc : TaskAccounts} (hacc : w.tasks.lookup key = some acc) :
    claimantsOf w key = acc.claimants := by
  rw [claimantsOf, hacc]
  rfl

theorem Instruction.of_opensClaim (h : i.opensClaim key = true) :
    ∃ k op, i = .work key k op := by
  cases i with
  | work key' k op =>
    rw [Instruction.opensClaim, Bool.and_eq_true, decide_eq_true_eq] at h
    exact ⟨k, op, by rw [h.1]⟩
  | _ => cases h

/-- A move on the task, as the two worlds show it. -/
theorem TaskMove.generationOf {acc acc' : TaskAccounts} (h : TaskMove w key acc i acc' ts)
    (hw : Reachable w) (hw' : Reachable w') (loaded : w.tasks.lookup key = some acc)
    (stored : w'.tasks.lookup key = some acc') :
    (claimsOpened key ⟨w, (i, ts), w'⟩).card = (if i.opensClaim key = true then 1 else 0) ∧
      generationOf w' key = generationOf w key + if i.opensClaim key = true then 1 else 0 := by
  have hmove := h.generation (occupancy hw) loaded
  rw [generationOf_of_lookup hw loaded, generationOf_of_lookup hw' stored, claimsOpened,
    claimantsOf_of_lookup loaded, claimantsOf_of_lookup stored]
  split_ifs at hmove ⊢ with hopens
  · obtain ⟨k, _, -, hraises⟩ := hmove
    rw [hraises.claimants, Finset.card_singleton]
    exact ⟨rfl, hraises.generation⟩
  · rw [hmove.claimants, Finset.card_empty]
    exact ⟨rfl, hmove.generation⟩

/-- A step that creates a claim opens one and raises the stored generation by one. Every other step
opens none and keeps it. -/
theorem Step.generation (h : Step w (i, ts) w') (hw : Reachable w) (key : Pubkey) :
    (claimsOpened key ⟨w, (i, ts), w'⟩).card = (if i.opensClaim key = true then 1 else 0) ∧
      generationOf w' key = generationOf w key + if i.opensClaim key = true then 1 else 0 := by
  have hw' := hw.step h
  by_cases hopens : i.opensClaim key = true
  · obtain ⟨k, op, rfl⟩ := Instruction.of_opensClaim hopens
    obtain ⟨acc, acc', loaded, stored, hmove⟩ := Step.worked h
    exact hmove.generationOf hw hw' loaded stored
  · cases Step.task h key with
    | apart same unpaid =>
      rw [if_neg hopens, claimsOpened, AgencCoordination.generationOf,
        AgencCoordination.generationOf, claimantsOf, claimantsOf]
      dsimp only
      rw [same, Finset.sdiff_self]
      exact ⟨rfl, rfl⟩
    | created new stored fresh unpaid =>
      rw [if_neg hopens, claimsOpened, claimantsOf_of_lookup stored, generationOf_of_none new,
        generationOf_of_lookup hw' stored, fresh.task.generation]
      refine ⟨?_, rfl⟩
      rw [Finset.card_eq_zero, Finset.sdiff_eq_empty_iff_subset]
      intro k hk
      rw [TaskAccounts.mem_claimants, fresh.claims] at hk
      cases hk
    | moved loaded stored move => exact move.generationOf hw hw' loaded stored

/-- Over every run the generation in the reserved bytes of a task grows by the number of claims
opened on it. A claim is opened by the two instructions that create one, one by each, and by no
other, so that no claim is opened between two observations of the same generation. Of the writers
of the reserved bytes only the increment changes the generation, by one. -/
theorem claim_generation_counts {log : List LogEntry} (hw : Reachable w)
    (hrun : Run Step w log w') (key : Pubkey) :
    generationOf w' key =
      generationOf w key + Run.sumOver (fun e => (claimsOpened key e).card) log ∧
    (∀ e ∈ log, (claimsOpened key e).card = if e.label.1.opensClaim key = true then 1 else 0) ∧
    (generationOf w' key = generationOf w key → ∀ e ∈ log, claimsOpened key e = ∅) ∧
    ∀ (write : ReservedWrite) (r r' : Reserved), write.run r = .ok r' →
      r'.claimGeneration = r.claimGeneration +
        if write = .incrementClaimGeneration then 1 else 0 := by
  have hsteps : ∀ e ∈ log, Reachable e.before ∧ Step e.before e.label e.after := fun e he =>
    hrun.invariant_mem (fun _ _ _ hs hr => hr.step hs) hw he
  have hgrows : generationOf w' key =
      generationOf w key + Run.sumOver (fun e => (claimsOpened key e).card) log := by
    refine hrun.grows (generationOf · key) fun e he => ?_
    obtain ⟨hreach, hstep⟩ := hsteps e he
    obtain ⟨hopened, hraised⟩ := Step.generation hstep hreach key
    exact hraised.trans (congrArg _ hopened.symm)
  refine ⟨hgrows, fun e he => ?_, fun hsame e he => ?_,
    fun write r r' => ReservedWrite.run_generation⟩
  · obtain ⟨hreach, hstep⟩ := hsteps e he
    exact (Step.generation hstep hreach key).1
  · have hnone : Run.sumOver (fun e => (claimsOpened key e).card) log = 0 := by omega
    exact Finset.card_eq_zero.mp (Run.eq_zero_of_sumOver hnone he)

/-- Two workers enter a contest, and its generation is 2. -/
theorem claim_generation_counts_two : ∃ log,
    Run Step deployed log (deployed.after silentScript) ∧
      generationOf (deployed.after silentScript) 50 = 2 ∧
      Run.sumOver (fun e => (claimsOpened 50 e).card) log = 2 := by
  obtain ⟨log, hrun⟩ := World.run_after deployed silentScript
  have hreachable : Reachable deployed := deployed_genesis.reachable_after []
  have hgrows := (claim_generation_counts hreachable hrun 50).1
  have hafter : generationOf (deployed.after silentScript) 50 = 2 := by decide +kernel
  have hbefore : generationOf deployed 50 = 0 := by decide +kernel
  exact ⟨log, hrun, hafter, by omega⟩

end Runs

end AgencCoordination
