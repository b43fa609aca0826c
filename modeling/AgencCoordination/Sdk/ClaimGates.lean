import AgencCoordination.Sdk.Claimable
import AgencCoordination.Effects.Steps
import Mathlib.Data.List.DropRight
import Mathlib.Data.List.TakeWhile

/-!
# The SDK's predicate and the program's gates

`process_claim` has five gates that look at the task and the clock only. The SDK computes the
same decision from the decoded account.

* **`isTaskStateDirectlyClaimable_iff`** — the SDK's predicate is the five gates, for every task
  whose record fits its account.
* **`Reachable.storable`** — every reachable task does.
* **`processClaim_of_claimable`** — a claim the predicate allows is refused by none of the five,
  and by the expiry or generation arithmetic only at the end of the 64-bit range.
* **`isNonBlankJobSpecUri_iff`** — the SDK's pattern and Rust's trim agree on every string.
-/

namespace AgencCoordination.Sdk

open Foundations

/-! ## Decoding -/

/-- The fields of a task that its account stores in fewer bytes than a number can need. -/
structure Storable (task : Task) : Prop where
  constraintHash : task.constraintHash < 256 ^ hashSize
  taskSchema : task.taskSchema < 256

section Fields

variable (task : Task)

@[simp] theorem decodeTask_status : (decodeTask task).status = task.status := rfl
@[simp] theorem decodeTask_taskType : (decodeTask task).taskType = task.taskType := rfl
@[simp] theorem decodeTask_deadline : (decodeTask task).deadline = task.deadline := rfl
@[simp] theorem decodeTask_maxWorkers : (decodeTask task).maxWorkers = task.maxWorkers := rfl
@[simp] theorem decodeTask_currentWorkers :
    (decodeTask task).currentWorkers = task.currentWorkers := rfl

end Fields

theorem manualValidationText_bytes :
    (toBytes manualValidationSentinel).data.map UInt8.toNat =
      manualValidationText.toList.map Char.toNat := by
  decide +kernel

/-- The SDK finds the sentinel where the program does. -/
theorem isManualValidationTask_decode {task : Task} (h : Storable task) :
    isManualValidationTask (decodeTask task) = AgencCoordination.isManualValidationTask task := by
  unfold isManualValidationTask AgencCoordination.isManualValidationTask
  rw [← manualValidationText_bytes, decide_eq_decide]
  have hinj : Function.Injective UInt8.toNat := fun a b hab => UInt8.toNat_inj.mp hab
  constructor
  · intro hbytes
    refine Bytes.bigEndian_inj h.constraintHash (by decide +kernel) ?_
    exact (List.map_inj_right fun a b hab => hinj hab).mp hbytes
  · intro hsame
    show (toBytes task.constraintHash).data.map _ = _
    rw [hsame]

/-- The SDK reads the schema byte as the program does. -/
theorem isContest_decode {task : Task} (h : Storable task) :
    isContest (decodeTask task) = task.isContestTask := by
  have hbyte : (UInt8.ofNat task.taskSchema).toNat = task.taskSchema := by
    rw [UInt8.toNat_ofNat']
    exact Nat.mod_eq_of_lt h.taskSchema
  have hschema : (1 : UInt8) ≤ UInt8.ofNat task.taskSchema ↔
      taskSchemaContestAware ≤ task.taskSchema := by
    rw [UInt8.le_iff_toNat_le, hbyte]
    rfl
  unfold isContest Task.isContestTask
  rw [← Bool.decide_and, decide_eq_decide]
  exact and_congr_left fun _ => hschema

theorem claimableDuringPendingValidation_decode {task : Task} (h : Storable task) :
    claimableDuringPendingValidation (decodeTask task) =
      AgencCoordination.claimableDuringPendingValidation task := by
  unfold claimableDuringPendingValidation AgencCoordination.claimableDuringPendingValidation
  rw [isContest_decode h, isManualValidationTask_decode h]
  rfl

/-! ## The gates -/

/-- The gates of `process_claim` that look at the task and the clock only, in order. -/
def taskStateGates (task : Task) (now : ℤ) : Result Unit := do
  require (task.status = .Open ∨ task.status = .InProgress ∨
    AgencCoordination.claimableDuringPendingValidation task = true) .TaskNotOpen
  require (task.taskType ≠ .BidExclusive) .BidTaskRequiresAcceptance
  require (task.status.canTransitionTo .InProgress = true) .InvalidStatusTransition
  require (0 < task.deadline → now < task.deadline) .TaskExpired
  require (task.currentWorkers < min task.maxWorkers disputeSafeMaxWorkers) .TaskFullyClaimed

/-- Their errors. -/
def taskStateErrors : List CoordinationError :=
  [.TaskNotOpen, .BidTaskRequiresAcceptance, .InvalidStatusTransition, .TaskExpired,
    .TaskFullyClaimed]

/-- The errors of the gates before them. -/
def claimEntryErrors : List CoordinationError :=
  [.ProtocolPaused, .AccountVersionTooOld, .AccountVersionTooNew, .VersionMismatchProtocol,
    .TaskTypeDisabled, .SelfTaskNotAllowed, .AlreadyClaimed]

/-- Every status a claim is open in moves on to `InProgress`. -/
theorem canTransitionTo_of_open {task : Task}
    (h : task.status = .Open ∨ task.status = .InProgress ∨
      AgencCoordination.claimableDuringPendingValidation task = true) :
    task.status.canTransitionTo .InProgress = true := by
  rcases h with h | h | h
  · rw [h]
    rfl
  · rw [h]
    rfl
  · unfold AgencCoordination.claimableDuringPendingValidation at h
    rw [Bool.and_eq_true, Bool.and_eq_true] at h
    rw [of_decide_eq_true h.1.1]
    rfl

/-- The SDK's predicate is the gates of the program. -/
theorem isTaskStateDirectlyClaimable_iff {task : Task} (h : Storable task) (now : ℤ) :
    isTaskStateDirectlyClaimable (decodeTask task) now = true ↔
      taskStateGates task now = .ok () := by
  have hreview := claimableDuringPendingValidation_decode h
  unfold isTaskStateDirectlyClaimable taskStateGates
  simp only [require_bind_eq_ok, require_eq_ok, hreview, decodeTask_status, decodeTask_taskType,
    decodeTask_deadline, decodeTask_maxWorkers, decodeTask_currentWorkers]
  have hdeadline : (0 < task.deadline → now < task.deadline) ↔
      ¬(0 < task.deadline ∧ task.deadline ≤ now) := by omega
  by_cases htype : task.taskType = .BidExclusive
  · simp [htype]
  by_cases hopen : task.status = .Open ∨ task.status = .InProgress ∨
      AgencCoordination.claimableDuringPendingValidation task = true
  · have hmoves := canTransitionTo_of_open hopen
    by_cases hexpired : 0 < task.deadline ∧ task.deadline ≤ now
    · simp [htype, hopen, hexpired]
    · rw [hdeadline]
      simp [htype, hopen, hexpired, hmoves]
  · simp [htype, hopen]

/-! ## `process_claim` behind its gates -/

theorem addI64_eq_error {a b : ℤ} {e : CoordinationError} :
    addI64 a b = .error e ↔ ¬(i64Min ≤ a + b ∧ a + b ≤ i64Max) ∧ e = .ArithmeticOverflow := by
  unfold addI64
  split
  · rename_i h
    simp [h]
  · rename_i h
    simp [h, eq_comm]

theorem checkVersionCompatible_error {config : ProtocolConfig} {e : CoordinationError}
    (h : checkVersionCompatible config = .error e) : e ∈ claimEntryErrors := by
  simp only [checkVersionCompatible, checkVersionRange, require_bind_eq_error,
    require_eq_error] at h
  rcases h with ⟨-, rfl⟩ | ⟨-, ⟨-, rfl⟩ | ⟨-, ⟨-, rfl⟩ | ⟨-, -, rfl⟩⟩⟩ <;>
    simp [claimEntryErrors]

/-- When a claim made now expires, in unbounded integers. -/
def claimExpiryTime (task : Task) (config : ProtocolConfig) (now : ℤ) : ℤ :=
  if 0 < task.deadline then task.deadline + completionBuffer else now + config.maxClaimDuration

/-- An error that neither a gate nor the arithmetic raises. -/
def IsOther (e : CoordinationError) : Prop := e ∉ taskStateErrors ∧ e ≠ .ArithmeticOverflow

instance (e : CoordinationError) : Decidable (IsOther e) := inferInstanceAs (Decidable (_ ∧ _))

theorem isOther_of_entry {e : CoordinationError} (h : e ∈ claimEntryErrors) : IsOther e := by
  have hall : ∀ e ∈ claimEntryErrors, IsOther e := by decide
  exact hall e h

theorem requireTaskTypeEnabled_error {config : ProtocolConfig} {taskType : TaskType}
    {e : CoordinationError} (h : requireTaskTypeEnabled config taskType = .error e) :
    e ∈ claimEntryErrors := by
  obtain ⟨-, rfl⟩ := require_eq_error.mp h
  decide

theorem claimExpiry_error {task : Task} {config : ProtocolConfig} {now : ℤ}
    {e : CoordinationError} (h : claimExpiry task config now = .error e) :
    ¬(i64Min ≤ claimExpiryTime task config now ∧ claimExpiryTime task config now ≤ i64Max) ∧
      e = .ArithmeticOverflow := by
  unfold claimExpiry at h
  unfold claimExpiryTime
  split at h
  · rename_i hpos
    rw [if_pos hpos]
    exact addI64_eq_error.mp h
  · rename_i hpos
    rw [if_neg hpos]
    exact addI64_eq_error.mp h

theorem incrementClaimGeneration_error {task : Task} {e : CoordinationError}
    (h : task.incrementClaimGeneration = .error e) :
    u64Limit ≤ task.claimGeneration + 1 ∧ e = .ArithmeticOverflow := by
  simp only [Task.incrementClaimGeneration, bind_eq_error] at h
  rcases h with h | ⟨_, -, h⟩
  · obtain ⟨hlimit, rfl⟩ := checkedAdd_eq_error.mp h
    exact ⟨hlimit, rfl⟩
  · cases h

/-- How a claim that passes the five gates can be refused: for another reason, or because its
expiry or the next generation does not fit its integer. -/
theorem processClaim_refused {c : TaskContext} {prefunded : ℕ} {e : CoordinationError}
    (hgates : taskStateGates c.task c.sys.now = .ok ())
    (h : processClaim c prefunded = .error e) :
    IsOther e ∨ e = .ArithmeticOverflow ∧
      (¬(i64Min ≤ claimExpiryTime c.task c.config c.sys.now ∧
        claimExpiryTime c.task c.config c.sys.now ≤ i64Max) ∨
      u64Limit ≤ c.task.claimGeneration + 1) := by
  simp only [taskStateGates, require_bind_eq_ok, require_eq_ok] at hgates
  obtain ⟨hopen, htype, hmoves, hdeadline, hslot⟩ := hgates
  unfold processClaim at h
  simp only [bind_eq_error, require_eq_error, require_eq_ok] at h
  rcases h with h | ⟨_, -, h⟩
  · exact .inl (isOther_of_entry (checkVersionCompatible_error h))
  rcases h with h | ⟨_, -, h⟩
  · exact .inl (isOther_of_entry (requireTaskTypeEnabled_error h))
  rcases h with ⟨-, rfl⟩ | ⟨_, -, h⟩
  · exact .inl (by decide)
  rcases h with ⟨-, rfl⟩ | ⟨_, -, h⟩
  · exact .inl (by decide)
  -- the five gates pass
  rcases h with ⟨hnot, -⟩ | ⟨_, -, h⟩
  · exact absurd hopen hnot
  rcases h with ⟨hnot, -⟩ | ⟨_, -, h⟩
  · exact absurd htype hnot
  rcases h with ⟨hnot, -⟩ | ⟨_, -, h⟩
  · exact absurd hmoves hnot
  rcases h with ⟨hnot, -⟩ | ⟨_, -, h⟩
  · exact absurd hdeadline hnot
  rcases h with ⟨hnot, -⟩ | ⟨_, -, h⟩
  · exact absurd hslot hnot
  -- the worker's own conditions
  rcases h with ⟨-, rfl⟩ | ⟨_, -, h⟩
  · exact .inl (by decide)
  rcases h with ⟨-, rfl⟩ | ⟨_, -, h⟩
  · exact .inl (by decide)
  rcases h with ⟨-, rfl⟩ | ⟨_, -, h⟩
  · exact .inl (by decide)
  rcases h with ⟨-, rfl⟩ | ⟨_, -, h⟩
  · exact .inl (by decide)
  rcases h with ⟨-, rfl⟩ | ⟨_, hactive, h⟩
  · exact .inl (by decide)
  -- the arithmetic
  rcases h with h | ⟨_, -, h⟩
  · obtain ⟨hrange, he⟩ := claimExpiry_error h
    exact .inr ⟨he, .inl hrange⟩
  rcases h with h | ⟨task, htask, h⟩
  · obtain ⟨hlimit, he⟩ := incrementClaimGeneration_error h
    exact .inr ⟨he, .inr hlimit⟩
  obtain ⟨generation, rfl⟩ := incrementClaimGeneration_spec htask
  rcases h with h | ⟨_, -, h⟩
  · obtain ⟨hfull, -⟩ := checkedAdd_eq_error.mp h
    have hfull : 256 ≤ c.task.currentWorkers + 1 := hfull
    have hworkers : c.task.currentWorkers < 4 := lt_of_lt_of_le hslot (min_le_right _ _)
    omega
  rcases h with h | ⟨_, -, h⟩
  · obtain ⟨hfull, -⟩ := checkedAdd_eq_error.mp h
    have hfull : 65536 ≤ c.worker.data.activeTasks + 1 := hfull
    have hactive : c.worker.data.activeTasks < 10 := hactive
    omega
  · cases h

/-- The gates before the five: versions and launch controls, another's task, no earlier claim. -/
def claimEntryGates (c : TaskContext) (prefunded : ℕ) : Result Unit := do
  checkVersionCompatible c.config
  requireTaskTypeEnabled c.config c.task.taskType
  require (c.worker.data.authority ≠ c.task.creator) .SelfTaskNotAllowed
  let claim := (c.accounts.claims.lookup c.workerKey).getD
    ⟨initBalance c.sys.rent taskClaimSize prefunded, {}⟩
  require (claim.data.claimedAt ≤ 0) .AlreadyClaimed

/-- The five gates stand together in `process_claim`. -/
theorem processClaim_eq (c : TaskContext) (prefunded : ℕ) :
    ∃ rest : Result TaskContext, processClaim c prefunded =
      (claimEntryGates c prefunded >>= fun _ =>
        taskStateGates c.task c.sys.now >>= fun _ => rest) := by
  refine ⟨?_, ?_⟩
  rotate_left
  · unfold processClaim claimEntryGates taskStateGates
    simp only [bind_assoc]
    rfl

/-! ## Whitespace -/

/-- `str::trim`: the characters between leading and trailing white space. -/
def rustTrim (uri : String) : List Char :=
  (uri.toList.dropWhile isWhiteSpace).rdropWhile isWhiteSpace

/-- The pattern's class is the property `White_Space`. -/
theorem inWhitespaceClass_eq (c : Char) : inWhitespaceClass c = isWhiteSpace c := by
  unfold inWhitespaceClass rustWhitespaceRanges isWhiteSpace
  rw [Bool.eq_iff_iff]
  simp only [List.any_cons, List.any_nil, Bool.or_false, Bool.or_eq_true, Bool.and_eq_true,
    decide_eq_true_eq, List.contains_cons, List.contains_nil, beq_iff_eq]
  omega

/-- Trimming leaves nothing exactly of what is all white space. -/
theorem rustTrim_eq_nil (uri : String) :
    rustTrim uri = [] ↔ ∀ c ∈ uri.toList, isWhiteSpace c = true := by
  unfold rustTrim
  rw [List.rdropWhile_eq_nil_iff]
  constructor
  · intro hall
    rw [← List.dropWhile_eq_nil_iff]
    by_contra hne
    -- the first character that is kept is not white space
    have hhead := List.head_dropWhile_not isWhiteSpace hne
    rw [hall _ (List.head_mem hne)] at hhead
    cases hhead
  · intro hall c hc
    rw [List.dropWhile_eq_nil_iff.mpr hall] at hc
    cases hc

/-- The SDK's pattern and Rust's trim agree. -/
theorem isNonBlankJobSpecUri_iff (uri : String) :
    isNonBlankJobSpecUri uri = true ↔ rustTrim uri ≠ [] := by
  unfold isNonBlankJobSpecUri rustWhitespaceOnly
  rw [Ne, rustTrim_eq_nil, Bool.not_eq_true', ← Bool.not_eq_true, List.all_eq_true]
  simp only [inWhitespaceClass_eq]

/-! ## Reachable tasks -/

/-- Every reachable task fits its account. -/
theorem storable {w : World} (h : Reachable w) {key : Pubkey} {acc : TaskAccounts}
    (hacc : w.tasks.lookup key = some acc) : Storable acc.task := by
  suffices hall : ∀ key acc, w.tasks.lookup key = some acc → Storable acc.task from hall key acc hacc
  refine h.induct (I := fun w => ∀ key acc, w.tasks.lookup key = some acc → Storable acc.task)
    ?_ ?_
  · intro w hw key acc hacc
    rw [hw.tasks] at hacc
    cases hacc
  · intro w label w' _ hs hw key acc' hacc'
    obtain ⟨i, ts⟩ := label
    cases hs.task key with
    | apart same unpaid =>
      rw [same] at hacc'
      exact hw key acc' hacc'
    | created new stored fresh unpaid =>
      obtain rfl := Option.some.inj (stored.symm.trans hacc')
      have hschema := fresh.task.schema
      refine ⟨?_, by rw [hschema]; decide⟩
      rcases fresh.review with ⟨hconstraint, -⟩ | ⟨hconstraint, -⟩ <;> rw [hconstraint] <;>
        decide +kernel
    | moved loaded stored move =>
      obtain rfl := Option.some.inj (stored.symm.trans hacc')
      have hbefore := hw key _ loaded
      refine ⟨?_, by rw [move.terms.taskSchema]; exact hbefore.taskSchema⟩
      rcases move.terms.constraint with hconstraint | hconstraint
      · rw [hconstraint]
        exact hbefore.constraintHash
      · rw [hconstraint]
        decide +kernel

/-- The clock of a reachable world runs, and claims without a deadline take a week. -/
theorem claim_clock {w : World} (h : Reachable w) :
    0 < w.sys.now ∧ w.config.maxClaimDuration = 604800 := by
  refine h.induct (I := fun w => 0 < w.sys.now ∧ w.config.maxClaimDuration = 604800) ?_ ?_
  · intro w hw
    exact ⟨hw.clock, hw.maxClaimDuration⟩
  · rintro w ⟨i, ts⟩ w' _ hs hw
    obtain ⟨hlater, -, hsettings⟩ := hs.environment
    exact ⟨lt_of_lt_of_le hw.1 hlater, hsettings.maxClaimDuration.trans hw.2⟩

/-- On every reachable task and at every time, the SDK's predicate decides the five gates of
`process_claim` that depend on the task and the clock only. A claim it allows is refused by none
of them, and by the arithmetic of its expiry or of its generation only when that leaves the
64-bit range. And the SDK takes a URI for pinned exactly when Rust's trim leaves something of
it. -/
theorem claimability_agrees :
    (∀ w, Reachable w → ∀ key acc, w.tasks.lookup key = some acc → ∀ now,
      isTaskStateDirectlyClaimable (decodeTask acc.task) now = true ↔
        taskStateGates acc.task now = .ok ()) ∧
    (∀ c prefunded, ∃ rest : Result TaskContext, processClaim c prefunded =
      (claimEntryGates c prefunded >>= fun _ =>
        taskStateGates c.task c.sys.now >>= fun _ => rest)) ∧
    (∀ w, Reachable w → ∀ key acc, w.tasks.lookup key = some acc → ∀ k agent prefunded e,
      isTaskStateDirectlyClaimable (decodeTask acc.task) w.sys.now = true →
      processClaim (w.workContext key acc k agent) prefunded = .error e →
      e ∉ taskStateErrors ∧ (e = .ArithmeticOverflow →
        i64Max < claimExpiryTime acc.task w.config w.sys.now ∨
        u64Limit ≤ acc.task.claimGeneration + 1)) ∧
    (∀ uri, isNonBlankJobSpecUri uri = true ↔ rustTrim uri ≠ []) := by
  refine ⟨?_, processClaim_eq, ?_, isNonBlankJobSpecUri_iff⟩
  · intro w hw key acc hacc now
    exact isTaskStateDirectlyClaimable_iff (storable hw hacc) now
  · intro w hw key acc hacc k agent prefunded e hclaimable hrefused
    have hgates := (isTaskStateDirectlyClaimable_iff (storable hw hacc) _).mp hclaimable
    obtain ⟨hclock, hduration⟩ := claim_clock hw
    have hexpiry : i64Min ≤ claimExpiryTime acc.task w.config w.sys.now := by
      have hmin : i64Min < 0 := by decide
      have hbuffer : (0 : ℤ) < completionBuffer := by decide
      unfold claimExpiryTime
      split <;> omega
    rcases processClaim_refused (c := w.workContext key acc k agent) hgates hrefused with
      hother | ⟨rfl, hlimit⟩
    · exact ⟨hother.1, fun he => absurd he hother.2⟩
    · refine ⟨by decide, fun _ => hlimit.imp_left fun hrange => ?_⟩
      by_contra hle
      exact hrange ⟨hexpiry, not_lt.mp hle⟩

/-- An open task with a published specification. -/
def openScript : List Instruction :=
  [.agent 10 (.registerAgent 100 1 2000000 0),
    .create 50 100 false {} (.createTask 10 ⟨1, 1, (1, 0), 1500, 1, 5000, .Exclusive, 0, none⟩
      none none 0),
    .task 50 (.setTaskJobSpec 100 7)]

/-- The SDK shows that task until its deadline, and so long its gates are open. -/
theorem claimability_agrees_open : ∃ acc,
    (deployed.after openScript).tasks.lookup 50 = some acc ∧
      taskStateGates acc.task 4999 = .ok () ∧ taskStateGates acc.task 5000 ≠ .ok () := by
  have htask : ((deployed.after openScript).tasks.lookup 50).map (fun acc =>
      (isTaskStateDirectlyClaimable (decodeTask acc.task) 4999,
        isTaskStateDirectlyClaimable (decodeTask acc.task) 5000)) = some (true, false) := by
    decide +kernel
  obtain ⟨acc, hacc, hshown⟩ := Option.map_eq_some_iff.mp htask
  obtain ⟨hbefore, hafter⟩ := Prod.mk.inj hshown
  have hagrees := claimability_agrees.1 _ (deployed_genesis.reachable_after _) 50 acc hacc
  refine ⟨acc, hacc, (hagrees 4999).mp hbefore, fun hgates => ?_⟩
  rw [(hagrees 5000).mpr hgates] at hafter
  cases hafter

/-- A task opened in the last quarter of an hour of the 64-bit clock. -/
def lateScript : List Instruction :=
  [.tick (i64Max - 1000),
    .agent 10 (.registerAgent 100 1 2000000 0),
    .agent 11 (.registerAgent 101 1 1000000 0),
    .create 50 100 false {} (.createTask 10
      ⟨1, 1, (1, 0), 1500, 1, i64Max - 500, .Exclusive, 0, none⟩ none none 0),
    .task 50 (.setTaskJobSpec 100 7)]

/-- The predicate allows a claim whose expiry lies an hour behind the end of the clock. -/
theorem claim_expiry_overflows :
    ¬∀ w, Reachable w → ∀ key acc, w.tasks.lookup key = some acc → ∀ k agent prefunded,
      w.agents.lookup k = some agent →
      isTaskStateDirectlyClaimable (decodeTask acc.task) w.sys.now = true →
      processClaim (w.workContext key acc k agent) prefunded ≠ .error .ArithmeticOverflow := by
  intro hclaim
  have hreachable : Reachable (deployed.after lateScript) := deployed_genesis.reachable_after _
  have htask : ((deployed.after lateScript).tasks.lookup 50).isSome = true := by decide +kernel
  have hagent : ((deployed.after lateScript).agents.lookup 11).isSome = true := by decide +kernel
  obtain ⟨acc, hacc⟩ := Option.isSome_iff_exists.mp htask
  obtain ⟨agent, hk⟩ := Option.isSome_iff_exists.mp hagent
  have hclaimable : ((deployed.after lateScript).tasks.lookup 50).all (fun acc =>
      isTaskStateDirectlyClaimable (decodeTask acc.task) (deployed.after lateScript).sys.now) =
        true := by
    decide +kernel
  have hrefused : ((deployed.after lateScript).tasks.lookup 50).all (fun acc =>
      ((deployed.after lateScript).agents.lookup 11).all (fun agent =>
        match processClaim ((deployed.after lateScript).workContext 50 acc 11 agent) 0 with
        | .error e => decide (e = .ArithmeticOverflow)
        | .ok _ => false)) = true := by
    decide +kernel
  rw [hacc] at hclaimable hrefused
  rw [hk] at hrefused
  have hne := hclaim _ hreachable 50 acc hacc 11 agent 0 hk hclaimable
  have hrefused : (match processClaim ((deployed.after lateScript).workContext 50 acc 11 agent) 0
      with
      | .error e => decide (e = .ArithmeticOverflow)
      | .ok _ => false) = true := hrefused
  split at hrefused
  · rename_i e he
    rw [of_decide_eq_true hrefused] at he
    exact hne he
  · cases hrefused

end AgencCoordination.Sdk
