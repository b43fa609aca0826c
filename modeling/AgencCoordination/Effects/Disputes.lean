import AgencCoordination.Effects.Expiry
import AgencCoordination.Program.Disputes

/-!
# What disputes do

One lemma for each handler of `Program.Disputes`.

* **`initiateDispute_spec`** — a task is frozen under a dispute, its initiator's outcome counter
  rises.
* **`resolveDispute_spec`, `expireDispute_spec`** — the escrow is emptied, the defendant's claim
  settled or kept for the slash, the peers counted.
* **`settleDisputeClaim_spec`, `applyDisputeSlash_spec`** — the claims a ruling left open.
* **`applyInitiatorSlash_spec`** — the initiator's outcome counter falls.
-/

namespace AgencCoordination

open Foundations

/-! ## Opening -/

/-- The record `initiate_dispute` stores. -/
structure OpenedDispute (w : World) (taskKey signer : Pubkey) (f : DisputeFiling)
    (byCreator : Bool) (d : Dispute) : Prop where
  task : d.task = taskKey
  initiator : d.initiator = f.agentKey
  authority : d.initiatorAuthority = signer
  status : d.status = .Active
  created : d.createdAt = w.sys.now
  tracked : d.initiatorTracked = true
  unapplied : d.initiatorSlashApplied = false
  unslashed : d.slashApplied = false
  unresolved : d.resolvedAt = 0
  byCreator : d.initiatedByCreator = byCreator
  resolution : d.resolutionType = f.resolutionType

/-- The agents after a dispute was opened: the initiator has one more outcome outstanding, the
defendant one more dispute against it, and nobody's wallet, stake or number of tasks changes. -/
structure CountsInitiation (agents agents' : Ledger Pubkey (Account AgentRegistration))
    (initiator defendant : Pubkey) : Prop where
  accused : (agents.lookup defendant).isSome = true
  present : ∀ k, (agents'.lookup k).isSome = (agents.lookup k).isSome
  same : ∀ k a a', agents.lookup k = some a → agents'.lookup k = some a' →
    a'.lamports = a.lamports ∧ a'.data.stake = a.data.stake ∧
      a'.data.activeTasks = a.data.activeTasks ∧ a'.data.authority = a.data.authority ∧
      a'.data.activeDisputeVotes = a.data.activeDisputeVotes + (if k = initiator then 1 else 0) ∧
      a'.data.disputesAsDefendant = a.data.disputesAsDefendant + if k = defendant then 1 else 0

theorem newDispute_spec {w : World} {taskKey signer : Pubkey} {f : DisputeFiling}
    {byCreator : Bool} {defendant : Pubkey} {workerStake : ℕ} {d : Dispute}
    (h : newDispute w taskKey signer f byCreator defendant workerStake = .ok d) :
    OpenedDispute w taskKey signer f byCreator d ∧ d.defendant = defendant := by
  simp only [newDispute, bind_eq_ok, Except.ok.injEq] at h
  obtain ⟨_, -, _, -, rfl⟩ := h
  exact ⟨⟨rfl, rfl, rfl, rfl, rfl, rfl, rfl, rfl, rfl, rfl, rfl⟩, rfl⟩

theorem raiseDisputeCounters_spec {w : World} {f : DisputeFiling} {accounts : TaskAccounts}
    {agent : Account AgentRegistration} {byCreator : Bool}
    {r : Ledger Pubkey (Account AgentRegistration) × Pubkey × ℕ}
    (h : raiseDisputeCounters w f accounts agent byCreator = .ok r)
    (hagent : w.agents.lookup f.agentKey = some agent) :
    CountsInitiation w.agents r.1 f.agentKey r.2.1 ∧
    (byCreator = true → f.workerAgent = some r.2.1 ∧
      (accounts.claims.lookup r.2.1).isSome = true) ∧
    (byCreator = false → r.2.1 = f.agentKey) := by
  simp only [raiseDisputeCounters, AgentRegistration.noteDisputeInitiated,
    incrementDefendantCounter, bind_eq_ok, addU8_eq_ok, Except.ok.injEq] at h
  obtain ⟨_, ⟨_, ⟨-, rfl⟩, rfl⟩, h⟩ := h
  cases byCreator with
  | true =>
    simp only [if_true, bind_eq_ok, demand_eq_ok, require_eq_ok, Except.ok.injEq] at h
    obtain ⟨workerKey, hworkerKey, _, hne, worker, hworker, claim, hclaim, h⟩ := h
    obtain ⟨_, ⟨_, hcount, rfl⟩, rfl⟩ := h
    obtain ⟨-, rfl⟩ := addU8_eq_ok.mp hcount
    refine ⟨⟨by simp [hworker], fun k => ?_, fun k a a' ha ha' => ?_⟩,
      fun _ => ⟨hworkerKey, by simp [hclaim]⟩, by simp⟩
    · simp only [Ledger.lookup_insert_eq_ite]
      by_cases hk : k = workerKey
      · rw [if_pos hk, hk, hworker]
        rfl
      · rw [if_neg hk]
        by_cases hi : k = f.agentKey
        · rw [if_pos hi, hi, hagent]
          rfl
        · rw [if_neg hi]
    · simp only [Ledger.lookup_insert_eq_ite] at ha'
      by_cases hk : k = workerKey
      · rw [if_pos hk] at ha'
        obtain rfl := Option.some.inj ha'
        rw [hk, hworker] at ha
        obtain rfl := Option.some.inj ha
        simp [hk, hne]
      · rw [if_neg hk] at ha'
        by_cases hi : k = f.agentKey
        · rw [if_pos hi] at ha'
          obtain rfl := Option.some.inj ha'
          rw [hi, hagent] at ha
          obtain rfl := Option.some.inj ha
          simp [hi, Ne.symm hne]
        · rw [if_neg hi, ha] at ha'
          obtain rfl := Option.some.inj ha'
          simp [hi, hk]
  | false =>
    simp only [Bool.false_eq_true, if_false, bind_eq_ok, Except.ok.injEq] at h
    obtain ⟨_, ⟨_, hcount, rfl⟩, rfl⟩ := h
    obtain ⟨-, rfl⟩ := addU8_eq_ok.mp hcount
    refine ⟨⟨by simp [hagent], fun k => ?_, fun k a a' ha ha' => ?_⟩, by simp, fun _ => rfl⟩
    · simp only [Ledger.lookup_insert_eq_ite]
      by_cases hi : k = f.agentKey
      · rw [if_pos hi, hi, hagent]
        rfl
      · rw [if_neg hi]
    · simp only [Ledger.lookup_insert_eq_ite] at ha'
      by_cases hi : k = f.agentKey
      · rw [if_pos hi] at ha'
        obtain rfl := Option.some.inj ha'
        rw [hi, hagent] at ha
        obtain rfl := Option.some.inj ha
        simp [hi]
      · rw [if_neg hi, ha] at ha'
        obtain rfl := Option.some.inj ha'
        simp [hi]

theorem validateWorkerInitiator_spec {accounts : TaskAccounts} {agentKey : Pubkey} {now : ℤ}
    {u : Unit} (h : validateWorkerInitiator accounts agentKey now = .ok u) :
    (accounts.claims.lookup agentKey).isSome = true ∧
      ∃ s, accounts.submissions.lookup agentKey = some s ∧ s.data.status = .Submitted := by
  simp only [validateWorkerInitiator, bind_eq_ok, demand_eq_ok, require_eq_ok] at h
  obtain ⟨claim, hclaim, _, -, _, -, submission, hstored, hsubmitted⟩ := h
  exact ⟨by simp [hclaim], submission, hstored, hsubmitted⟩

/-- Opening a dispute freezes a task that is being worked on or reviewed; a worker who opens one
has a submission under review. -/
def OpensDispute (w : World) (taskKey signer : Pubkey) (f : DisputeFiling) (w' : World) : Prop :=
  ∃ accounts agents' rateLimits' d,
    w.disputes.lookup f.disputeKey = none ∧
    w.tasks.lookup taskKey = some accounts ∧
    (w.agents.lookup f.agentKey).isSome = true ∧
    isContestConfiguredTask accounts.task = false ∧
    (accounts.task.status = .InProgress ∨ accounts.task.status = .PendingValidation) ∧
    0 < accounts.task.currentWorkers ∧
    OpenedDispute w taskKey signer f (decide (accounts.task.creator = signer)) d ∧
    (accounts.task.creator = signer → f.workerAgent = some d.defendant) ∧
    (accounts.claims.lookup d.defendant).isSome = true ∧
    (accounts.task.creator ≠ signer → ∃ s,
      accounts.submissions.lookup d.defendant = some s ∧ s.data.status = .Submitted) ∧
    CountsInitiation w.agents agents' f.agentKey d.defendant ∧
    w' = { w with
      agents := agents'
      rateLimits := rateLimits'
      disputes := w.disputes.insert f.disputeKey d
      tasks := w.tasks.insert taskKey { accounts with
        task := { accounts.task with status := .Disputed } } }

theorem initiateDispute_spec {w w' : World} {taskKey signer : Pubkey} {f : DisputeFiling}
    (h : initiateDispute w taskKey signer f = .ok w') : OpensDispute w taskKey signer f w' := by
  simp only [initiateDispute, validateDisputableTask, bind_eq_ok, demand_eq_ok, require_eq_ok] at h
  obtain ⟨_, hfresh, accounts, htask, agent, hagent, _, -, _, -, _, -, _, -, _, -, h⟩ := h
  obtain ⟨_, hcontest, _, ⟨_, -, _, hstatus, _, hworkers, -⟩, h⟩ := h
  have hopens : ∀ r d limit,
      raiseDisputeCounters w f accounts agent (decide (accounts.task.creator = signer)) = .ok r →
      newDispute w taskKey signer f (decide (accounts.task.creator = signer)) r.2.1 r.2.2 =
        .ok d →
      (accounts.task.creator ≠ signer →
        validateWorkerInitiator accounts f.agentKey w.sys.now = .ok ()) →
      OpensDispute w taskKey signer f { w with
        agents := r.1
        rateLimits := w.rateLimits.insert signer limit
        disputes := w.disputes.insert f.disputeKey d
        tasks := w.tasks.insert taskKey { accounts with
          task := { accounts.task with status := .Disputed } } } := by
    intro r d limit hraise hnew hworker
    obtain ⟨hagents, hcreator, hself⟩ := raiseDisputeCounters_spec hraise hagent
    obtain ⟨hopened, hdefendant⟩ := newDispute_spec hnew
    refine ⟨accounts, r.1, _, d, hfresh, htask, by simp [hagent], hcontest, hstatus, hworkers,
      hopened, fun hc => ?_, ?_, fun hc => ?_, hdefendant ▸ hagents, rfl⟩
    · rw [hdefendant]
      exact (hcreator (by simpa using hc)).1
    · rw [hdefendant]
      by_cases hc : accounts.task.creator = signer
      · exact (hcreator (by simpa using hc)).2
      · rw [hself (by simpa using hc)]
        exact (validateWorkerInitiator_spec (hworker hc)).1
    · rw [hdefendant, hself (by simpa using hc)]
      exact (validateWorkerInitiator_spec (hworker hc)).2
  rcases ite_eq_iff.mp h with ⟨hcreator, h⟩ | ⟨hcreator, h⟩
  · simp only [bind_eq_ok, Except.ok.injEq] at h
    obtain ⟨_, -, _, -, limit, -, r, hraise, d, hnew, rfl⟩ := h
    exact hopens r d limit hraise hnew fun hc => absurd (of_decide_eq_true hcreator) hc
  · simp only [bind_eq_ok, Except.ok.injEq] at h
    obtain ⟨_, hworker, _, -, _, -, limit, -, r, hraise, d, hnew, rfl⟩ := h
    exact hopens r d limit hraise hnew fun _ => hworker

/-! ## Withdrawing -/

/-- A withdrawn dispute gives a disputed task the status its counters call for. -/
theorem cancelDispute_spec {c c' : TaskContext} {d d' : Dispute} {signer : Pubkey}
    (h : cancelDispute c d signer = .ok (c', d')) :
    ∃ status validation', d.status = .Active ∧ c.workerKey = d.defendant ∧
      status = (if c.accounts.task.status = .Disputed then
        restoreStatusAfterDisputeCancel c.accounts.task.liveSubmissions
          c.accounts.task.currentWorkers else c.accounts.task.status) ∧
      (validation' = c.accounts.validation ∨ ∃ config debt,
        c.accounts.validation = some config ∧
        validation' = some { config with reviewDebtSecs := debt }) ∧
      (status = .PendingValidation → c.accounts.task.status = .Disputed →
        c.accounts.validation.isSome = true) ∧
      c' = { c with
        accounts := { c.accounts with
          task := { c.accounts.task with status := status }
          validation := validation' }
        worker := { c.worker with data := { c.worker.data with
          disputesAsDefendant := c.worker.data.disputesAsDefendant - 1 } } } ∧
      d' = { d with status := .Cancelled, resolvedAt := c.sys.now } := by
  simp only [cancelDispute, bind_eq_ok, require_eq_ok, Except.ok.injEq, Prod.mk.injEq] at h
  obtain ⟨_, hactive, _, -, _, -, c₁, h₁, _, hdefendant, rfl, rfl⟩ := h
  simp only [restoreDisputedTask, TaskContext.task_eq] at h₁
  rcases ite_eq_iff.mp h₁ with ⟨hdisputed, h₁⟩ | ⟨hdisputed, h₁⟩
  · rcases ite_eq_iff.mp h₁ with ⟨hpending, h₁⟩ | ⟨hpending, h₁⟩
    · simp only [bind_eq_ok, demand_eq_ok, Except.ok.injEq] at h₁
      obtain ⟨config, hconfig, rfl⟩ := h₁
      exact ⟨_, _, hactive, hdefendant, (if_pos hdisputed).symm, .inr ⟨config, _, hconfig, rfl⟩,
        fun _ _ => by simp [hconfig], rfl, rfl⟩
    · obtain rfl := Except.ok.inj h₁
      exact ⟨_, _, hactive, hdefendant, (if_pos hdisputed).symm, .inl rfl,
        fun hp => absurd hp hpending, rfl, rfl⟩
  · obtain rfl := Except.ok.inj h₁
    exact ⟨_, _, hactive, hdefendant, (if_neg hdisputed).symm, .inl rfl,
      fun _ hd => absurd hd hdisputed, rfl, rfl⟩

/-! ## Submissions of disputed claims -/

theorem sweepDisputeSubmission_spec {c c' : TaskContext} {recipient : Pubkey}
    (h : sweepDisputeSubmission c recipient = .ok c') :
    ∃ live validation' ts,
      LeavesIfSubmitted (isManualValidationTask c.accounts.task) c.accounts.task.liveSubmissions
        c.accounts.task.liveAfterLeaving (c.accounts.submissions.lookup c.workerKey)
        c.accounts.validation live validation' ∧
      ClosesWorkerAccounts c ts ∧
      c' = { c with
        accounts := { c.accounts with
          task := { c.accounts.task with liveSubmissions := live }
          validation := validation'
          submissions := c.accounts.submissions.erase c.workerKey }
        paid := c.paid ++ ts } := by
  unfold sweepDisputeSubmission at h
  split at h
  · rename_i hnone
    obtain rfl := Except.ok.inj h
    exact ⟨_, _, [], .idle (by simp [hnone]), by simp [ClosesWorkerAccounts],
      by simp [Ledger.erase_of_lookup_eq_none hnone]⟩
  · rename_i submission hsome
    simp only [bind_eq_ok, Except.ok.injEq] at h
    obtain ⟨c₁, h₁, rfl⟩ := h
    obtain ⟨live, validation', hleaves, rfl⟩ : ∃ live validation',
        LeavesIfSubmitted (isManualValidationTask c.accounts.task)
          c.accounts.task.liveSubmissions c.accounts.task.liveAfterLeaving
          (c.accounts.submissions.lookup c.workerKey) c.accounts.validation live validation' ∧
        c₁ = { c with accounts := { c.accounts with
          task := { c.accounts.task with liveSubmissions := live }
          validation := validation' } } := by
      simp only [leaveReviewIfSubmitted, TaskContext.task_eq] at h₁
      rcases ite_eq_iff.mp h₁ with ⟨hsubmitted, h₁⟩ | ⟨hidle, h₁⟩
      · rcases ite_eq_iff.mp h₁ with ⟨hmanual, h₁⟩ | ⟨hmanual, h₁⟩
        · simp only [bind_eq_ok] at h₁
          obtain ⟨config, hconfig, h₁⟩ := h₁
          obtain ⟨-, hvalidation, -⟩ := ensureValidationConfig_spec hconfig
          obtain ⟨hpending, -, rfl⟩ := leaveReview_spec h₁
          exact ⟨_, _, .managed hsome hsubmitted hmanual hvalidation hpending, rfl⟩
        · simp only [bind_eq_ok, Except.ok.injEq] at h₁
          obtain ⟨task, htask, rfl⟩ := h₁
          obtain ⟨-, rfl⟩ := noteSubmissionLeftReview_spec htask
          exact ⟨_, _, .unmanaged hsome hsubmitted (by simpa using hmanual), rfl⟩
      · obtain rfl := Except.ok.inj h₁
        exact ⟨_, _, .idle (by simpa [hsome] using hidle), rfl⟩
    obtain ⟨ts, hts, heq⟩ := closeSubmissionIfAny_eq _ recipient
    rw [heq]
    exact ⟨live, validation', ts, hleaves, fun t ht => ⟨.inr (hts t ht).1, .inl (hts t ht).2⟩, rfl⟩

/-! ## The money of a ruling -/

/-- The legs of a ruling are what a worker's gross amount owes. -/
theorem payDisputeMarketplaceLegs_spec {c : TaskContext} {terms : MarketplaceTerms}
    {payees : PayeeAccounts} {workerGross : ℕ} {r : List Transfer × ℕ}
    (h : payDisputeMarketplaceLegs c terms payees workerGross = .ok r) :
    ∃ operatorLeg referrerLeg, LegsFor terms payees operatorLeg referrerLeg ∧
      r.1 = legTransfer c.key operatorLeg .operatorFee
          (dueFees workerGross operatorLeg referrerLeg c.sys.rent).operatorFee ++
        legTransfer c.key referrerLeg .referrerFee
          (dueFees workerGross operatorLeg referrerLeg c.sys.rent).referrerFee ∧
      r.2 = (dueFees workerGross operatorLeg referrerLeg c.sys.rent).operatorFee +
        (dueFees workerGross operatorLeg referrerLeg c.sys.rent).referrerFee := by
  simp only [payDisputeMarketplaceLegs, bind_eq_ok] at h
  obtain ⟨operatorLeg, hoperator, referrerLeg, hreferrer, h⟩ := h
  refine ⟨operatorLeg, referrerLeg, ⟨buildFeeLeg_spec hoperator, buildFeeLeg_spec hreferrer⟩, ?_⟩
  rcases ite_eq_iff.mp h with ⟨hlegs, h⟩ | ⟨-, h⟩
  · obtain rfl := Except.ok.inj h
    obtain ⟨rfl, rfl⟩ := hlegs
    exact ⟨rfl, rfl⟩
  · simp only [bind_eq_ok, Prod.exists, Except.ok.injEq] at h
    obtain ⟨operatorFee, referrerFee, hfees, rfl⟩ := h
    obtain ⟨rfl, rfl⟩ := Prod.mk.inj (calculateCombinedFees_spec hfees)
    simp only [combinedFees_eq]
    exact ⟨rfl, rfl⟩

theorem contractualSettlementAmount_spec {remaining : ℕ} {price : Option ℕ} {r : ℕ × ℕ}
    (h : contractualSettlementAmount remaining price = .ok r) : r.1 + r.2 = remaining := by
  cases price with
  | none =>
    obtain rfl := Except.ok.inj h
    rfl
  | some amount =>
    simp only [contractualSettlementAmount, require_bind_eq_ok, Except.ok.injEq] at h
    obtain ⟨-, hle, rfl⟩ := h
    exact Nat.add_sub_cancel' hle

/-- The payments of a ruling: they leave the escrow, add up to everything that was left of the
reward, and go to the settlement legs or to the creator. A worker is paid with the legs its gross
amount owes. -/
structure RulingPays (t : Till) (payees : PayeeAccounts) (remaining : ℕ) (ts : List Transfer) :
    Prop where
  total : spent (.escrow t.key) ts = remaining
  legs : ∀ x ∈ ts, x.source = .escrow t.key ∧
    (x.purpose.isSettlementLeg = true ∨ x.purpose = .creatorRefund ∧ x.recipient = t.creator)
  honours : (∃ x ∈ ts, x.purpose = .workerReward) → HonoursLegs t.terms payees t.rent t.key ts

/-- What is left of the reward goes back to the creator. -/
theorem RulingPays.refund (t : Till) (payees : PayeeAccounts) (remaining : ℕ) :
    RulingPays t payees remaining [⟨.escrow t.key, t.creator, .creatorRefund, remaining⟩] :=
  ⟨by simp, by simp, by simp⟩

/-- A worker's gross amount is paid with its legs, and the rest goes back to the creator. -/
theorem RulingPays.of_legs {t : Till} {payees : PayeeAccounts} {gross legsFee back : ℕ}
    {operatorLeg referrerLeg : Option FeeLeg} {worker : Pubkey} {rest : List Transfer}
    (hlegs : LegsFor t.terms payees operatorLeg referrerLeg)
    (hfee : legsFee = (dueFees gross operatorLeg referrerLeg t.rent).operatorFee +
      (dueFees gross operatorLeg referrerLeg t.rent).referrerFee) (hle : legsFee ≤ gross)
    (hrest : List.Perm rest
      [⟨.escrow t.key, worker, .workerReward, gross - legsFee⟩,
        ⟨.escrow t.key, t.creator, .creatorRefund, back⟩]) :
    RulingPays t payees (gross + back)
      (legTransfer t.key operatorLeg .operatorFee
          (dueFees gross operatorLeg referrerLeg t.rent).operatorFee ++
        legTransfer t.key referrerLeg .referrerFee
          (dueFees gross operatorLeg referrerLeg t.rent).referrerFee ++ rest) := by
  have hmem (x : Transfer) (hx : x ∈ rest) :
      x = ⟨.escrow t.key, worker, .workerReward, gross - legsFee⟩ ∨
        x = ⟨.escrow t.key, t.creator, .creatorRefund, back⟩ := by
    simpa using hrest.mem_iff.mp hx
  have hsum (q : Purpose → Bool) : spentOn q (.escrow t.key) rest = spentOn q (.escrow t.key)
      [⟨.escrow t.key, worker, .workerReward, gross - legsFee⟩,
        ⟨.escrow t.key, t.creator, .creatorRefund, back⟩] :=
    (hrest.map _).sum_nat
  refine ⟨?_, fun x hx => ?_, fun _ => ?_⟩
  · rw [spent, spentOn_append, spentOn_append, hsum,
      spentOn_legTransfer rfl (by rintro rfl; exact dueFees_operator_none _ _ _),
      spentOn_legTransfer rfl (by rintro rfl; exact dueFees_referrer_none _ _ _)]
    simp only [spentOn_cons, spentOn_nil, and_self, if_true]
    omega
  · rcases List.mem_append.mp hx with hx | hx
    · rcases List.mem_append.mp hx with hx | hx
      · obtain ⟨hsource, hpurpose⟩ := legTransfer_purpose hx
        exact ⟨hsource, .inl (by rw [hpurpose]; rfl)⟩
      · obtain ⟨hsource, hpurpose⟩ := legTransfer_purpose hx
        exact ⟨hsource, .inl (by rw [hpurpose]; rfl)⟩
    · rcases hmem x hx with rfl | rfl
      · exact ⟨rfl, .inl rfl⟩
      · exact ⟨rfl, .inr ⟨rfl, rfl⟩⟩
  · refine HonoursLegs.of_parts hlegs (fun x hx => ?_) ?_
    · rcases hmem x hx with rfl | rfl <;> simp
    · rw [hsum]
      simp only [spentOn_cons, spentOn_nil, Purpose.isSettlementLeg, and_self, if_true,
        Bool.false_eq_true, and_false, if_false]
      omega

theorem rulingPayments_spec {c : TaskContext} {approved : Bool} {resolution : ResolutionType}
    {payees : PayeeAccounts} {funds : RulingFunds} {r : List Transfer × Option ℕ}
    (h : rulingPayments c approved resolution (resolveTaskMarketplaceTerms c.accounts) payees funds
      = .ok r)
    (hfunds : funds.contract + funds.uncommitted = funds.remaining) :
    RulingPays c.till payees funds.remaining r.1 := by
  unfold rulingPayments at h
  dsimp only [TaskContext.task_eq] at h
  split at h
  · obtain rfl := Except.ok.inj h
    exact .refund c.till payees _
  · obtain rfl := Except.ok.inj h
    exact .refund c.till payees _
  · simp only [bind_eq_ok, Prod.exists, subU_eq_ok, Except.ok.injEq] at h
    obtain ⟨legs, legsFee, hlegs, _, ⟨hle, rfl⟩, rfl⟩ := h
    obtain ⟨operatorLeg, referrerLeg, hfor, rfl, rfl⟩ := payDisputeMarketplaceLegs_spec hlegs
    rw [← hfunds]
    exact RulingPays.of_legs (t := c.till) hfor rfl hle (List.Perm.refl _)
  · rcases ite_eq_iff.mp h with ⟨hzero, h⟩ | ⟨-, h⟩
    · obtain rfl := Except.ok.inj h
      exact ⟨by simp [hzero], by simp, by simp⟩
    · simp only [bind_eq_ok, Prod.exists, subU_eq_ok, Except.ok.injEq] at h
      obtain ⟨legs, legsFee, hlegs, _, ⟨hle, rfl⟩, rfl⟩ := h
      obtain ⟨operatorLeg, referrerLeg, hfor, rfl, rfl⟩ := payDisputeMarketplaceLegs_spec hlegs
      have hsplit : funds.remaining = funds.contract / 2 +
          (funds.contract - funds.contract / 2 + funds.uncommitted) := by omega
      rw [hsplit]
      exact RulingPays.of_legs (t := c.till) hfor rfl hle (List.Perm.swap _ _ _)

/-- The escrow side of a ruling or an expiry. In SOL the escrow is emptied and closed, what is
left of the reward by `RulingPays` and the rest to the creator. -/
structure EmptiesEscrow (t : Till) (payees : PayeeAccounts) (escrow : Account TaskEscrow)
    (escrow' : Option (Account TaskEscrow)) (ts : List Transfer) : Prop where
  sol : t.mint = none → escrow' = none ∧
    escrow.data.amount - escrow.data.distributed ≤ escrow.lamports ∧
    ∃ paid, RulingPays t payees (escrow.data.amount - escrow.data.distributed) paid ∧
      ts = paid ++ [closeEscrowTransfer t.key t.creator
        (escrow.lamports - (escrow.data.amount - escrow.data.distributed))]
  sources : ∀ x ∈ ts, (x.source = .escrow t.key ∨ x.source = .tokenEscrow t.key) ∧
    (x.purpose.isSettlementLeg = true ∨ x.purpose = .creatorRefund ∨
      x.purpose = .closingBalance)
  token : t.mint ≠ none → ∀ x ∈ ts, x.purpose ≠ .operatorFee ∧ x.purpose ≠ .referrerFee

theorem settleRulingSol_spec {c c' : TaskContext} {approved : Bool} {resolution : ResolutionType}
    {payees : PayeeAccounts} {funds : RulingFunds} {payout : Option ℕ}
    {escrow : Account TaskEscrow}
    (h : settleRulingSol c approved resolution (resolveTaskMarketplaceTerms c.accounts) payees funds
      = .ok (c', payout))
    (hescrow : c.accounts.escrow = some escrow) (hmint : c.accounts.task.rewardMint = none)
    (hremaining : funds.remaining = escrow.data.amount - escrow.data.distributed)
    (hfunds : funds.contract + funds.uncommitted = funds.remaining) :
    ∃ escrow' vault' ts, EmptiesEscrow c.till payees escrow escrow' ts ∧ c' = { c with
      accounts := { c.accounts with escrow := escrow', tokenEscrow := vault' }
      paid := c.paid ++ ts } := by
  simp only [settleRulingSol, bind_eq_ok, demand_eq_ok, Prod.exists, subU_eq_ok, Except.ok.injEq,
    Prod.mk.injEq] at h
  obtain ⟨_, hescrow', paid, _, hpaid, _, ⟨hle, rfl⟩, rfl, -⟩ := h
  obtain rfl := Option.some.inj (hescrow.symm.trans hescrow')
  have hpays := rulingPayments_spec hpaid hfunds
  rw [hremaining] at hpays hle ⊢
  refine ⟨none, _, _, ⟨fun _ => ⟨rfl, hle, paid, hpays, rfl⟩, fun t ht => ?_,
    fun htoken => absurd hmint htoken⟩, rfl⟩
  rcases List.mem_append.mp ht with ht | ht
  · obtain ⟨hsource, hleg | ⟨hrefund, -⟩⟩ := hpays.legs t ht
    · exact ⟨.inl hsource, .inl hleg⟩
    · exact ⟨.inl hsource, .inr (.inl hrefund)⟩
  · obtain rfl := List.mem_singleton.mp ht
    exact ⟨.inl rfl, .inr (.inr rfl)⟩

/-- Payments of a token task that fit the escrow side of a ruling. -/
theorem EmptiesEscrow.of_token {t : Till} {payees : PayeeAccounts} {escrow : Account TaskEscrow}
    {escrow' : Option (Account TaskEscrow)} {ts : List Transfer} (hmint : t.mint ≠ none)
    (hts : ∀ x ∈ ts, (x.source = .escrow t.key ∨ x.source = .tokenEscrow t.key) ∧
      (x.purpose = .workerReward ∨ x.purpose = .creatorRefund ∨ x.purpose = .closingBalance)) :
    EmptiesEscrow t payees escrow escrow' ts := by
  refine ⟨fun hnone => absurd hnone hmint, fun x hx => ?_, fun _ x hx => ?_⟩
  · obtain ⟨hsource, hpurpose | hpurpose | hpurpose⟩ := hts x hx
    · exact ⟨hsource, .inl (by rw [hpurpose]; rfl)⟩
    · exact ⟨hsource, .inr (.inl hpurpose)⟩
    · exact ⟨hsource, .inr (.inr hpurpose)⟩
  · obtain ⟨-, hpurpose | hpurpose | hpurpose⟩ := hts x hx <;>
      exact ⟨by rw [hpurpose]; decide, by rw [hpurpose]; decide⟩

theorem settleRulingToken_spec {c c' : TaskContext} {approved : Bool}
    {resolution : ResolutionType} {funds : RulingFunds} {reserve : ℕ} {payout : Option ℕ}
    {payees : PayeeAccounts} (escrow : Account TaskEscrow)
    (h : settleRulingToken c approved resolution funds reserve = .ok (c', payout))
    (hmint : c.accounts.task.rewardMint ≠ none) :
    ∃ escrow' vault' ts, EmptiesEscrow c.till payees escrow escrow' ts ∧ c' = { c with
      accounts := { c.accounts with escrow := escrow', tokenEscrow := vault' }
      paid := c.paid ++ ts } := by
  simp only [settleRulingToken, bind_eq_ok, demand_eq_ok, subU_eq_ok, addU64_eq_ok] at h
  obtain ⟨stored, -, vault, -, _, -, _, -, h⟩ := h
  split at h
  · obtain ⟨rfl, -⟩ := Prod.mk.inj (Except.ok.inj h)
    refine ⟨_, _, _, .of_token hmint ?_, rfl⟩
    split_ifs <;> simp [TaskContext.till]
  · obtain ⟨rfl, -⟩ := Prod.mk.inj (Except.ok.inj h)
    refine ⟨_, _, _, .of_token hmint ?_, rfl⟩
    split_ifs <;> simp [TaskContext.till]
  · obtain ⟨rfl, -⟩ := Prod.mk.inj (Except.ok.inj h)
    refine ⟨_, _, _, .of_token hmint ?_, rfl⟩
    split_ifs <;> simp [TaskContext.till]
  · rcases ite_eq_iff.mp h with ⟨-, h⟩ | ⟨-, h⟩
    · obtain ⟨rfl, -⟩ := Prod.mk.inj (Except.ok.inj h)
      exact ⟨_, _, [], .of_token hmint (by simp), rfl⟩
    · obtain ⟨rfl, -⟩ := Prod.mk.inj (Except.ok.inj h)
      refine ⟨_, _, _, .of_token hmint ?_, rfl⟩
      split_ifs <;> simp [TaskContext.till]

theorem settleRuling_spec {c c' : TaskContext} {approved : Bool} {resolution : ResolutionType}
    {payees : PayeeAccounts} {funds : RulingFunds} {reserve : ℕ} {payout : Option ℕ}
    {escrow : Account TaskEscrow}
    (h : settleRuling c approved resolution (resolveTaskMarketplaceTerms c.accounts) payees funds
      reserve = .ok (c', payout))
    (hescrow : c.accounts.escrow = some escrow)
    (hremaining : funds.remaining = escrow.data.amount - escrow.data.distributed)
    (hfunds : funds.contract + funds.uncommitted = funds.remaining) :
    ∃ escrow' vault' ts, EmptiesEscrow c.till payees escrow escrow' ts ∧ c' = { c with
      accounts := { c.accounts with escrow := escrow', tokenEscrow := vault' }
      paid := c.paid ++ ts } := by
  unfold settleRuling at h
  rcases ite_eq_iff.mp h with ⟨hsol, h⟩ | ⟨htoken, h⟩
  · exact settleRulingSol_spec h hescrow (by simpa using hsol) hremaining hfunds
  · exact settleRulingToken_spec escrow h (by simpa using htoken)

/-- An expired dispute empties the escrow to the creator. -/
theorem refundExpiredDispute_spec {c c' : TaskContext} (h : refundExpiredDispute c = .ok c') :
    ∃ escrow escrow' vault' ts, c.accounts.escrow = some escrow ∧
      escrow.data.distributed ≤ escrow.data.amount ∧
      EmptiesEscrow c.till {} escrow escrow' ts ∧ c' = { c with
        accounts := { c.accounts with escrow := escrow', tokenEscrow := vault' }
        paid := c.paid ++ ts } := by
  simp only [refundExpiredDispute, bind_eq_ok, demand_eq_ok, subU_eq_ok, TaskContext.task_eq] at h
  obtain ⟨escrow, hescrow, _, ⟨hle, rfl⟩, h⟩ := h
  refine ⟨escrow, ?_⟩
  rcases ite_eq_iff.mp h with ⟨hsol, h⟩ | ⟨htoken, h⟩
  · simp only [bind_eq_ok, subU_eq_ok, Except.ok.injEq] at h
    obtain ⟨_, ⟨hcovered, rfl⟩, rfl⟩ := h
    refine ⟨none, c.accounts.tokenEscrow, _, hescrow, hle,
      ⟨fun _ => ⟨rfl, hcovered, [_], .refund c.till {} _, rfl⟩, ?_, ?_⟩, rfl⟩
    · simp [closeEscrowTransfer, TaskContext.till]
    · simp [closeEscrowTransfer]
  · have hmint : c.till.mint ≠ none := fun hm => htoken (by simpa [TaskContext.till] using hm)
    rcases ite_eq_iff.mp h with ⟨hzero, h⟩ | ⟨-, h⟩
    · obtain rfl := Except.ok.inj h
      exact ⟨none, c.accounts.tokenEscrow, _, hescrow, hle,
        .of_token hmint (by simp [closeEscrowTransfer, TaskContext.till]), rfl⟩
    · simp only [bind_eq_ok, demand_eq_ok, subU_eq_ok, Except.ok.injEq] at h
      obtain ⟨vault, -, _, -, rfl⟩ := h
      exact ⟨none, none, _, hescrow, hle,
        .of_token hmint (by simp [closeEscrowTransfer, TaskContext.till]), rfl⟩

/-! ## Ruling -/

/-- The disposition of a completion bond after a ruling. -/
def rulingDisposition (treasury : Pubkey) (forfeit : Bool) : BondDisposition :=
  if forfeit then .Forfeit treasury .bondForfeit else .Refund

/-- A ruling disposes of both completion bonds. -/
theorem settleBondsAfterRuling_spec {c c' : TaskContext} {approved : Bool}
    {resolution : ResolutionType} (h : settleBondsAfterRuling c approved resolution = .ok c') :
    ∃ creatorSide workerSide,
      c' = { c with
        accounts := { c.accounts with
          bonds := (c.accounts.bonds.erase c.accounts.task.creator).erase
            c.worker.data.authority }
        paid := c.paid ++
          bondPayments c.key c.accounts.task.creator
            (rulingDisposition c.config.treasury creatorSide)
            (c.accounts.bonds.lookup c.accounts.task.creator) ++
          bondPayments c.key c.worker.data.authority
            (rulingDisposition c.config.treasury workerSide)
            ((c.accounts.bonds.erase c.accounts.task.creator).lookup
              c.worker.data.authority) } := by
  simp only [settleBondsAfterRuling, bind_eq_ok, TaskContext.task_eq] at h
  obtain ⟨c₁, h₁, h₂⟩ := h
  obtain ⟨-, rfl⟩ := settleCompletionBond_spec h₁
  obtain ⟨-, rfl⟩ := settleCompletionBond_spec h₂
  exact ⟨(completionBondForfeitSides approved resolution).1,
    (completionBondForfeitSides approved resolution).2, rfl⟩

/-- The defendant's record after a ruling: a worker who lost keeps its slot, and its place among
the defendants. -/
theorem settleDefendant_eq (worker : AgentRegistration) (workerLost sol : Bool)
    (payout : Option ℕ) (now : ℤ) :
    ∃ tasksCompleted totalEarned,
      settleDefendant worker workerLost sol payout now = { worker with
        tasksCompleted := tasksCompleted
        totalEarned := totalEarned
        activeTasks := if workerLost then worker.activeTasks else worker.activeTasks - 1
        disputesAsDefendant := if workerLost then worker.disputesAsDefendant
          else worker.disputesAsDefendant - 1
        lastActive := now } := by
  cases workerLost <;> cases payout <;> exact ⟨_, _, rfl⟩

/-- The defendant's claim is closed unless the slash keeps it. -/
theorem closeDefendantClaim_eq (c : TaskContext) (claim : Account TaskClaim)
    (workerLost : Bool) :
    ∃ ts, ClosesWorkerAccounts c ts ∧ closeDefendantClaim c claim workerLost = { c with
      accounts := { c.accounts with
        claims := if workerLost then c.accounts.claims
          else c.accounts.claims.erase c.workerKey }
      paid := c.paid ++ ts } := by
  cases workerLost with
  | true => exact ⟨[], by simp [ClosesWorkerAccounts], by simp [closeDefendantClaim]⟩
  | false => exact ⟨_, by simp [ClosesWorkerAccounts], rfl⟩

theorem updateProtocolStats_eq (config : ProtocolConfig) (amount : ℕ) (sol : Bool) :
    ∃ completedTasks totalValue, updateProtocolStats config amount sol = { config with
      completedTasks := completedTasks, totalValueDistributed := totalValue } :=
  ⟨_, _, rfl⟩

/-- A ruling ends a dispute's task: the escrow is emptied, the accepted bid and both bonds are
settled, the defendant's submission leaves review, and its claim is closed unless it lost the
claim to the slash. Every other claim is left to be settled as a peer. -/
theorem resolveDispute_spec {c c' : TaskContext} {d d' : Dispute} {signer : Pubkey}
    {signers : List Pubkey} {assigned approved : Bool} {payees : PayeeAccounts}
    (h : resolveDispute c d signer signers assigned approved payees = .ok (c', d')) :
    ∃ claim escrow escrow' vault' paidRuling book' bids' bidder' paidBid live validation'
        closings paidClaim creatorSide workerSide,
      d.status = .Active ∧ c.workerKey = d.defendant ∧
      c.accounts.claims.lookup c.workerKey = some claim ∧
      c.accounts.task.status = .Disputed ∧
      c.accounts.escrow = some escrow ∧ escrow.data.distributed ≤ escrow.data.amount ∧
      EmptiesEscrow c.till payees escrow escrow' paidRuling ∧
      SettlesBid c.bidSide .Close (acceptedBidDisputeBondDisposition approved d.resolutionType) book'
        bids' bidder' paidBid ∧
      LeavesIfSubmitted (isManualValidationTask c.accounts.task) c.accounts.task.liveSubmissions
        c.accounts.task.liveAfterLeaving (c.accounts.submissions.lookup c.workerKey)
        c.accounts.validation live validation' ∧
      ClosesWorkerAccounts c closings ∧ ClosesWorkerAccounts c paidClaim ∧
      ∃ completedAt tasksCompleted totalEarned completedTasks totalValue votesFor votesAgainst,
        (votesFor = if approved then 1 else 0) ∧
        (votesAgainst = if approved then 0 else 1) ∧
        c' = { c with
          accounts := { c.accounts with
            task := { c.accounts.task with
              status := rulingStatus approved d.resolutionType
              completedAt := completedAt
              currentWorkers := c.accounts.task.currentWorkers - 1 +
                if workerLostDispute approved d.resolutionType then 1 else 0
              liveSubmissions := live
              peerSettlementPending := decide (0 < c.accounts.task.currentWorkers - 1)
              workerSlashPending := workerLostDispute approved d.resolutionType }
            escrow := escrow'
            tokenEscrow := vault'
            claims := if workerLostDispute approved d.resolutionType then c.accounts.claims
              else c.accounts.claims.erase c.workerKey
            submissions := c.accounts.submissions.erase c.workerKey
            validation := validation'
            bonds := (c.accounts.bonds.erase c.accounts.task.creator).erase
              c.worker.data.authority
            bidBook := book'
            bids := bids' }
          worker := { c.worker with data := { c.worker.data with
            tasksCompleted := tasksCompleted
            totalEarned := totalEarned
            activeTasks := if workerLostDispute approved d.resolutionType
              then c.worker.data.activeTasks else c.worker.data.activeTasks - 1
            disputesAsDefendant := if workerLostDispute approved d.resolutionType
              then c.worker.data.disputesAsDefendant else c.worker.data.disputesAsDefendant - 1
            lastActive := c.sys.now } }
          bidder := bidder'
          config := { c.config with
            completedTasks := completedTasks, totalValueDistributed := totalValue }
          paid := c.paid ++ paidRuling ++ paidBid ++ closings ++ paidClaim ++
            bondPayments c.key c.accounts.task.creator
              (rulingDisposition c.config.treasury creatorSide)
              (c.accounts.bonds.lookup c.accounts.task.creator) ++
            bondPayments c.key c.worker.data.authority
              (rulingDisposition c.config.treasury workerSide)
              ((c.accounts.bonds.erase c.accounts.task.creator).lookup
                c.worker.data.authority) } ∧
        d' = { d.settle .Resolved (c.accounts.task.currentWorkers - 1) c.sys.now with
          votesFor := votesFor
          votesAgainst := votesAgainst
          resolvedBy := signer } := by
  simp only [resolveDispute, bind_eq_ok, demand_eq_ok, require_eq_ok, subU_eq_ok, Prod.exists,
    TaskContext.task_eq] at h
  obtain ⟨escrow, hescrow, _, -, _, -, _, hactive, _, -, _, hdefendant, h⟩ := h
  obtain ⟨claim, hclaim, _, -, _, -, _, hdisputed, _, ⟨hle, rfl⟩, h⟩ := h
  obtain ⟨price, -, contract, uncommitted, hfunds, reserve, -, c₁, payout, h₁, h⟩ := h
  obtain ⟨escrow', vault', paidRuling, hempties, rfl⟩ :=
    settleRuling_spec h₁ hescrow rfl (contractualSettlementAmount_spec hfunds)
  obtain ⟨c₂, h₂, c₃, h₃, c₄, h₄, h⟩ := h
  obtain ⟨completedTasks, totalValue, hconfig⟩ : ∃ completedTasks totalValue,
      (if approved = true ∧ d.resolutionType = .Complete then
        updateProtocolStats c.config contract c.accounts.task.rewardMint.isNone else c.config) =
      { c.config with completedTasks := completedTasks, totalValueDistributed := totalValue } := by
    split_ifs
    · exact updateProtocolStats_eq _ _ _
    · exact ⟨_, _, rfl⟩
  simp only [hconfig] at h₂
  obtain ⟨book', bids', bidder', paidBid, hbid, rfl⟩ := settleBidOf_spec h₂
  obtain ⟨tasksCompleted, totalEarned, hworker⟩ :=
    settleDefendant_eq c.worker.data (workerLostDispute approved d.resolutionType)
      c.accounts.task.rewardMint.isNone payout c.sys.now
  simp only [hworker] at h₃
  obtain ⟨live, validation', closings, hleaves, hcloses, rfl⟩ := sweepDisputeSubmission_spec h₃
  obtain ⟨paidClaim, hclaimCloses, hclose⟩ := closeDefendantClaim_eq _ claim
    (workerLostDispute approved d.resolutionType)
  rw [hclose] at h₄
  obtain ⟨creatorSide, workerSide, rfl⟩ := settleBondsAfterRuling_spec h₄
  obtain ⟨rfl, rfl⟩ := Prod.mk.inj (Except.ok.inj h)
  exact ⟨claim, escrow, escrow', vault', paidRuling, book', bids', bidder', paidBid, live,
    validation', closings, paidClaim, creatorSide, workerSide, hactive, hdefendant, hclaim,
    hdisputed, hescrow, hle, hempties, hbid, hleaves, hcloses, hclaimCloses,
    if approved = true ∧ d.resolutionType = .Complete then c.sys.now
      else c.accounts.task.completedAt, tasksCompleted, totalEarned, completedTasks, totalValue,
    _, _, rfl, rfl, rfl, rfl⟩

/-! ## Expiry -/

/-- When an expired dispute may penalise its defendant as a no-show: the claim ran out, nothing
was submitted, and the task had not to wait for its parent. -/
def ExpiryPenalty (c : TaskContext) (claim : TaskClaim) : Prop :=
  claim.isCompleted = false ∧ 0 < claim.expiresAt ∧ claim.expiresAt < c.sys.now ∧
    c.accounts.submissions.lookup c.workerKey = none ∧ dependencyParentCompleted c = true

theorem expiryNoShowPenaltyAllowed_eq_true {c : TaskContext} {claim : TaskClaim}
    (h : expiryNoShowPenaltyAllowed claim c.sys.now
      (c.accounts.submissions.lookup c.workerKey).isSome (dependencyParentCompleted c) = true) :
    ExpiryPenalty c claim := by
  simp only [expiryNoShowPenaltyAllowed, Bool.and_eq_true, decide_eq_true_eq, Bool.not_eq_true',
    Option.isSome_eq_false_iff, Option.isNone_iff_eq_none] at h
  exact ⟨h.1.1.1, h.1.1.2.1, h.1.1.2.2, h.1.2, h.2⟩

/-- An expired dispute cancels its task: the escrow goes back to the creator, the defendant's
claim is closed, and its bond is forfeit only to a no-show. -/
theorem expireDispute_spec {c c' : TaskContext} {d d' : Dispute}
    (h : expireDispute c d = .ok (c', d')) :
    ∃ claim escrow escrow' vault' paidRefund live validation' closings penalty book' bids'
        bidder' paidBid bonds' paidBond,
      d.status = .Active ∧ c.workerKey = d.defendant ∧
      c.accounts.claims.lookup c.workerKey = some claim ∧
      c.accounts.task.status = .Disputed ∧
      c.accounts.escrow = some escrow ∧ escrow.data.distributed ≤ escrow.data.amount ∧
      EmptiesEscrow c.till {} escrow escrow' paidRefund ∧
      LeavesIfSubmitted (isManualValidationTask c.accounts.task) c.accounts.task.liveSubmissions
        c.accounts.task.liveAfterLeaving (c.accounts.submissions.lookup c.workerKey)
        c.accounts.validation live validation' ∧
      ClosesWorkerAccounts c closings ∧
      (penalty = true → ExpiryPenalty c claim.data) ∧
      SettlesBid c.bidSide .Close (acceptedBidNoShowBondDisposition penalty) book' bids' bidder'
        paidBid ∧
      SettlesNoShow c.key c.worker.data.authority c.accounts.task.creator
        (c.accounts.task.taskType = .Exclusive ∧ ExpiryPenalty c claim.data)
        (c.accounts.bonds.erase c.accounts.task.creator) bonds' paidBond ∧
      c' = { c with
        accounts := { c.accounts with
          task := { c.accounts.task with
            status := .Cancelled
            currentWorkers := c.accounts.task.currentWorkers - 1
            liveSubmissions := live
            peerSettlementPending := decide (0 < c.accounts.task.currentWorkers - 1) }
          escrow := escrow'
          tokenEscrow := vault'
          claims := c.accounts.claims.erase c.workerKey
          submissions := c.accounts.submissions.erase c.workerKey
          validation := validation'
          bonds := bonds'
          bidBook := book'
          bids := bids' }
        worker := { c.worker with data := { c.worker.data with
          activeTasks := c.worker.data.activeTasks - 1
          disputesAsDefendant := c.worker.data.disputesAsDefendant - 1 } }
        bidder := bidder'
        paid := c.paid ++ paidRefund ++ closings ++ paidBid ++
          claimClosings c c.worker.data.authority claim 0 ++
          bondPayments c.key c.accounts.task.creator .Refund
            (c.accounts.bonds.lookup c.accounts.task.creator) ++ paidBond } ∧
      d' = d.settle .Expired (c.accounts.task.currentWorkers - 1) c.sys.now := by
  simp only [expireDispute, bind_eq_ok, demand_eq_ok, require_eq_ok, TaskContext.task_eq] at h
  obtain ⟨_, -, _, hactive, _, hdisputed, _, -, _, hdefendant, claim, hclaim, h⟩ := h
  obtain ⟨c₁, h₁, c₂, h₂, c₃, h₃, c₄, h₄, c₅, h₅, h⟩ := h
  obtain ⟨escrow, escrow', vault', paidRefund, hescrow, hle, hempties, rfl⟩ :=
    refundExpiredDispute_spec h₁
  obtain ⟨live, validation', closings, hleaves, hcloses, rfl⟩ := sweepDisputeSubmission_spec h₂
  obtain ⟨book', bids', bidder', paidBid, hbid, rfl⟩ := settleBidOf_spec h₃
  obtain ⟨-, rfl⟩ := settleCompletionBond_spec h₄
  obtain ⟨bonds', paidBond, hbond, rfl⟩ := settleNoShowBond_spec
    (c.accounts.task.taskType = .Exclusive ∧ ExpiryPenalty c claim.data) h₅
    fun hp => by
      simp only [Bool.and_eq_true, decide_eq_true_eq] at hp
      exact ⟨hp.1, expiryNoShowPenaltyAllowed_eq_true hp.2⟩
  obtain ⟨rfl, rfl⟩ := Prod.mk.inj (Except.ok.inj h)
  exact ⟨claim, escrow, escrow', vault', paidRefund, live, validation', closings, _, book', bids',
    bidder', paidBid, bonds', paidBond, hactive, hdefendant, hclaim, hdisputed, hescrow, hle,
    hempties, hleaves, hcloses, fun hp => expiryNoShowPenaltyAllowed_eq_true hp, hbid, hbond, rfl,
    rfl⟩

/-! ## Peers -/

/-- The settlement of one peer: its claim is closed, its submission leaves review, and the last
one makes the dispute final. -/
theorem settleDisputeClaim_spec {c c' : TaskContext} {d d' : Dispute}
    (h : settleDisputeClaim c d = .ok (c', d')) :
    ∃ claim live validation' closings peersPending status' lamports,
      d.status = .SettlementPending ∧ d.peerWorkersSettled < d.peerWorkersTotal ∧
      c.workerKey ≠ d.defendant ∧ c.worker.lamports ≤ lamports ∧
      c.accounts.claims.lookup c.workerKey = some claim ∧
      1 ≤ c.accounts.task.currentWorkers ∧
      LeavesIfSubmitted (isManualValidationTask c.accounts.task) c.accounts.task.liveSubmissions
        c.accounts.task.liveAfterLeaving (c.accounts.submissions.lookup c.workerKey)
        c.accounts.validation live validation' ∧
      ClosesWorkerAccounts c closings ∧
      (peersPending = if d.peerWorkersSettled + 1 = d.peerWorkersTotal then false
        else c.accounts.task.peerSettlementPending) ∧
      (status' = if d.peerWorkersSettled + 1 = d.peerWorkersTotal then d.pendingTerminalStatus
        else d.status) ∧
      (d.peerWorkersSettled + 1 = d.peerWorkersTotal →
        d.pendingTerminalStatus = .Resolved ∨ d.pendingTerminalStatus = .Expired) ∧
      c' = { c with
        accounts := { c.accounts with
          task := { c.accounts.task with
            currentWorkers := c.accounts.task.currentWorkers - 1
            liveSubmissions := live
            peerSettlementPending := peersPending }
          claims := c.accounts.claims.erase c.workerKey
          submissions := c.accounts.submissions.erase c.workerKey
          validation := validation' }
        worker := ⟨lamports, { c.worker.data with
          activeTasks := c.worker.data.activeTasks - 1 }⟩
        paid := c.paid ++ closings ++ claimClosings c c.workerKey claim 0 } ∧
      d' = { d with peerWorkersSettled := d.peerWorkersSettled + 1, status := status' } := by
  simp only [settleDisputeClaim, bind_eq_ok, demand_eq_ok, require_eq_ok, subU_eq_ok, addU8_eq_ok,
    TaskContext.task_eq] at h
  obtain ⟨_, -, _, hpending, _, hlt, _, hpeer, claim, hclaim, c₁, h₁, h⟩ := h
  obtain ⟨live, validation', closings, hleaves, hcloses, rfl⟩ := sweepDisputeSubmission_spec h₁
  obtain ⟨_, ⟨hn, rfl⟩, _, ⟨-, rfl⟩, _, hterminal, h⟩ := h
  simp only [decide_eq_true_eq] at hterminal h
  obtain ⟨rfl, rfl⟩ := Prod.mk.inj (Except.ok.inj h)
  exact ⟨claim, live, validation', closings, _, _, _, hpending, hlt, hpeer, Nat.le_add_right _ _,
    hclaim, hn, hleaves, hcloses, rfl, rfl, hterminal, rfl, rfl⟩

/-! ## Slashes -/

theorem settleTokenReserve_spec {c c' : TaskContext} {settle : Bool}
    (h : settleTokenReserve c settle = .ok c') :
    ∃ escrow' vault' ts,
      (c.accounts.task.rewardMint = none → escrow' = c.accounts.escrow ∧ ts = []) ∧
      (∀ t ∈ ts, (t.source = .tokenEscrow c.key ∨ t.source = .escrow c.key) ∧
        (t.purpose = .stakeSlash ∨ t.purpose = .closingBalance)) ∧
      c' = { c with
        accounts := { c.accounts with escrow := escrow', tokenEscrow := vault' }
        paid := c.paid ++ ts } := by
  unfold settleTokenReserve at h
  cases settle with
  | false =>
    obtain rfl := Except.ok.inj h
    exact ⟨_, c.accounts.tokenEscrow, [], fun _ => ⟨rfl, rfl⟩, by simp, by simp⟩
  | true =>
    simp only [if_true, bind_eq_ok, require_eq_ok, demand_eq_ok, Except.ok.injEq,
      TaskContext.task_eq] at h
    obtain ⟨_, htoken, escrow, -, vault, -, rfl⟩ := h
    refine ⟨none, none, _, fun hnone => ?_, by simp [closeEscrowTransfer], rfl⟩
    simp [hnone] at htoken

/-- A token reserve is settled by closing the escrow, and else the escrow is left alone. -/
theorem settleTokenReserve_escrow {c c' : TaskContext} {settle : Bool}
    (h : settleTokenReserve c settle = .ok c') :
    c'.accounts.escrow = c.accounts.escrow ∨ c'.accounts.escrow = none := by
  unfold settleTokenReserve at h
  cases settle with
  | false =>
    obtain rfl := Except.ok.inj h
    exact .inl rfl
  | true =>
    simp only [if_true, bind_eq_ok, require_eq_ok, demand_eq_ok, Except.ok.injEq] at h
    obtain ⟨_, -, _, -, _, -, rfl⟩ := h
    exact .inr rfl

theorem slashStake_spec {agent agent' : Account AgentRegistration} {slash : ℕ}
    (h : slashStake agent slash = .ok agent') :
    slash ≤ agent.data.stake ∧ slash ≤ agent.lamports ∧
      agent' = ⟨agent.lamports - slash, { agent.data with stake := agent.data.stake - slash }⟩ := by
  simp only [slashStake, bind_eq_ok, subU_eq_ok, checkedSub_eq_ok, Except.ok.injEq] at h
  obtain ⟨_, ⟨hstake, rfl⟩, _, ⟨hlamports, rfl⟩, rfl⟩ := h
  exact ⟨hstake, hlamports, rfl⟩

/-- No slash without an unapplied dispute. -/
theorem workerSlash_spec {c : TaskContext} {d : Dispute} {applySlash : Bool} {slash : ℕ}
    (h : workerSlash c d applySlash = .ok slash) :
    (applySlash = false → slash = 0) ∧
      slash ≤ d.workerStakeAtDispute * c.config.slashPercentage / 100 := by
  unfold workerSlash at h
  cases applySlash with
  | false =>
    obtain rfl := Except.ok.inj h
    exact ⟨fun _ => rfl, Nat.zero_le _⟩
  | true =>
    simp only [if_true, calculateSlashAmount, require_bind_eq_ok, Except.ok.injEq] at h
    obtain ⟨-, -, rfl⟩ := h
    exact ⟨fun hf => absurd hf (by simp), min_le_left _ _⟩

/-- The slash of a lost dispute finally closes the claim the ruling kept, and frees its worker.
The agent's account loses exactly what its stake loses, and nothing once the dispute is marked. -/
theorem applyDisputeSlash_spec {c c' : TaskContext} {d d' : Dispute} {withTokenAccounts : Bool}
    (h : applyDisputeSlash c d withTokenAccounts = .ok (c', d')) :
    ∃ claim approved slash escrow' vault' paidReserve workers slashPending reputation asDefendant
        activeTasks lastActive,
      c.accounts.claims.lookup c.workerKey = some claim ∧
      c.workerKey = d.defendant ∧ d.status = .Resolved ∧
      workerSlashFinalizerPolicy d c.accounts.task approved = true ∧
      slash ≤ c.worker.data.stake ∧ slash ≤ c.worker.lamports ∧
      (d.slashApplied = true → slash = 0) ∧
      (c.accounts.task.rewardMint = none → escrow' = c.accounts.escrow ∧ paidReserve = []) ∧
      (∀ t ∈ paidReserve, (t.source = .tokenEscrow c.key ∨ t.source = .escrow c.key) ∧
        (t.purpose = .stakeSlash ∨ t.purpose = .closingBalance)) ∧
      (d.slashApplied = false → workers = c.accounts.task.currentWorkers - 1 ∧
        slashPending = false ∧ activeTasks = c.worker.data.activeTasks - 1 ∧
        asDefendant = c.worker.data.disputesAsDefendant - 1) ∧
      (d.slashApplied = true → workers = c.accounts.task.currentWorkers ∧
        slashPending = c.accounts.task.workerSlashPending ∧
        activeTasks = c.worker.data.activeTasks ∧
        asDefendant = c.worker.data.disputesAsDefendant) ∧
      c' = { c with
        accounts := { c.accounts with
          task := { c.accounts.task with
            currentWorkers := workers
            workerSlashPending := slashPending }
          escrow := escrow'
          tokenEscrow := vault'
          claims := c.accounts.claims.erase c.workerKey }
        worker := ⟨c.worker.lamports - slash, { c.worker.data with
          reputation := reputation
          stake := c.worker.data.stake - slash
          disputesAsDefendant := asDefendant
          activeTasks := activeTasks
          lastActive := lastActive }⟩
        paid := c.paid ++ [⟨.agent c.workerKey, c.config.treasury, .stakeSlash, slash⟩] ++
          paidReserve ++ claimClosings c c.worker.data.authority claim 0 } ∧
      d' = { d with slashApplied := true } := by
  simp only [applyDisputeSlash, bind_eq_ok, demand_eq_ok, require_eq_ok, TaskContext.task_eq] at h
  obtain ⟨claim, hclaim, _, -, _, hdefendant, _, hresolved, pct, -, _, hpolicy, h⟩ := h
  obtain ⟨reserved, -, _, -, slash, hslash, worker, hworker, c₁, h₁, _, -, h⟩ := h
  have hnone : d.slashApplied = true → slash = 0 := fun happlied =>
    (workerSlash_spec hslash).1 (by simp [happlied])
  obtain ⟨reputation, hreputation⟩ : ∃ reputation, (if (!d.slashApplied && decide
      (c.sys.now ≤ satAddI64 d.resolvedAt slashWindow)) = true then
        applyReputationPenalty c.worker.data else c.worker.data) =
      { c.worker.data with reputation := reputation } := by
    split_ifs
    · exact ⟨_, rfl⟩
    · exact ⟨_, rfl⟩
  simp only [hreputation] at hworker
  obtain ⟨hstake, hlamports, rfl⟩ := slashStake_spec hworker
  obtain ⟨escrow', vault', paidReserve, hsol, hpaid, rfl⟩ := settleTokenReserve_spec h₁
  by_cases happlied : d.slashApplied = true
  · simp only [happlied, if_true] at h
    obtain ⟨rfl, rfl⟩ := Prod.mk.inj (Except.ok.inj h)
    refine ⟨claim, _, slash, escrow', vault', paidReserve, _, _, reputation, _, _, _, hclaim,
      hdefendant, hresolved, hpolicy, hstake, hlamports, hnone, hsol, hpaid,
      fun hf => absurd (happlied.symm.trans hf) (by simp), fun _ => ⟨rfl, rfl, rfl, rfl⟩, rfl, ?_⟩
    rw [← happlied]
  · simp only [happlied] at h
    obtain ⟨rfl, rfl⟩ := Prod.mk.inj (Except.ok.inj h)
    exact ⟨claim, _, slash, escrow', vault', paidReserve, _, _, reputation, _, _, _, hclaim,
      hdefendant, hresolved, hpolicy, hstake, hlamports, hnone, hsol, hpaid,
      fun _ => ⟨rfl, rfl, rfl, rfl⟩, fun ht => absurd ht happlied, rfl, rfl⟩

theorem applyDisputeSlash_escrow {c c' : TaskContext} {d d' : Dispute} {withTokenAccounts : Bool}
    (h : applyDisputeSlash c d withTokenAccounts = .ok (c', d')) :
    c'.accounts.escrow = c.accounts.escrow ∨ c'.accounts.escrow = none := by
  simp only [applyDisputeSlash, bind_eq_ok, demand_eq_ok, require_eq_ok] at h
  obtain ⟨claim, -, _, -, _, -, _, -, pct, -, _, -, h⟩ := h
  obtain ⟨reserved, -, _, -, slash, -, worker, -, c₁, hreserve, _, -, h⟩ := h
  have hescrow : c'.accounts.escrow = c₁.accounts.escrow := by
    by_cases happlied : d.slashApplied = true
    · simp only [happlied, if_true] at h
      obtain ⟨rfl, -⟩ := Prod.mk.inj (Except.ok.inj h)
      rfl
    · simp only [happlied] at h
      obtain ⟨rfl, -⟩ := Prod.mk.inj (Except.ok.inj h)
      rfl
  have hsettled := settleTokenReserve_escrow hreserve
  rwa [hescrow]

theorem slashInitiator_spec {d : Dispute} {agent agent' : Account AgentRegistration}
    {lost : Bool} {slashPercentage slash : ℕ}
    (h : slashInitiator d agent lost slashPercentage = .ok (agent', slash)) :
    slash ≤ agent.data.stake ∧ slash ≤ agent.lamports ∧ ∃ reputation,
      agent' = ⟨agent.lamports - slash, { agent.data with
        reputation := reputation, stake := agent.data.stake - slash }⟩ := by
  unfold slashInitiator at h
  cases lost with
  | true =>
    simp only [if_true, bind_eq_ok, Except.ok.injEq, Prod.mk.injEq] at h
    obtain ⟨slash, -, slashed, hslashed, rfl, rfl⟩ := h
    obtain ⟨hstake, hlamports, rfl⟩ := slashStake_spec hslashed
    simp only [applyReputationPenalty] at hstake ⊢
    exact ⟨hstake, hlamports, _, rfl⟩
  | false =>
    simp only [Bool.false_eq_true, if_false, Except.ok.injEq, Prod.mk.injEq] at h
    obtain ⟨rfl, rfl⟩ := h
    exact ⟨Nat.zero_le _, Nat.zero_le _, agent.data.reputation, by simp⟩

theorem releaseInitiatorOutcome_spec {d : Dispute} {agent agent' : AgentRegistration}
    (h : releaseInitiatorOutcome d agent = .ok agent') :
    (d.initiatorTracked = true → 1 ≤ agent.activeDisputeVotes) ∧
      agent' = { agent with activeDisputeVotes :=
        agent.activeDisputeVotes - if d.initiatorTracked then 1 else 0 } := by
  unfold releaseInitiatorOutcome at h
  split_ifs at h with htracked
  · simp only [AgentRegistration.noteInitiatorOutcomeFinalized, bind_eq_ok, checkedSub_eq_ok,
      Except.ok.injEq] at h
    obtain ⟨_, ⟨hone, rfl⟩, rfl⟩ := h
    exact ⟨fun _ => hone, by rw [if_pos htracked]⟩
  · obtain rfl := Except.ok.inj h
    exact ⟨fun ht => absurd ht htracked, by simp [htracked]⟩

/-- The states in which a dispute has an outcome. -/
def DisputeStatus.isFinal (status : DisputeStatus) : Prop :=
  status = .Resolved ∨ status = .Expired ∨ status = .Cancelled

theorem initiatorLostUnderProvenancePolicy_isFinal {d : Dispute} {config : ProtocolConfig}
    {now : ℤ} {lost : Bool}
    (h : initiatorLostUnderProvenancePolicy d config now = .ok lost) : d.status.isFinal := by
  unfold initiatorLostUnderProvenancePolicy at h
  rcases ite_eq_iff.mp h with ⟨-, h⟩ | ⟨-, h⟩
  · exact (require_bind_eq_ok.mp h).1
  · rcases (require_bind_eq_ok.mp h).1 with hr | hc
    · exact .inl hr
    · exact .inr (.inr hc)

/-- The finalizer of a tracked dispute runs once, after the dispute's end: the initiator has one
outcome less outstanding, and its account loses what its stake loses. -/
theorem applyInitiatorSlash_spec {w w' : World} {disputeKey agentKey : Pubkey}
    {ts : List Transfer} (h : applyInitiatorSlash w disputeKey agentKey = .ok (w', ts)) :
    ∃ d agent slash reputation,
      w.disputes.lookup disputeKey = some d ∧ w.agents.lookup agentKey = some agent ∧
      d.initiatorSlashApplied = false ∧ agentKey = d.initiator ∧ d.status.isFinal ∧
      slash ≤ agent.data.stake ∧ slash ≤ agent.lamports ∧
      (d.initiatorTracked = true → 1 ≤ agent.data.activeDisputeVotes) ∧
      ts = [⟨.agent agentKey, w.config.treasury, .stakeSlash, slash⟩] ∧
      w' = { w with
        agents := w.agents.insert agentKey ⟨agent.lamports - slash, { agent.data with
          reputation := reputation
          stake := agent.data.stake - slash
          activeDisputeVotes :=
            agent.data.activeDisputeVotes - if d.initiatorTracked then 1 else 0 }⟩
        disputes := w.disputes.insert disputeKey { d with initiatorSlashApplied := true } } := by
  simp only [applyInitiatorSlash, bind_eq_ok, demand_eq_ok, require_eq_ok, Prod.exists,
    Except.ok.injEq, Prod.mk.injEq] at h
  obtain ⟨d, hd, agent, hagent, _, -, _, hunapplied, _, hinitiator, _, -, lost, hlost, h⟩ := h
  obtain ⟨slashed, slash, hslashed, data, hdata, rfl, rfl⟩ := h
  obtain ⟨hstake, hlamports, reputation, rfl⟩ := slashInitiator_spec hslashed
  obtain ⟨hone, rfl⟩ := releaseInitiatorOutcome_spec hdata
  exact ⟨d, agent, slash, reputation, hd, hagent, hunapplied, hinitiator,
    initiatorLostUnderProvenancePolicy_isFinal hlost, hstake, hlamports, hone, rfl, rfl⟩

/-- The repair of an outcome counter needs a pending outcome of the agent that the counter does
not have. -/
theorem repairDisputeInitiatorCounter_spec {w w' : World} {signer : Pubkey}
    {signers : List Pubkey} {incidentKey pendingKey agentKey : Pubkey} {incidentSignature : Hash}
    (h : repairDisputeInitiatorCounter w signer signers incidentKey pendingKey agentKey
      incidentSignature = .ok w') :
    ∃ pending agent, w.disputes.lookup pendingKey = some pending ∧
      w.agents.lookup agentKey = some agent ∧
      pending.initiatorTracked = true ∧ pending.initiator = agentKey ∧
      pending.initiatorSlashApplied = false ∧ agent.data.activeDisputeVotes = 0 ∧
      w' = { w with
        agents := w.agents.insert agentKey { agent with data := { agent.data with
          activeDisputeVotes := agent.data.activeDisputeVotes + 1 } }
        counterRepairs := incidentKey :: w.counterRepairs } := by
  simp only [repairDisputeInitiatorCounter, AgentRegistration.noteDisputeInitiated, bind_eq_ok,
    demand_eq_ok, require_eq_ok, addU8_eq_ok, Except.ok.injEq] at h
  obtain ⟨_, -, pending, hpending, agent, hagent, _, -, _, -, _, -, _, -, _, -, h⟩ := h
  obtain ⟨_, ⟨htracked, hinitiator, -, hunapplied⟩, _, -, _, -, _, -, _, hzero, h⟩ := h
  obtain ⟨_, ⟨_, ⟨-, rfl⟩, rfl⟩, rfl⟩ := h
  exact ⟨pending, agent, hpending, hagent, htracked, hinitiator, hunapplied, hzero, rfl⟩

end AgencCoordination
