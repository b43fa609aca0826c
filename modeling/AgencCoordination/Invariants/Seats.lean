import AgencCoordination.Foundations.Roster
import AgencCoordination.Invariants.Counters

/-!
# Seats

A task's claims and submissions are a roster: whoever has an open claim is seated, and whoever has
a submission under review waits. The task keeps the sizes of both in its counters, and its status
goes by them.

* **`Tracks`** — the counters of a task are the sizes of its roster.
* **`Fits`** — the status of a task is the one its roster calls for.
* **`Seats`** — a handler makes one move on the roster of its task, and its worker's number of
  tasks follows.
-/

namespace AgencCoordination

open Foundations

/-! ## The roster of a task -/

/-- The submission is under review. -/
def IsSubmitted (s : Account TaskSubmission) : Prop := s.data.status = .Submitted

instance : DecidablePred IsSubmitted := fun _ => inferInstanceAs (Decidable (_ = _))

namespace TaskAccounts

/-- The agents with an open claim on the task. -/
abbrev claimants (acc : TaskAccounts) : Finset Pubkey :=
  Ledger.support (fun _ => True) acc.claims

/-- The agents with a submission under review. -/
abbrev submitters (acc : TaskAccounts) : Finset Pubkey := Ledger.support IsSubmitted acc.submissions

theorem mem_claimants {acc : TaskAccounts} {k : Pubkey} :
    k ∈ acc.claimants ↔ (acc.claims.lookup k).isSome = true := by
  rw [Ledger.mem_support, Option.isSome_iff_exists]
  simp only [and_true]

end TaskAccounts

/-- What its creation fixed about the slots of a task. -/
structure SlotTerms (task : Task) : Prop where
  schema : taskSchemaContestAware ≤ task.taskSchema
  slots : task.maxWorkers ≤ disputeSafeMaxWorkers
  exclusive : task.taskType = .Exclusive → task.maxWorkers = 1

/-- Both counters of submissions under review stand at `n`. -/
structure Counted (acc : TaskAccounts) (n : ℕ) : Prop where
  live : acc.task.liveSubmissions = n
  pending : ∀ config, acc.validation = some config → config.pendingSubmissionCount = n

/-- The open claims are those of `seated`, and each bears the time it was made. -/
structure Claimed (claims : Ledger Pubkey (Account TaskClaim)) (seated : Finset Pubkey) :
    Prop where
  seats : seated = Ledger.support (fun _ => True) claims
  stamped : ∀ k claim, claims.lookup k = some claim → 0 < claim.data.claimedAt

/-- The accounts of a task keep the roster `r`. -/
structure Tracks (acc : TaskAccounts) (r : Roster Pubkey) : Prop where
  claims : Claimed acc.claims r.seated
  waiting : r.waiting = acc.submitters
  workers : acc.task.currentWorkers = r.seated.card
  counted : Counted acc r.waiting.card

/-- A task that is neither finished nor frozen, by a dispute or by its creator. -/
def TaskStatus.isLive : TaskStatus → Bool
  | .Open | .InProgress | .PendingValidation => true
  | _ => false

/-- The status of a task goes by its roster. -/
structure Fits (task : Task) (r : Roster Pubkey) : Prop where
  capacity : r.seated.card ≤ task.maxWorkers
  unreviewed : isManualValidationTask task = false → r.waiting = ∅
  review : isManualValidationTask task = true → task.status.isLive = true →
    task.status = reviewStatus r.waiting.card r.seated.card
  direct : isManualValidationTask task = false → task.status.isLive = true →
    task.status = .InProgress ∨ task.status = .Open ∧ r.seated = ∅
  frozen : task.status = .RejectFrozen → r.waiting = ∅

/-! ## Counting -/

section Moves

variable {acc acc' : TaskAccounts} {r : Roster Pubkey} {k : Pubkey}

theorem SlotTerms.of_same {task task' : Task} (h : SlotTerms task) (hsame : SameTerms task task') :
    SlotTerms task' := by
  refine ⟨?_, ?_, fun htype => ?_⟩
  · rw [hsame.taskSchema]
    exact h.schema
  · rw [hsame.maxWorkers]
    exact h.slots
  · rw [hsame.maxWorkers]
    exact h.exclusive (hsame.taskType ▸ htype)

theorem SlotTerms.liveAfterLeaving {task : Task} (h : SlotTerms task) :
    task.liveAfterLeaving = task.liveSubmissions - 1 :=
  if_neg (Nat.not_lt.mpr h.schema)

theorem SlotTerms.liveAfterEntering {task : Task} (h : SlotTerms task) :
    task.liveAfterEntering = task.liveSubmissions + 1 :=
  if_neg (Nat.not_lt.mpr h.schema)

/-- Who has a claim is seated. -/
theorem Tracks.mem_seated (h : Tracks acc r) :
    k ∈ r.seated ↔ (acc.claims.lookup k).isSome = true := by
  rw [h.claims.seats]
  exact TaskAccounts.mem_claimants

theorem Tracks.seat (h : Tracks acc r) {claim : Account TaskClaim}
    (hclaim : acc.claims.lookup k = some claim) : k ∈ r.seated :=
  h.mem_seated.mpr (by rw [hclaim]; rfl)

/-- Who has a submission under review waits. -/
theorem Tracks.mem_waiting (h : Tracks acc r) {s : Account TaskSubmission}
    (hs : acc.submissions.lookup k = some s) : k ∈ r.waiting ↔ s.data.status = .Submitted := by
  rw [h.waiting]
  exact Ledger.mem_support_of_lookup hs

theorem Tracks.not_waiting (h : Tracks acc r)
    (hidle : ∀ s, acc.submissions.lookup k = some s → s.data.status ≠ .Submitted) :
    k ∉ r.waiting := by
  rw [h.waiting, Ledger.mem_support]
  rintro ⟨s, hs, hsubmitted⟩
  exact hidle s hs hsubmitted

/-- A submission that leaves review is counted off. -/
theorem Counted.erase {s : Finset Pubkey} (h : Counted acc s.card) (hk : k ∈ s)
    (hlive : acc'.task.liveSubmissions = acc.task.liveSubmissions - 1)
    (hpending : ∀ config', acc'.validation = some config' → ∃ config,
      acc.validation = some config ∧
        config'.pendingSubmissionCount = config.pendingSubmissionCount - 1) :
    Counted acc' (s.erase k).card := by
  rw [Finset.card_erase_of_mem hk]
  refine ⟨by rw [hlive, h.live], fun config' hconfig' => ?_⟩
  obtain ⟨config, hconfig, hcount⟩ := hpending config' hconfig'
  rw [hcount, h.pending config hconfig]

/-- What leaves the counters alone leaves them right. -/
theorem Counted.same {n : ℕ} (h : Counted acc n)
    (hlive : acc'.task.liveSubmissions = acc.task.liveSubmissions)
    (hpending : ∀ config', acc'.validation = some config' → ∃ config,
      acc.validation = some config ∧
        config'.pendingSubmissionCount = config.pendingSubmissionCount) : Counted acc' n := by
  refine ⟨hlive.trans h.live, fun config' hconfig' => ?_⟩
  obtain ⟨config, hconfig, hcount⟩ := hpending config' hconfig'
  rw [hcount, h.pending config hconfig]

/-- The counters after a claim ended, whose submission leaves review if it was there. -/
theorem Counted.leaves (h : Tracks acc r) (hf : Fits acc.task r) (ht : SlotTerms acc.task)
    {live : ℕ} (hlive : acc'.task.liveSubmissions = live)
    (hleaves : LeavesIfSubmitted (isManualValidationTask acc.task) acc.task.liveSubmissions
      acc.task.liveAfterLeaving (acc.submissions.lookup k) acc.validation live acc'.validation) :
    Counted acc' (r.waiting.erase k).card := by
  generalize hstored : acc.submissions.lookup k = stored at hleaves
  generalize hvalidation : acc'.validation = validation' at hleaves
  cases hleaves with
  | idle idle =>
    rw [Finset.erase_eq_of_notMem (h.not_waiting (hstored ▸ idle))]
    exact h.counted.same hlive fun config' hconfig' =>
      ⟨config', hvalidation ▸ hconfig', rfl⟩
  | @managed config submission loaded submitted reviewed configured pending =>
    have hwaits : k ∈ r.waiting := (h.mem_waiting (hstored.trans loaded)).mpr submitted
    refine h.counted.erase hwaits (hlive.trans ht.liveAfterLeaving) fun config' hconfig' => ?_
    rw [hvalidation] at hconfig'
    obtain rfl := Option.some.inj hconfig'
    exact ⟨config, configured, rfl⟩
  | unmanaged loaded submitted unreviewed =>
    have hwaits : k ∈ r.waiting := (h.mem_waiting (hstored.trans loaded)).mpr submitted
    rw [hf.unreviewed unreviewed] at hwaits
    cases hwaits

end Moves

namespace Claimed

variable {claims : Ledger Pubkey (Account TaskClaim)} {seated : Finset Pubkey} {k : Pubkey}
  {claim claim' : Account TaskClaim}

theorem erase (h : Claimed claims seated) (k : Pubkey) :
    Claimed (claims.erase k) (seated.erase k) := by
  refine ⟨by rw [Ledger.support_erase, ← h.seats], fun k' claim hclaim => ?_⟩
  rw [Ledger.lookup_erase_eq_ite] at hclaim
  split_ifs at hclaim
  exact h.stamped k' claim hclaim

theorem insert (h : Claimed claims seated) (hstamped : 0 < claim.data.claimedAt) :
    Claimed (claims.insert k claim) (insert k seated) := by
  refine ⟨by rw [Ledger.support_insert trivial, ← h.seats], fun k' claim₀ hclaim => ?_⟩
  rw [Ledger.lookup_insert_eq_ite] at hclaim
  split_ifs at hclaim
  · obtain rfl := Option.some.inj hclaim
    exact hstamped
  · exact h.stamped k' claim₀ hclaim

/-- Rewriting a claim keeps its seat. -/
theorem overwrite (h : Claimed claims seated) (hclaim : claims.lookup k = some claim)
    (hsame : claim'.data.claimedAt = claim.data.claimedAt) :
    Claimed (claims.insert k claim') seated := by
  have hmem : k ∈ seated := by
    rw [h.seats, Ledger.mem_support]
    exact ⟨claim, hclaim, trivial⟩
  have hstamped : 0 < claim'.data.claimedAt := by
    rw [hsame]
    exact h.stamped k claim hclaim
  have hnew := h.insert (k := k) hstamped
  rwa [Finset.insert_eq_of_mem hmem] at hnew

end Claimed

/-! ## The status -/

namespace Fits

variable {task task' : Task} {r r' : Roster Pubkey}

@[simp] theorem reviewStatus_ne_rejectFrozen (pending workers : ℕ) :
    reviewStatus pending workers ≠ .RejectFrozen := by
  unfold reviewStatus
  split_ifs <;> simp

/-- A reviewed task whose status was synchronised with its counters. -/
theorem of_review (capacity : r.seated.card ≤ task.maxWorkers)
    (manual : isManualValidationTask task = true)
    (status : task.status.isFinished ∨
      task.status = reviewStatus r.waiting.card r.seated.card) : Fits task r := by
  refine ⟨capacity, fun h => ?_, fun _ hlive => ?_, fun h => ?_, fun hfrozen => ?_⟩
  · rw [manual] at h
    cases h
  · rcases status with (hdone | hdone) | hstatus
    · rw [hdone] at hlive
      cases hlive
    · rw [hdone] at hlive
      cases hlive
    · exact hstatus
  · rw [manual] at h
    cases h
  · rcases status with (hdone | hdone) | hstatus
    · rw [hdone] at hfrozen
      cases hfrozen
    · rw [hdone] at hfrozen
      cases hfrozen
    · rw [hstatus] at hfrozen
      exact absurd hfrozen (reviewStatus_ne_rejectFrozen _ _)

/-- A task that is finished, disputed or frozen. -/
theorem of_settled (capacity : r.seated.card ≤ task.maxWorkers)
    (unreviewed : isManualValidationTask task = false → r.waiting = ∅)
    (settled : task.status.isLive = false)
    (frozen : task.status = .RejectFrozen → r.waiting = ∅) : Fits task r := by
  refine ⟨capacity, unreviewed, fun _ h => ?_, fun _ h => ?_, frozen⟩
  · rw [settled] at h
    cases h
  · rw [settled] at h
    cases h

/-- A task that is finished or disputed. -/
theorem of_not_live (capacity : r.seated.card ≤ task.maxWorkers)
    (unreviewed : isManualValidationTask task = false → r.waiting = ∅)
    (status : task.status.isFinished ∨ task.status = .Disputed) : Fits task r := by
  have hlive : task.status.isLive = false := by
    rcases status with (hdone | hdone) | hdone <;> rw [hdone] <;> rfl
  have hnot : task.status ≠ .RejectFrozen := by
    rcases status with (hdone | hdone) | hdone <;> rw [hdone] <;> decide
  exact of_settled capacity unreviewed hlive fun h => absurd h hnot

/-- Nobody takes a seat by leaving. -/
theorem capacity_leave (h : Fits task r) (k : Pubkey) :
    (r.leave k).seated.card ≤ task.maxWorkers :=
  (Finset.card_le_card (Finset.erase_subset k _)).trans h.capacity

theorem unreviewed_erase (h : Fits task r) (k : Pubkey)
    (hm : isManualValidationTask task = false) : r.waiting.erase k = ∅ := by
  rw [h.unreviewed hm, Finset.erase_empty]

end Fits

/-! ## Handlers -/

/-- What a handler may rely on: the roster is kept, the clock runs, and whoever has a seat has it
among its tasks. -/
structure Kept (c : TaskContext) (r : Roster Pubkey) : Prop where
  tracks : Tracks c.accounts r
  fits : Fits c.accounts.task r
  terms : SlotTerms c.accounts.task
  clock : 0 < c.sys.now
  active : c.workerKey ∈ r.seated → 1 ≤ c.worker.data.activeTasks

/-- A handler makes one move on the roster of its task, which is kept, and the worker's number of
tasks follows and stays within its limit. -/
def Seats (c c' : TaskContext) (r : Roster Pubkey) : Prop :=
  ∃ r', r.Move c.workerKey r' ∧ Tracks c'.accounts r' ∧ Fits c'.accounts.task r' ∧
    c'.worker.data.activeTasks + (if c.workerKey ∈ r.seated then 1 else 0) =
      c.worker.data.activeTasks + (if c.workerKey ∈ r'.seated then 1 else 0) ∧
    (c'.worker.data.activeTasks ≤ c.worker.data.activeTasks ∨
      c'.worker.data.activeTasks ≤ maxActiveTasks)

section Handlers

variable {c c' : TaskContext} {r : Roster Pubkey} {config : TaskValidationConfig}
  {payees : PayeeAccounts}

namespace Seats

/-- A handler that moves nobody's seat. -/
theorem of_same {r' : Roster Pubkey} (hmove : r.Move c.workerKey r')
    (hseated : r'.seated = r.seated) (htracks : Tracks c'.accounts r')
    (hfits : Fits c'.accounts.task r')
    (hactive : c'.worker.data.activeTasks = c.worker.data.activeTasks) : Seats c c' r :=
  ⟨r', hmove, htracks, hfits, by rw [hseated, hactive], .inl hactive.le⟩

theorem stay (htracks : Tracks c'.accounts r) (hfits : Fits c'.accounts.task r)
    (hactive : c'.worker.data.activeTasks = c.worker.data.activeTasks) : Seats c c' r :=
  .of_same (.stay r) rfl htracks hfits hactive

/-- A handler that ends the claim of its worker. -/
theorem leave (h : Kept c r) (hseat : c.workerKey ∈ r.seated)
    (htracks : Tracks c'.accounts (r.leave c.workerKey))
    (hfits : Fits c'.accounts.task (r.leave c.workerKey))
    (hactive : c'.worker.data.activeTasks = c.worker.data.activeTasks - 1) : Seats c c' r := by
  refine ⟨_, .leave hseat, htracks, hfits, ?_, .inl (by omega)⟩
  have hpos := h.active hseat
  have hgone : c.workerKey ∉ (r.leave c.workerKey).seated := Finset.notMem_erase _ _
  rw [if_pos hseat, if_neg hgone, hactive]
  omega

end Seats

/-- A worker whose claim ends takes its entry along. -/
theorem Kept.tracks_leave (h : Kept c r) (hseat : c.workerKey ∈ r.seated)
    (claims : c'.accounts.claims = c.accounts.claims.erase c.workerKey)
    (submitters : c'.accounts.submitters = c.accounts.submitters.erase c.workerKey)
    (workers : c'.accounts.task.currentWorkers = c.accounts.task.currentWorkers - 1)
    (counted : Counted c'.accounts (r.waiting.erase c.workerKey).card) :
    Tracks c'.accounts (r.leave c.workerKey) := by
  refine ⟨?_, ?_, ?_, counted⟩
  · rw [claims]
    exact h.tracks.claims.erase c.workerKey
  · rw [submitters, ← h.tracks.waiting]
    rfl
  · rw [workers, h.tracks.workers, r.card_seated_leave hseat]

/-- The worker of a submission under review. -/
theorem Kept.waits (h : Kept c r) {submission : Account TaskSubmission}
    (hr : UnderReview c config submission) : c.workerKey ∈ r.waiting :=
  (h.tracks.mem_waiting hr.stored).mpr hr.submitted

theorem Kept.pending (h : Kept c r) (hconfig : c.accounts.validation = some config) :
    config.pendingSubmissionCount = r.waiting.card :=
  h.tracks.counted.pending config hconfig

/-- The counters after the submission of the context's worker left review. -/
theorem Kept.counted_left (h : Kept c r) (hwaits : c.workerKey ∈ r.waiting)
    (hconfig : c.accounts.validation = some config)
    (live : c'.accounts.task.liveSubmissions = c.accounts.task.liveAfterLeaving)
    (validation : c'.accounts.validation = some { config with
      pendingSubmissionCount := config.pendingSubmissionCount - 1 }) :
    Counted c'.accounts (r.waiting.erase c.workerKey).card := by
  refine h.tracks.counted.erase hwaits (live.trans h.terms.liveAfterLeaving)
    fun config' hconfig' => ?_
  rw [validation] at hconfig'
  obtain rfl := Option.some.inj hconfig'
  exact ⟨config, hconfig, rfl⟩

theorem TouchesBids.seats (h : TouchesBids c c') (hk : Kept c r) : Seats c c' r := by
  obtain ⟨_, _, _, _, _, -, -, -, rfl⟩ := h
  obtain ⟨⟨hclaims, hwaiting, hworkers, hlive, hpending⟩, hfits, -⟩ := hk
  exact .stay ⟨hclaims, hwaiting, hworkers, hlive, hpending⟩ hfits rfl

/-- The status of a live task goes on being fitting when somebody takes a seat. -/
theorem Fits.enter {task task' : Task} {k : Pubkey} (h : Fits task r) (hfree : k ∉ r.seated)
    (hmanual : isManualValidationTask task' = isManualValidationTask task)
    (hslots : r.seated.card + 1 ≤ task'.maxWorkers)
    (hlive : task.status.isLive = true)
    (hstatus : task'.status = if task.status = .PendingValidation then .PendingValidation
      else .InProgress) : Fits task' (r.enter k) := by
  have hlive' : task'.status.isLive = true := by
    rw [hstatus]
    split_ifs <;> rfl
  refine ⟨?_, fun hm => ?_, fun hm _ => ?_, fun hm _ => ?_, fun hfrozen => ?_⟩
  · rw [r.card_seated_enter hfree]
    exact hslots
  · exact h.unreviewed (hmanual ▸ hm)
  · have hreview := h.review (hmanual ▸ hm) hlive
    rw [Roster.waiting_enter, r.card_seated_enter hfree, hstatus, hreview]
    unfold reviewStatus
    split_ifs with hpending hseated <;> simp_all
  · left
    have hnot : task.status ≠ .PendingValidation := by
      rcases h.direct (hmanual ▸ hm) hlive with hs | ⟨hs, -⟩ <;> rw [hs] <;> decide
    rw [hstatus, if_neg hnot]
  · rw [hfrozen] at hlive'
    cases hlive'

theorem Occupies.seats {expiresAt : ℤ} (h : Occupies c expiresAt c') (hk : Kept c r)
    (ha : Assignable c expiresAt) (hlive : c.accounts.task.status.isLive = true) :
    Seats c c' r := by
  obtain ⟨workers, status, lamports, claimGeneration, reputation, lastActive, bidBook', bids',
    bidder', rfl, hworkers, hstatus⟩ := h
  have hfree : c.workerKey ∉ r.seated := by
    intro hseat
    obtain ⟨claim, hclaim⟩ := Option.isSome_iff_exists.mp (hk.tracks.mem_seated.mp hseat)
    have hstamped := hk.tracks.claims.stamped _ _ hclaim
    have hblank := ha.unclaimed claim hclaim
    omega
  have hslots : r.seated.card + 1 ≤ c.accounts.task.maxWorkers := by
    have hlt := ha.slots
    rw [← hk.tracks.workers]
    omega
  refine ⟨r.enter c.workerKey, .enter hfree, ⟨hk.tracks.claims.insert hk.clock,
    hk.tracks.waiting, ?_, hk.tracks.counted.live, hk.tracks.counted.pending⟩,
    hk.fits.enter hfree rfl hslots hlive hstatus, ?_, .inr ha.tasks⟩
  · show workers = (r.enter c.workerKey).seated.card
    rw [hworkers, hk.tracks.workers, r.card_seated_enter hfree]
  · have hin : c.workerKey ∈ (r.enter c.workerKey).seated := Finset.mem_insert_self _ _
    rw [if_neg hfree, if_pos hin, Nat.add_zero]

/-- Submitting takes a seat in the waiting room. -/
theorem submitTaskResult_seats {signer : Pubkey} {proofHash : Hash} {resultData : Option ℕ}
    {prefunded : ℕ} (h : submitTaskResult c signer proofHash resultData prefunded = .ok c')
    (hk : Kept c r) : Seats c c' r := by
  obtain ⟨claim, config, submission, hclaim, hmanual, hconfig, -, -, hidle, hsubmitted, _, _,
    rfl⟩ := submitTaskResult_spec h
  have hseat := hk.tracks.seat hclaim
  have hwaits := hk.tracks.not_waiting hidle
  have hcard := r.card_waiting_submit hseat hwaits
  refine .of_same (.submit hseat hwaits) rfl ⟨hk.tracks.claims.overwrite hclaim rfl, ?_,
    hk.tracks.workers, ?_, fun config' hconfig' => ?_⟩ (.of_review hk.fits.capacity hmanual
    (.inr ?_)) rfl
  · rw [Roster.waiting_submit, hk.tracks.waiting]
    exact (Ledger.support_insert (p := IsSubmitted) hsubmitted).symm
  · rw [hcard]
    show c.accounts.task.liveAfterEntering = _
    rw [hk.terms.liveAfterEntering, hk.tracks.counted.live]
  · obtain rfl := Option.some.inj hconfig'
    rw [hcard]
    exact congrArg (· + 1) (hk.pending hconfig)
  · show TaskStatus.PendingValidation = _
    rw [reviewStatus, if_pos (by rw [hcard]; exact Nat.succ_pos _)]

/-- The status after the entry of the context's worker was decided and its claim closed. -/
theorem Kept.fits_decided (hk : Kept c r) {submission : Account TaskSubmission}
    (hr : UnderReview c config submission) {task' : Task}
    (hsame : SameTerms c.accounts.task task')
    (hmanual : isManualValidationTask task' = true)
    (hstatus : task'.status.isFinished ∨ task'.status =
      reviewStatus (config.pendingSubmissionCount - 1) (c.accounts.task.currentWorkers - 1)) :
    Fits task' (r.leave c.workerKey) := by
  have hwaits := hk.waits hr
  refine .of_review ?_ hmanual (hstatus.imp_right fun h => ?_)
  · rw [hsame.maxWorkers]
    exact hk.fits.capacity_leave c.workerKey
  · rw [h, hk.pending hr.validation, hk.tracks.workers, Roster.waiting_leave,
      Finset.card_erase_of_mem hwaits, r.card_seated_leave (r.subset hwaits)]

theorem PaysAccepted.seats {submission : Account TaskSubmission}
    (h : PaysAccepted c config payees c') (hr : UnderReview c config submission)
    (hk : Kept c r) : Seats c c' r := by
  obtain ⟨claim, stored, gross, price, escrow', vault', paidReward, book', bids', bidder',
    paidBid, votes', hclaim, -, -, -, -, -, -, -, -, completedAt, result, rated, tasksCompleted,
    totalEarned, reputation, completedTasks, totalValue, rfl⟩ := h
  have hseat := hk.tracks.seat hclaim
  refine .leave hk hseat (hk.tracks_leave hseat rfl (Ledger.support_erase _ _) rfl
    (hk.counted_left (hk.waits hr) hr.validation rfl rfl))
    (hk.fits_decided hr (.of_eq rfl rfl rfl) hr.manual ?_) rfl
  show (acceptedStatus c.accounts.task config).isFinished ∨ acceptedStatus _ _ = _
  rw [acceptedStatus_eq config hr.status]
  by_cases hdone : completesTask c.accounts.task = true
  · left
    rw [if_pos hdone]
    exact .inl rfl
  · right
    rw [if_neg hdone]

theorem RejectsClaim.seats {submission : Account TaskSubmission}
    (h : RejectsClaim c config c') (hr : UnderReview c config submission)
    (hk : Kept c r) : Seats c c' r := by
  obtain ⟨claim, submissions', votes', book', bids', bidder', paidBid, closings, hclaim, hsub, -,
    -, -, -, -, rfl⟩ := h
  have hseat := hk.tracks.seat hclaim
  have hgone : Ledger.support IsSubmitted submissions' =
      c.accounts.submitters.erase c.workerKey := by
    rcases hsub with rfl | ⟨rejected, hrejected, rfl⟩
    · exact Ledger.support_erase _ _
    · exact Ledger.support_insert_of_not (by rw [IsSubmitted, hrejected]; decide)
  refine .leave hk hseat (hk.tracks_leave hseat rfl hgone rfl
    (hk.counted_left (hk.waits hr) hr.validation rfl rfl))
    (hk.fits_decided hr (.of_eq rfl rfl rfl) hr.manual (.inr ?_)) rfl
  show syncedStatus c.accounts.task.status _ _ = _
  rw [syncedStatus, hr.status]
  rfl

/-- A worker asked for changes keeps its seat. -/
theorem requestChanges_seats {signer : Pubkey} {changesHash : Hash}
    (h : requestChanges c signer changesHash = .ok c') (hk : Kept c r) : Seats c c' r := by
  obtain ⟨config, submission, claim, rejected, minimum, hr, -, -, hclaim, hrejected, -, rfl⟩ :=
    requestChanges_spec h
  have hwaits := hk.waits hr
  refine .of_same (.retract r) rfl ⟨hk.tracks.claims.overwrite hclaim rfl, ?_, hk.tracks.workers,
    hk.counted_left hwaits hr.validation rfl rfl⟩ (.of_review hk.fits.capacity hr.manual
    (.inr ?_)) rfl
  · rw [Roster.waiting_retract, hk.tracks.waiting]
    exact (Ledger.support_insert_of_not (p := IsSubmitted)
      (by rw [IsSubmitted, hrejected]; decide)).symm
  · show syncedStatus c.accounts.task.status _ _ = _
    rw [syncedStatus, hr.status, Roster.waiting_retract, Finset.card_erase_of_mem hwaits,
      hk.pending hr.validation, hk.tracks.workers]
    rfl

theorem validateTaskResult_seats {reviewer : Pubkey}
    {validator : Option (Pubkey × AgentRegistration)} {approved : Bool}
    (h : validateTaskResult c reviewer validator approved = .ok c') (hk : Kept c r) :
    Seats c c' r := by
  obtain ⟨config, submission, hr, -, hpays | ⟨hrejects, -⟩ | ⟨voted, votes', hvoted, rfl⟩⟩ :=
    validateTaskResult_spec h
  · exact hpays.seats hr hk
  · exact hrejects.seats hr hk
  · refine .stay ⟨hk.tracks.claims, ?_, hk.tracks.workers, hk.tracks.counted.live,
      hk.tracks.counted.pending⟩ hk.fits rfl
    rw [hk.tracks.waiting]
    exact (Ledger.support_insert_same hr.stored (iff_of_true hvoted hr.submitted)).symm

/-- On an exclusive task only one worker can wait. -/
theorem rejectAndFreeze_seats {signer : Pubkey} {rejectionHash : Hash}
    (h : rejectAndFreeze c signer rejectionHash = .ok c') (hk : Kept c r) : Seats c c' r := by
  obtain ⟨config, submission, rejected, hr, htype, -, hrejected, -, rfl⟩ := rejectAndFreeze_spec h
  have hwaits := hk.waits hr
  have hsole : r.seated.card ≤ 1 := (hk.terms.exclusive htype) ▸ hk.fits.capacity
  have hempty : r.waiting.erase c.workerKey = ∅ := by
    refine Finset.eq_empty_of_forall_notMem fun j hj => ?_
    obtain ⟨hne, hj⟩ := Finset.mem_erase.mp hj
    exact hne (Finset.card_le_one.mp hsole j (r.subset hj) _ (r.subset hwaits))
  refine .of_same (.retract r) rfl ⟨hk.tracks.claims, ?_, hk.tracks.workers,
    hk.counted_left hwaits hr.validation rfl rfl⟩
    (.of_settled hk.fits.capacity (fun _ => hempty) rfl fun _ => hempty) rfl
  rw [Roster.waiting_retract, hk.tracks.waiting]
  exact (Ledger.support_insert_of_not (p := IsSubmitted)
    (by rw [IsSubmitted, hrejected]; decide)).symm

/-- A worker without a submission under review takes none along. -/
theorem Kept.counted_idle (hk : Kept c r) (hidle : c.workerKey ∉ r.waiting)
    (live : c'.accounts.task.liveSubmissions = c.accounts.task.liveSubmissions)
    (validation : c'.accounts.validation = c.accounts.validation) :
    Counted c'.accounts (r.waiting.erase c.workerKey).card := by
  rw [Finset.erase_eq_of_notMem hidle]
  exact hk.tracks.counted.same live fun config' hconfig' =>
    ⟨config', validation ▸ hconfig', rfl⟩

/-- Nobody waits on a frozen task. -/
theorem Kept.frozen (hk : Kept c r) (hfrozen : c.accounts.task.status = .RejectFrozen) :
    r.waiting.erase c.workerKey = ∅ := by
  rw [hk.fits.frozen hfrozen, Finset.erase_empty]

theorem PaysFrozen.seats {disposition : BondDisposition}
    (h : PaysFrozen c payees disposition c') (hk : Kept c r) : Seats c c' r := by
  obtain ⟨claim, stored, gross, escrow', vault', paidReward, hclaim, -, hfrozen, -, -, -, -, -,
    completedAt, result, rated, tasksCompleted, totalEarned, reputation, completedTasks,
    totalValue, rfl⟩ := h
  have hseat := hk.tracks.seat hclaim
  have hidle : c.workerKey ∉ r.waiting := by
    rw [hk.fits.frozen hfrozen]
    exact Finset.notMem_empty _
  refine .leave hk hseat (hk.tracks_leave hseat rfl (Ledger.support_erase _ _) rfl
    (hk.counted_idle hidle rfl rfl)) (.of_settled (hk.fits.capacity_leave _)
    (fun _ => hk.frozen hfrozen) ?_ fun _ => hk.frozen hfrozen) rfl
  show (if completesTask c.accounts.task = true then TaskStatus.Completed
    else c.accounts.task.status).isLive = false
  rw [hfrozen]
  split_ifs <;> rfl

theorem CancelsFrozen.seats (h : CancelsFrozen c c') (hk : Kept c r) : Seats c c' r := by
  obtain ⟨claim, stored, escrow, hclaim, -, hfrozen, -, -, -, -, rfl⟩ := h
  have hseat := hk.tracks.seat hclaim
  have hidle : c.workerKey ∉ r.waiting := by
    rw [hk.fits.frozen hfrozen]
    exact Finset.notMem_empty _
  exact .leave hk hseat (hk.tracks_leave hseat rfl (Ledger.support_erase _ _) rfl
    (hk.counted_idle hidle rfl rfl)) (.of_settled (hk.fits.capacity_leave _)
    (fun _ => hk.frozen hfrozen) rfl fun _ => hk.frozen hfrozen) rfl

theorem completeTask_seats {signer : Pubkey} {proofHash : Hash} {resultData : Option ℕ}
    (h : completeTask c signer proofHash resultData payees = .ok c') (hk : Kept c r) :
    Seats c c' r := by
  obtain ⟨claim, gross, price, escrow', vault', paidReward, book', bids', bidder', paidBid,
    hclaim, hstatus, hmanual, -, -, -, -, -, -, completedAt, result, rated, tasksCompleted,
    totalEarned, reputation, completedTasks, totalValue, rfl⟩ := completeTask_spec h
  have hseat := hk.tracks.seat hclaim
  have hempty := hk.fits.unreviewed hmanual
  have hidle : c.workerKey ∉ r.waiting := by
    rw [hempty]
    exact Finset.notMem_empty _
  have hwaiting : c.accounts.submitters = c.accounts.submitters.erase c.workerKey := by
    rw [← hk.tracks.waiting, Finset.erase_eq_of_notMem hidle]
  refine .leave hk hseat (hk.tracks_leave hseat rfl hwaiting rfl (hk.counted_idle hidle rfl rfl))
    ⟨hk.fits.capacity_leave _, fun _ => hk.fits.unreviewed_erase _ hmanual, fun hm => ?_,
      fun _ hlive => .inl ?_, fun _ => hk.fits.unreviewed_erase _ hmanual⟩ rfl
  · have hm : isManualValidationTask c.accounts.task = true := hm
    rw [hmanual] at hm
    cases hm
  · show (if completesTask c.accounts.task = true then TaskStatus.Completed
      else c.accounts.task.status) = .InProgress
    have hlive : (if completesTask c.accounts.task = true then TaskStatus.Completed
      else c.accounts.task.status).isLive = true := hlive
    by_cases hdone : completesTask c.accounts.task = true
    · rw [if_pos hdone] at hlive
      cases hlive
    · rw [if_neg hdone, hstatus]

/-- The submission of an expiring claim is not under review. -/
theorem Kept.idle_of_expiry (hk : Kept c r)
    (hstatus : c.accounts.task.status = .InProgress ∨ c.accounts.task.status = .PendingValidation)
    (hsub : c.accounts.task.status = .PendingValidation →
      ∀ s, c.accounts.submissions.lookup c.workerKey = some s → s.data.status ≠ .Submitted) :
    c.workerKey ∉ r.waiting := by
  rcases hstatus with hstatus | hstatus
  · have hempty : r.waiting = ∅ := by
      by_cases hm : isManualValidationTask c.accounts.task = true
      · have hreview := hk.fits.review hm (by rw [hstatus]; rfl)
        by_contra hne
        rw [hstatus, reviewStatus, if_pos (Finset.card_pos.mpr
          (Finset.nonempty_iff_ne_empty.mpr hne))] at hreview
        cases hreview
      · exact hk.fits.unreviewed (Bool.eq_false_iff.mpr hm)
    rw [hempty]
    exact Finset.notMem_empty _
  · exact hk.tracks.not_waiting (hsub hstatus)

theorem expireClaim_seats {caller : Pubkey} {withSubmission : Bool}
    (h : expireClaim c caller withSubmission = .ok c') (hk : Kept c r) : Seats c c' r := by
  obtain ⟨claim, escrow, reward, forfeited, book', bids', bidder', paidBid, bonds', paidBond,
    hclaim, -, -, hstatus, hsub, -, hvalidation, -, -, -, -, -, -, rfl⟩ := expireClaim_spec h
  have hseat := hk.tracks.seat hclaim
  have hidle := hk.idle_of_expiry hstatus hsub
  have hsubmitters : c.accounts.submitters = c.accounts.submitters.erase c.workerKey := by
    rw [← hk.tracks.waiting, Finset.erase_eq_of_notMem hidle]
  have hsame : r.waiting.erase c.workerKey = r.waiting := Finset.erase_eq_of_notMem hidle
  have hcard := r.card_seated_leave hseat
  refine .leave hk hseat (hk.tracks_leave hseat rfl hsubmitters rfl
    (hk.counted_idle hidle rfl rfl)) ?_ rfl
  by_cases hm : isManualValidationTask c.accounts.task = true
  · obtain ⟨config, hconfig⟩ := Option.isSome_iff_exists.mp (hvalidation hm)
    refine .of_review (hk.fits.capacity_leave _) hm (.inr ?_)
    show reopenedStatus _ _ _ _ = _
    unfold reopenedStatus
    rw [if_pos hm, hconfig, Roster.waiting_leave, hsame, hcard, ← hk.pending hconfig,
      ← hk.tracks.workers]
    rcases hstatus with hstatus | hstatus <;> rw [hstatus] <;> rfl
  · have hm' := Bool.eq_false_iff.mpr hm
    have hworking : c.accounts.task.status = .InProgress := by
      rcases hstatus with hstatus | hstatus
      · exact hstatus
      · rcases hk.fits.direct hm' (by rw [hstatus]; rfl) with h | ⟨h, -⟩ <;>
          exact absurd (hstatus.symm.trans h) (by decide)
    have hreopened : reopenedStatus (isManualValidationTask c.accounts.task) c.accounts.validation
        c.accounts.task.status (c.accounts.task.currentWorkers - 1) =
        if c.accounts.task.currentWorkers - 1 = 0 then .Open else .InProgress := by
      unfold reopenedStatus
      rw [if_neg hm, hworking]
      simp only [and_true]
    refine ⟨hk.fits.capacity_leave _, fun _ => hk.fits.unreviewed_erase _ hm',
      fun h => absurd h hm, fun _ _ => ?_, fun _ => hk.fits.unreviewed_erase _ hm'⟩
    show reopenedStatus _ _ _ _ = _ ∨ reopenedStatus _ _ _ _ = _ ∧ _
    rw [hreopened]
    by_cases hlast : c.accounts.task.currentWorkers - 1 = 0
    · right
      rw [if_pos hlast, ← Finset.card_eq_zero, hcard, ← hk.tracks.workers]
      exact ⟨rfl, hlast⟩
    · left
      rw [if_neg hlast]

theorem distributeGhostShare_seats (h : distributeGhostShare c payees = .ok c')
    (hk : Kept c r) : Seats c c' r := by
  obtain ⟨config, submission, claim, escrow, escrow', paidReward, hr, -, -, hclaim, -, -, -, -, -,
    -, -, -, -, completedAt, tasksCompleted, totalEarned, reputation, completedTasks, totalValue,
    rfl⟩ := distributeGhostShare_spec h
  have hseat := hk.tracks.seat hclaim
  have hlive : c.accounts.task.liveAfterLeaving = config.pendingSubmissionCount - 1 := by
    rw [hk.terms.liveAfterLeaving, hk.tracks.counted.live, hk.pending hr.validation]
  refine .leave hk hseat (hk.tracks_leave hseat rfl (Ledger.support_erase _ _) rfl
    (hk.counted_left (hk.waits hr) hr.validation rfl rfl))
    (hk.fits_decided hr (.of_eq rfl rfl rfl) hr.manual ?_) rfl
  show (if c.accounts.task.liveAfterLeaving = 0 then TaskStatus.Completed
    else c.accounts.task.status).isFinished ∨ (if _ then _ else _) = _
  rw [hlive, hr.status]
  by_cases hlast : config.pendingSubmissionCount - 1 = 0
  · rw [if_pos hlast]
    exact .inl (.inl rfl)
  · rw [if_neg hlast, reviewStatus, if_pos (Nat.pos_of_ne_zero hlast)]
    exact .inr rfl

theorem reclaimTerminalClaim_seats (h : reclaimTerminalClaim c = .ok c') (hk : Kept c r) :
    Seats c c' r := by
  obtain ⟨claim, live, validation', closings, hclaim, hdone, -, -, -, hleaves, -, rfl⟩ :=
    reclaimTerminalClaim_spec h
  have hseat := hk.tracks.seat hclaim
  exact .leave hk hseat (hk.tracks_leave hseat rfl (Ledger.support_erase _ _) rfl
    (.leaves hk.tracks hk.fits hk.terms rfl hleaves)) (.of_not_live (hk.fits.capacity_leave _)
    (hk.fits.unreviewed_erase _) (.inl hdone)) rfl

/-- Every handler on a worker makes one move on the roster. -/
theorem WorkOp.seats {w : World} {op : WorkOp} (h : op.run w c = .ok c') (hk : Kept c r) :
    Seats c c' r := by
  cases op with
  | claimTaskWithJobSpec signer prefunded =>
    obtain ⟨_, hassignable, -, -, hstatus, -, hoccupies⟩ := claimTaskWithJobSpec_spec h
    refine hoccupies.seats hk hassignable ?_
    rcases hstatus with hstatus | hstatus | hstatus
    · rw [hstatus]
      rfl
    · rw [hstatus]
      rfl
    · simp only [claimableDuringPendingValidation, Bool.and_eq_true, decide_eq_true_eq] at hstatus
      rw [hstatus.1.1]
      rfl
  | createBid signer terms prefunded => exact (createBid_spec h).touches.seats hk
  | updateBid signer terms => exact (updateBid_spec h).touches.seats hk
  | cancelBid signer => exact (cancelBid_spec h).touches.seats hk
  | expireBid => exact (expireBid_spec h).touches.seats hk
  | promoteBid => exact (promoteBid_spec h).touches.seats hk
  | demoteIneligibleBest => exact (demoteIneligibleBest_spec h).touches.seats hk
  | acceptBid signer expectedBidTermsHash prefunded =>
    obtain ⟨_, _, _, hassignable, -, hopen, -, hoccupies⟩ := acceptBid_spec h
    refine hoccupies.seats hk hassignable ?_
    rw [hopen]
    rfl
  | postWorkerBond signer prefunded =>
    have h : postCompletionBond c signer .Worker prefunded = .ok c' := h
    obtain ⟨_, -, -, -, -, -, -, -, -, rfl⟩ := postCompletionBond_spec h
    obtain ⟨⟨hclaims, hwaiting, hworkers, hlive, hpending⟩, hfits, -⟩ := hk
    exact .stay ⟨hclaims, hwaiting, hworkers, hlive, hpending⟩ hfits rfl
  | submitTaskResult signer proofHash resultData prefunded => exact submitTaskResult_seats h hk
  | acceptTaskResult signer payees =>
    obtain ⟨_, _, hr, -, -, -, hpays⟩ := acceptTaskResult_spec h
    exact hpays.seats hr hk
  | autoAcceptTaskResult payees =>
    obtain ⟨_, _, hr, -, -, hpays⟩ := autoAcceptTaskResult_spec h
    exact hpays.seats hr hk
  | rejectTaskResult signer rejectionHash =>
    obtain ⟨_, _, hr, -, -, -, hrejects⟩ := rejectTaskResult_spec h
    exact hrejects.seats hr hk
  | requestChanges signer changesHash => exact requestChanges_seats h hk
  | validateTaskResult reviewer validator approved => exact validateTaskResult_seats h hk
  | rejectAndFreeze signer rejectionHash => exact rejectAndFreeze_seats h hk
  | resolveRejectFrozen signers approveCompletion payees =>
    obtain ⟨_, hpays⟩ | hcancels := resolveRejectFrozen_spec h
    · exact hpays.seats hk
    · exact hcancels.seats hk
  | expireRejectFrozen payees => exact (expireRejectFrozen_spec h).seats hk
  | completeTask signer proofHash resultData payees => exact completeTask_seats h hk
  | expireClaim caller withSubmission => exact expireClaim_seats h hk
  | distributeGhostShare payees => exact distributeGhostShare_seats h hk
  | reclaimTerminalClaim => exact reclaimTerminalClaim_seats h hk

/-! ## Disputes -/

/-- A ruling against the worker keeps its seat for the slash, any other ends its claim. -/
theorem resolveDispute_seats {d d' : Dispute} {signer : Pubkey} {signers : List Pubkey}
    {assigned approved : Bool}
    (h : resolveDispute c d signer signers assigned approved payees = .ok (c', d'))
    (hk : Kept c r) : Seats c c' r := by
  obtain ⟨claim, escrow, escrow', vault', paidRuling, book', bids', bidder', paidBid, live,
    validation', closings, paidClaim, creatorSide, workerSide, -, -, hclaim, -, -, -, -, -, h⟩ :=
    resolveDispute_spec h
  obtain ⟨hleaves, -, -, completedAt, tasksCompleted, totalEarned, completedTasks, totalValue,
    votesFor, votesAgainst, -, -, rfl, -⟩ := h
  have hseat := hk.tracks.seat hclaim
  have hsubmitters := Ledger.support_erase (p := IsSubmitted) c.accounts.submissions c.workerKey
  have hpos : 1 ≤ c.accounts.task.currentWorkers := by
    rw [hk.tracks.workers]
    exact r.card_seated_pos hseat
  by_cases hlost : workerLostDispute approved d.resolutionType = true
  · refine .of_same (.retract r) rfl ⟨?_, ?_, ?_, .leaves hk.tracks hk.fits hk.terms rfl hleaves⟩
      (.of_not_live hk.fits.capacity (hk.fits.unreviewed_erase _)
        (.inl (rulingStatus_isFinished _ _))) (if_pos hlost)
    · show Claimed (if workerLostDispute approved d.resolutionType = true then c.accounts.claims
        else _) r.seated
      rw [if_pos hlost]
      exact hk.tracks.claims
    · rw [Roster.waiting_retract, hk.tracks.waiting]
      exact hsubmitters.symm
    · show c.accounts.task.currentWorkers - 1 + (if _ then 1 else 0) = r.seated.card
      rw [if_pos hlost, ← hk.tracks.workers]
      omega
  · refine .leave hk hseat (hk.tracks_leave hseat (if_neg hlost) hsubmitters ?_
      (.leaves hk.tracks hk.fits hk.terms rfl hleaves)) (.of_not_live (hk.fits.capacity_leave _)
      (hk.fits.unreviewed_erase _) (.inl (rulingStatus_isFinished _ _))) (if_neg hlost)
    show c.accounts.task.currentWorkers - 1 + (if _ then 1 else 0) = _
    rw [if_neg hlost, Nat.add_zero]

theorem expireDispute_seats {d d' : Dispute} (h : expireDispute c d = .ok (c', d'))
    (hk : Kept c r) : Seats c c' r := by
  obtain ⟨claim, escrow, escrow', vault', paidRefund, live, validation', closings, penalty, book',
    bids', bidder', paidBid, bonds', paidBond, -, -, hclaim, -, -, -, -, hleaves, -, -, -, -, rfl,
    -⟩ := expireDispute_spec h
  have hseat := hk.tracks.seat hclaim
  exact .leave hk hseat (hk.tracks_leave hseat rfl (Ledger.support_erase _ _) rfl
    (.leaves hk.tracks hk.fits hk.terms rfl hleaves)) (.of_not_live (hk.fits.capacity_leave _)
    (hk.fits.unreviewed_erase _) (.inl (.inr rfl))) rfl

theorem settleDisputeClaim_seats {d d' : Dispute} (h : settleDisputeClaim c d = .ok (c', d'))
    (hk : Kept c r) (hdone : c.accounts.task.status.isFinished) : Seats c c' r := by
  obtain ⟨claim, live, validation', closings, peersPending, status', lamports, -, -, -, -, hclaim,
    -, hleaves, -, -, -, -, rfl, -⟩ := settleDisputeClaim_spec h
  have hseat := hk.tracks.seat hclaim
  exact .leave hk hseat (hk.tracks_leave hseat rfl (Ledger.support_erase _ _) rfl
    (.leaves hk.tracks hk.fits hk.terms rfl hleaves)) (.of_not_live (hk.fits.capacity_leave _)
    (hk.fits.unreviewed_erase _) (.inl hdone)) rfl

/-- The slash ends the claim the ruling had kept. -/
theorem applyDisputeSlash_seats {d d' : Dispute} {withTokenAccounts : Bool}
    (h : applyDisputeSlash c d withTokenAccounts = .ok (c', d')) (hk : Kept c r)
    (hdone : c.accounts.task.status.isFinished) (hunapplied : d.slashApplied = false)
    (hidle : c.workerKey ∉ r.waiting) : Seats c c' r := by
  obtain ⟨claim, approved, slash, escrow', vault', paidReserve, workers, slashPending, reputation,
    asDefendant, activeTasks, lastActive, hclaim, -, -, -, -, -, -, -, -, happlies, -, rfl, -⟩ :=
    applyDisputeSlash_spec h
  obtain ⟨hworkers, -, hactive, -⟩ := happlies hunapplied
  have hseat := hk.tracks.seat hclaim
  have hsubmitters : c.accounts.submitters = c.accounts.submitters.erase c.workerKey := by
    rw [← hk.tracks.waiting, Finset.erase_eq_of_notMem hidle]
  exact .leave hk hseat (hk.tracks_leave hseat rfl hsubmitters hworkers
    (hk.counted_idle hidle rfl rfl)) (.of_not_live (hk.fits.capacity_leave _)
    (hk.fits.unreviewed_erase _) (.inl hdone)) hactive

/-- A withdrawn dispute leaves everybody seated, and gives the task back its status. -/
theorem cancelDispute_seats {d d' : Dispute} {signer : Pubkey}
    (h : cancelDispute c d signer = .ok (c', d')) (hk : Kept c r) : Seats c c' r := by
  obtain ⟨status, validation', -, -, hstatus, hvalidation, -, rfl, -⟩ := cancelDispute_spec h
  refine .stay ⟨hk.tracks.claims, hk.tracks.waiting, hk.tracks.workers,
    hk.tracks.counted.same rfl fun config' hconfig' => ?_⟩ ?_ rfl
  · rcases hvalidation with rfl | ⟨config, debt, hconfig, rfl⟩
    · exact ⟨config', hconfig', rfl⟩
    · obtain rfl := Option.some.inj hconfig'
      exact ⟨config, hconfig, rfl⟩
  · by_cases hdisputed : c.accounts.task.status = .Disputed
    · rw [if_pos hdisputed, hk.tracks.counted.live, hk.tracks.workers] at hstatus
      have hreview : status = reviewStatus r.waiting.card r.seated.card := hstatus
      refine ⟨hk.fits.capacity, hk.fits.unreviewed, fun _ _ => hreview, fun hm _ => ?_,
        fun hfrozen => ?_⟩
      · show status = _ ∨ status = _ ∧ _
        rw [hreview, hk.fits.unreviewed hm, Finset.card_empty, reviewStatus,
          if_neg (lt_irrefl 0)]
        by_cases hseated : 0 < r.seated.card
        · rw [if_pos hseated]
          exact .inl rfl
        · rw [if_neg hseated]
          exact .inr ⟨rfl, Finset.card_eq_zero.mp (Nat.eq_zero_of_not_pos hseated)⟩
      · have hfrozen : status = .RejectFrozen := hfrozen
        rw [hreview] at hfrozen
        exact absurd hfrozen (Fits.reviewStatus_ne_rejectFrozen _ _)
    · rw [if_neg hdisputed] at hstatus
      rw [hstatus]
      exact ⟨hk.fits.capacity, hk.fits.unreviewed, hk.fits.review, hk.fits.direct, hk.fits.frozen⟩

end Handlers

/-! ## Tasks -/

/-- The accounts of a task keep the roster `r`, and its status and slots agree with it. -/
structure Staffed (acc : TaskAccounts) (r : Roster Pubkey) : Prop where
  tracks : Tracks acc r
  fits : Fits acc.task r
  terms : SlotTerms acc.task

section Tasks

variable {acc acc' : TaskAccounts} {c c' : TaskContext} {r : Roster Pubkey}

/-- A donation moves nobody. -/
theorem Credits.staffed {key : Pubkey} {amount : ℕ} {target : Custody}
    (h : Credits key amount acc target acc') (hs : Staffed acc r) : Staffed acc' r := by
  obtain ⟨⟨hclaims, hwaiting, hworkers, hlive, hpending⟩, hfits, hterms⟩ := hs
  cases h with
  | claim loaded =>
    exact ⟨⟨hclaims.overwrite loaded rfl, hwaiting, hworkers, hlive, hpending⟩, hfits, hterms⟩
  | submission loaded =>
    refine ⟨⟨hclaims, ?_, hworkers, hlive, hpending⟩, hfits, hterms⟩
    rw [hwaiting]
    refine (Ledger.support_insert_same (p := IsSubmitted) loaded ?_).symm
    exact Iff.rfl
  | _ => exact ⟨⟨hclaims, hwaiting, hworkers, hlive, hpending⟩, hfits, hterms⟩

/-- A new task has nobody on it. -/
theorem FreshAccounts.staffed {w : World} (h : FreshAccounts w acc) :
    Staffed acc Roster.vacant := by
  refine ⟨⟨⟨?_, fun k claim hclaim => ?_⟩, ?_, h.task.workers, h.task.live, fun config hconfig => ?_⟩,
    ⟨Nat.zero_le _, fun _ => rfl, fun _ _ => h.task.status, fun _ _ => .inr ⟨h.task.status, rfl⟩,
      fun _ => rfl⟩, ⟨h.task.schema.ge, h.task.slots.2, h.task.exclusive⟩⟩
  · rw [h.claims]
    exact Ledger.support_empty.symm
  · rw [h.claims] at hclaim
    cases hclaim
  · rw [TaskAccounts.submitters, h.submissions]
    exact Ledger.support_empty.symm
  · rcases h.review with ⟨-, hnone⟩ | ⟨-, -, config', hconfig', hpending, -⟩
    · rw [hnone] at hconfig
      cases hconfig
    · obtain rfl := Option.some.inj (hconfig.symm.trans hconfig')
      exact hpending

/-- The handlers without a worker move nobody; review is configured before anybody has a seat. -/
theorem TaskOp.staffed {op : TaskOp} (h : op.run c = .ok c') (hs : Staffed c.accounts r) :
    Staffed c'.accounts r := by
  obtain ⟨⟨hclaims, hwaiting, hworkers, hlive, hpending⟩, hfits, hterms⟩ := hs
  cases op with
  | configureTaskValidation signer mode reviewWindowSecs validatorQuorum attestor =>
    obtain ⟨config, hopen, hidle, -, -, hzero, rfl⟩ := configureTaskValidation_spec h
    have hseated : r.seated = ∅ := Finset.card_eq_zero.mp (hworkers.symm.trans hidle)
    have hempty : r.waiting = ∅ := Finset.subset_empty.mp (hseated ▸ r.subset)
    refine ⟨⟨hclaims, hwaiting, hworkers, hlive, fun config' hconfig' => ?_⟩,
      .of_review hfits.capacity (decide_eq_true rfl) (.inr ?_), ⟨hterms.schema, hterms.slots,
        hterms.exclusive⟩⟩
    · obtain rfl := Option.some.inj hconfig'
      rw [hzero, hempty, Finset.card_empty]
    · rw [hempty, hseated]
      exact hopen
  | setTaskJobSpec signer jobSpecHash =>
    obtain ⟨_, -, rfl⟩ := setTaskJobSpec_spec h
    exact ⟨⟨hclaims, hwaiting, hworkers, hlive, hpending⟩, hfits, hterms⟩
  | initializeBidBook signer policy weights =>
    obtain ⟨_, _, -, -, -, -, rfl⟩ := initializeBidBook_spec h
    exact ⟨⟨hclaims, hwaiting, hworkers, hlive, hpending⟩, hfits, hterms⟩
  | postCreatorBond signer prefunded =>
    have h : postCompletionBond c signer .Creator prefunded = .ok c' := h
    obtain ⟨_, -, -, -, -, -, -, -, -, rfl⟩ := postCompletionBond_spec h
    exact ⟨⟨hclaims, hwaiting, hworkers, hlive, hpending⟩, hfits, hterms⟩
  | reclaimCompletionBond party role =>
    obtain ⟨-, rfl⟩ := reclaimCompletionBond_spec h
    exact ⟨⟨hclaims, hwaiting, hworkers, hlive, hpending⟩, hfits, hterms⟩

/-- Nobody waits on a task that is open or being worked on. -/
theorem Staffed.unreviewed (hs : Staffed acc r)
    (hstatus : acc.task.status = .Open ∨ acc.task.status = .InProgress) : r.waiting = ∅ := by
  by_cases hm : isManualValidationTask acc.task = true
  · have hlive : acc.task.status.isLive = true := by
      rcases hstatus with hs | hs <;> rw [hs] <;> rfl
    have hreview := hs.fits.review hm hlive
    by_contra hne
    rw [reviewStatus, if_pos (Finset.card_pos.mpr (Finset.nonempty_iff_ne_empty.mpr hne))]
      at hreview
    rcases hstatus with hs | hs <;> rw [hs] at hreview <;> cases hreview
  · exact hs.fits.unreviewed (Bool.eq_false_iff.mpr hm)

/-- The workers a cancellation lists are all there are. -/
theorem Staffed.listed (hs : Staffed acc r) {workers : List Pubkey} (hnodup : workers.Nodup)
    (hall : workers.length = acc.task.currentWorkers)
    (hclaims : ∀ k ∈ workers, (acc.claims.lookup k).isSome = true) {k : Pubkey} :
    k ∈ workers ↔ k ∈ r.seated := by
  have hsub : workers.toFinset ⊆ r.seated := fun j hj =>
    hs.tracks.mem_seated.mpr (hclaims j (List.mem_toFinset.mp hj))
  have hcard : r.seated.card ≤ workers.toFinset.card := by
    rw [List.toFinset_card_of_nodup hnodup, hall, hs.tracks.workers]
  rw [← List.mem_toFinset, Finset.eq_of_subset_of_card_le hsub hcard]

/-- A cancellation empties the task. -/
theorem cancelTask_staffed {agents agents' : Ledger Pubkey (Account AgentRegistration)}
    {signer : Pubkey} {workers : List Pubkey} {workerBondAuthority : Pubkey} {withParent : Bool}
    (h : cancelTask c agents signer workers workerBondAuthority withParent = .ok (c', agents'))
    (hs : Staffed c.accounts r) :
    Staffed c'.accounts Roster.vacant ∧ (∀ k, k ∈ workers ↔ k ∈ r.seated) ∧
      ∀ k, agents'.lookup k = if k ∈ workers then
        (agents.lookup k).map fun a => { a with data := { a.data with
          activeTasks := a.data.activeTasks - 1 } } else agents.lookup k := by
  obtain ⟨escrow, vault', paidRefund, book', bids', bidder', penalty, paidBid, workerKey, claims',
    paidClaims, bonds', paidBond, -, hstatus, -, hall, hnodup, hclaims, -, hclosed, hagents, -, -,
    -, -, -, -, -, -, rfl⟩ := cancelTask_spec h
  have hlisted {k : Pubkey} := hs.listed hnodup hall hclaims (k := k)
  have hempty := hs.unreviewed (hstatus.imp_right And.left)
  have hgone : ∀ k, claims'.lookup k = none := by
    intro k
    rw [hclosed]
    split_ifs with hk
    · rfl
    · rw [hlisted, hs.tracks.mem_seated, Bool.not_eq_true, Option.isSome_eq_false_iff,
        Option.isNone_iff_eq_none] at hk
      exact hk
  refine ⟨⟨⟨⟨?_, fun k claim hclaim => ?_⟩, ?_, rfl, ?_⟩, .of_not_live (Nat.zero_le _)
    (fun _ => rfl) (.inl (.inr rfl)), ⟨hs.terms.schema, hs.terms.slots, hs.terms.exclusive⟩⟩,
    fun _ => hlisted, hagents⟩
  · refine (Finset.eq_empty_of_forall_notMem fun k hk => ?_).symm
    obtain ⟨claim, hclaim, -⟩ := Ledger.mem_support.mp hk
    rw [hgone] at hclaim
    cases hclaim
  · rw [hgone] at hclaim
    cases hclaim
  · rw [Roster.waiting_vacant, ← hempty, hs.tracks.waiting]
  · rw [Roster.waiting_vacant, ← hempty]
    exact hs.tracks.counted.same rfl fun config' hconfig' => ⟨config', hconfig', rfl⟩

/-- The creator's clean-up finds nobody on the task. -/
theorem closeTask_staffed {agents : Ledger Pubkey (Account AgentRegistration)} {signer : Pubkey}
    {withJobSpec withEscrow : Bool} {workerBond : Option Pubkey} {children : List TaskChild}
    (h : closeTask c agents signer withJobSpec withEscrow workerBond children = .ok c')
    (hs : Staffed c.accounts r) : Staffed c'.accounts r := by
  obtain ⟨escrow', paidEscrow, jobSpec', submissions', validation', attestor', ts, hdone, hidle, -,
    -, hkept, -, hvalidation, -, rfl⟩ := closeTask_spec h
  have hseated : r.seated = ∅ := Finset.card_eq_zero.mp (hs.tracks.workers.symm.trans hidle)
  have hempty : r.waiting = ∅ := Finset.subset_empty.mp (hseated ▸ r.subset)
  refine ⟨⟨hs.tracks.claims, ?_, hs.tracks.workers, hs.tracks.counted.same rfl
    fun config' hconfig' => ⟨config', ?_, rfl⟩⟩, hs.fits, hs.terms⟩
  · rw [hempty]
    refine (Finset.eq_empty_of_forall_notMem fun k hk => ?_).symm
    obtain ⟨s, hs', hsubmitted⟩ := Ledger.mem_support.mp hk
    have hwaits := (hs.tracks.mem_waiting (hkept k s hs')).mpr hsubmitted
    rw [hempty] at hwaits
    cases hwaits
  · rcases hvalidation with rfl | rfl
    · exact hconfig'
    · cases hconfig'

/-- A dispute moves nobody, and freezes the task. -/
theorem Staffed.dispute (hs : Staffed acc r) :
    Staffed { acc with task := { acc.task with status := .Disputed } } r := by
  obtain ⟨⟨hclaims, hwaiting, hworkers, hlive, hpending⟩, hfits, hterms⟩ := hs
  exact ⟨⟨hclaims, hwaiting, hworkers, hlive, hpending⟩,
    .of_not_live hfits.capacity hfits.unreviewed (.inr rfl),
    ⟨hterms.schema, hterms.slots, hterms.exclusive⟩⟩

end Tasks

end AgencCoordination
