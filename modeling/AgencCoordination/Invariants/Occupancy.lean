import AgencCoordination.Invariants.Seats

/-!
# Occupancy

How many work on a task and on how many tasks an agent works are kept in counters on both sides.
Over any run the counter of a task is the size of its roster, and the counter of an agent is the
number of tasks that have it on their roster.

* **`SeatStep`** — every step changes the roster of at most one task, and the counters with it.
* **`Occupancy`** — what every reachable world keeps about rosters and counters.
* **`submission_accounting`** — the counters and the status of a task under review.
* **`claim_accounting`** — the counters of open claims, on the side of the tasks and of the agents.
-/

namespace AgencCoordination

open Foundations

/-! ## Steps -/

/-- The tasks on which `k` has an open claim. -/
def openClaims (w : World) (k : Pubkey) : Finset Pubkey :=
  Ledger.support (fun acc : TaskAccounts => (acc.claims.lookup k).isSome = true) w.tasks

/-- The number of tasks an agent works on, as its registration has it. -/
abbrev activeTasksOf : World → Pubkey → ℕ := counterOf AgentRegistration.activeTasks

/-- How a step changes rosters, and the counters of the agents with them: not at all, by a new
task, or by what happens on one task. -/
inductive SeatStep (w w' : World) : Prop
  | same (tasks : w'.tasks = w.tasks)
      (active : ∀ k, activeTasksOf w' k = activeTasksOf w k) : SeatStep w w'
  | created {key : Pubkey} {acc' : TaskAccounts} (new : w.tasks.lookup key = none)
      (tasks : w'.tasks = w.tasks.insert key acc') (staffed : Staffed acc' Roster.vacant)
      (active : ∀ k, activeTasksOf w' k = activeTasksOf w k) : SeatStep w w'
  | moved {key : Pubkey} {acc acc' : TaskAccounts} {r r' : Roster Pubkey}
      (loaded : w.tasks.lookup key = some acc) (tasks : w'.tasks = w.tasks.insert key acc')
      (before : Staffed acc r) (after : Staffed acc' r')
      (active : ∀ k, activeTasksOf w' k + (if k ∈ r.seated then 1 else 0) =
        activeTasksOf w k + if k ∈ r'.seated then 1 else 0)
      (limit : ∀ k, activeTasksOf w' k ≤ activeTasksOf w k ∨ activeTasksOf w' k ≤ maxActiveTasks) :
      SeatStep w w'

/-- The defendant of a dispute that ended its task has nothing under review there. -/
def SweptBy (w : World) (d : Dispute) : Prop :=
  d.hasEnded → ∀ acc, w.tasks.lookup d.task = some acc → d.defendant ∉ acc.submitters

/-- What every reachable world keeps about rosters and counters. -/
structure Occupancy (w : World) : Prop where
  clock : 0 < w.sys.now
  tasks : ∀ key acc, w.tasks.lookup key = some acc → ∃ r, Staffed acc r
  active : ∀ k, activeTasksOf w k = (openClaims w k).card
  limit : ∀ k, activeTasksOf w k ≤ maxActiveTasks
  swept : ∀ key d, w.disputes.lookup key = some d → SweptBy w d

section Steps

variable {w w' : World} {key k : Pubkey} {acc : TaskAccounts} {r : Roster Pubkey}
  {agent : Account AgentRegistration}

/-- A claim of `k` is among the open claims. -/
theorem mem_openClaims (hacc : w.tasks.lookup key = some acc) (hs : Staffed acc r) :
    key ∈ openClaims w k ↔ k ∈ r.seated := by
  rw [openClaims, Ledger.mem_support_of_lookup hacc, hs.tracks.mem_seated]

/-- What a handler on one worker may rely on. -/
theorem Occupancy.kept (h : Occupancy w) (hacc : w.tasks.lookup key = some acc)
    (hs : Staffed acc r) (hagent : w.agents.lookup k = some agent) :
    Kept (w.workContext key acc k agent) r := by
  refine ⟨hs.tracks, hs.fits, hs.terms, h.clock, fun hseat => ?_⟩
  have hopen : key ∈ openClaims w k := (mem_openClaims hacc hs).mpr hseat
  have hcount := h.active k
  rw [activeTasksOf, counterOf_of_lookup hagent] at hcount
  show 1 ≤ agent.data.activeTasks
  rw [hcount]
  exact Finset.card_pos.mpr ⟨key, hopen⟩

/-- A move of one worker on one task. -/
theorem Seats.step {c' : TaskContext} (h : Seats (w.workContext key acc k agent) c' r)
    (hacc : w.tasks.lookup key = some acc) (hs : Staffed acc r)
    (hagent : w.agents.lookup k = some agent) (htasks : w'.tasks = w.tasks.insert key c'.accounts)
    (hagents : w'.agents = w.agents.insert k c'.worker)
    (hterms : SameTerms acc.task c'.accounts.task) : SeatStep w w' := by
  obtain ⟨r', hmove, htracks, hfits, hactive, hlimit⟩ := h
  refine .moved hacc htasks hs ⟨htracks, hfits, hs.terms.of_same hterms⟩ (fun j => ?_) fun j => ?_
  · rw [activeTasksOf, counterOf_insert hagents]
    by_cases hj : j = k
    · subst hj
      rw [if_pos rfl, counterOf_of_lookup hagent]
      exact hactive
    · rw [if_neg hj, if_congr (hmove.seated_iff hj) rfl rfl]
  · rw [activeTasksOf, counterOf_insert hagents]
    by_cases hj : j = k
    · subst hj
      rw [if_pos rfl, counterOf_of_lookup hagent]
      exact hlimit
    · rw [if_neg hj]
      exact .inl le_rfl

/-- A step that moves nobody on the task it is about. -/
theorem SeatStep.of_stay {acc' : TaskAccounts} (hacc : w.tasks.lookup key = some acc)
    (htasks : w'.tasks = w.tasks.insert key acc') (hs : Staffed acc r) (hs' : Staffed acc' r)
    (hactive : ∀ k, activeTasksOf w' k = activeTasksOf w k) : SeatStep w w' :=
  .moved hacc htasks hs hs' (fun k => by rw [hactive]) fun k => .inl (hactive k).le

/-- A cancellation frees the listed workers. -/
theorem SeatStep.of_cancel {acc' : TaskAccounts} {workers : List Pubkey} (h : Occupancy w)
    (hacc : w.tasks.lookup key = some acc) (htasks : w'.tasks = w.tasks.insert key acc')
    (hs : Staffed acc r) (hs' : Staffed acc' Roster.vacant)
    (hlisted : ∀ k, k ∈ workers ↔ k ∈ r.seated)
    (hagents : ∀ k, w'.agents.lookup k = if k ∈ workers then
      (w.agents.lookup k).map fun a => { a with data := { a.data with
        activeTasks := a.data.activeTasks - 1 } } else w.agents.lookup k) : SeatStep w w' := by
  have hcount : ∀ k, activeTasksOf w' k =
      if k ∈ r.seated then activeTasksOf w k - 1 else activeTasksOf w k := by
    intro k
    rw [activeTasksOf, counterOf, hagents, counterOf, if_congr (hlisted k) rfl rfl]
    split_ifs
    · cases w.agents.lookup k with
      | none => rfl
      | some agent => rfl
    · rfl
  refine .moved hacc htasks hs hs' (fun k => ?_) fun k => .inl ?_
  · have hnobody : k ∉ (Roster.vacant : Roster Pubkey).seated := Finset.notMem_empty k
    rw [hcount, if_neg hnobody]
    by_cases hseat : k ∈ r.seated
    · have hopen : key ∈ openClaims w k := (mem_openClaims hacc hs).mpr hseat
      have hpos : 0 < activeTasksOf w k := by
        rw [h.active]
        exact Finset.card_pos.mpr ⟨key, hopen⟩
      rw [if_pos hseat, if_pos hseat]
      omega
    · rw [if_neg hseat, if_neg hseat]
  · rw [hcount]
    split_ifs
    · exact Nat.sub_le _ _
    · exact le_rfl

/-- The handlers of a dispute. -/
theorem DisputeOp.seats {op : DisputeOp} {d d' : Dispute} {c : TaskContext}
    (h : op.run w (w.workContext key acc k agent) d = .ok (c, d'))
    (hk : Kept (w.workContext key acc k agent) r) (hacc : w.tasks.lookup key = some acc)
    (hinv : DisputeInv w d) (habout : d.task = key) (hswept : SweptBy w d) :
    Seats (w.workContext key acc k agent) c r := by
  subst habout
  obtain ⟨acc', hacc', hended⟩ := hinv.task
  obtain rfl := Option.some.inj (hacc'.symm.trans hacc)
  cases op with
  | cancelDispute signer => exact cancelDispute_seats h hk
  | resolveDispute signer signers withAssignment approved payees => exact resolveDispute_seats h hk
  | expireDispute => exact expireDispute_seats h hk
  | settleDisputeClaim =>
    obtain ⟨_, _, _, _, _, _, _, hpending, -⟩ := settleDisputeClaim_spec h
    exact settleDisputeClaim_seats h hk (hended (.inr (.inr hpending))).1
  | applyDisputeSlash withTokenAccounts =>
    obtain ⟨hlost, hunapplied⟩ := slash_threatens h hinv hacc
    obtain ⟨_, _, _, _, _, _, _, _, _, _, _, _, -, hdefendant, hresolved, -⟩ :=
      applyDisputeSlash_spec h
    refine applyDisputeSlash_seats h hk (hended (.inl hresolved)).1 hunapplied ?_
    rw [hk.tracks.waiting, hdefendant]
    exact hswept (.inl hresolved) _ hacc

/-- Every step changes rosters and counters together. -/
theorem Step.seats {i : Instruction} {ts : List Transfer} (h : Step w (i, ts) w')
    (ho : Occupancy w) (hdisputes : ∀ key d, w.disputes.lookup key = some d → DisputeInv w d) :
    SeatStep w w' := by
  cases h.does with
  | ticked later => exact .same rfl fun _ => rfl
  | donatedAgent outside credits => exact .same rfl fun _ => counterOf_donated credits
  | donatedTask inside loaded credits =>
    obtain ⟨r, hs⟩ := ho.tasks _ _ loaded
    exact .of_stay loaded rfl hs (credits.staffed hs) fun _ => rfl
  | administered ran =>
    have hspec := AdminOp.run_spec ran
    exact .same hspec.tasks fun _ => counterOf_congr hspec.agents
  | agent ran =>
    have hwrites := (AgentOp.run_spec ran).1
    refine .same ?_ fun _ => counterOf_written hwrites (fun _ hfresh => hfresh.active)
      (fun _ _ hsame => hsame.activeTasks) fun _ _ hretires => hretires.activeTasks
    obtain ⟨_, _, -, rfl⟩ := hwrites
    rfl
  | created ran =>
    obtain ⟨hnew, _, _, _, _, hfresh, rfl⟩ := CreateOp.run_spec ran
    exact .created hnew rfl hfresh.staffed fun _ => rfl
  | task loaded ran =>
    obtain ⟨r, hs⟩ := ho.tasks _ _ loaded
    refine .of_stay loaded ?_ hs (TaskOp.staffed ran hs) fun _ => rfl
    rw [World.storeTask_tasks, (TaskOp.run_frames ran).key]
    rfl
  | work loaded found ran rent =>
    obtain ⟨r, hs⟩ := ho.tasks _ _ loaded
    have hframes := WorkOp.run_frames ran
    refine (WorkOp.seats ran (ho.kept loaded hs found)).step loaded hs found ?_ ?_ hframes.terms
    · rw [World.storeWork_tasks, hframes.key]
      rfl
    · rw [World.storeWork_agents, hframes.workerKey]
      rfl
  | cancelled loaded listed ran =>
    obtain ⟨r, hs⟩ := ho.tasks _ _ loaded
    obtain ⟨hkey, hbase, -⟩ := listed_context listed
    obtain ⟨hs', hlisted, hagents⟩ := cancelTask_staffed ran (hbase ▸ hs)
    refine .of_cancel ho loaded ?_ hs hs' hlisted fun k => ?_
    · rw [World.storeTask_tasks, World.storeBidder_tasks, (cancelTask_frames ran).key, hkey]
    · rw [World.storeTask_agents, World.storeBidder_agents]
      exact hagents k
  | closed loaded ran =>
    obtain ⟨r, hs⟩ := ho.tasks _ _ loaded
    refine .of_stay loaded ?_ hs (closeTask_staffed ran hs) fun _ => rfl
    rw [World.storeTask_tasks, (closeTask_frames ran).key]
    rfl
  | disputed ran =>
    obtain ⟨acc, agents', _, d, -, hacc, -, -, -, -, -, -, -, -, hcounts, rfl⟩ :=
      initiateDispute_spec ran
    obtain ⟨r, hs⟩ := ho.tasks _ _ hacc
    refine .of_stay hacc rfl hs hs.dispute fun k => ?_
    show activeTasksOf _ k = activeTasksOf w k + 0
    exact counterOf_opened rfl hcounts
      (fun agent agent' ha ha' => (hcounts.same k agent agent' ha ha').2.2.1) fun _ => rfl
  | ruled loaded found filed about ran rent =>
    obtain ⟨r, hs⟩ := ho.tasks _ _ loaded
    have hframes := (DisputeOp.run_frames ran).1
    refine (DisputeOp.seats ran (ho.kept loaded hs found) loaded (hdisputes _ _ filed) about
      (ho.swept _ _ filed)).step loaded hs found ?_ ?_ hframes.terms
    · show (w.storeWork _).tasks = _
      rw [World.storeWork_tasks, hframes.key]
      rfl
    · show (w.storeWork _).agents = _
      rw [World.storeWork_agents, hframes.workerKey]
      rfl
  | finalized ran =>
    obtain ⟨_, agent, _, _, -, hagent, -, -, -, -, -, -, -, rfl⟩ := applyInitiatorSlash_spec ran
    exact .same rfl fun _ => counterOf_insert_same rfl hagent rfl
  | repaired ran =>
    obtain ⟨_, agent, -, hagent, -, -, -, -, rfl⟩ := repairDisputeInitiatorCounter_spec ran
    exact .same rfl fun _ => counterOf_insert_same rfl hagent rfl

end Steps

/-! ## Swept disputes -/

section Swept

variable {w w' : World} {key k : Pubkey} {acc acc' : TaskAccounts} {i : Instruction}
  {ts : List Transfer} {d d' : Dispute}

/-- Nothing enters review on a finished task. -/
theorem FinishedMove.submitters (h : FinishedMove w key acc i acc' ts)
    (hk : k ∉ acc.submitters) : k ∉ acc'.submitters := by
  cases h with
  | donated credits =>
    cases credits with
    | submission loaded =>
      refine fun hmem => hk ?_
      rwa [TaskAccounts.submitters, Ledger.support_insert_same (p := IsSubmitted) loaded] at hmem
      exact Iff.rfl
    | _ => exact hk
  | bid found touches =>
    obtain ⟨_, _, _, _, _, -, -, -, rfl⟩ := touches
    exact hk
  | bond ran =>
    obtain ⟨-, rfl⟩ := reclaimCompletionBond_spec ran
    exact hk
  | claim found ran =>
    obtain ⟨_, _, _, _, -, -, -, -, -, -, -, rfl⟩ := reclaimTerminalClaim_spec ran
    refine fun hmem => hk ?_
    rw [TaskAccounts.submitters, Ledger.support_erase] at hmem
    exact Finset.mem_of_mem_erase hmem
  | closed ran =>
    obtain ⟨_, _, _, submissions', _, _, _, -, -, -, -, hkept, -, -, -, rfl⟩ := closeTask_spec ran
    refine fun hmem => hk ?_
    obtain ⟨s, hs, hsubmitted⟩ := Ledger.mem_support.mp hmem
    exact Ledger.mem_support.mpr ⟨s, hkept k s hs, hsubmitted⟩
  | withdrawn found filed about ran =>
    obtain ⟨_, _, -, -, -, -, -, rfl, -⟩ := cancelDispute_spec ran
    exact hk
  | settled found filed about ran =>
    obtain ⟨_, _, _, _, _, _, _, -, -, -, -, -, -, -, -, -, -, -, rfl, -⟩ :=
      settleDisputeClaim_spec ran
    refine fun hmem => hk ?_
    rw [TaskAccounts.submitters, Ledger.support_erase] at hmem
    exact Finset.mem_of_mem_erase hmem
  | slashed found filed about ran =>
    obtain ⟨_, _, _, _, _, _, _, _, _, _, _, _, -, -, -, -, -, -, -, -, -, -, -, rfl, -⟩ :=
      applyDisputeSlash_spec ran
    exact hk

/-- A swept dispute stays swept. -/
theorem SweptBy.step (hs : SweptBy w d) (h : Step w (i, ts) w') (hinv : DisputeInv w d) :
    SweptBy w' d := by
  intro hended acc' hacc'
  obtain ⟨acc, hacc, hdone⟩ := hinv.task
  have hidle := hs hended acc hacc
  cases h.task d.task with
  | apart same unpaid =>
    rw [same, hacc] at hacc'
    obtain rfl := Option.some.inj hacc'
    exact hidle
  | created new stored fresh unpaid =>
    rw [new] at hacc
    cases hacc
  | moved loaded stored move =>
    obtain rfl := Option.some.inj (hacc.symm.trans loaded)
    obtain rfl := Option.some.inj (hacc'.symm.trans stored)
    exact (move.finished (hdone hended).1 hacc).submitters hidle

/-- A ruling or an expiry sweeps the submission of the defendant. -/
theorem DisputeOp.swept {op : DisputeOp} {c c' : TaskContext}
    (h : op.run w c d = .ok (c', d')) (hload : w.tasks.lookup d.task = some c.accounts)
    (hs : SweptBy w d) (hended : d'.hasEnded) : d'.defendant ∉ c'.accounts.submitters := by
  have hcleared {ledger : Ledger Pubkey (Account TaskSubmission)} :
      c.workerKey ∉ Ledger.support IsSubmitted (ledger.erase c.workerKey) := by
    rw [Ledger.support_erase]
    exact Finset.notMem_erase _ _
  cases op with
  | cancelDispute signer =>
    obtain ⟨_, _, -, -, -, -, -, -, rfl⟩ := cancelDispute_spec h
    rcases hended with h | h | h <;> cases h
  | resolveDispute signer signers withAssignment approved payees =>
    obtain ⟨_, _, _, _, _, _, _, _, _, _, _, _, _, _, _, -, hdefendant, -, -, -, -, -, -, -, -, -,
      _, _, _, _, _, _, _, -, -, rfl, rfl⟩ := resolveDispute_spec h
    show d.defendant ∉ _
    rw [← hdefendant]
    exact hcleared
  | expireDispute =>
    obtain ⟨_, _, _, _, _, _, _, _, _, _, _, _, _, _, _, -, hdefendant, -, -, -, -, -, -, -, -, -,
      -, rfl, rfl⟩ := expireDispute_spec h
    show d.defendant ∉ _
    rw [← hdefendant]
    exact hcleared
  | settleDisputeClaim =>
    obtain ⟨_, _, _, _, _, _, _, hpending, -, -, -, -, -, -, -, -, -, -, rfl, rfl⟩ :=
      settleDisputeClaim_spec h
    have hidle := hs (.inr (.inr hpending)) _ hload
    refine fun hmem => hidle ?_
    rw [TaskAccounts.submitters, Ledger.support_erase] at hmem
    exact Finset.mem_of_mem_erase hmem
  | applyDisputeSlash withTokenAccounts =>
    obtain ⟨_, _, _, _, _, _, _, _, _, _, _, _, -, -, hresolved, -, -, -, -, -, -, -, -, rfl, rfl⟩ :=
      applyDisputeSlash_spec h
    have hidle := hs (.inl hresolved) _ hload
    exact hidle

theorem Step.swept (h : Step w (i, ts) w')
    (hdisputes : ∀ key d, w.disputes.lookup key = some d → DisputeInv w d)
    (hs : ∀ key d, w.disputes.lookup key = some d → SweptBy w d)
    (hd' : w'.disputes.lookup key = some d') : SweptBy w' d' := by
  cases h.dispute key with
  | apart same other =>
    rw [same] at hd'
    exact (hs _ _ hd').step h (hdisputes _ _ hd')
  | opened new stored record named task =>
    obtain rfl := Option.some.inj (hd'.symm.trans stored)
    obtain ⟨_, hrecord⟩ := record
    exact fun hended => absurd hrecord.status hended.not_active
  | ruled filed stored about loaded left found ran =>
    obtain rfl := Option.some.inj (hd'.symm.trans stored)
    subst about
    intro hended acc' hacc'
    rw [(DisputeOp.run_frames ran).2.task, left] at hacc'
    obtain rfl := Option.some.inj hacc'
    exact DisputeOp.swept ran loaded (hs _ _ filed) hended
  | finalized filed stored final =>
    obtain rfl := Option.some.inj (hd'.symm.trans stored)
    exact (hs _ _ filed).step h (hdisputes _ _ filed)

end Swept

/-! ## Runs -/

section Runs

variable {w w' : World}

theorem SeatStep.tasks (h : SeatStep w w')
    (hw : ∀ key acc, w.tasks.lookup key = some acc → ∃ r, Staffed acc r) :
    ∀ key acc, w'.tasks.lookup key = some acc → ∃ r, Staffed acc r := by
  intro key acc hacc
  cases h with
  | same tasks active =>
    rw [tasks] at hacc
    exact hw key acc hacc
  | created new tasks staffed active =>
    rw [tasks, Ledger.lookup_insert_eq_ite] at hacc
    split_ifs at hacc
    · obtain rfl := Option.some.inj hacc
      exact ⟨_, staffed⟩
    · exact hw key acc hacc
  | moved loaded tasks before after active limit =>
    rw [tasks, Ledger.lookup_insert_eq_ite] at hacc
    split_ifs at hacc
    · obtain rfl := Option.some.inj hacc
      exact ⟨_, after⟩
    · exact hw key acc hacc

/-- The counter of an agent follows the number of its open claims. -/
theorem SeatStep.active (h : SeatStep w w') (k : Pubkey) :
    activeTasksOf w' k + (openClaims w k).card = activeTasksOf w k + (openClaims w' k).card := by
  cases h with
  | same tasks active => rw [active, openClaims, openClaims, tasks]
  | created new tasks staffed active =>
    have hnobody := (mt staffed.tracks.mem_seated.mpr (Finset.notMem_empty k))
    rw [active, openClaims, openClaims, tasks, Ledger.support_insert_fresh_of_not new hnobody]
  | @moved key acc acc' r r' loaded tasks before after active limit =>
    have hcount := Ledger.card_support_write
      (p := fun acc : TaskAccounts => (acc.claims.lookup k).isSome = true) loaded acc'
    rw [← tasks] at hcount
    rw [← if_congr before.tracks.mem_seated rfl rfl,
      ← if_congr after.tracks.mem_seated rfl rfl] at hcount
    have hactive := active k
    unfold openClaims
    omega

theorem SeatStep.limit (h : SeatStep w w') (k : Pubkey) (hw : activeTasksOf w k ≤ maxActiveTasks) :
    activeTasksOf w' k ≤ maxActiveTasks := by
  cases h with
  | same tasks active => exact (active k).le.trans hw
  | created new tasks staffed active => exact (active k).le.trans hw
  | moved loaded tasks before after active limit =>
    rcases limit k with h | h
    · exact h.trans hw
    · exact h

/-- Every reachable world keeps rosters and counters together. -/
theorem occupancy {w : World} (h : Reachable w) : Occupancy w := by
  refine h.induct (I := Occupancy) (fun w hgenesis => ?_) fun w ⟨i, ts⟩ w' hw hstep ho => ?_
  · refine ⟨hgenesis.clock, fun key acc hacc => ?_, fun k => ?_, fun k => ?_, fun key d hd => ?_⟩
    · rw [hgenesis.tasks] at hacc
      cases hacc
    · rw [openClaims, hgenesis.tasks, Ledger.support_empty]
      exact counterOf_of_none (by rw [hgenesis.agents]; rfl)
    · rw [activeTasksOf, counterOf_of_none (by rw [hgenesis.agents]; rfl)]
      exact Nat.zero_le _
    · rw [hgenesis.disputes] at hd
      cases hd
  · have hdisputes := dispute_inv hw
    have hseats := hstep.seats ho hdisputes
    refine ⟨lt_of_lt_of_le ho.clock hstep.environment.1, hseats.tasks ho.tasks, fun k => ?_,
      fun k => hseats.limit k (ho.limit k), fun key d hd => hstep.swept hdisputes ho.swept hd⟩
    have hactive := hseats.active k
    have hbefore := ho.active k
    omega

end Runs

/-! ## Submissions -/

/-- Submission accounting. On a task under review both counters are the number of submissions
under review, and while the task is neither disputed, frozen nor finished its status says whether
somebody waits, somebody works, or nobody is there. -/
theorem submission_accounting {w : World} (h : Reachable w) {key : Pubkey} {acc : TaskAccounts}
    (hacc : w.tasks.lookup key = some acc) (hmanual : isManualValidationTask acc.task = true) :
    acc.task.liveSubmissions = acc.submitters.card ∧
    (∀ config, acc.validation = some config →
      config.pendingSubmissionCount = acc.submitters.card) ∧
    (acc.task.status ≠ .Disputed → acc.task.status ≠ .RejectFrozen →
      acc.task.status ≠ .Completed → acc.task.status ≠ .Cancelled →
      (acc.task.status = .PendingValidation ↔ 0 < acc.submitters.card) ∧
      (acc.task.status = .InProgress ↔
        acc.submitters.card = 0 ∧ 0 < acc.task.currentWorkers) ∧
      (acc.task.status = .Open ↔
        acc.submitters.card = 0 ∧ acc.task.currentWorkers = 0)) := by
  obtain ⟨r, hs⟩ := (occupancy h).tasks key acc hacc
  rw [← hs.tracks.waiting]
  refine ⟨hs.tracks.counted.live, hs.tracks.counted.pending, fun hd hf hc hx => ?_⟩
  have hlive : acc.task.status.isLive = true := by
    cases hstatus : acc.task.status with
    | Disputed => exact absurd hstatus hd
    | RejectFrozen => exact absurd hstatus hf
    | Completed => exact absurd hstatus hc
    | Cancelled => exact absurd hstatus hx
    | _ => rfl
  rw [hs.fits.review hmanual hlive, hs.tracks.workers]
  unfold reviewStatus
  by_cases hwaiting : 0 < r.waiting.card
  · rw [if_pos hwaiting]
    have hpos : r.waiting.card ≠ 0 := Nat.pos_iff_ne_zero.mp hwaiting
    exact ⟨iff_of_true rfl hwaiting, iff_of_false nofun fun h => hpos h.1,
      iff_of_false nofun fun h => hpos h.1⟩
  · rw [if_neg hwaiting]
    have hzero : r.waiting.card = 0 := Nat.eq_zero_of_not_pos hwaiting
    by_cases hseated : 0 < r.seated.card
    · rw [if_pos hseated]
      exact ⟨iff_of_false nofun hwaiting, iff_of_true rfl ⟨hzero, hseated⟩,
        iff_of_false nofun fun h => Nat.pos_iff_ne_zero.mp hseated h.2⟩
    · rw [if_neg hseated]
      exact ⟨iff_of_false nofun hwaiting, iff_of_false nofun fun h => hseated h.2,
        iff_of_true rfl ⟨hzero, Nat.eq_zero_of_not_pos hseated⟩⟩

/-- A reviewed task (`50`) whose worker submits, is asked for changes and submits again. -/
def reviewingScript : List Instruction :=
  [.agent 11 (.registerAgent 101 1 1000000 0),
    .create 50 100 false {} (.createTaskHumanless
      ⟨1, 1, (1, 0), 100000000, 1, 5000, .Exclusive, 0, none⟩ 3600 none 0),
    .task 50 (.setTaskJobSpec 100 7),
    .work 50 11 (.claimTaskWithJobSpec 101 0),
    .work 50 11 (.submitTaskResult 101 9 none 0),
    .work 50 11 (.requestChanges 100 8),
    .work 50 11 (.submitTaskResult 101 10 none 0)]

/-- With the second submission under review, the task waits for the creator. -/
theorem submission_accounting_resubmitted : ∃ acc,
    (deployed.after reviewingScript).tasks.lookup 50 = some acc ∧
      acc.submitters.card = 1 ∧ acc.task.status = .PendingValidation := by
  have hafter : ((deployed.after reviewingScript).tasks.lookup 50).map (fun acc =>
      (isManualValidationTask acc.task, acc.task.liveSubmissions, acc.task.status)) =
        some (true, 1, .PendingValidation) := by
    decide +kernel
  obtain ⟨acc, hacc, hfields⟩ := Option.map_eq_some_iff.mp hafter
  obtain ⟨hmanual, hfields⟩ := Prod.mk.inj hfields
  obtain ⟨hlive, hstatus⟩ := Prod.mk.inj hfields
  have hcount := (submission_accounting (deployed_genesis.reachable_after reviewingScript) hacc
    hmanual).1
  exact ⟨acc, hacc, hcount.symm.trans hlive, hstatus⟩

/-! ## Claims -/

/-- A counter that is the size of a set at both ends of a step changes by what leaves and enters
the set. -/
theorem card_change {s t : Finset Pubkey} :
    t.card + (s \ t).card = s.card + (t \ s).card := by
  rw [Nat.add_comm, Finset.card_sdiff_add_card, Nat.add_comm, Finset.card_sdiff_add_card,
    Finset.union_comm]

/-- Claim accounting. The workers of a task are its open claims, within its slots; the tasks of
an agent are the open claims in its name, within the limit; and every step moves both counters by
exactly the claims it opens and closes. -/
theorem claim_accounting {w : World} (h : Reachable w) :
    (∀ key acc, w.tasks.lookup key = some acc →
      acc.task.currentWorkers = acc.claimants.card ∧
        acc.task.currentWorkers ≤ acc.task.maxWorkers) ∧
    (∀ k agent, w.agents.lookup k = some agent →
      agent.data.activeTasks = (openClaims w k).card ∧
        agent.data.activeTasks ≤ maxActiveTasks) ∧
    (∀ label w', Step w label w' →
      (∀ key acc acc', w.tasks.lookup key = some acc → w'.tasks.lookup key = some acc' →
        acc'.task.currentWorkers + (acc.claimants \ acc'.claimants).card =
          acc.task.currentWorkers + (acc'.claimants \ acc.claimants).card) ∧
      ∀ k agent agent', w.agents.lookup k = some agent → w'.agents.lookup k = some agent' →
        agent'.data.activeTasks + (openClaims w k \ openClaims w' k).card =
          agent.data.activeTasks + (openClaims w' k \ openClaims w k).card) := by
  have htasks {w : World} (h : Reachable w) {key : Pubkey} {acc : TaskAccounts}
      (hacc : w.tasks.lookup key = some acc) :
      acc.task.currentWorkers = acc.claimants.card ∧
        acc.task.currentWorkers ≤ acc.task.maxWorkers := by
    obtain ⟨r, hs⟩ := (occupancy h).tasks key acc hacc
    have hcount : acc.task.currentWorkers = acc.claimants.card := by
      rw [hs.tracks.workers, hs.tracks.claims.seats]
    refine ⟨hcount, ?_⟩
    rw [hs.tracks.workers]
    exact hs.fits.capacity
  have hagents {w : World} (h : Reachable w) {k : Pubkey} {agent : Account AgentRegistration}
      (hagent : w.agents.lookup k = some agent) :
      agent.data.activeTasks = (openClaims w k).card ∧
        agent.data.activeTasks ≤ maxActiveTasks := by
    have ho := occupancy h
    have hcounter : activeTasksOf w k = agent.data.activeTasks := counterOf_of_lookup hagent
    rw [← hcounter]
    exact ⟨ho.active k, ho.limit k⟩
  refine ⟨fun _ _ => htasks h, fun _ _ => hagents h, fun label w' hstep => ⟨?_, ?_⟩⟩
  · intro key acc acc' hacc hacc'
    rw [(htasks h hacc).1, (htasks (h.step hstep) hacc').1]
    exact card_change
  · intro k agent agent' hagent hagent'
    rw [(hagents h hagent).1, (hagents (h.step hstep) hagent').1]
    exact card_change

/-- With the dispute of `disputeScript` open, its defendant still counts as working. -/
theorem claim_accounting_disputed : (openClaims disputedWorld 11).card = 1 := by
  have hworker : (disputedWorld.agents.lookup 11).map (fun agent => agent.data.activeTasks) =
      some 1 := by
    decide +kernel
  obtain ⟨agent, hagent, hactive⟩ := Option.map_eq_some_iff.mp hworker
  have hcount := (claim_accounting disputedWorld_reachable).2.1 11 agent hagent
  rw [← hcount.1, hactive]

end AgencCoordination
