import AgencCoordination.Invariants.Disputes
import AgencCoordination.Effects.Escrow

/-!
# The end of a task

A task ends once. When it is completed or cancelled its status stays, what is left of its escrow
keeps its books, and nothing can be started on it any more; and as long as it has not ended, its
escrow is open.

* **`FinishedMove.escrow`, `FinishedMove.starts`** — what a finished task keeps, and which
  instructions it refuses.
* **`Step.ends`** — a step that closes an escrow leaves a finished task behind.
* **`terminal_stickiness`** — both, over all runs and for every step.
-/

namespace AgencCoordination

open Foundations

/-! ## Finished tasks -/

/-- What is left of an escrow has the books it had. -/
def KeepsEscrow (escrow escrow' : Option (Account TaskEscrow)) : Prop :=
  ∀ e', escrow' = some e' → ∃ e, escrow = some e ∧ e'.data = e.data

namespace KeepsEscrow

variable {escrow mid escrow' : Option (Account TaskEscrow)}

theorem refl (escrow : Option (Account TaskEscrow)) : KeepsEscrow escrow escrow :=
  fun e he => ⟨e, he, rfl⟩

theorem trans (h : KeepsEscrow escrow mid) (h' : KeepsEscrow mid escrow') :
    KeepsEscrow escrow escrow' := by
  intro e' he'
  obtain ⟨e, he, hdata⟩ := h' e' he'
  obtain ⟨e₀, he₀, hdata₀⟩ := h e he
  exact ⟨e₀, he₀, hdata.trans hdata₀⟩

/-- An escrow that stays or goes. -/
theorem of_same_or_none (h : escrow' = escrow ∨ escrow' = none) : KeepsEscrow escrow escrow' := by
  intro e' he'
  rcases h with rfl | rfl
  · exact ⟨e', he', rfl⟩
  · cases he'

end KeepsEscrow

section Finished

variable {w : World} {key : Pubkey} {acc acc' : TaskAccounts} {i : Instruction}
  {ts : List Transfer}

/-- Nothing is paid out of a finished task's escrow but what closes it. -/
theorem FinishedMove.escrow (h : FinishedMove w key acc i acc' ts) :
    KeepsEscrow acc.escrow acc'.escrow := by
  cases h with
  | donated credits =>
    cases credits with
    | escrow loaded =>
      intro e' he'
      obtain rfl := Option.some.inj he'
      exact ⟨_, loaded, rfl⟩
    | _ => exact .refl _
  | bid found touches =>
    obtain ⟨_, _, _, _, _, -, -, -, rfl⟩ := touches
    exact .refl _
  | bond ran =>
    obtain ⟨-, rfl⟩ := reclaimCompletionBond_spec ran
    exact .refl _
  | claim found ran =>
    obtain ⟨_, _, _, _, -, -, -, -, -, -, -, rfl⟩ := reclaimTerminalClaim_spec ran
    exact .refl _
  | closed ran =>
    obtain ⟨escrow', _, _, _, _, _, _, -, -, -, hescrow, -, -, -, -, rfl⟩ := closeTask_spec ran
    rcases hescrow with ⟨rfl, -⟩ | ⟨_, -, -, rfl, -⟩
    · exact .refl _
    · exact .of_same_or_none (.inr rfl)
  | withdrawn found filed about ran =>
    obtain ⟨_, _, -, -, -, -, -, rfl, -⟩ := cancelDispute_spec ran
    exact .refl _
  | settled found filed about ran =>
    obtain ⟨_, _, _, _, _, _, _, -, -, -, -, -, -, -, -, -, -, -, rfl, -⟩ :=
      settleDisputeClaim_spec ran
    exact .refl _
  | slashed found filed about ran => exact .of_same_or_none (applyDisputeSlash_escrow ran)

end Finished

/-! ## Closing an escrow -/

/-- The escrow is there and not marked closed. -/
def EscrowOpen (escrow : Option (Account TaskEscrow)) : Prop :=
  ∃ e, escrow = some e ∧ e.data.isClosed = false

/-- An open escrow stays open, or its task ends. -/
def EndsWithTask (acc acc' : TaskAccounts) : Prop :=
  EscrowOpen acc.escrow → EscrowOpen acc'.escrow ∨ acc'.task.status.isFinished

section Handlers

variable {c c' : TaskContext} {config : TaskValidationConfig} {payees : PayeeAccounts}

theorem EndsWithTask.of_same {acc acc' : TaskAccounts} (h : acc'.escrow = acc.escrow) :
    EndsWithTask acc acc' := by
  intro hopen
  rw [← h] at hopen
  exact .inl hopen

/-- A settlement that is not the last leaves the escrow open. -/
theorem Settles.open {t : Till} {gross : ℕ} {escrow' : Option (Account TaskEscrow)}
    {vault' : Option ℕ} {ts : List Transfer}
    (h : Settles t payees gross false escrow' vault' ts) (hopen : EscrowOpen t.escrow) :
    EscrowOpen escrow' := by
  obtain ⟨e, he, hclosed⟩ := hopen
  cases h with
  | sol mint loaded split_of passed covered fits =>
    obtain rfl := Option.some.inj (he.symm.trans loaded)
    exact ⟨_, rfl, hclosed⟩
  | token mint paid gone left =>
    obtain ⟨e₀, distributed, loaded, hleft⟩ := left rfl
    obtain rfl := Option.some.inj (he.symm.trans loaded)
    exact ⟨_, hleft, hclosed⟩

/-- A settlement of a task that ends with it, if it is the last. -/
theorem EndsWithTask.of_settles {t : Till} {acc acc' : TaskAccounts} {gross : ℕ}
    {completed : Bool} {vault' : Option ℕ} {ts : List Transfer}
    (h : Settles t payees gross completed acc'.escrow vault' ts) (ht : t.escrow = acc.escrow)
    (hstatus : completed = true → acc'.task.status = .Completed) : EndsWithTask acc acc' := by
  intro hopen
  cases hcompleted : completed with
  | true => exact .inr (.inl (hstatus hcompleted))
  | false =>
    subst hcompleted
    rw [← ht] at hopen
    exact .inl (h.open hopen)

theorem TouchesBids.ends (h : TouchesBids c c') : EndsWithTask c.accounts c'.accounts := by
  obtain ⟨_, _, _, _, _, -, -, -, rfl⟩ := h
  exact .of_same rfl

theorem Occupies.ends {expiresAt : ℤ} (h : Occupies c expiresAt c') :
    EndsWithTask c.accounts c'.accounts := by
  obtain ⟨_, _, _, _, _, _, _, _, _, rfl, -⟩ := h
  exact .of_same rfl

theorem PaysAccepted.ends (h : PaysAccepted c config payees c')
    (hstatus : c.accounts.task.status = .PendingValidation) :
    EndsWithTask c.accounts c'.accounts := by
  obtain ⟨claim, stored, gross, price, escrow', vault', paidReward, book', bids', bidder',
    paidBid, votes', -, -, -, -, -, -, -, hsettles, -, _, _, _, _, _, _, _, _, rfl⟩ := h
  refine .of_settles hsettles rfl fun hlast => ?_
  show acceptedStatus c.accounts.task config = .Completed
  rw [acceptedStatus_eq config hstatus, if_pos hlast]

theorem RejectsClaim.ends (h : RejectsClaim c config c') : EndsWithTask c.accounts c'.accounts := by
  obtain ⟨_, _, _, _, _, _, _, _, -, -, -, -, -, -, -, rfl⟩ := h
  exact .of_same rfl

theorem PaysFrozen.ends {disposition : BondDisposition} (h : PaysFrozen c payees disposition c') :
    EndsWithTask c.accounts c'.accounts := by
  obtain ⟨claim, stored, gross, escrow', vault', paidReward, -, -, -, -, -, -, h⟩ := h
  obtain ⟨hsettles, -, _, _, _, _, _, _, _, _, rfl⟩ := h
  exact .of_settles hsettles rfl fun hlast => if_pos hlast

theorem CancelsFrozen.ends (h : CancelsFrozen c c') : EndsWithTask c.accounts c'.accounts := by
  obtain ⟨_, _, _, -, -, -, -, -, -, -, rfl⟩ := h
  exact fun _ => .inr (.inr rfl)

theorem WorkOp.run_ends {w : World} {op : WorkOp} (h : op.run w c = .ok c') :
    EndsWithTask c.accounts c'.accounts := by
  cases op with
  | claimTaskWithJobSpec signer prefunded =>
    obtain ⟨_, -, -, -, -, -, hoccupies⟩ := claimTaskWithJobSpec_spec h
    exact hoccupies.ends
  | createBid signer terms prefunded => exact (createBid_spec h).touches.ends
  | updateBid signer terms => exact (updateBid_spec h).touches.ends
  | cancelBid signer => exact (cancelBid_spec h).touches.ends
  | expireBid => exact (expireBid_spec h).touches.ends
  | promoteBid => exact (promoteBid_spec h).touches.ends
  | demoteIneligibleBest => exact (demoteIneligibleBest_spec h).touches.ends
  | acceptBid signer expectedBidTermsHash prefunded =>
    obtain ⟨_, _, _, -, -, -, -, hoccupies⟩ := acceptBid_spec h
    exact hoccupies.ends
  | postWorkerBond signer prefunded =>
    have h : postCompletionBond c signer .Worker prefunded = .ok c' := h
    obtain ⟨_, -, -, -, -, -, -, -, -, rfl⟩ := postCompletionBond_spec h
    exact .of_same rfl
  | submitTaskResult signer proofHash resultData prefunded =>
    obtain ⟨_, _, _, -, -, -, -, -, -, -, _, _, rfl⟩ := submitTaskResult_spec h
    exact .of_same rfl
  | acceptTaskResult signer payees =>
    obtain ⟨_, _, hreview, -, -, -, hpays⟩ := acceptTaskResult_spec h
    exact hpays.ends hreview.status
  | autoAcceptTaskResult payees =>
    obtain ⟨_, _, hreview, -, -, hpays⟩ := autoAcceptTaskResult_spec h
    exact hpays.ends hreview.status
  | rejectTaskResult signer rejectionHash =>
    obtain ⟨_, _, -, -, -, -, hrejects⟩ := rejectTaskResult_spec h
    exact hrejects.ends
  | requestChanges signer changesHash =>
    obtain ⟨_, _, _, _, _, -, -, -, -, -, -, rfl⟩ := requestChanges_spec h
    exact .of_same rfl
  | validateTaskResult reviewer validator approved =>
    obtain ⟨_, _, hreview, -, hpays | ⟨hrejects, -⟩ | ⟨_, _, -, rfl⟩⟩ := validateTaskResult_spec h
    · exact hpays.ends hreview.status
    · exact hrejects.ends
    · exact .of_same rfl
  | rejectAndFreeze signer rejectionHash =>
    obtain ⟨_, _, _, -, -, -, -, -, rfl⟩ := rejectAndFreeze_spec h
    exact .of_same rfl
  | resolveRejectFrozen signers approveCompletion payees =>
    obtain ⟨_, hpays⟩ | hcancels := resolveRejectFrozen_spec h
    · exact hpays.ends
    · exact hcancels.ends
  | expireRejectFrozen payees => exact (expireRejectFrozen_spec h).ends
  | completeTask signer proofHash resultData payees =>
    obtain ⟨_, _, _, _, _, _, _, _, _, _, -, -, -, -, -, -, -, hsettles, -, h⟩ := completeTask_spec h
    obtain ⟨_, _, _, _, _, _, _, _, rfl⟩ := h
    exact .of_settles hsettles rfl fun hlast => if_pos hlast
  | expireClaim caller withSubmission =>
    obtain ⟨_, escrow, _, _, _, _, _, _, _, _, -, -, -, -, -, -, -, hescrow, h⟩ := expireClaim_spec h
    obtain ⟨-, -, -, -, -, rfl⟩ := h
    intro hopen
    obtain ⟨e, he, hclosed⟩ := hopen
    obtain rfl := Option.some.inj (he.symm.trans hescrow)
    exact .inl ⟨_, rfl, hclosed⟩
  | distributeGhostShare payees =>
    obtain ⟨_, _, _, _, _, _, -, -, -, -, -, -, -, -, -, -, -, -, h⟩ := distributeGhostShare_spec h
    obtain ⟨hsettles, _, _, _, _, _, _, rfl⟩ := h
    exact .of_settles hsettles rfl fun hlast => if_pos (of_decide_eq_true hlast)
  | reclaimTerminalClaim =>
    obtain ⟨_, _, _, _, -, -, -, -, -, -, -, rfl⟩ := reclaimTerminalClaim_spec h
    exact .of_same rfl

theorem TaskOp.run_ends {op : TaskOp} (h : op.run c = .ok c') :
    EndsWithTask c.accounts c'.accounts := by
  cases op with
  | configureTaskValidation signer mode reviewWindowSecs validatorQuorum attestor =>
    obtain ⟨_, -, -, -, -, -, rfl⟩ := configureTaskValidation_spec h
    exact .of_same rfl
  | setTaskJobSpec signer jobSpecHash =>
    obtain ⟨_, -, rfl⟩ := setTaskJobSpec_spec h
    exact .of_same rfl
  | initializeBidBook signer policy weights =>
    obtain ⟨_, _, -, -, -, -, rfl⟩ := initializeBidBook_spec h
    exact .of_same rfl
  | postCreatorBond signer prefunded =>
    have h : postCompletionBond c signer .Creator prefunded = .ok c' := h
    obtain ⟨_, -, -, -, -, -, -, -, -, rfl⟩ := postCompletionBond_spec h
    exact .of_same rfl
  | reclaimCompletionBond party role =>
    obtain ⟨-, rfl⟩ := reclaimCompletionBond_spec h
    exact .of_same rfl

/-- A ruling or an expiry ends the task, a slash finds it ended, and nothing else on a dispute
touches the escrow. -/
theorem DisputeOp.run_ends {w : World} {op : DisputeOp} {d d' : Dispute}
    (h : op.run w c d = .ok (c', d')) (hinv : DisputeInv w d)
    (hload : w.tasks.lookup d.task = some c.accounts) : EndsWithTask c.accounts c'.accounts := by
  cases op with
  | cancelDispute signer =>
    obtain ⟨_, _, -, -, -, -, -, rfl, rfl⟩ := cancelDispute_spec h
    exact .of_same rfl
  | resolveDispute signer signers withAssignment approved payees =>
    obtain ⟨_, _, _, _, _, _, _, _, _, _, _, _, _, _, _, -, -, -, -, -, -, -, -, -, -, -, h⟩ :=
      resolveDispute_spec h
    obtain ⟨_, _, _, _, _, _, _, -, -, rfl, rfl⟩ := h
    exact fun _ => .inr (rulingStatus_isFinished _ _)
  | expireDispute =>
    obtain ⟨_, _, _, _, _, _, _, _, _, _, _, _, _, _, _, -, -, -, -, -, -, -, -, -, -, -, -, rfl,
      rfl⟩ := expireDispute_spec h
    exact fun _ => .inr (.inr rfl)
  | settleDisputeClaim =>
    obtain ⟨_, _, _, _, _, _, _, -, -, -, -, -, -, -, -, -, -, -, rfl, -⟩ :=
      settleDisputeClaim_spec h
    exact .of_same rfl
  | applyDisputeSlash withTokenAccounts =>
    obtain ⟨_, _, _, _, _, _, _, _, _, _, _, _, -, -, hresolved, -, -, -, -, -, -, -, -, rfl, -⟩ :=
      applyDisputeSlash_spec h
    obtain ⟨acc, hacc, hended⟩ := hinv.task
    obtain rfl := Option.some.inj (hload.symm.trans hacc)
    have hdone : c.accounts.task.status.isFinished := (hended (.inl hresolved)).1
    exact fun _ => .inr hdone

theorem cancelTask_ends {agents agents' : Ledger Pubkey (Account AgentRegistration)}
    {signer : Pubkey} {workers : List Pubkey} {workerBondAuthority : Pubkey} {withParent : Bool}
    (h : cancelTask c agents signer workers workerBondAuthority withParent = .ok (c', agents')) :
    EndsWithTask c.accounts c'.accounts := by
  obtain ⟨_, _, _, _, _, _, _, _, _, _, _, _, _, -, -, -, -, -, -, -, -, -, -, -, -, -, -, -, h⟩ :=
    cancelTask_spec h
  obtain ⟨-, -, rfl⟩ := h
  exact fun _ => .inr (.inr rfl)

theorem closeTask_ends {agents : Ledger Pubkey (Account AgentRegistration)} {signer : Pubkey}
    {withJobSpec withEscrow : Bool} {workerBond : Option Pubkey} {children : List TaskChild}
    (h : closeTask c agents signer withJobSpec withEscrow workerBond children = .ok c') :
    EndsWithTask c.accounts c'.accounts := by
  obtain ⟨_, _, _, _, _, _, _, hstatus, -, -, -, -, -, -, -, rfl⟩ := closeTask_spec h
  exact fun _ => .inr hstatus

end Handlers

/-! ## Every step and every run -/

section Steps

variable {w w' : World} {key : Pubkey} {acc acc' : TaskAccounts} {i : Instruction}
  {ts : List Transfer}

theorem TaskMove.ends (h : TaskMove w key acc i acc' ts) (hw : Reachable w)
    (hacc : w.tasks.lookup key = some acc) : EndsWithTask acc acc' := by
  cases h with
  | donated credits =>
    cases credits with
    | escrow loaded =>
      rintro ⟨e, he, hclosed⟩
      obtain rfl := Option.some.inj (he.symm.trans loaded)
      exact .inl ⟨_, rfl, hclosed⟩
    | _ => exact .of_same rfl
  | task ran => exact TaskOp.run_ends ran
  | work found ran rent => exact WorkOp.run_ends ran
  | cancelled listed ran =>
    obtain ⟨-, haccounts, -⟩ := listed_context listed
    rw [← haccounts]
    exact cancelTask_ends ran
  | closed ran => exact closeTask_ends ran
  | disputed opens => exact .of_same rfl
  | ruled found filed about ran rent =>
    subst about
    exact DisputeOp.run_ends ran (dispute_inv hw _ _ filed) hacc

/-- An open escrow is closed only by a step after which its task has ended. -/
theorem Step.ends (h : Step w (i, ts) w') (hw : Reachable w)
    (hacc : w.tasks.lookup key = some acc) :
    ∃ acc', w'.tasks.lookup key = some acc' ∧ EndsWithTask acc acc' := by
  cases h.task key with
  | apart same unpaid => exact ⟨acc, same.trans hacc, .of_same rfl⟩
  | created new stored fresh unpaid =>
    rw [new] at hacc
    cases hacc
  | moved loaded stored move =>
    obtain rfl := Option.some.inj (hacc.symm.trans loaded)
    exact ⟨_, stored, move.ends hw hacc⟩

/-- An instruction that starts something on a task names it. -/
theorem Instruction.of_starts (h : i.starts key = true) :
    (∃ k op, i = .work key k op) ∨ (∃ op, i = .task key op) ∨
      ∃ signer filing, i = .initiateDispute key signer filing := by
  unfold Instruction.starts at h
  split at h
  all_goals first
    | cases h
    | obtain rfl := of_decide_eq_true h
  · exact .inl ⟨_, _, rfl⟩
  · exact .inl ⟨_, _, rfl⟩
  · exact .inl ⟨_, _, rfl⟩
  · exact .inl ⟨_, _, rfl⟩
  · exact .inr (.inl ⟨_, rfl⟩)
  · exact .inr (.inr ⟨_, _, rfl⟩)

/-- An instruction that starts something on a task moves it. -/
theorem Step.starts_move (h : Step w (i, ts) w') (hstarts : i.starts key = true)
    (hacc : w.tasks.lookup key = some acc) : ∃ acc', TaskMove w key acc i acc' ts := by
  obtain ⟨k, op, rfl⟩ | ⟨op, rfl⟩ | ⟨signer, filing, rfl⟩ := Instruction.of_starts hstarts
  · cases h.does with
    | work loaded found ran rent =>
      obtain rfl := Option.some.inj (hacc.symm.trans loaded)
      exact ⟨_, .work found ran rent⟩
  · cases h.does with
    | task loaded ran =>
      obtain rfl := Option.some.inj (hacc.symm.trans loaded)
      exact ⟨_, .task ran⟩
  · cases h.does with
    | disputed ran =>
      exact ⟨_, .disputed (initiateDispute_spec ran)⟩

/-- What a finished task keeps in one step. -/
theorem Step.keeps_finished (h : Step w (i, ts) w') (hacc : w.tasks.lookup key = some acc)
    (hdone : acc.task.status.isFinished) :
    ∃ acc', w'.tasks.lookup key = some acc' ∧ acc'.task.status = acc.task.status ∧
      KeepsEscrow acc.escrow acc'.escrow ∧ i.starts key = false := by
  have hstarts : i.starts key = false := by
    rw [← Bool.not_eq_true]
    intro hstarts
    obtain ⟨_, hmove⟩ := h.starts_move hstarts hacc
    rw [(hmove.finished hdone hacc).starts] at hstarts
    cases hstarts
  cases h.task key with
  | apart same unpaid => exact ⟨acc, same.trans hacc, rfl, .refl _, hstarts⟩
  | created new stored fresh unpaid =>
    rw [new] at hacc
    cases hacc
  | moved loaded stored move =>
    obtain rfl := Option.some.inj (hacc.symm.trans loaded)
    have hmove := move.finished hdone hacc
    exact ⟨_, stored, hmove.status hdone, hmove.escrow, hstarts⟩

/-- What a finished task keeps in a whole run. -/
theorem run_keeps_finished {log : List LogEntry} (hrun : Run Step w log w')
    (hacc : w.tasks.lookup key = some acc) (hdone : acc.task.status.isFinished) :
    ∃ acc', w'.tasks.lookup key = some acc' ∧ acc'.task.status = acc.task.status ∧
      KeepsEscrow acc.escrow acc'.escrow ∧ ∀ e ∈ log, e.label.1.starts key = false := by
  induction hrun with
  | refl => exact ⟨acc, hacc, rfl, .refl _, by simp⟩
  | @snoc log s s' label hr hs ih =>
    obtain ⟨mid, hmid, hstatus, hescrow, hstarts⟩ := ih
    have hdone' : mid.task.status.isFinished := by rwa [hstatus]
    obtain ⟨acc', hacc', hstatus', hescrow', hlast⟩ := Step.keeps_finished hs hmid hdone'
    refine ⟨acc', hacc', hstatus'.trans hstatus, hescrow.trans hescrow', fun e he => ?_⟩
    rcases List.mem_append.mp he with he | he
    · exact hstarts e he
    · rw [List.mem_singleton.mp he]
      exact hlast

/-- From every reachable world: a task that is completed or cancelled keeps that status in every
run, what is left of its escrow keeps its books, above all what was distributed, and no claim,
submission, bid acceptance, completion bond or dispute succeeds on it; and a step that closes an
open escrow leaves its task completed or cancelled. -/
theorem terminal_stickiness (hw : Reachable w) :
    (∀ log w' key acc, Run Step w log w' → w.tasks.lookup key = some acc →
      acc.task.status.isFinished →
      ∃ acc', w'.tasks.lookup key = some acc' ∧ acc'.task.status = acc.task.status ∧
        KeepsEscrow acc.escrow acc'.escrow ∧ ∀ e ∈ log, e.label.1.starts key = false) ∧
    ∀ i ts w' key acc, Step w (i, ts) w' → w.tasks.lookup key = some acc →
      EscrowOpen acc.escrow →
      ∃ acc', w'.tasks.lookup key = some acc' ∧
        (EscrowOpen acc'.escrow ∨ acc'.task.status.isFinished) := by
  refine ⟨fun log w' key acc hrun hacc hdone => run_keeps_finished hrun hacc hdone,
    fun i ts w' key acc hstep hacc hopen => ?_⟩
  obtain ⟨acc', hacc', hends⟩ := Step.ends hstep hw hacc
  exact ⟨acc', hacc', hends hopen⟩

end Steps

/-- A reviewed task (`50`) whose worker's submission is accepted and whose creator then cleans
up. -/
def finishingScript : List Instruction :=
  [.agent 11 (.registerAgent 101 1 1000000 0),
    .create 50 100 false {} (.createTaskHumanless
      ⟨1, 1, (1, 0), 100000000, 1, 5000, .Exclusive, 0, none⟩ 3600 none 0),
    .task 50 (.setTaskJobSpec 100 7),
    .work 50 11 (.claimTaskWithJobSpec 101 0),
    .work 50 11 (.submitTaskResult 101 9 none 0),
    .work 50 11 (.acceptTaskResult 100 {}),
    .closeTask 50 100 true false none []]

/-- The acceptance closes the escrow and completes the task, and the task is still completed after
the creator cleaned up. -/
theorem terminal_stickiness_accepted :
    (∃ w ts acc, Step (deployed.after (finishingScript.take 5))
      (.work 50 11 (.acceptTaskResult 100 {}), ts) w ∧ w.tasks.lookup 50 = some acc ∧
      acc.escrow = none ∧ acc.task.status.isFinished) ∧
    ∃ log w acc, Run Step (deployed.after (finishingScript.take 6)) log w ∧
      log.length = 1 ∧ w.tasks.lookup 50 = some acc ∧ acc.task.status = .Completed := by
  constructor
  · have hexec : (execute (deployed.after (finishingScript.take 5))
        (.work 50 11 (.acceptTaskResult 100 {}))).toOption.map (fun r =>
          (r.1.tasks.lookup 50).map fun acc => acc.escrow) = some (some none) := by
      decide +kernel
    have hbefore : ((deployed.after (finishingScript.take 5)).tasks.lookup 50).map (fun acc =>
        acc.escrow.map fun e => e.data.isClosed) = some (some false) := by
      decide +kernel
    obtain ⟨⟨w, ts⟩, hexec, hgone⟩ := Option.map_eq_some_iff.mp hexec
    obtain ⟨acc, hacc, hopen⟩ := Option.map_eq_some_iff.mp hbefore
    obtain ⟨e, he, hclosed⟩ := Option.map_eq_some_iff.mp hopen
    have hstep := Step.of_toOption hexec
    obtain ⟨acc', hacc', hends⟩ := (terminal_stickiness
      (deployed_genesis.reachable_after (finishingScript.take 5))).2 _ _ _ _ _ hstep hacc
      ⟨e, he, hclosed⟩
    have hnone : acc'.escrow = none := by
      have hgone : (w.tasks.lookup 50).map (fun acc => acc.escrow) = some none := hgone
      rw [hacc'] at hgone
      exact Option.some.inj hgone
    refine ⟨w, ts, acc', hstep, hacc', hnone, hends.resolve_left ?_⟩
    rintro ⟨e', he', -⟩
    rw [hnone] at he'
    cases he'
  · have hexec : (execute (deployed.after (finishingScript.take 6))
        (.closeTask 50 100 true false none [])).toOption.isSome = true := by
      decide +kernel
    have hbefore : ((deployed.after (finishingScript.take 6)).tasks.lookup 50).map (fun acc =>
        acc.task.status) = some .Completed := by
      decide +kernel
    obtain ⟨⟨w, ts⟩, hexec⟩ := Option.isSome_iff_exists.mp hexec
    obtain ⟨acc, hacc, hstatus⟩ := Option.map_eq_some_iff.mp hbefore
    have hrun : Run Step (deployed.after (finishingScript.take 6)) _ w :=
      Run.refl.snoc (Step.of_toOption hexec)
    obtain ⟨acc', hacc', hstatus', -⟩ := (terminal_stickiness
      (deployed_genesis.reachable_after (finishingScript.take 6))).1 _ _ _ _ hrun hacc (.inl hstatus)
    exact ⟨_, w, acc', hrun, rfl, hacc', hstatus'.trans hstatus⟩

end AgencCoordination
