import AgencCoordination.Foundations.EqualShares
import AgencCoordination.Invariants.Contest

/-!
# The split of an abandoned contest

When the selection window of a contest is over and entries still wait, anybody may have each of
them paid an equal share of the prize that is left. Claims of entrants who never submitted can be
expired in between, for a cleanup reward out of the same prize.

* **`GhostMove`** — what a step does to the entries and the prize of such a contest.
* **`Step.ghost`** — every step is one of these, and the contest goes on so or is completed.
* **`contest_ghost_split`** — over any run the shares and the cleanup rewards are what left the
  prize, every entry is paid once, and the last one takes the rest and completes the contest.
-/

namespace AgencCoordination

open Foundations

/-! ## Prize and entries -/

/-- The part of the reward in escrow that is not paid out yet. -/
def TaskAccounts.prizeLeft (acc : TaskAccounts) : ℕ :=
  acc.escrow.elim 0 fun escrow => escrow.data.amount - escrow.data.distributed

/-- The prize left, and the waiting entries, of a task of the world. -/
def prizeLeft (key : Pubkey) (w : World) : ℕ := (w.tasks.lookup key).elim 0 TaskAccounts.prizeLeft

def liveEntries (key : Pubkey) (w : World) : Finset Pubkey :=
  (w.tasks.lookup key).elim ∅ TaskAccounts.submitters

/-- The entry of the contest an instruction pays a share to. -/
def Instruction.ghostShare (key : Pubkey) : Instruction → Option Pubkey
  | .work k worker (.distributeGhostShare _) => if k = key then some worker else none
  | _ => none

/-- The instruction expires a claim on the task. -/
def Instruction.expiresOn (key : Pubkey) : Instruction → Bool
  | .work k _ (.expireClaim _ _) => decide (k = key)
  | _ => false

/-- What a step pays out of the escrow of the task in shares, and as cleanup rewards. -/
def sharePaid (key : Pubkey) (e : LogEntry) : ℕ :=
  spentOn Purpose.isSettlementLeg (.escrow key) e.label.2

def cleanupPaid (key : Pubkey) (e : LogEntry) : ℕ := spentFor key .cleanupReward e.label.2

/-- The time the creator of a contest has to choose is over. -/
def SelectionOver (task : Task) (now : ℤ) : Prop :=
  0 < task.deadline ∧ task.deadline + selectionWindowSecs ≤ now

instance (task : Task) (now : ℤ) : Decidable (SelectionOver task now) :=
  inferInstanceAs (Decidable (_ ∧ _))

/-- An abandoned contest: its selection is over, and once nobody waits it is completed. -/
structure AbandonedContest (now : ℤ) (acc : TaskAccounts) : Prop where
  contest : isContestConfiguredTask acc.task = true
  elapsed : SelectionOver acc.task now
  settled : acc.submitters = ∅ → acc.task.status = .Completed ∧ acc.escrow = none

/-- The instructions that can still succeed on an abandoned contest while entries wait. -/
inductive AbandonedMove (w : World) (key : Pubkey) (acc : TaskAccounts) :
    Instruction → TaskAccounts → List Transfer → Prop
  | donated {target : Custody} {amount : ℕ} {acc' : TaskAccounts}
      (credits : Credits key amount acc target acc') :
      AbandonedMove w key acc (.donate target amount) acc' []
  | expired {k caller : Pubkey} {withSubmission : Bool} {agent : Account AgentRegistration}
      {c : TaskContext}
      (ran : expireClaim (w.workContext key acc k agent) caller withSubmission = .ok c) :
      AbandonedMove w key acc (.work key k (.expireClaim caller withSubmission)) c.accounts c.paid
  | shared {k : Pubkey} {payees : PayeeAccounts} {agent : Account AgentRegistration}
      {c : TaskContext}
      (ran : distributeGhostShare (w.workContext key acc k agent) payees = .ok c) :
      AbandonedMove w key acc (.work key k (.distributeGhostShare payees)) c.accounts c.paid
  | withdrawn {disputeKey k signer : Pubkey} {agent : Account AgentRegistration}
      {d d' : Dispute} {c : TaskContext}
      (ran : cancelDispute (w.workContext key acc k agent) d signer = .ok (c, d')) :
      AbandonedMove w key acc (.dispute key disputeKey k (.cancelDispute signer)) c.accounts c.paid

/-- What a step does to the entries and the prize of an abandoned contest. -/
inductive GhostMove (key : Pubkey) (before : ℕ × Finset Pubkey) (i : Instruction)
    (ts : List Transfer) (after : ℕ × Finset Pubkey) : Prop
  | idle (uncranked : i.ghostShare key = none) (same : after = before)
      (unshared : spentOn Purpose.isSettlementLeg (.escrow key) ts = 0)
      (uncleaned : spentFor key .cleanupReward ts = 0)
  | cleaned (uncranked : i.ghostShare key = none) (expires : i.expiresOn key = true)
      (entries : after.2 = before.2)
      (prize : after.1 + spentFor key .cleanupReward ts = before.1)
      (unshared : spentOn Purpose.isSettlementLeg (.escrow key) ts = 0)
  | shared {k : Pubkey} (crank : i.ghostShare key = some k) (waits : k ∈ before.2)
      (entries : after.2 = before.2.erase k)
      (share : spentOn Purpose.isSettlementLeg (.escrow key) ts = before.1 / before.2.card)
      (prize : after.1 = before.1 - before.1 / before.2.card)
      (uncleaned : spentFor key .cleanupReward ts = 0)

section Moves

variable {w w' : World} {key : Pubkey} {acc acc' : TaskAccounts} {i : Instruction}
  {ts : List Transfer} {r : Roster Pubkey}

/-- Part of what is paid out of an account is no more than all of it. -/
theorem spentOn_le_spent {q : Purpose → Bool} {source : Custody} :
    spentOn q source ts ≤ spent source ts := by
  induction ts with
  | nil => exact le_rfl
  | cons t ts ih =>
    rw [spent, spentOn_cons, spentOn_cons]
    refine Nat.add_le_add ?_ ih
    split_ifs with hpart hall
    · exact le_rfl
    · exact absurd ⟨hpart.1, rfl⟩ hall
    · exact Nat.zero_le _
    · exact le_rfl

/-- A donation changes neither prize nor entries. -/
theorem Credits.same_prize {amount : ℕ} {target : Custody}
    (h : Credits key amount acc target acc') :
    (acc'.prizeLeft, acc'.submitters) = (acc.prizeLeft, acc.submitters) ∧
      (acc.escrow = none → acc'.escrow = none) := by
  cases h with
  | escrow loaded =>
    refine ⟨Prod.ext ?_ rfl, fun hnone => ?_⟩
    · simp [TaskAccounts.prizeLeft, loaded]
    · rw [hnone] at loaded
      cases loaded
  | submission loaded =>
    refine ⟨Prod.ext rfl ?_, id⟩
    exact Ledger.support_insert_same (p := IsSubmitted) loaded Iff.rfl
  | _ => exact ⟨rfl, id⟩

/-- A cleanup reward comes out of the prize. -/
theorem expireClaim_ghost {c c' : TaskContext} {caller : Pubkey} {withSubmission : Bool}
    (h : expireClaim c caller withSubmission = .ok c') (hpaid : c.paid = []) :
    c'.accounts.submitters = c.accounts.submitters ∧
      c'.accounts.prizeLeft + spentFor c.key .cleanupReward c'.paid = c.accounts.prizeLeft ∧
      spentOn Purpose.isSettlementLeg (.escrow c.key) c'.paid = 0 := by
  obtain ⟨claim, escrow, reward, forfeited, _, _, _, paidBid, _, paidBond, h⟩ :=
    expireClaim_spec h
  obtain ⟨-, -, -, -, -, -, -, hescrow, hwithin, hreward, hcovered, hbid, hbond, rfl⟩ := h
  have hle : reward ≤ escrow.data.amount - escrow.data.distributed := by
    rw [hreward, cleanupRewardForTask]
    split_ifs
    · exact Nat.zero_le _
    · exact min_le_right _ _
  have hclosings : Outside c.key (claimClosings c c.worker.data.authority claim forfeited) :=
    outside_claimClosings
  refine ⟨rfl, ?_, ?_⟩
  · simp only [hpaid, List.nil_append, spentFor, spentOn_append, spentOn_cons, spentOn_nil,
      hbid.outside.spentOn, hbond.outside.spentOn, hclosings.spentOn, decide_true, and_self,
      if_true, Nat.add_zero, TaskAccounts.prizeLeft, hescrow, Option.elim_some]
    omega
  · simp only [hpaid, List.nil_append, spentOn_append, spentOn_cons, spentOn_nil,
      hbid.outside.spentOn, hbond.outside.spentOn, hclosings.spentOn, Purpose.isSettlementLeg,
      Bool.false_eq_true, and_false, if_false, Nat.add_zero]

/-- A settlement in SOL pays its gross amount in legs, and leaves the escrow or closes it. -/
theorem Settles.legs {t : Till} {payees : PayeeAccounts} {gross : ℕ} {completed : Bool}
    {escrow : Account TaskEscrow} {after : Option (Account TaskEscrow)} {vault' : Option ℕ}
    (h : Settles t payees gross completed after vault' ts) (hmint : t.mint = none)
    (hescrow : t.escrow = some escrow) :
    spentOn Purpose.isSettlementLeg (.escrow t.key) ts = gross ∧
      spentFor t.key .cleanupReward ts = 0 ∧ after = settledEscrow escrow gross completed := by
  cases h with
  | token mint => exact absurd hmint mint
  | @sol e split operatorLeg referrerLeg mint loaded split_of passed covered fits =>
    obtain rfl := Option.some.inj (hescrow.symm.trans loaded)
    have hlegs := rewardTransfers_legs t.key t.worker t.treasury operatorLeg referrerLeg split
    have hsum := spentOn_rewardTransfers split_of t.key t.worker t.treasury
    refine ⟨?_, ?_, rfl⟩
    · rw [settledPayments, spentOn_append, hsum]
      cases completed
      · exact Nat.add_zero _
      · simp [closeEscrowTransfer, Purpose.isSettlementLeg]
    · refine spentOn_eq_zero fun x hx _ => decide_eq_false fun heq => ?_
      rcases List.mem_append.mp hx with hx | hx
      · have hleg := (hlegs x hx).2
        rw [heq] at hleg
        cases hleg
      · cases completed
        · cases hx
        · rw [if_pos rfl, List.mem_singleton] at hx
          rw [hx] at heq
          cases heq

/-- What is left of the prize after a settlement. -/
theorem settledEscrow_prize (escrow : Account TaskEscrow) (gross : ℕ) (completed : Bool) :
    ((settledEscrow escrow gross completed).elim 0 fun e => e.data.amount - e.data.distributed) =
      if completed = true then 0 else escrow.data.amount - escrow.data.distributed - gross := by
  cases completed with
  | true => rfl
  | false =>
    show escrow.data.amount - (escrow.data.distributed + gross) = _
    rw [Nat.sub_add_eq]
    rfl

/-- A share is an equal part of the prize among the entries that wait, and the last one leaves
nothing of it. -/
theorem distributeGhostShare_ghost {c c' : TaskContext} {payees : PayeeAccounts}
    (h : distributeGhostShare c payees = .ok c') (hpaid : c.paid = [])
    (ht : Tracks c.accounts r) (hcontest : isContestConfiguredTask c.accounts.task = true) :
    c.workerKey ∈ c.accounts.submitters ∧
      c'.accounts.submitters = c.accounts.submitters.erase c.workerKey ∧
      spentOn Purpose.isSettlementLeg (.escrow c.key) c'.paid =
        c.accounts.prizeLeft / c.accounts.submitters.card ∧
      c'.accounts.prizeLeft =
        c.accounts.prizeLeft - c.accounts.prizeLeft / c.accounts.submitters.card ∧
      spentFor c.key .cleanupReward c'.paid = 0 ∧
      (c'.accounts.submitters = ∅ →
        c'.accounts.task.status = .Completed ∧ c'.accounts.escrow = none) := by
  obtain ⟨config, submission, claim, escrow, escrow', paidReward, hr, -, -, -, -, hmint, hescrow,
    hwithin, hlive, -, -, -, hsettles, _, _, _, _, _, _, rfl⟩ := distributeGhostShare_spec h
  have hwaits : c.workerKey ∈ c.accounts.submitters := by
    rw [← ht.waiting]
    exact (ht.mem_waiting hr.stored).mpr hr.submitted
  have hentries : Ledger.support IsSubmitted (c.accounts.submissions.erase c.workerKey) =
      c.accounts.submitters.erase c.workerKey := Ledger.support_erase _ _
  have hcount : c.accounts.task.liveSubmissions = c.accounts.submitters.card := by
    rw [ht.counted.live, ht.waiting]
  have hleft : c.accounts.task.liveAfterLeaving =
      (c.accounts.submitters.erase c.workerKey).card := by
    rw [liveAfterLeaving_of_configured hcontest, hcount, Finset.card_erase_of_mem hwaits]
  have hprize : c.accounts.prizeLeft = escrow.data.amount - escrow.data.distributed := by
    rw [TaskAccounts.prizeLeft, hescrow]
    rfl
  have hclosings : Outside c.key ([submissionClosing c submission.lamports] ++
      [claimClosing c claim.lamports]) := outside_submissionClosing.append outside_claimClosing
  obtain ⟨hshare, hcleanup, hafter⟩ := hsettles.legs hmint hescrow
  have hshare : spentOn Purpose.isSettlementLeg (.escrow c.key) paidReward =
      c.accounts.prizeLeft / c.accounts.submitters.card := by
    rw [hprize, ← hcount]
    exact hshare
  have hcleanup : spentFor c.key .cleanupReward paidReward = 0 := hcleanup
  have hpaid' : c.paid ++ paidReward ++ [submissionClosing c submission.lamports] ++
      [claimClosing c claim.lamports] = paidReward ++ ([submissionClosing c submission.lamports] ++
        [claimClosing c claim.lamports]) := by
    rw [hpaid, List.nil_append, List.append_assoc]
  have hwaiting : 0 < c.accounts.submitters.card := Finset.card_pos.mpr ⟨_, hwaits⟩
  refine ⟨hwaits, hentries, ?_, ?_, ?_, fun hnobody => ?_⟩
  · show spentOn _ _ (c.paid ++ paidReward ++ _ ++ _) = _
    rw [hpaid', spentOn_append, hclosings.spentOn, Nat.add_zero, hshare]
  · show (escrow'.elim 0 fun e => e.data.amount - e.data.distributed) = _
    rw [hafter, settledEscrow_prize, ← hprize, hcount, hleft, Finset.card_erase_of_mem hwaits]
    split_ifs with hlast
    · have hone : c.accounts.submitters.card = 1 := by
        have hzero := of_decide_eq_true hlast
        omega
      rw [hone, Nat.div_one, Nat.sub_self]
    · rfl
  · show spentFor _ _ (c.paid ++ paidReward ++ _ ++ _) = _
    rw [hpaid', spentFor_append, hclosings.spentFor, Nat.add_zero, hcleanup]
  · have hzero : c.accounts.task.liveAfterLeaving = 0 := by
      rw [hleft, ← hentries, Finset.card_eq_zero]
      exact hnobody
    refine ⟨if_pos hzero, ?_⟩
    show escrow' = none
    rw [hafter, settledEscrow, if_pos (decide_eq_true hzero)]

/-- An instruction that pays a share is one on an entry of the task. -/
theorem Instruction.ghostShare_eq_some {k : Pubkey} (h : i.ghostShare key = some k) :
    ∃ payees, i = .work key k (.distributeGhostShare payees) := by
  unfold Instruction.ghostShare at h
  split at h
  · rename_i k' worker payees
    rcases ite_eq_iff.mp h with ⟨rfl, hk⟩ | ⟨-, hk⟩
    · obtain rfl := Option.some.inj hk
      exact ⟨payees, rfl⟩
    · cases hk
  · cases h

/-- Entering, submitting, choosing and cancelling come too late for an abandoned contest. -/
theorem ContestMove.abandoned (h : ContestMove w key acc i acc' ts)
    (ha : AbandonedContest w.sys.now acc) (hstatus : acc.task.status = .PendingValidation) :
    AbandonedMove w key acc i acc' ts := by
  have hawardable := isContestTask_of_configured ha.contest
  obtain ⟨hdeadline, hover⟩ := ha.elapsed
  have hwindow : (0 : ℤ) < selectionWindowSecs := by decide
  cases h with
  | donated credits => exact .donated credits
  | prepared opened =>
    rw [opened] at hstatus
    cases hstatus
  | entered found ran =>
    obtain ⟨_, -, -, hbefore, -⟩ := claimTaskWithJobSpec_spec ran
    have hbefore : w.sys.now < acc.task.deadline := hbefore hdeadline
    omega
  | submitted found ran =>
    obtain ⟨_, _, _, -, -, -, -, hbefore, -⟩ := submitTaskResult_spec ran
    have hbefore : w.sys.now ≤ acc.task.deadline := hbefore hdeadline
    omega
  | accepted found ran =>
    obtain ⟨_, _, -, -, -, haccept, -⟩ := acceptTaskResult_spec ran
    have hbefore : w.sys.now < acc.task.deadline + selectionWindowSecs :=
      (validateContestAcceptWindow_spec haccept hawardable).2.1
    omega
  | rejected found ran =>
    obtain ⟨_, _, -, -, -, hreject, -⟩ := rejectTaskResult_spec ran
    have hbefore : w.sys.now < acc.task.deadline + selectionWindowSecs :=
      (validateContestRejectWindow_spec hreject hawardable).2
    omega
  | expired found ran => exact .expired ran
  | shared found ran => exact .shared ran
  | cancelled listed ran =>
    obtain ⟨-, haccounts, -⟩ := listed_context listed
    obtain ⟨_, _, _, _, _, _, _, _, _, _, _, _, _, -, hopen, -⟩ := cancelTask_spec ran
    rw [haccounts, hstatus] at hopen
    rcases hopen with hopen | ⟨hopen, -⟩ <;> cases hopen
  | withdrawn found filed about ran => exact .withdrawn ran

/-- While somebody waits, only shares and cleanup rewards leave the prize. -/
theorem AbandonedMove.ghost (h : AbandonedMove w key acc i acc' ts)
    (ha : AbandonedContest w.sys.now acc) (hwaiting : acc.submitters.Nonempty)
    (ht : Tracks acc r) :
    GhostMove key (acc.prizeLeft, acc.submitters) i ts (acc'.prizeLeft, acc'.submitters) ∧
      (acc'.submitters = ∅ → acc'.task.status = .Completed ∧ acc'.escrow = none) := by
  have hsettled {acc₁ : TaskAccounts} (hentries : acc₁.submitters = acc.submitters) :
      acc₁.submitters = ∅ → acc₁.task.status = .Completed ∧ acc₁.escrow = none := by
    intro hnobody
    rw [hentries] at hnobody
    exact absurd hnobody hwaiting.ne_empty
  cases h with
  | donated credits =>
    obtain ⟨hsame, -⟩ := credits.same_prize
    exact ⟨.idle rfl hsame rfl rfl, hsettled (congrArg Prod.snd hsame)⟩
  | expired ran =>
    obtain ⟨hentries, hprize, hunshared⟩ := expireClaim_ghost ran rfl
    exact ⟨.cleaned rfl (decide_eq_true rfl) hentries hprize hunshared, hsettled hentries⟩
  | shared ran =>
    obtain ⟨hwaits, hentries, hshare, hprize, hcleanup, hlast⟩ :=
      distributeGhostShare_ghost ran rfl ht ha.contest
    exact ⟨.shared (if_pos rfl) hwaits hentries hshare hprize hcleanup, hlast⟩
  | withdrawn ran =>
    obtain ⟨_, _, -, -, -, -, -, rfl, -⟩ := cancelDispute_spec ran
    exact ⟨.idle rfl rfl rfl rfl, hsettled rfl⟩

/-- Nothing is left to pay on a completed contest. -/
theorem TaskMove.ghost_done (h : TaskMove w key acc i acc' ts)
    (hacc : w.tasks.lookup key = some acc) (hmint : acc.task.rewardMint = none)
    (hdone : acc.task.status = .Completed) (hescrow : acc.escrow = none)
    (hnobody : acc.submitters = ∅) :
    GhostMove key (acc.prizeLeft, acc.submitters) i ts (acc'.prizeLeft, acc'.submitters) ∧
      acc'.task.status = .Completed ∧ acc'.escrow = none := by
  have hmove := h.finished (.inl hdone) hacc
  obtain ⟨t, ht, hescrows⟩ := h.escrow
  obtain ⟨hgone, hspent⟩ := hescrows.absent (ht.mint.trans hmint) (ht.escrow.trans hescrow)
  rw [ht.key] at hspent
  have hentries : acc'.submitters = ∅ := Finset.eq_empty_of_forall_notMem fun k =>
    hmove.submitters (by rw [hnobody]; exact Finset.notMem_empty k)
  have huncranked : i.ghostShare key = none := by
    refine Option.eq_none_iff_forall_ne_some.mpr fun k hk => ?_
    obtain ⟨payees, rfl⟩ := Instruction.ghostShare_eq_some hk
    cases h with
    | work found ran rent =>
      obtain ⟨_, _, _, _, _, _, hr, -⟩ := distributeGhostShare_spec ran
      have hpending : acc.task.status = .PendingValidation := hr.status
      rw [hdone] at hpending
      cases hpending
  refine ⟨.idle huncranked ?_ (spentOn_le_spent.trans_eq hspent |> Nat.le_zero.mp)
    (spentOn_le_spent.trans_eq hspent |> Nat.le_zero.mp), ?_, hgone⟩
  · rw [TaskAccounts.prizeLeft, TaskAccounts.prizeLeft, hgone, hescrow, hentries, hnobody]
  · rw [hmove.status (.inl hdone), hdone]

/-- A contest stays one. -/
theorem SameTerms.contest {task task' : Task} (h : SameTerms task task')
    (hcontest : isContestConfiguredTask task = true) : isContestConfiguredTask task' = true := by
  rw [isContestConfiguredTask_iff] at hcontest ⊢
  rw [h.taskSchema, h.taskType]
  exact ⟨hcontest.1, h.manual hcontest.2⟩

/-- An instruction on a worker of the task is a move on it. -/
theorem Step.worked {k : Pubkey} {op : WorkOp} (h : Step w (.work key k op, ts) w') :
    ∃ acc acc', w.tasks.lookup key = some acc ∧ w'.tasks.lookup key = some acc' ∧
      TaskMove w key acc (.work key k op) acc' ts := by
  cases h.does with
  | @work _ _ _ acc agent c loaded found ran rent =>
    refine ⟨acc, c.accounts, loaded, ?_, .work found ran rent⟩
    rw [World.storeWork_tasks, (WorkOp.run_frames ran).key]
    exact AList.lookup_insert _

/-- Every step moves an abandoned contest so, and leaves it abandoned. -/
theorem Step.ghost (h : Step w (i, ts) w') (hw : Reachable w)
    (hacc : w.tasks.lookup key = some acc) (ha : AbandonedContest w.sys.now acc) :
    ∃ acc', w'.tasks.lookup key = some acc' ∧ AbandonedContest w'.sys.now acc' ∧
      GhostMove key (acc.prizeLeft, acc.submitters) i ts (acc'.prizeLeft, acc'.submitters) := by
  obtain ⟨hclock, -⟩ := h.environment
  have hmoved {acc₁ acc' : TaskAccounts} (hloaded : w.tasks.lookup key = some acc₁)
      (hstored : w'.tasks.lookup key = some acc') (hmove : TaskMove w key acc₁ i acc' ts) :
      ∃ acc', w'.tasks.lookup key = some acc' ∧ AbandonedContest w'.sys.now acc' ∧
        GhostMove key (acc.prizeLeft, acc.submitters) i ts (acc'.prizeLeft, acc'.submitters) := by
    obtain rfl := Option.some.inj (hacc.symm.trans hloaded)
    have hterms := hmove.terms
    have hsound := hw.contestSound hacc
    have htype := (isContestConfiguredTask_iff.mp ha.contest).1.2
    obtain ⟨hdeadline, hover⟩ := ha.elapsed
    have hghost : GhostMove key (acc.prizeLeft, acc.submitters) i ts
        (acc'.prizeLeft, acc'.submitters) ∧
        (acc'.submitters = ∅ → acc'.task.status = .Completed ∧ acc'.escrow = none) := by
      rcases acc.submitters.eq_empty_or_nonempty with hnobody | hwaiting
      · obtain ⟨hdone, hescrow⟩ := ha.settled hnobody
        obtain ⟨hghost, hafter⟩ := hmove.ghost_done hacc (hsound.mint htype) hdone hescrow hnobody
        exact ⟨hghost, fun _ => hafter⟩
      · have hstatus := hw.contest_underReview hacc ha.contest hwaiting
        obtain ⟨r, hstaffed⟩ := (occupancy hw).tasks key acc hacc
        refine ((hmove.contest hsound (dispute_inv hw) hacc ha.contest ?_).abandoned ha
          hstatus).ghost ha hwaiting hstaffed.tracks
        rw [hstatus]
        rfl
    refine ⟨acc', hstored, ⟨hterms.contest ha.contest, ?_, hghost.2⟩, hghost.1⟩
    rw [SelectionOver, hterms.deadline ha.contest]
    exact ⟨hdeadline, hover.trans hclock⟩
  cases hcrank : i.ghostShare key with
  | some k =>
    obtain ⟨payees, rfl⟩ := Instruction.ghostShare_eq_some hcrank
    obtain ⟨acc₁, acc', hloaded, hstored, hmove⟩ := h.worked
    exact hmoved hloaded hstored hmove
  | none =>
    cases h.task key with
    | apart same unpaid =>
      have houtside := outside_of_unpaid unpaid
      obtain ⟨hdeadline, hover⟩ := ha.elapsed
      exact ⟨acc, same.trans hacc, ⟨ha.contest, ⟨hdeadline, hover.trans hclock⟩, ha.settled⟩,
        .idle hcrank rfl houtside.spentOn houtside.spentFor⟩
    | created new stored fresh unpaid =>
      rw [new] at hacc
      cases hacc
    | moved loaded stored move => exact hmoved loaded stored move

end Moves

/-! ## Runs -/

section Runs

variable {w w' : World} {key : Pubkey} {acc : TaskAccounts} {log : List LogEntry}

/-- A step that pays a share of the prize. -/
def paysShareOn (key : Pubkey) (e : LogEntry) : Bool := (e.label.1.ghostShare key).isSome

/-- A step that pays the share of one entry. -/
def paysShareTo (key k : Pubkey) (e : LogEntry) : Bool :=
  decide (e.label.1.ghostShare key = some k)

/-- The world is reachable and has the contest, which is abandoned. -/
def HasAbandoned (key : Pubkey) (w : World) : Prop :=
  Reachable w ∧ ∃ acc, w.tasks.lookup key = some acc ∧ AbandonedContest w.sys.now acc

theorem liveEntries_of_lookup (hacc : w.tasks.lookup key = some acc) :
    liveEntries key w = acc.submitters := by
  rw [liveEntries, hacc]
  rfl

theorem prizeLeft_of_lookup (hacc : w.tasks.lookup key = some acc) :
    prizeLeft key w = acc.prizeLeft := by
  rw [prizeLeft, hacc]
  rfl

theorem HasAbandoned.step {e : LogEntry} (h : HasAbandoned key e.before)
    (hs : Step e.before e.label e.after) :
    HasAbandoned key e.after ∧
      GhostMove key (prizeLeft key e.before, liveEntries key e.before) e.label.1 e.label.2
        (prizeLeft key e.after, liveEntries key e.after) := by
  obtain ⟨hw, acc, hacc, ha⟩ := h
  obtain ⟨acc', hacc', ha', hmove⟩ := Step.ghost hs hw hacc ha
  refine ⟨⟨hw.step hs, acc', hacc', ha'⟩, ?_⟩
  rw [prizeLeft_of_lookup hacc, prizeLeft_of_lookup hacc', liveEntries_of_lookup hacc,
    liveEntries_of_lookup hacc']
  exact hmove

/-- An abandoned contest stays abandoned, and every step of a run moves it so. -/
theorem HasAbandoned.run (h : HasAbandoned key w) (hrun : Run Step w log w') :
    HasAbandoned key w' ∧ ∀ e ∈ log,
      GhostMove key (prizeLeft key e.before, liveEntries key e.before) e.label.1 e.label.2
        (prizeLeft key e.after, liveEntries key e.after) := by
  have hstep : ∀ s label s', Step s label s' → HasAbandoned key s → HasAbandoned key s' :=
    fun s label s' hs hI => (@HasAbandoned.step key ⟨s, label, s'⟩ hI hs).1
  refine ⟨hrun.invariant hstep h, fun e he => ?_⟩
  obtain ⟨hI, hs⟩ := hrun.invariant_mem hstep h he
  exact (hI.step hs).2

/-- What leaves the prize is paid in shares and cleanup rewards. -/
theorem HasAbandoned.prize (h : HasAbandoned key w) (hrun : Run Step w log w') :
    Run.sumOver (sharePaid key) log + Run.sumOver (cleanupPaid key) log + prizeLeft key w' =
      prizeLeft key w := by
  obtain ⟨-, hmoves⟩ := h.run hrun
  have hspent : prizeLeft key w =
      prizeLeft key w' + Run.sumOver (fun e => sharePaid key e + cleanupPaid key e) log := by
    refine hrun.spends (prizeLeft key) fun e he => ?_
    have hle : prizeLeft key e.before / (liveEntries key e.before).card ≤
        prizeLeft key e.before := Nat.div_le_self _ _
    cases hmoves e he with
    | idle uncranked same unshared uncleaned =>
      have hprize : prizeLeft key e.after = prizeLeft key e.before := congrArg Prod.fst same
      rw [sharePaid, cleanupPaid, unshared, uncleaned, hprize, Nat.add_zero]
    | cleaned uncranked expires entries prize unshared =>
      have hprize : prizeLeft key e.after + spentFor key .cleanupReward e.label.2 =
        prizeLeft key e.before := prize
      rw [sharePaid, cleanupPaid, unshared]
      omega
    | shared crank waits entries share prize uncleaned =>
      have hprize : prizeLeft key e.after = prizeLeft key e.before -
        prizeLeft key e.before / (liveEntries key e.before).card := prize
      rw [sharePaid, cleanupPaid, share, uncleaned]
      dsimp only
      omega
  rw [Run.sumOver_add] at hspent
  omega

/-- Every share takes one entry off. -/
theorem HasAbandoned.entries (h : HasAbandoned key w) (hrun : Run Step w log w') :
    log.countP (paysShareOn key) + (liveEntries key w').card = (liveEntries key w).card := by
  obtain ⟨-, hmoves⟩ := h.run hrun
  have hspent : (liveEntries key w).card = (liveEntries key w').card +
      Run.sumOver (fun e => if paysShareOn key e = true then 1 else 0) log := by
    refine hrun.spends (fun w => (liveEntries key w).card) fun e he => ?_
    cases hmoves e he with
    | idle uncranked same unshared uncleaned =>
      have hentries : liveEntries key e.after = liveEntries key e.before := congrArg Prod.snd same
      rw [paysShareOn, uncranked, hentries]
      rfl
    | cleaned uncranked expires entries prize unshared =>
      have hentries : liveEntries key e.after = liveEntries key e.before := entries
      rw [paysShareOn, uncranked, hentries]
      rfl
    | @shared k crank waits entries share prize uncleaned =>
      have hentries : liveEntries key e.after = (liveEntries key e.before).erase k := entries
      rw [paysShareOn, crank, hentries, Option.isSome_some, if_pos rfl]
      exact (Finset.card_erase_add_one waits).symm
  rw [Run.sumOver_ite] at hspent
  omega

/-- The entries that wait only become fewer, by a share paid to the one that goes. -/
theorem HasAbandoned.entry (h : HasAbandoned key w) (hrun : Run Step w log w') (k : Pubkey) :
    log.countP (paysShareTo key k) =
      if k ∈ liveEntries key w ∧ k ∉ liveEntries key w' then 1 else 0 := by
  have hstep : ∀ s label s', Step s label s' → HasAbandoned key s → HasAbandoned key s' :=
    fun s label s' hs hI => (@HasAbandoned.step key ⟨s, label, s'⟩ hI hs).1
  have hfires : ∀ e : LogEntry, Step e.before e.label e.after → HasAbandoned key e.before →
      paysShareTo key k e = true → ¬k ∉ liveEntries key e.before ∧ k ∉ liveEntries key e.after := by
    intro e hs hI hpays
    have hpays := of_decide_eq_true hpays
    cases (hI.step hs).2 with
    | idle uncranked => rw [hpays] at uncranked; cases uncranked
    | cleaned uncranked => rw [hpays] at uncranked; cases uncranked
    | @shared k' crank waits entries share prize uncleaned =>
      obtain rfl := Option.some.inj (crank.symm.trans hpays)
      refine ⟨not_not_intro waits, ?_⟩
      rw [show liveEntries key e.after = (liveEntries key e.before).erase k' from entries]
      exact Finset.notMem_erase _ _
  have hstays : ∀ s label s', Step s label s' → HasAbandoned key s → k ∉ liveEntries key s →
      k ∉ liveEntries key s' := by
    intro s label s' hs hI hgone
    cases (@HasAbandoned.step key ⟨s, label, s'⟩ hI hs).2 with
    | idle uncranked same =>
      rwa [show liveEntries key s' = liveEntries key s from congrArg Prod.snd same]
    | cleaned uncranked expires entries =>
      rwa [show liveEntries key s' = liveEntries key s from entries]
    | @shared k' crank waits entries share prize uncleaned =>
      rw [show liveEntries key s' = (liveEntries key s).erase k' from entries]
      exact fun hmem => hgone (Finset.mem_of_mem_erase hmem)
  have honly : ∀ e : LogEntry, Step e.before e.label e.after → HasAbandoned key e.before →
      ¬k ∉ liveEntries key e.before → k ∉ liveEntries key e.after →
      paysShareTo key k e = true := by
    intro e hs hI hthere hgone
    have hthere := not_not.mp hthere
    cases (hI.step hs).2 with
    | idle uncranked same =>
      rw [show liveEntries key e.after = liveEntries key e.before from congrArg Prod.snd same]
        at hgone
      exact absurd hthere hgone
    | cleaned uncranked expires entries =>
      rw [show liveEntries key e.after = liveEntries key e.before from entries] at hgone
      exact absurd hthere hgone
    | @shared k' crank waits entries share prize uncleaned =>
      rw [show liveEntries key e.after = (liveEntries key e.before).erase k' from entries] at hgone
      have heq : k = k' := by
        by_contra hne
        exact hgone (Finset.mem_erase.mpr ⟨hne, hthere⟩)
      rw [heq]
      exact decide_eq_true crank
  by_cases hthere : k ∈ liveEntries key w
  · have hcount := hrun.countP_eq (Q := fun w => k ∉ liveEntries key w) hstep hfires hstays honly h
      (not_not_intro hthere)
    rw [hcount, if_congr (and_iff_right hthere).symm rfl rfl]
  · have hcount := hrun.countP_add_le (Q := fun w => k ∉ liveEntries key w) hstep hfires hstays h
    rw [if_pos hthere] at hcount
    rw [if_neg fun hboth => hthere hboth.1]
    split_ifs at hcount <;> omega

end Runs

/-! ## A fixed run -/

/-- A contest of two entrants, both of whom submit and hear nothing from the creator until the
selection is over. -/
def silentScript : List Instruction :=
  [.agent 10 (.registerAgent 100 1 1000000 0), .agent 11 (.registerAgent 101 1 1000000 0),
   .agent 12 (.registerAgent 102 1 1000000 0),
   .create 50 100 false {} (.createTask 10
     ⟨1, 1, (1, 0), 1501, 3, 5000, .Competitive, 0, none⟩ none none 0),
   .task 50 (.configureTaskValidation 100 .CreatorReview 3600 0 none),
   .task 50 (.setTaskJobSpec 100 7),
   .work 50 11 (.claimTaskWithJobSpec 101 0),
   .work 50 12 (.claimTaskWithJobSpec 102 0),
   .work 50 11 (.submitTaskResult 101 9 none 0),
   .work 50 12 (.submitTaskResult 102 9 none 0),
   .tick 200000]

/-- Two shares. -/
def ghostScript : List Instruction :=
  [.work 50 12 (.distributeGhostShare {}), .work 50 11 (.distributeGhostShare {})]

end AgencCoordination
