import AgencCoordination.Invariants.Finished

/-!
# Dispute records

What stays true of every stored dispute while it is settled, slashed and finalized.

* **`Step.dispute`** — every step, seen from one dispute.
* **`DisputeInv`** — the record agrees with itself and with its task: a dispute that came to a
  ruling or expired has a finished task, and unless its slash is still to come, its defendant
  has no claim left there.
* **`dispute_inv`** — it holds of every dispute of every reachable world.
* **`slash_threatens`** — so a slash can be applied only to a dispute that threatens one.
-/

namespace AgencCoordination

open Foundations

/-! ## One dispute -/

/-- The dispute an instruction is about. -/
def Instruction.disputeKey : Instruction → Option Pubkey
  | .initiateDispute _ _ filing => some filing.disputeKey
  | .dispute _ disputeKey _ _ => some disputeKey
  | .applyInitiatorSlash disputeKey _ => some disputeKey
  | _ => none

theorem Instruction.disputeKey_of_plain {i : Instruction} (h : i.touchesDispute = false) :
    i.disputeKey = none := by
  cases i <;> first | rfl | cases h

/-- How a step looks from the dispute `key`. -/
inductive DisputeMove (w : World) (key : Pubkey) : Instruction → World → Prop
  | apart {i : Instruction} {w' : World} (same : w'.disputes.lookup key = w.disputes.lookup key)
      (other : i.disputeKey ≠ some key) : DisputeMove w key i w'
  | opened {taskKey signer : Pubkey} {filing : DisputeFiling} {w' : World} {d : Dispute}
      (new : w.disputes.lookup key = none) (stored : w'.disputes.lookup key = some d)
      (record : ∃ byCreator, OpenedDispute w taskKey signer filing byCreator d)
      (named : filing.disputeKey = key) (task : (w.tasks.lookup taskKey).isSome = true) :
      DisputeMove w key (.initiateDispute taskKey signer filing) w'
  | ruled {taskKey k : Pubkey} {op : DisputeOp} {acc : TaskAccounts}
      {agent : Account AgentRegistration} {d d' : Dispute} {c : TaskContext} {w' : World}
      (filed : w.disputes.lookup key = some d) (stored : w'.disputes.lookup key = some d')
      (about : d.task = taskKey) (loaded : w.tasks.lookup taskKey = some acc)
      (left : w'.tasks.lookup taskKey = some c.accounts)
      (found : w.agents.lookup k = some agent)
      (ran : op.run w (w.workContext taskKey acc k agent) d = .ok (c, d')) :
      DisputeMove w key (.dispute taskKey key k op) w'
  | finalized {agentKey : Pubkey} {w' : World} {d : Dispute}
      (filed : w.disputes.lookup key = some d)
      (stored : w'.disputes.lookup key = some { d with initiatorSlashApplied := true })
      (final : d.status.isFinal) :
      DisputeMove w key (.applyInitiatorSlash key agentKey) w'

/-- Every step, seen from one dispute. -/
theorem Step.dispute {w w' : World} {i : Instruction} {ts : List Transfer}
    (h : Step w (i, ts) w') (key : Pubkey) : DisputeMove w key i w' := by
  cases h.agents with
  | same plain agents disputes unpaid =>
    refine .apart (by rw [disputes]) ?_
    rw [Instruction.disputeKey_of_plain plain]
    exact nofun
  | donated credits disputes => exact .apart (by rw [disputes]) nofun
  | wrote writes paid ran =>
    obtain ⟨_, _, -, rfl⟩ := writes
    exact .apart rfl nofun
  | worked found agents disputes => exact .apart (by rw [disputes]) nofun
  | freed agents disputes unpaid => exact .apart (by rw [disputes]) nofun
  | @opened taskKey signer filing _ opens =>
    obtain ⟨acc, _, _, d, hnew, hacc, -, -, -, -, hopened, -, -, -, -, rfl⟩ := opens
    by_cases hkey : key = filing.disputeKey
    · subst hkey
      exact .opened hnew (AList.lookup_insert _) ⟨_, hopened⟩ rfl (by rw [hacc]; rfl)
    · refine .apart (AList.lookup_insert_ne hkey) fun hother => ?_
      exact hkey (Option.some.inj hother).symm
  | @ruled taskKey disputeKey k op acc agent d d' c _ loaded found filed about ran agents disputes
      tasks =>
    by_cases hkey : key = disputeKey
    · subst hkey
      have hleft : w'.tasks.lookup taskKey = some c.accounts := by rw [tasks, AList.lookup_insert]
      exact .ruled filed (by rw [disputes, AList.lookup_insert]) about loaded hleft found ran
    · refine .apart (by rw [disputes, AList.lookup_insert_ne hkey]) fun hother => ?_
      exact hkey (Option.some.inj hother).symm
  | @finalized disputeKey agentKey _ _ ran =>
    obtain ⟨d, _, _, _, hd, -, -, -, hfinal, -, -, -, -, rfl⟩ := applyInitiatorSlash_spec ran
    by_cases hkey : key = disputeKey
    · subst hkey
      exact .finalized hd (AList.lookup_insert _) hfinal
    · refine .apart (AList.lookup_insert_ne hkey) fun hother => ?_
      exact hkey (Option.some.inj hother).symm
  | repaired ran =>
    obtain ⟨_, _, -, -, -, -, -, -, rfl⟩ := repairDisputeInitiatorCounter_spec ran
    exact .apart rfl nofun

/-! ## What a dispute threatens -/

namespace Dispute

/-- A ruling was made. -/
def isRuled (d : Dispute) : Prop :=
  d.status = .Resolved ∨ d.status = .SettlementPending ∧ d.pendingTerminalStatus = .Resolved

/-- The dispute came to a ruling, or expired, and so ended its task. -/
def hasEnded (d : Dispute) : Prop :=
  d.status = .Resolved ∨ d.status = .Expired ∨ d.status = .SettlementPending

/-- The ruling took the work away from the defendant. -/
def workerLost (d : Dispute) : Prop := d.isRuled ∧ 0 < d.votesFor ∧ d.resolutionType = .Refund

/-- The dispute can still cost its defendant a slash: it is open, or was lost and the slash is
not applied yet. -/
def threatens (d : Dispute) : Prop :=
  d.status = .Active ∨ d.workerLost ∧ d.slashApplied = false

instance (d : Dispute) : Decidable d.isRuled := inferInstanceAs (Decidable (_ ∨ _))

instance (d : Dispute) : Decidable d.workerLost := inferInstanceAs (Decidable (_ ∧ _))

instance : DecidablePred threatens := fun _ => inferInstanceAs (Decidable (_ ∨ _))

theorem isRuled.hasEnded {d : Dispute} (h : d.isRuled) : d.hasEnded := by
  rcases h with h | ⟨h, -⟩
  · exact .inl h
  · exact .inr (.inr h)

theorem hasEnded.not_active {d : Dispute} (h : d.hasEnded) : d.status ≠ .Active := by
  rcases h with h | h | h <;> rw [h] <;> decide

/-- A ruling settles the dispute as resolved, or as waiting for its peers. -/
theorem settle_isRuled (d : Dispute) (peers : ℕ) (now : ℤ) :
    (d.settle .Resolved peers now).isRuled := by
  by_cases hpeers : peers = 0
  · exact .inl (if_pos hpeers)
  · exact .inr ⟨if_neg hpeers, if_neg hpeers⟩

theorem settle_expired_not_isRuled {d : Dispute} {peers : ℕ} {now : ℤ} :
    ¬(d.settle .Expired peers now).isRuled := by
  by_cases hpeers : peers = 0
  · simp [isRuled, settle, hpeers]
  · simp [isRuled, settle, hpeers]

theorem settle_expired_hasEnded (d : Dispute) (peers : ℕ) (now : ℤ) :
    (d.settle .Expired peers now).hasEnded := by
  by_cases hpeers : peers = 0
  · exact .inr (.inl (if_pos hpeers))
  · exact .inr (.inr (if_neg hpeers))

/-- Who waits for peers has a ruling or an expiry to return to. -/
theorem settle_pending {d : Dispute} {final : DisputeStatus} {peers : ℕ} (now : ℤ)
    (h : (d.settle final peers now).status = .SettlementPending)
    (hfinal : final ≠ .SettlementPending) :
    (d.settle final peers now).pendingTerminalStatus = final := by
  by_cases hpeers : peers = 0
  · simp only [settle, hpeers, if_true] at h
    exact absurd h hfinal
  · exact if_neg hpeers

end Dispute

/-! ## The invariant -/

/-- A dispute agrees with itself, and with the task it is about. -/
structure DisputeInv (w : World) (d : Dispute) : Prop where
  tracked : d.initiatorTracked = true
  pending : d.status = .SettlementPending →
    d.pendingTerminalStatus = .Resolved ∨ d.pendingTerminalStatus = .Expired
  votes : d.isRuled → d.votesFor = 1 ∧ d.votesAgainst = 0 ∨ d.votesFor = 0 ∧ d.votesAgainst = 1
  slashed : d.slashApplied = true → d.status = .Resolved ∧ d.workerLost
  finalized : d.initiatorSlashApplied = true → d.status.isFinal
  task : ∃ acc, w.tasks.lookup d.task = some acc ∧ (d.hasEnded → acc.task.status.isFinished ∧
    (¬d.threatens → acc.claims.lookup d.defendant = none))

/-- A dispute a step does not name keeps the invariant. -/
theorem DisputeInv.step {w w' : World} {i : Instruction} {ts : List Transfer} {d : Dispute}
    (hinv : DisputeInv w d) (h : Step w (i, ts) w') : DisputeInv w' d := by
  refine { hinv with task := ?_ }
  obtain ⟨acc, hacc, hended⟩ := hinv.task
  by_cases hd : d.hasEnded
  · obtain ⟨hdone, hclaims⟩ := hended hd
    obtain ⟨acc', hacc', hstatus, hkeep⟩ := h.finished hacc hdone
    refine ⟨acc', hacc', fun _ => ⟨by rwa [hstatus], fun hthreat => ?_⟩⟩
    exact hkeep _ (hclaims hthreat)
  · cases h.task d.task with
    | apart same unpaid => exact ⟨acc, same.trans hacc, fun hd' => absurd hd' hd⟩
    | created new stored fresh unpaid =>
      rw [new] at hacc
      cases hacc
    | moved loaded stored move => exact ⟨_, stored, fun hd' => absurd hd' hd⟩

/-- The new record of a dispute, on the task its settlement finished. -/
theorem DisputeInv.of_finished {w : World} {d : Dispute} {acc : TaskAccounts}
    (tracked : d.initiatorTracked = true)
    (pending : d.status = .SettlementPending →
      d.pendingTerminalStatus = .Resolved ∨ d.pendingTerminalStatus = .Expired)
    (votes : d.isRuled →
      d.votesFor = 1 ∧ d.votesAgainst = 0 ∨ d.votesFor = 0 ∧ d.votesAgainst = 1)
    (slashed : d.slashApplied = true → d.status = .Resolved ∧ d.workerLost)
    (finalized : d.initiatorSlashApplied = true → d.status.isFinal)
    (hacc : w.tasks.lookup d.task = some acc) (hdone : acc.task.status.isFinished)
    (hclaims : ¬d.threatens → acc.claims.lookup d.defendant = none) : DisputeInv w d :=
  ⟨tracked, pending, votes, slashed, finalized, acc, hacc, fun _ => ⟨hdone, hclaims⟩⟩

section Rulings

variable {w : World} {c c' : TaskContext} {d d' : Dispute} {acc : TaskAccounts}

theorem OpenedDispute.inv {w' : World} {taskKey signer : Pubkey} {filing : DisputeFiling}
    {byCreator : Bool} (h : OpenedDispute w taskKey signer filing byCreator d)
    (hacc : w'.tasks.lookup taskKey = some acc) : DisputeInv w' d := by
  have hactive : d.status = .Active := h.status
  have hnot : ¬d.hasEnded := fun hended => hended.not_active hactive
  refine ⟨h.tracked, ?_, fun hruled => absurd hruled.hasEnded hnot, ?_, ?_, ?_⟩
  · rw [hactive]
    nofun
  · rw [h.unslashed]
    nofun
  · rw [h.unapplied]
    nofun
  · rw [h.task]
    exact ⟨acc, hacc, fun hended => absurd hended hnot⟩

/-- A withdrawn dispute has ended nothing. -/
theorem cancelDispute_inv {w' : World} {signer : Pubkey}
    (h : cancelDispute c d signer = .ok (c', d')) (hinv : DisputeInv w d)
    (htask : w'.tasks.lookup d.task = some acc) : DisputeInv w' d' := by
  obtain ⟨_, _, hactive, -, -, -, -, -, rfl⟩ := cancelDispute_spec h
  have hunslashed : d.slashApplied ≠ true := fun hslashed => by
    have hstatus := (hinv.slashed hslashed).1
    rw [hactive] at hstatus
    cases hstatus
  refine ⟨hinv.tracked, nofun, ?_, fun hslashed => absurd hslashed hunslashed, ?_, acc, htask, ?_⟩
  · rintro (hruled | ⟨hruled, -⟩) <;> cases hruled
  · exact fun _ => .inr (.inr rfl)
  · rintro (hended | hended | hended) <;> cases hended

/-- A ruling finishes the task, and closes the claim of a defendant who did not lose. -/
theorem resolveDispute_inv {w' : World} {signer : Pubkey} {signers : List Pubkey}
    {assigned approved : Bool} {payees : PayeeAccounts}
    (h : resolveDispute c d signer signers assigned approved payees = .ok (c', d'))
    (hinv : DisputeInv w d) (htask : w'.tasks.lookup d.task = some c'.accounts) :
    DisputeInv w' d' := by
  obtain ⟨_, _, _, _, _, _, _, _, _, _, _, _, _, _, _, hactive, hdefendant, h⟩ :=
    resolveDispute_spec h
  obtain ⟨-, -, -, -, -, -, -, -, -, _, _, _, _, _, h⟩ := h
  obtain ⟨votesFor, votesAgainst, rfl, rfl, rfl, rfl⟩ := h
  have hunslashed : d.slashApplied ≠ true := fun hslashed => by
    have hstatus := (hinv.slashed hslashed).1
    rw [hactive] at hstatus
    cases hstatus
  have hunapplied : d.initiatorSlashApplied ≠ true := fun happlied => by
    have hstatus := hinv.finalized happlied
    rw [hactive] at hstatus
    rcases hstatus with hstatus | hstatus | hstatus <;> cases hstatus
  have hruled := d.settle_isRuled (c.accounts.task.currentWorkers - 1) c.sys.now
  refine .of_finished hinv.tracked ?_ ?_ (fun hslashed => absurd hslashed hunslashed)
    (fun happlied => absurd happlied hunapplied) htask (rulingStatus_isFinished _ _) ?_
  · exact fun hpending => .inl (Dispute.settle_pending c.sys.now hpending (by decide))
  · intro _
    cases approved
    · exact .inr ⟨rfl, rfl⟩
    · exact .inl ⟨rfl, rfl⟩
  · intro hthreat
    -- A defendant who lost is still threatened, and keeps its claim.
    have hwon : workerLostDispute approved d.resolutionType = false := by
      by_contra hlost
      rw [Bool.not_eq_false, workerLostDispute, Bool.and_eq_true, decide_eq_true_eq] at hlost
      obtain ⟨rfl, hrefund⟩ := hlost
      exact hthreat (.inr ⟨⟨hruled, Nat.one_pos, hrefund⟩, Bool.eq_false_iff.mpr hunslashed⟩)
    simp only [hwon, Bool.false_eq_true, if_false, hdefendant]
    exact AList.lookup_erase _ _

theorem expireDispute_inv {w' : World} (h : expireDispute c d = .ok (c', d'))
    (hinv : DisputeInv w d) (htask : w'.tasks.lookup d.task = some c'.accounts) :
    DisputeInv w' d' := by
  obtain ⟨_, _, _, _, _, _, _, _, _, _, _, _, _, _, _, hactive, hdefendant, h⟩ :=
    expireDispute_spec h
  obtain ⟨-, -, -, -, -, -, -, -, -, -, rfl, rfl⟩ := h
  have hunslashed : d.slashApplied ≠ true := fun hslashed => by
    have hstatus := (hinv.slashed hslashed).1
    rw [hactive] at hstatus
    cases hstatus
  have hunapplied : d.initiatorSlashApplied ≠ true := fun happlied => by
    have hstatus := hinv.finalized happlied
    rw [hactive] at hstatus
    rcases hstatus with hstatus | hstatus | hstatus <;> cases hstatus
  refine .of_finished hinv.tracked ?_ (fun hruled => absurd hruled d.settle_expired_not_isRuled)
    (fun hslashed => absurd hslashed hunslashed) (fun happlied => absurd happlied hunapplied)
    htask (.inr rfl) fun _ => ?_
  · exact fun hpending => .inr (Dispute.settle_pending c.sys.now hpending (by decide))
  · change (c.accounts.claims.erase c.workerKey).lookup d.defendant = none
    rw [hdefendant]
    exact AList.lookup_erase _ _

/-- Settling a peer keeps what was ruled. -/
theorem settleDisputeClaim_inv {w' : World} (h : settleDisputeClaim c d = .ok (c', d'))
    (hinv : DisputeInv w d) (hload : w.tasks.lookup d.task = some c.accounts)
    (htask : w'.tasks.lookup d.task = some c'.accounts) : DisputeInv w' d' := by
  obtain ⟨_, _, _, _, _, status', _, hpending, -, hpeer, -, -, -, -, -, -, hstatus, hlast, h⟩ :=
    settleDisputeClaim_spec h
  obtain ⟨rfl, rfl⟩ := h
  have hended : d.hasEnded := .inr (.inr hpending)
  obtain ⟨acc, hacc, hfinished⟩ := hinv.task
  obtain rfl := Option.some.inj (hacc.symm.trans hload)
  obtain ⟨hdone, hclaims⟩ := hfinished hended
  have hunslashed : d.slashApplied ≠ true := fun hslashed => by
    have hstatus := (hinv.slashed hslashed).1
    rw [hpending] at hstatus
    cases hstatus
  have hunapplied : d.initiatorSlashApplied ≠ true := fun happlied => by
    have hstatus := hinv.finalized happlied
    rw [hpending] at hstatus
    rcases hstatus with hstatus | hstatus | hstatus <;> cases hstatus
  -- The last peer turns the pending outcome into the status; before it nothing changes.
  have hruled : ({ d with peerWorkersSettled := d.peerWorkersSettled + 1, status := status' } :
      Dispute).isRuled ↔ d.isRuled := by
    change (status' = .Resolved ∨ status' = .SettlementPending ∧ _) ↔ _
    rw [hstatus]
    split_ifs with hlast'
    · rcases hlast hlast' with hp | hp <;> simp [Dispute.isRuled, hp, hpending]
    · exact Iff.rfl
  refine .of_finished hinv.tracked ?_ ?_ (fun hslashed => absurd hslashed hunslashed)
    (fun happlied => absurd happlied hunapplied) htask hdone ?_
  · exact fun _ => hinv.pending hpending
  · exact fun hr => hinv.votes (hruled.mp hr)
  · intro hthreat
    refine lookup_eq_none_erase (hclaims fun hold => hthreat ?_)
    rcases hold with hold | ⟨⟨hr, hrest⟩, hslash⟩
    · rw [hpending] at hold
      cases hold
    · exact .inr ⟨⟨hruled.mpr hr, hrest⟩, hslash⟩

/-- A slash needs a vote for the dispute. -/
theorem applyDisputeSlash_votes {withTokenAccounts : Bool}
    (h : applyDisputeSlash c d withTokenAccounts = .ok (c', d'))
    (hthreshold : 0 < c.config.disputeThreshold) : 0 < d.votesFor := by
  simp only [applyDisputeSlash, bind_eq_ok, demand_eq_ok, require_eq_ok,
    calculateApprovalPercentage, Except.ok.injEq] at h
  obtain ⟨_, -, _, -, _, -, _, -, pct, ⟨_, -, hpct⟩, _, hpolicy, -⟩ := h
  by_contra hzero
  have hvotes : d.votesFor = 0 := Nat.eq_zero_of_not_pos hzero
  have hrejected : decide (c.config.disputeThreshold ≤ pct) = false := by
    rw [← hpct, hvotes]
    simpa using hthreshold.ne'
  rw [hrejected] at hpolicy
  simp [workerSlashFinalizerPolicy, workerLostDispute] at hpolicy

/-- A slash can be applied only to a dispute that still threatens one: everybody else's claim is
gone. -/
theorem slash_threatens {withTokenAccounts : Bool}
    (h : applyDisputeSlash c d withTokenAccounts = .ok (c', d')) (hinv : DisputeInv w d)
    (hload : w.tasks.lookup d.task = some c.accounts) :
    d.workerLost ∧ d.slashApplied = false := by
  obtain ⟨claim, _, _, _, _, _, _, _, _, _, _, _, hclaim, hdefendant, hresolved, -⟩ :=
    applyDisputeSlash_spec h
  obtain ⟨acc, hacc, hended⟩ := hinv.task
  obtain rfl := Option.some.inj (hacc.symm.trans hload)
  by_contra hnot
  have hthreat : ¬d.threatens := by
    rintro (hactive | hlost)
    · rw [hresolved] at hactive
      cases hactive
    · exact hnot hlost
  have hgone := (hended (.inl hresolved)).2 hthreat
  rw [← hdefendant, hclaim] at hgone
  cases hgone

theorem applyDisputeSlash_inv {w' : World} {withTokenAccounts : Bool}
    (h : applyDisputeSlash c d withTokenAccounts = .ok (c', d')) (hinv : DisputeInv w d)
    (hload : w.tasks.lookup d.task = some c.accounts)
    (htask : w'.tasks.lookup d.task = some c'.accounts) : DisputeInv w' d' := by
  have hlost := (slash_threatens h hinv hload).1
  obtain ⟨claim, _, _, _, _, _, _, _, _, _, _, _, -, hdefendant, hresolved, -, h⟩ :=
    applyDisputeSlash_spec h
  obtain ⟨-, -, -, -, -, -, -, rfl, rfl⟩ := h
  obtain ⟨acc, hacc, hended⟩ := hinv.task
  obtain rfl := Option.some.inj (hacc.symm.trans hload)
  have hdone := (hended (.inl hresolved)).1
  refine .of_finished hinv.tracked hinv.pending hinv.votes (fun _ => ⟨hresolved, hlost⟩)
    hinv.finalized htask hdone fun _ => ?_
  change (c.accounts.claims.erase c.workerKey).lookup d.defendant = none
  rw [hdefendant]
  exact AList.lookup_erase _ _

end Rulings

/-- Every dispute of a reachable world keeps the invariant. -/
theorem dispute_inv {w : World} (h : Reachable w) :
    ∀ key d, w.disputes.lookup key = some d → DisputeInv w d := by
  refine h.induct (I := fun w => ∀ key d, w.disputes.lookup key = some d → DisputeInv w d) ?_ ?_
  · intro w hgenesis key d hd
    rw [hgenesis.disputes] at hd
    cases hd
  · rintro w ⟨i, ts⟩ w' - hs ih key d' hd'
    cases hs.dispute key with
    | apart same other => exact (ih key d' (same.symm.trans hd')).step hs
    | @opened taskKey _ _ _ d new stored record named task =>
      obtain rfl := Option.some.inj (hd'.symm.trans stored)
      obtain ⟨_, hopened⟩ := record
      obtain ⟨acc, hacc⟩ := Option.isSome_iff_exists.mp task
      cases hs.task taskKey with
      | apart same unpaid => exact hopened.inv (same.trans hacc)
      | created new stored fresh unpaid => exact hopened.inv stored
      | moved loaded stored move => exact hopened.inv stored
    | @ruled taskKey k op acc agent d d₂ c _ filed stored about loaded left found ran =>
      obtain rfl := Option.some.inj (hd'.symm.trans stored)
      have hinv := ih key d filed
      rw [← about] at left
      have hload : w.tasks.lookup d.task = some (w.workContext taskKey acc k agent).accounts := by
        rw [about]
        exact loaded
      cases op with
      | cancelDispute signer => exact cancelDispute_inv ran hinv left
      | resolveDispute signer signers withAssignment approved payees =>
        exact resolveDispute_inv ran hinv left
      | expireDispute => exact expireDispute_inv ran hinv left
      | settleDisputeClaim => exact settleDisputeClaim_inv ran hinv hload left
      | applyDisputeSlash withTokenAccounts => exact applyDisputeSlash_inv ran hinv hload left
    | finalized filed stored final =>
      obtain rfl := Option.some.inj (hd'.symm.trans stored)
      have hinv := (ih key _ filed).step hs
      exact { hinv with finalized := fun _ => final }

/-- The threshold `initialize_protocol` set is positive and stays. -/
theorem threshold_pos {w : World} (h : Reachable w) : 0 < w.config.disputeThreshold := by
  refine h.induct (I := fun w => 0 < w.config.disputeThreshold) ?_ ?_
  · exact fun w hgenesis => hgenesis.disputeThreshold.1
  · rintro w ⟨i, ts⟩ w' - hs ih
    rw [hs.environment.2.2.disputeThreshold]
    exact ih

/-! ## A dispute in full -/

/-- A creator (agent `10`) disputes the claim of the worker `11` on task `50`, and the worker
loses, is slashed, and the dispute is finalized. -/
def disputeScript : List Instruction :=
  [.agent 10 (.registerAgent 100 1 2000000 0),
    .agent 11 (.registerAgent 101 1 1000000 0),
    .create 50 100 false {} (.createTask 10 ⟨1, 1, (1, 0), 1500, 1, 5000, .Exclusive, 0, none⟩
      none none 0),
    .task 50 (.configureTaskValidation 100 .CreatorReview 3600 0 none),
    .task 50 (.setTaskJobSpec 100 7),
    .work 50 11 (.claimTaskWithJobSpec 101 0),
    .initiateDispute 50 100 ⟨60, 10, some 11, 5, .Refund⟩,
    .dispute 50 60 11 (.resolveDispute 1 [1, 3] false true {}),
    .dispute 50 60 11 (.applyDisputeSlash false),
    .applyInitiatorSlash 60 10]

/-- The world in which that dispute is open. -/
def disputedWorld : World := deployed.after (disputeScript.take 7)

theorem disputedWorld_reachable : Reachable disputedWorld := deployed_genesis.reachable_after _

end AgencCoordination
