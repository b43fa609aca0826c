import AgencCoordination.Invariants.Counters
import AgencCoordination.Invariants.Occupancy
import AgencCoordination.Invariants.TokenMoves

/-!
# Rulings and what they leave to settle

A ruling, or the expiry of a dispute, ends the task and settles the defendant. What is left are
the claims of its peers, one `settle_dispute_claim` each, and the defendant's own claim when it
waits for its slash.

* **`Settling`** — the marks of the task, its worker count and the defendant's claim say exactly
  what an ended dispute still has to settle.
* **`rulings`** — in every reachable world: at most one dispute of a task has ended, the task agrees
  with it, and a task without one bears no mark.
-/

namespace AgencCoordination

open Foundations

namespace Dispute

/-- The ruling took the work away, and the slash is still to come. -/
def awaitsSlash (d : Dispute) : Prop := d.workerLost ∧ d.slashApplied = false

instance : DecidablePred awaitsSlash := fun _ => inferInstanceAs (Decidable (_ ∧ _))

/-- The peers still to be settled. -/
def peersLeft (d : Dispute) : ℕ :=
  if d.status = .SettlementPending then d.peerWorkersTotal - d.peerWorkersSettled else 0

instance (d : Dispute) : Decidable d.hasEnded := inferInstanceAs (Decidable (_ ∨ _))

end Dispute

/-- The accounts of a task agree with the dispute that ended it. -/
structure Settling (acc : TaskAccounts) (d : Dispute) : Prop where
  slash : acc.task.workerSlashPending = decide d.awaitsSlash
  peers : acc.task.peerSettlementPending = decide (d.status = .SettlementPending)
  workers : acc.task.currentWorkers = d.peersLeft + if d.awaitsSlash then 1 else 0
  settled : d.peerWorkersSettled ≤ d.peerWorkersTotal
  left : d.status = .SettlementPending ↔ d.peerWorkersSettled < d.peerWorkersTotal
  few : d.peerWorkersTotal < disputeSafeMaxWorkers
  claim : d.awaitsSlash → (acc.claims.lookup d.defendant).isSome = true

section Keeps

variable {w : World} {key : Pubkey} {acc acc' : TaskAccounts} {i : Instruction}
  {ts : List Transfer} {d d' : Dispute}

/-- What agrees with a dispute may change in everything else. -/
theorem Settling.of_same (h : Settling acc d) (hmarks : acc'.task.marks = acc.task.marks)
    (hworkers : acc'.task.currentWorkers = acc.task.currentWorkers)
    (hclaim : (acc.claims.lookup d.defendant).isSome = true →
      (acc'.claims.lookup d.defendant).isSome = true) : Settling acc' d := by
  simp only [Task.marks, Prod.mk.injEq] at hmarks
  obtain ⟨-, hslash, hpeers⟩ := hmarks
  refine ⟨hslash.trans h.slash, hpeers.trans h.peers, hworkers.trans h.workers, h.settled, h.left,
    h.few, fun hawaits => hclaim (h.claim hawaits)⟩

theorem Credits.keeps_claim {amount : ℕ} {target : Custody} {k : Pubkey}
    (h : Credits key amount acc target acc') (hk : (acc.claims.lookup k).isSome = true) :
    (acc'.claims.lookup k).isSome = true := by
  cases h with
  | @claim k' claim loaded =>
    by_cases hkey : k = k'
    · subst hkey
      rw [AList.lookup_insert]
      rfl
    · rw [AList.lookup_insert_ne hkey]
      exact hk
  | _ => exact hk

/-- A finished task is left alone while its dispute has something to settle, and keeps its
count when there is nothing. -/
theorem FinishedMove.settling (h : FinishedMove w key acc i acc' ts)
    (hdone : acc.task.status.isFinished) (hs : Settling acc d) {disputeKey : Pubkey}
    (hother : i.disputeKey ≠ some disputeKey)
    (honly : ∀ k d, w.disputes.lookup k = some d → d.task = key → d.hasEnded → k = disputeKey) :
    Settling acc' d := by
  cases h with
  | donated credits =>
    exact hs.of_same (by rw [credits.task]) (by rw [credits.task]) credits.keeps_claim
  | bid found touches =>
    obtain ⟨_, _, _, _, _, -, -, -, rfl⟩ := touches
    exact hs.of_same rfl rfl id
  | bond ran =>
    obtain ⟨-, rfl⟩ := reclaimCompletionBond_spec ran
    exact hs.of_same rfl rfl id
  | claim found ran =>
    obtain ⟨_, _, _, _, -, -, hslash, hpeers, hworkers, -⟩ := reclaimTerminalClaim_spec ran
    -- With neither mark set nobody is left on the task.
    have hworkers : 0 < acc.task.currentWorkers := hworkers
    have hslash : acc.task.workerSlashPending = false := hslash
    have hpeers : acc.task.peerSettlementPending = false := hpeers
    rw [hs.slash, decide_eq_false_iff_not] at hslash
    rw [hs.peers, decide_eq_false_iff_not] at hpeers
    rw [hs.workers, Dispute.peersLeft, if_neg hpeers, if_neg hslash] at hworkers
    exact absurd hworkers (lt_irrefl 0)
  | closed ran =>
    obtain ⟨_, _, _, _, _, _, _, -, -, -, -, -, -, -, -, rfl⟩ := closeTask_spec ran
    exact hs.of_same rfl rfl id
  | withdrawn found filed about ran =>
    obtain ⟨_, _, -, -, -, -, -, rfl, -⟩ := cancelDispute_spec ran
    exact hs.of_same rfl rfl id
  | settled found filed about ran =>
    obtain ⟨_, _, _, _, _, _, _, hpending, -⟩ := settleDisputeClaim_spec ran
    exact absurd (congrArg some (honly _ _ filed about (.inr (.inr hpending)))) hother
  | slashed found filed about ran =>
    obtain ⟨_, _, _, _, _, _, _, _, _, _, _, _, -, -, hresolved, -⟩ := applyDisputeSlash_spec ran
    exact absurd (congrArg some (honly _ _ filed about (.inl hresolved))) hother

end Keeps

/-! ## The steps of the dispute itself -/

section Moves

variable {w : World} {c c' : TaskContext} {d d' : Dispute} {r : Roster Pubkey}

theorem settle_peersLeft (d : Dispute) (final : DisputeStatus) (peers : ℕ) (now : ℤ)
    (hfinal : final ≠ .SettlementPending) : (d.settle final peers now).peersLeft = peers := by
  by_cases hpeers : peers = 0
  · simp [Dispute.peersLeft, Dispute.settle, hpeers, hfinal]
  · simp [Dispute.peersLeft, Dispute.settle, hpeers]

theorem settle_left (d : Dispute) (final : DisputeStatus) (peers : ℕ) (now : ℤ)
    (hfinal : final ≠ .SettlementPending) :
    (d.settle final peers now).status = .SettlementPending ↔ 0 < peers := by
  by_cases hpeers : peers = 0
  · simp [Dispute.settle, hpeers, hfinal]
  · simp [Dispute.settle, hpeers, Nat.pos_of_ne_zero hpeers]

/-- A ruling leaves a slash to wait for exactly when the worker lost. -/
theorem ruled_awaitsSlash (hunslashed : d.slashApplied = false) (approved : Bool) (peers : ℕ)
    (now : ℤ) {votesFor : ℕ} (votesAgainst : ℕ) (resolvedBy : Pubkey)
    (hvotes : votesFor = if approved then 1 else 0) :
    Dispute.awaitsSlash { d.settle .Resolved peers now with
      votesFor := votesFor, votesAgainst := votesAgainst, resolvedBy := resolvedBy } ↔
      workerLostDispute approved d.resolutionType = true := by
  have hruled := d.settle_isRuled peers now
  rw [workerLostDispute_eq_true]
  constructor
  · rintro ⟨⟨-, hfor, hrefund⟩, -⟩
    refine ⟨?_, hrefund⟩
    cases approved with
    | true => rfl
    | false =>
      rw [hvotes] at hfor
      exact absurd hfor (lt_irrefl 0)
  · rintro ⟨rfl, hrefund⟩
    exact ⟨⟨hruled, by rw [hvotes]; exact Nat.one_pos, hrefund⟩, hunslashed⟩

/-- An active dispute was not slashed for. -/
theorem DisputeInv.unslashed (hinv : DisputeInv w d) (hstatus : d.status ≠ .Resolved) :
    d.slashApplied = false :=
  Bool.eq_false_iff.mpr fun hslashed => hstatus (hinv.slashed hslashed).1

/-- What a ruling leaves is what its task says. -/
theorem resolveDispute_settling {signer : Pubkey} {signers : List Pubkey}
    {assigned approved : Bool} {payees : PayeeAccounts}
    (h : resolveDispute c d signer signers assigned approved payees = .ok (c', d'))
    (hinv : DisputeInv w d) (hcapacity : c.accounts.task.currentWorkers ≤ disputeSafeMaxWorkers) :
    Settling c'.accounts d' := by
  obtain ⟨claim, _, _, _, _, _, _, _, _, _, _, _, _, _, _, hactive, hdefendant, hclaim, h⟩ :=
    resolveDispute_spec h
  obtain ⟨-, -, -, -, -, -, -, -, _, _, _, _, _, votesFor, votesAgainst, h⟩ := h
  obtain ⟨hvotes, -, rfl, rfl⟩ := h
  have hunslashed := hinv.unslashed (by rw [hactive]; decide)
  have hawaits := ruled_awaitsSlash hunslashed approved (c.accounts.task.currentWorkers - 1)
    c.sys.now votesAgainst signer hvotes
  have hpending := settle_left d .Resolved (c.accounts.task.currentWorkers - 1) c.sys.now
    (by decide)
  have hleft := settle_peersLeft d .Resolved (c.accounts.task.currentWorkers - 1) c.sys.now
    (by decide)
  refine ⟨?_, ?_, ?_, Nat.zero_le _, hpending, ?_, fun hwaits => ?_⟩
  · have hmark : decide (workerLostDispute approved d.resolutionType = true) =
        workerLostDispute approved d.resolutionType := Bool.decide_eq_true
    exact hmark.symm.trans (decide_eq_decide.mpr hawaits.symm)
  · exact decide_eq_decide.mpr hpending.symm
  · show c.accounts.task.currentWorkers - 1 +
        (if workerLostDispute approved d.resolutionType = true then 1 else 0) = _
    rw [if_congr hawaits rfl rfl]
    exact congrArg (· + _) hleft.symm
  · show c.accounts.task.currentWorkers - 1 < disputeSafeMaxWorkers
    unfold disputeSafeMaxWorkers at *
    omega
  · show ((if workerLostDispute approved d.resolutionType = true then c.accounts.claims
      else c.accounts.claims.erase c.workerKey).lookup d.defendant).isSome = true
    rw [if_pos (hawaits.mp hwaits), ← hdefendant, hclaim]
    rfl

/-- An expired dispute never waits for a slash. -/
theorem expireDispute_settling (h : expireDispute c d = .ok (c', d'))
    (hcapacity : c.accounts.task.currentWorkers ≤ disputeSafeMaxWorkers)
    (hunmarked : c.accounts.task.workerSlashPending = false) : Settling c'.accounts d' := by
  obtain ⟨_, _, _, _, _, _, _, _, _, _, _, _, _, _, _, -, -, -, -, -, -, -, -, -, -, -, -, rfl,
    rfl⟩ := expireDispute_spec h
  have hawaits : ¬(d.settle .Expired (c.accounts.task.currentWorkers - 1) c.sys.now).awaitsSlash :=
    fun hwaits => Dispute.settle_expired_not_isRuled hwaits.1.1
  have hpending := settle_left d .Expired (c.accounts.task.currentWorkers - 1) c.sys.now
    (by decide)
  have hleft := settle_peersLeft d .Expired (c.accounts.task.currentWorkers - 1) c.sys.now
    (by decide)
  refine ⟨?_, ?_, ?_, Nat.zero_le _, hpending, ?_, fun hwaits => absurd hwaits hawaits⟩
  · rw [decide_eq_false hawaits]
    exact hunmarked
  · exact decide_eq_decide.mpr hpending.symm
  · rw [if_neg hawaits, Nat.add_zero]
    exact hleft.symm
  · show c.accounts.task.currentWorkers - 1 < disputeSafeMaxWorkers
    unfold disputeSafeMaxWorkers at *
    omega

/-- The settlement of a peer takes one off what is left. -/
theorem settleDisputeClaim_settling (h : settleDisputeClaim c d = .ok (c', d'))
    (hs : Settling c.accounts d) (hinv : DisputeInv w d) : Settling c'.accounts d' := by
  obtain ⟨claim, live, validation', closings, peersPending, status', lamports, hpending, hlt, hpeer,
    -, hclaim, -, -, -, hmark, hstatus, hlast, rfl, rfl⟩ := settleDisputeClaim_spec h
  have hunslashed := hinv.unslashed (by rw [hpending]; decide)
  have hthreat := settleDisputeClaim_threat h
  have hawaits : Dispute.awaitsSlash { d with
      peerWorkersSettled := d.peerWorkersSettled + 1, status := status' } ↔ d.awaitsSlash := by
    unfold Dispute.awaitsSlash Dispute.workerLost Dispute.isRuled
    rw [hstatus]
    split_ifs with hend
    · rcases hlast hend with hfinal | hfinal <;> simp [hfinal, hpending]
    · exact Iff.rfl
  have hleft : status' = .SettlementPending ↔
      d.peerWorkersSettled + 1 < d.peerWorkersTotal := by
    rw [hstatus]
    split_ifs with hend
    · refine ⟨fun hagain => ?_, fun hmore => by omega⟩
      rcases hlast hend with hfinal | hfinal <;> rw [hfinal] at hagain <;> cases hagain
    · exact ⟨fun _ => by omega, fun _ => hpending⟩
  have hworkers := hs.workers
  rw [Dispute.peersLeft, if_pos hpending] at hworkers
  refine ⟨?_, ?_, ?_, hlt, hleft, hs.few, fun hwaits => ?_⟩
  · rw [decide_eq_decide.mpr hawaits]
    exact hs.slash
  · show peersPending = decide (status' = .SettlementPending)
    rw [hmark, decide_eq_decide.mpr hleft, hs.peers, decide_eq_true hpending]
    split_ifs with hend
    · exact (decide_eq_false (by omega)).symm
    · exact (decide_eq_true (by omega)).symm
  · show c.accounts.task.currentWorkers - 1 = (if status' = .SettlementPending then
      d.peerWorkersTotal - (d.peerWorkersSettled + 1) else 0) + _
    rw [if_congr hawaits rfl rfl, if_congr hleft rfl rfl, hworkers]
    split_ifs
    all_goals omega
  · show ((c.accounts.claims.erase c.workerKey).lookup d.defendant).isSome = true
    rw [AList.lookup_erase_ne (Ne.symm hpeer)]
    exact hs.claim (hawaits.mp hwaits)

/-- The slash takes the defendant off the task. -/
theorem applyDisputeSlash_settling {withTokenAccounts : Bool}
    (h : applyDisputeSlash c d withTokenAccounts = .ok (c', d')) (hs : Settling c.accounts d)
    (hinv : DisputeInv w d) (hload : w.tasks.lookup d.task = some c.accounts) :
    Settling c'.accounts d' := by
  have hawaits : d.awaitsSlash := slash_threatens h hinv hload
  obtain ⟨_, _, _, _, _, _, _, _, _, _, _, _, -, -, hresolved, -, -, -, -, -, -, hfree, -, rfl,
    rfl⟩ := applyDisputeSlash_spec h
  obtain ⟨hworkers, hmark, -⟩ := hfree hawaits.2
  have hover : ¬Dispute.awaitsSlash { d with slashApplied := true } := fun hwaits => by
    cases hwaits.2
  refine ⟨?_, hs.peers, ?_, hs.settled, hs.left, hs.few, fun hwaits => absurd hwaits hover⟩
  · rw [decide_eq_false hover]
    exact hmark
  · rw [if_neg hover]
    have hbefore := hs.workers
    rw [if_pos hawaits] at hbefore
    show _ = d.peersLeft + 0
    rw [hworkers, hbefore]
    rfl

end Moves

/-! ## Every reachable world -/

/-- The disputes that ended agree with their tasks. -/
structure Rulings (w : World) : Prop where
  single : ∀ k d k' d', w.disputes.lookup k = some d → w.disputes.lookup k' = some d' →
    d.hasEnded → d'.hasEnded → d.task = d'.task → k = k'
  settling : ∀ k d acc, w.disputes.lookup k = some d → d.hasEnded →
    w.tasks.lookup d.task = some acc → Settling acc d
  quiet : ∀ key acc, w.tasks.lookup key = some acc →
    (∀ k d, w.disputes.lookup k = some d → d.task = key → ¬d.hasEnded) →
    acc.task.workerSlashPending = false ∧ acc.task.peerSettlementPending = false

section Steps

variable {w w' : World} {i : Instruction} {ts : List Transfer} {key k : Pubkey} {d d' : Dispute}
  {acc acc' : TaskAccounts}

/-- What every handler of a dispute keeps, or needs, of the dispute's end. -/
theorem DisputeOp.run_ended {op : DisputeOp} {c c' : TaskContext}
    (h : op.run w c d = .ok (c', d')) : d'.task = d.task ∧ (d.hasEnded → d'.hasEnded) ∧
      (d'.hasEnded → d.hasEnded ∨ d.status = .Active ∧ c.accounts.task.status = .Disputed) := by
  cases op with
  | cancelDispute signer =>
    obtain ⟨_, _, hactive, -, -, -, -, -, rfl⟩ := cancelDispute_spec h
    refine ⟨rfl, fun hended => absurd hactive hended.not_active, fun hended => ?_⟩
    rcases hended with hended | hended | hended <;> cases hended
  | resolveDispute signer signers withAssignment approved payees =>
    obtain ⟨_, _, _, _, _, _, _, _, _, _, _, _, _, _, _, hactive, -, -, hdisputed, -, -, -, -, -, -,
      -, h⟩ := resolveDispute_spec h
    obtain ⟨_, _, _, _, _, _, _, -, -, -, rfl⟩ := h
    exact ⟨rfl, fun hended => absurd hactive hended.not_active, fun _ => .inr ⟨hactive, hdisputed⟩⟩
  | expireDispute =>
    obtain ⟨_, _, _, _, _, _, _, _, _, _, _, _, _, _, _, hactive, -, -, hdisputed, -, -, -, -, -, -,
      -, -, -, rfl⟩ := expireDispute_spec h
    exact ⟨rfl, fun hended => absurd hactive hended.not_active, fun _ => .inr ⟨hactive, hdisputed⟩⟩
  | settleDisputeClaim =>
    obtain ⟨_, _, _, _, _, status', _, hpending, -, -, -, -, -, -, -, -, hstatus, hlast, -, rfl⟩ :=
      settleDisputeClaim_spec h
    refine ⟨rfl, fun _ => ?_, fun _ => .inl (.inr (.inr hpending))⟩
    unfold Dispute.hasEnded
    rw [hstatus]
    split_ifs with hend
    · exact (hlast hend).elim .inl fun hfinal => .inr (.inl hfinal)
    · exact .inr (.inr hpending)
  | applyDisputeSlash withTokenAccounts =>
    obtain ⟨_, _, _, _, _, _, _, _, _, _, _, _, -, -, hresolved, -, -, -, -, -, -, -, -, -, rfl⟩ :=
      applyDisputeSlash_spec h
    exact ⟨rfl, id, fun _ => .inl (.inl hresolved)⟩

/-- A dispute that ended stays so. -/
theorem Step.keeps_ended (h : Step w (i, ts) w') (hd : w.disputes.lookup k = some d)
    (hended : d.hasEnded) :
    ∃ d', w'.disputes.lookup k = some d' ∧ d'.task = d.task ∧ d'.hasEnded := by
  cases h.dispute k with
  | apart same => exact ⟨d, same.trans hd, rfl, hended⟩
  | opened new =>
    rw [hd] at new
    cases new
  | ruled filed stored about loaded left found ran =>
    obtain rfl := Option.some.inj (hd.symm.trans filed)
    obtain ⟨htask, hkept, -⟩ := DisputeOp.run_ended ran
    exact ⟨_, stored, htask, hkept hended⟩
  | finalized filed stored final =>
    obtain rfl := Option.some.inj (hd.symm.trans filed)
    exact ⟨_, stored, rfl, hended⟩

/-- A dispute that has ended after a step had ended before, or is the one the step ended while its
task was disputed. -/
theorem Step.ended (h : Step w (i, ts) w') (hd : w'.disputes.lookup k = some d')
    (hended : d'.hasEnded) :
    ∃ d, w.disputes.lookup k = some d ∧ d.task = d'.task ∧ (d.hasEnded ∨
      i.disputeKey = some k ∧ ∃ acc, w.tasks.lookup d.task = some acc ∧
        acc.task.status = .Disputed) := by
  cases h.dispute k with
  | apart same => exact ⟨d', same.symm.trans hd, rfl, .inl hended⟩
  | opened new stored record =>
    obtain rfl := Option.some.inj (stored.symm.trans hd)
    obtain ⟨_, hopened⟩ := record
    exact absurd hopened.status hended.not_active
  | ruled filed stored about loaded left found ran =>
    obtain rfl := Option.some.inj (stored.symm.trans hd)
    obtain ⟨htask, -, hback⟩ := DisputeOp.run_ended ran
    refine ⟨_, filed, htask.symm, (hback hended).imp_right fun hnow => ⟨rfl, _, ?_, hnow.2⟩⟩
    rw [about]
    exact loaded
  | finalized filed stored final =>
    obtain rfl := Option.some.inj (stored.symm.trans hd)
    exact ⟨_, filed, rfl, .inl hended⟩

/-- Every instruction on a dispute but its withdrawal leaves it ended. -/
theorem Step.ends_dispute {worker : Pubkey} {op : DisputeOp}
    (h : Step w (.dispute key k worker op, ts) w') (hop : ∀ signer, op ≠ .cancelDispute signer) :
    ∃ d', w'.disputes.lookup k = some d' ∧ d'.task = key ∧ d'.hasEnded := by
  cases h.dispute k with
  | apart same other => exact absurd rfl other
  | @ruled _ _ _ acc agent d d' c _ filed stored about loaded left found ran =>
    obtain ⟨htask, hkept, -⟩ := DisputeOp.run_ended ran
    refine ⟨d', stored, htask.trans about, ?_⟩
    cases op with
    | cancelDispute signer => exact absurd rfl (hop signer)
    | resolveDispute signer signers withAssignment approved payees =>
      obtain ⟨_, _, _, _, _, _, _, _, _, _, _, _, _, _, _, -, -, -, -, -, -, -, -, -, -, -, h⟩ :=
        resolveDispute_spec ran
      obtain ⟨_, _, _, _, _, _, _, -, -, -, rfl⟩ := h
      exact (d.settle_isRuled (acc.task.currentWorkers - 1) w.sys.now).hasEnded
    | expireDispute =>
      obtain ⟨_, _, _, _, _, _, _, _, _, _, _, _, _, _, _, -, -, -, -, -, -, -, -, -, -, -, -, -,
        rfl⟩ := expireDispute_spec ran
      exact d.settle_expired_hasEnded _ _
    | settleDisputeClaim =>
      obtain ⟨_, _, _, _, _, _, _, hpending, -⟩ := settleDisputeClaim_spec ran
      exact hkept (.inr (.inr hpending))
    | applyDisputeSlash withTokenAccounts =>
      obtain ⟨_, _, _, _, _, _, _, _, _, _, _, _, -, -, hresolved, -⟩ :=
        applyDisputeSlash_spec ran
      exact hkept (.inl hresolved)

/-- While a task is disputed, none of its disputes has ended. -/
theorem not_ended_of_disputed (hw : Reachable w) (hd : w.disputes.lookup k = some d)
    (hacc : w.tasks.lookup d.task = some acc) (hdisputed : acc.task.status = .Disputed) :
    ¬d.hasEnded := by
  intro hended
  obtain ⟨acc', hacc', hdone⟩ := (dispute_inv hw k d hd).task
  obtain rfl := Option.some.inj (hacc.symm.trans hacc')
  have hfinished := (hdone hended).1
  rw [hdisputed] at hfinished
  revert hfinished
  decide

/-- No more workers than a dispute can settle are on a task. -/
theorem currentWorkers_le (hw : Reachable w) (hacc : w.tasks.lookup key = some acc) :
    acc.task.currentWorkers ≤ disputeSafeMaxWorkers := by
  obtain ⟨r, hs⟩ := (occupancy hw).tasks key acc hacc
  rw [hs.tracks.workers]
  exact hs.fits.capacity.trans hs.terms.slots

theorem Rulings.step_single (hr : Rulings w) (hw : Reachable w) (h : Step w (i, ts) w') :
    ∀ k d k' d', w'.disputes.lookup k = some d → w'.disputes.lookup k' = some d' →
      d.hasEnded → d'.hasEnded → d.task = d'.task → k = k' := by
  intro k d k' d' hd hd' hended hended' htask
  obtain ⟨e, he, hetask, hold⟩ := h.ended hd hended
  obtain ⟨e', he', hetask', hold'⟩ := h.ended hd' hended'
  have hsame : e.task = e'.task := hetask.trans (htask.trans hetask'.symm)
  rcases hold with hold | ⟨hkey, acc, hacc, hdisputed⟩
  · rcases hold' with hold' | ⟨-, acc', hacc', hdisputed'⟩
    · exact hr.single k e k' e' he he' hold hold' hsame
    · rw [← hsame] at hacc'
      exact absurd hold (not_ended_of_disputed hw he hacc' hdisputed')
  · rcases hold' with hold' | ⟨hkey', -⟩
    · rw [hsame] at hacc
      exact absurd hold' (not_ended_of_disputed hw he' hacc hdisputed)
    · exact Option.some.inj (hkey.symm.trans hkey')

theorem Rulings.step_settling (hr : Rulings w) (hw : Reachable w) (h : Step w (i, ts) w') :
    ∀ k d acc, w'.disputes.lookup k = some d → d.hasEnded →
      w'.tasks.lookup d.task = some acc → Settling acc d := by
  intro k d' acc' hd' hended hacc'
  cases h.dispute k with
  | apart same other =>
    have hd := same.symm.trans hd'
    obtain ⟨acc, hacc, hdone⟩ := (dispute_inv hw k d' hd).task
    have hs := hr.settling k d' acc hd hended hacc
    cases h.task d'.task with
    | apart same =>
      obtain rfl := Option.some.inj ((same.trans hacc).symm.trans hacc')
      exact hs
    | created new =>
      rw [hacc] at new
      cases new
    | moved loaded stored move =>
      obtain rfl := Option.some.inj (hacc.symm.trans loaded)
      obtain rfl := Option.some.inj (stored.symm.trans hacc')
      have hfinished := (hdone hended).1
      refine (move.finished hfinished hacc).settling hfinished hs other fun k₂ d₂ hd₂ htask he₂ => ?_
      exact hr.single k₂ d₂ k d' hd₂ hd he₂ hended htask
  | opened new stored record =>
    obtain rfl := Option.some.inj (stored.symm.trans hd')
    obtain ⟨_, hopened⟩ := record
    exact absurd hopened.status hended.not_active
  | @ruled taskKey worker op acc agent d _ c _ filed stored about loaded left found ran =>
    obtain rfl := Option.some.inj (stored.symm.trans hd')
    obtain ⟨htask, -, hback⟩ := DisputeOp.run_ended ran
    rw [htask, about, left] at hacc'
    obtain rfl := Option.some.inj hacc'
    have hinv := dispute_inv hw k d filed
    have hload : w.tasks.lookup d.task = some acc := by rw [about]; exact loaded
    have hcapacity := currentWorkers_le hw loaded
    cases op with
    | cancelDispute signer =>
      obtain ⟨_, _, -, -, -, -, -, -, rfl⟩ := cancelDispute_spec ran
      rcases hended with hended | hended | hended <;> cases hended
    | resolveDispute signer signers withAssignment approved payees =>
      exact resolveDispute_settling ran hinv hcapacity
    | expireDispute =>
      have hnow : ¬∃ k₂ d₂, w.disputes.lookup k₂ = some d₂ ∧ d₂.task = taskKey ∧ d₂.hasEnded := by
        rintro ⟨k₂, d₂, hd₂, htask₂, hended₂⟩
        obtain ⟨_, _, _, _, _, _, _, _, _, _, _, _, _, _, _, -, -, -, hdisputed, -⟩ :=
          expireDispute_spec ran
        exact not_ended_of_disputed hw hd₂ (by rw [htask₂]; exact loaded) hdisputed hended₂
      refine expireDispute_settling ran hcapacity (hr.quiet taskKey acc loaded ?_).1
      exact fun k₂ d₂ hd₂ htask₂ hended₂ => hnow ⟨k₂, d₂, hd₂, htask₂, hended₂⟩
    | settleDisputeClaim =>
      obtain ⟨_, _, _, _, _, _, _, hpending, -⟩ := settleDisputeClaim_spec ran
      exact settleDisputeClaim_settling ran
        (hr.settling k d acc filed (.inr (.inr hpending)) hload) hinv
    | applyDisputeSlash withTokenAccounts =>
      obtain ⟨_, _, _, _, _, _, _, _, _, _, _, _, -, -, hresolved, -⟩ :=
        applyDisputeSlash_spec ran
      exact applyDisputeSlash_settling ran (hr.settling k d acc filed (.inl hresolved) hload) hinv
        hload
  | finalized filed stored final =>
    obtain rfl := Option.some.inj (stored.symm.trans hd')
    cases h.task _ with
    | apart same =>
      have hs := hr.settling k _ acc' filed hended (same.symm.trans hacc')
      exact ⟨hs.slash, hs.peers, hs.workers, hs.settled, hs.left, hs.few, hs.claim⟩
    | created new stored fresh unpaid ran =>
      obtain ⟨_, _, _, _, hcreate, -⟩ := ran
      cases hcreate
    | moved loaded stored move => cases move

theorem Rulings.step_quiet (hr : Rulings w) (h : Step w (i, ts) w') :
    ∀ key acc, w'.tasks.lookup key = some acc →
      (∀ k d, w'.disputes.lookup k = some d → d.task = key → ¬d.hasEnded) →
      acc.task.workerSlashPending = false ∧ acc.task.peerSettlementPending = false := by
  intro key acc' hacc' hnone'
  have hnone (k : Pubkey) (d : Dispute) (hd : w.disputes.lookup k = some d)
      (htask : d.task = key) : ¬d.hasEnded := by
    intro hended
    obtain ⟨d', hd', htask', hended'⟩ := h.keeps_ended hd hended
    exact hnone' k d' hd' (htask'.trans htask) hended'
  cases h.task key with
  | apart same => exact hr.quiet key acc' (same.symm.trans hacc') hnone
  | created new stored fresh =>
    obtain rfl := Option.some.inj (stored.symm.trans hacc')
    exact ⟨fresh.task.slash, fresh.task.peers⟩
  | moved loaded stored move =>
    obtain rfl := Option.some.inj (stored.symm.trans hacc')
    have hquiet := hr.quiet key _ loaded hnone
    cases move.marks with
    | kept same =>
      simp only [Task.marks, Prod.mk.injEq] at same
      rw [same.2.1, same.2.2]
      exact hquiet
    | configured opened idle after =>
      subst after
      exact hquiet
    | @ruled disputeKey worker op agent d d' c instruction filed about ran after =>
      subst after instruction
      cases op with
      | cancelDispute signer =>
        obtain ⟨_, _, -, -, -, -, -, rfl, -⟩ := cancelDispute_spec ran
        exact hquiet
      | resolveDispute =>
        obtain ⟨d', hd', htask', hended'⟩ := h.ends_dispute nofun
        exact absurd hended' (hnone' _ d' hd' htask')
      | expireDispute =>
        obtain ⟨d', hd', htask', hended'⟩ := h.ends_dispute nofun
        exact absurd hended' (hnone' _ d' hd' htask')
      | settleDisputeClaim =>
        obtain ⟨d', hd', htask', hended'⟩ := h.ends_dispute nofun
        exact absurd hended' (hnone' _ d' hd' htask')
      | applyDisputeSlash =>
        obtain ⟨d', hd', htask', hended'⟩ := h.ends_dispute nofun
        exact absurd hended' (hnone' _ d' hd' htask')

end Steps

/-- Every reachable world: a task and the dispute that ended it agree. -/
theorem rulings {w : World} (hw : Reachable w) : Rulings w := by
  refine hw.induct (I := Rulings) ?_ ?_
  · intro w hgenesis
    refine ⟨fun k d _ _ hd => ?_, fun k d _ hd => ?_, fun key acc hacc => ?_⟩
    · rw [hgenesis.disputes] at hd
      cases hd
    · rw [hgenesis.disputes] at hd
      cases hd
    · rw [hgenesis.tasks] at hacc
      cases hacc
  · rintro w ⟨i, ts⟩ w' hw hs ih
    exact ⟨ih.step_single hw hs, ih.step_settling hw hs, ih.step_quiet hs⟩

end AgencCoordination
