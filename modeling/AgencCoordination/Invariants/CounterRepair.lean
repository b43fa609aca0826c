import AgencCoordination.Invariants.Counters
import AgencCoordination.Invariants.Stake

/-!
# Repairing an outcome counter

An old defect lost units of an initiator's outcome counter: the counter may fall short of the
outcomes the agent waits for. A world is taken from there: nothing is assumed of how it was
reached, only what a short counter leaves intact (`Repairable`), and that no counter is short by
more than the incidents it has not been repaired for (`Short`).

* **`CounterMove`** — what one step does to the counter of an agent, to the outcomes it awaits and
  to its incidents.
* **`Short.step`** — no step makes a counter count too much, or be shorter than its incidents say.
* **`exists_incident`** — a counter at zero before an outcome it owes has an incident that can be
  named with that outcome.
* **`counter_repair`** — over every run: no counter counts too much, every incident is repaired at
  most once, and an outcome that a short counter holds up can be repaired and then finalized.
-/

namespace AgencCoordination

open Foundations

/-! ## Incidents -/

/-- The dispute has the shape of an incident of `k`: tracked, and filed by `k` as a worker against
itself. -/
def Dispute.isIncident (k : Pubkey) (d : Dispute) : Prop :=
  d.initiatorTracked = true ∧ d.initiator = k ∧ d.defendant = k ∧ d.initiatedByCreator = false

instance (k : Pubkey) : DecidablePred (Dispute.isIncident k) :=
  fun _ => inferInstanceAs (Decidable (_ ∧ _))

/-- The incidents of `k` that no repair was made for. -/
def unrepaired (w : World) (k : Pubkey) : Finset Pubkey :=
  (disputesWith w (Dispute.isIncident k)).filter (· ∉ w.counterRepairs)

/-- The outcome counter of an address. -/
abbrev outcomeUnits (w : World) (k : Pubkey) : ℕ :=
  counterOf AgentRegistration.activeDisputeVotes w k

/-- No counter counts more outcomes than are awaited, and none is short by more than the incidents
it was not repaired for. -/
def Short (w : World) : Prop :=
  ∀ k, outcomeUnits w k ≤ (outcomesAwaited w k).card ∧
    (outcomesAwaited w k).card ≤ outcomeUnits w k + (unrepaired w k).card

theorem mem_unrepaired {w : World} {k key : Pubkey} :
    key ∈ unrepaired w k ↔
      (∃ d, w.disputes.lookup key = some d ∧ d.isIncident k) ∧ key ∉ w.counterRepairs := by
  rw [unrepaired, Finset.mem_filter, Ledger.mem_support]

/-! ## One step -/

/-- The receipts of repairs, after a step: a repair adds its own. -/
theorem Step.counterRepairs {w w' : World} {i : Instruction} {ts : List Transfer}
    (h : Step w (i, ts) w') :
    w'.counterRepairs = w.counterRepairs ∨
      ∃ signer signers incidentKey pendingKey agentKey signature,
        i = .repairDisputeInitiatorCounter signer signers incidentKey pendingKey agentKey
          signature ∧
        w'.counterRepairs = incidentKey :: w.counterRepairs := by
  cases h.does with
  | ticked later => exact .inl rfl
  | donatedAgent outside credits => exact .inl rfl
  | donatedTask inside loaded credits => exact .inl rfl
  | administered ran => exact .inl (AdminOp.run_spec ran).counterRepairs
  | agent ran =>
    obtain ⟨⟨_, _, -, rfl⟩, -⟩ := AgentOp.run_spec ran
    exact .inl rfl
  | created ran =>
    obtain ⟨-, _, _, _, _, -, rfl⟩ := CreateOp.run_spec ran
    exact .inl rfl
  | task loaded ran => exact .inl rfl
  | work loaded found ran rent => exact .inl World.storeWork_counterRepairs
  | cancelled loaded listed ran =>
    left
    change (World.storeBidder _ _ _).counterRepairs = _
    exact World.storeBidder_counterRepairs
  | closed loaded ran => exact .inl rfl
  | disputed ran =>
    obtain ⟨_, _, _, _, -, -, -, -, -, -, -, -, -, -, -, rfl⟩ := initiateDispute_spec ran
    exact .inl rfl
  | ruled loaded found filed about ran rent =>
    left
    change (w.storeWork _).counterRepairs = w.counterRepairs
    exact World.storeWork_counterRepairs
  | finalized ran =>
    obtain ⟨_, _, _, _, -, -, -, -, -, -, -, -, -, rfl⟩ := applyInitiatorSlash_spec ran
    exact .inl rfl
  | repaired ran =>
    obtain ⟨_, _, -, -, -, -, -, -, rfl⟩ := repairDisputeInitiatorCounter_spec ran
    exact .inr ⟨_, _, _, _, _, _, rfl, rfl⟩

/-- What the operations on a dispute keep of its filing, and what they make of its outcome. -/
structure KeepsFiling (now : ℤ) (d d' : Dispute) : Prop where
  byCreator : d'.initiatedByCreator = d.initiatedByCreator
  sound : (d.status = .SettlementPending →
      d.pendingTerminalStatus = .Resolved ∨ d.pendingTerminalStatus = .Expired) →
    d'.status = .SettlementPending →
      d'.pendingTerminalStatus = .Resolved ∨ d'.pendingTerminalStatus = .Expired
  votes : (d.status = .SettlementPending →
      d.pendingTerminalStatus = .Resolved ∨ d.pendingTerminalStatus = .Expired) →
    (d.isRuled → d.votesFor = 1 ∧ d.votesAgainst = 0 ∨ d.votesFor = 0 ∧ d.votesAgainst = 1) →
    d'.isRuled → d'.votesFor = 1 ∧ d'.votesAgainst = 0 ∨ d'.votesFor = 0 ∧ d'.votesAgainst = 1
  dated : (d.status ≠ .Active → 0 < d.resolvedAt) → 0 < now → 0 < d'.resolvedAt

theorem DisputeOp.keepsFiling {w : World} {op : DisputeOp} {c c' : TaskContext} {d d' : Dispute}
    (h : op.run w c d = .ok (c', d')) : KeepsFiling c.sys.now d d' := by
  cases op with
  | cancelDispute signer =>
    obtain ⟨_, _, -, -, -, -, -, -, rfl⟩ := cancelDispute_spec h
    refine ⟨rfl, fun _ => nofun, fun _ _ => ?_, fun _ hnow => hnow⟩
    rintro (hruled | ⟨hruled, -⟩) <;> cases hruled
  | resolveDispute signer signers withAssignment approved payees =>
    obtain ⟨_, _, _, _, _, _, _, _, _, _, _, _, _, _, _, -, -, h⟩ := resolveDispute_spec h
    obtain ⟨-, -, -, -, -, -, -, -, -, _, _, _, _, _, h⟩ := h
    obtain ⟨votesFor, votesAgainst, rfl, rfl, rfl, rfl⟩ := h
    refine ⟨rfl, fun _ hpending => ?_, fun _ _ _ => ?_, fun _ hnow => hnow⟩
    · exact .inl (Dispute.settle_pending c.sys.now hpending (by decide))
    · cases approved
      · exact .inr ⟨rfl, rfl⟩
      · exact .inl ⟨rfl, rfl⟩
  | expireDispute =>
    obtain ⟨_, _, _, _, _, _, _, _, _, _, _, _, _, _, _, -, -, h⟩ := expireDispute_spec h
    obtain ⟨-, -, -, -, -, -, -, -, -, -, rfl, rfl⟩ := h
    refine ⟨rfl, fun _ hpending => ?_, fun _ _ hruled => ?_, fun _ hnow => hnow⟩
    · exact .inr (Dispute.settle_pending c.sys.now hpending (by decide))
    · exact absurd hruled d.settle_expired_not_isRuled
  | settleDisputeClaim =>
    obtain ⟨_, _, _, _, _, status', _, hpending, -, -, -, -, -, -, -, -, hstatus, -, h⟩ :=
      settleDisputeClaim_spec h
    obtain ⟨rfl, rfl⟩ := h
    refine ⟨rfl, fun hsound _ => hsound hpending, fun hsound hvotes hruled => hvotes ?_,
      fun hdated _ => hdated (by rw [hpending]; nofun)⟩
    rcases hruled with hruled | ⟨-, hruled⟩
    · -- the last peer turns the pending outcome into the status
      have hterminal : d.pendingTerminalStatus = .Resolved := by
        change status' = _ at hruled
        rw [hstatus] at hruled
        split_ifs at hruled with hlast
        · exact hruled
        · rw [hpending] at hruled
          cases hruled
      exact .inr ⟨hpending, hterminal⟩
    · exact .inr ⟨hpending, hruled⟩
  | applyDisputeSlash withTokenAccounts =>
    obtain ⟨_, _, _, _, _, _, _, _, _, _, _, _, -, -, hresolved, -, h⟩ := applyDisputeSlash_spec h
    obtain ⟨-, -, -, -, -, -, -, rfl, rfl⟩ := h
    exact ⟨rfl, fun hsound => hsound, fun _ hvotes => hvotes,
      fun hdated _ => hdated (by rw [hresolved]; nofun)⟩

/-- How a step moves the counter of `k`, the outcomes it awaits and its incidents. -/
inductive CounterMove (w w' : World) (k : Pubkey) : Prop
  | kept (units : outcomeUnits w' k = outcomeUnits w k)
      (awaited : (outcomesAwaited w' k).card = (outcomesAwaited w k).card)
      (incidents : (unrepaired w k).card ≤ (unrepaired w' k).card)
  | opened (units : outcomeUnits w' k = outcomeUnits w k + 1)
      (awaited : (outcomesAwaited w' k).card = (outcomesAwaited w k).card + 1)
      (incidents : (unrepaired w k).card ≤ (unrepaired w' k).card)
  | finalized (units : outcomeUnits w' k + 1 = outcomeUnits w k)
      (awaited : (outcomesAwaited w' k).card + 1 = (outcomesAwaited w k).card)
      (incidents : (unrepaired w k).card ≤ (unrepaired w' k).card)
  | repaired (short : outcomeUnits w k = 0) (owed : (outcomesAwaited w k).Nonempty)
      (units : outcomeUnits w' k = 1)
      (awaited : (outcomesAwaited w' k).card = (outcomesAwaited w k).card)
      (incidents : (unrepaired w k).card ≤ (unrepaired w' k).card + 1)

/-- With the receipts it had, an agent keeps its incidents as long as the disputes keep their
shape. -/
theorem card_unrepaired_le {w w' : World} {k : Pubkey}
    (hreceipts : w'.counterRepairs = w.counterRepairs)
    (hdisputes : disputesWith w (Dispute.isIncident k) ⊆ disputesWith w' (Dispute.isIncident k)) :
    (unrepaired w k).card ≤ (unrepaired w' k).card := by
  refine Finset.card_le_card fun key hkey => ?_
  rw [unrepaired, Finset.mem_filter] at hkey ⊢
  rw [hreceipts]
  exact ⟨hdisputes hkey.1, hkey.2⟩

/-- A repair takes one incident away. -/
theorem card_unrepaired_repaired {w w' : World} {k incidentKey : Pubkey}
    (hreceipts : w'.counterRepairs = incidentKey :: w.counterRepairs)
    (hdisputes : w'.disputes = w.disputes) :
    (unrepaired w k).card ≤ (unrepaired w' k).card + 1 := by
  have hsub : (unrepaired w k).erase incidentKey ⊆ unrepaired w' k := by
    intro key hkey
    rw [Finset.mem_erase, mem_unrepaired] at hkey
    rw [mem_unrepaired, hdisputes, hreceipts, List.mem_cons, not_or]
    exact ⟨hkey.2.1, hkey.1, hkey.2.2⟩
  have herase := Finset.pred_card_le_card_erase (s := unrepaired w k) (a := incidentKey)
  have hle := Finset.card_le_card hsub
  omega

/-- A repair names an incident of its agent that was not repaired for. -/
theorem repairDisputeInitiatorCounter_incident {w w' : World} {signer : Pubkey}
    {signers : List Pubkey} {incidentKey pendingKey agentKey : Pubkey} {signature : Hash}
    (h : repairDisputeInitiatorCounter w signer signers incidentKey pendingKey agentKey signature =
      .ok w') : incidentKey ∈ unrepaired w agentKey := by
  simp only [repairDisputeInitiatorCounter, bind_eq_ok, demand_eq_ok, require_eq_ok] at h
  obtain ⟨incident, hincident, _, -, _, -, _, hnew, _, -, _, -, _, -, _, hshape, -⟩ := h
  obtain ⟨htracked, hinitiator, hdefendant, hcreator, -⟩ := hshape
  exact mem_unrepaired.mpr
    ⟨⟨incident, hincident, htracked, hinitiator, hdefendant, hcreator⟩, hnew⟩

/-- Every step, seen from one counter. -/
theorem Step.counterMove {w w' : World} {i : Instruction} {ts : List Transfer}
    (h : Step w (i, ts) w') (k : Pubkey) : CounterMove w w' k := by
  -- without a repair, what keeps the disputes keeps awaited outcomes and incidents
  have hreceipts (hplain : ∀ signer signers incidentKey pendingKey agentKey signature,
      i ≠ .repairDisputeInitiatorCounter signer signers incidentKey pendingKey agentKey
        signature) : w'.counterRepairs = w.counterRepairs := by
    rcases h.counterRepairs with hsame | ⟨_, _, _, _, _, _, hi, -⟩
    · exact hsame
    · exact absurd hi (hplain _ _ _ _ _ _)
  have hsame (hdisputes : w'.disputes = w.disputes) (hunits : outcomeUnits w' k = outcomeUnits w k)
      (hplain : ∀ signer signers incidentKey pendingKey agentKey signature,
        i ≠ .repairDisputeInitiatorCounter signer signers incidentKey pendingKey agentKey
          signature) : CounterMove w w' k := by
    refine .kept hunits ?_ (card_unrepaired_le (hreceipts hplain) ?_)
    · rw [outcomesAwaited, disputesWith, hdisputes]
      rfl
    · rw [disputesWith, disputesWith, hdisputes]
  cases h.agents with
  | same plain agents disputes unpaid =>
    refine hsame disputes (counterOf_congr agents) ?_
    rintro _ _ _ _ _ _ rfl
    cases plain
  | donated credits disputes => exact hsame disputes (counterOf_donated credits) (by rintro _ _ _ _ _ _ ⟨⟩)
  | wrote writes paid ran =>
    have hunits : outcomeUnits w' k = outcomeUnits w k :=
      counterOf_written writes (fun _ hf => hf.votes) (fun _ _ hs => hs.votes)
        fun _ _ hr => hr.sameVotes
    obtain ⟨_, _, -, rfl⟩ := writes
    exact hsame rfl hunits (by rintro _ _ _ _ _ _ ⟨⟩)
  | worked found agents disputes lamports stake authority votes asDefendant unpaid =>
    exact hsame disputes (counterOf_insert_same agents found votes) (by rintro _ _ _ _ _ _ ⟨⟩)
  | freed agents disputes unpaid =>
    exact hsame disputes (counterOf_freed agents fun _ => rfl) (by rintro _ _ _ _ _ _ ⟨⟩)
  | @opened taskKey signer filing _ opens =>
    obtain ⟨acc, _, _, d, hnew, -, hagent, -, -, -, hopened, -, -, -, hcounts, hw'⟩ := opens
    have hincidents : (unrepaired w k).card ≤ (unrepaired w' k).card := by
      refine card_unrepaired_le (hreceipts (by rintro _ _ _ _ _ _ ⟨⟩)) ?_
      rw [disputesWith, disputesWith, hw']
      by_cases hp : Dispute.isIncident k d
      · rw [Ledger.support_insert hp]
        exact Finset.subset_insert _ _
      · exact (Ledger.support_insert_fresh_of_not hnew hp).symm.subset
    have hunits : outcomeUnits w' k = outcomeUnits w k + if k = filing.agentKey then 1 else 0 := by
      refine counterOf_opened (by rw [hw']) hcounts (fun agent agent' ha ha' => ?_) fun hnone => ?_
      · exact (hcounts.same k agent agent' ha ha').2.2.2.2.1
      · refine if_neg ?_
        rintro rfl
        rw [hnone] at hagent
        cases hagent
    have hdisputes : w'.disputes = w.disputes.insert filing.disputeKey d := by rw [hw']
    by_cases hk : k = filing.agentKey
    · have hp : Dispute.awaitsOutcome k d :=
        ⟨hopened.initiator.trans hk.symm, hopened.tracked, hopened.unapplied⟩
      rw [if_pos hk] at hunits
      refine .opened hunits ?_ hincidents
      rw [outcomesAwaited, disputesWith, hdisputes]
      exact Ledger.card_support_insert_new hnew hp
    · have hp : ¬Dispute.awaitsOutcome k d := fun hp => hk (hp.1.symm.trans hopened.initiator)
      rw [if_neg hk] at hunits
      refine .kept hunits ?_ hincidents
      rw [outcomesAwaited, disputesWith, hdisputes]
      exact congrArg _ (Ledger.support_insert_fresh_of_not hnew hp)
  | ruled loaded found filed about ran agents disputes tasks =>
    obtain ⟨hframes, hfiling⟩ := DisputeOp.run_frames ran
    have hkept := DisputeOp.keepsFiling ran
    refine .kept (counterOf_insert_same agents found hframes.votes) ?_
      (card_unrepaired_le (hreceipts (by rintro _ _ _ _ _ _ ⟨⟩)) ?_)
    · rw [outcomesAwaited, disputesWith, disputes]
      refine congrArg _ (Ledger.support_insert_same filed ?_)
      rw [Dispute.awaitsOutcome, hfiling.initiator, hfiling.tracked, hfiling.applied]
      rfl
    · rw [disputesWith, disputesWith, disputes]
      refine (Ledger.support_insert_same filed ?_).symm.subset
      rw [Dispute.isIncident, hfiling.initiator, hfiling.tracked, hfiling.defendant,
        hkept.byCreator]
      rfl
  | @finalized disputeKey agentKey _ _ ran =>
    obtain ⟨d, agent, _, _, hd, hagent, hunapplied, hinitiator, -, -, -, hpos, -, hw'⟩ :=
      applyInitiatorSlash_spec ran
    obtain ⟨agent', hagents, hvotes⟩ : ∃ agent', w'.agents = w.agents.insert agentKey agent' ∧
        agent'.data.activeDisputeVotes = agent.data.activeDisputeVotes -
          if d.initiatorTracked then 1 else 0 := ⟨_, by rw [hw'], rfl⟩
    have hdisputes : w'.disputes =
        w.disputes.insert disputeKey { d with initiatorSlashApplied := true } := by rw [hw']
    have hincidents : (unrepaired w k).card ≤ (unrepaired w' k).card := by
      refine card_unrepaired_le (hreceipts (by rintro _ _ _ _ _ _ ⟨⟩)) ?_
      rw [disputesWith, disputesWith, hdisputes]
      have hshape : Dispute.isIncident k { d with initiatorSlashApplied := true } ↔
          Dispute.isIncident k d := Iff.rfl
      exact (Ledger.support_insert_same hd hshape).symm.subset
    have hnot : ¬Dispute.awaitsOutcome k { d with initiatorSlashApplied := true } := by
      rintro ⟨-, -, hfalse⟩
      cases hfalse
    by_cases hawaits : k = agentKey ∧ d.initiatorTracked = true
    · obtain ⟨hk, htracked⟩ := hawaits
      have hone := hpos htracked
      rw [if_pos htracked] at hvotes
      refine .finalized ?_ ?_ hincidents
      · rw [hk, outcomeUnits, outcomeUnits, counterOf_insert hagents, if_pos rfl,
          counterOf_of_lookup hagent, hvotes]
        omega
      · rw [outcomesAwaited, disputesWith, hdisputes]
        exact Ledger.card_support_insert_lost hd
          ⟨hinitiator.symm.trans hk.symm, htracked, hunapplied⟩ hnot
    · refine .kept ?_ ?_ hincidents
      · rw [outcomeUnits, outcomeUnits, counterOf_insert hagents]
        by_cases hk : k = agentKey
        · have htracked : ¬d.initiatorTracked = true := fun htracked => hawaits ⟨hk, htracked⟩
          rw [if_neg htracked] at hvotes
          rw [if_pos hk, hk, counterOf_of_lookup hagent, hvotes]
          rfl
        · rw [if_neg hk]
      · rw [outcomesAwaited, disputesWith, hdisputes]
        refine congrArg _ (Ledger.support_insert_same hd ?_)
        refine ⟨fun hp => absurd hp hnot, fun hp => absurd ⟨?_, hp.2.1⟩ hawaits⟩
        exact hp.1.symm.trans hinitiator.symm
  | @repaired _ _ incidentKey pendingKey agentKey _ _ ran =>
    obtain ⟨pending, agent, hpending, hagent, htracked, hinitiator, hunapplied, hzero, rfl⟩ :=
      repairDisputeInitiatorCounter_spec ran
    by_cases hk : k = agentKey
    · subst hk
      have howed : pendingKey ∈ outcomesAwaited w k :=
        (Ledger.mem_support_of_lookup hpending).mpr ⟨hinitiator, htracked, hunapplied⟩
      refine .repaired ?_ ⟨_, howed⟩ ?_ rfl (card_unrepaired_repaired rfl rfl)
      · rw [outcomeUnits, counterOf_of_lookup hagent, hzero]
      · rw [outcomeUnits, counterOf_insert rfl, if_pos rfl]
        exact congrArg (· + 1) hzero
    · -- the incident is another agent's
      obtain ⟨⟨incident, hincident, -, hagentKey, -⟩, -⟩ :=
        mem_unrepaired.mp (repairDisputeInitiatorCounter_incident ran)
      have hother : incidentKey ∉ unrepaired w k := by
        intro hmem
        obtain ⟨⟨d, hd, -, hk', -⟩, -⟩ := mem_unrepaired.mp hmem
        obtain rfl := Option.some.inj (hincident.symm.trans hd)
        exact hk (hk'.symm.trans hagentKey)
      refine .kept ?_ rfl (Finset.card_le_card fun key hkey => ?_)
      · rw [outcomeUnits, counterOf_insert rfl, if_neg hk]
      · obtain ⟨hshape, hreceipt⟩ := mem_unrepaired.mp hkey
        refine mem_unrepaired.mpr ⟨hshape, ?_⟩
        rw [List.mem_cons, not_or]
        exact ⟨fun heq => hother (heq ▸ hkey), hreceipt⟩

/-- A counter that is not short by more than its incidents stays so. -/
theorem CounterMove.short {w w' : World} {k : Pubkey} (h : CounterMove w w' k)
    (hle : outcomeUnits w k ≤ (outcomesAwaited w k).card)
    (hshort : (outcomesAwaited w k).card ≤ outcomeUnits w k + (unrepaired w k).card) :
    outcomeUnits w' k ≤ (outcomesAwaited w' k).card ∧
      (outcomesAwaited w' k).card ≤ outcomeUnits w' k + (unrepaired w' k).card := by
  cases h with
  | kept units awaited incidents => omega
  | opened units awaited incidents => omega
  | finalized units awaited incidents => omega
  | repaired short owed units awaited incidents =>
    have hpos : 0 < (outcomesAwaited w k).card := Finset.card_pos.mpr owed
    omega

/-! ## The rest of the state -/

/-- What the finalizer relies on about a tracked dispute: its initiator is still registered under
the wallet it filed with, its outcome is one the program records, and it is dated. -/
structure SoundOutcome (w : World) (d : Dispute) : Prop where
  initiator : ∃ agent, w.agents.lookup d.initiator = some agent ∧
    agent.data.authority = d.initiatorAuthority
  pending : d.status = .SettlementPending →
    d.pendingTerminalStatus = .Resolved ∨ d.pendingTerminalStatus = .Expired
  votes : d.isRuled → d.votesFor = 1 ∧ d.votesAgainst = 0 ∨ d.votesFor = 0 ∧ d.votesAgainst = 1
  dated : d.status ≠ .Active → 0 < d.resolvedAt

/-- What a short counter leaves intact. -/
structure Repairable (w : World) : Prop where
  clock : 0 < w.sys.now
  versions : checkVersionRange w.config = .ok ()
  slashes : w.config.slashPercentage ≤ 100
  solvent : ∀ k agent, w.agents.lookup k = some agent → AgentSolvent w.sys.rent agent
  outcomes : ∀ key d, w.disputes.lookup key = some d → d.initiatorTracked = true →
    SoundOutcome w d

/-- An agent stays registered, under its wallet. -/
theorem Step.keepsAuthority {w w' : World} {i : Instruction} {ts : List Transfer}
    (h : Step w (i, ts) w') {k : Pubkey} {agent : Account AgentRegistration}
    (hagent : w.agents.lookup k = some agent) :
    ∃ agent', w'.agents.lookup k = some agent' ∧ agent'.data.authority = agent.data.authority := by
  -- an insertion at a registered key with the wallet it had
  have hwrite {k' : Pubkey} {old stored : Account AgentRegistration}
      (hw' : w'.agents = w.agents.insert k' stored) (hold : w.agents.lookup k' = some old)
      (hsame : stored.data.authority = old.data.authority) :
      ∃ agent', w'.agents.lookup k = some agent' ∧
        agent'.data.authority = agent.data.authority := by
    rw [hw', Ledger.lookup_insert_eq_ite]
    by_cases hk : k = k'
    · subst hk
      obtain rfl := Option.some.inj (hagent.symm.trans hold)
      exact ⟨stored, if_pos rfl, hsame⟩
    · exact ⟨agent, (if_neg hk).trans hagent, rfl⟩
  cases h.agents with
  | same plain agents disputes unpaid => exact ⟨agent, by rw [agents, hagent], rfl⟩
  | donated credits disputes =>
    obtain ⟨k', old, amount, hold, hw'⟩ := credits
    exact hwrite hw' hold rfl
  | @wrote key op _ _ writes paid ran =>
    obtain ⟨agent', _, hagent', rfl⟩ := writes
    rcases hagent' with ⟨hnew, -⟩ | ⟨old, hold, hsame | ⟨-, hretires⟩⟩
    · have hk : k ≠ key := by
        rintro rfl
        rw [hagent] at hnew
        cases hnew
      exact ⟨agent, (AList.lookup_insert_ne hk).trans hagent, rfl⟩
    · exact hwrite rfl hold hsame.authority
    · exact hwrite rfl hold hretires.authority
  | worked found agents disputes lamports stake authority votes asDefendant unpaid =>
    exact hwrite agents found authority
  | @freed _ _ workers _ _ _ _ agents disputes unpaid =>
    rw [agents k, hagent]
    by_cases hk : k ∈ workers
    · refine ⟨{ agent with data := { agent.data with
        activeTasks := agent.data.activeTasks - 1 } }, ?_, rfl⟩
      rw [if_pos hk]
      rfl
    · exact ⟨agent, if_neg hk, rfl⟩
  | opened opens =>
    obtain ⟨_, agents', _, d, -, -, -, -, -, -, -, -, -, -, hcounts, hw'⟩ := opens
    have hagents : w'.agents = agents' := by rw [hw']
    have hpresent := hcounts.present k
    rw [hagent] at hpresent
    obtain ⟨agent', hagent'⟩ := Option.isSome_iff_exists.mp hpresent
    exact ⟨agent', by rw [hagents, hagent'], (hcounts.same k agent agent' hagent hagent').2.2.2.1⟩
  | ruled loaded found filed about ran agents disputes tasks =>
    exact hwrite agents found (DisputeOp.run_frames ran).1.authority
  | finalized ran =>
    obtain ⟨_, old, _, _, -, hold, -, -, -, -, -, -, -, rfl⟩ := applyInitiatorSlash_spec ran
    exact hwrite rfl hold rfl
  | repaired ran =>
    obtain ⟨_, old, -, hold, -, -, -, -, rfl⟩ := repairDisputeInitiatorCounter_spec ran
    exact hwrite rfl hold rfl

/-- A dispute is filed under the wallet of its initiator. -/
theorem initiateDispute_authority {w w' : World} {taskKey signer : Pubkey} {f : DisputeFiling}
    (h : initiateDispute w taskKey signer f = .ok w') :
    ∃ agent, w.agents.lookup f.agentKey = some agent ∧ agent.data.authority = signer := by
  simp only [initiateDispute, bind_eq_ok, demand_eq_ok, require_eq_ok] at h
  obtain ⟨_, -, _, -, agent, hagent, _, hauthority, -⟩ := h
  exact ⟨agent, hagent, hauthority⟩

theorem SoundOutcome.step {w w' : World} {i : Instruction} {ts : List Transfer} {d : Dispute}
    (hsound : SoundOutcome w d) (h : Step w (i, ts) w') : SoundOutcome w' d := by
  obtain ⟨⟨agent, hagent, hauthority⟩, hpending, hvotes, hdated⟩ := hsound
  obtain ⟨agent', hagent', hsame⟩ := h.keepsAuthority hagent
  exact ⟨⟨agent', hagent', hsame.trans hauthority⟩, hpending, hvotes, hdated⟩

/-- Every step leaves it intact. -/
theorem Repairable.step {w w' : World} {i : Instruction} {ts : List Transfer}
    (hw : Repairable w) (h : Step w (i, ts) w') : Repairable w' := by
  obtain ⟨hclock, hversions, hslashes, hsolvent, houtcomes⟩ := hw
  obtain ⟨hnow, hrent, hsettings⟩ := h.environment
  refine ⟨Int.lt_of_lt_of_le hclock hnow, ?_, ?_, fun k agent' hagent' => ?_,
    fun key d' hd' htracked => ?_⟩
  · rw [checkVersionRange, hsettings.protocolVersion, hsettings.minSupportedVersion]
    exact hversions
  · rw [hsettings.slashPercentage]
    exact hslashes
  · rw [hrent]
    cases hagent : w.agents.lookup k with
    | none => exact (h.registered hagent hagent').funded
    | some agent =>
      obtain ⟨agent₂, hagent₂, hmove⟩ := h.stake hagent
      obtain rfl := Option.some.inj (hagent'.symm.trans hagent₂)
      exact hmove.solvent (hsolvent k agent hagent)
  · cases h.dispute key with
    | apart same other => exact (houtcomes key d' (same.symm.trans hd') htracked).step h
    | @opened taskKey signer filing _ d new stored record named task =>
      obtain rfl := Option.some.inj (hd'.symm.trans stored)
      obtain ⟨_, hopened⟩ := record
      have hran : initiateDispute w taskKey signer filing = .ok w' := by
        cases h.does with
        | disputed ran => exact ran
      obtain ⟨agent, hagent, hauthority⟩ := initiateDispute_authority hran
      obtain ⟨agent', hagent', hsame⟩ := h.keepsAuthority hagent
      have hactive := hopened.status
      refine ⟨⟨agent', ?_, ?_⟩, ?_, ?_, fun hended => absurd hactive hended⟩
      · rw [hopened.initiator]
        exact hagent'
      · rw [hsame, hauthority, hopened.authority]
      · intro hpending
        rw [hactive] at hpending
        cases hpending
      · rintro (hruled | ⟨hruled, -⟩)
        · rw [hactive] at hruled
          cases hruled
        · rw [hactive] at hruled
          cases hruled
    | @ruled taskKey k op acc agent d d₂ c _ filed stored about loaded left found ran =>
      obtain rfl := Option.some.inj (hd'.symm.trans stored)
      have hfiling := (DisputeOp.run_frames ran).2
      have hkept := DisputeOp.keepsFiling ran
      have hsound := (houtcomes key d filed (hfiling.tracked.symm.trans htracked)).step h
      obtain ⟨agent', hagent', hauthority⟩ := hsound.initiator
      refine ⟨⟨agent', ?_, ?_⟩, hkept.sound hsound.pending, hkept.votes hsound.pending hsound.votes,
        fun _ => hkept.dated hsound.dated hclock⟩
      · rw [hfiling.initiator]
        exact hagent'
      · rw [hfiling.initiatorAuthority]
        exact hauthority
    | @finalized _ _ d filed stored final =>
      obtain rfl := Option.some.inj (hd'.symm.trans stored)
      obtain ⟨hinitiator, hpending, hvotes, hdated⟩ := (houtcomes key d filed htracked).step h
      exact ⟨hinitiator, hpending, hvotes, hdated⟩

/-! ## An outcome held up -/

/-- A counter at zero before an outcome that is owed has an incident that a repair can name with
this outcome: the outcome itself, or one that was finalized at its expense. -/
theorem exists_incident {w : World} {k key : Pubkey}
    (hshort : (outcomesAwaited w k).card ≤ outcomeUnits w k + (unrepaired w k).card)
    (hzero : outcomeUnits w k = 0) (howed : key ∈ outcomesAwaited w k) :
    ∃ incidentKey ∈ unrepaired w k, incidentKey = key ∨
      ∃ d, w.disputes.lookup incidentKey = some d ∧ d.initiatorSlashApplied = true := by
  by_contra hnone
  -- else all incidents would be owed outcomes, and this one another
  have hsub : unrepaired w k ⊆ (outcomesAwaited w k).erase key := by
    intro incidentKey hincident
    obtain ⟨⟨d, hd, htracked, hinitiator, -⟩, -⟩ := mem_unrepaired.mp hincident
    rw [Finset.mem_erase]
    constructor
    · rintro rfl
      exact hnone ⟨_, hincident, .inl rfl⟩
    · refine (Ledger.mem_support_of_lookup hd).mpr ⟨hinitiator, htracked, ?_⟩
      by_contra happlied
      exact hnone ⟨_, hincident, .inr ⟨d, hd, Bool.eq_true_of_not_eq_false happlied⟩⟩
  have hcard := Finset.card_le_card hsub
  rw [Finset.card_erase_of_mem howed] at hcard
  have hpos : 0 < (outcomesAwaited w k).card := Finset.card_pos.mpr ⟨key, howed⟩
  omega

/-- An outcome the program records is decoded. -/
theorem terminalInitiatorLost_ok {d : Dispute} (hfinal : d.status.isFinal)
    (hvotes : d.isRuled →
      d.votesFor = 1 ∧ d.votesAgainst = 0 ∨ d.votesFor = 0 ∧ d.votesAgainst = 1) :
    ∃ lost, terminalInitiatorLost d = .ok lost := by
  rw [terminalInitiatorLost]
  rcases hfinal with hstatus | hstatus | hstatus
  · rw [hstatus]
    rcases hvotes (.inl hstatus) with ⟨hfor, hagainst⟩ | ⟨hfor, hagainst⟩
    · rw [hfor, hagainst]
      exact ⟨_, rfl⟩
    · rw [hfor, hagainst]
      exact ⟨_, rfl⟩
  · rw [hstatus]
    exact ⟨_, rfl⟩
  · rw [hstatus]
    exact ⟨_, rfl⟩

/-- A slash within the stake and the account succeeds, and leaves the outcome counter alone. -/
theorem slashStake_ok (data : AgentRegistration) (lamports : ℕ) {slash : ℕ}
    (hstake : slash ≤ data.stake) (hlamports : slash ≤ lamports) :
    ∃ slashed, slashStake ⟨lamports, data⟩ slash = .ok slashed ∧
      slashed.data.activeDisputeVotes = data.activeDisputeVotes := by
  simp only [slashStake, bind_eq_ok, subU_eq_ok, checkedSub_eq_ok, Except.ok.injEq]
  exact ⟨_, ⟨_, ⟨hstake, rfl⟩, _, ⟨hlamports, rfl⟩, rfl⟩, rfl⟩

/-- The finalizer accepts an outcome of an initiator that has a unit left. -/
theorem applyInitiatorSlash_ok {w : World} {k key : Pubkey} {d : Dispute}
    {agent : Account AgentRegistration} (hw : Repairable w)
    (hd : w.disputes.lookup key = some d) (hagent : w.agents.lookup k = some agent)
    (hinitiator : d.initiator = k) (htracked : d.initiatorTracked = true)
    (hunapplied : d.initiatorSlashApplied = false) (hfinal : d.status.isFinal)
    (hstake : agent.data.stake < u64Limit) (hunit : 1 ≤ agent.data.activeDisputeVotes) :
    ∃ w' ts, applyInitiatorSlash w key k = .ok (w', ts) := by
  obtain ⟨⟨agent', hagent', hauthority⟩, -, hvotes, hdated⟩ := hw.outcomes key d hd htracked
  rw [hinitiator] at hagent'
  obtain rfl := Option.some.inj (hagent.symm.trans hagent')
  obtain ⟨lost, hlost⟩ := terminalInitiatorLost_ok hfinal hvotes
  have hactive : d.status ≠ .Active := by
    rcases hfinal with hstatus | hstatus | hstatus
    all_goals
      rw [hstatus]
      nofun
  have hpolicy : initiatorLostUnderProvenancePolicy d w.config w.sys.now = .ok lost := by
    rw [initiatorLostUnderProvenancePolicy, if_pos htracked, require_bind_eq_ok,
      require_bind_eq_ok]
    exact ⟨hfinal, hdated hactive, hlost⟩
  -- what the slash costs is covered by the stake, and the stake by the account
  have hcut : agent.data.stake * w.config.slashPercentage / 100 ≤ agent.data.stake := by
    refine Nat.div_le_of_le_mul ?_
    rw [Nat.mul_comm 100]
    exact Nat.mul_le_mul_left _ hw.slashes
  have hsolvent := hw.solvent k agent hagent
  have hamount : initiatorSlashAmount d agent.data.stake w.config.slashPercentage =
      .ok (min (agent.data.stake * w.config.slashPercentage / 100) agent.data.stake) := by
    rw [initiatorSlashAmount, if_pos htracked, calculateSlashAmount, require_bind_eq_ok,
      require_bind_eq_ok, require_bind_eq_ok]
    exact ⟨hw.slashes, hw.slashes, Nat.lt_of_le_of_lt hcut hstake, rfl⟩
  obtain ⟨slashed, slash, hslash, hunits⟩ : ∃ slashed slash,
      slashInitiator d agent lost w.config.slashPercentage = .ok (slashed, slash) ∧
        slashed.data.activeDisputeVotes = agent.data.activeDisputeVotes := by
    cases lost with
    | false => exact ⟨_, _, rfl, rfl⟩
    | true =>
      have hle := Nat.min_le_right (agent.data.stake * w.config.slashPercentage / 100)
        agent.data.stake
      have hlamports : min (agent.data.stake * w.config.slashPercentage / 100) agent.data.stake ≤
          agent.lamports := by
        rw [AgentSolvent] at hsolvent
        omega
      have hkept : (applyReputationPenalty agent.data).stake = agent.data.stake := by
        simp only [applyReputationPenalty]
      have hsame : (applyReputationPenalty agent.data).activeDisputeVotes =
          agent.data.activeDisputeVotes := by
        simp only [applyReputationPenalty]
      obtain ⟨slashed, hslashed, hunits⟩ := slashStake_ok (applyReputationPenalty agent.data)
        agent.lamports (hle.trans_eq hkept.symm) hlamports
      refine ⟨slashed, min (agent.data.stake * w.config.slashPercentage / 100) agent.data.stake,
        ?_, hunits.trans hsame⟩
      simp only [slashInitiator, if_true, bind_eq_ok, Except.ok.injEq]
      exact ⟨_, hamount, slashed, hslashed, rfl⟩
  have hrelease : ∃ data, releaseInitiatorOutcome d slashed.data = .ok data := by
    rw [releaseInitiatorOutcome, if_pos htracked]
    simp only [AgentRegistration.noteInitiatorOutcomeFinalized, bind_eq_ok, checkedSub_eq_ok,
      Except.ok.injEq]
    rw [hunits]
    exact ⟨_, _, ⟨hunit, rfl⟩, rfl⟩
  obtain ⟨data, hdata⟩ := hrelease
  simp only [applyInitiatorSlash, bind_eq_ok, demand_eq_ok, require_eq_ok, Prod.exists,
    Except.ok.injEq]
  exact ⟨_, _, d, hd, agent, hagent, (), hw.versions, (), hunapplied, (), hinitiator.symm, (),
    hauthority, lost, hpolicy, slashed, slash, hslash, data, hdata, rfl⟩

/-- The multisig can repair a counter at zero before an outcome that is owed, and the outcome can
then be finalized. -/
theorem outcome_repairable {w : World} {k key : Pubkey} {d : Dispute}
    {agent : Account AgentRegistration} (hw : Repairable w) (hshort : Short w)
    (hagent : w.agents.lookup k = some agent) (hstake : agent.data.stake < u64Limit)
    (hzero : agent.data.activeDisputeVotes = 0) (hd : w.disputes.lookup key = some d)
    (hinitiator : d.initiator = k) (htracked : d.initiatorTracked = true)
    (hunapplied : d.initiatorSlashApplied = false) (hfinal : d.status.isFinal) :
    ∃ incidentKey, ∀ signer signers signature, w.config.authority = signer →
      requireMultisigThreshold w.config signers = .ok () → signature ≠ 0 →
      ∃ w', Step w (.repairDisputeInitiatorCounter signer signers incidentKey key k signature, [])
          w' ∧
        ∃ w'' ts, Step w' (.applyInitiatorSlash key k, ts) w'' := by
  have hunits : outcomeUnits w k = 0 := (counterOf_of_lookup hagent).trans hzero
  have howed : key ∈ outcomesAwaited w k :=
    (Ledger.mem_support_of_lookup hd).mpr ⟨hinitiator, htracked, hunapplied⟩
  obtain ⟨incidentKey, hincident, hnamed⟩ := exists_incident (hshort k).2 hunits howed
  obtain ⟨⟨incident, hlookup, hshape⟩, hreceipt⟩ := mem_unrepaired.mp hincident
  refine ⟨incidentKey, fun signer signers signature hsigner hmultisig hsignature => ?_⟩
  obtain ⟨⟨agent₁, hagent₁, hauthority₁⟩, -⟩ := hw.outcomes _ incident hlookup hshape.1
  rw [hshape.2.1] at hagent₁
  obtain rfl := Option.some.inj (hagent.symm.trans hagent₁)
  obtain ⟨⟨agent₂, hagent₂, hauthority₂⟩, -, hvotes, hdated⟩ := hw.outcomes key d hd htracked
  rw [hinitiator] at hagent₂
  obtain rfl := Option.some.inj (hagent.symm.trans hagent₂)
  obtain ⟨lost, hlost⟩ := terminalInitiatorLost_ok hfinal hvotes
  have hactive : d.status ≠ .Active := by
    rcases hfinal with hstatus | hstatus | hstatus
    all_goals
      rw [hstatus]
      nofun
  have hother : key ≠ incidentKey → incident.initiatorSlashApplied = true := by
    intro hne
    rcases hnamed with heq | ⟨d', hd', happlied⟩
    · exact absurd heq.symm hne
    · obtain rfl := Option.some.inj (hlookup.symm.trans hd')
      exact happlied
  obtain ⟨repaired, hdisputes, hunit, hrepair⟩ : ∃ repaired : World,
      repaired.disputes = w.disputes ∧
      repaired.agents.lookup k = some { agent with data := { agent.data with
        activeDisputeVotes := agent.data.activeDisputeVotes + 1 } } ∧
      repairDisputeInitiatorCounter w signer signers incidentKey key k signature =
        .ok repaired := by
    refine ⟨{ w with
      agents := w.agents.insert k { agent with data := { agent.data with
        activeDisputeVotes := agent.data.activeDisputeVotes + 1 } }
      counterRepairs := incidentKey :: w.counterRepairs }, rfl, AList.lookup_insert _, ?_⟩
    simp only [repairDisputeInitiatorCounter, AgentRegistration.noteDisputeInitiated, bind_eq_ok,
      demand_eq_ok, require_eq_ok, addU8_eq_ok, Except.ok.injEq]
    refine ⟨incident, hlookup, d, hd, agent, hagent, (), hreceipt, (), hsigner, (), hmultisig, (),
      hsignature, (), ⟨hshape.1, hshape.2.1, hshape.2.2.1, hshape.2.2.2, hauthority₁.symm⟩, (),
      ⟨htracked, hinitiator, hauthority₂.symm, hunapplied⟩, (), hdated hactive, lost, hlost, (),
      hother, (), hzero, _, ⟨_, ⟨?_, rfl⟩, rfl⟩, rfl⟩
    rw [hzero]
    decide
  have hstep : Step w
      (.repairDisputeInitiatorCounter signer signers incidentKey key k signature, [])
      repaired := by
    rw [Step, execute, hrepair]
    rfl
  rw [← hdisputes] at hd
  exact ⟨repaired, hstep, applyInitiatorSlash_ok (hw.step hstep) hd hunit hinitiator htracked
    hunapplied hfinal hstake (Nat.le_add_left 1 _)⟩

/-! ## Runs -/

/-- The event repairs a counter for the incident `key`. -/
def repairsIncident (key : Pubkey) (e : LogEntry) : Bool :=
  match e.label.1 with
  | .repairDisputeInitiatorCounter _ _ incidentKey _ _ _ => decide (incidentKey = key)
  | _ => false

/-- An incident is repaired at most once, and not again when it was before. -/
theorem repaired_once {start w : World} {log : List LogEntry} (h : Run Step start log w)
    (key : Pubkey) :
    log.countP (repairsIncident key) + (if key ∈ start.counterRepairs then 1 else 0) ≤
      if key ∈ w.counterRepairs then 1 else 0 := by
  refine h.countP_add_le (I := fun _ => True) (Q := fun w => key ∈ w.counterRepairs)
    (fun _ _ _ _ => id) ?_ ?_ trivial
  · rintro ⟨w, ⟨i, ts⟩, w'⟩ hs - hP
    cases i with
    | repairDisputeInitiatorCounter signer signers incidentKey pendingKey agentKey signature =>
      obtain rfl : incidentKey = key := of_decide_eq_true hP
      cases hs.does with
      | repaired ran =>
        obtain ⟨-, hnew⟩ := mem_unrepaired.mp (repairDisputeInitiatorCounter_incident ran)
        obtain ⟨_, _, -, -, -, -, -, -, hw'⟩ := repairDisputeInitiatorCounter_spec ran
        refine ⟨hnew, ?_⟩
        change w' = _ at hw'
        rw [hw']
        exact List.mem_cons_self
    | _ => cases hP
  · rintro w ⟨i, ts⟩ w' hs - hmem
    rcases hs.counterRepairs with hsame | ⟨_, _, _, _, _, _, -, hadded⟩
    · rw [hsame]
      exact hmem
    · rw [hadded]
      exact List.mem_cons_of_mem _ hmem

theorem Short.step {w w' : World} {i : Instruction} {ts : List Transfer} (hw : Short w)
    (h : Step w (i, ts) w') : Short w' :=
  fun k => (h.counterMove k).short (hw k).1 (hw k).2

/-- **Counter repair.** From any world whose outcome counters are short by no more than their
unrepaired incidents, over every run: no counter ever counts more outcomes than are awaited, every
incident is repaired at most once, and a final outcome before a counter at zero can be repaired,
naming some incident with it, and then be finalized. -/
theorem counter_repair {start w : World} {log : List LogEntry} (hstart : Repairable start)
    (hshort : Short start) (hrun : Run Step start log w) :
    (∀ k agent, w.agents.lookup k = some agent →
      agent.data.activeDisputeVotes ≤ (outcomesAwaited w k).card) ∧
    (∀ key, log.countP (repairsIncident key) +
      (if key ∈ start.counterRepairs then 1 else 0) ≤ 1) ∧
    (∀ k agent key d, w.agents.lookup k = some agent → agent.data.stake < u64Limit →
      agent.data.activeDisputeVotes = 0 → w.disputes.lookup key = some d → d.initiator = k →
      d.initiatorTracked = true → d.initiatorSlashApplied = false → d.status.isFinal →
      ∃ incidentKey, ∀ signer signers signature, w.config.authority = signer →
        requireMultisigThreshold w.config signers = .ok () → signature ≠ 0 →
        ∃ w', Step w
            (.repairDisputeInitiatorCounter signer signers incidentKey key k signature, []) w' ∧
          ∃ w'' ts, Step w' (.applyInitiatorSlash key k, ts) w'') := by
  have hw : Repairable w ∧ Short w := by
    refine hrun.invariant (I := fun w => Repairable w ∧ Short w) ?_ ⟨hstart, hshort⟩
    rintro s ⟨i, ts⟩ s' hs ⟨hrepairable, hshort⟩
    exact ⟨hrepairable.step hs, hshort.step hs⟩
  refine ⟨fun k agent hagent => ?_, fun key => ?_, ?_⟩
  · have hle := (hw.2 k).1
    rwa [outcomeUnits, counterOf_of_lookup hagent] at hle
  · have honce := repaired_once hrun key
    have hle : (if key ∈ w.counterRepairs then 1 else 0) ≤ 1 := by
      split_ifs
      · exact Nat.le_refl 1
      · exact Nat.zero_le 1
    exact honce.trans hle
  · intro k agent key d hagent hstake hzero hd hinitiator htracked hunapplied hfinal
    exact outcome_repairable hw.1 hw.2 hagent hstake hzero hd hinitiator htracked hunapplied hfinal

/-! ## A counter that lost its unit -/

theorem Reachable.repairable {w : World} (h : Reachable w) : Repairable w := by
  refine h.induct (I := Repairable) ?_ ?_
  · intro w hgenesis
    refine ⟨hgenesis.clock, ?_, ?_, fun k agent hagent => ?_, fun key d hd => ?_⟩
    · rw [checkVersionRange, hgenesis.protocolVersion, hgenesis.minSupportedVersion]
      rfl
    · rw [hgenesis.slashPercentage]
      decide
    · rw [hgenesis.agents] at hagent
      cases hagent
    · rw [hgenesis.disputes] at hd
      cases hd
  · rintro w ⟨i, ts⟩ w' - hs hw
    exact hw.step hs

/-- The world in which the counter of `k` lost its units. -/
def World.loseUnits (w : World) (k : Pubkey) (agent : Account AgentRegistration) : World :=
  { w with agents := w.agents.insert k { agent with data := { agent.data with
    activeDisputeVotes := 0 } } }

/-- Lost units leave the rest of the state intact. -/
theorem Repairable.loseUnits {w : World} {k : Pubkey} {agent : Account AgentRegistration}
    (hw : Repairable w) (hagent : w.agents.lookup k = some agent) :
    Repairable (w.loseUnits k agent) := by
  obtain ⟨hclock, hversions, hslashes, hsolvent, houtcomes⟩ := hw
  refine ⟨hclock, hversions, hslashes, fun k' agent' hagent' => ?_, fun key d hd htracked => ?_⟩
  · rw [World.loseUnits, Ledger.lookup_insert_eq_ite] at hagent'
    split_ifs at hagent' with hk
    · obtain rfl := Option.some.inj hagent'
      exact hsolvent k agent hagent
    · exact hsolvent k' agent' hagent'
  · obtain ⟨⟨agent', hagent', hauthority⟩, hpending, hvotes, hdated⟩ := houtcomes key d hd htracked
    refine ⟨?_, hpending, hvotes, hdated⟩
    by_cases hk : d.initiator = k
    · rw [hk] at hagent' ⊢
      obtain rfl := Option.some.inj (hagent.symm.trans hagent')
      exact ⟨_, AList.lookup_insert _, hauthority⟩
    · exact ⟨agent', (AList.lookup_insert_ne hk).trans hagent', hauthority⟩

/-- A counter that lost its units is short by what it counted. -/
theorem short_loseUnits {w : World} {k : Pubkey} {agent : Account AgentRegistration}
    (hw : Reachable w) (hle : (outcomesAwaited w k).card ≤ (unrepaired w k).card) :
    Short (w.loseUnits k agent) := by
  intro k'
  have hcounted : outcomeUnits w k' = (outcomesAwaited w k').card := outcome_counter hw k'
  have hunits : outcomeUnits (w.loseUnits k agent) k' =
      if k' = k then 0 else outcomeUnits w k' := by
    rw [outcomeUnits, counterOf_insert rfl]
  have hawaited : outcomesAwaited (w.loseUnits k agent) k' = outcomesAwaited w k' := rfl
  have hunrepaired : unrepaired (w.loseUnits k agent) k' = unrepaired w k' := rfl
  rw [hunits, hawaited, hunrepaired]
  by_cases hk : k' = k
  · subst hk
    rw [if_pos rfl]
    omega
  · rw [if_neg hk]
    omega

/-- A worker (agent `11`) disputes the task (`50`) it submitted for, against itself as the code
has it, and loses. -/
def selfDisputeScript : List Instruction :=
  [.agent 11 (.registerAgent 101 1 1000000 0),
    .create 50 100 false {} (.createTaskHumanless
      ⟨1, 1, (1, 0), 100000000, 1, 5000, .Exclusive, 0, none⟩ 3600 none 0),
    .task 50 (.setTaskJobSpec 100 7),
    .work 50 11 (.claimTaskWithJobSpec 101 0),
    .work 50 11 (.submitTaskResult 101 9 none 0),
    .initiateDispute 50 101 ⟨60, 11, none, 5, .Refund⟩,
    .dispute 50 60 11 (.resolveDispute 1 [1, 3] false false {})]

/-- Its counter lost the unit of the dispute: the multisig can name the dispute as its own
incident, and the dispute can be finalized. -/
theorem counter_repair_lost :
    ∃ agent, (deployed.after selfDisputeScript).agents.lookup 11 = some agent ∧
      ∃ incidentKey, ∀ signer signers signature,
        ((deployed.after selfDisputeScript).loseUnits 11 agent).config.authority = signer →
        requireMultisigThreshold ((deployed.after selfDisputeScript).loseUnits 11 agent).config
          signers = .ok () → signature ≠ 0 →
        ∃ w', Step ((deployed.after selfDisputeScript).loseUnits 11 agent)
            (.repairDisputeInitiatorCounter signer signers incidentKey 60 11 signature, []) w' ∧
          ∃ w'' ts, Step w' (.applyInitiatorSlash 60 11, ts) w'' := by
  have hreachable := deployed_genesis.reachable_after selfDisputeScript
  have hstored : ((deployed.after selfDisputeScript).agents.lookup 11).map
      (fun agent => agent.data.stake) = some 1000000 := by decide +kernel
  have hruled : ((deployed.after selfDisputeScript).disputes.lookup 60).map
      (fun d => (d.initiator, d.initiatorTracked, d.initiatorSlashApplied, d.status)) =
        some (11, true, false, .Resolved) := by decide +kernel
  have hcards : (outcomesAwaited (deployed.after selfDisputeScript) 11).card ≤
      (unrepaired (deployed.after selfDisputeScript) 11).card := by decide +kernel
  generalize deployed.after selfDisputeScript = w at *
  obtain ⟨agent, hagent, hstake⟩ := Option.map_eq_some_iff.mp hstored
  obtain ⟨d, hd, hfields⟩ := Option.map_eq_some_iff.mp hruled
  obtain ⟨hinitiator, htracked, hunapplied, hstatus⟩ :
      d.initiator = 11 ∧ d.initiatorTracked = true ∧ d.initiatorSlashApplied = false ∧
        d.status = .Resolved := by
    simpa using hfields
  refine ⟨agent, hagent, ?_⟩
  have hrepair := (counter_repair (hreachable.repairable.loseUnits hagent)
    (short_loseUnits hreachable hcards) .refl).2.2
  refine hrepair 11 _ 60 d (AList.lookup_insert _) ?_ rfl hd hinitiator htracked hunapplied
    (.inl hstatus)
  show agent.data.stake < u64Limit
  rw [hstake]
  decide

end AgencCoordination
