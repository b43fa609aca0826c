import AgencCoordination.Invariants.Disputes

/-!
# The dispute counters of an agent

Two counters of an agent's registration say how many disputes may still cost it something: those
it initiated and whose outcome is not finalized, and those in which it stands to lose a slash.

* **`outcome_counter`** — `active_dispute_votes` is the number of the tracked disputes the agent
  initiated whose finalizer has not run.
* **`defendant_counter`** — `disputes_as_defendant` is the number of disputes that still threaten
  the agent.

Both follow the same pattern: one step changes the counter and the set of disputes it counts by
the same amount.
-/

namespace AgencCoordination

open Foundations

/-! ## Counters and what they count -/

/-- A counter of the agent `k`; an address without an agent counts nothing. -/
def counterOf (f : AgentRegistration → ℕ) (w : World) (k : Pubkey) : ℕ :=
  ((w.agents.lookup k).map fun agent => f agent.data).getD 0

section CounterOf

variable {f : AgentRegistration → ℕ} {w w' : World} {k k' : Pubkey}
  {agent agent' : Account AgentRegistration}

theorem counterOf_of_lookup (h : w.agents.lookup k = some agent) :
    counterOf f w k = f agent.data := by
  rw [counterOf, h]
  rfl

theorem counterOf_of_none (h : w.agents.lookup k = none) : counterOf f w k = 0 := by
  rw [counterOf, h]
  rfl

theorem counterOf_congr (h : w'.agents = w.agents) : counterOf f w' k = counterOf f w k := by
  rw [counterOf, h, counterOf]

/-- Writing an agent changes its own counter only. -/
theorem counterOf_insert (h : w'.agents = w.agents.insert k' agent') :
    counterOf f w' k = if k = k' then f agent'.data else counterOf f w k := by
  rw [counterOf, h, Ledger.lookup_insert_eq_ite]
  split_ifs <;> rfl

/-- Overwriting an agent by one with the same counter changes nothing. -/
theorem counterOf_insert_same (h : w'.agents = w.agents.insert k' agent')
    (hk' : w.agents.lookup k' = some agent) (hsame : f agent'.data = f agent.data) :
    counterOf f w' k = counterOf f w k := by
  rw [counterOf_insert h]
  split_ifs with hk
  · rw [hk, counterOf_of_lookup hk', hsame]
  · rfl

theorem counterOf_written {op : AgentOp} (h : WritesAgent w k' op w')
    (hfresh : ∀ agent, FreshAgent w.sys.rent agent → f agent.data = 0)
    (hsame : ∀ agent agent', SameAgent agent agent' → f agent'.data = f agent.data)
    (hretire : ∀ agent agent', Retires w.sys.rent agent agent' → f agent'.data = f agent.data) :
    counterOf f w' k = counterOf f w k := by
  obtain ⟨agent', _, ⟨hnew, hf⟩ | ⟨agent, hagent, hwrite⟩, rfl⟩ := h
  · rw [counterOf_insert rfl]
    split_ifs with hk
    · rw [hk, counterOf_of_none hnew, hfresh _ hf]
    · rfl
  · refine counterOf_insert_same rfl hagent ?_
    rcases hwrite with hwrite | ⟨-, hwrite⟩
    · exact hsame _ _ hwrite
    · exact hretire _ _ hwrite

theorem counterOf_freed {workers : List Pubkey}
    (h : ∀ k, w'.agents.lookup k = if k ∈ workers then
      (w.agents.lookup k).map fun a => { a with data := { a.data with
        activeTasks := a.data.activeTasks - 1 } } else w.agents.lookup k)
    (hsame : ∀ agent : AgentRegistration,
      f { agent with activeTasks := agent.activeTasks - 1 } = f agent) :
    counterOf f w' k = counterOf f w k := by
  rw [counterOf, h, counterOf]
  split_ifs
  · cases w.agents.lookup k with
    | none => rfl
    | some agent => exact hsame agent.data
  · rfl

theorem counterOf_donated (h : CreditsAgent w.agents w'.agents) :
    counterOf f w' k = counterOf f w k := by
  obtain ⟨k', agent, amount, hagent, hagents⟩ := h
  exact counterOf_insert_same hagents hagent rfl

/-- Opening a dispute adds the same amount to the counter of every agent it concerns. -/
theorem counterOf_opened {agents' : Ledger Pubkey (Account AgentRegistration)}
    {initiator defendant : Pubkey} {add : ℕ} (hagents : w'.agents = agents')
    (h : CountsInitiation w.agents agents' initiator defendant)
    (hadd : ∀ agent agent', w.agents.lookup k = some agent → agents'.lookup k = some agent' →
      f agent'.data = f agent.data + add)
    (hnone : w.agents.lookup k = none → add = 0) :
    counterOf f w' k = counterOf f w k + add := by
  have hpresent := h.present k
  cases hk : w.agents.lookup k with
  | none =>
    rw [hk, Option.isSome_none, Option.isSome_eq_false_iff, Option.isNone_iff_eq_none,
      ← hagents] at hpresent
    rw [counterOf_of_none hk, counterOf_of_none hpresent, hnone hk]
  | some agent =>
    rw [hk] at hpresent
    obtain ⟨agent', hagent'⟩ := Option.isSome_iff_exists.mp hpresent
    rw [counterOf_of_lookup hk, ← hadd agent agent' hk hagent']
    exact counterOf_of_lookup (by rw [hagents, hagent'])

end CounterOf

/-- The disputes `p` is true of. -/
abbrev disputesWith (w : World) (p : Dispute → Prop) [DecidablePred p] : Finset Pubkey :=
  Ledger.support p w.disputes

/-! ## The initiator's counter -/

/-- The dispute was initiated by `k`, is tracked, and its finalizer has not run. -/
def Dispute.awaitsOutcome (k : Pubkey) (d : Dispute) : Prop :=
  d.initiator = k ∧ d.initiatorTracked = true ∧ d.initiatorSlashApplied = false

instance (k : Pubkey) : DecidablePred (Dispute.awaitsOutcome k) :=
  fun _ => inferInstanceAs (Decidable (_ ∧ _))

/-- The disputes whose outcome `k` still waits for. -/
def outcomesAwaited (w : World) (k : Pubkey) : Finset Pubkey :=
  disputesWith w (Dispute.awaitsOutcome k)

/-- How much an instruction raises the outcome counter of `k`: by one, for a dispute it opens. -/
def outcomesRaised (i : Instruction) (k : Pubkey) : ℕ :=
  match i with
  | .initiateDispute _ _ filing => if k = filing.agentKey then 1 else 0
  | _ => 0

/-- How much an instruction lowers the outcome counter of `k`: by one, when it finalizes a
dispute of `k`. -/
def outcomesReleased (i : Instruction) (k : Pubkey) : ℕ :=
  match i with
  | .applyInitiatorSlash _ agentKey => if k = agentKey then 1 else 0
  | _ => 0

/-- The outcome counter of every address is the number of outcomes it waits for. -/
def OutcomesCounted (w : World) : Prop :=
  ∀ k, counterOf AgentRegistration.activeDisputeVotes w k = (outcomesAwaited w k).card

/-- A step changes the outcome counter by what it raises and releases, and keeps it equal to the
number of outcomes awaited. -/
theorem Step.outcomes {w w' : World} {i : Instruction} {ts : List Transfer}
    (h : Step w (i, ts) w') (hdisputes : ∀ key d, w.disputes.lookup key = some d → DisputeInv w d)
    (hcounted : OutcomesCounted w) (k : Pubkey) :
    counterOf AgentRegistration.activeDisputeVotes w' k + outcomesReleased i k =
        counterOf AgentRegistration.activeDisputeVotes w k + outcomesRaised i k ∧
      counterOf AgentRegistration.activeDisputeVotes w' k = (outcomesAwaited w' k).card := by
  have hsame (hcounter : counterOf AgentRegistration.activeDisputeVotes w' k =
      counterOf AgentRegistration.activeDisputeVotes w k)
      (hset : outcomesAwaited w' k = outcomesAwaited w k) (hreleased : outcomesReleased i k = 0)
      (hraised : outcomesRaised i k = 0) :
      counterOf AgentRegistration.activeDisputeVotes w' k + outcomesReleased i k =
          counterOf AgentRegistration.activeDisputeVotes w k + outcomesRaised i k ∧
        counterOf AgentRegistration.activeDisputeVotes w' k = (outcomesAwaited w' k).card := by
    rw [hreleased, hraised, hset, hcounter]
    exact ⟨rfl, hcounted k⟩
  have hset_of {w' : World} (hd : w'.disputes = w.disputes) :
      outcomesAwaited w' k = outcomesAwaited w k := by
    rw [outcomesAwaited, disputesWith, hd]
    rfl
  cases h.agents with
  | same plain agents disputes unpaid =>
    refine hsame (counterOf_congr agents) (hset_of disputes) ?_ ?_
    · cases i <;> first | rfl | cases plain
    · cases i <;> first | rfl | cases plain
  | donated credits disputes =>
    exact hsame (counterOf_donated credits) (hset_of disputes) rfl rfl
  | wrote writes paid ran =>
    refine hsame (counterOf_written writes (fun _ hf => hf.votes) (fun _ _ hs => hs.votes)
      fun _ _ hr => hr.sameVotes) ?_ rfl rfl
    obtain ⟨_, _, -, rfl⟩ := writes
    exact hset_of rfl
  | worked found agents disputes lamports stake authority votes asDefendant unpaid =>
    exact hsame (counterOf_insert_same agents found votes) (hset_of disputes) rfl rfl
  | freed agents disputes unpaid =>
    exact hsame (counterOf_freed agents fun _ => rfl) (hset_of disputes) rfl rfl
  | @opened taskKey signer filing _ opens =>
    obtain ⟨acc, _, _, d, hnew, -, hagent, -, -, -, hopened, -, -, -, hcounts, hw'⟩ := opens
    have hcounter : counterOf AgentRegistration.activeDisputeVotes w' k =
        counterOf AgentRegistration.activeDisputeVotes w k +
          if k = filing.agentKey then 1 else 0 := by
      refine counterOf_opened (by rw [hw']) hcounts (fun agent agent' ha ha' => ?_) fun hnone => ?_
      · exact (hcounts.same k agent agent' ha ha').2.2.2.2.1
      · refine if_neg ?_
        rintro rfl
        rw [hnone] at hagent
        cases hagent
    have hset : (outcomesAwaited w' k).card =
        (outcomesAwaited w k).card + if k = filing.agentKey then 1 else 0 := by
      rw [outcomesAwaited, disputesWith, hw']
      by_cases hk : k = filing.agentKey
      · have hp : Dispute.awaitsOutcome k d :=
          ⟨hopened.initiator.trans hk.symm, hopened.tracked, hopened.unapplied⟩
        rw [if_pos hk]
        exact Ledger.card_support_insert_new hnew hp
      · have hp : ¬Dispute.awaitsOutcome k d := fun hp => hk (hp.1.symm.trans hopened.initiator)
        rw [if_neg hk]
        exact congrArg _ (Ledger.support_insert_fresh_of_not hnew hp)
    exact ⟨hcounter, by rw [hcounter, hset, hcounted k]⟩
  | ruled loaded found filed about ran agents disputes tasks =>
    obtain ⟨hframes, hfiling⟩ := DisputeOp.run_frames ran
    refine hsame (counterOf_insert_same agents found hframes.votes) ?_ rfl rfl
    rw [outcomesAwaited, disputesWith, disputes]
    refine Ledger.support_insert_same filed ?_
    rw [Dispute.awaitsOutcome, hfiling.initiator, hfiling.tracked, hfiling.applied]
    rfl
  | @finalized disputeKey agentKey _ _ ran =>
    obtain ⟨d, agent, _, _, hd, hagent, hunapplied, hinitiator, -, -, -, hpos, -, hw'⟩ :=
      applyInitiatorSlash_spec ran
    have htracked := (hdisputes _ _ hd).tracked
    have hone := hpos htracked
    obtain ⟨agent', hagents, hvotes⟩ : ∃ agent', w'.agents = w.agents.insert agentKey agent' ∧
        agent'.data.activeDisputeVotes = agent.data.activeDisputeVotes - 1 :=
      ⟨_, by rw [hw'], congrArg (agent.data.activeDisputeVotes - ·) (if_pos htracked)⟩
    have hnot : ¬Dispute.awaitsOutcome k { d with initiatorSlashApplied := true } := by
      rintro ⟨-, -, hfalse⟩
      cases hfalse
    by_cases hk : k = agentKey
    · have hset : (outcomesAwaited w' k).card + 1 = (outcomesAwaited w k).card := by
        rw [outcomesAwaited, disputesWith, hw']
        exact Ledger.card_support_insert_lost hd ⟨hinitiator.symm.trans hk.symm, htracked,
          hunapplied⟩ hnot
      have hcount := hcounted k
      rw [hk, counterOf_of_lookup hagent] at hcount
      rw [hk] at hset ⊢
      rw [counterOf_insert hagents, if_pos rfl, counterOf_of_lookup hagent, hvotes]
      simp only [outcomesReleased, outcomesRaised, if_true]
      omega
    · refine hsame ?_ ?_ (if_neg hk) rfl
      · rw [counterOf_insert hagents, if_neg hk]
      · rw [outcomesAwaited, disputesWith, hw']
        refine Ledger.support_insert_same hd ⟨fun hp => absurd hp hnot, fun hp => ?_⟩
        exact absurd (hp.1.symm.trans hinitiator.symm) hk
  | @repaired _ _ _ pendingKey agentKey _ _ ran =>
    obtain ⟨pending, agent, hpending, hagent, htracked, hinitiator, hunapplied, hzero, rfl⟩ :=
      repairDisputeInitiatorCounter_spec ran
    -- A counter that is zero has no outcome awaited, so there is nothing to repair.
    have hmem : pendingKey ∈ outcomesAwaited w agentKey :=
      (Ledger.mem_support_of_lookup hpending).mpr ⟨hinitiator, htracked, hunapplied⟩
    have hcount := hcounted agentKey
    rw [counterOf_of_lookup hagent, hzero] at hcount
    exact absurd hmem (by rw [Finset.card_eq_zero.mp hcount.symm]; simp)

/-- The outcome counter counts in every reachable world. -/
theorem outcome_counter {w : World} (h : Reachable w) : OutcomesCounted w := by
  refine h.induct (I := OutcomesCounted) ?_ ?_
  · intro w hgenesis k
    have hagent : w.agents.lookup k = none := by
      rw [hgenesis.agents]
      rfl
    rw [counterOf_of_none hagent, outcomesAwaited, disputesWith, hgenesis.disputes,
      Ledger.support_empty, Finset.card_empty]
  · rintro w ⟨i, ts⟩ w' hr hs ih k
    exact (hs.outcomes (dispute_inv hr) ih k).2

/-- The event opens the dispute `key`. -/
def opensDispute (key : Pubkey) (e : LogEntry) : Bool :=
  match e.label.1 with
  | .initiateDispute _ _ filing => decide (filing.disputeKey = key)
  | _ => false

/-- The event finalizes the dispute `key` for its initiator. -/
def finalizesDispute (key : Pubkey) (e : LogEntry) : Bool :=
  match e.label.1 with
  | .applyInitiatorSlash disputeKey _ => decide (disputeKey = key)
  | _ => false

/-- The dispute `key` is stored, and its finalizer has run. -/
def World.hasFinalized (w : World) (key : Pubkey) : Prop :=
  ∃ d ∈ w.disputes.lookup key, d.initiatorSlashApplied = true

instance (w : World) (key : Pubkey) : Decidable (w.hasFinalized key) :=
  inferInstanceAs (Decidable (∃ d ∈ w.disputes.lookup key, d.initiatorSlashApplied = true))

/-- A run opens a dispute exactly once, if it has it at the end. -/
theorem opened_once {start w : World} {log : List LogEntry} (hstart : Genesis start)
    (h : Run Step start log w) (key : Pubkey) :
    log.countP (opensDispute key) = if (w.disputes.lookup key).isSome = true then 1 else 0 := by
  refine h.countP_eq (I := fun _ => True) (Q := fun w => (w.disputes.lookup key).isSome = true)
    (fun _ _ _ _ => id) ?_ ?_ ?_ trivial ?_
  · rintro ⟨w, ⟨i, ts⟩, w'⟩ hs - hP
    cases i with
    | initiateDispute taskKey signer filing =>
      have hkey : filing.disputeKey = key := of_decide_eq_true hP
      cases hs.dispute key with
      | apart same other => exact absurd (congrArg some hkey) other
      | opened new stored record named task => exact ⟨by simp [new], by simp [stored]⟩
    | _ => cases hP
  · rintro w ⟨i, ts⟩ w' hs - hQ
    cases hs.dispute key with
    | apart same other => rwa [same]
    | opened new stored => simp [stored]
    | ruled filed stored => simp [stored]
    | finalized filed stored => simp [stored]
  · rintro ⟨w, ⟨i, ts⟩, w'⟩ hs - hnot hQ
    cases hs.dispute key with
    | apart same other => exact absurd (by rwa [same] at hQ) hnot
    | opened new stored record named task => exact decide_eq_true named
    | ruled filed stored => exact absurd (by simp [filed]) hnot
    | finalized filed stored => exact absurd (by simp [filed]) hnot
  · rw [hstart.disputes]
    nofun

/-- The finalizer marks a dispute that was not marked. -/
theorem Step.finalizes {w w' : World} {ts : List Transfer} {key agentKey : Pubkey}
    (h : Step w (.applyInitiatorSlash key agentKey, ts) w') :
    ∃ d, w.disputes.lookup key = some d ∧ d.initiator = agentKey ∧ d.status.isFinal ∧
      d.initiatorSlashApplied = false ∧
      w'.disputes.lookup key = some { d with initiatorSlashApplied := true } := by
  cases h.agents with
  | same plain => cases plain
  | finalized ran =>
    obtain ⟨d, _, _, _, hd, -, hunapplied, hinitiator, hfinal, -, -, -, -, rfl⟩ :=
      applyInitiatorSlash_spec ran
    exact ⟨d, hd, hinitiator.symm, hfinal, hunapplied, AList.lookup_insert _⟩

/-- A run finalizes a dispute exactly once, if its finalizer has run at the end. -/
theorem finalized_once {start w : World} {log : List LogEntry} (hstart : Genesis start)
    (h : Run Step start log w) (key : Pubkey) :
    log.countP (finalizesDispute key) = if w.hasFinalized key then 1 else 0 := by
  refine h.countP_eq (I := fun _ => True) (Q := fun w => w.hasFinalized key)
    (fun _ _ _ _ => id) ?_ ?_ ?_ trivial ?_
  · rintro ⟨w, ⟨i, ts⟩, w'⟩ hs - hP
    cases i with
    | applyInitiatorSlash disputeKey agentKey =>
      obtain rfl : disputeKey = key := of_decide_eq_true hP
      obtain ⟨d, hd, -, -, hunapplied, hd'⟩ := hs.finalizes
      refine ⟨?_, _, hd', rfl⟩
      rintro ⟨d₂, hd₂, happlied⟩
      obtain rfl := Option.some.inj (hd.symm.trans hd₂)
      rw [hunapplied] at happlied
      cases happlied
    | _ => cases hP
  · rintro w ⟨i, ts⟩ w' hs - ⟨d, hd, happlied⟩
    cases hs.dispute key with
    | apart same other => exact ⟨d, same.trans hd, happlied⟩
    | opened new stored =>
      rw [new] at hd
      cases hd
    | ruled filed stored about loaded left found ran =>
      obtain rfl := Option.some.inj (filed.symm.trans hd)
      exact ⟨_, stored, (DisputeOp.run_frames ran).2.applied.trans happlied⟩
    | finalized filed stored => exact ⟨_, stored, rfl⟩
  · rintro ⟨w, ⟨i, ts⟩, w'⟩ hs - hnot ⟨d', hd', happlied⟩
    cases hs.dispute key with
    | apart same other => exact absurd ⟨d', same.symm.trans hd', happlied⟩ hnot
    | opened new stored record named task =>
      obtain rfl := Option.some.inj (stored.symm.trans hd')
      obtain ⟨_, hopened⟩ := record
      rw [hopened.unapplied] at happlied
      cases happlied
    | ruled filed stored about loaded left found ran =>
      obtain rfl := Option.some.inj (stored.symm.trans hd')
      exact absurd ⟨_, filed, (DisputeOp.run_frames ran).2.applied.symm.trans happlied⟩ hnot
    | finalized filed stored => exact decide_eq_true rfl
  · rintro ⟨d, hd, -⟩
    rw [hstart.disputes] at hd
    cases hd

/-- The initiator's counter is exact. It is the number of tracked disputes whose outcome is not
finalized; each dispute raises it once, when it is opened, and lowers it once, when it is
finalized after its end; and nobody leaves while an outcome is awaited. -/
theorem initiator_outcome_counter :
    (∀ w, Reachable w → ∀ k agent, w.agents.lookup k = some agent →
      agent.data.activeDisputeVotes = (outcomesAwaited w k).card) ∧
    (∀ w i ts w', Reachable w → Step w (i, ts) w' → ∀ k,
      counterOf AgentRegistration.activeDisputeVotes w' k + outcomesReleased i k =
        counterOf AgentRegistration.activeDisputeVotes w k + outcomesRaised i k) ∧
    (∀ start log w, Genesis start → Run Step start log w → ∀ key,
      log.countP (opensDispute key) =
        (if (w.disputes.lookup key).isSome = true then 1 else 0) ∧
      log.countP (finalizesDispute key) = if w.hasFinalized key then 1 else 0) ∧
    (∀ w key agentKey ts w', Reachable w → Step w (.applyInitiatorSlash key agentKey, ts) w' →
      ∃ d, w.disputes.lookup key = some d ∧ d.initiator = agentKey ∧ d.status.isFinal ∧
        d.initiatorTracked = true ∧ d.initiatorSlashApplied = false) ∧
    (∀ w k signer reputationStake ts w', Reachable w →
      Step w (.agent k (.deregisterAgent signer reputationStake), ts) w' →
      ∀ key d, w.disputes.lookup key = some d → d.initiator = k → d.initiatorTracked = true →
        d.initiatorSlashApplied = true) := by
  refine ⟨fun w hw k agent hagent => ?_, fun w i ts w' hw hs k => ?_,
    fun start log w hstart h key => ⟨opened_once hstart h key, finalized_once hstart h key⟩,
    fun w key agentKey ts w' hw hs => ?_, fun w k signer reputationStake ts w' hw hs key d hd
      hinitiator htracked => ?_⟩
  · rw [← outcome_counter hw k, counterOf_of_lookup hagent]
  · exact (hs.outcomes (dispute_inv hw) (outcome_counter hw) k).1
  · obtain ⟨d, hd, hinitiator, hfinal, hunapplied, -⟩ := hs.finalizes
    exact ⟨d, hd, hinitiator, hfinal, (dispute_inv hw key d hd).tracked, hunapplied⟩
  · have hrun : deregisterAgent w k signer reputationStake = .ok (w', ts) := hs
    obtain ⟨agent, _, _, hagent, hretires, -⟩ := deregisterAgent_spec hrun
    have hcount := outcome_counter hw k
    rw [counterOf_of_lookup hagent, hretires.votes] at hcount
    by_contra hunapplied
    have hmem : key ∈ outcomesAwaited w k :=
      (Ledger.mem_support_of_lookup hd).mpr ⟨hinitiator, htracked,
        Bool.eq_false_iff.mpr hunapplied⟩
    rw [Finset.card_eq_zero.mp hcount.symm] at hmem
    exact absurd hmem (Finset.notMem_empty key)

/-- With the dispute of `disputeScript` open, its initiator waits for one outcome. -/
theorem initiator_outcome_counter_disputed : (outcomesAwaited disputedWorld 10).card = 1 := by
  obtain ⟨agent, hagent⟩ : ∃ agent, disputedWorld.agents.lookup 10 = some agent :=
    Option.isSome_iff_exists.mp (by decide +kernel)
  have hone : (disputedWorld.agents.lookup 10).map (fun a => a.data.activeDisputeVotes) = some 1 := by
    decide +kernel
  rw [hagent] at hone
  rw [← initiator_outcome_counter.1 disputedWorld disputedWorld_reachable 10 agent hagent]
  exact Option.some.inj hone

/-! ## The defendant's counter -/

/-- The dispute names `k` its defendant and can still cost it a slash. -/
def Dispute.accuses (k : Pubkey) (d : Dispute) : Prop := d.defendant = k ∧ d.threatens

instance (k : Pubkey) : DecidablePred (Dispute.accuses k) :=
  fun _ => inferInstanceAs (Decidable (_ ∧ _))

/-- The disputes that can still cost `k` a slash. -/
def threatsTo (w : World) (k : Pubkey) : Finset Pubkey := disputesWith w (Dispute.accuses k)

/-- The defendant counter of every address is the number of disputes that threaten it. -/
def ThreatsCounted (w : World) : Prop :=
  ∀ k, counterOf AgentRegistration.disputesAsDefendant w k = (threatsTo w k).card

/-- What one handler does to the threat of its dispute: nothing, to the threat and the counter
alike, or it ends the threat and lowers the defendant's counter. -/
def MovesThreat (c c' : TaskContext) (d d' : Dispute) : Prop :=
  (d'.threatens ↔ d.threatens) ∧
      c'.worker.data.disputesAsDefendant = c.worker.data.disputesAsDefendant ∨
    d.threatens ∧ ¬d'.threatens ∧ c.workerKey = d.defendant ∧
      c'.worker.data.disputesAsDefendant = c.worker.data.disputesAsDefendant - 1

section Threats

variable {w : World} {c c' : TaskContext} {d d' : Dispute}

theorem cancelDispute_threat {signer : Pubkey} (h : cancelDispute c d signer = .ok (c', d')) :
    MovesThreat c c' d d' := by
  obtain ⟨_, _, hactive, hdefendant, -, -, -, rfl, rfl⟩ := cancelDispute_spec h
  refine .inr ⟨.inl hactive, ?_, hdefendant, rfl⟩
  rintro (hstill | ⟨⟨hruled | ⟨hruled, -⟩, -⟩, -⟩) <;> cases ‹DisputeStatus.Cancelled = _›

/-- A ruling ends the threat unless the worker lost. -/
theorem resolveDispute_threat {signer : Pubkey} {signers : List Pubkey}
    {assigned approved : Bool} {payees : PayeeAccounts}
    (h : resolveDispute c d signer signers assigned approved payees = .ok (c', d'))
    (hinv : DisputeInv w d) : MovesThreat c c' d d' := by
  obtain ⟨_, _, _, _, _, _, _, _, _, _, _, _, _, _, _, hactive, hdefendant, h⟩ :=
    resolveDispute_spec h
  obtain ⟨-, -, -, -, -, -, -, -, -, _, _, _, _, _, h⟩ := h
  obtain ⟨votesFor, votesAgainst, rfl, rfl, rfl, rfl⟩ := h
  have hunslashed : d.slashApplied ≠ true := fun hslashed => by
    have hstatus := (hinv.slashed hslashed).1
    rw [hactive] at hstatus
    cases hstatus
  have hruled := d.settle_isRuled (c.accounts.task.currentWorkers - 1) c.sys.now
  cases hlost : workerLostDispute approved d.resolutionType with
  | true =>
    have hlost' := hlost
    rw [workerLostDispute, Bool.and_eq_true, decide_eq_true_eq] at hlost'
    obtain ⟨rfl, hrefund⟩ := hlost'
    refine .inl ⟨⟨fun _ => .inl hactive, fun _ => .inr ⟨⟨hruled, ?_, hrefund⟩, ?_⟩⟩, rfl⟩
    · exact Nat.one_pos
    · exact Bool.eq_false_iff.mpr hunslashed
  | false =>
    refine .inr ⟨.inl hactive, ?_, hdefendant, rfl⟩
    rintro (hstill | ⟨⟨-, hvotes, hrefund⟩, -⟩)
    · exact hruled.hasEnded.not_active hstill
    · have happroved : approved = true := by
        by_contra hnot
        rw [Bool.not_eq_true] at hnot
        rw [hnot] at hvotes
        exact absurd hvotes (lt_irrefl 0)
      have hrefund : d.resolutionType = .Refund := hrefund
      rw [workerLostDispute, happroved, hrefund] at hlost
      cases hlost

theorem expireDispute_threat (h : expireDispute c d = .ok (c', d')) : MovesThreat c c' d d' := by
  obtain ⟨_, _, _, _, _, _, _, _, _, _, _, _, _, _, _, hactive, hdefendant, h⟩ :=
    expireDispute_spec h
  obtain ⟨-, -, -, -, -, -, -, -, -, -, rfl, rfl⟩ := h
  refine .inr ⟨.inl hactive, ?_, hdefendant, rfl⟩
  rintro (hstill | ⟨⟨hruled, -⟩, -⟩)
  · exact (d.settle_expired_hasEnded _ _).not_active hstill
  · exact d.settle_expired_not_isRuled hruled

/-- The settlement of a peer neither raises nor ends a threat. -/
theorem settleDisputeClaim_threat (h : settleDisputeClaim c d = .ok (c', d')) :
    MovesThreat c c' d d' := by
  obtain ⟨_, _, _, _, _, status', _, hpending, -, -, -, -, -, -, -, -, hstatus, hlast, h⟩ :=
    settleDisputeClaim_spec h
  obtain ⟨rfl, rfl⟩ := h
  refine .inl ⟨?_, rfl⟩
  change (status' = .Active ∨ ((status' = .Resolved ∨ status' = .SettlementPending ∧ _) ∧ _) ∧ _) ↔
    (_ ∨ ((_ ∨ _) ∧ _) ∧ _)
  rw [hstatus]
  split_ifs with hlast'
  · rcases hlast hlast' with hp | hp <;> simp [hp, hpending]
  · exact Iff.rfl

/-- Applying the slash ends the threat. -/
theorem applyDisputeSlash_threat {withTokenAccounts : Bool}
    (h : applyDisputeSlash c d withTokenAccounts = .ok (c', d')) (hinv : DisputeInv w d)
    (hload : w.tasks.lookup d.task = some c.accounts) : MovesThreat c c' d d' := by
  obtain ⟨hlost, hunslashed⟩ := slash_threatens h hinv hload
  obtain ⟨claim, _, _, _, _, _, _, _, _, _, _, _, -, hdefendant, hresolved, -, h⟩ :=
    applyDisputeSlash_spec h
  obtain ⟨-, -, -, -, -, hfree, -, rfl, rfl⟩ := h
  obtain ⟨-, -, -, hcounter⟩ := hfree hunslashed
  refine .inr ⟨.inr ⟨hlost, hunslashed⟩, ?_, hdefendant, hcounter⟩
  rintro (hstill | ⟨-, hfalse⟩)
  · have hstill : d.status = .Active := hstill
    rw [hresolved] at hstill
    cases hstill
  · cases hfalse

theorem DisputeOp.threat {op : DisputeOp} (h : op.run w c d = .ok (c', d'))
    (hinv : DisputeInv w d) (hload : w.tasks.lookup d.task = some c.accounts) :
    MovesThreat c c' d d' := by
  cases op with
  | cancelDispute signer => exact cancelDispute_threat h
  | resolveDispute signer signers withAssignment approved payees =>
    exact resolveDispute_threat h hinv
  | expireDispute => exact expireDispute_threat h
  | settleDisputeClaim => exact settleDisputeClaim_threat h
  | applyDisputeSlash withTokenAccounts => exact applyDisputeSlash_threat h hinv hload

end Threats

/-- How the threats to one agent and its counter change together in a step. -/
inductive ThreatStep (w w' : World) (k : Pubkey) : Prop
  | kept (threats : threatsTo w' k = threatsTo w k)
      (counter : counterOf AgentRegistration.disputesAsDefendant w' k =
        counterOf AgentRegistration.disputesAsDefendant w k)
  | raised {key : Pubkey} (new : w.disputes.lookup key = none)
      (threats : threatsTo w' k = insert key (threatsTo w k))
      (counter : counterOf AgentRegistration.disputesAsDefendant w' k =
        counterOf AgentRegistration.disputesAsDefendant w k + 1)
  | ended {key : Pubkey} (threat : key ∈ threatsTo w k)
      (threats : threatsTo w' k = (threatsTo w k).erase key)
      (counter : counterOf AgentRegistration.disputesAsDefendant w' k + 1 =
        counterOf AgentRegistration.disputesAsDefendant w k)

/-- Every step changes threats and counter together. -/
theorem Step.threats {w w' : World} {i : Instruction} {ts : List Transfer}
    (h : Step w (i, ts) w') (hdisputes : ∀ key d, w.disputes.lookup key = some d → DisputeInv w d)
    (hcounted : ThreatsCounted w) (k : Pubkey) : ThreatStep w w' k := by
  have hset_of {w' : World} (hd : w'.disputes = w.disputes) : threatsTo w' k = threatsTo w k := by
    rw [threatsTo, disputesWith, hd]
    rfl
  cases h.agents with
  | same plain agents disputes unpaid => exact .kept (hset_of disputes) (counterOf_congr agents)
  | donated credits disputes => exact .kept (hset_of disputes) (counterOf_donated credits)
  | wrote writes paid ran =>
    refine .kept ?_ (counterOf_written writes (fun _ hf => hf.asDefendant)
      (fun _ _ hs => hs.asDefendant) fun _ _ hr => hr.sameDefendant)
    obtain ⟨_, _, -, rfl⟩ := writes
    exact hset_of rfl
  | worked found agents disputes lamports stake authority votes asDefendant unpaid =>
    exact .kept (hset_of disputes) (counterOf_insert_same agents found asDefendant)
  | freed agents disputes unpaid =>
    exact .kept (hset_of disputes) (counterOf_freed agents fun _ => rfl)
  | @opened taskKey signer filing _ opens =>
    obtain ⟨acc, _, _, d, hnew, -, hagent, -, -, -, hopened, -, -, -, hcounts, hw'⟩ := opens
    have hcounter : counterOf AgentRegistration.disputesAsDefendant w' k =
        counterOf AgentRegistration.disputesAsDefendant w k +
          if k = d.defendant then 1 else 0 := by
      refine counterOf_opened (by rw [hw']) hcounts (fun agent agent' ha ha' => ?_) fun hnone => ?_
      · exact (hcounts.same k agent agent' ha ha').2.2.2.2.2
      · refine if_neg ?_
        rintro rfl
        have haccused := hcounts.accused
        rw [hnone] at haccused
        cases haccused
    by_cases hk : k = d.defendant
    · have hp : Dispute.accuses k d := ⟨hk.symm, .inl hopened.status⟩
      rw [if_pos hk] at hcounter
      refine .raised hnew ?_ hcounter
      rw [threatsTo, disputesWith, hw']
      exact Ledger.support_insert hp
    · have hp : ¬Dispute.accuses k d := fun hp => hk hp.1.symm
      rw [if_neg hk] at hcounter
      refine .kept ?_ hcounter
      rw [threatsTo, disputesWith, hw']
      exact Ledger.support_insert_fresh_of_not hnew hp
  | @ruled key disputeKey k' op acc agent d d' c _ loaded found filed about ran agents disputes =>
    have hfiling := (DisputeOp.run_frames ran).2
    have hload : w.tasks.lookup d.task = some (w.workContext key acc k' agent).accounts := by
      rw [about]
      exact loaded
    rcases DisputeOp.threat ran (hdisputes _ _ filed) hload with ⟨hsame, hcounter⟩ |
      ⟨hold, hnew, hdefendant, hcounter⟩
    · refine .kept ?_ (counterOf_insert_same agents found hcounter)
      rw [threatsTo, disputesWith, disputes]
      refine Ledger.support_insert_same filed ?_
      rw [Dispute.accuses, Dispute.accuses, hfiling.defendant, hsame]
    · have hdefendant : k' = d.defendant := hdefendant
      have hnot : ¬Dispute.accuses k d' := fun hp => hnew hp.2
      by_cases hk : k = k'
      · have hmem : disputeKey ∈ threatsTo w k :=
          (Ledger.mem_support_of_lookup filed).mpr ⟨hdefendant.symm.trans hk.symm, hold⟩
        have hpos : 0 < (threatsTo w k).card := Finset.card_pos.mpr ⟨_, hmem⟩
        refine .ended hmem ?_ ?_
        · rw [threatsTo, disputesWith, disputes]
          exact Ledger.support_insert_of_not hnot
        · have hcount := hcounted k
          rw [hk, counterOf_of_lookup found] at hcount
          rw [hk] at hpos ⊢
          rw [counterOf_insert agents, if_pos rfl, counterOf_of_lookup found, hcounter]
          change agent.data.disputesAsDefendant - 1 + 1 = agent.data.disputesAsDefendant
          omega
      · refine .kept ?_ (by rw [counterOf_insert agents, if_neg hk])
        rw [threatsTo, disputesWith, disputes]
        refine Ledger.support_insert_same filed ⟨fun hp => absurd hp hnot, fun hp => ?_⟩
        exact absurd (hp.1.symm.trans hdefendant.symm) hk
  | @finalized disputeKey agentKey _ _ ran =>
    obtain ⟨d, agent, _, _, hd, hagent, -, -, -, -, -, -, -, hw'⟩ := applyInitiatorSlash_spec ran
    obtain ⟨agent', hagents, hsame⟩ : ∃ agent', w'.agents = w.agents.insert agentKey agent' ∧
        agent'.data.disputesAsDefendant = agent.data.disputesAsDefendant := by
      refine ⟨_, by rw [hw'], ?_⟩
      rfl
    refine .kept ?_ (counterOf_insert_same hagents hagent hsame)
    rw [threatsTo, disputesWith, hw']
    exact Ledger.support_insert_same hd Iff.rfl
  | repaired ran =>
    obtain ⟨_, agent, -, hagent, -, -, -, -, rfl⟩ := repairDisputeInitiatorCounter_spec ran
    exact .kept (hset_of rfl) (counterOf_insert_same rfl hagent rfl)

theorem ThreatStep.counted {w w' : World} {k : Pubkey} (h : ThreatStep w w' k)
    (hcounted : counterOf AgentRegistration.disputesAsDefendant w k = (threatsTo w k).card) :
    counterOf AgentRegistration.disputesAsDefendant w' k = (threatsTo w' k).card := by
  cases h with
  | kept threats counter => rw [threats, counter, hcounted]
  | @raised key new threats counter =>
    have hnot : key ∉ threatsTo w k := Ledger.notMem_support_of_lookup new
    rw [threats, counter, hcounted, Finset.card_insert_of_notMem hnot]
  | ended threat threats counter =>
    have hcard := Finset.card_erase_add_one threat
    rw [threats]
    omega

/-- The defendant counter counts in every reachable world. -/
theorem defendant_counter {w : World} (h : Reachable w) : ThreatsCounted w := by
  refine h.induct (I := ThreatsCounted) ?_ ?_
  · intro w hgenesis k
    have hagent : w.agents.lookup k = none := by
      rw [hgenesis.agents]
      rfl
    rw [counterOf_of_none hagent, threatsTo, disputesWith, hgenesis.disputes,
      Ledger.support_empty, Finset.card_empty]
  · rintro w ⟨i, ts⟩ w' hr hs ih k
    exact (hs.threats (dispute_inv hr) ih k).counted (ih k)

/-- A stored dispute that does not threaten an agent never will. -/
theorem threat_gone {w w' : World} {log : List LogEntry} (hw : Reachable w)
    (h : Run Step w log w') {key k : Pubkey} (hstored : (w.disputes.lookup key).isSome = true)
    (hgone : key ∉ threatsTo w k) : key ∉ threatsTo w' k := by
  have hkeeps := h.invariant (I := fun w => Reachable w ∧
    (w.disputes.lookup key).isSome = true ∧ key ∉ threatsTo w k) ?_ ⟨hw, hstored, hgone⟩
  · exact hkeeps.2.2
  · rintro w ⟨i, ts⟩ w' hs ⟨hr, hstored, hgone⟩
    refine ⟨hr.step hs, ?_, ?_⟩
    · cases hs.dispute key with
      | apart same other => rwa [same]
      | opened new stored => simp [stored]
      | ruled filed stored => simp [stored]
      | finalized filed stored => simp [stored]
    · cases hs.threats (dispute_inv hr) (defendant_counter hr) k with
      | kept threats counter => rwa [threats]
      | @raised key' new threats counter =>
        have hne : key ≠ key' := by
          rintro rfl
          rw [new] at hstored
          cases hstored
        rw [threats, Finset.mem_insert, not_or]
        exact ⟨hne, hgone⟩
      | ended threat threats counter =>
        rw [threats]
        exact fun hmem => hgone (Finset.mem_of_mem_erase hmem)

/-- A slash is applied only while it is counted as a threat. -/
theorem Step.slash_threat {w w' : World} {ts : List Transfer} {key disputeKey k : Pubkey}
    {withTokenAccounts : Bool} (hw : Reachable w)
    (h : Step w (.dispute key disputeKey k (.applyDisputeSlash withTokenAccounts), ts) w') :
    disputeKey ∈ threatsTo w k := by
  cases h.agents with
  | same plain => cases plain
  | @ruled _ _ _ _ acc agent d d' c _ loaded found filed about ran agents disputes tasks =>
    have hload : w.tasks.lookup d.task = some (w.workContext key acc k agent).accounts := by
      rw [about]
      exact loaded
    have hthreat := slash_threatens ran (dispute_inv hw _ _ filed) hload
    obtain ⟨_, _, _, _, _, _, _, _, _, _, _, _, -, hdefendant, -⟩ := applyDisputeSlash_spec ran
    exact (Ledger.mem_support_of_lookup filed).mpr ⟨hdefendant.symm, .inr hthreat⟩

/-- The defendant's counter is exact. It is the number of disputes against the agent that are
open, or lost with the slash outstanding; a dispute that stops being one lowers it by exactly
one, without underflow; and once it is zero, no dispute the agent has then can ever slash it. -/
theorem defendant_counter_exact :
    (∀ w, Reachable w → ∀ k agent, w.agents.lookup k = some agent →
      agent.data.disputesAsDefendant = (threatsTo w k).card) ∧
    (∀ w i ts w', Reachable w → Step w (i, ts) w' → ∀ k, ThreatStep w w' k) ∧
    (∀ w key disputeKey k withTokenAccounts ts w', Reachable w →
      Step w (.dispute key disputeKey k (.applyDisputeSlash withTokenAccounts), ts) w' →
      1 ≤ counterOf AgentRegistration.disputesAsDefendant w k) ∧
    (∀ w log w', Reachable w → Run Step w log w' → ∀ k agent,
      w.agents.lookup k = some agent → agent.data.disputesAsDefendant = 0 →
      ∀ disputeKey, (w.disputes.lookup disputeKey).isSome = true →
        ∀ key withTokenAccounts ts w₂, ¬Step w'
          (.dispute key disputeKey k (.applyDisputeSlash withTokenAccounts), ts) w₂) := by
  refine ⟨fun w hw k agent hagent => ?_, fun w i ts w' hw hs k => ?_,
    fun w key disputeKey k withTokenAccounts ts w' hw hs => ?_,
    fun w log w' hw hrun k agent hagent hzero disputeKey hstored key withTokenAccounts ts w₂
      hs => ?_⟩
  · rw [← defendant_counter hw k, counterOf_of_lookup hagent]
  · exact hs.threats (dispute_inv hw) (defendant_counter hw) k
  · rw [defendant_counter hw k]
    exact Finset.card_pos.mpr ⟨_, hs.slash_threat hw⟩
  · have hcount := defendant_counter hw k
    rw [counterOf_of_lookup hagent, hzero] at hcount
    have hgone : disputeKey ∉ threatsTo w k := by
      rw [Finset.card_eq_zero.mp hcount.symm]
      exact Finset.notMem_empty _
    exact threat_gone hw hrun hstored hgone (hs.slash_threat (hw.run hrun))

/-- With the dispute of `disputeScript` open, one dispute threatens its worker. -/
theorem defendant_counter_disputed : (threatsTo disputedWorld 11).card = 1 := by
  obtain ⟨agent, hagent⟩ : ∃ agent, disputedWorld.agents.lookup 11 = some agent :=
    Option.isSome_iff_exists.mp (by decide +kernel)
  have hone : (disputedWorld.agents.lookup 11).map (fun a => a.data.disputesAsDefendant) =
      some 1 := by decide +kernel
  rw [hagent] at hone
  rw [← defendant_counter_exact.1 disputedWorld disputedWorld_reachable 11 agent hagent]
  exact Option.some.inj hone

end AgencCoordination
