import AgencCoordination.Invariants.Disputes

/-!
# Agent accounts and their stake

An agent's stake is a field of its registration, and the lamports behind it sit on the account
of that registration.

* **`Step.stake`** — a step leaves an agent's stake alone, slashes it by exactly what leaves the
  account, or retires the agent.
* **`agent_solvent`** — every account holds its rent and the stake it records.
* **`slashed_once`** — for one dispute, an agent is slashed at most once, be it as its worker or
  as its initiator.
-/

namespace AgencCoordination

open Foundations

/-! ## What a step does to one account -/

/-- What a list of payments slashes from the agent `k`. -/
def slashedFrom (k : Pubkey) (ts : List Transfer) : ℕ :=
  spentOn (fun purpose => decide (purpose = .stakeSlash)) (.agent k) ts

theorem slashedFrom_of_unpaid {k : Pubkey} {ts : List Transfer}
    (h : ∀ t ∈ ts, t.source ≠ .agent k ∨ t.purpose ≠ .stakeSlash) : slashedFrom k ts = 0 := by
  rw [slashedFrom, spentOn]
  refine List.sum_eq_zero fun amount hamount => ?_
  obtain ⟨t, ht, rfl⟩ := List.mem_map.mp hamount
  refine if_neg ?_
  rintro ⟨hsource, hpurpose⟩
  rcases h t ht with h | h
  · exact h hsource
  · exact h (of_decide_eq_true hpurpose)

/-- Payments out of accounts of tasks slash nobody. -/
theorem slashedFrom_of_tasks {k : Pubkey} {ts : List Transfer}
    (h : ∀ t ∈ ts, t.source.task ≠ none) : slashedFrom k ts = 0 := by
  refine slashedFrom_of_unpaid fun t ht => .inl fun hsource => h t ht ?_
  rw [hsource]
  rfl

/-- The account of one agent before and after a step that pays `ts`. -/
inductive StakeMove (rent : Rent) (k : Pubkey) (i : Instruction) (ts : List Transfer)
    (agent agent' : Account AgentRegistration) : Prop
  | kept (stake : agent'.data.stake = agent.data.stake)
      (lamports : agent.lamports ≤ agent'.lamports) (unslashed : slashedFrom k ts = 0)
  | slashed (about : ∃ key disputeKey, (∃ withTokenAccounts,
        i = .dispute key disputeKey k (.applyDisputeSlash withTokenAccounts)) ∨
          i = .applyInitiatorSlash disputeKey k)
      (stake : agent'.data.stake + slashedFrom k ts = agent.data.stake)
      (lamports : agent'.lamports + slashedFrom k ts = agent.lamports)
  | retired (leaves : ∃ signer reputationStake,
        i = .agent k (.deregisterAgent signer reputationStake))
      (retires : Retires rent agent agent') (unslashed : slashedFrom k ts = 0)

/-- The settlement of a dispute changes no stake, and leaves at least the balance; only the slash
takes from both, and as much from one as from the other. -/
theorem DisputeOp.stake {w : World} {key disputeKey k : Pubkey} {op : DisputeOp}
    {acc : TaskAccounts} {agent : Account AgentRegistration} {d d' : Dispute} {c : TaskContext}
    (h : op.run w (w.workContext key acc k agent) d = .ok (c, d')) :
    StakeMove w.sys.rent k (.dispute key disputeKey k op) c.paid agent c.worker := by
  by_cases hop : ∃ withTokenAccounts, op = .applyDisputeSlash withTokenAccounts
  · obtain ⟨withTokenAccounts, rfl⟩ := hop
    have hrun : AgencCoordination.applyDisputeSlash (w.workContext key acc k agent) d
      withTokenAccounts = .ok (c, d') := h
    obtain ⟨claim, _, slash, _, _, paidReserve, _, _, _, _, _, _, h⟩ := applyDisputeSlash_spec hrun
    obtain ⟨-, -, -, -, hstake, hlamports, -, -, hreserve, -, -, rfl, -⟩ := h
    have hslashed : slashedFrom k ([⟨.agent k, w.config.treasury, .stakeSlash, slash⟩] ++
        paidReserve ++ claimClosings (w.workContext key acc k agent) agent.data.authority claim 0)
        = slash := by
      have hrest : slashedFrom k paidReserve = 0 := slashedFrom_of_unpaid fun t ht => .inl (by
        rcases (hreserve t ht).1 with hsource | hsource <;> rw [hsource] <;> nofun)
      have hclosing : slashedFrom k
          (claimClosings (w.workContext key acc k agent) agent.data.authority claim 0) = 0 :=
        slashedFrom_of_unpaid fun t ht => .inl (by rw [claimClosings_source t ht]; nofun)
      rw [slashedFrom] at *
      rw [spentOn_append, spentOn_append, hrest, hclosing]
      simp
    refine .slashed ⟨key, disputeKey, .inl ⟨_, rfl⟩⟩ ?_ ?_
    · exact (congrArg (agent.data.stake - slash + ·) hslashed).trans (Nat.sub_add_cancel hstake)
    · exact (congrArg (agent.lamports - slash + ·) hslashed).trans (Nat.sub_add_cancel hlamports)
  · have hunslashed : slashedFrom k c.paid = 0 :=
      slashedFrom_of_tasks (DisputeOp.run_paid h fun b hb => hop ⟨b, hb⟩).unpaid
    cases op with
    | cancelDispute signer =>
      obtain ⟨_, _, -, -, -, -, -, rfl, rfl⟩ := cancelDispute_spec h
      exact .kept rfl le_rfl hunslashed
    | resolveDispute signer signers withAssignment approved payees =>
      obtain ⟨_, _, _, _, _, _, _, _, _, _, _, _, _, _, _, -, -, h⟩ := resolveDispute_spec h
      obtain ⟨-, -, -, -, -, -, -, -, -, _, _, _, _, _, h⟩ := h
      obtain ⟨_, _, -, -, rfl, rfl⟩ := h
      exact .kept rfl le_rfl hunslashed
    | expireDispute =>
      obtain ⟨_, _, _, _, _, _, _, _, _, _, _, _, _, _, _, -, -, h⟩ := expireDispute_spec h
      obtain ⟨-, -, -, -, -, -, -, -, -, -, rfl, rfl⟩ := h
      exact .kept rfl le_rfl hunslashed
    | settleDisputeClaim =>
      obtain ⟨_, _, _, _, _, _, _, -, -, -, hlamports, h⟩ := settleDisputeClaim_spec h
      obtain ⟨-, -, -, -, -, -, -, rfl, rfl⟩ := h
      exact .kept rfl hlamports hunslashed
    | applyDisputeSlash withTokenAccounts => exact absurd ⟨withTokenAccounts, rfl⟩ hop

/-- Writing one agent, seen from another. -/
theorem StakeMove.refl {rent : Rent} {k : Pubkey} {i : Instruction} {ts : List Transfer}
    {agent : Account AgentRegistration} (h : slashedFrom k ts = 0) :
    StakeMove rent k i ts agent agent := .kept rfl le_rfl h

/-- Every step, seen from the account of one agent. -/
theorem Step.stake {w w' : World} {i : Instruction} {ts : List Transfer}
    (h : Step w (i, ts) w') {k : Pubkey} {agent : Account AgentRegistration}
    (hk : w.agents.lookup k = some agent) :
    ∃ agent', w'.agents.lookup k = some agent' ∧ StakeMove w.sys.rent k i ts agent agent' := by
  -- An insertion at `k'` is either the move of `k` itself, or leaves it alone.
  have hwrite {k' : Pubkey} {stored : Account AgentRegistration}
      (hw' : w'.agents = w.agents.insert k' stored)
      (hmove : k = k' → StakeMove w.sys.rent k i ts agent stored)
      (hother : k ≠ k' → slashedFrom k ts = 0) :
      ∃ agent', w'.agents.lookup k = some agent' ∧
        StakeMove w.sys.rent k i ts agent agent' := by
    by_cases hkk : k = k'
    · exact ⟨stored, by rw [hw', hkk, AList.lookup_insert], hmove hkk⟩
    · exact ⟨agent, by rw [hw', AList.lookup_insert_ne hkk, hk], .refl (hother hkk)⟩
  cases h.agents with
  | same plain agents disputes unpaid =>
    exact ⟨agent, by rw [agents, hk], .refl (slashedFrom_of_tasks unpaid)⟩
  | donated credits disputes =>
    obtain ⟨k', agent₀, amount, hagent₀, hagents⟩ := credits
    refine hwrite hagents (fun hkk => ?_) fun _ => rfl
    rw [← hkk, hk] at hagent₀
    obtain rfl := Option.some.inj hagent₀
    exact .kept rfl (Nat.le_add_right _ _) rfl
  | @wrote key op _ _ writes paid ran =>
    have hunslashed : slashedFrom k ts = 0 := slashedFrom_of_unpaid fun t ht => .inr (by
      rw [(paid t ht).2]
      nofun)
    obtain ⟨agent', _, hcases, hw'⟩ := writes
    refine hwrite (by rw [hw']) (fun hkk => ?_) fun _ => hunslashed
    subst hkk
    rcases hcases with ⟨hnew, -⟩ | ⟨agent₀, hagent₀, hsame | ⟨⟨signer, rs, rfl⟩, hretires⟩⟩
    · rw [hk] at hnew
      cases hnew
    · obtain rfl := Option.some.inj (hk.symm.trans hagent₀)
      exact .kept hsame.stake hsame.lamports.ge hunslashed
    · obtain rfl := Option.some.inj (hk.symm.trans hagent₀)
      exact .retired ⟨signer, rs, rfl⟩ hretires hunslashed
  | worked found agents disputes lamports stake authority votes asDefendant unpaid =>
    refine hwrite agents (fun hkk => ?_) fun _ => slashedFrom_of_tasks unpaid
    subst hkk
    obtain rfl := Option.some.inj (hk.symm.trans found)
    exact .kept stake lamports.ge (slashedFrom_of_tasks unpaid)
  | freed agents disputes unpaid =>
    have hunslashed : slashedFrom k ts = 0 := slashedFrom_of_tasks unpaid
    have hafter := agents k
    rw [hk] at hafter
    split_ifs at hafter
    · exact ⟨_, hafter, .kept rfl le_rfl hunslashed⟩
    · exact ⟨_, hafter, .refl hunslashed⟩
  | opened opens =>
    obtain ⟨_, _, _, d, -, -, -, -, -, -, -, -, -, -, hcounts, rfl⟩ := opens
    have hpresent := hcounts.present k
    rw [hk] at hpresent
    obtain ⟨agent', hagent'⟩ := Option.isSome_iff_exists.mp hpresent
    obtain ⟨hlamports, hstake, -⟩ := hcounts.same k agent agent' hk hagent'
    exact ⟨agent', hagent', .kept hstake hlamports.ge rfl⟩
  | @ruled key disputeKey k' op acc agent₀ d d' c _ loaded found filed about ran agents disputes
      tasks =>
    refine hwrite agents (fun hkk => ?_) fun hkk => ?_
    · subst hkk
      obtain rfl := Option.some.inj (hk.symm.trans found)
      exact DisputeOp.stake ran
    · by_cases hop : ∃ withTokenAccounts, op = .applyDisputeSlash withTokenAccounts
      · obtain ⟨withTokenAccounts, rfl⟩ := hop
        obtain ⟨slash, us, hpaid, hus⟩ := applyDisputeSlash_paid ran
        rw [hpaid]
        refine slashedFrom_of_unpaid fun t ht => .inl fun hsource => ?_
        rcases List.mem_append.mp ht with ht | ht
        · have htransfer : t = ⟨.agent k', w.config.treasury, .stakeSlash, slash⟩ := by
            simpa [World.workContext, World.taskContext] using ht
          rw [htransfer] at hsource
          exact hkk (Custody.agent.inj hsource).symm
        · have hof := hus t ht
          rw [hsource] at hof
          cases hof
      · exact slashedFrom_of_tasks (DisputeOp.run_paid ran fun b hb => hop ⟨b, hb⟩).unpaid
  | @finalized disputeKey agentKey _ _ ran =>
    obtain ⟨d, agent₀, slash, _, -, hagent₀, -, -, -, hstake, hlamports, -, rfl, rfl⟩ :=
      applyInitiatorSlash_spec ran
    refine hwrite rfl (fun hkk => ?_) fun hkk => ?_
    · subst hkk
      obtain rfl := Option.some.inj (hk.symm.trans hagent₀)
      have hslashed : slashedFrom k [⟨.agent k, w.config.treasury, .stakeSlash, slash⟩] = slash := by
        simp [slashedFrom]
      refine .slashed ⟨0, disputeKey, .inr rfl⟩ ?_ ?_
      · rw [hslashed]
        exact Nat.sub_add_cancel hstake
      · rw [hslashed]
        exact Nat.sub_add_cancel hlamports
    · refine slashedFrom_of_unpaid fun t ht => .inl fun hsource => hkk ?_
      rw [List.mem_singleton.mp ht] at hsource
      exact (Custody.agent.inj hsource).symm
  | repaired ran =>
    obtain ⟨_, agent₀, -, hagent₀, -, -, -, -, rfl⟩ := repairDisputeInitiatorCounter_spec ran
    refine hwrite rfl (fun hkk => ?_) fun _ => rfl
    subst hkk
    obtain rfl := Option.some.inj (hk.symm.trans hagent₀)
    exact .kept rfl le_rfl rfl

/-- An agent that was not there before a step was registered by it. -/
theorem Step.registered {w w' : World} {i : Instruction} {ts : List Transfer}
    (h : Step w (i, ts) w') {k : Pubkey} {agent : Account AgentRegistration}
    (hnew : w.agents.lookup k = none) (hk : w'.agents.lookup k = some agent) :
    FreshAgent w.sys.rent agent := by
  -- An insertion at another key does not register `k`.
  have hother {k' : Pubkey} {stored old : Account AgentRegistration}
      (hw' : w'.agents = w.agents.insert k' stored) (hold : w.agents.lookup k' = some old) :
      False := by
    have hne : k ≠ k' := by
      rintro rfl
      rw [hnew] at hold
      cases hold
    rw [hw', AList.lookup_insert_ne hne, hnew] at hk
    cases hk
  cases h.agents with
  | same plain agents disputes unpaid =>
    rw [agents, hnew] at hk
    cases hk
  | donated credits disputes =>
    obtain ⟨_, _, _, hold, hagents⟩ := credits
    exact (hother hagents hold).elim
  | @wrote key op _ _ writes paid ran =>
    obtain ⟨agent', _, hcases, hw'⟩ := writes
    have hagents : w'.agents = w.agents.insert key agent' := by rw [hw']
    rcases hcases with ⟨-, hfresh⟩ | ⟨old, hold, -⟩
    · by_cases hkk : k = key
      · rw [hagents, hkk, AList.lookup_insert] at hk
        obtain rfl := Option.some.inj hk
        exact hfresh
      · rw [hagents, AList.lookup_insert_ne hkk, hnew] at hk
        cases hk
    · exact (hother hagents hold).elim
  | worked found agents => exact (hother agents found).elim
  | freed agents disputes unpaid =>
    rw [agents, hnew] at hk
    split_ifs at hk
    cases hk
  | opened opens =>
    obtain ⟨_, _, _, d, -, -, -, -, -, -, -, -, -, -, hcounts, hw'⟩ := opens
    have hpresent := hcounts.present k
    have hsome : (w'.agents.lookup k).isSome = true := by
      rw [hk]
      rfl
    rw [hw'] at hsome
    rw [hnew] at hpresent
    exact absurd (hsome.symm.trans hpresent) (by decide)
  | ruled loaded found filed about ran agents disputes tasks => exact (hother agents found).elim
  | finalized ran =>
    obtain ⟨_, _, _, _, -, hold, -, -, -, -, -, -, -, rfl⟩ := applyInitiatorSlash_spec ran
    exact (hother rfl hold).elim
  | repaired ran =>
    obtain ⟨_, _, -, hold, -, -, -, -, rfl⟩ := repairDisputeInitiatorCounter_spec ran
    exact (hother rfl hold).elim

/-! ## Solvency -/

/-- The account of an agent holds its rent and its stake. -/
def AgentSolvent (rent : Rent) (agent : Account AgentRegistration) : Prop :=
  rent.minimumBalance agentRegistrationSize + agent.data.stake ≤ agent.lamports

theorem StakeMove.solvent {rent : Rent} {k : Pubkey} {i : Instruction} {ts : List Transfer}
    {agent agent' : Account AgentRegistration} (h : StakeMove rent k i ts agent agent')
    (hsolvent : AgentSolvent rent agent) : AgentSolvent rent agent' := by
  unfold AgentSolvent at *
  cases h with
  | kept stake lamports unslashed => omega
  | slashed about stake lamports => omega
  | retired leaves retires unslashed =>
    have hlamports := retires.lamports
    have hstake := retires.stake
    omega

/-- Every agent of a reachable world is solvent. -/
theorem agent_solvent {w : World} (h : Reachable w) :
    ∀ k agent, w.agents.lookup k = some agent → AgentSolvent w.sys.rent agent := by
  refine h.induct
    (I := fun w => ∀ k agent, w.agents.lookup k = some agent → AgentSolvent w.sys.rent agent) ?_ ?_
  · intro w hgenesis k agent hk
    rw [hgenesis.agents] at hk
    cases hk
  · rintro w ⟨i, ts⟩ w' - hs ih k agent' hk'
    rw [hs.environment.2.1]
    cases hk : w.agents.lookup k with
    | none => exact (hs.registered hk hk').funded
    | some agent =>
      obtain ⟨agent₂, hagent₂, hmove⟩ := hs.stake hk
      obtain rfl := Option.some.inj (hk'.symm.trans hagent₂)
      exact hmove.solvent (ih k agent hk)

/-! ## One slash for one dispute -/

/-- The initiator lost the dispute: it was withdrawn, or ruled against it. -/
def Dispute.initiatorLost (d : Dispute) : Prop :=
  d.status = .Cancelled ∨ d.status = .Resolved ∧ d.votesFor = 0

instance (d : Dispute) : Decidable d.initiatorLost := inferInstanceAs (Decidable (_ ∨ _))

/-- The dispute has cost `k` its slash: as the worker who lost it, or as the initiator who did. -/
def Dispute.charged (k : Pubkey) (d : Dispute) : Prop :=
  d.defendant = k ∧ d.slashApplied = true ∨
    d.initiator = k ∧ d.initiatorSlashApplied = true ∧ d.initiatorLost

instance (k : Pubkey) (d : Dispute) : Decidable (d.charged k) :=
  inferInstanceAs (Decidable (_ ∨ _))

/-- The stored dispute `key` has cost `k` its slash. -/
def World.hasCharged (w : World) (key k : Pubkey) : Prop :=
  ∃ d ∈ w.disputes.lookup key, d.charged k

instance (w : World) (key k : Pubkey) : Decidable (w.hasCharged key k) :=
  inferInstanceAs (Decidable (∃ d ∈ w.disputes.lookup key, d.charged k))

/-- The event slashes `k` for the dispute `key`. -/
def slashesFor (key k : Pubkey) (e : LogEntry) : Bool :=
  match e.label.1 with
  | .dispute _ disputeKey worker (.applyDisputeSlash _) =>
      decide (disputeKey = key ∧ worker = k ∧ 0 < slashedFrom k e.label.2)
  | .applyInitiatorSlash disputeKey agentKey =>
      decide (disputeKey = key ∧ agentKey = k ∧ 0 < slashedFrom k e.label.2)
  | _ => false

theorem terminalInitiatorLost_spec {d : Dispute} (h : terminalInitiatorLost d = .ok true) :
    d.initiatorLost := by
  cases hstatus : d.status with
  | Active => simp [terminalInitiatorLost, hstatus] at h
  | SettlementPending => simp [terminalInitiatorLost, hstatus] at h
  | Expired => simp [terminalInitiatorLost, hstatus, initiatorLostDispute] at h
  | Cancelled => exact .inl hstatus
  | Resolved =>
    refine .inr ⟨hstatus, ?_⟩
    by_contra hfor
    by_cases hwon : d.votesFor = 1 ∧ d.votesAgainst = 0
    · simp [terminalInitiatorLost, hstatus, hwon, initiatorLostDispute] at h
    · simp [terminalInitiatorLost, hstatus, hwon, hfor] at h

/-- An initiator who pays for a tracked dispute lost it. -/
theorem applyInitiatorSlash_lost {w w' : World} {key agentKey : Pubkey} {ts : List Transfer}
    {d : Dispute} (h : applyInitiatorSlash w key agentKey = .ok (w', ts))
    (hd : w.disputes.lookup key = some d) (htracked : d.initiatorTracked = true)
    (hpaid : 0 < slashedFrom agentKey ts) : d.initiatorLost := by
  simp only [applyInitiatorSlash, bind_eq_ok, demand_eq_ok, require_eq_ok] at h
  obtain ⟨d₂, hd₂, agent, hagent, _, -, _, -, _, -, _, -, lost, hlost, r, hslash, h⟩ := h
  obtain rfl := Option.some.inj (hd.symm.trans hd₂)
  obtain ⟨data, -, h⟩ := h
  obtain ⟨-, rfl⟩ := Prod.mk.inj (Except.ok.inj h)
  cases lost with
  | false =>
    obtain rfl := Except.ok.inj hslash
    simp [slashedFrom] at hpaid
  | true =>
    simp only [initiatorLostUnderProvenancePolicy, htracked, if_true, bind_eq_ok,
      require_eq_ok] at hlost
    obtain ⟨_, -, _, -, hlost⟩ := hlost
    exact terminalInitiatorLost_spec hlost

/-- What a dispute has cost an agent stays on record. -/
theorem Step.keeps_charge {w w' : World} {i : Instruction} {ts : List Transfer}
    (h : Step w (i, ts) w') (hw : Reachable w) {key k : Pubkey} (hcharged : w.hasCharged key k) :
    w'.hasCharged key k := by
  obtain ⟨d, hd, hcharged⟩ := hcharged
  cases h.dispute key with
  | apart same other => exact ⟨d, same.trans hd, hcharged⟩
  | opened new stored =>
    rw [new] at hd
    cases hd
  | finalized filed stored =>
    obtain rfl := Option.some.inj (filed.symm.trans hd)
    refine ⟨_, stored, hcharged.imp_right fun hinitiator => ?_⟩
    exact ⟨hinitiator.1, rfl, hinitiator.2.2⟩
  | @ruled taskKey k' op acc agent d₀ d' c _ filed stored about loaded left found ran =>
    obtain rfl := Option.some.inj (filed.symm.trans hd)
    have hinv := dispute_inv hw key _ filed
    have hload : w.tasks.lookup d₀.task = some (w.workContext taskKey acc k' agent).accounts := by
      rw [about]
      exact loaded
    -- Whoever was charged, the dispute is over: only the worker's slash could still run.
    have hover : d₀.status = .Resolved ∨ d₀.status = .Cancelled := by
      rcases hcharged with ⟨-, hslashed⟩ | ⟨-, -, hcancelled | ⟨hresolved, -⟩⟩
      · exact .inl (hinv.slashed hslashed).1
      · exact .inr hcancelled
      · exact .inl hresolved
    have hnot : d₀.status ≠ .Active ∧ d₀.status ≠ .SettlementPending := by
      rcases hover with hover | hover <;> rw [hover] <;> decide
    cases op with
    | cancelDispute signer =>
      obtain ⟨_, _, hactive, -⟩ := cancelDispute_spec ran
      exact absurd hactive hnot.1
    | resolveDispute signer signers withAssignment approved payees =>
      obtain ⟨_, _, _, _, _, _, _, _, _, _, _, _, _, _, _, hactive, -⟩ := resolveDispute_spec ran
      exact absurd hactive hnot.1
    | expireDispute =>
      obtain ⟨_, _, _, _, _, _, _, _, _, _, _, _, _, _, _, hactive, -⟩ := expireDispute_spec ran
      exact absurd hactive hnot.1
    | settleDisputeClaim =>
      obtain ⟨_, _, _, _, _, _, _, hpending, -⟩ := settleDisputeClaim_spec ran
      exact absurd hpending hnot.2
    | applyDisputeSlash withTokenAccounts =>
      obtain ⟨claim, _, _, _, _, _, _, _, _, _, _, _, -, -, -, -, -, -, -, -, -, -, -, -, rfl⟩ :=
        applyDisputeSlash_spec ran
      exact ⟨_, stored, hcharged.imp_left fun hdefendant => ⟨hdefendant.1, rfl⟩⟩

/-- A slash for a dispute finds it uncharged, and charges it. -/
theorem Step.charges {w w' : World} {i : Instruction} {ts : List Transfer}
    (h : Step w (i, ts) w') (hw : Reachable w) {key k : Pubkey}
    (hslash : slashesFor key k ⟨w, (i, ts), w'⟩ = true) :
    ¬w.hasCharged key k ∧ w'.hasCharged key k := by
  cases h.agents with
  | same plain => cases i <;> first | cases hslash | cases plain
  | donated => cases hslash
  | wrote => cases hslash
  | worked => cases hslash
  | freed => cases hslash
  | opened => cases hslash
  | repaired => cases hslash
  | @ruled taskKey disputeKey k' op acc agent d d' c _ loaded found filed about ran agents disputes
      tasks =>
    cases op with
    | applyDisputeSlash withTokenAccounts =>
      obtain ⟨rfl, rfl, hpaid⟩ := of_decide_eq_true hslash
      have hinv := dispute_inv hw disputeKey d filed
      have hload : w.tasks.lookup d.task =
          some (w.workContext taskKey acc k' agent).accounts := by
        rw [about]
        exact loaded
      obtain ⟨⟨hruled, hvotes, hrefund⟩, hunslashed⟩ := slash_threatens ran hinv hload
      obtain ⟨_, _, _, _, _, _, _, _, _, _, _, _, -, hdefendant, hresolved, h⟩ :=
        applyDisputeSlash_spec ran
      obtain ⟨-, -, -, -, -, -, -, -, -, rfl⟩ := h
      refine ⟨?_, { d with slashApplied := true }, ?_, .inl ⟨hdefendant.symm, rfl⟩⟩
      rotate_left
      · rw [disputes]
        exact AList.lookup_insert _
      rintro ⟨d₂, hd₂, hcharged⟩
      obtain rfl := Option.some.inj (filed.symm.trans hd₂)
      rcases hcharged with ⟨-, hslashed⟩ | ⟨-, -, hcancelled | ⟨-, hzero⟩⟩
      · rw [hunslashed] at hslashed
        cases hslashed
      · rw [hresolved] at hcancelled
        cases hcancelled
      · omega
    | _ => cases hslash
  | @finalized disputeKey agentKey _ _ ran =>
    obtain ⟨rfl, rfl, hpaid⟩ := of_decide_eq_true hslash
    obtain ⟨d, _, _, _, hd, -, hunapplied, hinitiator, -, -, -, -, -, hw'⟩ :=
      applyInitiatorSlash_spec ran
    have hinv := dispute_inv hw disputeKey d hd
    have hlost := applyInitiatorSlash_lost ran hd hinv.tracked hpaid
    refine ⟨?_, { d with initiatorSlashApplied := true }, ?_, .inr ⟨hinitiator.symm, rfl, hlost⟩⟩
    rotate_left
    · rw [hw']
      exact AList.lookup_insert _
    rintro ⟨d₂, hd₂, hcharged⟩
    obtain rfl := Option.some.inj (hd.symm.trans hd₂)
    rcases hcharged with ⟨-, hslashed⟩ | ⟨-, happlied, -⟩
    · -- A worker who was slashed lost, so the initiator won.
      obtain ⟨hresolved, -, hvotes, -⟩ := hinv.slashed hslashed
      rcases hlost with hcancelled | ⟨-, hzero⟩
      · rw [hresolved] at hcancelled
        cases hcancelled
      · omega
    · rw [hunapplied] at happlied
      cases happlied

theorem slashed_once {start w : World} {log : List LogEntry} (hstart : Genesis start)
    (h : Run Step start log w) (key k : Pubkey) : log.countP (slashesFor key k) ≤ 1 := by
  refine h.countP_le_one (I := Reachable) (Q := fun w => w.hasCharged key k)
    (fun w label w' hs hr => hr.step hs) ?_ ?_ ⟨start, [], hstart, .refl⟩
  · rintro ⟨w, ⟨i, ts⟩, w'⟩ hs hr hslash
    exact hs.charges hr hslash
  · rintro w ⟨i, ts⟩ w' hs hr hcharged
    exact hs.keeps_charge hr hcharged

/-- Agent accounts are solvent: each holds its rent and the stake it records, a stake only falls
by a slash of exactly the lamports that leave, or with the agent, and one dispute slashes an
agent at most once. -/
theorem agent_account_solvency :
    (∀ w, Reachable w → ∀ k agent, w.agents.lookup k = some agent →
      w.sys.rent.minimumBalance agentRegistrationSize + agent.data.stake ≤ agent.lamports) ∧
    (∀ w i ts w', Reachable w → Step w (i, ts) w' → ∀ k agent,
      w.agents.lookup k = some agent → ∃ agent', w'.agents.lookup k = some agent' ∧
        StakeMove w.sys.rent k i ts agent agent') ∧
    (∀ start log w, Genesis start → Run Step start log w → ∀ key k,
      log.countP (slashesFor key k) ≤ 1) := by
  refine ⟨fun w hw k agent hk => agent_solvent hw k agent hk, fun w i ts w' _ hs k agent hk => ?_,
    fun start log w hstart h key k => slashed_once hstart h key k⟩
  exact hs.stake hk

/-- After `disputeScript` the slashed worker's account still covers its rent and what is left of
its stake. -/
theorem agent_account_solvency_slashed :
    ∃ agent, (deployed.after disputeScript).agents.lookup 11 = some agent ∧
      agent.data.stake = 750000 ∧
      (deployed.after disputeScript).sys.rent.minimumBalance agentRegistrationSize + 750000 ≤
        agent.lamports := by
  obtain ⟨agent, hagent⟩ : ∃ agent, (deployed.after disputeScript).agents.lookup 11 = some agent :=
    Option.isSome_iff_exists.mp (by decide +kernel)
  have hstake : ((deployed.after disputeScript).agents.lookup 11).map (fun a => a.data.stake) =
      some 750000 := by decide +kernel
  rw [hagent] at hstake
  have hstake : agent.data.stake = 750000 := Option.some.inj hstake
  refine ⟨agent, hagent, hstake, ?_⟩
  rw [← hstake]
  exact agent_account_solvency.1 _ (deployed_genesis.reachable_after _) 11 agent hagent

end AgencCoordination
