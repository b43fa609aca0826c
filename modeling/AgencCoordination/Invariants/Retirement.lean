import AgencCoordination.Foundations.Tally
import AgencCoordination.Invariants.BidAccounts
import AgencCoordination.Invariants.Counters
import AgencCoordination.Invariants.Occupancy
import AgencCoordination.Invariants.Stake
import AgencCoordination.Invariants.WorkTerms

/-!
# Retirement

An agent that deregisters leaves its record behind as a mark: the record stays, nobody can register
under its address again, and it takes no further part. The protocol counts the agents that are left.

* **`Step.population`** — one step, seen from who is registered and in which standing.
* **`Departed.step`** — no step brings a departed agent back.
* **`retirement_final`** — leaving and staying away, for every run.
* **`agents_counted`** — `total_agents` is the number of the agents that have not left.
-/

namespace AgencCoordination

open Foundations

/-! ## Standing -/

/-- The status of an agent, whether it is retired, and the time its votes hold it to. -/
def AgentRegistration.standing (agent : AgentRegistration) : AgentStatus × Bool × ℤ :=
  (agent.status, agent.retired, agent.lastVoteTimestamp)

/-- The standing of the agent at `k`, if there is one. -/
def standingOf (agents : Ledger Pubkey (Account AgentRegistration)) (k : Pubkey) :
    Option (AgentStatus × Bool × ℤ) :=
  (agents.lookup k).map fun agent => agent.data.standing

/-- Nobody's standing changes, and nobody comes. -/
def SameStanding (agents agents' : Ledger Pubkey (Account AgentRegistration)) : Prop :=
  ∀ k, standingOf agents' k = standingOf agents k

theorem SameStanding.refl (agents : Ledger Pubkey (Account AgentRegistration)) :
    SameStanding agents agents := fun _ => rfl

theorem SameStanding.trans {a b c : Ledger Pubkey (Account AgentRegistration)}
    (h : SameStanding a b) (h' : SameStanding b c) : SameStanding a c := by
  intro k
  rw [h' k, h k]

/-- Writing an agent with the standing it had. -/
theorem SameStanding.write {agents : Ledger Pubkey (Account AgentRegistration)} {k : Pubkey}
    {agent agent' : Account AgentRegistration} (hagent : agents.lookup k = some agent)
    (hsame : agent'.data.standing = agent.data.standing) :
    SameStanding agents (agents.insert k agent') := by
  intro k'
  unfold standingOf
  rw [Ledger.lookup_insert_eq_ite]
  split_ifs with hk
  · rw [hk, hagent]
    simp [hsame]
  · rfl

/-! ## Handlers -/

section Handlers

variable {c c' : TaskContext} {d d' : Dispute}

/-- A handler leaves its worker's standing alone. -/
abbrev KeepsStanding (c c' : TaskContext) : Prop :=
  c'.worker.data.standing = c.worker.data.standing

theorem PaysAccepted.standing {config : TaskValidationConfig} {payees : PayeeAccounts}
    (h : PaysAccepted c config payees c') : KeepsStanding c c' := by
  obtain ⟨claim, stored, gross, price, escrow', vault', paidReward, book', bids', h⟩ := h
  obtain ⟨bidder', paidBid, votes', -, -, -, -, -, -, -, -, -, h⟩ := h
  obtain ⟨_, _, _, _, _, _, _, _, rfl⟩ := h
  rfl

theorem RejectsClaim.standing {config : TaskValidationConfig} (h : RejectsClaim c config c') :
    KeepsStanding c c' := by
  obtain ⟨claim, submissions', votes', book', bids', bidder', paidBid, closings, h⟩ := h
  obtain ⟨-, -, -, -, -, -, -, rfl⟩ := h
  rfl

theorem PaysFrozen.standing {payees : PayeeAccounts} {disposition : BondDisposition}
    (h : PaysFrozen c payees disposition c') : KeepsStanding c c' := by
  obtain ⟨claim, stored, gross, escrow', vault', paidReward, h⟩ := h
  obtain ⟨-, -, -, -, -, -, -, -, h⟩ := h
  obtain ⟨_, _, _, _, _, _, _, _, rfl⟩ := h
  rfl

theorem CancelsFrozen.standing (h : CancelsFrozen c c') : KeepsStanding c c' := by
  obtain ⟨claim, stored, escrow, -, -, -, -, -, -, -, rfl⟩ := h
  rfl

theorem TouchesBids.standing (h : TouchesBids c c') : KeepsStanding c c' := by
  obtain ⟨book', bids', bidder', paid', ts, -, -, -, rfl⟩ := h
  rfl

theorem Occupies.standing {expiresAt : ℤ} (h : Occupies c expiresAt c') : KeepsStanding c c' := by
  obtain ⟨workers, status, lamports, claimGeneration, reputation, lastActive, h⟩ := h
  obtain ⟨bidBook', bids', bidder', rfl, -, -⟩ := h
  rfl

theorem WorkOp.standing {w : World} {op : WorkOp} (h : op.run w c = .ok c') :
    KeepsStanding c c' := by
  cases op with
  | claimTaskWithJobSpec signer prefunded =>
    obtain ⟨_, -, -, -, -, -, hoccupies⟩ := claimTaskWithJobSpec_spec h
    exact hoccupies.standing
  | createBid signer terms prefunded => exact (createBid_spec h).touches.standing
  | updateBid signer terms => exact (updateBid_spec h).touches.standing
  | cancelBid signer => exact (cancelBid_spec h).touches.standing
  | expireBid => exact (expireBid_spec h).touches.standing
  | promoteBid => exact (promoteBid_spec h).touches.standing
  | demoteIneligibleBest => exact (demoteIneligibleBest_spec h).touches.standing
  | acceptBid signer expectedBidTermsHash prefunded =>
    obtain ⟨_, _, _, -, -, -, -, hoccupies⟩ := acceptBid_spec h
    exact hoccupies.standing
  | postWorkerBond signer prefunded =>
    have h : postCompletionBond c signer .Worker prefunded = .ok c' := h
    obtain ⟨_, -, -, -, -, -, -, -, -, rfl⟩ := postCompletionBond_spec h
    rfl
  | submitTaskResult signer proofHash resultData prefunded =>
    obtain ⟨_, _, _, -, -, -, -, -, -, -, _, _, rfl⟩ := submitTaskResult_spec h
    rfl
  | acceptTaskResult signer payees =>
    obtain ⟨_, _, -, -, -, -, hpays⟩ := acceptTaskResult_spec h
    exact hpays.standing
  | autoAcceptTaskResult payees =>
    obtain ⟨_, _, -, -, -, hpays⟩ := autoAcceptTaskResult_spec h
    exact hpays.standing
  | rejectTaskResult signer rejectionHash =>
    obtain ⟨_, _, -, -, -, -, hrejects⟩ := rejectTaskResult_spec h
    exact hrejects.standing
  | requestChanges signer changesHash =>
    obtain ⟨_, _, _, _, minimum, -, -, -, -, -, -, rfl⟩ := requestChanges_spec h
    rfl
  | validateTaskResult reviewer validator approved =>
    obtain ⟨_, _, -, -, hpays | ⟨hrejects, -⟩ | ⟨_, _, -, rfl⟩⟩ := validateTaskResult_spec h
    · exact hpays.standing
    · exact hrejects.standing
    · rfl
  | rejectAndFreeze signer rejectionHash =>
    obtain ⟨_, _, _, -, -, -, -, -, rfl⟩ := rejectAndFreeze_spec h
    rfl
  | resolveRejectFrozen signers approveCompletion payees =>
    obtain ⟨_, hpays⟩ | hcancels := resolveRejectFrozen_spec h
    · exact hpays.standing
    · exact hcancels.standing
  | expireRejectFrozen payees => exact (expireRejectFrozen_spec h).standing
  | completeTask signer proofHash resultData payees =>
    obtain ⟨claim, gross, price, escrow', vault', paidReward, book', bids', h⟩ :=
      completeTask_spec h
    obtain ⟨bidder', paidBid, -, -, -, -, -, -, -, -, -, h⟩ := h
    obtain ⟨_, _, _, _, _, _, _, _, rfl⟩ := h
    rfl
  | expireClaim caller withSubmission =>
    obtain ⟨claim, escrow, reward, forfeited, book', bids', bidder', h⟩ := expireClaim_spec h
    obtain ⟨paidBid, bonds', paidBond, -, -, -, -, -, -, -, -, h⟩ := h
    obtain ⟨-, -, -, -, -, rfl⟩ := h
    rfl
  | distributeGhostShare payees =>
    obtain ⟨config, submission, claim, escrow, escrow', paidReward, h⟩ :=
      distributeGhostShare_spec h
    obtain ⟨-, -, -, -, -, -, -, -, -, -, -, -, h⟩ := h
    obtain ⟨-, _, _, _, _, _, _, rfl⟩ := h
    rfl
  | reclaimTerminalClaim =>
    obtain ⟨_, _, _, closings, -, -, -, -, -, -, -, rfl⟩ := reclaimTerminalClaim_spec h
    rfl

theorem DisputeOp.standing {w : World} {op : DisputeOp} (h : op.run w c d = .ok (c', d')) :
    KeepsStanding c c' := by
  cases op with
  | cancelDispute signer =>
    obtain ⟨_, _, -, -, -, -, -, rfl, rfl⟩ := cancelDispute_spec h
    rfl
  | resolveDispute signer signers withAssignment approved payees =>
    obtain ⟨claim, escrow, escrow', vault', paidRuling, book', bids', h⟩ := resolveDispute_spec h
    obtain ⟨bidder', paidBid, live, validation', closings, paidClaim, creatorSide, h⟩ := h
    obtain ⟨workerSide, -, -, -, -, -, -, -, -, -, -, -, h⟩ := h
    obtain ⟨_, _, _, _, _, _, _, -, -, rfl, rfl⟩ := h
    rfl
  | expireDispute =>
    obtain ⟨claim, escrow, escrow', vault', paidRefund, live, validation', h⟩ :=
      expireDispute_spec h
    obtain ⟨closings, penalty, book', bids', bidder', paidBid, bonds', paidBond, h⟩ := h
    obtain ⟨-, -, -, -, -, -, -, -, -, -, -, -, rfl, rfl⟩ := h
    rfl
  | settleDisputeClaim =>
    obtain ⟨claim, live, validation', closings, _, _, _, h⟩ := settleDisputeClaim_spec h
    obtain ⟨-, -, -, -, -, -, -, -, -, -, -, rfl, rfl⟩ := h
    rfl
  | applyDisputeSlash withTokenAccounts =>
    obtain ⟨claim, _, slash, escrow', vault', paidReserve, _, _, h⟩ := applyDisputeSlash_spec h
    obtain ⟨_, _, _, _, -, -, -, -, -, -, -, -, -, -, -, rfl, rfl⟩ := h
    rfl

theorem raiseDisputeCounters_standing {w : World} {f : DisputeFiling} {accounts : TaskAccounts}
    {agent : Account AgentRegistration} {byCreator : Bool}
    {r : Ledger Pubkey (Account AgentRegistration) × Pubkey × ℕ}
    (h : raiseDisputeCounters w f accounts agent byCreator = .ok r)
    (hagent : w.agents.lookup f.agentKey = some agent) : SameStanding w.agents r.1 := by
  simp only [raiseDisputeCounters, AgentRegistration.noteDisputeInitiated,
    incrementDefendantCounter, bind_eq_ok, addU8_eq_ok, Except.ok.injEq] at h
  obtain ⟨_, ⟨_, ⟨-, rfl⟩, rfl⟩, h⟩ := h
  cases byCreator with
  | true =>
    simp only [if_true, bind_eq_ok, demand_eq_ok, require_eq_ok, Except.ok.injEq] at h
    obtain ⟨workerKey, -, _, -, worker, hworker, claim, -, h⟩ := h
    obtain ⟨_, ⟨_, -, rfl⟩, rfl⟩ := h
    intro k
    unfold standingOf
    simp only [Ledger.lookup_insert_eq_ite]
    split_ifs with hk hi
    · rw [hk, hworker]
      rfl
    · rw [hi, hagent]
      rfl
    · rfl
  | false =>
    simp only [Bool.false_eq_true, if_false, bind_eq_ok, Except.ok.injEq] at h
    obtain ⟨_, ⟨_, -, rfl⟩, rfl⟩ := h
    exact SameStanding.write hagent rfl

/-- Opening a dispute: nobody's standing changes, and its initiator is an active agent. -/
theorem initiateDispute_standing {w w' : World} {taskKey signer : Pubkey} {f : DisputeFiling}
    (h : initiateDispute w taskKey signer f = .ok w') : SameStanding w.agents w'.agents ∧
      ∃ agent, w.agents.lookup f.agentKey = some agent ∧ agent.data.status = .Active := by
  simp only [initiateDispute, bind_eq_ok, demand_eq_ok, require_eq_ok] at h
  obtain ⟨_, -, accounts, -, agent, hagent, _, -, _, -, _, -, _, -, _, hactive, h⟩ := h
  obtain ⟨_, -, _, -, h⟩ := h
  refine ⟨?_, agent, hagent, hactive⟩
  rcases ite_eq_iff.mp h with ⟨-, h⟩ | ⟨-, h⟩
  · simp only [bind_eq_ok, Except.ok.injEq] at h
    obtain ⟨_, -, _, -, limit, -, r, hraise, d, -, rfl⟩ := h
    exact raiseDisputeCounters_standing hraise hagent
  · simp only [bind_eq_ok, Except.ok.injEq] at h
    obtain ⟨_, -, _, -, _, -, limit, -, r, hraise, d, -, rfl⟩ := h
    exact raiseDisputeCounters_standing hraise hagent

end Handlers

/-! ## Steps -/

/-- The agent whose registration an instruction makes, changes or ends. -/
def Instruction.member : Instruction → Option Pubkey
  | .agent _ (.touchAgent _ _) => none
  | .agent k _ => some k
  | _ => none

/-- One step, seen from who is registered and in which standing: one agent registers, is
updated, suspended or released, votes, or leaves; `total_agents` follows. -/
inductive PopulationStep (w w' : World) (i : Instruction) : Prop
  | same (apart : i.member = none) (standing : SameStanding w.agents w'.agents)
      (total : w'.config.totalAgents = w.config.totalAgents) : PopulationStep w w' i
  | registered {key : Pubkey} (about : i.member = some key) (new : w.agents.lookup key = none)
      (others : ∀ k ≠ key, standingOf w'.agents k = standingOf w.agents k)
      (after : standingOf w'.agents key = some (.Active, false, 0))
      (total : w'.config.totalAgents = w.config.totalAgents + 1) : PopulationStep w w' i
  | written {key : Pubkey} {status status' : AgentStatus} {voted : ℤ}
      (about : i.member = some key)
      (others : ∀ k ≠ key, standingOf w'.agents k = standingOf w.agents k)
      (before : standingOf w.agents key = some (status, false, voted))
      (after : standingOf w'.agents key = some (status', false, voted))
      (total : w'.config.totalAgents = w.config.totalAgents) : PopulationStep w w' i
  | touched {key : Pubkey} {reputation : ℕ} {status : AgentStatus} {gone : Bool}
      {voted voted' : ℤ} (label : i = .agent key (.touchAgent reputation voted'))
      (others : ∀ k ≠ key, standingOf w'.agents k = standingOf w.agents k)
      (before : standingOf w.agents key = some (status, gone, voted))
      (after : standingOf w'.agents key = some (status, gone, voted'))
      (total : w'.config.totalAgents = w.config.totalAgents) : PopulationStep w w' i
  | retired {key : Pubkey} {status : AgentStatus} {voted : ℤ} (about : i.member = some key)
      (others : ∀ k ≠ key, standingOf w'.agents k = standingOf w.agents k)
      (before : standingOf w.agents key = some (status, false, voted))
      (free : 0 < voted → 86400 < w.sys.now - voted)
      (after : standingOf w'.agents key = some (.Inactive, true, voted))
      (total : w'.config.totalAgents + 1 = w.config.totalAgents) : PopulationStep w w' i

section Steps

variable {w w' : World}

theorem standingOf_insert_ne {agents : Ledger Pubkey (Account AgentRegistration)}
    {key : Pubkey} (agent : Account AgentRegistration) :
    ∀ k ≠ key, standingOf (agents.insert key agent) k = standingOf agents k := by
  intro k hk
  unfold standingOf
  rw [Ledger.lookup_insert_eq_ite, if_neg hk]

@[simp] theorem standingOf_insert {agents : Ledger Pubkey (Account AgentRegistration)}
    {key : Pubkey} {agent : Account AgentRegistration} :
    standingOf (agents.insert key agent) key = some agent.data.standing := by
  unfold standingOf
  rw [AList.lookup_insert]
  rfl

theorem standingOf_of_lookup {agents : Ledger Pubkey (Account AgentRegistration)}
    {key : Pubkey} {agent : Account AgentRegistration} (h : agents.lookup key = some agent) :
    standingOf agents key = some agent.data.standing := by
  unfold standingOf
  rw [h]
  rfl

theorem SameProtocol.totalAgents {config config' : ProtocolConfig}
    (h : SameProtocol config config') : config'.totalAgents = config.totalAgents := by
  obtain ⟨_, _, rfl⟩ := h
  rfl

theorem SameProtocol.minAgentStake {config config' : ProtocolConfig}
    (h : SameProtocol config config') : config'.minAgentStake = config.minAgentStake := by
  obtain ⟨_, _, rfl⟩ := h
  rfl

/-- No administrative instruction counts agents, or changes what they stake. -/
theorem AdminOp.membership {signers : List Pubkey} {op : AdminOp}
    (h : op.run w signers = .ok w') : w'.config.totalAgents = w.config.totalAgents ∧
      w'.config.minAgentStake = w.config.minAgentStake := by
  cases op with
  | updateProtocolFee protocolFeeBps =>
    simp only [AdminOp.run, AgencCoordination.updateProtocolFee, bind_eq_ok,
      Except.ok.injEq] at h
    obtain ⟨_, -, _, -, rfl⟩ := h
    exact ⟨rfl, rfl⟩
  | updateTreasury newTreasury =>
    simp only [AdminOp.run, AgencCoordination.updateTreasury, bind_eq_ok,
      Except.ok.injEq] at h
    obtain ⟨_, -, _, -, _, -, rfl⟩ := h
    exact ⟨rfl, rfl⟩
  | updateLaunchControls paused mask revision =>
    simp only [AdminOp.run, AgencCoordination.updateLaunchControls, bind_eq_ok,
      Except.ok.injEq] at h
    obtain ⟨_, -, _, -, rfl⟩ := h
    exact ⟨rfl, rfl⟩
  | updateRateLimits taskCooldown maxTasks disputeCooldown maxDisputes minStake =>
    simp only [AdminOp.run, AgencCoordination.updateRateLimits, bind_eq_ok,
      Except.ok.injEq] at h
    obtain ⟨_, -, _, -, _, -, _, -, _, -, rfl⟩ := h
    exact ⟨rfl, rfl⟩
  | configureTaskCreationQuota taskAuthority maxTasks enabled =>
    simp only [AdminOp.run, AgencCoordination.configureTaskCreationQuota, bind_eq_ok,
      Except.ok.injEq] at h
    obtain ⟨_, -, _, -, _, -, _, -, _, -, rfl⟩ := h
    exact ⟨rfl, rfl⟩
  | initializeBidMarketplace config =>
    simp only [AdminOp.run, AgencCoordination.initializeBidMarketplace, bind_eq_ok,
      Except.ok.injEq] at h
    obtain ⟨_, -, _, -, _, -, _, -, rfl⟩ := h
    exact ⟨rfl, rfl⟩
  | updateBidMarketplaceConfig config =>
    simp only [AdminOp.run, AgencCoordination.updateBidMarketplaceConfig, bind_eq_ok,
      Except.ok.injEq] at h
    obtain ⟨_, -, _, -, _, -, _, -, rfl⟩ := h
    exact ⟨rfl, rfl⟩
  | assignDisputeResolver resolver =>
    simp only [AdminOp.run, AgencCoordination.assignDisputeResolver, bind_eq_ok,
      Except.ok.injEq] at h
    obtain ⟨_, -, _, -, rfl⟩ := h
    exact ⟨rfl, rfl⟩
  | revokeDisputeResolver resolver =>
    simp only [AdminOp.run, AgencCoordination.revokeDisputeResolver, bind_eq_ok,
      Except.ok.injEq] at h
    obtain ⟨_, -, _, -, rfl⟩ := h
    exact ⟨rfl, rfl⟩

/-- The standing a deregistration finds and leaves, and the checks it makes on it. -/
theorem deregisterAgent_standing {key signer : Pubkey} {reputationStake : ℕ}
    {ts : List Transfer} (h : deregisterAgent w key signer reputationStake = .ok (w', ts)) :
    ∃ agent agent', w.agents.lookup key = some agent ∧ agent.data.authority = signer ∧
      agent.data.status ≠ .Suspended ∧ agent.data.retired = false ∧
      w'.agents = w.agents.insert key agent' ∧
      agent'.data.standing = (.Inactive, true, agent.data.lastVoteTimestamp) ∧
      (0 < agent.data.lastVoteTimestamp →
        86400 < w.sys.now - agent.data.lastVoteTimestamp) ∧
      w'.config.totalAgents + 1 = w.config.totalAgents := by
  simp only [deregisterAgent, bind_eq_ok, demand_eq_ok, require_eq_ok, subU_eq_ok,
    checkedSub_eq_ok, Except.ok.injEq, Prod.mk.injEq] at h
  obtain ⟨agent, hagent, _, hsigner, _, hsuspended, _, hretired, _, -, h⟩ := h
  obtain ⟨_, -, _, -, _, -, _, hfree, _, -, h⟩ := h
  obtain ⟨totalAgents, ⟨hpositive, rfl⟩, refundable, -, _, -, rfl, rfl⟩ := h
  exact ⟨agent, _, hagent, hsigner, hsuspended, hretired, rfl, rfl, hfree,
    Nat.sub_add_cancel hpositive⟩

/-- An agent that stays is written. -/
theorem PopulationStep.of_written {i : Instruction} {key : Pubkey}
    {agent agent' : Account AgentRegistration} (habout : i.member = some key)
    (hagent : w.agents.lookup key = some agent) (hpresent : agent.data.retired = false)
    (hsame : (agent'.data.retired, agent'.data.lastVoteTimestamp) =
      (agent.data.retired, agent.data.lastVoteTimestamp))
    (hagents : w'.agents = w.agents.insert key agent')
    (total : w'.config.totalAgents = w.config.totalAgents) : PopulationStep w w' i := by
  obtain ⟨hretired, hvoted⟩ := Prod.mk.inj hsame
  refine @PopulationStep.written w w' i key agent.data.status agent'.data.status
    agent.data.lastVoteTimestamp habout ?_ ?_ ?_ total
  · rw [hagents]
    exact standingOf_insert_ne agent'
  · rw [standingOf_of_lookup hagent, AgentRegistration.standing, hpresent]
  · rw [hagents, standingOf_insert, AgentRegistration.standing, hretired, hpresent, hvoted]

/-- An instruction on an agent, seen from its standing. -/
theorem AgentOp.population {key : Pubkey} {op : AgentOp} {ts : List Transfer}
    (h : op.run w key = .ok (w', ts)) : PopulationStep w w' (.agent key op) := by
  cases op with
  | registerAgent authority capabilities stakeAmount prefunded =>
    simp only [AgentOp.run, AgencCoordination.registerAgent, bind_eq_ok, require_eq_ok,
      addU64_eq_ok, Except.ok.injEq, Prod.mk.injEq] at h
    obtain ⟨_, ⟨_, hnew, _, -, _, -, _, -, _, ⟨-, rfl⟩, rfl⟩, rfl, -⟩ := h
    exact .registered rfl hnew (standingOf_insert_ne _) standingOf_insert rfl
  | updateAgent signer capabilities status =>
    simp only [AgentOp.run, AgencCoordination.updateAgent, bind_eq_ok, demand_eq_ok,
      require_eq_ok, Except.ok.injEq, Prod.mk.injEq] at h
    obtain ⟨_, ⟨agent, hagent, _, -, _, hretired, _, -, _, -, h⟩, rfl, -⟩ := h
    obtain ⟨_, -, _, -, _, -, _, -, rfl⟩ := h
    refine .of_written rfl hagent hretired ?_ rfl rfl
    rfl
  | suspendAgent signer signers =>
    simp only [AgentOp.run, AgencCoordination.suspendAgent, bind_eq_ok, demand_eq_ok,
      require_eq_ok, Except.ok.injEq, Prod.mk.injEq] at h
    obtain ⟨_, ⟨_, -, _, -, agent, hagent, _, hretired, _, -, rfl⟩, rfl, -⟩ := h
    refine .of_written rfl hagent hretired ?_ rfl rfl
    rfl
  | unsuspendAgent signer signers =>
    simp only [AgentOp.run, AgencCoordination.unsuspendAgent, bind_eq_ok, demand_eq_ok,
      require_eq_ok, Except.ok.injEq, Prod.mk.injEq] at h
    obtain ⟨_, ⟨_, -, _, -, agent, hagent, _, hretired, _, -, rfl⟩, rfl, -⟩ := h
    refine .of_written rfl hagent hretired ?_ rfl rfl
    rfl
  | deregisterAgent signer reputationStake =>
    have h : AgencCoordination.deregisterAgent w key signer reputationStake = .ok (w', ts) := h
    obtain ⟨agent, agent', hagent, -, -, hretired, hagents, hafter, hfree, htotal⟩ :=
      deregisterAgent_standing h
    refine @PopulationStep.retired w w' _ key agent.data.status agent.data.lastVoteTimestamp rfl
      ?_ ?_ hfree ?_ htotal
    · rw [hagents]
      exact standingOf_insert_ne agent'
    · rw [standingOf_of_lookup hagent, AgentRegistration.standing, hretired]
    · rw [hagents, standingOf_insert, hafter]
  | touchAgent reputation lastVoteTimestamp =>
    simp only [AgentOp.run, AgencCoordination.touchAgent, bind_eq_ok, demand_eq_ok,
      Except.ok.injEq, Prod.mk.injEq] at h
    obtain ⟨_, ⟨agent, hagent, rfl⟩, rfl, -⟩ := h
    exact .touched rfl (standingOf_insert_ne _) (standingOf_of_lookup hagent) standingOf_insert
      rfl

/-- Every step is one of these. -/
theorem Step.population {i : Instruction} {ts : List Transfer} (h : Step w (i, ts) w') :
    PopulationStep w w' i := by
  cases h.does with
  | ticked later => exact .same rfl (.refl _) rfl
  | donatedAgent outside credits =>
    obtain ⟨k, agent, amount, hagent, rfl⟩ := credits
    exact .same rfl (.write hagent rfl) rfl
  | donatedTask inside loaded credits => exact .same rfl (.refl _) rfl
  | administered ran =>
    refine .same rfl ?_ (AdminOp.membership ran).1
    rw [(AdminOp.run_spec ran).agents]
    exact .refl _
  | agent ran => exact AgentOp.population ran
  | created ran =>
    obtain ⟨-, _, _, _, _, -, rfl⟩ := CreateOp.run_spec ran
    exact .same rfl (.refl _) rfl
  | task loaded ran => exact .same rfl (.refl _) (TaskOp.run_frames ran).config.totalAgents
  | @work key k op acc agent c loaded found ran rent =>
    have hframes := WorkOp.run_frames ran
    refine .same rfl ?_ hframes.config.totalAgents
    rw [World.storeWork_agents, hframes.workerKey]
    exact .write found (WorkOp.standing ran)
  | @cancelled key signer workers workerBondAuthority withParent acc base c agents' loaded listed
      ran =>
    have hconfig : base.config = w.config := by
      rcases listed with ⟨-, rfl⟩ | ⟨_, _, _, -, -, rfl⟩
      · rfl
      · rfl
    obtain ⟨_, _, _, _, _, _, _, _, _, _, _, _, _, -, -, -, -, -, -, -, -, hagents, -⟩ :=
      cancelTask_spec ran
    refine .same rfl (fun k => ?_) ?_
    · unfold standingOf
      rw [World.storeTask_agents, World.storeBidder_agents, hagents]
      split_ifs
      · cases w.agents.lookup k with
        | none => rfl
        | some agent => rfl
      · rfl
    · rw [World.storeTask_config, (cancelTask_frames ran).config.totalAgents, hconfig]
  | closed loaded ran => exact .same rfl (.refl _) (closeTask_frames ran).config.totalAgents
  | disputed ran =>
    have hstanding := (initiateDispute_standing ran).1
    obtain ⟨_, _, _, _, -, -, -, -, -, -, -, -, -, -, -, rfl⟩ := initiateDispute_spec ran
    exact .same rfl hstanding rfl
  | ruled loaded found filed about ran rent =>
    have hframes := (DisputeOp.run_frames ran).1
    refine .same rfl ?_ hframes.config.totalAgents
    show SameStanding _ (w.storeWork _).agents
    rw [World.storeWork_agents, hframes.workerKey]
    exact .write found (DisputeOp.standing ran)
  | finalized ran =>
    obtain ⟨_, agent, _, _, -, hagent, -, -, -, -, -, -, -, rfl⟩ := applyInitiatorSlash_spec ran
    exact .same rfl (.write hagent rfl) rfl
  | repaired ran =>
    obtain ⟨_, agent, -, hagent, -, -, -, -, rfl⟩ := repairDisputeInitiatorCounter_spec ran
    exact .same rfl (.write hagent rfl) rfl

/-! ## New business -/

/-- The instructions on a task by which its worker takes on something new. -/
def WorkOp.enlists : WorkOp → Bool
  | .claimTaskWithJobSpec _ _ | .createBid _ _ _ | .acceptBid _ _ _ => true
  | _ => false

/-- The agent that commissions a task. -/
def CreateOp.agent : CreateOp → Option Pubkey
  | .createTask creatorAgent _ _ _ _ | .createDependentTask creatorAgent _ _ _ _ |
    .hireFromListing creatorAgent _ _ _ _ _ _ _ => some creatorAgent
  | _ => none

/-- The agent that takes on something new by an instruction: a claim, a bid, a task it commissions
or a dispute it opens. -/
def Instruction.enlists : Instruction → Option Pubkey
  | .work _ k op => if op.enlists then some k else none
  | .create _ _ _ _ op => op.agent
  | .initiateDispute _ _ filing => some filing.agentKey
  | _ => none

theorem WorkOp.run_enlists {op : WorkOp} {c c' : TaskContext} (h : op.run w c = .ok c')
    (henlists : op.enlists = true) : c.worker.data.status = .Active := by
  cases op with
  | claimTaskWithJobSpec signer prefunded =>
    simp only [WorkOp.run, AgencCoordination.claimTaskWithJobSpec, bind_eq_ok,
      Except.ok.injEq] at h
    obtain ⟨_, -, spec, -, _, -, _, -, _, -, c₁, hclaim, -⟩ := h
    simp only [processClaim, bind_eq_ok, require_eq_ok] at hclaim
    obtain ⟨_, -, _, -, _, -, _, -, _, -, _, -, _, -, _, -, _, -, _, hactive, -⟩ := hclaim
    exact hactive
  | createBid signer terms prefunded =>
    simp only [WorkOp.run, AgencCoordination.createBid, bind_eq_ok, require_eq_ok] at h
    obtain ⟨_, -, m, -, book, -, _, -, _, -, _, -, _, -, _, -, _, -, _, -, _, -, h⟩ := h
    obtain ⟨_, hactive, -⟩ := h
    exact hactive
  | acceptBid signer expectedBidTermsHash prefunded =>
    simp only [WorkOp.run, AgencCoordination.acceptBid, bind_eq_ok, require_eq_ok] at h
    obtain ⟨_, -, _, -, book, -, bid, -, state, -, spec, -, _, -, _, -, _, -, _, -, h⟩ := h
    obtain ⟨_, -, _, -, _, -, _, -, _, -, _, -, _, -, _, -, _, -, _, -, _, -, h⟩ := h
    obtain ⟨_, hactive, -⟩ := h
    exact hactive
  | _ => cases henlists

theorem CreateOp.run_agent {op : CreateOp} {key creator k : Pubkey} {useQuota : Bool}
    {pre : Prefunding} (h : op.run w key creator useQuota pre = .ok w')
    (hk : op.agent = some k) :
    ∃ agent, w.agents.lookup k = some agent ∧ agent.data.status = .Active := by
  cases op with
  | createTask creatorAgent params constraintHash referrer referrerFeeBps =>
    obtain rfl := Option.some.inj hk
    simp only [CreateOp.run, AgencCoordination.createTask, bind_eq_ok, demand_eq_ok,
      require_eq_ok] at h
    obtain ⟨_, -, agent, hagent, _, -, _, -, _, -, _, -, _, -, _, -, _, -, _, -, _, -, h⟩ := h
    obtain ⟨_, hactive, -⟩ := h
    exact ⟨agent, hagent, hactive⟩
  | createDependentTask creatorAgent parent params constraintHash dependencyType =>
    obtain rfl := Option.some.inj hk
    simp only [CreateOp.run, AgencCoordination.createDependentTask, bind_eq_ok, demand_eq_ok,
      require_eq_ok] at h
    obtain ⟨_, -, agent, hagent, _, -, _, -, _, -, _, -, _, -, parent, -, _, -, _, -, h⟩ := h
    obtain ⟨_, -, _, -, _, -, _, -, _, -, _, hactive, -⟩ := h
    exact ⟨agent, hagent, hactive⟩
  | hireFromListing creatorAgent listing taskId specHash price version referrer referrerFeeBps =>
    obtain rfl := Option.some.inj hk
    simp only [CreateOp.run, AgencCoordination.hireFromListing, bind_eq_ok, demand_eq_ok,
      require_eq_ok] at h
    obtain ⟨_, -, agent, hagent, _, -, _, -, _, -, _, hactive, -⟩ := h
    exact ⟨agent, hagent, hactive.1⟩
  | _ => cases hk

/-- Only an active agent takes on something new. -/
theorem Step.enlists {i : Instruction} {ts : List Transfer} (h : Step w (i, ts) w')
    {k : Pubkey} (hk : i.enlists = some k) :
    ∃ agent, w.agents.lookup k = some agent ∧ agent.data.status = .Active := by
  cases h.does with
  | created ran => exact CreateOp.run_agent ran hk
  | @work key k' op acc agent c loaded found ran rent =>
    rw [Instruction.enlists] at hk
    split_ifs at hk with henlists
    obtain rfl := Option.some.inj hk
    exact ⟨agent, found, WorkOp.run_enlists ran henlists⟩
  | disputed ran =>
    obtain rfl := Option.some.inj hk
    exact (initiateDispute_standing ran).2
  | _ => cases hk

/-- A claim is opened by enlisting its worker. -/
theorem Step.claims_enlist {i : Instruction} {ts : List Transfer} (h : Step w (i, ts) w')
    {k : Pubkey} (hidle : openClaims w k = ∅) (hquiet : i.enlists ≠ some k) :
    openClaims w' k = ∅ := by
  rw [Finset.eq_empty_iff_forall_notMem]
  intro key hkey
  obtain ⟨acc', hacc', hclaim⟩ := Ledger.mem_support.mp hkey
  have hbefore : ∀ acc, w.tasks.lookup key = some acc → acc.claims.lookup k = none := by
    intro acc hacc
    have hnot : key ∉ openClaims w k := by
      rw [hidle]
      exact Finset.notMem_empty key
    rw [openClaims, Ledger.mem_support_of_lookup hacc] at hnot
    exact Option.not_isSome_iff_eq_none.mp hnot
  obtain ⟨op, rfl, hassigns⟩ := h.claim_opened hacc' hclaim hbefore
  refine hquiet ?_
  cases op with
  | claimTaskWithJobSpec signer prefunded => rfl
  | acceptBid signer expectedBidTermsHash prefunded => rfl
  | _ => cases hassigns

/-- A bid is placed by enlisting its bidder. -/
theorem BookMove.bids_enlist {key k : Pubkey} {acc : TaskAccounts} {i : Instruction}
    {book' : Option TaskBidBook} {bids' : Ledger Pubkey (Account TaskBid)}
    {records : Pubkey → Option BidderMarketState} {ts : List Transfer}
    (h : BookMove w key acc i book' bids' records ts) (hquiet : i.enlists ≠ some k)
    (hnone : acc.bids.lookup k = none) : bids'.lookup k = none := by
  have hinsert {k' : Pubkey} {bid : Account TaskBid} (bid' : Account TaskBid)
      (hloaded : acc.bids.lookup k' = some bid) : (acc.bids.insert k' bid').lookup k = none := by
    have hk : k ≠ k' := by
      intro hk
      rw [← hk, hnone] at hloaded
      cases hloaded
    rw [AList.lookup_insert_ne hk, hnone]
  have herase {k' : Pubkey} : (acc.bids.erase k').lookup k = none := by
    rw [Ledger.lookup_erase_eq_ite]
    split_ifs
    · rfl
    · exact hnone
  cases h with
  | donated loaded => exact hinsert _ loaded
  | opened closed status type fresh => exact hnone
  | @moved k' op kind agent _ _ _ _ found isKind type move =>
    cases move with
    | created opened isOpen fresh bound authority backed capped makes unscored tracked counted =>
      have hk : k ≠ k' := by
        intro hk
        refine hquiet ?_
        cases op <;> cases isKind
        rw [hk]
        rfl
      exact (AList.lookup_insert_ne hk).trans hnone
    | updated opened isOpen loaded wasOpen bound authority bond slash held makes unscored tracked =>
      exact hinsert _ loaded
    | promoted opened isOpen loaded makes installed => exact hnone
    | removed opened loaded free owed record listed counted => exact herase
  | accepted found accepts =>
    rw [accepts.bids']
    exact hinsert _ accepts.loaded
  | settled found type settles reopening full =>
    cases settles with
    | none type => exact hnone
    | settled => exact herase
  | shut opened idle => exact hnone
  | swept status empty => exact hnone

theorem Step.bids_enlist {i : Instruction} {ts : List Transfer} (h : Step w (i, ts) w')
    {k : Pubkey} (hidle : w.bidTasks k = ∅) (hquiet : i.enlists ≠ some k) :
    w'.bidTasks k = ∅ := by
  rw [Finset.eq_empty_iff_forall_notMem] at hidle ⊢
  have hnone (key : Pubkey) : (w.bidsOf key).lookup k = none :=
    Option.not_isSome_iff_eq_none.mp (mt World.mem_bidTasks.mpr (hidle key))
  intro key
  rw [World.mem_bidTasks, Option.not_isSome_iff_eq_none]
  cases h.books with
  | apart books bids records unpaid => rw [bids, hnone]
  | @moved key' acc loaded move others =>
    by_cases hkey : key = key'
    · subst hkey
      refine move.bids_enlist hquiet ?_
      rw [← World.bidsOf_eq loaded]
      exact hnone key
    · rw [(others key hkey).2, hnone]

/-- A dispute is opened against an agent that has an open claim. -/
theorem Step.accused {i : Instruction} {ts : List Transfer} (h : Step w (i, ts) w')
    {key : Pubkey} {d : Dispute} (hnew : w.disputes.lookup key = none)
    (hd : w'.disputes.lookup key = some d) : openClaims w d.defendant ≠ ∅ := by
  cases h.dispute key with
  | apart same other =>
    rw [same, hnew] at hd
    cases hd
  | opened new stored record named task =>
    cases h.does with
    | disputed ran =>
      obtain ⟨acc, _, _, d₀, -, hacc, -, -, -, -, -, -, hclaim, -, -, rfl⟩ :=
        initiateDispute_spec ran
      have hd₀ : d₀ = d := by
        subst named
        exact Option.some.inj ((AList.lookup_insert _).symm.trans hd)
      subst hd₀
      exact Finset.ne_empty_of_mem ((Ledger.mem_support_of_lookup hacc).mpr hclaim)
  | ruled filed =>
    rw [hnew] at filed
    cases filed
  | finalized filed =>
    rw [hnew] at filed
    cases filed

/-- A retired agent stays as it is, and nothing about its registration succeeds. -/
theorem PopulationStep.retired_stays {i : Instruction} (h : PopulationStep w w' i) {k : Pubkey}
    {status : AgentStatus} (hk : ∃ voted, standingOf w.agents k = some (status, true, voted)) :
    (∃ voted, standingOf w'.agents k = some (status, true, voted)) ∧ i.member ≠ some k := by
  obtain ⟨voted, hk⟩ := hk
  have hother {key : Pubkey} (habout : i.member = some key) (hne : k ≠ key)
      (hothers : ∀ k ≠ key, standingOf w'.agents k = standingOf w.agents k) :
      (∃ voted, standingOf w'.agents k = some (status, true, voted)) ∧ i.member ≠ some k := by
    refine ⟨⟨voted, (hothers k hne).trans hk⟩, ?_⟩
    rw [habout]
    exact fun heq => hne (Option.some.inj heq).symm
  cases h with
  | same apart standing total =>
    refine ⟨⟨voted, (standing k).trans hk⟩, ?_⟩
    rw [apart]
    exact fun heq => by cases heq
  | registered about new others after total =>
    refine hother about ?_ others
    rintro rfl
    rw [standingOf, new] at hk
    cases hk
  | written about others before after total =>
    refine hother about ?_ others
    rintro rfl
    rw [before] at hk
    cases hk
  | @touched key _ _ _ _ voted' label others before after total =>
    refine ⟨?_, by rw [label]; exact fun heq => by cases heq⟩
    by_cases hkey : k = key
    · subst hkey
      rw [before] at hk
      obtain ⟨rfl, hrest⟩ := Prod.mk.inj (Option.some.inj hk)
      obtain ⟨rfl, -⟩ := Prod.mk.inj hrest
      exact ⟨voted', after⟩
    · exact ⟨voted, (others k hkey).trans hk⟩
  | retired about others before free after total =>
    refine hother about ?_ others
    rintro rfl
    rw [before] at hk
    cases hk

/-! ## Departed agents -/

/-- The agent has left: its record stays with its wallet, inactive and retired, nothing is staked
on it, and it has no claim, no bid and no part in a dispute with an outcome or a slash to come. -/
structure Departed (w : World) (k signer : Pubkey) : Prop where
  record : ∃ agent, w.agents.lookup k = some agent ∧ agent.data.authority = signer ∧
    agent.data.status = .Inactive ∧ agent.data.retired = true ∧ agent.data.stake = 0
  claims : openClaims w k = ∅
  bids : w.bidTasks k = ∅
  outcomes : outcomesAwaited w k = ∅
  threats : threatsTo w k = ∅

theorem Departed.standing {k signer : Pubkey} (h : Departed w k signer) :
    ∃ voted, standingOf w.agents k = some (.Inactive, true, voted) := by
  obtain ⟨agent, hagent, -, hstatus, hretired, -⟩ := h.record
  refine ⟨agent.data.lastVoteTimestamp, ?_⟩
  rw [standingOf_of_lookup hagent, AgentRegistration.standing, hstatus, hretired]

/-- A departed agent takes on nothing. -/
theorem Departed.quiet {k signer : Pubkey} (h : Departed w k signer) {i : Instruction}
    {ts : List Transfer} (hs : Step w (i, ts) w') : i.enlists ≠ some k := by
  intro henlists
  obtain ⟨agent, hagent, -, hinactive, -⟩ := h.record
  obtain ⟨agent', hagent', hactive⟩ := hs.enlists henlists
  obtain rfl := Option.some.inj (hagent'.symm.trans hagent)
  rw [hinactive] at hactive
  cases hactive

/-- No step brings a departed agent back. -/
theorem Departed.step {k signer : Pubkey} (h : Departed w k signer) (hw : Reachable w)
    {i : Instruction} {ts : List Transfer} (hs : Step w (i, ts) w') : Departed w' k signer := by
  have hquiet := h.quiet hs
  obtain ⟨voted, hstanding⟩ := (hs.population.retired_stays h.standing).1
  obtain ⟨agent, hagent, hauthority, -, -, hstake⟩ := h.record
  refine ⟨?_, hs.claims_enlist h.claims hquiet, hs.bids_enlist h.bids hquiet, ?_, ?_⟩
  · obtain ⟨agent', hagent', hsame⟩ := hs.authority hagent
    obtain ⟨agent₂, hagent₂, hmove⟩ := hs.stake hagent
    obtain rfl := Option.some.inj (hagent₂.symm.trans hagent')
    rw [standingOf_of_lookup hagent'] at hstanding
    obtain ⟨hstatus, hrest⟩ := Prod.mk.inj (Option.some.inj hstanding)
    obtain ⟨hretired, -⟩ := Prod.mk.inj hrest
    refine ⟨agent₂, hagent', hsame.trans hauthority, hstatus, hretired, ?_⟩
    cases hmove with
    | kept stake lamports unslashed => rw [stake, hstake]
    | slashed about stake lamports => omega
    | retired leaves retires unslashed => exact retires.stake
  · obtain ⟨hcount, hcounted⟩ := hs.outcomes (dispute_inv hw) (outcome_counter hw) k
    have hraised : outcomesRaised i k = 0 := by
      cases i with
      | initiateDispute taskKey opener filing =>
        have hne : k ≠ filing.agentKey := fun heq => hquiet (congrArg some heq.symm)
        exact if_neg hne
      | _ => rfl
    have hbefore : (outcomesAwaited w k).card = 0 := by
      rw [h.outcomes, Finset.card_empty]
    rw [outcome_counter hw k] at hcount
    exact Finset.card_eq_zero.mp (by omega)
  · cases hs.threats (dispute_inv hw) (defendant_counter hw) k with
    | kept threats counter => rw [threats, h.threats]
    | @raised key new threats counter =>
      have hmem : key ∈ threatsTo w' k := by
        rw [threats]
        exact Finset.mem_insert_self key _
      obtain ⟨d, hd, hdefendant, -⟩ := Ledger.mem_support.mp hmem
      have hopen := hs.accused new hd
      rw [hdefendant, h.claims] at hopen
      exact absurd rfl hopen
    | ended threat threats counter => rw [threats, h.threats, Finset.erase_empty]

/-- What a deregistration finds and pays: nothing is open for the agent, it is not suspended, and
it gets all its account has above the rent, which covers its stake. -/
structure Departs (w : World) (k signer : Pubkey) (ts : List Transfer) : Prop where
  claims : openClaims w k = ∅
  bids : w.bidTasks k = ∅
  outcomes : outcomesAwaited w k = ∅
  threats : threatsTo w k = ∅
  record : ∃ agent, w.agents.lookup k = some agent ∧ agent.data.authority = signer ∧
    agent.data.status ≠ .Suspended ∧ agent.data.retired = false ∧
    (0 < agent.data.lastVoteTimestamp →
      86400 < w.sys.now - agent.data.lastVoteTimestamp) ∧
    w.sys.rent.minimumBalance agentRegistrationSize + agent.data.stake ≤ agent.lamports ∧
    ts = [⟨.agent k, signer, .closingBalance,
      agent.lamports - w.sys.rent.minimumBalance agentRegistrationSize⟩]

theorem Step.departs (hw : Reachable w) {k signer : Pubkey} {reputationStake : ℕ}
    {ts : List Transfer}
    (hs : Step w (.agent k (.deregisterAgent signer reputationStake), ts) w') :
    Departs w k signer ts := by
  have h : deregisterAgent w k signer reputationStake = .ok (w', ts) := hs
  obtain ⟨agent, _, hagent, hauthority, hsuspended, hretired, -⟩ := deregisterAgent_standing h
  obtain ⟨agent₁, _, _, hagent₁, hretires, hbids, hvoted, hpaid, -⟩ := deregisterAgent_spec h
  obtain rfl := Option.some.inj (hagent₁.symm.trans hagent)
  refine ⟨?_, ?_, ?_, ?_, agent₁, hagent, hauthority, hsuspended, hretired, hvoted,
    agent_solvent hw k agent₁ hagent, hpaid⟩
  · have hcount := (occupancy hw).active k
    rw [activeTasksOf, counterOf_of_lookup hagent, hretires.active] at hcount
    exact Finset.card_eq_zero.mp hcount.symm
  · have hcount := hw.bidsSound.recorded k
    rw [hs.deregisters_bidless rfl] at hcount
    exact Finset.card_eq_zero.mp hcount.symm
  · have hcount := outcome_counter hw k
    rw [counterOf_of_lookup hagent, hretires.votes] at hcount
    exact Finset.card_eq_zero.mp hcount.symm
  · have hcount := defendant_counter hw k
    rw [counterOf_of_lookup hagent, hretires.asDefendant] at hcount
    exact Finset.card_eq_zero.mp hcount.symm

/-- An agent has departed after its deregistration. -/
theorem Departs.departed {k signer : Pubkey} {reputationStake : ℕ} {ts : List Transfer}
    (h : Departs w k signer ts)
    (hs : Step w (.agent k (.deregisterAgent signer reputationStake), ts) w') :
    Departed w' k signer := by
  have hrun : deregisterAgent w k signer reputationStake = .ok (w', ts) := hs
  obtain ⟨agent, agent', hagent, hauthority, -, -, hagents, hstanding, -⟩ :=
    deregisterAgent_standing hrun
  obtain ⟨agent₁, agent₂, _, hagent₁, hretires, -, -, -, hw'⟩ := deregisterAgent_spec hrun
  obtain rfl := Option.some.inj (hagent₁.symm.trans hagent)
  have hafter : w'.agents.lookup k = some agent' := by
    rw [hagents]
    exact AList.lookup_insert _
  have hafter₂ : w'.agents.lookup k = some agent₂ := by
    rw [hw']
    exact AList.lookup_insert _
  obtain rfl := Option.some.inj (hafter₂.symm.trans hafter)
  obtain ⟨hstatus, hrest⟩ := Prod.mk.inj hstanding
  obtain ⟨hretired, -⟩ := Prod.mk.inj hrest
  refine ⟨⟨agent₂, hafter, hretires.authority.trans hauthority, hstatus, hretired,
    hretires.stake⟩, ?_, ?_, ?_, ?_⟩
  · rw [hw']
    exact h.claims
  · rw [hw']
    exact h.bids
  · rw [hw']
    exact h.outcomes
  · rw [hw']
    exact h.threats

end Steps

/-! ## Runs -/

/-- An agent that deregisters is gone for good. When it leaves it has no claim, no bid, no dispute
outcome to wait for and no slash to fear, and its wallet gets all its account has above the rent,
at least its stake. From then on, whatever anyone does, its record stays inactive and retired
without a stake, nothing is open for it again, and no instruction registers, updates, suspends or
releases it, or claims, bids, commissions or disputes in its name. -/
theorem retirement_final {w w₁ w' : World} {k signer : Pubkey} {reputationStake : ℕ}
    {ts : List Transfer} {log : List LogEntry} (hw : Reachable w)
    (hleaves : Step w (.agent k (.deregisterAgent signer reputationStake), ts) w₁)
    (hrun : Run Step w₁ log w') :
    Departs w k signer ts ∧ Departed w' k signer ∧
      ∀ e ∈ log, e.label.1.member ≠ some k ∧ e.label.1.enlists ≠ some k := by
  have hdeparts := hleaves.departs hw
  have hstart : Reachable w₁ ∧ Departed w₁ k signer :=
    ⟨hw.step hleaves, hdeparts.departed hleaves⟩
  have hkeeps : ∀ v label v', Step v label v' → Reachable v ∧ Departed v k signer →
      Reachable v' ∧ Departed v' k signer := by
    intro v label v' hs hv
    exact ⟨hv.1.step hs, hv.2.step hv.1 hs⟩
  refine ⟨hdeparts, (hrun.invariant hkeeps hstart).2, fun e he => ?_⟩
  obtain ⟨⟨-, hdeparted⟩, hs⟩ := hrun.invariant_mem hkeeps hstart he
  exact ⟨(hs.population.retired_stays hdeparted.standing).2, hdeparted.quiet hs⟩

/-- Agent `10` registers, a second one works next to it for a day, and `10` leaves. -/
def leavingAgentScript : List Instruction :=
  [.agent 10 (.registerAgent 100 1 2000000 0),
    .agent 11 (.registerAgent 101 1 1000000 0),
    .tick 90000]

/-- The agent `10` leaves with its stake, and is still gone when the agent `11` leaves, too. -/
theorem retirement_final_left :
    ∃ ts w₁ ts' w', Step (deployed.after leavingAgentScript)
        (.agent 10 (.deregisterAgent 100 0), ts) w₁ ∧
      Step w₁ (.agent 11 (.deregisterAgent 101 0), ts') w' ∧
      Departs (deployed.after leavingAgentScript) 10 100 ts ∧ Departed w' 10 100 := by
  have hexec : ((execute (deployed.after leavingAgentScript)
      (.agent 10 (.deregisterAgent 100 0))).toOption.bind fun r =>
        (execute r.1 (.agent 11 (.deregisterAgent 101 0))).toOption).isSome = true := by
    decide +kernel
  obtain ⟨⟨w', ts'⟩, hexec⟩ := Option.isSome_iff_exists.mp hexec
  obtain ⟨⟨w₁, ts⟩, hfirst, hsecond⟩ := Option.bind_eq_some_iff.mp hexec
  have hleaves : Step (deployed.after leavingAgentScript) (.agent 10 (.deregisterAgent 100 0), ts)
      w₁ := Step.of_toOption hfirst
  have hlater : Step w₁ (.agent 11 (.deregisterAgent 101 0), ts') w' := Step.of_toOption hsecond
  obtain ⟨hdeparts, hdeparted, -⟩ :=
    retirement_final (deployed_genesis.reachable_after _) hleaves (Run.refl.snoc hlater)
  exact ⟨ts, w₁, ts', w', hleaves, hlater, hdeparts, hdeparted⟩

/-! ## The number of agents -/

/-- The agents that are registered and have not retired. -/
def presentAgents (w : World) : Finset Pubkey :=
  Ledger.support (fun agent : Account AgentRegistration => agent.data.retired = false) w.agents

section Population

variable {w w' : World}

theorem mem_presentAgents {k : Pubkey} :
    k ∈ presentAgents w ↔ ∃ status voted, standingOf w.agents k = some (status, false, voted) := by
  rw [presentAgents, Ledger.mem_support, standingOf]
  cases w.agents.lookup k with
  | none => simp
  | some agent => simp [AgentRegistration.standing]

/-- An agent of the same standing is there or not as before. -/
theorem mem_presentAgents_congr {k : Pubkey}
    (h : standingOf w'.agents k = standingOf w.agents k) :
    k ∈ presentAgents w' ↔ k ∈ presentAgents w := by
  rw [mem_presentAgents, mem_presentAgents, h]

/-- The counter moves with the number of the agents. -/
theorem PopulationStep.counts {i : Instruction} (h : PopulationStep w w' i) :
    w'.config.totalAgents + (presentAgents w).card =
      w.config.totalAgents + (presentAgents w').card := by
  have hpresent {k : Pubkey} {status : AgentStatus} {voted : ℤ} {v : World}
      (hk : standingOf v.agents k = some (status, false, voted)) : k ∈ presentAgents v :=
    mem_presentAgents.mpr ⟨status, voted, hk⟩
  have habsent {k : Pubkey} {v : World}
      (hk : ∀ status voted, standingOf v.agents k ≠ some (status, false, voted)) :
      k ∉ presentAgents v := by
    rw [mem_presentAgents]
    rintro ⟨status, voted, hmem⟩
    exact hk status voted hmem
  have hoff {key : Pubkey}
      (others : ∀ k ≠ key, standingOf w'.agents k = standingOf w.agents k) :=
    card_off fun k hk => mem_presentAgents_congr (others k hk)
  cases h with
  | same apart standing total =>
    have hsame : presentAgents w' = presentAgents w :=
      Finset.ext fun k => mem_presentAgents_congr (standing k)
    rw [hsame, total]
  | @registered key about new others after total =>
    have hcount := hoff others
    have hnew : key ∉ presentAgents w := by
      refine habsent fun status voted hk => ?_
      rw [standingOf, new] at hk
      cases hk
    rw [if_neg hnew, if_pos (hpresent after)] at hcount
    omega
  | written about others before after total =>
    have hcount := hoff others
    rw [if_pos (hpresent before), if_pos (hpresent after)] at hcount
    omega
  | @touched key _ status gone voted voted' label others before after total =>
    have hsame : presentAgents w' = presentAgents w := by
      ext k
      by_cases hkey : k = key
      · subst hkey
        cases gone with
        | false => exact iff_of_true (hpresent after) (hpresent before)
        | true =>
          refine iff_of_false (habsent fun _ _ hk => ?_) (habsent fun _ _ hk => ?_)
          · rw [after] at hk
            cases hk
          · rw [before] at hk
            cases hk
      · exact mem_presentAgents_congr (others k hkey)
    rw [hsame, total]
  | @retired key status voted about others before free after total =>
    have hcount := hoff others
    have hgone : key ∉ presentAgents w' := by
      refine habsent fun status voted hk => ?_
      rw [after] at hk
      cases hk
    rw [if_pos (hpresent before), if_neg hgone] at hcount
    omega

end Population

/-- `total_agents` counts the agents that are registered and have not retired, from the number the
program was started with. -/
theorem agents_counted {start w : World} {log : List LogEntry} (hstart : Genesis start)
    (hrun : Run Step start log w) :
    w.config.totalAgents = start.config.totalAgents + (presentAgents w).card := by
  have hnone : presentAgents start = ∅ := by
    rw [presentAgents, hstart.agents, Ledger.support_empty]
  refine hrun.invariant
    (I := fun w => w.config.totalAgents = start.config.totalAgents + (presentAgents w).card) ?_ ?_
  · rintro v ⟨i, ts⟩ v' hs hv
    have hcounts := hs.population.counts
    omega
  · rw [hnone, Finset.card_empty, Nat.add_zero]

/-- Two agents are there before one of them leaves. -/
theorem agents_counted_two :
    deployed.config.totalAgents + (presentAgents (deployed.after leavingAgentScript)).card = 2 := by
  obtain ⟨log, hrun⟩ := deployed.run_after leavingAgentScript
  have htotal : (deployed.after leavingAgentScript).config.totalAgents = 2 := by
    decide +kernel
  rw [← agents_counted deployed_genesis hrun, htotal]

end AgencCoordination
