import AgencCoordination.Effects.Frames
import AgencCoordination.Foundations.Run

/-!
# Steps of the world

`execute` read backwards: an instruction leaves a task alone, creates it, or moves it by one
handler (`execute_task`), and what it does to agents and disputes.

* **`Step`, `Reachable`** — the transition system of the program and its reachable worlds.
* **`TaskMove`** — the ways one instruction changes the accounts of one task.
* **`Step.task`** — every step, seen from one task.
-/

namespace AgencCoordination

open Foundations

/-! ## The transition system -/

/-- One successful instruction and its payments. -/
def Step (w : World) (label : Instruction × List Transfer) (w' : World) : Prop :=
  execute w label.1 = .ok (w', label.2)

/-- An entry of the program's log. -/
abbrev LogEntry := Event World (Instruction × List Transfer)

/-- The worlds the program can reach. -/
def Reachable (w : World) : Prop := ∃ start log, Genesis start ∧ Run Step start log w

theorem Reachable.step {w w' : World} {label : Instruction × List Transfer} (h : Reachable w)
    (hs : Step w label w') : Reachable w' := by
  obtain ⟨start, log, hstart, hrun⟩ := h
  exact ⟨start, _, hstart, hrun.snoc hs⟩

theorem Reachable.run {w w' : World} {log : List LogEntry} (h : Reachable w)
    (hr : Run Step w log w') : Reachable w' := by
  obtain ⟨start, log₀, hstart, hrun⟩ := h
  exact ⟨start, _, hstart, hrun.append hr⟩

/-- What holds at genesis and is kept by every step of a reachable world holds of every reachable
world. -/
theorem Reachable.induct {I : World → Prop} (hgenesis : ∀ w, Genesis w → I w)
    (hstep : ∀ w label w', Reachable w → Step w label w' → I w → I w') {w : World}
    (h : Reachable w) : I w := by
  obtain ⟨start, log, hstart, hrun⟩ := h
  have hboth : Reachable w ∧ I w :=
    hrun.invariant (I := fun w => Reachable w ∧ I w)
      (fun w label w' hs hw => ⟨hw.1.step hs, hstep w label w' hw.1 hs hw.2⟩)
      ⟨⟨start, [], hstart, .refl⟩, hgenesis start hstart⟩
  exact hboth.2

/-- An instruction that succeeds is a step. -/
theorem Step.of_toOption {w w' : World} {i : Instruction} {ts : List Transfer}
    (h : (execute w i).toOption = some (w', ts)) : Step w (i, ts) w' := by
  cases hexec : execute w i with
  | error e =>
    rw [hexec] at h
    cases h
  | ok r =>
    rw [hexec] at h
    obtain rfl := Option.some.inj h
    exact hexec

/-- The world after a script of instructions, or the initial one when the script fails. -/
def World.after (w : World) (script : List Instruction) : World :=
  ((Run.play execute w script).toOption).getD w

theorem World.run_after (w : World) (script : List Instruction) :
    ∃ log, Run Step w log (w.after script) := by
  unfold World.after
  cases hplay : Run.play execute w script with
  | error e => exact ⟨[], .refl⟩
  | ok w' => exact Run.of_play hplay

/-- The steps of a script are its instructions. -/
theorem World.run_script (w : World) (script : List Instruction) :
    ∃ log : List LogEntry, Run Step w log (w.after script) ∧ ∀ e ∈ log, e.label.1 ∈ script := by
  unfold World.after
  cases hplay : Run.play execute w script with
  | error e => exact ⟨[], .refl, by simp⟩
  | ok w' => exact Run.of_play_mem hplay

/-- Whatever a script does from an initial world is reachable. -/
theorem Genesis.reachable_after {w : World} (h : Genesis w) (script : List Instruction) :
    Reachable (w.after script) := by
  obtain ⟨log, hrun⟩ := w.run_after script
  exact ⟨w, log, h, hrun⟩

/-! ## Donations -/

/-- A donation raises one balance. -/
inductive Credits (key : Pubkey) (amount : ℕ) (acc : TaskAccounts) :
    Custody → TaskAccounts → Prop
  | escrow {escrow : Account TaskEscrow} (loaded : acc.escrow = some escrow) :
      Credits key amount acc (.escrow key) { acc with
        escrow := some { escrow with lamports := escrow.lamports + amount } }
  | tokenEscrow {vault : ℕ} (loaded : acc.tokenEscrow = some vault) :
      Credits key amount acc (.tokenEscrow key) { acc with tokenEscrow := some (vault + amount) }
  | claim {k : Pubkey} {claim : Account TaskClaim} (loaded : acc.claims.lookup k = some claim) :
      Credits key amount acc (.claim key k) { acc with
        claims := acc.claims.insert k { claim with lamports := claim.lamports + amount } }
  | submission {k : Pubkey} {stored : Account TaskSubmission}
      (loaded : acc.submissions.lookup k = some stored) :
      Credits key amount acc (.submission key k) { acc with
        submissions := acc.submissions.insert k
          { stored with lamports := stored.lamports + amount } }
  | bond {k : Pubkey} {bond : Account CompletionBond} (loaded : acc.bonds.lookup k = some bond) :
      Credits key amount acc (.bond key k) { acc with
        bonds := acc.bonds.insert k { bond with lamports := bond.lamports + amount } }
  | bid {k : Pubkey} {bid : Account TaskBid} (loaded : acc.bids.lookup k = some bid) :
      Credits key amount acc (.bid key k) { acc with
        bids := acc.bids.insert k { bid with lamports := bid.lamports + amount } }

theorem Credits.task {key : Pubkey} {amount : ℕ} {acc acc' : TaskAccounts} {target : Custody}
    (h : Credits key amount acc target acc') : acc'.task = acc.task := by
  cases h <;> rfl

/-- The agent ledger after a donation to an agent. -/
def CreditsAgent (agents agents' : Ledger Pubkey (Account AgentRegistration)) : Prop :=
  ∃ k agent amount, agents.lookup k = some agent ∧
    agents' = agents.insert k { agent with lamports := agent.lamports + amount }

theorem creditEntry_spec {α : Type} {s s' : Ledger Pubkey (Account α)} {k : Pubkey} {amount : ℕ}
    (h : creditEntry s k amount = .ok s') :
    ∃ account, s.lookup k = some account ∧
      s' = s.insert k { account with lamports := account.lamports + amount } := by
  simp only [creditEntry, bind_eq_ok, demand_eq_ok, Except.ok.injEq] at h
  obtain ⟨account, haccount, rfl⟩ := h
  exact ⟨account, haccount, rfl⟩

/-- A donation goes to an agent or to an account of a task. -/
theorem donate_spec {w w' : World} {target : Custody} {amount : ℕ}
    (h : donate w target amount = .ok w') :
    (target.task = none ∧ ∃ agents', CreditsAgent w.agents agents' ∧
      w' = { w with agents := agents' }) ∨
    ∃ key acc acc', target.task = some key ∧ w.tasks.lookup key = some acc ∧
      Credits key amount acc target acc' ∧ w' = { w with tasks := w.tasks.insert key acc' } := by
  cases target with
  | agent k =>
    simp only [donate, bind_eq_ok, Except.ok.injEq] at h
    obtain ⟨agents', hcredit, rfl⟩ := h
    obtain ⟨agent, hagent, rfl⟩ := creditEntry_spec hcredit
    exact .inl ⟨rfl, _, ⟨k, agent, amount, hagent, rfl⟩, rfl⟩
  | escrow key =>
    simp only [donate, creditTaskAccounts, bind_eq_ok, demand_eq_ok, Except.ok.injEq] at h
    obtain ⟨acc, hacc, _, ⟨escrow, hescrow, rfl⟩, rfl⟩ := h
    exact .inr ⟨key, acc, _, rfl, hacc, .escrow hescrow, rfl⟩
  | tokenEscrow key =>
    simp only [donate, creditTaskAccounts, bind_eq_ok, demand_eq_ok, Except.ok.injEq] at h
    obtain ⟨acc, hacc, _, ⟨vault, hvault, rfl⟩, rfl⟩ := h
    exact .inr ⟨key, acc, _, rfl, hacc, .tokenEscrow hvault, rfl⟩
  | claim key k =>
    simp only [donate, creditTaskAccounts, bind_eq_ok, demand_eq_ok, Except.ok.injEq] at h
    obtain ⟨acc, hacc, _, ⟨_, hcredit, rfl⟩, rfl⟩ := h
    obtain ⟨claim, hclaim, rfl⟩ := creditEntry_spec hcredit
    exact .inr ⟨key, acc, _, rfl, hacc, .claim hclaim, rfl⟩
  | submission key k =>
    simp only [donate, creditTaskAccounts, bind_eq_ok, demand_eq_ok, Except.ok.injEq] at h
    obtain ⟨acc, hacc, _, ⟨_, hcredit, rfl⟩, rfl⟩ := h
    obtain ⟨stored, hstored, rfl⟩ := creditEntry_spec hcredit
    exact .inr ⟨key, acc, _, rfl, hacc, .submission hstored, rfl⟩
  | bond key k =>
    simp only [donate, creditTaskAccounts, bind_eq_ok, demand_eq_ok, Except.ok.injEq] at h
    obtain ⟨acc, hacc, _, ⟨_, hcredit, rfl⟩, rfl⟩ := h
    obtain ⟨bond, hbond, rfl⟩ := creditEntry_spec hcredit
    exact .inr ⟨key, acc, _, rfl, hacc, .bond hbond, rfl⟩
  | bid key k =>
    simp only [donate, creditTaskAccounts, bind_eq_ok, demand_eq_ok, Except.ok.injEq] at h
    obtain ⟨acc, hacc, _, ⟨_, hcredit, rfl⟩, rfl⟩ := h
    obtain ⟨bid, hbid, rfl⟩ := creditEntry_spec hcredit
    exact .inr ⟨key, acc, _, rfl, hacc, .bid hbid, rfl⟩

/-! ## Administration -/

/-- The settings `initialize_protocol` makes and no instruction changes. -/
structure SameSettings (config config' : ProtocolConfig) : Prop where
  protocolVersion : config'.protocolVersion = config.protocolVersion
  minSupportedVersion : config'.minSupportedVersion = config.minSupportedVersion
  disputeThreshold : config'.disputeThreshold = config.disputeThreshold
  slashPercentage : config'.slashPercentage = config.slashPercentage
  maxClaimDuration : config'.maxClaimDuration = config.maxClaimDuration
  maxDisputeDuration : config'.maxDisputeDuration = config.maxDisputeDuration
  votingPeriod : config'.votingPeriod = config.votingPeriod

theorem SameProtocol.settings {config config' : ProtocolConfig} (h : SameProtocol config config') :
    SameSettings config config' := by
  obtain ⟨_, _, rfl⟩ := h
  exact ⟨rfl, rfl, rfl, rfl, rfl, rfl, rfl⟩

/-- What an administrative instruction keeps. -/
structure Administers (w w' : World) : Prop where
  sys : w'.sys = w.sys
  agents : w'.agents = w.agents
  tasks : w'.tasks = w.tasks
  disputes : w'.disputes = w.disputes
  counterRepairs : w'.counterRepairs = w.counterRepairs
  bidders : w'.bidders = w.bidders
  settings : SameSettings w.config w'.config

theorem AdminOp.run_spec {w w' : World} {signers : List Pubkey} {op : AdminOp}
    (h : op.run w signers = .ok w') : Administers w w' := by
  cases op with
  | updateProtocolFee protocolFeeBps =>
    simp only [AdminOp.run, AgencCoordination.updateProtocolFee, bind_eq_ok,
      Except.ok.injEq] at h
    obtain ⟨_, -, _, -, rfl⟩ := h
    exact ⟨rfl, rfl, rfl, rfl, rfl, rfl, rfl, rfl, rfl, rfl, rfl, rfl, rfl⟩
  | updateTreasury newTreasury =>
    simp only [AdminOp.run, AgencCoordination.updateTreasury, bind_eq_ok,
      Except.ok.injEq] at h
    obtain ⟨_, -, _, -, _, -, rfl⟩ := h
    exact ⟨rfl, rfl, rfl, rfl, rfl, rfl, rfl, rfl, rfl, rfl, rfl, rfl, rfl⟩
  | updateLaunchControls paused mask revision =>
    simp only [AdminOp.run, AgencCoordination.updateLaunchControls, bind_eq_ok,
      Except.ok.injEq] at h
    obtain ⟨_, -, _, -, rfl⟩ := h
    exact ⟨rfl, rfl, rfl, rfl, rfl, rfl, rfl, rfl, rfl, rfl, rfl, rfl, rfl⟩
  | updateRateLimits taskCooldown maxTasks disputeCooldown maxDisputes minStake =>
    simp only [AdminOp.run, AgencCoordination.updateRateLimits, bind_eq_ok,
      Except.ok.injEq] at h
    obtain ⟨_, -, _, -, _, -, _, -, _, -, rfl⟩ := h
    exact ⟨rfl, rfl, rfl, rfl, rfl, rfl, rfl, rfl, rfl, rfl, rfl, rfl, rfl⟩
  | configureTaskCreationQuota taskAuthority maxTasks enabled =>
    simp only [AdminOp.run, AgencCoordination.configureTaskCreationQuota, bind_eq_ok,
      Except.ok.injEq] at h
    obtain ⟨_, -, _, -, _, -, _, -, _, -, rfl⟩ := h
    exact ⟨rfl, rfl, rfl, rfl, rfl, rfl, rfl, rfl, rfl, rfl, rfl, rfl, rfl⟩
  | initializeBidMarketplace config =>
    simp only [AdminOp.run, AgencCoordination.initializeBidMarketplace, bind_eq_ok,
      Except.ok.injEq] at h
    obtain ⟨_, -, _, -, _, -, _, -, rfl⟩ := h
    exact ⟨rfl, rfl, rfl, rfl, rfl, rfl, rfl, rfl, rfl, rfl, rfl, rfl, rfl⟩
  | updateBidMarketplaceConfig config =>
    simp only [AdminOp.run, AgencCoordination.updateBidMarketplaceConfig, bind_eq_ok,
      Except.ok.injEq] at h
    obtain ⟨_, -, _, -, _, -, _, -, rfl⟩ := h
    exact ⟨rfl, rfl, rfl, rfl, rfl, rfl, rfl, rfl, rfl, rfl, rfl, rfl, rfl⟩
  | assignDisputeResolver resolver =>
    simp only [AdminOp.run, AgencCoordination.assignDisputeResolver, bind_eq_ok,
      Except.ok.injEq] at h
    obtain ⟨_, -, _, -, rfl⟩ := h
    exact ⟨rfl, rfl, rfl, rfl, rfl, rfl, rfl, rfl, rfl, rfl, rfl, rfl, rfl⟩
  | revokeDisputeResolver resolver =>
    simp only [AdminOp.run, AgencCoordination.revokeDisputeResolver, bind_eq_ok,
      Except.ok.injEq] at h
    obtain ⟨_, -, _, -, rfl⟩ := h
    exact ⟨rfl, rfl, rfl, rfl, rfl, rfl, rfl, rfl, rfl, rfl, rfl, rfl, rfl⟩

/-! ## Agents -/

/-- The record of a newly registered agent: nothing is outstanding, and its account holds the
rent and its stake. -/
structure FreshAgent (rent : Rent) (agent : Account AgentRegistration) : Prop where
  funded : rent.minimumBalance agentRegistrationSize + agent.data.stake ≤ agent.lamports
  active : agent.data.activeTasks = 0
  votes : agent.data.activeDisputeVotes = 0
  asDefendant : agent.data.disputesAsDefendant = 0
  present : agent.data.retired = false

/-- What no update of an agent's record changes. -/
structure SameAgent (agent agent' : Account AgentRegistration) : Prop where
  lamports : agent'.lamports = agent.lamports
  stake : agent'.data.stake = agent.data.stake
  authority : agent'.data.authority = agent.data.authority
  activeTasks : agent'.data.activeTasks = agent.data.activeTasks
  votes : agent'.data.activeDisputeVotes = agent.data.activeDisputeVotes
  asDefendant : agent'.data.disputesAsDefendant = agent.data.disputesAsDefendant

/-- An agent that leaves has nothing outstanding, and takes everything above the rent along. -/
structure Retires (rent : Rent) (agent agent' : Account AgentRegistration) : Prop where
  active : agent.data.activeTasks = 0
  votes : agent.data.activeDisputeVotes = 0
  asDefendant : agent.data.disputesAsDefendant = 0
  lamports : agent'.lamports = rent.minimumBalance agentRegistrationSize
  stake : agent'.data.stake = 0
  authority : agent'.data.authority = agent.data.authority
  activeTasks : agent'.data.activeTasks = agent.data.activeTasks
  sameVotes : agent'.data.activeDisputeVotes = agent.data.activeDisputeVotes
  sameDefendant : agent'.data.disputesAsDefendant = agent.data.disputesAsDefendant

/-- What an instruction on one agent does: it registers, updates or, when it is a deregistration,
retires that agent. -/
def WritesAgent (w : World) (key : Pubkey) (op : AgentOp) (w' : World) : Prop :=
  ∃ agent' totalAgents,
    (w.agents.lookup key = none ∧ FreshAgent w.sys.rent agent' ∨
      ∃ agent, w.agents.lookup key = some agent ∧
        (SameAgent agent agent' ∨
          (∃ signer reputationStake, op = .deregisterAgent signer reputationStake) ∧
            Retires w.sys.rent agent agent')) ∧
    w' = { w with
      agents := w.agents.insert key agent'
      config := { w.config with totalAgents := totalAgents } }

theorem registerAgent_spec {w w' : World} {key authority : Pubkey} {capabilities : BitVec 64}
    {stakeAmount prefunded : ℕ}
    (op : AgentOp) (h : registerAgent w key authority capabilities stakeAmount prefunded = .ok w') :
    WritesAgent w key op w' := by
  simp only [registerAgent, bind_eq_ok, require_eq_ok, addU64_eq_ok, Except.ok.injEq] at h
  obtain ⟨_, hnew, _, -, _, -, _, -, _, -, rfl⟩ := h
  refine ⟨_, _, .inl ⟨hnew, ?_⟩, rfl⟩
  exact ⟨Nat.add_le_add_right (le_max_left _ _) _, rfl, rfl, rfl, rfl⟩

theorem updateAgent_spec {w w' : World} {key signer : Pubkey}
    {capabilities : Option (BitVec 64)} {status : Option AgentStatus}
    (op : AgentOp) (h : updateAgent w key signer capabilities status = .ok w') : WritesAgent w key op w' := by
  simp only [updateAgent, bind_eq_ok, demand_eq_ok, Except.ok.injEq] at h
  obtain ⟨agent, hagent, _, -, _, -, _, -, _, -, h⟩ := h
  obtain ⟨_, -, _, -, _, -, _, -, rfl⟩ := h
  refine ⟨_, w.config.totalAgents, .inr ⟨agent, hagent, .inl ?_⟩, rfl⟩
  exact ⟨rfl, rfl, rfl, rfl, rfl, rfl⟩

theorem suspendAgent_spec {w w' : World} {key signer : Pubkey} {signers : List Pubkey}
    (op : AgentOp) (h : suspendAgent w key signer signers = .ok w') : WritesAgent w key op w' := by
  simp only [suspendAgent, bind_eq_ok, demand_eq_ok, Except.ok.injEq] at h
  obtain ⟨_, -, _, -, agent, hagent, _, -, _, -, rfl⟩ := h
  refine ⟨_, w.config.totalAgents, .inr ⟨agent, hagent, .inl ?_⟩, rfl⟩
  exact ⟨rfl, rfl, rfl, rfl, rfl, rfl⟩

theorem unsuspendAgent_spec {w w' : World} {key signer : Pubkey} {signers : List Pubkey}
    (op : AgentOp) (h : unsuspendAgent w key signer signers = .ok w') : WritesAgent w key op w' := by
  simp only [unsuspendAgent, bind_eq_ok, demand_eq_ok, Except.ok.injEq] at h
  obtain ⟨_, -, _, -, agent, hagent, _, -, _, -, rfl⟩ := h
  refine ⟨_, w.config.totalAgents, .inr ⟨agent, hagent, .inl ?_⟩, rfl⟩
  exact ⟨rfl, rfl, rfl, rfl, rfl, rfl⟩

theorem touchAgent_spec {w w' : World} {key : Pubkey} {reputation : ℕ} {lastVoteTimestamp : ℤ}
    (op : AgentOp) (h : touchAgent w key reputation lastVoteTimestamp = .ok w') : WritesAgent w key op w' := by
  simp only [touchAgent, bind_eq_ok, demand_eq_ok, Except.ok.injEq] at h
  obtain ⟨agent, hagent, rfl⟩ := h
  refine ⟨_, w.config.totalAgents, .inr ⟨agent, hagent, .inl ?_⟩, rfl⟩
  exact ⟨rfl, rfl, rfl, rfl, rfl, rfl⟩

/-- Deregistration: the balance above the rent covers the stake and goes to the wallet. -/
theorem deregisterAgent_spec {w w' : World} {key signer : Pubkey} {reputationStake : ℕ}
    {ts : List Transfer} (h : deregisterAgent w key signer reputationStake = .ok (w', ts)) :
    ∃ agent agent' totalAgents, w.agents.lookup key = some agent ∧
      Retires w.sys.rent agent agent' ∧
      ((w.bidders.lookup key).map BidderMarketState.activeBidCount).getD 0 = 0 ∧
      (0 < agent.data.lastVoteTimestamp →
        86400 < w.sys.now - agent.data.lastVoteTimestamp) ∧
      ts = [⟨.agent key, signer, .closingBalance,
        agent.lamports - w.sys.rent.minimumBalance agentRegistrationSize⟩] ∧
      w' = { w with
        agents := w.agents.insert key agent'
        config := { w.config with totalAgents := totalAgents } } := by
  simp only [deregisterAgent, bind_eq_ok, demand_eq_ok, require_eq_ok, subU_eq_ok,
    checkedSub_eq_ok, Except.ok.injEq, Prod.mk.injEq] at h
  obtain ⟨agent, hagent, _, -, _, -, _, -, _, hactive, h⟩ := h
  obtain ⟨_, -, _, hdefendant, _, hvotes, _, hrecent, _, hbids, h⟩ := h
  obtain ⟨_, -, refundable, ⟨-, rfl⟩, _, -, rfl, rfl⟩ := h
  refine ⟨agent, _, _, hagent, ?_, hbids, hrecent, rfl, rfl⟩
  exact ⟨hactive, hvotes, hdefendant, rfl, rfl, rfl, rfl, rfl, rfl⟩

/-- The payments of an instruction on an agent: only a leaving agent is paid. -/
theorem AgentOp.run_spec {w w' : World} {key : Pubkey} {op : AgentOp} {ts : List Transfer}
    (h : op.run w key = .ok (w', ts)) :
    WritesAgent w key op w' ∧ ∀ t ∈ ts, t.source = .agent key ∧ t.purpose = .closingBalance := by
  cases op with
  | registerAgent authority capabilities stakeAmount prefunded =>
    simp only [AgentOp.run, bind_eq_ok, Except.ok.injEq, Prod.mk.injEq] at h
    obtain ⟨_, h, rfl, rfl⟩ := h
    exact ⟨registerAgent_spec _ h, by simp⟩
  | updateAgent signer capabilities status =>
    simp only [AgentOp.run, bind_eq_ok, Except.ok.injEq, Prod.mk.injEq] at h
    obtain ⟨_, h, rfl, rfl⟩ := h
    exact ⟨updateAgent_spec _ h, by simp⟩
  | suspendAgent signer signers =>
    simp only [AgentOp.run, bind_eq_ok, Except.ok.injEq, Prod.mk.injEq] at h
    obtain ⟨_, h, rfl, rfl⟩ := h
    exact ⟨suspendAgent_spec _ h, by simp⟩
  | unsuspendAgent signer signers =>
    simp only [AgentOp.run, bind_eq_ok, Except.ok.injEq, Prod.mk.injEq] at h
    obtain ⟨_, h, rfl, rfl⟩ := h
    exact ⟨unsuspendAgent_spec _ h, by simp⟩
  | deregisterAgent signer reputationStake =>
    have h : AgencCoordination.deregisterAgent w key signer reputationStake = .ok (w', ts) := h
    obtain ⟨agent, agent', totalAgents, hagent, hretires, -, -, rfl, rfl⟩ := deregisterAgent_spec h
    exact ⟨⟨agent', totalAgents, .inr ⟨agent, hagent, .inr ⟨⟨_, _, rfl⟩, hretires⟩⟩, rfl⟩,
      by simp⟩
  | touchAgent reputation lastVoteTimestamp =>
    simp only [AgentOp.run, bind_eq_ok, Except.ok.injEq, Prod.mk.injEq] at h
    obtain ⟨_, h, rfl, rfl⟩ := h
    exact ⟨touchAgent_spec _ h, by simp⟩

theorem CreateOp.run_spec {w w' : World} {key creator : Pubkey} {useQuota : Bool}
    {pre : Prefunding} {op : CreateOp} (h : op.run w key creator useQuota pre = .ok w') :
    Creates w key w' := by
  cases op with
  | createTask creatorAgent params constraintHash referrer referrerFeeBps =>
    exact createTask_spec h
  | createDependentTask creatorAgent parent params constraintHash dependencyType =>
    exact createDependentTask_spec h
  | createTaskHumanless params reviewWindowSecs referrer referrerFeeBps =>
    exact createTaskHumanless_spec h
  | hireFromListing creatorAgent listing taskId specHash price version referrer referrerFeeBps =>
    exact hireFromListing_spec h
  | hireFromListingHumanless listing taskId specHash price version reviewWindowSecs referrer
      referrerFeeBps =>
    exact hireFromListingHumanless_spec h

/-! ## Every instruction -/

/-- What one instruction does, handler by handler. -/
inductive Does (w : World) : Instruction → World → List Transfer → Prop
  | ticked {now : ℤ} (later : w.sys.now ≤ now) :
      Does w (.tick now) { w with sys := { w.sys with now := now } } []
  | donatedAgent {target : Custody} {amount : ℕ}
      {agents' : Ledger Pubkey (Account AgentRegistration)} (outside : target.task = none)
      (credits : CreditsAgent w.agents agents') :
      Does w (.donate target amount) { w with agents := agents' } []
  | donatedTask {key : Pubkey} {target : Custody} {amount : ℕ} {acc acc' : TaskAccounts}
      (inside : target.task = some key) (loaded : w.tasks.lookup key = some acc)
      (credits : Credits key amount acc target acc') :
      Does w (.donate target amount) { w with tasks := w.tasks.insert key acc' } []
  | administered {signers : List Pubkey} {op : AdminOp} {w' : World}
      (ran : op.run w signers = .ok w') : Does w (.admin signers op) w' []
  | agent {key : Pubkey} {op : AgentOp} {w' : World} {ts : List Transfer}
      (ran : op.run w key = .ok (w', ts)) : Does w (.agent key op) w' ts
  | created {key creator : Pubkey} {useQuota : Bool} {pre : Prefunding} {op : CreateOp}
      {w' : World} (ran : op.run w key creator useQuota pre = .ok w') :
      Does w (.create key creator useQuota pre op) w' []
  | task {key : Pubkey} {op : TaskOp} {acc : TaskAccounts} {c : TaskContext}
      (loaded : w.tasks.lookup key = some acc) (ran : op.run (w.taskContext key acc) = .ok c) :
      Does w (.task key op) (w.storeTask c) c.paid
  | work {key k : Pubkey} {op : WorkOp} {acc : TaskAccounts}
      {agent : Account AgentRegistration} {c : TaskContext}
      (loaded : w.tasks.lookup key = some acc) (found : w.agents.lookup k = some agent)
      (ran : op.run w (w.workContext key acc k agent) = .ok c)
      (rent : World.rentRule w.sys c.accounts = .ok ()) :
      Does w (.work key k op) (w.storeWork c) c.paid
  | cancelled {key signer : Pubkey} {workers : List Pubkey} {workerBondAuthority : Pubkey}
      {withParent : Bool} {acc : TaskAccounts} {base c : TaskContext}
      {agents' : Ledger Pubkey (Account AgentRegistration)}
      (loaded : w.tasks.lookup key = some acc)
      (listed : workers = [] ∧ base = w.taskContext key acc ∨
        ∃ first rest worker, workers = first :: rest ∧ w.agents.lookup first = some worker ∧
          base = w.workContext key acc first worker)
      (ran : cancelTask base w.agents signer workers workerBondAuthority withParent
        = .ok (c, agents')) :
      Does w (.cancelTask key signer workers workerBondAuthority withParent)
        (({ w with agents := agents' }.storeBidder base.workerKey c.bidder).storeTask c) c.paid
  | closed {key signer : Pubkey} {withJobSpec withEscrow : Bool} {workerBond : Option Pubkey}
      {children : List TaskChild} {acc : TaskAccounts} {c : TaskContext}
      (loaded : w.tasks.lookup key = some acc)
      (ran : closeTask (w.taskContext key acc) w.agents signer withJobSpec withEscrow workerBond
        children = .ok c) :
      Does w (.closeTask key signer withJobSpec withEscrow workerBond children) (w.storeTask c)
        c.paid
  | disputed {key signer : Pubkey} {filing : DisputeFiling} {w' : World}
      (ran : initiateDispute w key signer filing = .ok w') :
      Does w (.initiateDispute key signer filing) w' []
  | ruled {key disputeKey k : Pubkey} {op : DisputeOp} {acc : TaskAccounts}
      {agent : Account AgentRegistration} {d d' : Dispute} {c : TaskContext}
      (loaded : w.tasks.lookup key = some acc) (found : w.agents.lookup k = some agent)
      (filed : w.disputes.lookup disputeKey = some d) (about : d.task = key)
      (ran : op.run w (w.workContext key acc k agent) d = .ok (c, d'))
      (rent : World.rentRule w.sys c.accounts = .ok ()) :
      Does w (.dispute key disputeKey k op)
        { w.storeWork c with disputes := w.disputes.insert disputeKey d' } c.paid
  | finalized {disputeKey agentKey : Pubkey} {w' : World} {ts : List Transfer}
      (ran : applyInitiatorSlash w disputeKey agentKey = .ok (w', ts)) :
      Does w (.applyInitiatorSlash disputeKey agentKey) w' ts
  | repaired {signer : Pubkey} {signers : List Pubkey} {incidentKey pendingKey agentKey : Pubkey}
      {signature : Hash} {w' : World}
      (ran : repairDisputeInitiatorCounter w signer signers incidentKey pendingKey agentKey
        signature = .ok w') :
      Does w (.repairDisputeInitiatorCounter signer signers incidentKey pendingKey agentKey
        signature) w' []

theorem executeCancel_does {w w' : World} {key signer : Pubkey} {workers : List Pubkey}
    {workerBondAuthority : Pubkey} {withParent : Bool} {ts : List Transfer}
    (h : executeCancel w key signer workers workerBondAuthority withParent = .ok (w', ts)) :
    Does w (.cancelTask key signer workers workerBondAuthority withParent) w' ts := by
  cases workers with
  | nil =>
    simp only [executeCancel, bind_eq_ok, demand_eq_ok, Except.ok.injEq] at h
    obtain ⟨acc, hacc, base, rfl, ⟨c, agents'⟩, hrun, h⟩ := h
    obtain ⟨rfl, rfl⟩ := Prod.mk.inj h
    exact .cancelled hacc (.inl ⟨rfl, rfl⟩) hrun
  | cons first rest =>
    simp only [executeCancel, bind_eq_ok, demand_eq_ok, Except.ok.injEq] at h
    obtain ⟨acc, hacc, worker, hworker, base, rfl, ⟨c, agents'⟩, hrun, h⟩ := h
    obtain ⟨rfl, rfl⟩ := Prod.mk.inj h
    exact .cancelled hacc (.inr ⟨first, rest, worker, rfl, hworker, rfl⟩) hrun

theorem executeDispute_does {w w' : World} {key disputeKey k : Pubkey} {op : DisputeOp}
    {ts : List Transfer} (h : executeDispute w key disputeKey k op = .ok (w', ts)) :
    Does w (.dispute key disputeKey k op) w' ts := by
  simp only [executeDispute, bind_eq_ok, demand_eq_ok, require_eq_ok] at h
  obtain ⟨acc, hacc, agent, hagent, d, hd, _, htask, ⟨c, d'⟩, hrun, _, hrent, h⟩ := h
  obtain ⟨rfl, rfl⟩ := Prod.mk.inj (Except.ok.inj h)
  exact .ruled hacc hagent hd htask hrun hrent

/-- Every step is one of these. -/
theorem Step.does {w w' : World} {i : Instruction} {ts : List Transfer}
    (h : Step w (i, ts) w') : Does w i w' ts := by
  have h : execute w i = .ok (w', ts) := h
  cases i with
  | tick now =>
    simp only [execute, bind_eq_ok, require_eq_ok, Except.ok.injEq, Prod.mk.injEq] at h
    obtain ⟨_, hlater, rfl, rfl⟩ := h
    exact .ticked hlater
  | donate target amount =>
    simp only [execute, bind_eq_ok, Except.ok.injEq, Prod.mk.injEq] at h
    obtain ⟨_, hdonate, rfl, rfl⟩ := h
    rcases donate_spec hdonate with ⟨htarget, agents', hcredit, rfl⟩ |
      ⟨key, acc, acc', htarget, hacc, hcredit, rfl⟩
    · exact .donatedAgent htarget hcredit
    · exact .donatedTask htarget hacc hcredit
  | admin signers op =>
    simp only [execute, bind_eq_ok, Except.ok.injEq, Prod.mk.injEq] at h
    obtain ⟨_, hrun, rfl, rfl⟩ := h
    exact .administered hrun
  | agent key op => exact .agent h
  | create key creator useQuota pre op =>
    simp only [execute, bind_eq_ok, Except.ok.injEq, Prod.mk.injEq] at h
    obtain ⟨_, hrun, rfl, rfl⟩ := h
    exact .created hrun
  | task key op =>
    simp only [execute, executeTask, bind_eq_ok, demand_eq_ok, Except.ok.injEq,
      Prod.mk.injEq] at h
    obtain ⟨acc, hacc, c, hrun, rfl, rfl⟩ := h
    exact .task hacc hrun
  | work key k op =>
    simp only [execute, executeWork, bind_eq_ok, demand_eq_ok, Except.ok.injEq,
      Prod.mk.injEq] at h
    obtain ⟨acc, hacc, agent, hagent, c, hrun, _, hrent, rfl, rfl⟩ := h
    exact .work hacc hagent hrun hrent
  | cancelTask key signer workers workerBondAuthority withParent => exact executeCancel_does h
  | closeTask key signer withJobSpec withEscrow workerBond children =>
    simp only [execute, executeClose, bind_eq_ok, demand_eq_ok, Except.ok.injEq,
      Prod.mk.injEq] at h
    obtain ⟨acc, hacc, c, hrun, rfl, rfl⟩ := h
    exact .closed hacc hrun
  | initiateDispute key signer filing =>
    simp only [execute, bind_eq_ok, Except.ok.injEq, Prod.mk.injEq] at h
    obtain ⟨_, hrun, rfl, rfl⟩ := h
    exact .disputed hrun
  | dispute key disputeKey k op => exact executeDispute_does h
  | applyInitiatorSlash disputeKey agentKey => exact .finalized h
  | repairDisputeInitiatorCounter signer signers incidentKey pendingKey agentKey signature =>
    simp only [execute, bind_eq_ok, Except.ok.injEq, Prod.mk.injEq] at h
    obtain ⟨_, hrun, rfl, rfl⟩ := h
    exact .repaired hrun

/-! ## What storing a context writes -/

namespace World

variable {w : World} {c : TaskContext} {key : Pubkey} {bidder : Option BidderMarketState}

@[simp] theorem storeBidder_sys : (w.storeBidder key bidder).sys = w.sys := by
  cases bidder <;> rfl

@[simp] theorem storeBidder_config : (w.storeBidder key bidder).config = w.config := by
  cases bidder <;> rfl

@[simp] theorem storeBidder_counterRepairs :
    (w.storeBidder key bidder).counterRepairs = w.counterRepairs := by
  cases bidder <;> rfl

@[simp] theorem storeBidder_agents : (w.storeBidder key bidder).agents = w.agents := by
  cases bidder <;> rfl

@[simp] theorem storeBidder_tasks : (w.storeBidder key bidder).tasks = w.tasks := by
  cases bidder <;> rfl

@[simp] theorem storeBidder_disputes : (w.storeBidder key bidder).disputes = w.disputes := by
  cases bidder <;> rfl

@[simp] theorem storeBidder_rateLimits :
    (w.storeBidder key bidder).rateLimits = w.rateLimits := by
  cases bidder <;> rfl

@[simp] theorem storeBidder_quotas : (w.storeBidder key bidder).quotas = w.quotas := by
  cases bidder <;> rfl

@[simp] theorem storeTask_sys : (w.storeTask c).sys = w.sys := rfl

@[simp] theorem storeTask_config : (w.storeTask c).config = c.config := rfl

@[simp] theorem storeTask_agents : (w.storeTask c).agents = w.agents := rfl

@[simp] theorem storeTask_tasks : (w.storeTask c).tasks = w.tasks.insert c.key c.accounts := rfl

@[simp] theorem storeTask_disputes : (w.storeTask c).disputes = w.disputes := rfl

@[simp] theorem storeTask_bidders : (w.storeTask c).bidders = w.bidders := rfl

@[simp] theorem storeTask_rateLimits : (w.storeTask c).rateLimits = w.rateLimits := rfl

@[simp] theorem storeTask_quotas : (w.storeTask c).quotas = w.quotas := rfl

@[simp] theorem storeWork_sys : (w.storeWork c).sys = w.sys := by simp [storeWork]

@[simp] theorem storeWork_counterRepairs : (w.storeWork c).counterRepairs = w.counterRepairs := by
  show (World.storeBidder _ _ _).counterRepairs = _
  rw [storeBidder_counterRepairs]

@[simp] theorem storeWork_config : (w.storeWork c).config = c.config := rfl

@[simp] theorem storeWork_agents :
    (w.storeWork c).agents = w.agents.insert c.workerKey c.worker := by simp [storeWork]

@[simp] theorem storeWork_tasks : (w.storeWork c).tasks = w.tasks.insert c.key c.accounts := by
  simp [storeWork]

@[simp] theorem storeWork_disputes : (w.storeWork c).disputes = w.disputes := by simp [storeWork]

@[simp] theorem storeWork_rateLimits : (w.storeWork c).rateLimits = w.rateLimits := by
  simp [storeWork]

@[simp] theorem storeWork_quotas : (w.storeWork c).quotas = w.quotas := by simp [storeWork]

end World

/-! ## One task -/

/-- The ways one instruction changes the accounts of the task `key`. -/
inductive TaskMove (w : World) (key : Pubkey) (acc : TaskAccounts) :
    Instruction → TaskAccounts → List Transfer → Prop
  | donated {target : Custody} {amount : ℕ} {acc' : TaskAccounts}
      (credits : Credits key amount acc target acc') :
      TaskMove w key acc (.donate target amount) acc' []
  | task {op : TaskOp} {c : TaskContext} (ran : op.run (w.taskContext key acc) = .ok c) :
      TaskMove w key acc (.task key op) c.accounts c.paid
  | work {k : Pubkey} {op : WorkOp} {agent : Account AgentRegistration} {c : TaskContext}
      (found : w.agents.lookup k = some agent)
      (ran : op.run w (w.workContext key acc k agent) = .ok c)
      (rent : World.rentRule w.sys c.accounts = .ok ()) :
      TaskMove w key acc (.work key k op) c.accounts c.paid
  | cancelled {signer : Pubkey} {workers : List Pubkey} {workerBondAuthority : Pubkey}
      {withParent : Bool} {base c : TaskContext}
      {agents' : Ledger Pubkey (Account AgentRegistration)}
      (listed : workers = [] ∧ base = w.taskContext key acc ∨
        ∃ first rest worker, workers = first :: rest ∧ w.agents.lookup first = some worker ∧
          base = w.workContext key acc first worker)
      (ran : cancelTask base w.agents signer workers workerBondAuthority withParent
        = .ok (c, agents')) :
      TaskMove w key acc (.cancelTask key signer workers workerBondAuthority withParent)
        c.accounts c.paid
  | closed {signer : Pubkey} {withJobSpec withEscrow : Bool} {workerBond : Option Pubkey}
      {children : List TaskChild} {c : TaskContext}
      (ran : closeTask (w.taskContext key acc) w.agents signer withJobSpec withEscrow workerBond
        children = .ok c) :
      TaskMove w key acc (.closeTask key signer withJobSpec withEscrow workerBond children)
        c.accounts c.paid
  | disputed {signer : Pubkey} {filing : DisputeFiling} {w' : World}
      (opens : OpensDispute w key signer filing w') :
      TaskMove w key acc (.initiateDispute key signer filing)
        { acc with task := { acc.task with status := .Disputed } } []
  | ruled {disputeKey k : Pubkey} {op : DisputeOp} {agent : Account AgentRegistration}
      {d d' : Dispute} {c : TaskContext} (found : w.agents.lookup k = some agent)
      (filed : w.disputes.lookup disputeKey = some d) (about : d.task = key)
      (ran : op.run w (w.workContext key acc k agent) d = .ok (c, d'))
      (rent : World.rentRule w.sys c.accounts = .ok ()) :
      TaskMove w key acc (.dispute key disputeKey k op) c.accounts c.paid

/-- The context a cancellation starts from has the accounts of its task. -/
theorem listed_context {w : World} {key : Pubkey} {acc : TaskAccounts} {workers : List Pubkey}
    {base : TaskContext}
    (h : workers = [] ∧ base = w.taskContext key acc ∨
      ∃ first rest worker, workers = first :: rest ∧ w.agents.lookup first = some worker ∧
        base = w.workContext key acc first worker) :
    base.key = key ∧ base.accounts = acc ∧ base.sys = w.sys ∧ base.config = w.config ∧
      base.paid = [] ∧ base.parent = w.parentStatus acc := by
  rcases h with ⟨-, rfl⟩ | ⟨_, _, _, -, -, rfl⟩
  · exact ⟨rfl, rfl, rfl, rfl, rfl, rfl⟩
  · exact ⟨rfl, rfl, rfl, rfl, rfl, rfl⟩

/-- No instruction changes the terms of a task. -/
theorem TaskMove.terms {w : World} {key : Pubkey} {acc acc' : TaskAccounts} {i : Instruction}
    {ts : List Transfer} (h : TaskMove w key acc i acc' ts) : SameTerms acc.task acc'.task := by
  cases h with
  | donated credits =>
    rw [credits.task]
    exact .refl _
  | task ran => exact (TaskOp.run_frames ran).terms
  | work found ran rent => exact (WorkOp.run_frames ran).terms
  | cancelled listed ran =>
    have hterms := (cancelTask_frames ran).terms
    rw [(listed_context listed).2.1] at hterms
    exact hterms
  | closed ran => exact (closeTask_frames ran).terms
  | disputed opens => exact .of_eq rfl rfl rfl
  | ruled found filed about ran rent => exact (DisputeOp.run_frames ran).1.terms

/-- How a step looks from the task `key`: it leaves the task alone and pays nothing out of it, or
creates it, or moves it. -/
inductive SeenFrom (w : World) (key : Pubkey) (i : Instruction) (w' : World)
    (ts : List Transfer) : Prop
  | apart (same : w'.tasks.lookup key = w.tasks.lookup key)
      (unpaid : ∀ t ∈ ts, t.source.task ≠ some key)
  | created (new : w.tasks.lookup key = none) {acc' : TaskAccounts}
      (stored : w'.tasks.lookup key = some acc') (fresh : FreshAccounts w acc')
      (unpaid : ts = [])
      (ran : ∃ creator useQuota pre op, i = .create key creator useQuota pre op ∧
        op.run w key creator useQuota pre = .ok w')
  | moved {acc acc' : TaskAccounts} (loaded : w.tasks.lookup key = some acc)
      (stored : w'.tasks.lookup key = some acc') (move : TaskMove w key acc i acc' ts)

/-- Writing the accounts of the task `key'`, seen from the task `key`. -/
theorem SeenFrom.of_insert {w w' : World} {key key' : Pubkey} {i : Instruction}
    {acc acc' : TaskAccounts} {ts : List Transfer} (hw' : w'.tasks = w.tasks.insert key' acc')
    (hacc : w.tasks.lookup key' = some acc)
    (hpaid : PaysFrom (Custody.ofTaskOrAgent key') [] ts)
    (hmove : TaskMove w key' acc i acc' ts) : SeenFrom w key i w' ts := by
  by_cases hkey : key = key'
  · subst hkey
    exact .moved hacc (by rw [hw', AList.lookup_insert]) hmove
  · refine .apart (by rw [hw', AList.lookup_insert_ne hkey]) fun t ht hsource => ?_
    rcases hpaid.forall_mem t ht with h | h
    · rw [h] at hsource
      exact hkey (Option.some.inj hsource).symm
    · rw [h] at hsource
      cases hsource

/-- Every step, seen from one task. -/
theorem Step.task {w w' : World} {i : Instruction} {ts : List Transfer}
    (h : Step w (i, ts) w') (key : Pubkey) : SeenFrom w key i w' ts := by
  cases h.does with
  | ticked later => exact .apart rfl (by simp)
  | donatedAgent outside credits => exact .apart rfl (by simp)
  | donatedTask inside loaded credits =>
    exact .of_insert rfl loaded (.refl _ _) (.donated credits)
  | administered ran =>
    refine .apart ?_ (by simp)
    rw [(AdminOp.run_spec ran).tasks]
  | agent ran =>
    obtain ⟨⟨_, _, -, rfl⟩, hts⟩ := AgentOp.run_spec ran
    refine .apart rfl fun t ht hsource => ?_
    rw [(hts t ht).1] at hsource
    cases hsource
  | @created key' _ _ _ _ _ ran =>
    have hran := ran
    obtain ⟨hnew, acc, _, _, _, hfresh, rfl⟩ := CreateOp.run_spec ran
    by_cases hkey : key = key'
    · subst hkey
      exact .created hnew (AList.lookup_insert _) hfresh rfl ⟨_, _, _, _, rfl, hran⟩
    · exact .apart (AList.lookup_insert_ne hkey) (by simp)
  | task loaded ran =>
    have hframes := TaskOp.run_frames ran
    refine .of_insert ?_ loaded (hframes.paid.mono fun _ => .inl) (.task ran)
    rw [World.storeTask_tasks, hframes.key]
    rfl
  | work loaded found ran rent =>
    have hframes := WorkOp.run_frames ran
    refine .of_insert ?_ loaded (hframes.paid.mono fun _ => .inl) (.work found ran rent)
    rw [World.storeWork_tasks, hframes.key]
    rfl
  | cancelled loaded listed ran =>
    have hframes := cancelTask_frames ran
    obtain ⟨hkey, -, -, -, hpaid, -⟩ := listed_context listed
    refine .of_insert ?_ loaded ?_ (.cancelled listed ran)
    · rw [World.storeTask_tasks, hframes.key, hkey, World.storeBidder_tasks]
    · rw [← hpaid, ← hkey]
      exact hframes.paid.mono fun _ => .inl
  | closed loaded ran =>
    have hframes := closeTask_frames ran
    refine .of_insert ?_ loaded (hframes.paid.mono fun _ => .inl) (.closed ran)
    rw [World.storeTask_tasks, hframes.key]
    rfl
  | disputed ran =>
    have hopens := initiateDispute_spec ran
    obtain ⟨acc, _, _, _, -, hacc, -, -, -, -, -, -, -, -, -, rfl⟩ := id hopens
    exact .of_insert rfl hacc (.refl _ _) (.disputed hopens)
  | ruled loaded found filed about ran rent =>
    have hframes := (DisputeOp.run_frames ran).1
    refine .of_insert ?_ loaded (DisputeOp.run_paid_weak ran) (.ruled found filed about ran rent)
    change (w.storeWork _).tasks = _
    rw [World.storeWork_tasks, hframes.key]
    rfl
  | finalized ran =>
    obtain ⟨_, _, _, _, -, -, -, -, -, -, -, -, rfl, rfl⟩ := applyInitiatorSlash_spec ran
    exact .apart rfl (by simp [Custody.task])
  | repaired ran =>
    obtain ⟨_, _, -, -, -, -, -, -, rfl⟩ := repairDisputeInitiatorCounter_spec ran
    exact .apart rfl (by simp)

/-- A task that is there stays, on the same terms. -/
theorem Step.terms {w w' : World} {i : Instruction} {ts : List Transfer}
    (h : Step w (i, ts) w') {key : Pubkey} {acc : TaskAccounts}
    (hacc : w.tasks.lookup key = some acc) :
    ∃ acc', w'.tasks.lookup key = some acc' ∧ SameTerms acc.task acc'.task := by
  cases h.task key with
  | apart same unpaid => exact ⟨acc, same.trans hacc, .refl _⟩
  | created new stored fresh unpaid =>
    rw [new] at hacc
    cases hacc
  | moved loaded stored move =>
    obtain rfl := Option.some.inj (hacc.symm.trans loaded)
    exact ⟨_, stored, move.terms⟩

/-! ## Clock, rent and settings -/

/-- Only the clock moves, and only forward. -/
theorem Step.sys {w w' : World} {i : Instruction} {ts : List Transfer}
    (h : Step w (i, ts) w') : ∃ now, w.sys.now ≤ now ∧ w'.sys = { w.sys with now := now } := by
  suffices hsame : w'.sys = w.sys ∨
      ∃ now, w.sys.now ≤ now ∧ w'.sys = { w.sys with now := now } by
    rcases hsame with hsame | hticked
    · exact ⟨w.sys.now, le_rfl, hsame⟩
    · exact hticked
  cases h.does with
  | ticked later => exact .inr ⟨_, later, rfl⟩
  | donatedAgent outside credits => exact .inl rfl
  | donatedTask inside loaded credits => exact .inl rfl
  | administered ran => exact .inl (AdminOp.run_spec ran).sys
  | agent ran =>
    obtain ⟨⟨_, _, -, rfl⟩, -⟩ := AgentOp.run_spec ran
    exact .inl rfl
  | created ran =>
    obtain ⟨-, _, _, _, _, -, rfl⟩ := CreateOp.run_spec ran
    exact .inl rfl
  | task loaded ran => exact .inl rfl
  | work loaded found ran rent => exact .inl World.storeWork_sys
  | cancelled loaded listed ran =>
    left
    rw [World.storeTask_sys, World.storeBidder_sys]
  | closed loaded ran => exact .inl rfl
  | disputed ran =>
    obtain ⟨_, _, _, _, -, -, -, -, -, -, -, -, -, -, -, rfl⟩ := initiateDispute_spec ran
    exact .inl rfl
  | ruled loaded found filed about ran rent =>
    left
    change (w.storeWork _).sys = w.sys
    exact World.storeWork_sys
  | finalized ran =>
    obtain ⟨_, _, _, _, -, -, -, -, -, -, -, -, -, rfl⟩ := applyInitiatorSlash_spec ran
    exact .inl rfl
  | repaired ran =>
    obtain ⟨_, _, -, -, -, -, -, -, rfl⟩ := repairDisputeInitiatorCounter_spec ran
    exact .inl rfl

theorem Step.bidAddress {w w' : World} {i : Instruction} {ts : List Transfer}
    (h : Step w (i, ts) w') : w'.sys.bidAddress = w.sys.bidAddress := by
  obtain ⟨now, -, hsys⟩ := h.sys
  rw [hsys]

/-- What `initialize_protocol` set and no instruction changes stays. -/
theorem Step.settings {w w' : World} {i : Instruction} {ts : List Transfer}
    (h : Step w (i, ts) w') : SameSettings w.config w'.config := by
  have hsame : SameSettings w.config w.config := (SameProtocol.refl _).settings
  cases h.does with
  | ticked later => exact hsame
  | donatedAgent outside credits => exact hsame
  | donatedTask inside loaded credits => exact hsame
  | administered ran => exact (AdminOp.run_spec ran).settings
  | agent ran =>
    obtain ⟨⟨_, _, -, rfl⟩, -⟩ := AgentOp.run_spec ran
    exact ⟨rfl, rfl, rfl, rfl, rfl, rfl, rfl⟩
  | created ran =>
    obtain ⟨-, _, _, _, _, -, rfl⟩ := CreateOp.run_spec ran
    exact ⟨rfl, rfl, rfl, rfl, rfl, rfl, rfl⟩
  | task loaded ran => exact (TaskOp.run_frames ran).config.settings
  | work loaded found ran rent => exact (WorkOp.run_frames ran).config.settings
  | cancelled loaded listed ran =>
    have hconfig := (cancelTask_frames ran).config.settings
    obtain ⟨-, -, -, hbase, -, -⟩ := listed_context listed
    rw [hbase] at hconfig
    exact hconfig
  | closed loaded ran => exact (closeTask_frames ran).config.settings
  | disputed ran =>
    obtain ⟨_, _, _, _, -, -, -, -, -, -, -, -, -, -, -, rfl⟩ := initiateDispute_spec ran
    exact hsame
  | ruled loaded found filed about ran rent => exact (DisputeOp.run_frames ran).1.config.settings
  | finalized ran =>
    obtain ⟨_, _, _, _, -, -, -, -, -, -, -, -, -, rfl⟩ := applyInitiatorSlash_spec ran
    exact hsame
  | repaired ran =>
    obtain ⟨_, _, -, -, -, -, -, -, rfl⟩ := repairDisputeInitiatorCounter_spec ran
    exact hsame

/-- The clock moves forward only, and the rent and the protocol's settings stay. -/
theorem Step.environment {w w' : World} {i : Instruction} {ts : List Transfer}
    (h : Step w (i, ts) w') : w.sys.now ≤ w'.sys.now ∧ w'.sys.rent = w.sys.rent ∧
      SameSettings w.config w'.config := by
  obtain ⟨now, hlater, hsys⟩ := h.sys
  refine ⟨?_, ?_, h.settings⟩
  · rw [hsys]
    exact hlater
  · rw [hsys]

/-! ## Agents and disputes -/

/-- The instructions about a dispute. -/
def Instruction.touchesDispute : Instruction → Bool
  | .initiateDispute _ _ _ | .dispute _ _ _ _ | .applyInitiatorSlash _ _
  | .repairDisputeInitiatorCounter _ _ _ _ _ _ => true
  | _ => false

/-- One step, seen from the agents and the disputes. -/
inductive AgentsMove (w : World) : Instruction → World → List Transfer → Prop
  | same {i : Instruction} {w' : World} {ts : List Transfer} (plain : i.touchesDispute = false)
      (agents : w'.agents = w.agents) (disputes : w'.disputes = w.disputes)
      (unpaid : ∀ t ∈ ts, t.source.task ≠ none) : AgentsMove w i w' ts
  | donated {target : Custody} {amount : ℕ} {w' : World}
      (credits : CreditsAgent w.agents w'.agents) (disputes : w'.disputes = w.disputes) :
      AgentsMove w (.donate target amount) w' []
  | wrote {key : Pubkey} {op : AgentOp} {w' : World} {ts : List Transfer}
      (writes : WritesAgent w key op w')
      (paid : ∀ t ∈ ts, t.source = .agent key ∧ t.purpose = .closingBalance)
      (ran : op.run w key = .ok (w', ts)) : AgentsMove w (.agent key op) w' ts
  | worked {key k : Pubkey} {op : WorkOp} {agent agent' : Account AgentRegistration}
      {w' : World} {ts : List Transfer} (found : w.agents.lookup k = some agent)
      (agents : w'.agents = w.agents.insert k agent') (disputes : w'.disputes = w.disputes)
      (lamports : agent'.lamports = agent.lamports)
      (stake : agent'.data.stake = agent.data.stake)
      (authority : agent'.data.authority = agent.data.authority)
      (votes : agent'.data.activeDisputeVotes = agent.data.activeDisputeVotes)
      (asDefendant : agent'.data.disputesAsDefendant = agent.data.disputesAsDefendant)
      (unpaid : ∀ t ∈ ts, t.source.task ≠ none) : AgentsMove w (.work key k op) w' ts
  | freed {key signer : Pubkey} {workers : List Pubkey} {workerBondAuthority : Pubkey}
      {withParent : Bool} {w' : World} {ts : List Transfer}
      (agents : ∀ k, w'.agents.lookup k = if k ∈ workers then
        (w.agents.lookup k).map fun a => { a with data := { a.data with
          activeTasks := a.data.activeTasks - 1 } } else w.agents.lookup k)
      (disputes : w'.disputes = w.disputes) (unpaid : ∀ t ∈ ts, t.source.task ≠ none) :
      AgentsMove w (.cancelTask key signer workers workerBondAuthority withParent) w' ts
  | opened {key signer : Pubkey} {filing : DisputeFiling} {w' : World}
      (opens : OpensDispute w key signer filing w') :
      AgentsMove w (.initiateDispute key signer filing) w' []
  | ruled {key disputeKey k : Pubkey} {op : DisputeOp} {acc : TaskAccounts}
      {agent : Account AgentRegistration} {d d' : Dispute} {c : TaskContext} {w' : World}
      (loaded : w.tasks.lookup key = some acc) (found : w.agents.lookup k = some agent)
      (filed : w.disputes.lookup disputeKey = some d) (about : d.task = key)
      (ran : op.run w (w.workContext key acc k agent) d = .ok (c, d'))
      (agents : w'.agents = w.agents.insert k c.worker)
      (disputes : w'.disputes = w.disputes.insert disputeKey d')
      (tasks : w'.tasks = w.tasks.insert key c.accounts) :
      AgentsMove w (.dispute key disputeKey k op) w' c.paid
  | finalized {disputeKey agentKey : Pubkey} {w' : World} {ts : List Transfer}
      (ran : applyInitiatorSlash w disputeKey agentKey = .ok (w', ts)) :
      AgentsMove w (.applyInitiatorSlash disputeKey agentKey) w' ts
  | repaired {signer : Pubkey} {signers : List Pubkey} {incidentKey pendingKey agentKey : Pubkey}
      {signature : Hash} {w' : World}
      (ran : repairDisputeInitiatorCounter w signer signers incidentKey pendingKey agentKey
        signature = .ok w') :
      AgentsMove w (.repairDisputeInitiatorCounter signer signers incidentKey pendingKey agentKey
        signature) w' []

theorem PaysFrom.unpaid {key : Pubkey} {ts : List Transfer}
    (h : PaysFrom (Custody.ofTask key) [] ts) : ∀ t ∈ ts, t.source.task ≠ none := by
  intro t ht hsource
  have hof : t.source.task = some key := h.forall_mem t ht
  rw [hof] at hsource
  cases hsource

theorem Step.agents {w w' : World} {i : Instruction} {ts : List Transfer}
    (h : Step w (i, ts) w') : AgentsMove w i w' ts := by
  cases h.does with
  | ticked later => exact .same rfl rfl rfl (by simp)
  | donatedAgent outside credits => exact .donated credits rfl
  | donatedTask inside loaded credits => exact .same rfl rfl rfl (by simp)
  | administered ran =>
    have hadmin := AdminOp.run_spec ran
    exact .same rfl hadmin.agents hadmin.disputes (by simp)
  | agent ran =>
    obtain ⟨hwrites, hpaid⟩ := AgentOp.run_spec ran
    exact .wrote hwrites hpaid ran
  | created ran =>
    obtain ⟨-, _, _, _, _, -, rfl⟩ := CreateOp.run_spec ran
    exact .same rfl rfl rfl (by simp)
  | task loaded ran => exact .same rfl rfl rfl (TaskOp.run_frames ran).paid.unpaid
  | work loaded found ran rent =>
    have hframes := WorkOp.run_frames ran
    refine .worked found ?_ World.storeWork_disputes hframes.lamports hframes.stake
      hframes.authority hframes.votes hframes.asDefendant hframes.paid.unpaid
    rw [World.storeWork_agents, hframes.workerKey]
    rfl
  | cancelled loaded listed ran =>
    have hframes := cancelTask_frames ran
    obtain ⟨-, -, -, -, hpaid, -⟩ := listed_context listed
    obtain ⟨_, _, _, _, _, _, _, _, _, _, _, _, _, -, -, -, -, -, -, -, -, hagents, -⟩ :=
      cancelTask_spec ran
    refine .freed ?_ ?_ ?_
    · rw [World.storeTask_agents, World.storeBidder_agents]
      exact hagents
    · rw [World.storeTask_disputes, World.storeBidder_disputes]
    · have hts := hframes.paid
      rw [hpaid] at hts
      exact hts.unpaid
  | closed loaded ran => exact .same rfl rfl rfl (closeTask_frames ran).paid.unpaid
  | disputed ran => exact .opened (initiateDispute_spec ran)
  | ruled loaded found filed about ran rent =>
    have hframes := (DisputeOp.run_frames ran).1
    refine .ruled loaded found filed about ran ?_ ?_ ?_
    · change (w.storeWork _).agents = _
      rw [World.storeWork_agents, hframes.workerKey]
      rfl
    · rfl
    · change (w.storeWork _).tasks = _
      rw [World.storeWork_tasks, hframes.key]
      rfl
  | finalized ran => exact .finalized ran
  | repaired ran => exact .repaired ran

/-- An agent keeps its account and the wallet it was registered by. -/
theorem Step.authority {w w' : World} {i : Instruction} {ts : List Transfer}
    (h : Step w (i, ts) w') {k : Pubkey} {agent : Account AgentRegistration}
    (hagent : w.agents.lookup k = some agent) :
    ∃ agent', w'.agents.lookup k = some agent' ∧
      agent'.data.authority = agent.data.authority := by
  have hwritten {k₀ : Pubkey} {old new : Account AgentRegistration}
      (hw' : w'.agents = w.agents.insert k₀ new) (hold : w.agents.lookup k₀ = some old)
      (hauthority : new.data.authority = old.data.authority) :
      ∃ agent', w'.agents.lookup k = some agent' ∧
        agent'.data.authority = agent.data.authority := by
    rw [hw', Ledger.lookup_insert_eq_ite]
    split_ifs with hk
    · subst hk
      obtain rfl := Option.some.inj (hagent.symm.trans hold)
      exact ⟨new, rfl, hauthority⟩
    · exact ⟨agent, hagent, rfl⟩
  cases h.agents with
  | same plain agents disputes unpaid => exact ⟨agent, agents ▸ hagent, rfl⟩
  | donated credits disputes =>
    obtain ⟨k₀, old, amount, hold, hw'⟩ := credits
    exact hwritten hw' hold rfl
  | wrote writes paid ran =>
    obtain ⟨agent', totalAgents, hcases, rfl⟩ := writes
    rcases hcases with ⟨hnew, -⟩ | ⟨old, hold, hsame | ⟨-, hretires⟩⟩
    · refine ⟨agent, (AList.lookup_insert_ne ?_).trans hagent, rfl⟩
      rintro rfl
      rw [hagent] at hnew
      cases hnew
    · exact hwritten rfl hold hsame.authority
    · exact hwritten rfl hold hretires.authority
  | worked found agents disputes lamports stake authority votes asDefendant unpaid =>
    exact hwritten agents found authority
  | freed agents disputes unpaid =>
    rw [agents, hagent]
    split_ifs
    · exact ⟨_, rfl, rfl⟩
    · exact ⟨agent, rfl, rfl⟩
  | opened opens =>
    obtain ⟨_, _, _, _, -, -, -, -, -, -, -, -, -, -, hcounts, rfl⟩ := opens
    have hpresent := hcounts.present k
    rw [hagent] at hpresent
    obtain ⟨agent', hagent'⟩ := Option.isSome_iff_exists.mp hpresent
    obtain ⟨-, -, -, hauthority, -⟩ := hcounts.same k agent agent' hagent hagent'
    exact ⟨agent', hagent', hauthority⟩
  | ruled loaded found filed about ran agents disputes tasks =>
    exact hwritten agents found (DisputeOp.run_frames ran).1.authority
  | finalized ran =>
    obtain ⟨_, _, _, _, -, hold, -, -, -, -, -, -, -, rfl⟩ := applyInitiatorSlash_spec ran
    exact hwritten rfl hold rfl
  | repaired ran =>
    obtain ⟨_, _, -, hold, -, -, -, -, rfl⟩ := repairDisputeInitiatorCounter_spec ran
    exact hwritten rfl hold rfl

end AgencCoordination
