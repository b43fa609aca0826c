import AgencCoordination.Effects.Government
import AgencCoordination.Invariants.Governance

/-!
# The elections of a government

A proposal is created once, voted on by wallets, and ends at most once: cancelled by its proposer
while nobody has voted, or decided after its deadline by the rules it was created under.

* **`ElectionSound`** — the tallies of a proposal are those of its votes, and it is executed only
  in its window and when its votes carry it.
* **`GovernmentStep.sound`** — every step keeps that.
* **`elections_sound`** — for every run of the government, with the number of times a proposal is
  created, ended and voted on by a wallet.
-/

namespace AgencCoordination

open Foundations

/-! ## Sound elections -/

/-- The weight a vote adds to the approving side. -/
def GovernanceVote.weightFor (vote : GovernanceVote) : ℕ :=
  if vote.approved then vote.voteWeight else 0

/-- The weight a vote adds to the other side. -/
def GovernanceVote.weightAgainst (vote : GovernanceVote) : ℕ :=
  if vote.approved then 0 else vote.voteWeight

/-- What an executed proposal had: its window, and under its rules the quorum, the voters and the
majority. -/
structure Carried (proposal : Proposal) (rules : ProposalGovernanceRules) : Prop where
  unlocked : proposal.executionAfter ≤ proposal.executedAt
  inTime : proposal.executedAt ≤ proposal.executionAfter + proposalExecutionWindow
  quorum : proposal.quorum ≤ proposal.votesFor + proposal.votesAgainst
  voters : rules.minDistinctVoters ≤ proposal.totalVoters
  majority : (proposal.votesFor + proposal.votesAgainst) * rules.approvalThresholdBps <
    proposal.votesFor * 10000

/-- A proposal whose tallies are those of its votes, under the rules it carries. -/
structure Tallied (account : ProposalAccount) (rules : ProposalGovernanceRules) : Prop where
  snapshot : account.election.proposal.reserved.governanceRules = .ok rules
  validates : rules.validate = .ok ()
  floor : minGovernanceQuorumWeight ≤ account.election.proposal.quorum
  stakes : 3 * rules.minVoterStake ≤ account.election.proposal.quorum
  reachable : account.election.proposal.quorum ≤ 3 * rules.maxVoteWeight
  opened : account.createdAt < account.election.proposal.votingDeadline
  delayed : account.election.proposal.votingDeadline ≤ account.election.proposal.executionAfter
  votesFor : account.election.proposal.votesFor =
    (account.election.votes.map fun entry => entry.2.weightFor).sum
  votesAgainst : account.election.proposal.votesAgainst =
    (account.election.votes.map fun entry => entry.2.weightAgainst).sum
  totalVoters : account.election.proposal.totalVoters = account.election.votes.length
  wallets : (account.election.votes.map Prod.fst).Nodup
  votes : ∀ entry ∈ account.election.votes, 0 < entry.2.voteWeight ∧
    entry.2.voteWeight ≤ rules.maxVoteWeight ∧ account.createdAt ≤ entry.2.votedAt ∧
    entry.2.votedAt < account.election.proposal.votingDeadline

/-- A proposal that is tallied, and that ended as its votes and the clock had it. -/
structure ElectionSound (account : ProposalAccount) (rules : ProposalGovernanceRules) : Prop
    extends Tallied account rules where
  executed : account.election.proposal.status = .Executed →
    Carried account.election.proposal rules
  defeated : account.election.proposal.status = .Defeated →
    account.election.proposal.votingDeadline ≤ account.election.proposal.executedAt
  cancelled : account.election.proposal.status = .Cancelled → account.election.votes = []

/-- A government whose elections are sound. -/
structure GovernmentSound (g : Government) : Prop where
  configured : ∀ governance, g.governance = some governance →
    0 < governance.votingPeriod ∧ 0 ≤ governance.executionDelay
  elections : ∀ key account, g.proposals.lookup key = some account →
    ∃ rules, ElectionSound account rules
  created : ∀ key account, g.proposals.lookup key = some account →
    account.createdAt ≤ g.world.sys.now
  counted : g.proposals.size = (g.governance.map GovernanceConfig.totalProposals).getD 0

theorem Government.Genesis.sound {g : Government} (h : g.Genesis) : GovernmentSound g := by
  constructor
  · intro governance hgovernance
    rw [h.governance] at hgovernance
    cases hgovernance
  · intro key account haccount
    rw [h.proposals] at haccount
    simp at haccount
  · intro key account haccount
    rw [h.proposals] at haccount
    simp at haccount
  · rw [h.proposals, h.governance]
    rfl

/-! ## Single instructions -/

theorem effectiveVotingPeriod_pos {votingPeriod configured : ℤ} (h : 0 < configured) :
    0 < effectiveVotingPeriod votingPeriod configured := by
  unfold effectiveVotingPeriod
  split_ifs
  · exact lt_of_lt_of_le h (le_max_right _ _)
  · exact h

/-- A new proposal is sound. -/
theorem Opens.sound {g : Government} {key : ProposalKey} {signer : Pubkey}
    {params : ProposalParams} {account : ProposalAccount} {governance' : GovernanceConfig}
    (h : Opens g key signer params account governance') (hg : GovernmentSound g) :
    ∃ rules, ElectionSound account rules := by
  obtain ⟨governance, rules, hgovernance, hrequirements, hpacked, hdeadline, hafter, -⟩ :=
    h.requirements
  obtain ⟨hperiod, hdelay⟩ := hg.configured governance hgovernance
  have hsound := calculateNewProposalRequirements_spec hrequirements
  have hpositive := @effectiveVotingPeriod_pos params.votingPeriod _ hperiod
  have hstatus := h.status
  refine ⟨rules,
    { snapshot := RulesRegion.setGovernanceRules_governanceRules hsound.fits hpacked
      validates := hsound.validates
      floor := hsound.floor
      stakes := hsound.stakes
      reachable := hsound.reachable
      opened := ?_
      delayed := ?_
      votesFor := ?_
      votesAgainst := ?_
      totalVoters := ?_
      wallets := ?_
      votes := ?_
      executed := ?_
      defeated := ?_
      cancelled := fun _ => h.votes }⟩
  · rw [h.createdAt, hdeadline]
    omega
  · rw [hafter]
    omega
  · rw [h.votesFor, h.votes]
    rfl
  · rw [h.votesAgainst, h.votes]
    rfl
  · rw [h.totalVoters, h.votes]
    rfl
  · rw [h.votes]
    exact List.nodup_nil
  · rw [h.votes]
    intro entry hentry
    cases hentry
  · intro hexecuted
    rw [hstatus] at hexecuted
    cases hexecuted
  · intro hdefeated
    rw [hstatus] at hdefeated
    cases hdefeated

/-- A vote keeps an election sound. -/
theorem Casts.sound {account : ProposalAccount} {rules : ProposalGovernanceRules}
    {ballot : Ballot} {vote : GovernanceVote} {election' : Election} {voter' : AgentRegistration}
    (h : Casts account.election ballot vote election' voter') (hs : ElectionSound account rules)
    (hcreated : account.createdAt ≤ ballot.now) :
    ElectionSound { account with election := election' } rules := by
  have hstatus : election'.proposal.status = .Active := by
    rw [h.counted]
    exact h.undecided
  have hbound : vote.voteWeight ≤ rules.maxVoteWeight := by
    obtain ⟨rules', hrules', heligible, hweight⟩ := h.weighs
    obtain rfl := Except.ok.inj (hrules'.symm.trans hs.snapshot)
    have hfits := (RulesRegion.governanceRules_eq_ok.mp hs.snapshot).2.1
    obtain ⟨hreputation, hweight⟩ :=
      (calculateGovernanceVoteWeight_eq_ok hfits.maxVoteWeight).mp hweight
    rw [hweight]
    exact governanceVoteWeight_le hreputation
  refine
    { snapshot := ?_
      validates := hs.validates
      floor := ?_
      stakes := ?_
      reachable := ?_
      opened := ?_
      delayed := ?_
      votesFor := ?_
      votesAgainst := ?_
      totalVoters := ?_
      wallets := ?_
      votes := ?_
      executed := ?_
      defeated := ?_
      cancelled := ?_ }
  · rw [h.counted]
    exact hs.snapshot
  · rw [h.counted]
    exact hs.floor
  · rw [h.counted]
    exact hs.stakes
  · rw [h.counted]
    exact hs.reachable
  · rw [h.counted]
    exact hs.opened
  · rw [h.counted]
    exact hs.delayed
  · rw [h.counted, h.votes, List.map_cons, List.sum_cons, ← hs.votesFor]
    exact Nat.add_comm _ _
  · rw [h.counted, h.votes, List.map_cons, List.sum_cons, ← hs.votesAgainst]
    exact Nat.add_comm _ _
  · rw [h.counted, h.votes, List.length_cons, ← hs.totalVoters]
  · rw [h.votes, List.map_cons, List.nodup_cons]
    exact ⟨h.unvoted, hs.wallets⟩
  · rw [h.counted, h.votes]
    intro entry hentry
    rcases List.mem_cons.mp hentry with rfl | hentry
    · rw [h.votedAt]
      exact ⟨h.positive, hbound, hcreated, h.inTime⟩
    · exact hs.votes entry hentry
  · intro hexecuted
    rw [hstatus] at hexecuted
    cases hexecuted
  · intro hdefeated
    rw [hstatus] at hdefeated
    cases hdefeated
  · intro hcancelled
    rw [hstatus] at hcancelled
    cases hcancelled

/-- The end of an election changes none of its tallies. -/
theorem Tallied.close {account : ProposalAccount} {rules : ProposalGovernanceRules}
    (h : Tallied account rules) (status : ProposalStatus) (executedAt : ℤ) :
    Tallied (account.withProposal
      { account.election.proposal with status := status, executedAt := executedAt }) rules :=
  { snapshot := h.snapshot
    validates := h.validates
    floor := h.floor
    stakes := h.stakes
    reachable := h.reachable
    opened := h.opened
    delayed := h.delayed
    votesFor := h.votesFor
    votesAgainst := h.votesAgainst
    totalVoters := h.totalVoters
    wallets := h.wallets
    votes := h.votes }

/-- A cancelled proposal is sound: nobody had voted. -/
theorem Cancels.sound {now : ℤ} {signer : Pubkey} {account account' : ProposalAccount}
    {rules : ProposalGovernanceRules} (h : Cancels now signer account account')
    (hs : ElectionSound account rules) : ElectionSound account' rules := by
  have hnone : account.election.votes = [] := by
    rw [← List.length_eq_zero_iff, ← hs.totalVoters, h.unvoted]
  rw [h.result]
  refine ⟨hs.toTallied.close .Cancelled now, ?_, ?_, fun _ => hnone⟩
  · intro hexecuted
    cases hexecuted
  · intro hdefeated
    cases hdefeated

/-- A decided proposal is sound: executed when its votes carry it. -/
theorem Decides.sound {now : ℤ} {account : ProposalAccount} {proposal' : Proposal}
    {rules : ProposalGovernanceRules} (h : Decides now account.election.proposal proposal')
    (hs : ElectionSound account rules) : ElectionSound (account.withProposal proposal') rules := by
  rcases h.outcome with ⟨rfl, hpasses⟩ | rfl
  · obtain ⟨rules', hrules', houtcome⟩ := hpasses.outcome
    obtain rfl := Except.ok.inj (hrules'.symm.trans hs.snapshot)
    obtain ⟨-, -, hquorum, hvoters, hmajority⟩ := (outcomeMet_eq_true hs.validates).mp houtcome
    refine ⟨hs.toTallied.close .Executed now, ?_, ?_, ?_⟩
    · intro _
      exact ⟨hpasses.unlocked, hpasses.inTime, hquorum, hvoters, hmajority⟩
    · intro hdefeated
      cases hdefeated
    · intro hcancelled
      cases hcancelled
  · refine ⟨hs.toTallied.close .Defeated now, ?_, fun _ => h.ended, ?_⟩
    · intro hexecuted
      cases hexecuted
    · intro hcancelled
      cases hcancelled

/-! ## Steps -/

/-- The time of a government only moves forward. -/
theorem GovernmentStep.clock {g g' : Government} {i : GovernanceInstruction}
    {payments : GovernancePayments} (h : GovernmentStep g (i, payments) g') :
    g.world.sys.now ≤ g'.world.sys.now := by
  obtain ⟨log, hrun, -⟩ := h.world
  refine hrun.invariant (I := fun w => g.world.sys.now ≤ w.sys.now) ?_ (Int.le_refl _)
  intro w label w' hs hw
  exact Int.le_trans hw hs.environment.1

/-- An instruction on another proposal, or on none, leaves a proposal alone. -/
theorem GovernmentMove.proposals_ne {g g' : Government} {i : GovernanceInstruction}
    {payments : GovernancePayments} (h : GovernmentMove g i g' payments) {key : ProposalKey}
    (hother : ∀ op, i ≠ .proposal key op) :
    g'.proposals.lookup key = g.proposals.lookup key := by
  have hne : ∀ {key' : ProposalKey} {op : ProposalOp} (account : ProposalAccount),
      i = .proposal key' op →
      (g.proposals.insert key' account).lookup key = g.proposals.lookup key := by
    intro key' op account hi
    refine AList.lookup_insert_ne ?_
    rintro rfl
    exact hother op hi
  cases h with
  | core => rfl
  | initialized => rfl
  | created opens => exact hne _ rfl
  | voted loaded agent signs casts => exact hne _ rfl
  | cancelled loaded cancels => exact hne _ rfl
  | decided loaded decides enacts idle => exact hne _ rfl

/-- A step finds a proposal as it was, or creates it, or moves its election. -/
inductive ElectionMove (now : ℤ) : ProposalOp → ProposalAccount → ProposalAccount → Prop
  | voted {voterKey signer : Pubkey} {approve : Bool} {account : ProposalAccount}
      {ballot : Ballot} {vote : GovernanceVote} {election' : Election}
      {voter' : AgentRegistration} (wallet : ballot.voter.authority = signer)
      (time : ballot.now = now) (casts : Casts account.election ballot vote election' voter') :
      ElectionMove now (.voteProposal voterKey signer approve) account
        { account with election := election' }
  | cancelled {signer : Pubkey} {account account' : ProposalAccount}
      (cancels : Cancels now signer account account') :
      ElectionMove now (.cancelProposal signer) account account'
  | decided {accounts : ExecutionAccounts} {account : ProposalAccount} {proposal' : Proposal}
      (decides : Decides now account.election.proposal proposal') :
      ElectionMove now (.executeProposal accounts) account (account.withProposal proposal')

/-- A step, seen from the proposal at `key`. -/
inductive SeenFromProposal (g : Government) (key : ProposalKey) (i : GovernanceInstruction)
    (g' : Government) : Prop
  | apart (other : ∀ op, i ≠ .proposal key op)
      (same : g'.proposals.lookup key = g.proposals.lookup key)
  | created {signer : Pubkey} {params : ProposalParams} {account : ProposalAccount}
      {governance' : GovernanceConfig} (label : i = .proposal key (.createProposal signer params))
      (opens : Opens g key signer params account governance')
      (after : g'.proposals.lookup key = some account)
  | moved {op : ProposalOp} {account account' : ProposalAccount} (label : i = .proposal key op)
      (before : g.proposals.lookup key = some account)
      (moves : ElectionMove g.world.sys.now op account account')
      (after : g'.proposals.lookup key = some account')

theorem GovernmentStep.seen {g g' : Government} {i : GovernanceInstruction}
    {payments : GovernancePayments} (h : GovernmentStep g (i, payments) g') (key : ProposalKey) :
    SeenFromProposal g key i g' := by
  by_cases hother : ∀ op, i ≠ .proposal key op
  · exact .apart hother (h.move.proposals_ne hother)
  · obtain ⟨op, rfl⟩ : ∃ op, i = .proposal key op := by
      by_contra hnone
      exact hother fun op hi => hnone ⟨op, hi⟩
    cases h.move with
    | created opens => exact .created rfl opens (AList.lookup_insert _)
    | voted loaded agent signs casts =>
      exact .moved rfl loaded (.voted signs rfl casts) (AList.lookup_insert _)
    | cancelled loaded cancels =>
      exact .moved rfl loaded (.cancelled cancels) (AList.lookup_insert _)
    | decided loaded decides enacts idle =>
      exact .moved rfl loaded (.decided decides) (AList.lookup_insert _)

theorem ElectionMove.sound {now : ℤ} {op : ProposalOp} {account account' : ProposalAccount}
    {rules : ProposalGovernanceRules} (h : ElectionMove now op account account')
    (hs : ElectionSound account rules) (hcreated : account.createdAt ≤ now) :
    ElectionSound account' rules := by
  cases h with
  | voted wallet time casts => exact casts.sound hs (time ▸ hcreated)
  | cancelled cancels => exact cancels.sound hs
  | decided decides => exact decides.sound hs

/-- What of a proposal is as it was created. -/
def ProposalAccount.terms (account : ProposalAccount) :
    (Pubkey × ProposalType × Hash × Hash × ProposalPayload) × ℤ × ℤ × ℤ × ℕ × RulesRegion :=
  ((account.proposerAuthority, account.proposalType, account.titleHash, account.descriptionHash,
      account.payload),
    account.createdAt, account.election.proposal.votingDeadline,
    account.election.proposal.executionAfter, account.election.proposal.quorum,
    account.election.proposal.reserved)

/-- An election moves while its proposal is active, under the terms it was created with. -/
theorem ElectionMove.terms {now : ℤ} {op : ProposalOp} {account account' : ProposalAccount}
    (h : ElectionMove now op account account') :
    account.election.proposal.status = .Active ∧ account'.terms = account.terms := by
  cases h with
  | voted wallet time casts =>
    refine ⟨casts.undecided, ?_⟩
    unfold ProposalAccount.terms
    rw [casts.counted]
  | cancelled cancels =>
    refine ⟨cancels.undecided, ?_⟩
    rw [cancels.result]
    rfl
  | decided decides =>
    refine ⟨decides.undecided, ?_⟩
    rcases decides.outcome with ⟨rfl, -⟩ | rfl
    · rfl
    · rfl

/-- What the terms of a moved proposal keep. -/
theorem ElectionMove.keeps {now : ℤ} {op : ProposalOp} {account account' : ProposalAccount}
    (h : ElectionMove now op account account') :
    account'.proposalType = account.proposalType ∧ account'.payload = account.payload ∧
    account'.createdAt = account.createdAt ∧
    account'.election.proposal.votingDeadline = account.election.proposal.votingDeadline := by
  obtain ⟨-, hterms⟩ := h.terms
  simp only [ProposalAccount.terms, Prod.mk.injEq] at hterms
  obtain ⟨⟨-, htype, -, -, hpayload⟩, hcreated, hdeadline, -⟩ := hterms
  exact ⟨htype, hpayload, hcreated, hdeadline⟩

theorem initializeGovernance_spec {g : Government} {signer : Pubkey} {params : GovernanceParams}
    {governance : GovernanceConfig} (h : initializeGovernance g signer params = .ok governance) :
    g.governance = none ∧ 0 < governance.votingPeriod ∧ 0 ≤ governance.executionDelay ∧
      governance.totalProposals = 0 := by
  simp only [initializeGovernance, bind_eq_ok, require_eq_ok, Except.ok.injEq] at h
  obtain ⟨_, hnone, _, -, _, hperiod, _, hdelay, _, -, _, -, _, -, rfl⟩ := h
  exact ⟨hnone, hperiod.1, hdelay.1, rfl⟩

/-- A step keeps the configuration in its bounds, and counts the proposals. -/
theorem GovernmentMove.configured {g g' : Government} {i : GovernanceInstruction}
    {payments : GovernancePayments} (h : GovernmentMove g i g' payments)
    (hg : GovernmentSound g) :
    (∀ governance, g'.governance = some governance →
      0 < governance.votingPeriod ∧ 0 ≤ governance.executionDelay) ∧
    g'.proposals.size = (g'.governance.map GovernanceConfig.totalProposals).getD 0 := by
  cases h with
  | core => exact ⟨hg.configured, hg.counted⟩
  | initialized ran =>
    obtain ⟨hnone, hperiod, hdelay, htotal⟩ := initializeGovernance_spec ran
    refine ⟨?_, ?_⟩
    · intro governance hgovernance
      obtain rfl := Option.some.inj hgovernance
      exact ⟨hperiod, hdelay⟩
    · have hcounted := hg.counted
      rw [hnone] at hcounted
      show g.proposals.size = GovernanceConfig.totalProposals _
      rw [htotal]
      exact hcounted
  | created opens =>
    obtain ⟨governance, rules, hgovernance, -, -, -, -, rfl⟩ := opens.requirements
    refine ⟨?_, ?_⟩
    · intro governance' hgovernance'
      obtain rfl := Option.some.inj hgovernance'
      exact hg.configured governance hgovernance
    · have hcounted := hg.counted
      rw [hgovernance] at hcounted
      show Ledger.size (g.proposals.insert _ _) = governance.totalProposals + 1
      rw [Ledger.size_insert_new opens.fresh, hcounted]
      rfl
  | voted loaded =>
    refine ⟨hg.configured, ?_⟩
    show Ledger.size (g.proposals.insert _ _) = _
    rw [Ledger.size_insert_of_lookup loaded]
    exact hg.counted
  | cancelled loaded =>
    refine ⟨hg.configured, ?_⟩
    show Ledger.size (g.proposals.insert _ _) = _
    rw [Ledger.size_insert_of_lookup loaded]
    exact hg.counted
  | decided loaded =>
    refine ⟨hg.configured, ?_⟩
    show Ledger.size (g.proposals.insert _ _) = _
    rw [Ledger.size_insert_of_lookup loaded]
    exact hg.counted

/-- Every step keeps the elections sound. -/
theorem GovernmentStep.sound {g g' : Government}
    {label : GovernanceInstruction × GovernancePayments} (h : GovernmentStep g label g')
    (hg : GovernmentSound g) : GovernmentSound g' := by
  obtain ⟨i, payments⟩ := label
  obtain ⟨hconfigured, hcounted⟩ := h.move.configured hg
  refine ⟨hconfigured, ?_, ?_, hcounted⟩
  · intro key account haccount
    cases h.seen key with
    | apart other same =>
      rw [same] at haccount
      exact hg.elections key account haccount
    | created label opens after =>
      obtain rfl := Option.some.inj (after.symm.trans haccount)
      exact opens.sound hg
    | moved label before moves after =>
      obtain rfl := Option.some.inj (after.symm.trans haccount)
      obtain ⟨rules, hsound⟩ := hg.elections key _ before
      exact ⟨rules, moves.sound hsound (hg.created key _ before)⟩
  · intro key account haccount
    refine Int.le_trans ?_ h.clock
    cases h.seen key with
    | apart other same =>
      rw [same] at haccount
      exact hg.created key account haccount
    | created label opens after =>
      obtain rfl := Option.some.inj (after.symm.trans haccount)
      exact Int.le_of_eq opens.createdAt
    | moved label before moves after =>
      obtain rfl := Option.some.inj (after.symm.trans haccount)
      obtain ⟨-, -, hcreated, -⟩ := moves.keeps
      exact Int.le_trans (Int.le_of_eq hcreated) (hg.created key _ before)

/-! ## Runs -/

/-- The vote of a wallet on a proposal. -/
def voteOf (key : ProposalKey) (wallet : Pubkey) (g : Government) : Option GovernanceVote :=
  (g.proposals.lookup key).bind fun account => account.election.votes.lookup wallet

/-- How a proposal ended. -/
def endOf (key : ProposalKey) (g : Government) : Option ProposalStatus :=
  (g.proposals.lookup key).bind fun account =>
    if account.election.proposal.status = .Active then none
    else some account.election.proposal.status

/-- The terms of a proposal. -/
def termsOf (key : ProposalKey) (g : Government) :
    Option ((Pubkey × ProposalType × Hash × Hash × ProposalPayload) × ℤ × ℤ × ℤ × ℕ ×
      RulesRegion) :=
  (g.proposals.lookup key).map ProposalAccount.terms

/-- The creation of a proposal. -/
def isCreation (key : ProposalKey) (e : GovernmentEntry) : Bool :=
  match e.label.1 with
  | .proposal key' (.createProposal _ _) => decide (key' = key)
  | _ => false

/-- A vote of a wallet on a proposal. -/
def isVoteOf (key : ProposalKey) (wallet : Pubkey) (e : GovernmentEntry) : Bool :=
  match e.label.1 with
  | .proposal key' (.voteProposal _ signer _) => decide (key' = key ∧ signer = wallet)
  | _ => false

/-- The end of a proposal. -/
def isEnding (key : ProposalKey) (e : GovernmentEntry) : Bool :=
  match e.label.1 with
  | .proposal key' (.cancelProposal _) => decide (key' = key)
  | .proposal key' (.executeProposal _) => decide (key' = key)
  | _ => false

/-- A proposal that has ended is not touched again. -/
theorem GovernmentStep.ended {g g' : Government}
    {label : GovernanceInstruction × GovernancePayments} (h : GovernmentStep g label g')
    {key : ProposalKey} {account : ProposalAccount}
    (hbefore : g.proposals.lookup key = some account)
    (hended : account.election.proposal.status ≠ .Active) :
    g'.proposals.lookup key = some account := by
  obtain ⟨i, payments⟩ := label
  cases h.seen key with
  | apart other same =>
    rw [same]
    exact hbefore
  | created label opens after =>
    rw [opens.fresh] at hbefore
    cases hbefore
  | moved label before moves after =>
    obtain rfl := Option.some.inj (before.symm.trans hbefore)
    exact absurd moves.terms.1 hended

section Records

variable {g g' : Government} {i : GovernanceInstruction} {payments : GovernancePayments}

/-- The entry of a step. -/
abbrev entryOf (g : Government) (i : GovernanceInstruction) (payments : GovernancePayments)
    (g' : Government) : GovernmentEntry := ⟨g, (i, payments), g'⟩

/-- An instruction on another proposal is nothing to a proposal. -/
theorem apart_records {key : ProposalKey} (hother : ∀ op, i ≠ .proposal key op)
    (wallet : Pubkey) : isCreation key (entryOf g i payments g') = false ∧
      isVoteOf key wallet (entryOf g i payments g') = false ∧
      isEnding key (entryOf g i payments g') = false := by
  have hne : ∀ {key' : ProposalKey} {op : ProposalOp}, i = .proposal key' op → key' ≠ key := by
    rintro key' op hi rfl
    exact hother op hi
  cases i with
  | core i => exact ⟨rfl, rfl, rfl⟩
  | initializeGovernance signer params => exact ⟨rfl, rfl, rfl⟩
  | proposal key' op =>
    have hkey : key' ≠ key := hne rfl
    cases op with
    | createProposal signer params => exact ⟨decide_eq_false hkey, rfl, rfl⟩
    | voteProposal voter signer approve =>
      exact ⟨rfl, decide_eq_false fun h => hkey h.1, rfl⟩
    | cancelProposal signer => exact ⟨rfl, rfl, decide_eq_false hkey⟩
    | executeProposal accounts => exact ⟨rfl, rfl, decide_eq_false hkey⟩

/-- The terms of a proposal are written by its creation, when there is none. -/
theorem GovernmentStep.writes_terms (h : GovernmentStep g (i, payments) g')
    (key : ProposalKey) :
    termsOf key g' = termsOf key g ∧ isCreation key (entryOf g i payments g') = false ∨
      termsOf key g = none ∧ (termsOf key g').isSome = true ∧
        isCreation key (entryOf g i payments g') = true := by
  unfold termsOf
  cases h.seen key with
  | apart other same => exact .inl ⟨by rw [same], (apart_records other 0).1⟩
  | created label opens after =>
    refine .inr ⟨by rw [opens.fresh]; rfl, by rw [after]; rfl, ?_⟩
    rw [label]
    exact decide_eq_true rfl
  | moved label before moves after =>
    refine .inl ⟨?_, ?_⟩
    · rw [after, before, Option.map_some, Option.map_some, moves.terms.2]
    · rw [label]
      cases moves with
      | voted => rfl
      | cancelled => rfl
      | decided => rfl

/-- The vote of a wallet is written by its vote, when there is none. -/
theorem GovernmentStep.writes_vote (h : GovernmentStep g (i, payments) g') (key : ProposalKey)
    (wallet : Pubkey) :
    voteOf key wallet g' = voteOf key wallet g ∧
        isVoteOf key wallet (entryOf g i payments g') = false ∨
      voteOf key wallet g = none ∧ (voteOf key wallet g').isSome = true ∧
        isVoteOf key wallet (entryOf g i payments g') = true := by
  unfold voteOf
  cases h.seen key with
  | apart other same => exact .inl ⟨by rw [same], (apart_records other wallet).2.1⟩
  | created label opens after =>
    refine .inl ⟨?_, ?_⟩
    · rw [after, opens.fresh, Option.bind_some, opens.votes]
      rfl
    · rw [label]
      rfl
  | moved label before moves after =>
    rw [after, before, label, Option.bind_some, Option.bind_some]
    cases moves with
    | @voted _ signer _ account ballot vote _ _ signs time casts =>
      rw [casts.votes, List.lookup_cons]
      by_cases hwallet : signer = wallet
      · refine .inr ⟨?_, ?_, decide_eq_true ⟨rfl, hwallet⟩⟩
        · rw [List.lookup_eq_none_iff]
          intro entry hentry
          rw [bne_iff_ne]
          intro heq
          refine casts.unvoted (List.mem_map.mpr ⟨entry, hentry, ?_⟩)
          rw [signs, hwallet, heq]
        · rw [signs, hwallet, beq_self_eq_true]
          rfl
      · refine .inl ⟨?_, decide_eq_false fun hvote => hwallet hvote.2⟩
        rw [signs, beq_false_of_ne (Ne.symm hwallet)]
    | cancelled cancels =>
      rw [cancels.result]
      exact .inl ⟨rfl, rfl⟩
    | decided => exact .inl ⟨rfl, rfl⟩

/-- The end of a proposal is written by what ends it, when it has not ended. -/
theorem GovernmentStep.writes_end (h : GovernmentStep g (i, payments) g') (key : ProposalKey) :
    endOf key g' = endOf key g ∧ isEnding key (entryOf g i payments g') = false ∨
      endOf key g = none ∧ (endOf key g').isSome = true ∧
        isEnding key (entryOf g i payments g') = true := by
  unfold endOf
  cases h.seen key with
  | apart other same => exact .inl ⟨by rw [same], (apart_records other 0).2.2⟩
  | created label opens after =>
    refine .inl ⟨?_, ?_⟩
    · rw [after, opens.fresh, Option.bind_some, if_pos opens.status]
      rfl
    · rw [label]
      rfl
  | moved label before moves after =>
    rw [after, before, label, Option.bind_some, Option.bind_some, if_pos moves.terms.1]
    cases moves with
    | voted signs time casts =>
      refine .inl ⟨if_pos ?_, rfl⟩
      rw [casts.counted]
      exact casts.undecided
    | cancelled cancels =>
      rw [cancels.result]
      exact .inr ⟨rfl, rfl, decide_eq_true rfl⟩
    | decided decides =>
      refine .inr ⟨rfl, ?_, decide_eq_true rfl⟩
      rcases decides.outcome with ⟨rfl, -⟩ | rfl
      · rfl
      · rfl

end Records

/-- **Elections.** In every run the tallies of a proposal are those of its votes and it is executed
only in its window and carried by them; it is created once and keeps its terms, a wallet votes on
it at most once and keeps its vote, and it ends at most once and stays ended. -/
theorem elections_sound {start mid g : Government} {log₁ log₂ : List GovernmentEntry}
    (hstart : start.Genesis) (hbefore : Run GovernmentStep start log₁ mid)
    (hafter : Run GovernmentStep mid log₂ g) :
    GovernmentSound g ∧
    (∀ key, (log₁ ++ log₂).countP (isCreation key) =
        if (termsOf key g).isSome = true then 1 else 0) ∧
    (∀ key wallet, (log₁ ++ log₂).countP (isVoteOf key wallet) =
        if (voteOf key wallet g).isSome = true then 1 else 0) ∧
    (∀ key, (log₁ ++ log₂).countP (isEnding key) =
        if (endOf key g).isSome = true then 1 else 0) ∧
    (∀ key terms, termsOf key mid = some terms → termsOf key g = some terms) ∧
    (∀ key wallet vote, voteOf key wallet mid = some vote → voteOf key wallet g = some vote) ∧
    (∀ key account, mid.proposals.lookup key = some account →
      account.election.proposal.status ≠ .Active → g.proposals.lookup key = some account) := by
  have hrun := hbefore.append hafter
  have hempty : ∀ key, start.proposals.lookup key = none := by
    intro key
    rw [hstart.proposals]
    rfl
  refine ⟨?_, ?_, ?_, ?_, ?_, ?_, ?_⟩
  · exact hrun.invariant (fun _ _ _ hs hg => hs.sound hg) hstart.sound
  · intro key
    refine hrun.countP_written (termsOf key) (fun e hs => hs.writes_terms key) ?_
    rw [termsOf, hempty]
    rfl
  · intro key wallet
    refine hrun.countP_written (voteOf key wallet) (fun e hs => hs.writes_vote key wallet) ?_
    rw [voteOf, hempty]
    rfl
  · intro key
    refine hrun.countP_written (endOf key) (fun e hs => hs.writes_end key) ?_
    rw [endOf, hempty]
    rfl
  · intro key terms hterms
    exact hafter.written_stays (termsOf key) (fun e hs => hs.writes_terms key) hterms
  · intro key wallet vote hvote
    exact hafter.written_stays (voteOf key wallet) (fun e hs => hs.writes_vote key wallet) hvote
  · intro key account haccount hended
    exact hafter.invariant (I := fun g => g.proposals.lookup key = some account)
      (fun _ _ _ hs hg => hs.ended hg hended) haccount

/-- A fee of one percent. -/
def onePercent : ProposalPayload := (Vector.replicate 64 0).set 0 100 (Nat.succ_pos 63)

/-- Three agents of good reputation, a government, and a proposal for a fee. -/
def governmentScript : List GovernanceInstruction :=
  [.core (.agent 11 (.registerAgent 101 1 100000000 0)),
    .core (.agent 12 (.registerAgent 102 1 100000000 0)),
    .core (.agent 13 (.registerAgent 103 1 100000000 0)),
    .core (.agent 11 (.touchAgent 6000 0)),
    .core (.agent 12 (.touchAgent 6000 0)),
    .core (.agent 13 (.touchAgent 6000 0)),
    .initializeGovernance 1 ⟨259200, 86400, 300, 5000, 10000000⟩,
    .proposal (11, 0) (.createProposal 101 ⟨1, 7, 8, onePercent, 0⟩)]

/-- Two of them approve, and the proposal is executed. -/
def electionScript : List GovernanceInstruction :=
  [.proposal (11, 0) (.voteProposal 11 101 true),
    .proposal (11, 0) (.voteProposal 12 102 true),
    .proposal (11, 0) (.voteProposal 13 103 false),
    .core (.tick 346600),
    .proposal (11, 0) (.executeProposal ⟨[1, 3], none, none⟩)]

/-- The fee is voted for once by each of two wallets, and is executed once. -/
theorem elections_sound_executed :
    ∃ log₁ log₂,
      Run GovernmentStep deployedGovernment log₁ (deployedGovernment.after governmentScript) ∧
      Run GovernmentStep (deployedGovernment.after governmentScript) log₂
        ((deployedGovernment.after governmentScript).after electionScript) ∧
      (log₁ ++ log₂).countP (isVoteOf (11, 0) 102) = 1 ∧
      (log₁ ++ log₂).countP (isEnding (11, 0)) = 1 ∧
      GovernmentSound ((deployedGovernment.after governmentScript).after electionScript) ∧
      endOf (11, 0) ((deployedGovernment.after governmentScript).after electionScript) =
        some .Executed := by
  obtain ⟨log₁, hbefore⟩ := deployedGovernment.run_after governmentScript
  obtain ⟨log₂, hafter⟩ := (deployedGovernment.after governmentScript).run_after electionScript
  obtain ⟨hsound, -, hvotes, hends, -⟩ :=
    elections_sound deployedGovernment_genesis hbefore hafter
  have hend : endOf (11, 0) ((deployedGovernment.after governmentScript).after electionScript) =
      some .Executed := by decide +kernel
  refine ⟨log₁, log₂, hbefore, hafter, ?_, ?_, hsound, hend⟩
  · rw [hvotes, if_pos]
    decide +kernel
  · rw [hends, hend, if_pos]
    rfl

end AgencCoordination
