import AgencCoordination.Invariants.Election
import AgencCoordination.Invariants.Retirement

/-!
# The stakes of the voters

A vote holds the registration of its voter until a day after the voting ends, so that nobody takes
a stake back and votes with it again under another wallet.

* **`Held`** — a registration that stands and is held to a time, unless that time is a day past.
* **`GovernmentStep.held`** — no step releases it earlier.
* **`voters_locked`** — for the voters of every proposal in every run.
-/

namespace AgencCoordination

open Foundations

/-! ## Registrations that are held -/

/-- An agent that is retired is inactive. -/
theorem retired_inactive {w : World} (hw : Reachable w) :
    ∀ k status voted, standingOf w.agents k = some (status, true, voted) → status = .Inactive := by
  refine hw.induct (I := fun w => ∀ k status voted,
    standingOf w.agents k = some (status, true, voted) → status = .Inactive) ?_ ?_
  · intro w hgenesis k status voted hk
    rw [standingOf, hgenesis.agents] at hk
    simp at hk
  · rintro w ⟨i, ts⟩ w' - hs ih k status voted hk
    cases Step.population hs with
    | same apart standing total => exact ih k status voted ((standing k).symm.trans hk)
    | @registered key about new others after total =>
      by_cases hkey : k = key
      · rw [hkey, after] at hk
        cases hk
      · exact ih k status voted ((others k hkey).symm.trans hk)
    | @written key _ _ _ about others before after total =>
      by_cases hkey : k = key
      · rw [hkey, after] at hk
        cases hk
      · exact ih k status voted ((others k hkey).symm.trans hk)
    | @touched key _ _ _ voted₀ _ label others before after total =>
      by_cases hkey : k = key
      · rw [hkey, after] at hk
        cases hk
        exact ih key status voted₀ before
      · exact ih k status voted ((others k hkey).symm.trans hk)
    | @retired key _ _ about others before free after total =>
      by_cases hkey : k = key
      · rw [hkey, after] at hk
        cases hk
        rfl
      · exact ih k status voted ((others k hkey).symm.trans hk)

/-- The registration at `k` stands and its votes hold it to `t`, unless `t` is a day past. -/
def Held (w : World) (k : Pubkey) (t : ℤ) : Prop :=
  t + 86400 < w.sys.now ∨
    ∃ status voted, standingOf w.agents k = some (status, false, voted) ∧ t ≤ voted

theorem lookup_of_standingOf {agents : Ledger Pubkey (Account AgentRegistration)} {k : Pubkey}
    {standing : AgentStatus × Bool × ℤ} (h : standingOf agents k = some standing) :
    ∃ agent, agents.lookup k = some agent ∧ agent.data.standing = standing :=
  Option.map_eq_some_iff.mp h

/-- An instruction that lowers nobody's vote time releases nobody early. -/
theorem Step.held {w w' : World} {i : Instruction} {ts : List Transfer} (h : Step w (i, ts) w')
    (hraises : i.raisesVoteTime w) {k : Pubkey} {t : ℤ} (ht : 0 < t) (hk : Held w k t) :
    Held w' k t := by
  have hclock : w.sys.now ≤ w'.sys.now := h.environment.1
  rcases hk with hpast | ⟨status, voted, hk, hvoted⟩
  · exact .inl (by omega)
  · cases h.population with
    | same apart standing total => exact .inr ⟨status, voted, (standing k).trans hk, hvoted⟩
    | @registered key about new others after total =>
      refine .inr ⟨status, voted, (others k ?_).trans hk, hvoted⟩
      rintro rfl
      rw [standingOf, new] at hk
      cases hk
    | @written key _ status' _ about others before after total =>
      by_cases hkey : k = key
      · rw [hkey, before] at hk
        cases hk
        rw [hkey]
        exact .inr ⟨status', voted, after, hvoted⟩
      · exact .inr ⟨status, voted, (others k hkey).trans hk, hvoted⟩
    | @touched key _ _ _ _ voted' label others before after total =>
      by_cases hkey : k = key
      · rw [hkey, before] at hk
        cases hk
        obtain ⟨agent, hagent, hstanding⟩ := lookup_of_standingOf before
        rw [label] at hraises
        have hle : agent.data.lastVoteTimestamp ≤ voted' := hraises agent hagent
        have hlast : agent.data.lastVoteTimestamp = voted :=
          congrArg (fun standing => standing.2.2) hstanding
        rw [hkey]
        exact .inr ⟨status, voted', after, by omega⟩
      · exact .inr ⟨status, voted, (others k hkey).trans hk, hvoted⟩
    | @retired key _ _ about others before free after total =>
      by_cases hkey : k = key
      · rw [hkey, before] at hk
        cases hk
        have hfree := free (by omega)
        exact .inl (by omega)
      · exact .inr ⟨status, voted, (others k hkey).trans hk, hvoted⟩

/-- The lock a vote puts on its voter lowers no vote time. -/
theorem GovernmentStep.held {g g' : Government} {i : GovernanceInstruction}
    {payments : GovernancePayments} (h : GovernmentStep g (i, payments) g') {k : Pubkey} {t : ℤ}
    (ht : 0 < t) (hk : Held g.world k t) : Held g'.world k t := by
  cases h.move with
  | core raises step => exact step.held raises ht hk
  | initialized ran => exact hk
  | created opens => exact hk
  | voted loaded agent signs casts =>
    refine (casts.step agent).held ?_ ht hk
    intro voter hvoter
    obtain rfl := Option.some.inj (agent.symm.trans hvoter)
    exact le_max_left _ _
  | cancelled loaded cancels => exact hk
  | decided loaded decides enacts idle => exact hk

/-! ## Voters -/

/-- The wallet of the agent at `k`. -/
def ownerOf (w : World) (k : Pubkey) : Option Pubkey :=
  (w.agents.lookup k).map fun agent => agent.data.authority

/-- An agent stays with its wallet. -/
theorem GovernmentStep.owner {g g' : Government} {i : GovernanceInstruction}
    {payments : GovernancePayments} (h : GovernmentStep g (i, payments) g') {k wallet : Pubkey}
    (hk : ownerOf g.world k = some wallet) : ownerOf g'.world k = some wallet := by
  obtain ⟨log, hrun, -⟩ := h.world
  refine hrun.invariant (I := fun w => ownerOf w k = some wallet) ?_ hk
  rintro w ⟨j, ts⟩ w' hs hw
  obtain ⟨agent, hagent, rfl⟩ := Option.map_eq_some_iff.mp hw
  obtain ⟨agent', hagent', hauthority⟩ := Step.authority hs hagent
  rw [ownerOf, hagent', Option.map_some, hauthority]

/-- Each vote is that of an agent of its wallet, held to the end of the voting. -/
structure VoterHeld (w : World) (deadline : ℤ) (entry : Pubkey × GovernanceVote) : Prop where
  owner : ownerOf w entry.2.voter = some entry.1
  positive : 0 < deadline
  held : Held w entry.2.voter deadline

theorem VoterHeld.step {g g' : Government} {i : GovernanceInstruction}
    {payments : GovernancePayments} {deadline : ℤ} {entry : Pubkey × GovernanceVote}
    (h : VoterHeld g.world deadline entry) (hs : GovernmentStep g (i, payments) g') :
    VoterHeld g'.world deadline entry :=
  ⟨hs.owner h.owner, h.positive, hs.held h.positive h.held⟩

/-- What the voters of a government are held by. -/
structure VotersHeld (g : Government) : Prop where
  world : Reachable g.world
  clock : 0 < g.world.sys.now
  voters : ∀ key account, g.proposals.lookup key = some account →
    ∀ entry ∈ account.election.votes,
      VoterHeld g.world account.election.proposal.votingDeadline entry

theorem Government.Genesis.votersHeld {g : Government} (h : g.Genesis) : VotersHeld g := by
  refine ⟨⟨_, [], h.world, .refl⟩, h.world.clock, ?_⟩
  intro key account haccount
  rw [h.proposals] at haccount
  simp at haccount

/-- A vote holds its voter. -/
theorem Casts.voterHeld {w : World} (hw : Reachable w) (hclock : 0 < w.sys.now)
    {election election' : Election} {voterKey : Pubkey} {voter : Account AgentRegistration}
    {approve : Bool} {vote : GovernanceVote} {voter' : AgentRegistration}
    (h : Casts election ⟨w.config, w.sys.now, voterKey, voter.data, approve⟩ vote election' voter')
    (hvoter : w.agents.lookup voterKey = some voter) :
    VoterHeld { w with agents := w.agents.insert voterKey { voter with data := voter' } }
      election.proposal.votingDeadline (voter.data.authority, vote) := by
  have hkey : vote.voter = voterKey := h.voter
  have hactive : voter.data.status = .Active := h.active
  have hinTime : w.sys.now < election.proposal.votingDeadline := h.inTime
  have hpresent : voter.data.retired = false := by
    cases hretired : voter.data.retired with
    | false => rfl
    | true =>
      have hstanding := standingOf_of_lookup hvoter
      rw [AgentRegistration.standing, hactive, hretired] at hstanding
      cases retired_inactive hw _ _ _ hstanding
  refine ⟨?_, by omega, .inr ⟨voter'.status, voter'.lastVoteTimestamp, ?_, ?_⟩⟩
  · rw [hkey, ownerOf, AList.lookup_insert, h.locked]
    rfl
  · rw [hkey, standingOf_insert, AgentRegistration.standing, h.locked]
    show some (_, voter.data.retired, _) = _
    rw [hpresent]
  · rw [h.locked]
    exact le_max_right _ _

theorem GovernmentStep.votersHeld {g g' : Government}
    {label : GovernanceInstruction × GovernancePayments} (h : GovernmentStep g label g')
    (hg : VotersHeld g) : VotersHeld g' := by
  obtain ⟨i, payments⟩ := label
  obtain ⟨log, hworld, -⟩ := h.world
  refine ⟨hg.world.run hworld, Int.lt_of_lt_of_le hg.clock h.clock, ?_⟩
  intro key account haccount entry hentry
  have hkept : ∀ account₀, g.proposals.lookup key = some account₀ →
      entry ∈ account₀.election.votes →
      VoterHeld g'.world account₀.election.proposal.votingDeadline entry :=
    fun account₀ haccount₀ hentry₀ => (hg.voters key account₀ haccount₀ entry hentry₀).step h
  have hmove := h.move
  cases h.seen key with
  | apart other same =>
    rw [same] at haccount
    exact hkept account haccount hentry
  | created label opens after =>
    obtain rfl := Option.some.inj (after.symm.trans haccount)
    rw [opens.votes] at hentry
    cases hentry
  | @moved op account₀ account₂ label before moves after =>
    obtain rfl := Option.some.inj (after.symm.trans haccount)
    obtain ⟨-, -, -, hdeadline⟩ := moves.keeps
    rw [hdeadline]
    subst label
    have hwritten {a : ProposalAccount}
        (hafter : (g.proposals.insert key a).lookup key = some account₂) : a = account₂ :=
      Option.some.inj ((AList.lookup_insert _).symm.trans hafter)
    cases hmove with
    | created opens =>
      rw [opens.fresh] at before
      cases before
    | @voted _ voterKey _ _ account₁ voter vote election' voter' loaded agent signs casts =>
      obtain rfl := Option.some.inj (loaded.symm.trans before)
      obtain rfl := hwritten haccount
      rw [casts.votes] at hentry
      rcases List.mem_cons.mp hentry with rfl | hentry
      · exact casts.voterHeld hg.world hg.clock agent
      · exact hkept account₁ before hentry
    | @cancelled _ _ account₁ account' loaded cancels =>
      obtain rfl := Option.some.inj (loaded.symm.trans before)
      obtain rfl := hwritten haccount
      rw [cancels.result] at hentry
      exact hkept account₁ before hentry
    | @decided _ _ account₁ proposal' config' payment loaded decides enacts idle =>
      obtain rfl := Option.some.inj (loaded.symm.trans before)
      obtain rfl := hwritten haccount
      exact hkept account₁ before hentry

/-! ## Runs -/

/-- **Locked stakes.** In every run the votes on a proposal are those of distinct agents, each of
the wallet that voted. Until a day after the end of the voting none of these agents has left, and
none can leave. -/
theorem voters_locked {start g : Government} {log : List GovernmentEntry} (hstart : start.Genesis)
    (hrun : Run GovernmentStep start log g) :
    ∀ key account, g.proposals.lookup key = some account →
      (account.election.votes.map fun entry => entry.2.voter).Nodup ∧
      ∀ entry ∈ account.election.votes, ∃ agent,
        g.world.agents.lookup entry.2.voter = some agent ∧ agent.data.authority = entry.1 ∧
        (g.world.sys.now ≤ account.election.proposal.votingDeadline + 86400 →
          agent.data.retired = false ∧
          ∀ signer reputationStake ts w', ¬Step g.world
            (.agent entry.2.voter (.deregisterAgent signer reputationStake), ts) w') := by
  have hheld : VotersHeld g :=
    hrun.invariant (fun _ _ _ hs hg => GovernmentStep.votersHeld hs hg) hstart.votersHeld
  have hsound : GovernmentSound g :=
    hrun.invariant (fun _ _ _ hs hg => GovernmentStep.sound hs hg) hstart.sound
  intro key account haccount
  have hvoters := hheld.voters key account haccount
  refine ⟨?_, ?_⟩
  · obtain ⟨rules, hrules⟩ := hsound.elections key account haccount
    refine List.Nodup.of_map (ownerOf g.world) ?_
    rw [List.map_map]
    have hwallets : account.election.votes.map (ownerOf g.world ∘ fun entry => entry.2.voter) =
        (account.election.votes.map Prod.fst).map some := by
      rw [List.map_map]
      exact List.map_congr_left fun entry hentry => (hvoters entry hentry).owner
    rw [hwallets]
    exact hrules.wallets.map (Option.some_injective _)
  · intro entry hentry
    obtain ⟨howner, hpositive, hlock⟩ := hvoters entry hentry
    obtain ⟨agent, hagent, hauthority⟩ := Option.map_eq_some_iff.mp howner
    refine ⟨agent, hagent, hauthority, fun hearly => ?_⟩
    rcases hlock with hpast | ⟨status, voted, hstanding, hvoted⟩
    · omega
    · rw [standingOf_of_lookup hagent] at hstanding
      obtain ⟨-, hrest⟩ := Prod.mk.inj (Option.some.inj hstanding)
      obtain ⟨hpresent, hlast⟩ := Prod.mk.inj hrest
      refine ⟨hpresent, fun signer reputationStake ts w' hs => ?_⟩
      have hleaves : deregisterAgent g.world entry.2.voter signer reputationStake =
        .ok (w', ts) := hs
      obtain ⟨agent', _, hagent', -, -, -, -, -, hfree, -⟩ := deregisterAgent_standing hleaves
      obtain rfl := Option.some.inj (hagent.symm.trans hagent')
      have := hfree (by omega)
      omega

/-- While the election is open, its three voters are three agents that have not left. -/
theorem voters_locked_open :
    ∃ log, ∃ account : ProposalAccount, Run GovernmentStep deployedGovernment log
        (deployedGovernment.after (governmentScript ++ electionScript.take 3)) ∧
      account.election.votes.length = 3 ∧
      (account.election.votes.map fun entry => entry.2.voter).Nodup ∧
      ∀ entry ∈ account.election.votes, ∃ agent,
        (deployedGovernment.after (governmentScript ++ electionScript.take 3)).world.agents.lookup
          entry.2.voter = some agent ∧ agent.data.retired = false := by
  obtain ⟨log, hrun⟩ :=
    deployedGovernment.run_after (governmentScript ++ electionScript.take 3)
  have hopen : ((deployedGovernment.after
      (governmentScript ++ electionScript.take 3)).proposals.lookup (11, 0)).map
        (fun account => (account.election.votes.length, decide ((deployedGovernment.after
          (governmentScript ++ electionScript.take 3)).world.sys.now ≤
            account.election.proposal.votingDeadline + 86400))) = some (3, true) := by
    decide +kernel
  obtain ⟨account, haccount, hpair⟩ := Option.map_eq_some_iff.mp hopen
  obtain ⟨hthree, hearly⟩ := Prod.mk.inj hpair
  obtain ⟨hdistinct, hvoters⟩ :=
    voters_locked deployedGovernment_genesis hrun (11, 0) account haccount
  refine ⟨log, account, hrun, hthree, hdistinct, fun entry hentry => ?_⟩
  obtain ⟨agent, hagent, -, hstays⟩ := hvoters entry hentry
  exact ⟨agent, hagent, (hstays (of_decide_eq_true hearly)).1⟩

end AgencCoordination
