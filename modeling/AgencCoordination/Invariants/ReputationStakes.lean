import AgencCoordination.Invariants.Skills

/-!
# Stakes on an agent's reputation

A stake is lamports on an account of the agent's own. It is locked for a cooldown from the last
staking, and then the agent's wallet takes it back, unless a dispute names the agent.

* **`StakeBooks`** — what the account holds and how long it is locked, in terms of what happened.
* **`CommunityStep.stakeBooks`** — one step keeps the books.
* **`reputation_staked`** — custody, lock and exit, for every run of the community.
-/

namespace AgencCoordination

open Foundations

/-! ## Single instructions -/

/-- What a staking checked, and the account it leaves. -/
structure StakesReputation (w : World) (old : Account ReputationStake) (key signer : Pubkey)
    (amount : ℕ) (stake : Account ReputationStake) : Prop where
  agent : ∃ agent, w.agents.lookup key = some agent ∧ agent.data.authority = signer ∧
    agent.data.status = .Active
  bounded : w.sys.rent.minimumBalance reputationStakeSize < u64Limit
  lamports : stake.lamports = old.lamports + amount
  staked : stake.data.stakedAmount = old.data.stakedAmount + amount
  locked : stake.data.lockedUntil = w.sys.now + reputationStakingCooldown

theorem stakeReputation_spec {w : World} {existing : Option (Account ReputationStake)}
    {key signer : Pubkey} {amount : ℕ} {stake : Account ReputationStake}
    (h : stakeReputation w existing key signer amount = .ok stake) :
    StakesReputation w (existing.getD ⟨w.sys.rent.minimumBalance reputationStakeSize,
      { createdAt := w.sys.now }⟩) key signer amount stake := by
  simp only [stakeReputation, bind_eq_ok, require_eq_ok, lift_eq_ok, addU64_eq_ok, addI64_eq_ok,
    loadAgent_eq_ok, Except.ok.injEq] at h
  obtain ⟨agent, ⟨hagent, hauthority⟩, _, -, _, -, _, hactive, _, ⟨hbounded, rfl⟩, h⟩ := h
  obtain ⟨_, -, _, ⟨-, rfl⟩, _, ⟨-, rfl⟩, rfl⟩ := h
  exact ⟨⟨agent, hagent, hauthority, hactive⟩, by omega, rfl, rfl, rfl⟩

/-- What a withdrawal checked, and the account it leaves. -/
structure WithdrawsStake (w : World) (old : Account ReputationStake) (key signer : Pubkey)
    (amount : ℕ) (stake : Account ReputationStake) : Prop where
  agent : ∃ agent, w.agents.lookup key = some agent ∧ agent.data.authority = signer ∧
    agent.data.disputesAsDefendant = 0
  unlocked : old.data.lockedUntil ≤ w.sys.now
  lamports : stake.lamports + amount = old.lamports
  staked : stake.data.stakedAmount + amount = old.data.stakedAmount
  locked : stake.data.lockedUntil = old.data.lockedUntil

theorem withdrawReputationStake_spec {w : World} {old stake : Account ReputationStake}
    {key signer : Pubkey} {amount : ℕ}
    (h : withdrawReputationStake w old key signer amount = .ok stake) :
    WithdrawsStake w old key signer amount stake := by
  simp only [withdrawReputationStake, bind_eq_ok, require_eq_ok, lift_eq_ok, addU64_eq_ok,
    subU_eq_ok, checkedSub_eq_ok, loadAgent_eq_ok, Except.ok.injEq] at h
  obtain ⟨agent, ⟨hagent, hauthority⟩, _, -, _, hunlocked, _, hdefendant, _, hstaked, h⟩ := h
  obtain ⟨_, ⟨-, rfl⟩, _, ⟨hlamports, rfl⟩, _, -, _, -, rfl⟩ := h
  exact ⟨⟨agent, hagent, hauthority, hdefendant⟩, hunlocked, Nat.sub_add_cancel hlamports,
    Nat.sub_add_cancel hstaked, rfl⟩

/-- The whole of an unlocked stake can be withdrawn for an agent that is nobody's defendant. -/
theorem withdrawReputationStake_all {w : World} {old : Account ReputationStake} {key : Pubkey}
    {agent : Account AgentRegistration} (hagent : w.agents.lookup key = some agent)
    (hdefendant : agent.data.disputesAsDefendant = 0) (hstaked : 0 < old.data.stakedAmount)
    (hunlocked : old.data.lockedUntil ≤ w.sys.now)
    (hbounded : w.sys.rent.minimumBalance reputationStakeSize < u64Limit)
    (hheld : w.sys.rent.minimumBalance reputationStakeSize + old.data.stakedAmount ≤
      old.lamports) :
    withdrawReputationStake w old key agent.data.authority old.data.stakedAmount =
      .ok ⟨old.lamports - old.data.stakedAmount, { old.data with stakedAmount := 0 }⟩ := by
  simp only [withdrawReputationStake, bind_eq_ok, require_eq_ok, lift_eq_ok, addU64_eq_ok,
    subU_eq_ok, checkedSub_eq_ok, loadAgent_eq_ok, Except.ok.injEq]
  refine ⟨agent, ⟨hagent, rfl⟩, (), hstaked, (), hunlocked, (), hdefendant, (), le_rfl, ?_⟩
  refine ⟨0, ⟨le_rfl, (Nat.sub_self _).symm⟩, _, ⟨by omega, rfl⟩, _, ⟨?_, rfl⟩, (), ?_, rfl⟩
  · exact hbounded
  · omega

/-! ## Books -/

/-- What a staking brings in. -/
def StakeOp.paidIn : StakeOp → ℕ
  | .stake _ amount => amount
  | _ => 0

/-- What a withdrawal takes out. -/
def StakeOp.paidOut : StakeOp → ℕ
  | .withdraw _ amount => amount
  | _ => 0

/-- What anybody sends. -/
def StakeOp.sent : StakeOp → ℕ
  | .donate amount => amount
  | _ => 0

/-- A quantity of an event on the stake of `k`. -/
def ofStake (k : Pubkey) (f : StakeOp → ℕ) (e : CommunityEntry) : ℕ :=
  match e.label.1 with
  | .reputation k' op => if k' = k then f op else 0
  | _ => 0

/-- The event is a staking on `k`. -/
def stakesOn (k : Pubkey) (e : CommunityEntry) : Prop :=
  ∃ signer amount, e.label.1 = .reputation k (.stake signer amount)

theorem ofStake_eq {k : Pubkey} {f : StakeOp → ℕ} {e : CommunityEntry} {op : StakeOp}
    (h : e.label.1 = .reputation k op) : ofStake k f e = f op := by
  unfold ofStake
  rw [h]
  exact if_pos rfl

theorem ofStake_other {k : Pubkey} {f : StakeOp → ℕ} {e : CommunityEntry}
    (h : ∀ op, e.label.1 ≠ .reputation k op) : ofStake k f e = 0 := by
  unfold ofStake
  split
  · rename_i k' op hlabel
    refine if_neg fun hkey => h op ?_
    rw [hlabel, hkey]
  · rfl

/-- The time of the community. -/
def Community.now (c : Community) : ℤ := c.market.world.sys.now

/-- The rent of a stake account. -/
def Community.stakeRent (c : Community) : ℕ :=
  c.market.world.sys.rent.minimumBalance reputationStakeSize

/-- The stake of `k` after what the log says: its account holds the rent, what was staked and not
withdrawn, and what was sent; and it is locked for the cooldown from the last staking. -/
structure StakeBooks (rent : ℕ) (k : Pubkey) (log : List CommunityEntry) (c : Community) : Prop where
  staked : stakedOn c k + Run.sumOver (ofStake k StakeOp.paidOut) log =
    Run.sumOver (ofStake k StakeOp.paidIn) log
  lamports : ∀ stake, c.stakes.lookup k = some stake → stake.lamports =
    rent + stake.data.stakedAmount + Run.sumOver (ofStake k StakeOp.sent) log
  bounded : ∀ stake, c.stakes.lookup k = some stake → rent < u64Limit
  locked : ∀ stake, c.stakes.lookup k = some stake → ∀ e ∈ log, stakesOn k e →
    e.before.now + reputationStakingCooldown ≤ stake.data.lockedUntil
  last : ∀ stake, c.stakes.lookup k = some stake → ∃ e ∈ log, stakesOn k e ∧
    stake.data.lockedUntil = e.before.now + reputationStakingCooldown
  fresh : c.stakes.lookup k = none → Run.sumOver (ofStake k StakeOp.sent) log = 0 ∧
    ∀ e ∈ log, ¬stakesOn k e

theorem stakedOn_eq {c : Community} {k : Pubkey} {stake : Account ReputationStake}
    (h : c.stakes.lookup k = some stake) : stakedOn c k = stake.data.stakedAmount := by
  unfold stakedOn
  rw [h]
  rfl

theorem Community.Genesis.stakeBooks {c : Community} (h : c.Genesis) (rent : ℕ) (k : Pubkey) :
    StakeBooks rent k [] c := by
  have hnone : c.stakes.lookup k = none := by
    rw [h.stakes]
    rfl
  have habsent : ∀ stake, c.stakes.lookup k ≠ some stake := by simp [hnone]
  refine ⟨?_, ?_, ?_, ?_, ?_, ?_⟩
  · unfold stakedOn
    rw [hnone]
    rfl
  · exact fun stake hstake => absurd hstake (habsent stake)
  · exact fun stake hstake => absurd hstake (habsent stake)
  · exact fun stake hstake => absurd hstake (habsent stake)
  · exact fun stake hstake => absurd hstake (habsent stake)
  · simp

/-- What changes nothing about the stake of `k` keeps its books. -/
theorem StakeBooks.frame {rent : ℕ} {k : Pubkey} {log : List CommunityEntry} {e : CommunityEntry}
    (h : StakeBooks rent k log e.before) (hother : ∀ op, e.label.1 ≠ .reputation k op)
    (hsame : e.after.stakes.lookup k = e.before.stakes.lookup k) :
    StakeBooks rent k (log ++ [e]) e.after := by
  have hsum : ∀ f, Run.sumOver (ofStake k f) (log ++ [e]) = Run.sumOver (ofStake k f) log := by
    intro f
    rw [Run.sumOver_append, Run.sumOver_cons, Run.sumOver_nil, ofStake_other hother]
    rfl
  have hplain : ¬stakesOn k e := by
    rintro ⟨signer, amount, hlabel⟩
    exact hother _ hlabel
  have hmem : ∀ {e'}, e' ∈ log ++ [e] → stakesOn k e' → e' ∈ log := by
    intro e' he' hstakes
    rcases List.mem_append.mp he' with he' | he'
    · exact he'
    · rw [List.mem_singleton.mp he'] at hstakes
      exact absurd hstakes hplain
  refine ⟨?_, ?_, ?_, ?_, ?_, ?_⟩
  · have hstaked := h.staked
    unfold stakedOn at hstaked ⊢
    rw [hsame, hsum, hsum]
    exact hstaked
  · rw [hsame, hsum]
    exact h.lamports
  · rw [hsame]
    exact h.bounded
  · rw [hsame]
    exact fun stake hstake e' he' hstakes => h.locked stake hstake e' (hmem he' hstakes) hstakes
  · rw [hsame]
    intro stake hstake
    obtain ⟨e', he', hlast⟩ := h.last stake hstake
    exact ⟨e', List.mem_append_left _ he', hlast⟩
  · rw [hsame, hsum]
    intro hnone
    obtain ⟨hsent, hnever⟩ := h.fresh hnone
    exact ⟨hsent, fun e' he' hstakes => hnever e' (hmem he' hstakes) hstakes⟩

/-- The lock of a stake after an instruction: a new one from a staking, or the old one. -/
inductive Relocks (e : CommunityEntry) (k : Pubkey) (stake : Account ReputationStake) : Prop
  | staked (stakes : stakesOn k e)
      (lock : stake.data.lockedUntil = e.before.now + reputationStakingCooldown)
  | kept {old : Account ReputationStake} (plain : ¬stakesOn k e)
      (loaded : e.before.stakes.lookup k = some old)
      (lock : stake.data.lockedUntil = old.data.lockedUntil)

/-- An instruction on the stake of `k` that moves what it says keeps the books. -/
theorem StakeBooks.write {rent : ℕ} {k : Pubkey} {log : List CommunityEntry} {e : CommunityEntry}
    {op : StakeOp} {stake : Account ReputationStake} (h : StakeBooks rent k log e.before)
    (hclock : ∀ e' ∈ log, e'.before.now ≤ e.before.now) (hlabel : e.label.1 = .reputation k op)
    (hafter : e.after.stakes.lookup k = some stake)
    (hstaked : stake.data.stakedAmount + op.paidOut = stakedOn e.before k + op.paidIn)
    (hlamports : stake.lamports = rent + stake.data.stakedAmount +
      (Run.sumOver (ofStake k StakeOp.sent) log + op.sent))
    (hbounded : rent < u64Limit) (hlock : Relocks e k stake) :
    StakeBooks rent k (log ++ [e]) e.after := by
  have hsum : ∀ f, Run.sumOver (ofStake k f) (log ++ [e]) =
      Run.sumOver (ofStake k f) log + f op := by
    intro f
    rw [Run.sumOver_append, Run.sumOver_cons, Run.sumOver_nil, ofStake_eq hlabel]
    rfl
  have hthis : ∀ stake', e.after.stakes.lookup k = some stake' → stake = stake' := by
    intro stake' hstake'
    exact Option.some.inj (hafter.symm.trans hstake')
  refine ⟨?_, ?_, fun _ _ => hbounded, ?_, ?_, ?_⟩
  · have hbefore := h.staked
    rw [stakedOn_eq hafter, hsum, hsum]
    omega
  · intro stake' hstake'
    obtain rfl := hthis stake' hstake'
    rw [hsum]
    exact hlamports
  · intro stake' hstake' e' he' hstakes
    obtain rfl := hthis stake' hstake'
    cases hlock with
    | staked stakes lock =>
      rw [lock]
      rcases List.mem_append.mp he' with he' | he'
      · exact Int.add_le_add_right (hclock e' he') _
      · rw [List.mem_singleton.mp he']
    | kept plain loaded lock =>
      rw [lock]
      rcases List.mem_append.mp he' with he' | he'
      · exact h.locked _ loaded e' he' hstakes
      · rw [List.mem_singleton.mp he'] at hstakes
        exact absurd hstakes plain
  · intro stake' hstake'
    obtain rfl := hthis stake' hstake'
    cases hlock with
    | staked stakes lock =>
      exact ⟨e, List.mem_append_right _ (List.mem_singleton_self e), stakes, lock⟩
    | kept plain loaded lock =>
      obtain ⟨e', he', hstakes, hlast⟩ := h.last _ loaded
      exact ⟨e', List.mem_append_left _ he', hstakes, lock.trans hlast⟩
  · intro hnone
    rw [hafter] at hnone
    cases hnone

/-- One step keeps the books of every stake. -/
theorem CommunityStep.stakeBooks {rent : ℕ} {k : Pubkey} {log : List CommunityEntry}
    {e : CommunityEntry} (hs : CommunityStep e.before e.label e.after)
    (h : StakeBooks rent k log e.before) (hrent : e.before.stakeRent = rent)
    (hclock : ∀ e' ∈ log, e'.before.now ≤ e.before.now) :
    StakeBooks rent k (log ++ [e]) e.after := by
  rcases hs.stake k with ⟨op, hlabel, hmoved⟩ | ⟨hother, hsame⟩
  · generalize hc' : e.after = c' at hmoved
    have hafter : ∀ {stake : Account ReputationStake},
        c'.stakes = e.before.stakes.insert k stake → e.after.stakes.lookup k = some stake := by
      intro stake hstakes
      rw [hc', hstakes, AList.lookup_insert]
    rw [← hc']
    cases hmoved with
    | staked ran =>
      have hspec := stakeReputation_spec ran
      have hbounded : rent < u64Limit := hrent ▸ hspec.bounded
      refine h.write hclock hlabel (hafter rfl) ?_ ?_ hbounded
        (.staked ⟨_, _, hlabel⟩ hspec.locked)
      · rw [hspec.staked]
        show _ + 0 = _ + _
        unfold stakedOn
        cases e.before.stakes.lookup k <;> rfl
      · rw [hspec.lamports, hspec.staked]
        show _ = rent + _ + (_ + 0)
        cases hold : e.before.stakes.lookup k with
        | none =>
          have hsent := (h.fresh hold).1
          have hopening : (none.getD (⟨e.before.stakeRent, { createdAt := e.before.now }⟩ :
              Account ReputationStake)).lamports = rent := hrent
          change (none.getD (⟨e.before.stakeRent, { createdAt := e.before.now }⟩ :
            Account ReputationStake)).lamports + _ = rent + (0 + _) + _
          omega
        | some old =>
          have hheld := h.lamports old hold
          change old.lamports + _ = rent + (old.data.stakedAmount + _) + _
          omega
    | withdrawn loaded ran =>
      have hspec := withdrawReputationStake_spec ran
      have hplain : ¬stakesOn k e := by
        rintro ⟨signer, amount, hstakes⟩
        rw [hlabel] at hstakes
        cases hstakes
      have hheld := h.lamports _ loaded
      have hlamports := hspec.lamports
      have hstaked := hspec.staked
      refine h.write hclock hlabel (hafter rfl) ?_ ?_ (h.bounded _ loaded)
        (.kept hplain loaded hspec.locked)
      · rw [stakedOn_eq loaded]
        exact hstaked
      · show _ = rent + _ + (_ + 0)
        omega
    | donated loaded =>
      have hplain : ¬stakesOn k e := by
        rintro ⟨signer, amount, hstakes⟩
        rw [hlabel] at hstakes
        cases hstakes
      have hheld := h.lamports _ loaded
      refine h.write hclock hlabel (hafter rfl) ?_ ?_ (h.bounded _ loaded)
        (.kept hplain loaded rfl)
      · rw [stakedOn_eq loaded]
        rfl
      · rw [hheld, Nat.add_assoc]
        rfl
  · exact h.frame hother hsame

/-! ## Runs -/

theorem stakeRent_of_run {start c : Community} {log : List CommunityEntry}
    (hrun : Run CommunityStep start log c) : c.stakeRent = start.stakeRent := by
  refine hrun.invariant (I := fun c => c.stakeRent = start.stakeRent) ?_ rfl
  intro s label s' hs hbefore
  have hrent := hs.environment.2
  rw [← hbefore]
  unfold Community.stakeRent
  rw [hrent]

theorem now_of_run {start c : Community} {log : List CommunityEntry}
    (hrun : Run CommunityStep start log c) : ∀ e ∈ log, e.before.now ≤ c.now :=
  hrun.clock_le fun _ _ _ hs => hs.environment.1

theorem stakeBooks_of_run {start c : Community} {log : List CommunityEntry}
    (hstart : start.Genesis) (hrun : Run CommunityStep start log c) (k : Pubkey) :
    StakeBooks start.stakeRent k log c := by
  induction hrun with
  | refl => exact hstart.stakeBooks _ k
  | @snoc log s s' label hr hs ih =>
    exact CommunityStep.stakeBooks (e := ⟨s, label, s'⟩) hs ih (stakeRent_of_run hr)
      (now_of_run hr)

/-- A withdrawal is signed by the agent's wallet, while no dispute names the agent, and not before
the cooldown is over for everything that was staked. -/
theorem withdrawal_unlocked {start c : Community} {log₁ log₂ : List CommunityEntry}
    {e : CommunityEntry} (hstart : start.Genesis)
    (hrun : Run CommunityStep start (log₁ ++ e :: log₂) c) {k signer : Pubkey} {amount : ℕ}
    (hlabel : e.label.1 = .reputation k (.withdraw signer amount)) :
    (∃ agent, e.before.market.world.agents.lookup k = some agent ∧
      agent.data.authority = signer ∧ agent.data.disputesAsDefendant = 0) ∧
    ∀ e' ∈ log₁, stakesOn k e' → e'.before.now + reputationStakingCooldown ≤ e.before.now := by
  obtain ⟨hbefore, hs, -⟩ := hrun.split_at
  have hbooks := stakeBooks_of_run hstart hbefore k
  rcases hs.stake k with ⟨op, hop, hmoved⟩ | ⟨hother, -⟩
  · rw [hlabel] at hop
    obtain rfl := (CommunityInstruction.reputation.inj hop).2
    generalize e.after = after at hmoved
    cases hmoved with
    | withdrawn loaded ran =>
      have hspec := withdrawReputationStake_spec ran
      refine ⟨hspec.agent, fun e' he' hstakes => ?_⟩
      exact (hbooks.locked _ loaded e' he' hstakes).trans hspec.unlocked
  · exact absurd hlabel (hother _)

/-- After the cooldown the agent's wallet can take the whole stake back, unless a dispute names the
agent. -/
theorem stake_exit {start c : Community} {log : List CommunityEntry} (hstart : start.Genesis)
    (hrun : Run CommunityStep start log c) {k : Pubkey} {agent : Account AgentRegistration}
    (hagent : c.market.world.agents.lookup k = some agent)
    (hdefendant : agent.data.disputesAsDefendant = 0) (hstaked : 0 < stakedOn c k)
    (hcooled : ∀ e ∈ log, stakesOn k e → e.before.now + reputationStakingCooldown ≤ c.now) :
    ∃ c', CommunityStep c (.reputation k (.withdraw agent.data.authority (stakedOn c k)), {}) c' ∧
      stakedOn c' k = 0 := by
  have hbooks := stakeBooks_of_run hstart hrun k
  cases hstake : c.stakes.lookup k with
  | none =>
    unfold stakedOn at hstaked
    rw [hstake] at hstaked
    cases hstaked
  | some stake =>
    have hrent : c.stakeRent = start.stakeRent := stakeRent_of_run hrun
    obtain ⟨e, he, hstakes, hlast⟩ := hbooks.last stake hstake
    have hunlocked : stake.data.lockedUntil ≤ c.now := hlast ▸ hcooled e he hstakes
    have hheld : c.stakeRent + stake.data.stakedAmount ≤ stake.lamports := by
      rw [hbooks.lamports stake hstake, hrent]
      exact Nat.le_add_right _ _
    have hbounded : c.stakeRent < u64Limit := hrent ▸ hbooks.bounded stake hstake
    rw [stakedOn_eq hstake] at hstaked ⊢
    have hran := withdrawReputationStake_all hagent hdefendant hstaked hunlocked hbounded hheld
    have hemptied : (c.stakes.insert k ⟨stake.lamports - stake.data.stakedAmount,
        { stake.data with stakedAmount := 0 }⟩).lookup k =
          some ⟨stake.lamports - stake.data.stakedAmount,
            { stake.data with stakedAmount := 0 }⟩ := AList.lookup_insert _
    refine ⟨{ c with stakes := c.stakes.insert k ⟨stake.lamports - stake.data.stakedAmount,
      { stake.data with stakedAmount := 0 }⟩ }, ?_, ?_⟩
    · show executeCommunity c _ = _
      simp only [executeCommunity, StakeOp.run, bind_eq_ok, demand_eq_ok]
      exact ⟨_, ⟨stake, hstake, _, hran, rfl⟩, rfl⟩
    · exact stakedOn_eq (c := { c with stakes := _ }) hemptied

/-- Stakes on the reputation of an agent, in every run. The account holds its rent, everything that
was staked and not withdrawn, and what was sent to it; whatever is withdrawn is withdrawn by the
agent's wallet, with no dispute against the agent and the cooldown over for everything staked; and
under those conditions the whole stake can be withdrawn. -/
theorem reputation_staked {start c : Community} {log : List CommunityEntry}
    (hstart : start.Genesis) (hrun : Run CommunityStep start log c) (k : Pubkey) :
    (stakedOn c k + Run.sumOver (ofStake k StakeOp.paidOut) log =
      Run.sumOver (ofStake k StakeOp.paidIn) log) ∧
    (∀ stake, c.stakes.lookup k = some stake → stake.lamports =
      start.stakeRent + stake.data.stakedAmount + Run.sumOver (ofStake k StakeOp.sent) log) ∧
    (∀ log₁ e log₂, log = log₁ ++ e :: log₂ → ∀ signer amount,
      e.label.1 = .reputation k (.withdraw signer amount) →
      (∃ agent, e.before.market.world.agents.lookup k = some agent ∧
        agent.data.authority = signer ∧ agent.data.disputesAsDefendant = 0) ∧
      ∀ e' ∈ log₁, stakesOn k e' → e'.before.now + reputationStakingCooldown ≤ e.before.now) ∧
    (∀ agent, c.market.world.agents.lookup k = some agent → agent.data.disputesAsDefendant = 0 →
      0 < stakedOn c k →
      (∀ e ∈ log, stakesOn k e → e.before.now + reputationStakingCooldown ≤ c.now) →
      ∃ c', CommunityStep c (.reputation k (.withdraw agent.data.authority (stakedOn c k)), {}) c' ∧
        stakedOn c' k = 0) := by
  have hbooks := stakeBooks_of_run hstart hrun k
  refine ⟨hbooks.staked, hbooks.lamports, ?_, ?_⟩
  · rintro log₁ e log₂ rfl signer amount hlabel
    exact withdrawal_unlocked hstart hrun hlabel
  · intro agent hagent hdefendant hstaked hcooled
    exact stake_exit hstart hrun hagent hdefendant hstaked hcooled

/-- An agent stakes twice, and somebody sends it lamports. -/
def stakingScript : List CommunityInstruction :=
  [.market (.core {} (.agent 11 (.registerAgent 101 1 1000000 0))),
    .reputation 11 (.stake 101 500),
    .market (.core {} (.tick 5000)),
    .reputation 11 (.stake 101 200),
    .reputation 11 (.donate 9)]

/-- The account of the script holds the rent, both stakes and the donation. -/
theorem reputation_staked_twice :
    ∃ log, Run CommunityStep deployedCommunity log (deployedCommunity.after stakingScript) ∧
      ∃ stake, (deployedCommunity.after stakingScript).stakes.lookup 11 = some stake ∧
        stake.data.stakedAmount = 700 ∧ stake.lamports = deployedCommunity.stakeRent + 700 +
          Run.sumOver (ofStake 11 StakeOp.sent) log := by
  obtain ⟨log, hrun⟩ := deployedCommunity.run_after stakingScript
  obtain ⟨-, hlamports, -⟩ := reputation_staked deployedCommunity_genesis hrun 11
  have hstaked : ((deployedCommunity.after stakingScript).stakes.lookup 11).map
      (fun stake => stake.data.stakedAmount) = some 700 := by
    decide +kernel
  obtain ⟨stake, hstake, hamount⟩ := Option.map_eq_some_iff.mp hstaked
  refine ⟨log, hrun, stake, hstake, hamount, ?_⟩
  rw [hlamports stake hstake, hamount]

end AgencCoordination
