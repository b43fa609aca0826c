import AgencCoordination.Effects.Market
import AgencCoordination.Program.Community

/-!
# Steps of the community

`executeCommunity` read backwards.

* **`CommunityStep`, `Community.Reachable`** — the transition system of the community.
* **`CommunityStep.move`** — an instruction of the marketplace, or one on a skill, a post, a
  reputation stake or the rating of a hire.
* **`SkillMove`, `FeedMove`, `StakeMoved`** — what each of them does.
-/

namespace AgencCoordination

open Foundations

/-! ## The transition system -/

/-- One successful instruction of the community and its payments. -/
def CommunityStep (c : Community) (label : CommunityInstruction × CommunityPayments)
    (c' : Community) : Prop :=
  executeCommunity c label.1 = .ok (c', label.2)

/-- An entry of the community's log. -/
abbrev CommunityEntry := Event Community (CommunityInstruction × CommunityPayments)

/-- The community after a script of instructions, or the initial one when the script fails. -/
def Community.after (c : Community) (script : List CommunityInstruction) : Community :=
  ((Run.play executeCommunity c script).toOption).getD c

theorem Community.run_after (c : Community) (script : List CommunityInstruction) :
    ∃ log, Run CommunityStep c log (c.after script) := by
  unfold Community.after
  cases hplay : Run.play executeCommunity c script with
  | error e => exact ⟨[], .refl⟩
  | ok c' => exact Run.of_play hplay

/-! ## Instructions by group -/

/-- What an instruction on the skill at `key` does. -/
inductive SkillMove (c : Community) (key : SkillKey) :
    SkillOp → Community → List SalePayment → Prop
  | registered {signer : Pubkey} {params : SkillParams} {skill : SkillRegistration}
      (fresh : c.skills.lookup key = none)
      (ran : registerSkill c.market.world key signer params = .ok skill) :
      SkillMove c key (.register signer params)
        { c with skills := c.skills.insert key skill } []
  | updated {signer : Pubkey} {changes : SkillUpdate} {skill skill' : SkillRegistration}
      (loaded : c.skills.lookup key = some skill)
      (ran : updateSkill c.market.world key signer skill changes = .ok skill') :
      SkillMove c key (.update signer changes) { c with skills := c.skills.insert key skill' } []
  | purchased {buyer signer : Pubkey} {accounts : SkillSaleAccounts} {params : SkillPurchase}
      {skill skill' : SkillRegistration} {record : PurchaseRecord} {sales : List SalePayment}
      (loaded : c.skills.lookup key = some skill)
      (unsold : c.purchases.lookup (key, buyer) = none)
      (ran : purchaseSkill c.market.world key skill buyer signer accounts params =
        .ok (skill', record, sales)) :
      SkillMove c key (.purchase buyer signer accounts params)
        { c with
          skills := c.skills.insert key skill'
          purchases := c.purchases.insert (key, buyer) record } sales
  | rated {rater signer : Pubkey} {rating : ℕ} {reviewHash : Option Hash}
      {skill skill' : SkillRegistration} {purchase : PurchaseRecord} {record : SkillRating}
      (loaded : c.skills.lookup key = some skill)
      (unrated : c.skillRatings.lookup (key, rater) = none)
      (bought : c.purchases.lookup (key, rater) = some purchase)
      (ran : rateSkill c.market.world key skill purchase rater signer rating reviewHash =
        .ok (skill', record)) :
      SkillMove c key (.rate rater signer rating reviewHash)
        { c with
          skills := c.skills.insert key skill'
          skillRatings := c.skillRatings.insert (key, rater) record } []

theorem SkillOp.move {c c' : Community} {key : SkillKey} {op : SkillOp}
    {sales : List SalePayment} (h : op.run c key = .ok (c', sales)) :
    SkillMove c key op c' sales := by
  cases op with
  | register signer params =>
    simp only [SkillOp.run, bind_eq_ok, require_eq_ok, Except.ok.injEq, Prod.mk.injEq] at h
    obtain ⟨_, hfresh, _, hrun, rfl, rfl⟩ := h
    exact .registered hfresh hrun
  | update signer changes =>
    simp only [SkillOp.run, bind_eq_ok, demand_eq_ok, Except.ok.injEq, Prod.mk.injEq] at h
    obtain ⟨_, hskill, _, hrun, rfl, rfl⟩ := h
    exact .updated hskill hrun
  | purchase buyer signer accounts params =>
    simp only [SkillOp.run, bind_eq_ok, demand_eq_ok, require_eq_ok, Prod.exists,
      Except.ok.injEq, Prod.mk.injEq] at h
    obtain ⟨_, hskill, _, hunsold, _, _, _, hrun, rfl, rfl⟩ := h
    exact .purchased hskill hunsold hrun
  | rate rater signer rating reviewHash =>
    simp only [SkillOp.run, bind_eq_ok, demand_eq_ok, require_eq_ok, Prod.exists,
      Except.ok.injEq, Prod.mk.injEq] at h
    obtain ⟨_, hskill, _, hunrated, _, hbought, _, _, hrun, rfl, rfl⟩ := h
    exact .rated hskill hunrated hbought hrun

/-- What an instruction on the post at `key` does. -/
inductive FeedMove (c : Community) (key : PostKey) : FeedOp → Community → Prop
  | posted {signer : Pubkey} {contentHash topic : Hash} {parentPost : Option PostKey}
      {post : FeedPost} (fresh : c.posts.lookup key = none)
      (ran : postToFeed c.market.world key signer contentHash topic parentPost = .ok post) :
      FeedMove c key (.post signer contentHash topic parentPost)
        { c with posts := c.posts.insert key post }
  | upvoted {voter signer : Pubkey} {post post' : FeedPost} {vote : FeedAuthorityVote}
      (loaded : c.posts.lookup key = some post)
      (ran : upvotePostByAuthority c.market.world key post (c.upvotes.lookup (key, signer)) voter
        signer = .ok (post', vote)) :
      FeedMove c key (.upvoteByAuthority voter signer)
        { c with
          posts := c.posts.insert key post'
          upvotes := c.upvotes.insert (key, signer) vote }

theorem FeedOp.move {c c' : Community} {key : PostKey} {op : FeedOp}
    (h : op.run c key = .ok c') : FeedMove c key op c' := by
  cases op with
  | post signer contentHash topic parentPost =>
    simp only [FeedOp.run, bind_eq_ok, require_eq_ok, Except.ok.injEq] at h
    obtain ⟨_, hfresh, _, hrun, rfl⟩ := h
    exact .posted hfresh hrun
  | upvote =>
    simp only [FeedOp.run, upvotePost, bind_eq_ok, reduceCtorEq, false_and, exists_false] at h
  | upvoteByAuthority voter signer =>
    simp only [FeedOp.run, bind_eq_ok, demand_eq_ok, Prod.exists, Except.ok.injEq] at h
    obtain ⟨_, hpost, _, _, hrun, rfl⟩ := h
    exact .upvoted hpost hrun

/-- What an instruction on the reputation stake of `agent` does. -/
inductive StakeMoved (c : Community) (agent : Pubkey) : StakeOp → Community → Prop
  | staked {signer : Pubkey} {amount : ℕ} {stake : Account ReputationStake}
      (ran : stakeReputation c.market.world (c.stakes.lookup agent) agent signer amount =
        .ok stake) :
      StakeMoved c agent (.stake signer amount) { c with stakes := c.stakes.insert agent stake }
  | withdrawn {signer : Pubkey} {amount : ℕ} {stake stake' : Account ReputationStake}
      (loaded : c.stakes.lookup agent = some stake)
      (ran : withdrawReputationStake c.market.world stake agent signer amount = .ok stake') :
      StakeMoved c agent (.withdraw signer amount)
        { c with stakes := c.stakes.insert agent stake' }
  | donated {amount : ℕ} {stake : Account ReputationStake}
      (loaded : c.stakes.lookup agent = some stake) :
      StakeMoved c agent (.donate amount)
        { c with stakes := c.stakes.insert agent ⟨stake.lamports + amount, stake.data⟩ }

theorem StakeOp.moved {c c' : Community} {agent : Pubkey} {op : StakeOp}
    (h : op.run c agent = .ok c') : StakeMoved c agent op c' := by
  cases op with
  | stake signer amount =>
    simp only [StakeOp.run, bind_eq_ok, Except.ok.injEq] at h
    obtain ⟨_, hrun, rfl⟩ := h
    exact .staked hrun
  | withdraw signer amount =>
    simp only [StakeOp.run, bind_eq_ok, demand_eq_ok, Except.ok.injEq] at h
    obtain ⟨_, hstake, _, hrun, rfl⟩ := h
    exact .withdrawn hstake hrun
  | donate amount =>
    simp only [StakeOp.run, bind_eq_ok, demand_eq_ok, Except.ok.injEq] at h
    obtain ⟨_, hstake, rfl⟩ := h
    exact .donated hstake

/-- What the rating of a hire does. -/
structure HireRated (c : Community) (task signer : Pubkey) (score : ℕ) (c' : Community)
    (accounts : TaskAccounts) (hire : HireRecord) (ratings : ListingRatings) (record : HireRating) :
    Prop where
  loaded : c.market.world.tasks.lookup task = some accounts
  hired : accounts.hire = some hire
  listed : (c.market.listings.lookup hire.listing).isSome = true
  unrated : c.hireRatings.lookup task = none
  completed : accounts.task.status = .Completed
  qualified : accounts.task.ratingFeeQualified = true
  buyer : accounts.task.creator = signer
  bounds : 1 ≤ score ∧ score ≤ 5
  total : ratings.totalRating =
    ((c.listingRatings.lookup hire.listing).getD {}).totalRating + score
  count : ratings.ratingCount = ((c.listingRatings.lookup hire.listing).getD {}).ratingCount + 1
  ofListing : record.listing = hire.listing
  ofScore : record.score = score
  ofBuyer : record.buyer = signer
  after : c' = { c with
    listingRatings := c.listingRatings.insert hire.listing ratings
    hireRatings := c.hireRatings.insert task record }

theorem runRateHire_spec {c c' : Community} {task signer : Pubkey} {score : ℕ}
    {reviewHash : Option Hash} {reviewUri : String}
    (h : runRateHire c task signer score reviewHash reviewUri = .ok c') :
    ∃ accounts hire ratings record,
      HireRated c task signer score c' accounts hire ratings record := by
  simp only [runRateHire, rateHire, bind_eq_ok, demand_eq_ok, require_eq_ok, lift_eq_ok,
    addU64_eq_ok, addU32_eq_ok, Except.ok.injEq, Prod.exists, Prod.mk.injEq] at h
  obtain ⟨accounts, haccounts, hire, hhire, _, hlisted, _, hunrated, listing, ratings, record, h⟩ :=
    h
  obtain ⟨⟨hire', hhire', _, -, _, hbounds, _, -, _, hbuyer, _, hcompleted, h⟩, hafter⟩ := h
  obtain ⟨_, hqualified, _, ⟨-, rfl⟩, _, ⟨-, rfl⟩, rfl, rfl, rfl⟩ := h
  obtain rfl := Option.some.inj (hhire.symm.trans hhire')
  exact ⟨accounts, hire, _, _, haccounts, hhire, hlisted, hunrated, hcompleted, hqualified,
    hbuyer.symm, hbounds, rfl, rfl, rfl, rfl, rfl, hafter.symm⟩

/-- What one step does, group by group. -/
inductive CommunityMove (c : Community) :
    CommunityInstruction → Community → CommunityPayments → Prop
  | market {i : MarketInstruction} {market : Market} {paid : Payments} (shown : showsStake c i)
      (step : MarketStep c.market (i, paid) market) :
      CommunityMove c (.market i) { c with market := market } { market := paid }
  | skill {key : SkillKey} {op : SkillOp} {c' : Community} {sales : List SalePayment}
      (moved : SkillMove c key op c' sales) : CommunityMove c (.skill key op) c' { sales := sales }
  | feed {key : PostKey} {op : FeedOp} {c' : Community} (moved : FeedMove c key op c') :
      CommunityMove c (.feed key op) c' {}
  | reputation {agent : Pubkey} {op : StakeOp} {c' : Community} (moved : StakeMoved c agent op c') :
      CommunityMove c (.reputation agent op) c' {}
  | rateHire {task signer : Pubkey} {score : ℕ} {reviewHash : Option Hash} {reviewUri : String}
      {c' : Community} {accounts : TaskAccounts} {hire : HireRecord} {ratings : ListingRatings}
      {record : HireRating}
      (rated : HireRated c task signer score c' accounts hire ratings record) :
      CommunityMove c (.rateHire task signer score reviewHash reviewUri) c' {}

theorem CommunityStep.move {c c' : Community} {i : CommunityInstruction} {p : CommunityPayments}
    (h : CommunityStep c (i, p) c') : CommunityMove c i c' p := by
  have hexec : executeCommunity c i = .ok (c', p) := h
  cases i with
  | market i =>
    simp only [executeCommunity, bind_eq_ok, require_eq_ok, lift_eq_ok, Prod.exists,
      Except.ok.injEq, Prod.mk.injEq] at hexec
    obtain ⟨_, hshown, _, _, hstep, rfl, rfl⟩ := hexec
    exact .market hshown hstep
  | skill key op =>
    simp only [executeCommunity, bind_eq_ok, Prod.exists, Except.ok.injEq, Prod.mk.injEq] at hexec
    obtain ⟨_, _, hrun, rfl, rfl⟩ := hexec
    exact .skill (SkillOp.move hrun)
  | feed key op =>
    simp only [executeCommunity, bind_eq_ok, Except.ok.injEq, Prod.mk.injEq] at hexec
    obtain ⟨_, hrun, rfl, rfl⟩ := hexec
    exact .feed (FeedOp.move hrun)
  | reputation agent op =>
    simp only [executeCommunity, bind_eq_ok, Except.ok.injEq, Prod.mk.injEq] at hexec
    obtain ⟨_, hrun, rfl, rfl⟩ := hexec
    exact .reputation (StakeOp.moved hrun)
  | rateHire task signer score reviewHash reviewUri =>
    simp only [executeCommunity, bind_eq_ok, Except.ok.injEq, Prod.mk.injEq] at hexec
    obtain ⟨_, hrun, rfl, rfl⟩ := hexec
    obtain ⟨accounts, hire, ratings, record, hrated⟩ := runRateHire_spec hrun
    exact .rateHire hrated

/-- The market of a run of the community is one of a run of the marketplace. -/
theorem CommunityStep.market {c c' : Community} {i : CommunityInstruction} {p : CommunityPayments}
    (h : CommunityStep c (i, p) c') :
    c'.market = c.market ∨ ∃ j, i = .market j ∧ MarketStep c.market (j, p.market) c'.market := by
  cases h.move with
  | market shown step => exact .inr ⟨_, rfl, step⟩
  | skill moved => cases moved <;> exact .inl rfl
  | feed moved => cases moved <;> exact .inl rfl
  | reputation moved => cases moved <;> exact .inl rfl
  | rateHire rated =>
    rw [rated.after]
    exact .inl rfl

/-- An instruction on a skill, or one that leaves the skills and their records as they are. -/
theorem CommunityStep.skill {c c' : Community} {label : CommunityInstruction × CommunityPayments}
    (h : CommunityStep c label c') :
    (∃ key op, label.1 = .skill key op ∧ SkillMove c key op c' label.2.sales) ∨
      (∀ key op, label.1 ≠ .skill key op) ∧ c'.skills = c.skills ∧ c'.purchases = c.purchases ∧
        c'.skillRatings = c.skillRatings := by
  obtain ⟨i, p⟩ := label
  cases h.move with
  | market shown step => exact .inr ⟨by simp, rfl, rfl, rfl⟩
  | skill moved => exact .inl ⟨_, _, rfl, moved⟩
  | feed moved => cases moved <;> exact .inr ⟨by simp, rfl, rfl, rfl⟩
  | reputation moved => cases moved <;> exact .inr ⟨by simp, rfl, rfl, rfl⟩
  | rateHire rated =>
    rw [rated.after]
    exact .inr ⟨by simp, rfl, rfl, rfl⟩

/-- An instruction on the stake of `k`, or one that leaves it as it is. -/
theorem CommunityStep.stake {c c' : Community} {label : CommunityInstruction × CommunityPayments}
    (h : CommunityStep c label c') (k : Pubkey) :
    (∃ op, label.1 = .reputation k op ∧ StakeMoved c k op c') ∨
      (∀ op, label.1 ≠ .reputation k op) ∧ c'.stakes.lookup k = c.stakes.lookup k := by
  obtain ⟨i, p⟩ := label
  cases h.move with
  | market shown step => exact .inr ⟨by simp, rfl⟩
  | skill moved => cases moved <;> exact .inr ⟨by simp, rfl⟩
  | feed moved => cases moved <;> exact .inr ⟨by simp, rfl⟩
  | @reputation agent op _ moved =>
    by_cases hagent : agent = k
    · subst hagent
      exact .inl ⟨op, rfl, moved⟩
    · refine .inr ⟨by simp [hagent], ?_⟩
      cases moved <;> exact AList.lookup_insert_ne (Ne.symm hagent)
  | rateHire rated =>
    rw [rated.after]
    exact .inr ⟨by simp, rfl⟩

/-- The clock moves forward only, and the rent stays. -/
theorem CommunityStep.environment {c c' : Community}
    {label : CommunityInstruction × CommunityPayments} (h : CommunityStep c label c') :
    c.market.world.sys.now ≤ c'.market.world.sys.now ∧
      c'.market.world.sys.rent = c.market.world.sys.rent := by
  obtain ⟨i, p⟩ := label
  rcases h.market with hmarket | ⟨j, -, hstep⟩
  · rw [hmarket]
    exact ⟨le_rfl, rfl⟩
  · exact hstep.environment

/-- An instruction on a post, or one that leaves the feed and its votes as they are. -/
theorem CommunityStep.feed {c c' : Community} {label : CommunityInstruction × CommunityPayments}
    (h : CommunityStep c label c') :
    (∃ key op, label.1 = .feed key op ∧ FeedMove c key op c') ∨
      (∀ key op, label.1 ≠ .feed key op) ∧ c'.posts = c.posts ∧ c'.upvotes = c.upvotes := by
  obtain ⟨i, p⟩ := label
  cases h.move with
  | market shown step => exact .inr ⟨by simp, rfl, rfl⟩
  | skill moved => cases moved <;> exact .inr ⟨by simp, rfl, rfl⟩
  | feed moved => exact .inl ⟨_, _, rfl, moved⟩
  | reputation moved => cases moved <;> exact .inr ⟨by simp, rfl, rfl⟩
  | rateHire rated =>
    rw [rated.after]
    exact .inr ⟨by simp, rfl, rfl⟩

/-- An agent keeps its account and the wallet it was registered by. -/
theorem CommunityStep.authority {c c' : Community}
    {label : CommunityInstruction × CommunityPayments} (h : CommunityStep c label c') {k : Pubkey}
    {agent : Account AgentRegistration} (hagent : c.market.world.agents.lookup k = some agent) :
    ∃ agent', c'.market.world.agents.lookup k = some agent' ∧
      agent'.data.authority = agent.data.authority := by
  obtain ⟨i, p⟩ := label
  rcases h.market with hmarket | ⟨j, -, hstep⟩
  · rw [hmarket]
    exact ⟨agent, hagent, rfl⟩
  · rcases MarketStep.world hstep with hworld | ⟨_, _, -, hstep⟩
    · rw [hworld]
      exact ⟨agent, hagent, rfl⟩
    · exact hstep.authority hagent

/-- The rating of a hire, or an instruction that leaves the ratings as they are. -/
theorem CommunityStep.hire {c c' : Community} {label : CommunityInstruction × CommunityPayments}
    (h : CommunityStep c label c') :
    (∃ task signer score reviewHash reviewUri accounts hire ratings record,
      label.1 = .rateHire task signer score reviewHash reviewUri ∧
        HireRated c task signer score c' accounts hire ratings record) ∨
      (∀ task signer score reviewHash reviewUri,
        label.1 ≠ .rateHire task signer score reviewHash reviewUri) ∧
        c'.listingRatings = c.listingRatings ∧ c'.hireRatings = c.hireRatings := by
  obtain ⟨i, p⟩ := label
  cases h.move with
  | market shown step => exact .inr ⟨by simp, rfl, rfl⟩
  | skill moved => cases moved <;> exact .inr ⟨by simp, rfl, rfl⟩
  | feed moved => cases moved <;> exact .inr ⟨by simp, rfl, rfl⟩
  | reputation moved => cases moved <;> exact .inr ⟨by simp, rfl, rfl⟩
  | rateHire rated => exact .inl ⟨_, _, _, _, _, _, _, _, _, rfl, rated⟩

end AgencCoordination
