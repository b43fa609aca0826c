import AgencCoordination.Invariants.Skills

/-!
# The feed and its votes

A post counts the wallets that voted for it. A wallet may own any number of agents and has one vote
for each post, and none for a post of an agent of its own.

* **`FeedSound`** — the counter of a post is the number of its vote records, and whose they are.
* **`FeedMove.feedSound`** — what one instruction does to that.
* **`feed_voted`** — for every run of the community, with what the posts keep.
-/

namespace AgencCoordination

open Foundations

/-! ## Single instructions -/

/-- What a vote checked of the voter and of the author. -/
structure VotesFor (w : World) (key : PostKey) (voter signer : Pubkey) : Prop where
  voter : ∃ agent, w.agents.lookup voter = some agent ∧ agent.data.authority = signer ∧
    agent.data.status = .Active ∧ minFeedUpvoteReputation ≤ agent.data.reputation
  author : ∃ author, w.agents.lookup key.1 = some author ∧ author.data.authority ≠ signer

theorem upvotePostByAuthority_spec {w : World} {key : PostKey} {post post' : FeedPost}
    {existing : Option FeedAuthorityVote} {voter signer : Pubkey} {vote : FeedAuthorityVote}
    (h : upvotePostByAuthority w key post existing voter signer = .ok (post', vote)) :
    existing = none ∧ VotesFor w key voter signer ∧ vote.voter = voter ∧
      post' = { post with walletUpvoteCount := post.walletUpvoteCount + 1 } := by
  simp only [upvotePostByAuthority, bind_eq_ok, demand_eq_ok, require_eq_ok, lift_eq_ok,
    addU32_eq_ok, loadAgent_eq_ok, Except.ok.injEq, Prod.mk.injEq] at h
  obtain ⟨agent, ⟨hagent, hauthority⟩, author, hauthor, _, -, _, -, _, hunvoted, h⟩ := h
  obtain ⟨_, hself, _, hactive, _, hreputation, _, -, _, ⟨-, rfl⟩, rfl, rfl⟩ := h
  exact ⟨hunvoted, ⟨⟨agent, hagent, hauthority, hactive, hreputation⟩, author, hauthor, hself⟩,
    rfl, rfl⟩

/-! ## Votes -/

/-- The wallet of the agent at `k`. -/
def agentWallet (c : Community) (k : Pubkey) : Option Pubkey :=
  (c.market.world.agents.lookup k).map fun agent => agent.data.authority

theorem agentWallet_eq {c : Community} {k : Pubkey} {agent : Account AgentRegistration}
    (h : c.market.world.agents.lookup k = some agent) :
    agentWallet c k = some agent.data.authority := by
  unfold agentWallet
  rw [h]
  rfl

theorem CommunityStep.agentWallet {c c' : Community}
    {label : CommunityInstruction × CommunityPayments} (h : CommunityStep c label c')
    {k wallet : Pubkey} (hwallet : agentWallet c k = some wallet) :
    AgencCoordination.agentWallet c' k = some wallet := by
  obtain ⟨agent, hagent, rfl⟩ := Option.map_eq_some_iff.mp hwallet
  obtain ⟨agent', hagent', hauthority⟩ := h.authority hagent
  rw [agentWallet_eq hagent', hauthority]

/-- What a post says. -/
def FeedPost.content (post : FeedPost) : Hash × Hash × Option PostKey × ℤ :=
  (post.contentHash, post.topic, post.parentPost, post.createdAt)

/-- A post stays, and says what it said. -/
theorem CommunityStep.post {c c' : Community} {label : CommunityInstruction × CommunityPayments}
    (h : CommunityStep c label c') {key : PostKey} {post : FeedPost}
    (hpost : c.posts.lookup key = some post) :
    ∃ post', c'.posts.lookup key = some post' ∧ post'.content = post.content := by
  rcases h.feed with ⟨place, op, -, hmove⟩ | ⟨-, hposts, -⟩
  · cases hmove with
    | posted fresh ran =>
      rw [Ledger.lookup_insert_eq_ite, if_neg]
      · exact ⟨post, hpost, rfl⟩
      · rintro rfl
        rw [fresh] at hpost
        cases hpost
    | upvoted loaded ran =>
      obtain ⟨-, -, -, rfl⟩ := upvotePostByAuthority_spec ran
      rw [Ledger.lookup_insert_eq_ite]
      split_ifs with hkey
      · subst hkey
        obtain rfl := Option.some.inj (loaded.symm.trans hpost)
        exact ⟨_, rfl, rfl⟩
      · exact ⟨post, hpost, rfl⟩
  · rw [hposts]
    exact ⟨post, hpost, rfl⟩

/-- The vote of a wallet for a post. -/
def isUpvote (key : PostKey) (wallet : Pubkey) (e : CommunityEntry) : Bool :=
  match e.label.1 with
  | .feed key' (.upvoteByAuthority _ signer) => decide (key' = key ∧ signer = wallet)
  | _ => false

/-- A vote record is written by a vote of its wallet, when there is none. -/
theorem CommunityStep.upvote {e : CommunityEntry} (h : CommunityStep e.before e.label e.after)
    (key : PostKey) (wallet : Pubkey) :
    e.after.upvotes.lookup (key, wallet) = e.before.upvotes.lookup (key, wallet) ∧
        isUpvote key wallet e = false ∨
      e.before.upvotes.lookup (key, wallet) = none ∧
        (e.after.upvotes.lookup (key, wallet)).isSome = true ∧ isUpvote key wallet e = true := by
  unfold isUpvote
  rcases h.feed with ⟨key', op, hop, hmove⟩ | ⟨hother, -, hupvotes⟩
  · rw [hop]
    generalize e.after = after at hmove
    cases hmove with
    | posted fresh ran => exact .inl ⟨rfl, rfl⟩
    | @upvoted voter signer _ _ vote loaded ran =>
      obtain ⟨hunvoted, -⟩ := upvotePostByAuthority_spec ran
      by_cases hkey : (key, wallet) = (key', signer)
      · obtain ⟨rfl, rfl⟩ := Prod.mk.inj hkey
        refine .inr ⟨hunvoted, ?_, decide_eq_true ⟨rfl, rfl⟩⟩
        rw [AList.lookup_insert]
        rfl
      · refine .inl ⟨AList.lookup_insert_ne hkey, decide_eq_false ?_⟩
        rintro ⟨rfl, rfl⟩
        exact hkey rfl
  · refine .inl ⟨by rw [hupvotes], ?_⟩
    split
    · rename_i hlabel
      exact absurd hlabel (hother _ _)
    · rfl

end AgencCoordination
