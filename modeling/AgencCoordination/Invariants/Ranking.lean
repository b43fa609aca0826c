import Mathlib.Data.Prod.Lex
import AgencCoordination.Foundations.Champion
import AgencCoordination.Invariants.BidAccounts
import AgencCoordination.Invariants.Finished
import AgencCoordination.Invariants.Winners

/-!
# The tracked winner is the best bid

The three matching policies rank bids in a linear order. A book tracks the best of the bids that
were created, updated or promoted since it last lost its winner, whatever their order, and only
that bid is accepted, at the terms the creator named and after the grace that follows a loss. A
settlement that reopens a book breaks this, as it leaves a winner without a bid.

* **`candidateIsBetter_iff`** — each policy compares ranks.
* **`BidMove.champion`** — one presentation keeps the best bid tracked.
* **`tracked_winner_best`** — so does every run that reopens no book.
* **`reopened_winner_blocks`** — after a reopening the book tracks none of its bids.
-/

namespace AgencCoordination

open Foundations

/-! ## Ranks -/

/-- Where a policy places a candidate, the best first: by score or not, by price and estimate or
the other way round, then by confidence, reputation and address. -/
def BidCandidate.rank (policy : MatchingPolicy) (c : BidCandidate) :
    ℤ ×ₗ ℤ ×ₗ ℤ ×ₗ ℤ ×ₗ ℤ ×ₗ ℤ :=
  match policy with
  | .BestPrice => toLex (0, toLex (c.requestedRewardLamports, toLex (c.etaSeconds,
      toLex (-c.confidenceBps, toLex (-c.reputationSnapshotBps, c.key)))))
  | .BestEta => toLex (0, toLex (c.etaSeconds, toLex (c.requestedRewardLamports,
      toLex (-c.confidenceBps, toLex (-c.reputationSnapshotBps, c.key)))))
  | .WeightedScore => toLex (-c.weightedScore, toLex (c.requestedRewardLamports,
      toLex (c.etaSeconds, toLex (-c.confidenceBps, toLex (-c.reputationSnapshotBps, c.key)))))

/-- Every policy compares ranks, so it is a strict total order. -/
theorem candidateIsBetter_iff {candidate incumbent : BidCandidate} {policy : MatchingPolicy} :
    candidateIsBetter candidate incumbent policy = true ↔
      candidate.rank policy < incumbent.rank policy := by
  cases policy with
  | BestPrice =>
    simp only [candidateIsBetter, lowerPriceTieBreak, BidCandidate.rank, Prod.Lex.toLex_lt_toLex,
      Bool.or_eq_true, Bool.and_eq_true, decide_eq_true_eq, lt_self_iff_false, false_or, true_and,
      Int.ofNat_lt, Int.ofNat_inj, Int.neg_lt_neg_iff, neg_inj]
  | BestEta =>
    simp only [candidateIsBetter, lowerEtaTieBreak, BidCandidate.rank, Prod.Lex.toLex_lt_toLex,
      Bool.or_eq_true, Bool.and_eq_true, decide_eq_true_eq, lt_self_iff_false, false_or, true_and,
      Int.ofNat_lt, Int.ofNat_inj, Int.neg_lt_neg_iff, neg_inj]
  | WeightedScore =>
    simp only [candidateIsBetter, lowerPriceTieBreak, BidCandidate.rank, Prod.Lex.toLex_lt_toLex,
      Bool.or_eq_true, Bool.and_eq_true, decide_eq_true_eq, Int.ofNat_lt, Int.ofNat_inj,
      Int.neg_lt_neg_iff, neg_inj]

/-- Candidates of equal rank have the same address. -/
theorem BidCandidate.key_of_rank {policy : MatchingPolicy} {c c' : BidCandidate}
    (h : c.rank policy = c'.rank policy) : c.key = c'.key := by
  have hinj {x y : ℤ ×ₗ ℤ ×ₗ ℤ ×ₗ ℤ ×ₗ ℤ ×ₗ ℤ} (h : x = y) :
      (ofLex (ofLex (ofLex (ofLex (ofLex x).2).2).2).2).2 =
        (ofLex (ofLex (ofLex (ofLex (ofLex y).2).2).2).2).2 := by rw [h]
  have hkey := hinj h
  cases policy <;> exact Int.ofNat.inj hkey

/-! ## Candidates -/

/-- What a book fixes when it is opened: how its bids are scored and compared. -/
structure BookRules where
  policy : MatchingPolicy
  scoreWindowSecs : ℕ
  weights : WeightedScoreWeights

def TaskBidBook.rules (book : TaskBidBook) : BookRules :=
  ⟨book.policy, book.scoreWindowSecs, book.weights⟩

/-- The candidates that the live bids of the bidders in `presented` make in a book. -/
def candidates (address : Pubkey → Pubkey) (rewardAmount : ℕ) (book : TaskBidBook)
    (bids : Ledger Pubkey (Account TaskBid)) (presented : Pubkey → Prop) : Set BidCandidate :=
  {c | ∃ k bid, presented k ∧ bids.lookup k = some bid ∧ bid.data.state.isOpen = true ∧
    CandidateOf (address k) bid.data c ∧ Scores book rewardAmount bid.data c.weightedScore}

/-- The winner a book tracks is the best of these candidates. -/
def TracksBest (address : Pubkey → Pubkey) (task : Task) (book : TaskBidBook)
    (bids : Ledger Pubkey (Account TaskBid)) (presented : Pubkey → Prop) : Prop :=
  ∃ winner, cachedBestCandidate book task = .ok winner ∧
    Champion (BidCandidate.rank book.policy)
      (candidates address task.rewardAmount book bids presented) winner

/-- The bids of one task have different addresses, none of them the default one. -/
structure DistinctAddresses (address : Pubkey → Pubkey) : Prop where
  injective : Function.Injective address
  ne_zero : ∀ k, address k ≠ 0

section Candidates

variable {address : Pubkey → Pubkey} {rewardAmount : ℕ} {task task' : Task}
  {book book' : TaskBidBook} {bids bids' : Ledger Pubkey (Account TaskBid)}
  {presented presented' : Pubkey → Prop} {bid : TaskBid} {c c' : BidCandidate} {key : Pubkey}

/-- A bid makes one candidate at most. -/
theorem CandidateOf.unique (h : CandidateOf key bid c) (h' : CandidateOf key bid c')
    (hscore : Scores book rewardAmount bid c.weightedScore)
    (hscore' : Scores book rewardAmount bid c'.weightedScore) : c = c' := by
  obtain ⟨hkey, hreward, heta, hconfidence, hreputation⟩ := h
  obtain ⟨hkey', hreward', heta', hconfidence', hreputation'⟩ := h'
  have hsame : c.weightedScore = c'.weightedScore :=
    Option.some.inj (Except.ok.inj (hscore.symm.trans hscore'))
  cases c
  cases c'
  simp only [BidCandidate.mk.injEq]
  exact ⟨hkey.trans hkey'.symm, hreward.trans hreward'.symm, heta.trans heta'.symm,
    hconfidence.trans hconfidence'.symm, hreputation.trans hreputation'.symm, hsame⟩

theorem Scores.congr (hrules : book'.rules = book.rules) {score : ℕ} :
    Scores book' rewardAmount bid score ↔ Scores book rewardAmount bid score := by
  obtain ⟨-, hwindow, hweights⟩ := BookRules.mk.inj hrules
  rw [Scores, hwindow, hweights, Scores]

theorem candidates_congr (hrules : book'.rules = book.rules) :
    candidates address rewardAmount book' bids presented =
      candidates address rewardAmount book bids presented := by
  ext c
  simp only [candidates, Set.mem_ofPred_eq, Scores.congr hrules]

/-- Only who presented what matters, not the balances of the bids. -/
theorem candidates_same (hpresented : ∀ k, presented' k ↔ presented k)
    (hsame : ∀ k, (bids'.lookup k).map Account.data = (bids.lookup k).map Account.data) :
    candidates address rewardAmount book bids' presented' =
      candidates address rewardAmount book bids presented := by
  ext c
  constructor
  · rintro ⟨k, bid, hk, hbid, hrest⟩
    have hmap := hsame k
    rw [hbid, Option.map_some] at hmap
    obtain ⟨bid₀, hbid₀, hdata⟩ := Option.map_eq_some_iff.mp hmap.symm
    rw [← hdata] at hrest
    exact ⟨k, bid₀, (hpresented k).mp hk, hbid₀, hrest⟩
  · rintro ⟨k, bid, hk, hbid, hrest⟩
    have hmap := hsame k
    rw [hbid, Option.map_some] at hmap
    obtain ⟨bid₀, hbid₀, hdata⟩ := Option.map_eq_some_iff.mp hmap
    rw [← hdata] at hrest
    exact ⟨k, bid₀, (hpresented k).mpr hk, hbid₀, hrest⟩

/-- The tracked winner is read off the rules and the tracked part of the book. -/
theorem cachedBestCandidate_congr (hrules : book'.rules = book.rules)
    (htracked : book'.tracked = book.tracked) (hreward : task'.rewardAmount = task.rewardAmount) :
    cachedBestCandidate book' task' = cachedBestCandidate book task := by
  obtain ⟨-, hwindow, hweights⟩ := BookRules.mk.inj hrules
  obtain ⟨hbest, hrewardLamports, heta, hconfidence, hreputation⟩ := Tracked.mk.inj htracked
  simp only [cachedBestCandidate, hwindow, hweights, hbest, hrewardLamports, heta, hconfidence,
    hreputation, hreward]

theorem TracksBest.congr (h : TracksBest address task book bids presented)
    (hrules : book'.rules = book.rules) (htracked : book'.tracked = book.tracked)
    (hreward : task'.rewardAmount = task.rewardAmount) :
    TracksBest address task' book' bids presented := by
  obtain ⟨winner, hcached, hchampion⟩ := h
  refine ⟨winner, (cachedBestCandidate_congr hrules htracked hreward).trans hcached, ?_⟩
  rw [candidates_congr hrules, hreward, (BookRules.mk.inj hrules).1]
  exact hchampion

/-- A tracked winner has the tracked address. -/
theorem cachedBestCandidate_spec {winner : Option BidCandidate}
    (h : cachedBestCandidate book task = .ok winner) :
    (winner = none ↔ book.bestBid = 0) ∧ ∀ best, winner = some best → best.key = book.bestBid := by
  unfold cachedBestCandidate at h
  rcases ite_eq_iff.mp h with ⟨hnone, h⟩ | ⟨hsome, h⟩
  · obtain rfl := Except.ok.inj h
    refine ⟨⟨fun _ => hnone, fun _ => rfl⟩, ?_⟩
    intro best hbest
    cases hbest
  · simp only [bind_eq_ok, demand_eq_ok, Except.ok.injEq] at h
    obtain ⟨score, -, weightedScore, -, rfl⟩ := h
    refine ⟨⟨?_, fun hnone => absurd hnone hsome⟩, ?_⟩
    · intro hwinner
      cases hwinner
    · intro best hbest
      rw [← Option.some.inj hbest]

/-- What was installed is tracked. -/
theorem cachedBestCandidate_install (hkey : c.key ≠ 0) (hcandidate : CandidateOf key bid c)
    (hscore : Scores book task.rewardAmount bid c.weightedScore) :
    cachedBestCandidate (installBest book c) task = .ok (some c) := by
  have hscore : weightedTermsScore c.requestedRewardLamports c.etaSeconds c.confidenceBps
      c.reputationSnapshotBps task.rewardAmount book.scoreWindowSecs book.weights
        = .ok (some c.weightedScore) := by
    rw [hcandidate.reward, hcandidate.eta, hcandidate.confidence, hcandidate.reputation]
    exact hscore
  have hkey : (installBest book c).bestBid ≠ 0 := hkey
  rw [cachedBestCandidate, if_neg hkey]
  simp only [installBest, bind_eq_ok, demand_eq_ok]
  exact ⟨_, hscore, _, rfl, rfl⟩

/-- A candidate is presented to the champion of the others. -/
theorem champion_present {policy : MatchingPolicy} {entries entries' : Set BidCandidate}
    {winner : Option BidCandidate} (h : Champion (BidCandidate.rank policy) entries winner)
    (hnew : c ∈ entries') (hsub : ∀ rival ∈ entries', rival ≠ c → rival ∈ entries)
    (hstay : ∀ best, winner = some best → takesLead policy c winner = false →
      best ∈ entries' ∧ best.key ≠ c.key) :
    Champion (BidCandidate.rank policy) entries'
      (if takesLead policy c winner then some c else winner) := by
  cases winner with
  | none => exact h.first hnew hsub
  | some best =>
    split_ifs with hleads
    · exact h.overtake (candidateIsBetter_iff.mp hleads) hnew hsub
    · obtain ⟨hbest, hkey⟩ := hstay best rfl (Bool.eq_false_iff.mpr hleads)
      refine h.withstand (fun hlt => hleads (candidateIsBetter_iff.mpr hlt)) ?_ hbest hsub
      exact fun htie => hkey (BidCandidate.key_of_rank htie).symm

/-- Of the candidates after the bid of `k` was written, only that of `k` is new. -/
theorem candidates_write (haddress : DistinctAddresses address) {k : Pubkey}
    {account : Account TaskBid} (hpresented : ∀ j, presented' j → presented j ∨ j = k)
    (hother : ∀ j, j ≠ k → bids'.lookup j = bids.lookup j)
    (hself : bids'.lookup k = some account) {rival : BidCandidate}
    (hrival : rival ∈ candidates address rewardAmount book bids' presented') :
    CandidateOf (address k) account.data rival ∧
        Scores book rewardAmount account.data rival.weightedScore ∨
      rival ∈ candidates address rewardAmount book bids presented ∧ rival.key ≠ address k := by
  obtain ⟨j, bid, hj, hbid, hopen, hcandidate, hscore⟩ := hrival
  by_cases hjk : j = k
  · subst hjk
    obtain rfl := Option.some.inj (hbid.symm.trans hself)
    exact .inl ⟨hcandidate, hscore⟩
  · rcases hpresented j hj with hj | hj
    · rw [hother j hjk] at hbid
      refine .inr ⟨⟨j, bid, hj, hbid, hopen, hcandidate, hscore⟩, ?_⟩
      rw [hcandidate.key]
      exact fun heq => hjk (haddress.injective heq)
    · exact absurd hj hjk

/-- The candidates of the others stay when the bid of `k` is written or closed. -/
theorem candidates_stay {k : Pubkey} (hpresented : ∀ j, j ≠ k → presented j → presented' j)
    (hother : ∀ j, j ≠ k → bids'.lookup j = bids.lookup j) {rival : BidCandidate}
    (hrival : rival ∈ candidates address rewardAmount book bids presented)
    (hkey : rival.key ≠ address k) :
    rival ∈ candidates address rewardAmount book bids' presented' := by
  obtain ⟨j, bid, hj, hbid, hopen, hcandidate, hscore⟩ := hrival
  have hjk : j ≠ k := fun heq => hkey (heq ▸ hcandidate.key)
  exact ⟨j, bid, hpresented j hjk hj, (hother j hjk).trans hbid, hopen, hcandidate, hscore⟩

/-- Where `k` makes no candidate after its bid was written, no candidate is new. -/
theorem champion_unscored {winner : Option BidCandidate} (haddress : DistinctAddresses address)
    {k : Pubkey} {account : Account TaskBid}
    (h : Champion (BidCandidate.rank book.policy)
      (candidates address rewardAmount book bids presented) winner)
    (hpresented : ∀ j, presented' j ↔ presented j ∨ j = k)
    (hother : ∀ j, j ≠ k → bids'.lookup j = bids.lookup j)
    (hself : bids'.lookup k = some account)
    (hunscored : ∀ score, ¬Scores book rewardAmount account.data score)
    (hwinner : ∀ best, winner = some best → best.key ≠ address k) :
    Champion (BidCandidate.rank book.policy)
      (candidates address rewardAmount book bids' presented') winner := by
  have hsub (rival : BidCandidate)
      (hrival : rival ∈ candidates address rewardAmount book bids' presented') :
      rival ∈ candidates address rewardAmount book bids presented := by
    rcases candidates_write haddress (fun j => (hpresented j).mp) hother hself hrival with
      ⟨-, hscore⟩ | ⟨hwas, -⟩
    · exact absurd hscore (hunscored _)
    · exact hwas
  cases winner with
  | none =>
    have h : candidates address rewardAmount book bids presented = ∅ := h
    exact Set.eq_empty_iff_forall_notMem.mpr fun rival hrival =>
      Set.notMem_empty rival (h ▸ hsub rival hrival)
  | some best =>
    refine h.retain ?_ fun rival hrival _ => hsub rival hrival
    exact candidates_stay (fun j _ hj => (hpresented j).mpr (.inl hj)) hother h.1
      (hwinner best rfl)

end Candidates

/-! ## One presentation -/

section Presentation

variable {address : Pubkey → Pubkey} {task : Task} {book book₁ book' : TaskBidBook}
  {bids bids' : Ledger Pubkey (Account TaskBid)} {presented presented' : Pubkey → Prop}
  {account : Account TaskBid} {candidate : BidCandidate} {k : Pubkey}

/-- A champion that is installed is tracked. -/
theorem TracksBest.install (haddress : DistinctAddresses address)
    (hcandidate : CandidateOf (address k) account.data candidate)
    (hscore : Scores book task.rewardAmount account.data candidate.weightedScore)
    (h : Champion (BidCandidate.rank book.policy)
      (candidates address task.rewardAmount book bids presented) (some candidate)) :
    TracksBest address task (installBest book candidate) bids presented := by
  have hkey : candidate.key ≠ 0 := by
    rw [hcandidate.key]
    exact haddress.ne_zero k
  have hsame : candidates address task.rewardAmount (installBest book candidate) bids presented =
      candidates address task.rewardAmount book bids presented := candidates_congr rfl
  refine ⟨some candidate, cachedBestCandidate_install hkey hcandidate hscore, ?_⟩
  rw [hsame]
  exact h

/-- A bid of `k` that is presented as a candidate leaves the best bid tracked, when it takes the
lead or the leader is another. -/
theorem TracksBest.present (haddress : DistinctAddresses address)
    (h : TracksBest address task book bids presented)
    (hpresented : ∀ j, presented' j ↔ presented j ∨ j = k)
    (hother : ∀ j, j ≠ k → bids'.lookup j = bids.lookup j)
    (hself : bids'.lookup k = some account) (hopen : account.data.state.isOpen = true)
    (hcandidate : CandidateOf (address k) account.data candidate)
    (hscore : Scores book task.rewardAmount account.data candidate.weightedScore)
    {incumbent : Option BidCandidate} (hincumbent : cachedBestCandidate book task = .ok incumbent)
    (hleads : takesLead book.policy candidate incumbent = true ∨ book.bestBid ≠ address k) :
    TracksBest address task (if takesLead book.policy candidate incumbent then
      installBest book candidate else book) bids' presented' := by
  obtain ⟨winner, hcached, hchampion⟩ := h
  obtain rfl := Except.ok.inj (hcached.symm.trans hincumbent)
  have hnew : candidate ∈ candidates address task.rewardAmount book bids' presented' :=
    ⟨k, account, (hpresented k).mpr (.inr rfl), hself, hopen, hcandidate, hscore⟩
  have hsub (rival : BidCandidate)
      (hrival : rival ∈ candidates address task.rewardAmount book bids' presented')
      (hne : rival ≠ candidate) :
      rival ∈ candidates address task.rewardAmount book bids presented := by
    rcases candidates_write haddress (fun j => (hpresented j).mp) hother hself hrival with
      ⟨hrival, hrivalScore⟩ | ⟨hwas, -⟩
    · exact absurd (hrival.unique hcandidate hrivalScore hscore) hne
    · exact hwas
  have hafter := champion_present hchampion hnew hsub fun best hbest hloses => by
    have hkey : best.key ≠ address k := by
      rcases hleads with hleads | hleads
      · rw [hleads] at hloses
        cases hloses
      · rw [(cachedBestCandidate_spec hcached).2 best hbest]
        exact hleads
    refine ⟨?_, ?_⟩
    · rw [hbest] at hchampion
      exact candidates_stay (fun j _ hj => (hpresented j).mpr (.inl hj)) hother hchampion.1 hkey
    · rw [hcandidate.key]
      exact hkey
  split_ifs at hafter ⊢ with htakes
  · exact .install haddress hcandidate hscore hafter
  · exact ⟨winner, hcached, hafter⟩

/-- So does a bid of `k` that makes no candidate, when `k` does not lead. -/
theorem TracksBest.unscored (haddress : DistinctAddresses address)
    (h : TracksBest address task book bids presented)
    (hpresented : ∀ j, presented' j ↔ presented j ∨ j = k)
    (hother : ∀ j, j ≠ k → bids'.lookup j = bids.lookup j)
    (hself : bids'.lookup k = some account)
    (hunscored : ∀ score, ¬Scores book task.rewardAmount account.data score)
    (hleads : book.bestBid ≠ address k) : TracksBest address task book bids' presented' := by
  obtain ⟨winner, hcached, hchampion⟩ := h
  refine ⟨winner, hcached, ?_⟩
  refine champion_unscored haddress hchampion hpresented hother hself hunscored ?_
  intro best hbest
  rw [(cachedBestCandidate_spec hcached).2 best hbest]
  exact hleads

/-- The rule for a bid of another than the leader, whether it makes a candidate or not. -/
theorem TracksBest.track (haddress : DistinctAddresses address)
    (h : TracksBest address task book bids presented)
    (hpresented : ∀ j, presented' j ↔ presented j ∨ j = k)
    (hother : ∀ j, j ≠ k → bids'.lookup j = bids.lookup j)
    (hself : bids'.lookup k = some account) (hopen : account.data.state.isOpen = true)
    {made : Option BidCandidate}
    (hmade : ∀ candidate, made = some candidate → CandidateOf (address k) account.data candidate ∧
      Scores book task.rewardAmount account.data candidate.weightedScore)
    (hunscored : made = none → ∀ score, ¬Scores book task.rewardAmount account.data score)
    (hleads : book.bestBid ≠ address k) (htracked : trackCandidate book task made = .ok book') :
    TracksBest address task book' bids' presented' := by
  rcases trackCandidate_spec htracked with ⟨hnone, rfl⟩ |
    ⟨candidate, incumbent, hsome, hincumbent, rfl⟩
  · exact h.unscored haddress hpresented hother hself (hunscored hnone) hleads
  · obtain ⟨hcandidate, hscore⟩ := hmade candidate hsome
    exact h.present haddress hpresented hother hself hopen hcandidate hscore hincumbent
      (.inr hleads)

/-- The leader is one of the bids. -/
theorem TracksBest.leader (haddress : DistinctAddresses address)
    (h : TracksBest address task book bids presented) (hleads : book.bestBid = address k) :
    (bids.lookup k).isSome = true := by
  obtain ⟨winner, hcached, hchampion⟩ := h
  obtain ⟨hnone, hkey⟩ := cachedBestCandidate_spec hcached
  cases winner with
  | none => exact absurd (hleads.symm.trans (hnone.mp rfl)) (haddress.ne_zero k)
  | some best =>
    obtain ⟨⟨j, bid, -, hbid, -, hcandidate, -⟩, -⟩ := hchampion
    have hsame : address j = address k := by
      rw [← hcandidate.key, hkey best rfl, hleads]
    rw [← haddress.injective hsame, hbid]
    rfl

/-- So does the leader with terms that are not worse. -/
theorem TracksBest.refresh (haddress : DistinctAddresses address)
    (h : TracksBest address task book bids presented)
    (hpresented : ∀ j, presented' j ↔ presented j ∨ j = k)
    (hother : ∀ j, j ≠ k → bids'.lookup j = bids.lookup j)
    (hself : bids'.lookup k = some account) (hopen : account.data.state.isOpen = true)
    (hcandidate : CandidateOf (address k) account.data candidate)
    (hscore : Scores book task.rewardAmount account.data candidate.weightedScore)
    {before : BidCandidate} (hbefore : cachedBestCandidate book task = .ok (some before))
    (hleads : book.bestBid = address k)
    (hnotWorse : candidateIsBetter before candidate book.policy = false) :
    TracksBest address task (installBest book candidate) bids' presented' := by
  obtain ⟨winner, hcached, hchampion⟩ := h
  obtain rfl := Except.ok.inj (hcached.symm.trans hbefore)
  have hkey : before.key = address k := by
    rw [(cachedBestCandidate_spec hcached).2 before rfl]
    exact hleads
  have hle : candidate.rank book.policy ≤ before.rank book.policy := by
    refine not_lt.mp fun hlt => ?_
    rw [candidateIsBetter_iff.mpr hlt] at hnotWorse
    cases hnotWorse
  refine .install haddress hcandidate hscore (hchampion.replace hle ?_ fun rival hrival hne => ?_)
  · exact ⟨k, account, (hpresented k).mpr (.inr rfl), hself, hopen, hcandidate, hscore⟩
  · rcases candidates_write haddress (fun j => (hpresented j).mp) hother hself hrival with
      ⟨hrival, hrivalScore⟩ | ⟨hwas, hrivalKey⟩
    · exact absurd (hrival.unique hcandidate hrivalScore hscore) hne
    · exact ⟨hwas, fun heq => hrivalKey (heq ▸ hkey)⟩

/-- Other bids may be closed. -/
theorem TracksBest.close (h : TracksBest address task book bids presented) (hleads : book.bestBid ≠ address k) :
    TracksBest address task book (bids.erase k) presented := by
  obtain ⟨winner, hcached, hchampion⟩ := h
  refine ⟨winner, hcached, ?_⟩
  have hsub (rival : BidCandidate)
      (hrival : rival ∈ candidates address task.rewardAmount book (bids.erase k) presented) :
      rival ∈ candidates address task.rewardAmount book bids presented := by
    obtain ⟨j, bid, hj, hbid, hrest⟩ := hrival
    rw [Ledger.lookup_erase_eq_ite] at hbid
    split_ifs at hbid
    exact ⟨j, bid, hj, hbid, hrest⟩
  cases winner with
  | none =>
    have hchampion : candidates address task.rewardAmount book bids presented = ∅ := hchampion
    exact Set.eq_empty_iff_forall_notMem.mpr fun rival hrival =>
      Set.notMem_empty rival (hchampion ▸ hsub rival hrival)
  | some best =>
    refine hchampion.retain ?_ fun rival hrival _ => hsub rival hrival
    refine candidates_stay (fun _ _ hj => hj) (fun j hj => AList.lookup_erase_ne hj) hchampion.1 ?_
    rw [(cachedBestCandidate_spec hcached).2 best rfl]
    exact hleads

/-- Without candidates no bid is tracked. -/
theorem TracksBest.of_none (hbest : book.bestBid = 0)
    (hnone : ∀ j bid, presented j → bids.lookup j = some bid → False) :
    TracksBest address task book bids presented := by
  refine ⟨none, by rw [cachedBestCandidate, if_pos hbest], ?_⟩
  refine Set.eq_empty_iff_forall_notMem.mpr fun rival hrival => ?_
  obtain ⟨j, bid, hj, hbid, -⟩ := hrival
  exact hnone j bid hj hbid

end Presentation

/-- A bid instruction that presents a bid, in a book that tracks the best of the bids presented
before. -/
theorem BidMove.tracksBest {c : TaskContext} {kind : BidKind} {book' : TaskBidBook}
    {bids' : Ledger Pubkey (Account TaskBid)} {bidder' : Option BidderMarketState}
    {ts : List Transfer} (h : BidMove c kind (some book') bids' bidder' ts)
    (hkind : kind ≠ .removed) (haddress : DistinctAddresses (c.sys.bidAddress c.key))
    {presented presented' : Pubkey → Prop}
    (hpresented : ∀ j, presented' j ↔ presented j ∨ j = c.workerKey)
    (hbest : ∀ book, c.accounts.bidBook = some book → book.state = .Open →
      TracksBest (c.sys.bidAddress c.key) c.accounts.task book c.accounts.bids presented) :
    TracksBest (c.sys.bidAddress c.key) c.accounts.task book' bids' presented' := by
  cases h with
  | @created book _ version totalBids bid candidate _ opened isOpen fresh bound authority backed
      capped makes unscored tracked counted =>
    have hwas := hbest book opened isOpen
    have hleads : book.bestBid ≠ c.sys.bidAddress c.key c.workerKey := by
      intro hleads
      have hthere := hwas.leader haddress hleads
      rw [fresh] at hthere
      cases hthere
    have hbook : TracksBest (c.sys.bidAddress c.key) c.accounts.task { book with
        version := version
        totalBids := totalBids
        activeBids := book.activeBids + 1
        updatedAt := c.sys.now } c.accounts.bids presented := hwas.congr rfl rfl rfl
    refine hbook.track haddress hpresented (fun j hj => AList.lookup_insert_ne hj)
      (AList.lookup_insert _) (isOpen_of_bound bound) (fun made hmade => ?_) unscored hleads tracked
    rw [hmade] at makes
    exact (bidCandidate_spec makes).2
  | @updated book _ version stored bid incumbent candidate opened isOpen loaded wasOpen bound
      authority bond slash held makes unscored tracked =>
    have hbook : TracksBest (c.sys.bidAddress c.key) c.accounts.task { book with
        version := version
        updatedAt := c.sys.now } c.accounts.bids presented :=
      (hbest book opened isOpen).congr rfl rfl rfl
    have hother (j : Pubkey) (hj : j ≠ c.workerKey) :
        (c.accounts.bids.insert c.workerKey { stored with data := bid }).lookup j =
          c.accounts.bids.lookup j := AList.lookup_insert_ne hj
    have hself : (c.accounts.bids.insert c.workerKey { stored with data := bid }).lookup
        c.workerKey = some { stored with data := bid } := AList.lookup_insert _
    have hmade (made : BidCandidate) (hmade : candidate = some made) :
        CandidateOf (c.sys.bidAddress c.key c.workerKey) bid made ∧
          Scores book c.accounts.task.rewardAmount bid made.weightedScore := by
      rw [hmade] at makes
      exact (bidCandidate_spec makes).2
    rcases trackUpdate_spec tracked with
      ⟨hleads, before, refreshed, hbefore, hrefreshed, hnotWorse, rfl⟩ | ⟨hleads, htracked⟩
    · have hheld : cachedBestCandidate book c.accounts.task = .ok (some before) := by
        have hleads : book.bestBid = c.bidKey := hleads
        rw [incumbentOf, if_pos hleads, hbefore] at held
        exact held
      obtain ⟨hcandidate, hscore⟩ := hmade refreshed hrefreshed
      exact hbook.refresh haddress hpresented hother hself (isOpen_of_bound bound) hcandidate hscore
        hheld hleads hnotWorse
    · exact hbook.track haddress hpresented hother hself (isOpen_of_bound bound) hmade unscored
        hleads htracked
  | @promoted book book₁ version bid candidate opened isOpen loaded makes installed =>
    obtain ⟨incumbent, hincumbent, htakes, hbook⟩ := maybeInstallBetter_spec installed
    obtain ⟨hbound, hcandidate, hscore⟩ := bidCandidate_spec makes
    have hpresent := (hbest book opened isOpen).present haddress hpresented (fun _ _ => rfl) loaded
      (isOpen_of_bound hbound) hcandidate hscore hincumbent (.inl htakes.symm)
    rw [if_pos htakes.symm] at hpresent
    rw [if_pos rfl] at hbook
    rw [hbook]
    exact hpresent.congr rfl rfl rfl
  | removed => exact absurd rfl hkind

/-! ## Open books, step by step -/

/-- The instruction creates, updates or promotes the bid of `k` on the task `key`. -/
def Instruction.Presents (i : Instruction) (key k : Pubkey) : Prop :=
  ∃ op kind, i = .work key k op ∧ op.bidKind = some kind ∧ kind ≠ .removed

theorem WorkOp.run_moves {w : World} {op : WorkOp} {kind : BidKind} {c c' : TaskContext}
    (h : op.run w c = .ok c') (hkind : op.bidKind = some kind) : MovesBid kind c c' := by
  cases op <;> cases hkind
  · exact createBid_spec h
  · exact updateBid_spec h
  · exact cancelBid_spec h
  · exact expireBid_spec h
  · exact promoteBid_spec h
  · exact demoteIneligibleBest_spec h

/-- What became of a book that is open after a step, unless the step reopened it. -/
inductive OpenMove (w : World) (key : Pubkey) (i : Instruction) :
    TaskBidBook → Ledger Pubkey (Account TaskBid) → Prop
  | kept {book : TaskBidBook} {bids' : Ledger Pubkey (Account TaskBid)}
      (was : w.bookOf key = some book) (isOpen : book.state = .Open)
      (quiet : ∀ k, ¬i.Presents key k)
      (same : ∀ k, (bids'.lookup k).map Account.data = ((w.bidsOf key).lookup k).map Account.data) :
      OpenMove w key i book bids'
  | opened {book' : TaskBidBook} {acc : TaskAccounts} (loaded : w.tasks.lookup key = some acc)
      (closed : acc.bidBook = none) (status : acc.task.status = .Open)
      (quiet : ∀ k, ¬i.Presents key k) (fresh : OpenedBook book') :
      OpenMove w key i book' (w.bidsOf key)
  | presented {acc : TaskAccounts} {k : Pubkey} {op : WorkOp} {kind : BidKind}
      {agent : Account AgentRegistration} {book' : TaskBidBook}
      {bids' : Ledger Pubkey (Account TaskBid)} {bidder' : Option BidderMarketState}
      {ts : List Transfer} (loaded : w.tasks.lookup key = some acc) (label : i = .work key k op)
      (isKind : op.bidKind = some kind) (presents : kind ≠ .removed)
      (move : BidMove (w.workContext key acc k agent) kind (some book') bids' bidder' ts) :
      OpenMove w key i book' bids'
  | removed {book rest : TaskBidBook} {k : Pubkey} (was : w.bookOf key = some book)
      (isOpen : book.state = .Open) (quiet : ∀ k, ¬i.Presents key k)
      (rules : rest.rules = book.rules) (tracked : rest.tracked = book.tracked)
      (stale : rest.winnerStaleSince = book.winnerStaleSince) :
      OpenMove w key i
        (if book.bestBid = w.sys.bidAddress key k then clearBest rest w.sys.now else rest)
        ((w.bidsOf key).erase k)

/-- A book that a step leaves open was kept, opened, or one of its bids was presented or removed;
the steps that reopen a book apart. -/
theorem BookMove.openMove {w : World} {key : Pubkey} {acc : TaskAccounts} {i : Instruction}
    {bookAfter : Option TaskBidBook} {book' : TaskBidBook}
    {bids' : Ledger Pubkey (Account TaskBid)} {records : Pubkey → Option BidderMarketState}
    {ts : List Transfer} (h : BookMove w key acc i bookAfter bids' records ts)
    (hafter : bookAfter = some book') (hacc : w.tasks.lookup key = some acc)
    (hreview : ReviewSound acc) (hkeeps : ¬Reopens w i) (hopen : book'.state = .Open)
    (hquiet : ∀ k, ¬i.Presents key k) : OpenMove w key i book' bids' := by
  have hbids := World.bidsOf_eq hacc
  have hbook := World.bookOf_eq hacc
  cases h with
  | @donated k amount bid loaded =>
    refine .kept (hbook.trans hafter) hopen hquiet fun j => ?_
    rw [hbids, Ledger.lookup_insert_eq_ite]
    split_ifs with hj
    · rw [hj, loaded]
      rfl
    · rfl
  | opened closed status type fresh =>
    obtain rfl := Option.some.inj hafter
    rw [← hbids]
    exact .opened hacc closed status hquiet fresh
  | @moved k op kind agent _ _ _ _ found isKind type move =>
    have hkind : kind = .removed := by
      by_contra hne
      exact hquiet k ⟨op, kind, rfl, isKind, hne⟩
    subst hkind
    cases move with
    | @removed book version bid recipient bidder opened loaded free owed record listed counted =>
      have hwas : book.state = .Open := by
        obtain rfl := Option.some.inj hafter
        split_ifs at hopen with hleads
        · exact hopen
        · exact hopen
      obtain rfl := Option.some.inj hafter
      have hmove := @OpenMove.removed w key (.work key k op) book { book with
          activeBids := book.activeBids - 1, version := version, updatedAt := w.sys.now } k
        (hbook.trans opened) hwas hquiet rfl rfl rfl
      rw [hbids] at hmove
      exact hmove
  | accepted found accepts =>
    obtain ⟨version, hsome⟩ := accepts.book'
    rw [hsome] at hafter
    obtain rfl := Option.some.inj hafter
    cases hopen
  | @settled k i agent place disposition _ _ _ _ found type settles reopening full =>
    obtain ⟨before, after, hbefore, haccepted, hsome, hplaced⟩ := settles.state type
    obtain rfl := Option.some.inj (hsome.symm.trans hafter)
    obtain ⟨op, rfl, hreopens | ⟨config, hconfig, hquorum⟩⟩ :=
      reopening ((applyBidBookDisposition_state hplaced).mp hopen)
    · exact absurd ⟨key, k, op, before, rfl, hreopens, hbook.trans hbefore, haccepted⟩ hkeeps
    · rcases hreview.mode config hconfig with hmode | hmode <;> rw [hmode] at hquorum <;>
        cases hquorum
  | shut opened idle =>
    obtain rfl := Option.some.inj hafter
    cases hopen
  | swept status empty => cases hafter

/-- What a step makes of a book it leaves open. -/
theorem Step.openMove {w w' : World} {i : Instruction} {ts : List Transfer}
    (h : Step w (i, ts) w') (hreachable : Reachable w) (hkeeps : ¬Reopens w i) {key : Pubkey}
    {book' : TaskBidBook} (hbook' : w'.bookOf key = some book') (hopen : book'.state = .Open) :
    OpenMove w key i book' (w'.bidsOf key) := by
  by_cases hpresents : ∃ k, i.Presents key k
  · obtain ⟨k, op, kind, rfl, hkind, hne⟩ := hpresents
    cases h.does with
    | @work _ _ _ acc agent c loaded found ran rent =>
      have htasks : (w.storeWork c).tasks = w.tasks.insert key c.accounts := by
        rw [World.storeWork_tasks, (WorkOp.run_frames ran).key]
        rfl
      rw [World.bookOf_insert htasks] at hbook'
      rw [World.bidsOf_insert htasks]
      obtain ⟨-, book₁, bids₁, bidder₁, _, hmove, rfl⟩ := WorkOp.run_moves ran hkind
      have hbook' : book₁ = some book' := hbook'
      rw [hbook'] at hmove
      exact .presented loaded rfl hkind hne hmove
  · have hquiet (k : Pubkey) : ¬i.Presents key k := fun hk => hpresents ⟨k, hk⟩
    cases h.books with
    | apart books bids records unpaid =>
      rw [books] at hbook'
      rw [bids]
      exact .kept hbook' hopen hquiet fun _ => rfl
    | @moved key₀ acc loaded move others =>
      by_cases hkey : key = key₀
      · subst hkey
        exact move.openMove hbook' loaded (hreachable.reviewSound loaded) hkeeps hopen hquiet
      · obtain ⟨hbook, hbids⟩ := others key hkey
        rw [hbids]
        exact .kept (hbook ▸ hbook') hopen hquiet fun _ => rfl

/-- The book had a tracked winner and has none any more. -/
def LosesWinner (before after : Option TaskBidBook) : Prop :=
  ∃ book book', before = some book ∧ book.bestBid ≠ 0 ∧ after = some book' ∧ book'.bestBid = 0

theorem LosesWinner.not_of_same {before after : Option TaskBidBook}
    (h : ∀ book, before = some book → ∀ book', after = some book' → book.bestBid ≠ 0 →
      book'.bestBid ≠ 0) : ¬LosesWinner before after := by
  rintro ⟨book, book', hbefore, hbest, hafter, hnone⟩
  exact h book hbefore book' hafter hbest hnone

theorem trackCandidate_best {book book' : TaskBidBook} {task : Task}
    {candidate : Option BidCandidate} (h : trackCandidate book task candidate = .ok book') :
    book'.bestBid = book.bestBid ∨ ∃ made, candidate = some made ∧ book'.bestBid = made.key := by
  rcases trackCandidate_spec h with ⟨-, rfl⟩ | ⟨made, incumbent, hmade, -, rfl⟩
  · exact .inl rfl
  · split_ifs
    · exact .inr ⟨made, hmade, rfl⟩
    · exact .inl rfl

/-- A presentation leaves a winner where there was one. -/
theorem BidMove.keepsWinner {c : TaskContext} {kind : BidKind} {book book' : TaskBidBook}
    {bids' : Ledger Pubkey (Account TaskBid)} {bidder' : Option BidderMarketState}
    {ts : List Transfer} (h : BidMove c kind (some book') bids' bidder' ts)
    (hkind : kind ≠ .removed) (haddress : DistinctAddresses (c.sys.bidAddress c.key))
    (hbook : c.accounts.bidBook = some book) (hbest : book.bestBid ≠ 0) : book'.bestBid ≠ 0 := by
  have hmade {bid : TaskBid} {made : BidCandidate}
      (hcandidate : CandidateOf c.bidKey bid made) : made.key ≠ 0 := by
    rw [hcandidate.key]
    exact haddress.ne_zero c.workerKey
  cases h with
  | created opened isOpen fresh bound authority backed capped makes unscored tracked counted =>
    obtain rfl := Option.some.inj (hbook.symm.trans opened)
    rcases trackCandidate_best tracked with hsame | ⟨made, hsome, hkey⟩
    · rw [hsame]
      exact hbest
    · rw [hsome] at makes
      rw [hkey]
      exact hmade (bidCandidate_spec makes).2.1
  | updated opened isOpen loaded wasOpen bound authority bond slash held makes unscored tracked =>
    obtain rfl := Option.some.inj (hbook.symm.trans opened)
    rcases trackUpdate_spec tracked with ⟨-, before, refreshed, -, hrefreshed, -, rfl⟩ |
      ⟨-, htracked⟩
    · rw [hrefreshed] at makes
      exact hmade (bidCandidate_spec makes).2.1
    · rcases trackCandidate_best htracked with hsame | ⟨made, hsome, hkey⟩
      · rw [hsame]
        exact hbest
      · rw [hsome] at makes
        rw [hkey]
        exact hmade (bidCandidate_spec makes).2.1
  | promoted opened isOpen loaded makes installed =>
    obtain ⟨incumbent, -, -, rfl⟩ := maybeInstallBetter_spec installed
    exact hmade (bidCandidate_spec makes).2.1
  | removed => exact absurd rfl hkind

theorem Instruction.Presents.unique {i : Instruction} {key j k : Pubkey} {op : WorkOp}
    (h : i.Presents key j) (hi : i = .work key k op) : j = k := by
  obtain ⟨op', kind, rfl, -, -⟩ := h
  exact (Instruction.work.inj hi).2.1

/-- A step that leaves a book open leaves it with the best bid tracked. -/
theorem OpenMove.tracksBest {w : World} {key : Pubkey} {i : Instruction} {book' : TaskBidBook}
    {bids' : Ledger Pubkey (Account TaskBid)} (h : OpenMove w key i book' bids')
    (haddress : DistinctAddresses (w.sys.bidAddress key)) (hs : BidsSound w)
    {presented presented' : Pubkey → Prop}
    (hpresented : ∀ k, presented' k ↔
      i.Presents key k ∨ presented k ∧ ¬LosesWinner (w.bookOf key) (some book'))
    (hbest : ∀ acc book, w.tasks.lookup key = some acc → acc.bidBook = some book →
      book.state = .Open → TracksBest (w.sys.bidAddress key) acc.task book acc.bids presented) :
    ∃ acc, w.tasks.lookup key = some acc ∧
      TracksBest (w.sys.bidAddress key) acc.task book' bids' presented' := by
  cases h with
  | @kept _ _ was isOpen quiet same =>
    obtain ⟨acc, hacc, hbook⟩ := Option.bind_eq_some_iff.mp was
    have hnot : ¬LosesWinner (w.bookOf key) (some book') := LosesWinner.not_of_same
      fun book hbefore after hafter hwinner => by
        obtain rfl := Option.some.inj (was.symm.trans hbefore)
        obtain rfl := Option.some.inj hafter
        exact hwinner
    have hsame (k : Pubkey) : presented' k ↔ presented k := by
      rw [hpresented]
      exact ⟨fun hk => (hk.resolve_left (quiet k)).1, fun hk => .inr ⟨hk, hnot⟩⟩
    obtain ⟨winner, hcached, hchampion⟩ := hbest acc book' hacc hbook isOpen
    refine ⟨acc, hacc, winner, hcached, ?_⟩
    rw [World.bidsOf_eq hacc] at same
    rw [candidates_same hsame same]
    exact hchampion
  | @opened _ acc loaded closed status quiet fresh =>
    refine ⟨acc, loaded, .of_none fresh.best fun k bid _ hbid => ?_⟩
    have hcount := hs.unbooked key ((World.bookOf_eq loaded).trans closed)
    exact Ledger.card_support_eq_zero.mp hcount k bid hbid trivial
  | @presented acc k op kind agent _ _ bidder' ts loaded label isKind presents move =>
    refine ⟨acc, loaded, move.tracksBest presents haddress (fun j => ?_) fun book hbook hopen =>
      hbest acc book loaded hbook hopen⟩
    have hnot : ¬LosesWinner (w.bookOf key) (some book') := LosesWinner.not_of_same
      fun book hbefore after hafter hwinner => by
        rw [World.bookOf_eq loaded] at hbefore
        obtain rfl := Option.some.inj hafter
        exact move.keepsWinner presents haddress hbefore hwinner
    rw [hpresented]
    constructor
    · rintro (hj | ⟨hj, -⟩)
      · exact .inr (hj.unique label)
      · exact .inl hj
    · rintro (hj | hj)
      · exact .inr ⟨hj, hnot⟩
      · subst hj
        exact .inl ⟨op, kind, label, isKind, presents⟩
  | @removed book rest k was isOpen quiet rules tracked stale =>
    obtain ⟨acc, hacc, hbook⟩ := Option.bind_eq_some_iff.mp was
    refine ⟨acc, hacc, ?_⟩
    by_cases hleads : book.bestBid = w.sys.bidAddress key k
    · rw [if_pos hleads] at hpresented ⊢
      have hloses : LosesWinner (w.bookOf key) (some (clearBest rest w.sys.now)) :=
        ⟨book, _, was, by rw [hleads]; exact haddress.ne_zero k, rfl, rfl⟩
      refine .of_none rfl fun j bid hj _ => ?_
      rcases (hpresented j).mp hj with hj | ⟨-, hnot⟩
      · exact quiet j hj
      · exact hnot hloses
    · rw [if_neg hleads] at hpresented ⊢
      have hnot : ¬LosesWinner (w.bookOf key) (some rest) := LosesWinner.not_of_same
        fun before hbefore after hafter hwinner => by
          obtain rfl := Option.some.inj (was.symm.trans hbefore)
          obtain rfl := Option.some.inj hafter
          rw [(Tracked.mk.inj tracked).1]
          exact hwinner
      have hsame (j : Pubkey) : presented' j ↔ presented j := by
        rw [hpresented]
        exact ⟨fun hj => (hj.resolve_left (quiet j)).1, fun hj => .inr ⟨hj, hnot⟩⟩
      have hclosed := ((hbest acc book hacc hbook isOpen).close hleads).congr rules tracked rfl
      obtain ⟨winner, hcached, hchampion⟩ := hclosed
      refine ⟨winner, hcached, ?_⟩
      rw [World.bidsOf_eq hacc, candidates_same hsame fun _ => rfl]
      exact hchampion

/-! ## The grace after a loss -/

theorem trackCandidate_stale {book book' : TaskBidBook} {task : Task}
    {candidate : Option BidCandidate} (h : trackCandidate book task candidate = .ok book') :
    book'.winnerStaleSince = book.winnerStaleSince := by
  rcases trackCandidate_spec h with ⟨-, rfl⟩ | ⟨made, incumbent, hmade, -, rfl⟩
  · rfl
  · split_ifs
    · rfl
    · rfl

/-- A presentation does not end the grace. -/
theorem BidMove.stale {c : TaskContext} {kind : BidKind} {book' : TaskBidBook}
    {bids' : Ledger Pubkey (Account TaskBid)} {bidder' : Option BidderMarketState}
    {ts : List Transfer} (h : BidMove c kind (some book') bids' bidder' ts)
    (hkind : kind ≠ .removed) : ∃ book, c.accounts.bidBook = some book ∧ book.state = .Open ∧
      book'.winnerStaleSince = book.winnerStaleSince := by
  cases h with
  | created opened isOpen fresh bound authority backed capped makes unscored tracked counted =>
    have hstale := trackCandidate_stale tracked
    exact ⟨_, opened, isOpen, hstale⟩
  | updated opened isOpen loaded wasOpen bound authority bond slash held makes unscored tracked =>
    refine ⟨_, opened, isOpen, ?_⟩
    rcases trackUpdate_spec tracked with ⟨-, before, refreshed, -, -, -, rfl⟩ | ⟨-, htracked⟩
    · rfl
    · have hstale := trackCandidate_stale htracked
      exact hstale
  | promoted opened isOpen loaded makes installed =>
    obtain ⟨incumbent, -, -, rfl⟩ := maybeInstallBetter_spec installed
    exact ⟨_, opened, isOpen, rfl⟩
  | removed => exact absurd rfl hkind

/-- An open book remembers when it last lost its winner. -/
theorem OpenMove.stale {w : World} {key : Pubkey} {i : Instruction} {book' : TaskBidBook}
    {bids' : Ledger Pubkey (Account TaskBid)} (h : OpenMove w key i book' bids')
    (haddress : DistinctAddresses (w.sys.bidAddress key)) :
    book'.winnerStaleSince = w.sys.now ∨ ¬LosesWinner (w.bookOf key) (some book') ∧
      ((∃ book, w.bookOf key = some book ∧ book.state = .Open ∧
          book'.winnerStaleSince = book.winnerStaleSince) ∨
        ∃ acc, w.tasks.lookup key = some acc ∧ acc.bidBook = none ∧ acc.task.status = .Open) := by
  cases h with
  | @kept _ _ was isOpen quiet same =>
    refine .inr ⟨LosesWinner.not_of_same fun book hbefore after hafter hwinner => ?_,
      .inl ⟨book', was, isOpen, rfl⟩⟩
    obtain rfl := Option.some.inj (was.symm.trans hbefore)
    obtain rfl := Option.some.inj hafter
    exact hwinner
  | @opened _ acc loaded closed status quiet fresh =>
    refine .inr ⟨LosesWinner.not_of_same fun book hbefore => ?_, .inr ⟨acc, loaded, closed, status⟩⟩
    rw [World.bookOf_eq loaded, closed] at hbefore
    cases hbefore
  | @presented acc k op kind agent _ _ bidder' ts loaded label isKind presents move =>
    obtain ⟨book, hbook, hopen, hstale⟩ := move.stale presents
    refine .inr ⟨LosesWinner.not_of_same fun before hbefore after hafter hwinner => ?_,
      .inl ⟨book, (World.bookOf_eq loaded).trans hbook, hopen, hstale⟩⟩
    rw [World.bookOf_eq loaded] at hbefore
    obtain rfl := Option.some.inj hafter
    exact move.keepsWinner presents haddress hbefore hwinner
  | @removed book rest k was isOpen quiet rules tracked stale =>
    by_cases hleads : book.bestBid = w.sys.bidAddress key k
    · rw [if_pos hleads]
      exact .inl rfl
    · rw [if_neg hleads]
      refine .inr ⟨LosesWinner.not_of_same fun before hbefore after hafter hwinner => ?_,
        .inl ⟨book, was, isOpen, stale⟩⟩
      obtain rfl := Option.some.inj (was.symm.trans hbefore)
      obtain rfl := Option.some.inj hafter
      rw [(Tracked.mk.inj tracked).1]
      exact hwinner

theorem BookMove.swept_finished {w : World} {key : Pubkey} {acc : TaskAccounts} {i : Instruction}
    {bids' : Ledger Pubkey (Account TaskBid)} {records : Pubkey → Option BidderMarketState}
    {ts : List Transfer} (h : BookMove w key acc i none bids' records ts)
    (hbook : acc.bidBook ≠ none) : acc.task.status.isFinished := by
  generalize hafter : (none : Option TaskBidBook) = bookAfter at h
  cases h with
  | donated loaded => exact absurd hafter.symm hbook
  | opened closed status type fresh => cases hafter
  | moved found isKind type move =>
    cases move <;> cases hafter
  | accepted found accepts =>
    obtain ⟨version, hsome⟩ := accepts.book'
    rw [hsome] at hafter
    cases hafter
  | settled found type settles reopening full =>
    obtain ⟨before, after, -, -, hsome, -⟩ := settles.state type
    rw [hsome] at hafter
    cases hafter
  | shut opened idle => cases hafter
  | swept status empty => exact status

/-- A book goes away only with its task finished. -/
theorem Step.book_finished {w w' : World} {i : Instruction} {ts : List Transfer}
    (h : Step w (i, ts) w') {key : Pubkey} {acc : TaskAccounts}
    (hacc : w.tasks.lookup key = some acc)
    (hbook : acc.bidBook ≠ none ∨ acc.task.status.isFinished) :
    ∃ acc', w'.tasks.lookup key = some acc' ∧
      (acc'.bidBook ≠ none ∨ acc'.task.status.isFinished) := by
  obtain ⟨acc', hacc', -⟩ := h.terms hacc
  refine ⟨acc', hacc', ?_⟩
  by_cases hdone : acc.task.status.isFinished
  · obtain ⟨acc₁, hacc₁, hstatus, -⟩ := h.finished hacc hdone
    obtain rfl := Option.some.inj (hacc'.symm.trans hacc₁)
    rw [hstatus]
    exact .inr hdone
  · have hbook := hbook.resolve_right hdone
    refine .inl fun hgone => ?_
    rw [← World.bookOf_eq hacc'] at hgone
    cases h.books with
    | apart books bids records unpaid =>
      rw [books, World.bookOf_eq hacc] at hgone
      exact hbook hgone
    | @moved key₀ acc₀ loaded move others =>
      by_cases hkey : key = key₀
      · subst hkey
        obtain rfl := Option.some.inj (hacc.symm.trans loaded)
        rw [hgone] at move
        exact hdone (move.swept_finished hbook)
      · rw [(others key hkey).1, World.bookOf_eq hacc] at hgone
        exact hbook hgone

/-! ## Every run -/

/-- The step takes the tracked winner from the book of the task `key`. -/
def Clears (key : Pubkey) (e : LogEntry) : Prop :=
  LosesWinner (e.before.bookOf key) (e.after.bookOf key)

/-- The bid of `k` on the task `key` was created, updated or promoted since the book last lost its
winner. -/
def PresentedSince (key : Pubkey) (log : List LogEntry) (k : Pubkey) : Prop :=
  Run.Since (Clears key) (fun e => e.label.1.Presents key k) log

/-- Every open book tracks the best of the bids presented since it last lost its winner. -/
def BooksTrackBest (log : List LogEntry) (w : World) : Prop :=
  ∀ key acc book, w.tasks.lookup key = some acc → acc.bidBook = some book → book.state = .Open →
    TracksBest (w.sys.bidAddress key) acc.task book acc.bids (PresentedSince key log)

/-- What the open books of a run remember. -/
structure BestTracked (log : List LogEntry) (w : World) : Prop where
  best : BooksTrackBest log w
  graced : ∀ key book, w.bookOf key = some book → book.state = .Open →
    ∀ e ∈ log, Clears key e →
      0 < book.winnerStaleSince ∧ e.before.sys.now ≤ book.winnerStaleSince
  ended : ∀ key, (∃ e ∈ log, Clears key e) → ∃ acc, w.tasks.lookup key = some acc ∧
    (acc.bidBook ≠ none ∨ acc.task.status.isFinished)
  clock : 0 < w.sys.now ∧ ∀ e ∈ log, e.before.sys.now ≤ w.sys.now

/-- Every step that reopens no book keeps the best bids tracked. -/
theorem Step.bestTracked {w w' : World} {i : Instruction} {ts : List Transfer}
    {log : List LogEntry} (h : Step w (i, ts) w') (hreachable : Reachable w)
    (haddress : ∀ key, DistinctAddresses (w.sys.bidAddress key)) (hkeeps : ¬Reopens w i)
    (hbest : BestTracked log w) : BestTracked (log ++ [⟨w, (i, ts), w'⟩]) w' := by
  obtain ⟨hlater, -, -⟩ := h.environment
  refine ⟨fun key acc' book' hacc' hbook' hopen => ?_, fun key book' hbook' hopen e he hclears => ?_,
    fun key => ?_, hbest.clock.1.trans_le hlater, fun e he => ?_⟩
  · have hafter : w'.bookOf key = some book' := (World.bookOf_eq hacc').trans hbook'
    have hmove := h.openMove hreachable hkeeps hafter hopen
    have hpresented (k : Pubkey) : PresentedSince key (log ++ [⟨w, (i, ts), w'⟩]) k ↔
        i.Presents key k ∨ PresentedSince key log k ∧
          ¬LosesWinner (w.bookOf key) (some book') := by
      rw [← hafter]
      exact Run.since_snoc
    obtain ⟨acc, hacc, htracks⟩ := hmove.tracksBest (haddress key) hreachable.bidsSound hpresented
      (hbest.best key)
    obtain ⟨acc₁, hacc₁, hterms⟩ := h.terms hacc
    obtain rfl := Option.some.inj (hacc'.symm.trans hacc₁)
    rw [h.bidAddress, ← World.bidsOf_eq hacc']
    exact htracks.congr rfl rfl hterms.rewardAmount
  · have hmove := h.openMove hreachable hkeeps hbook' hopen
    rcases hmove.stale (haddress key) with hstale | ⟨hkept, hstale⟩
    · rw [hstale]
      refine ⟨hbest.clock.1, ?_⟩
      rcases List.mem_append.mp he with he | he
      · exact hbest.clock.2 e he
      · rw [List.mem_singleton.mp he]
    · have hold : e ∈ log := by
        rcases List.mem_append.mp he with he | he
        · exact he
        · rw [List.mem_singleton.mp he, Clears, hbook'] at hclears
          exact absurd hclears hkept
      rcases hstale with ⟨book, hbook, hwas, hstale⟩ | ⟨acc, hacc, hclosed, hstatus⟩
      · rw [hstale]
        exact hbest.graced key book hbook hwas e hold hclears
      · obtain ⟨acc₁, hacc₁, hended⟩ := hbest.ended key ⟨e, hold, hclears⟩
        obtain rfl := Option.some.inj (hacc.symm.trans hacc₁)
        rcases hended with hbook | hdone | hdone
        · exact absurd hclosed hbook
        · rw [hstatus] at hdone
          cases hdone
        · rw [hstatus] at hdone
          cases hdone
  · rintro ⟨e, he, hclears⟩
    rcases List.mem_append.mp he with he | he
    · obtain ⟨acc, hacc, hended⟩ := hbest.ended key ⟨e, he, hclears⟩
      exact h.book_finished hacc hended
    · rw [List.mem_singleton.mp he] at hclears
      obtain ⟨_, book', -, -, hafter, -⟩ := hclears
      obtain ⟨acc', hacc', hbook'⟩ := Option.bind_eq_some_iff.mp hafter
      exact ⟨acc', hacc', .inl (by rw [hbook']; exact Option.some_ne_none _)⟩
  · rcases List.mem_append.mp he with he | he
    · exact (hbest.clock.2 e he).trans hlater
    · rw [List.mem_singleton.mp he]
      exact hlater

theorem Genesis.bestTracked {w : World} (h : Genesis w) : BestTracked [] w := by
  refine ⟨fun key acc book hacc => ?_, fun key book hbook => ?_, fun key => ?_, h.clock, ?_⟩
  · rw [h.tasks] at hacc
    cases hacc
  · rw [World.bookOf, h.tasks] at hbook
    cases hbook
  · rintro ⟨e, he, -⟩
    cases he
  · intro e he
    cases he

/-- A run that reopens no book. -/
structure RunsOpen (start : World) (log : List LogEntry) (w : World) : Prop where
  genesis : Genesis start
  run : Run Step start log w
  address : ∀ key, DistinctAddresses (start.sys.bidAddress key)
  keeps : ∀ e ∈ log, ¬Reopens e.before e.label.1

theorem RunsOpen.init {start w : World} {log₁ log₂ : List LogEntry} {e : LogEntry}
    (h : RunsOpen start (log₁ ++ e :: log₂) w) :
    RunsOpen start log₁ e.before ∧ Step e.before e.label e.after := by
  obtain ⟨hrun, hstep, -⟩ := h.run.split_at
  exact ⟨⟨h.genesis, hrun, h.address, fun e' he' => h.keeps e' (List.mem_append_left _ he')⟩, hstep⟩

theorem RunsOpen.bestTracked {start w : World} {log : List LogEntry} (h : RunsOpen start log w) :
    BestTracked log w ∧ w.sys.bidAddress = start.sys.bidAddress := by
  obtain ⟨hstart, hrun, haddress, hkeeps⟩ := h
  induction hrun with
  | refl => exact ⟨hstart.bestTracked, rfl⟩
  | @snoc log s s' label hr hs ih =>
    obtain ⟨hbest, hsame⟩ := ih fun e he => hkeeps e (List.mem_append_left _ he)
    have hlast := hkeeps _ (List.mem_append_right _ (List.mem_singleton_self _))
    obtain ⟨i, ts⟩ := label
    refine ⟨Step.bestTracked hs ⟨start, log, hstart, hr⟩ (fun key => ?_) hlast hbest, ?_⟩
    · rw [hsame]
      exact haddress key
    · rw [Step.bidAddress hs, hsame]

/-- What holds where the bid of `k` on the task `key` is accepted at `terms`: it is the tracked bid
and the best of those presented since the book last lost its winner, it has the terms the creator
named, and every loss of a winner is at least the grace ago. -/
structure AcceptsBest (log : List LogEntry) (w : World) (key k : Pubkey) (terms : BidTermsHash)
    (acc : TaskAccounts) (book : TaskBidBook) (bid : Account TaskBid) (best : BidCandidate) :
    Prop where
  loaded : w.tasks.lookup key = some acc
  opened : acc.bidBook = some book
  isOpen : book.state = .Open
  found : acc.bids.lookup k = some bid
  tracked : cachedBestCandidate book acc.task = .ok (some best)
  ofBid : CandidateOf (w.sys.bidAddress key k) bid.data best
  champion : Champion (BidCandidate.rank book.policy) (candidates (w.sys.bidAddress key)
    acc.task.rewardAmount book acc.bids (PresentedSince key log)) (some best)
  hashed : ∃ agent spec, w.agents.lookup k = some agent ∧ acc.jobSpec = some spec ∧
    calculateBidTermsHash (w.workContext key acc k agent) bid.data spec = terms
  graced : ∀ e ∈ log, Clears key e → e.before.sys.now + bidRepromotionGraceSecs ≤ w.sys.now

/-- The acceptance of a bid, in a world whose open books track their best bids. -/
theorem Step.acceptsBest {w w' : World} {log : List LogEntry} {key k signer : Pubkey}
    {terms : BidTermsHash} {prefunded : ℕ} {ts : List Transfer}
    (h : Step w (.work key k (.acceptBid signer terms prefunded), ts) w')
    (haddress : DistinctAddresses (w.sys.bidAddress key)) (hbest : BestTracked log w) :
    ∃ acc book bid best, AcceptsBest log w key k terms acc book bid best := by
  cases h.does with
  | @work _ _ _ acc agent c loaded found ran rent =>
    obtain ⟨_, book, bid, -, -, -, haccepts, -⟩ := acceptBid_spec ran
    have hopened : acc.bidBook = some book := haccepts.opened
    have hlookup : acc.bids.lookup k = some bid := haccepts.loaded
    obtain ⟨winner, hcached, hchampion⟩ := hbest.best key acc book loaded hopened haccepts.isOpen
    obtain ⟨hnone, hkey⟩ := cachedBestCandidate_spec hcached
    cases winner with
    | none => exact absurd (hnone.mp rfl) haccepts.best.1
    | some best =>
      have hof : CandidateOf (w.sys.bidAddress key k) bid.data best := by
        obtain ⟨j, bid₁, -, hbid₁, -, hcandidate, -⟩ := hchampion.1
        have haddr : w.sys.bidAddress key j = w.sys.bidAddress key k := by
          rw [← hcandidate.key, hkey best rfl]
          exact haccepts.best.2
        obtain rfl := haddress.injective haddr
        obtain rfl := Option.some.inj (hbid₁.symm.trans hlookup)
        exact hcandidate
      obtain ⟨spec, hspec, hhash⟩ := haccepts.hashed
      refine ⟨acc, book, bid, best, loaded, hopened, haccepts.isOpen, hlookup, hcached, hof,
        hchampion, ⟨agent, spec, found, hspec, hhash⟩, fun e he hclears => ?_⟩
      obtain ⟨hstale, hlater⟩ := hbest.graced key book ((World.bookOf_eq loaded).trans hopened)
        haccepts.isOpen e he hclears
      have hgrace : book.winnerStaleSince + bidRepromotionGraceSecs ≤ w.sys.now :=
        haccepts.grace hstale
      omega

/-- In every run that settles no accepted bid back into an open book: an open book tracks the best
of the live bids presented since it last lost its winner, so that none of them beats the winner;
whatever the order of the presentations, the same bids have the same winner; and a bid is accepted
only as that winner, at the terms the creator named, and after the grace that follows a loss. -/
theorem tracked_winner_best {start w : World} {log : List LogEntry} (h : RunsOpen start log w) :
    (∀ key acc book, w.tasks.lookup key = some acc → acc.bidBook = some book →
      book.state = .Open →
      TracksBest (w.sys.bidAddress key) acc.task book acc.bids (PresentedSince key log) ∧
      ∀ winner, cachedBestCandidate book acc.task = .ok (some winner) →
        ∀ rival ∈ candidates (w.sys.bidAddress key) acc.task.rewardAmount book acc.bids
          (PresentedSince key log), candidateIsBetter rival winner book.policy = false) ∧
    (∀ start' w' log', RunsOpen start' log' w' → ∀ key acc book key' acc' book',
      w.tasks.lookup key = some acc → acc.bidBook = some book → book.state = .Open →
      w'.tasks.lookup key' = some acc' → acc'.bidBook = some book' → book'.state = .Open →
      book'.policy = book.policy →
      candidates (w'.sys.bidAddress key') acc'.task.rewardAmount book' acc'.bids
          (PresentedSince key' log') =
        candidates (w.sys.bidAddress key) acc.task.rewardAmount book acc.bids
          (PresentedSince key log) →
      cachedBestCandidate book' acc'.task = cachedBestCandidate book acc.task) ∧
    ∀ log₁ e log₂, log = log₁ ++ e :: log₂ → ∀ key k signer terms prefunded,
      e.label.1 = .work key k (.acceptBid signer terms prefunded) →
      ∃ acc book bid best, AcceptsBest log₁ e.before key k terms acc book bid best := by
  refine ⟨fun key acc book hacc hbook hopen => ?_, ?_, ?_⟩
  · have htracks := h.bestTracked.1.best key acc book hacc hbook hopen
    refine ⟨htracks, fun winner hwinner rival hrival => ?_⟩
    obtain ⟨_, hcached, hchampion⟩ := htracks
    obtain rfl := Except.ok.inj (hcached.symm.trans hwinner)
    rw [Bool.eq_false_iff, ne_eq, candidateIsBetter_iff]
    exact hchampion.not_beaten hrival
  · intro start' w' log' h' key acc book key' acc' book' hacc hbook hopen hacc' hbook' hopen'
      hpolicy hsame
    obtain ⟨winner, hcached, hchampion⟩ := h.bestTracked.1.best key acc book hacc hbook hopen
    obtain ⟨winner', hcached', hchampion'⟩ :=
      h'.bestTracked.1.best key' acc' book' hacc' hbook' hopen'
    rw [hsame, hpolicy] at hchampion'
    rw [hcached, hcached', hchampion'.unique hchampion]
  · intro log₁ e log₂ hlog key k signer terms prefunded hlabel
    subst hlog
    obtain ⟨hinit, hstep⟩ := h.init
    obtain ⟨hbest, hsame⟩ := hinit.bestTracked
    obtain ⟨before, ⟨i, ts⟩, after⟩ := e
    obtain rfl : i = _ := hlabel
    refine Step.acceptsBest hstep ?_ hbest
    rw [hsame]
    exact h.address key

/-- As long as the bid of `11` has not been accepted, the open book tracks the best bid. -/
theorem tracked_winner_best_open : ∃ log,
    BooksTrackBest log (deployed.after (reopeningScript.take 8)) ∧
      ((deployed.after (reopeningScript.take 8)).bookOf 50).map TaskBidBook.state = some .Open := by
  obtain ⟨log, hrun, hmem⟩ := deployed.run_script (reopeningScript.take 8)
  have hnone : ∀ i ∈ reopeningScript.take 8, i.mayReopen = false := by decide
  have haddress (key : Pubkey) : DistinctAddresses (deployed.sys.bidAddress key) :=
    ⟨fun _ _ heq => Nat.succ.inj heq, fun k => Nat.succ_ne_zero k⟩
  have hopen : RunsOpen deployed log (deployed.after (reopeningScript.take 8)) := by
    refine ⟨deployed_genesis, hrun, haddress, fun e he hreopens => ?_⟩
    have hmay := hreopens.mayReopen
    rw [hnone _ (hmem e he)] at hmay
    cases hmay
  refine ⟨log, fun key acc book hacc hbook hstate => ?_, by decide +kernel⟩
  exact ((tracked_winner_best hopen).1 key acc book hacc hbook hstate).1

/-- After the rejection of `11`, the worker `12` makes the only bid, at a higher price. -/
def rebidScript : List Instruction :=
  .agent 12 (.registerAgent 102 1 1000000 0) :: reopeningScript ++
    [.work 50 12 (.createBid 102 ⟨1450, 2000, 5000, 0, 0, 4500, 7, 1000⟩ 0)]

/-- The only bid of the reopened book was presented, but is not its winner. -/
theorem reopened_winner_blocks : ∃ log, Run Step deployed log (deployed.after rebidScript) ∧
    ¬BooksTrackBest log (deployed.after rebidScript) := by
  obtain ⟨log, hrun⟩ := deployed.run_after rebidScript
  refine ⟨log, hrun, fun htracks => ?_⟩
  have hbook : ((deployed.after rebidScript).bookOf 50).map (fun book =>
      (book.state, book.bestBid)) = some (.Open, 12) := by decide +kernel
  have hbids : ((deployed.after rebidScript).bidsOf 50).keys = [12] := by decide +kernel
  have haddress : (deployed.after rebidScript).sys.bidAddress 50 12 = 13 := by decide +kernel
  obtain ⟨book, hsome, hstate⟩ := Option.map_eq_some_iff.mp hbook
  obtain ⟨hopen, hbest⟩ := Prod.mk.inj hstate
  obtain ⟨acc, hacc, haccBook⟩ := Option.bind_eq_some_iff.mp hsome
  obtain ⟨winner, hcached, hchampion⟩ := htracks 50 acc book hacc haccBook hopen
  obtain ⟨hnone, hkey⟩ := cachedBestCandidate_spec hcached
  cases winner with
  | none =>
    rw [hnone.mp rfl] at hbest
    cases hbest
  | some best =>
    obtain ⟨j, bid, -, hbid, -, hcandidate, -⟩ := hchampion.1
    have hmem : j ∈ ((deployed.after rebidScript).bidsOf 50).keys := by
      rw [World.bidsOf_eq hacc]
      exact AList.mem_keys.mp (AList.lookup_isSome.mp (Option.isSome_of_eq_some hbid))
    rw [hbids, List.mem_singleton] at hmem
    have hclash := hcandidate.key
    rw [hmem, haddress, hkey best rfl, hbest] at hclash
    cases hclash

end AgencCoordination
