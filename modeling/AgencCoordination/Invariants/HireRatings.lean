import AgencCoordination.Effects.Community
import AgencCoordination.Foundations.Tally

/-!
# Ratings of hires

The buyer of a completed hire rates it once, and the listing that was hired adds the score to its
reputation.

* **`RatingsSound`** — the reputation of a listing is the sum and the number of the scores of its
  hires.
* **`CommunityStep.rating`** — a rating is written once.
* **`hires_rated`** — for every run of the community, with what every rating was of.
-/

namespace AgencCoordination

open Foundations

/-- The listing a rating is of. -/
def ratedListing (_ : Pubkey) (record : HireRating) : Pubkey := record.listing

/-- The ratings of a listing. -/
def ratingsOf (c : Community) (listing : Pubkey) : ListingRatings :=
  (c.listingRatings.lookup listing).getD {}

/-- The reputation of every listing is that of its rated hires, and every score is in range. -/
structure RatingsSound (c : Community) : Prop where
  totals : ∀ listing, ratingsOf c listing =
    ⟨Ledger.tally ratedListing HireRating.score listing c.hireRatings,
      (Ledger.records ratedListing listing c.hireRatings).card⟩
  bounds : ∀ task record, c.hireRatings.lookup task = some record →
    1 ≤ record.score ∧ record.score ≤ 5

theorem Community.Genesis.ratingsSound {c : Community} (h : c.Genesis) : RatingsSound c := by
  constructor
  · intro listing
    unfold ratingsOf
    rw [h.listingRatings, h.hireRatings, Ledger.tally_empty, Ledger.records_empty]
    rfl
  · intro task record hrecord
    rw [h.hireRatings] at hrecord
    simp at hrecord

theorem HireRated.ratingsSound {c c' : Community} {task signer : Pubkey} {score : ℕ}
    {accounts : TaskAccounts} {hire : HireRecord} {ratings : ListingRatings} {record : HireRating}
    (h : HireRated c task signer score c' accounts hire ratings record) (hc : RatingsSound c) :
    RatingsSound c' := by
  rw [h.after]
  have hcard : ∀ listing,
      (Ledger.records ratedListing listing (c.hireRatings.insert task record)).card =
        (Ledger.records ratedListing listing c.hireRatings).card +
          if record.listing = listing then 1 else 0 := by
    intro listing
    exact Ledger.card_records_insert h.unrated record
  have htally : ∀ listing,
      Ledger.tally ratedListing HireRating.score listing (c.hireRatings.insert task record) =
        Ledger.tally ratedListing HireRating.score listing c.hireRatings +
          if record.listing = listing then record.score else 0 := by
    intro listing
    exact Ledger.tally_insert h.unrated record
  constructor
  · intro listing
    have hbefore := hc.totals listing
    show ((c.listingRatings.insert hire.listing ratings).lookup listing).getD {} = _
    rw [hcard, htally, h.ofListing, Ledger.lookup_insert_eq_ite]
    by_cases hlisting : listing = hire.listing
    · subst hlisting
      rw [if_pos rfl, if_pos rfl, if_pos rfl, h.ofScore]
      have htotal : ratings.totalRating = (ratingsOf c hire.listing).totalRating + score := h.total
      have hcount : ratings.ratingCount = (ratingsOf c hire.listing).ratingCount + 1 := h.count
      rw [hbefore] at htotal hcount
      show ratings = _
      rw [← htotal, ← hcount]
    · rw [if_neg hlisting, if_neg (Ne.symm hlisting), if_neg (Ne.symm hlisting)]
      exact hbefore
  · intro task' record' hrecord'
    rw [Ledger.lookup_insert_eq_ite] at hrecord'
    split_ifs at hrecord' with hkey
    · obtain rfl := Option.some.inj hrecord'
      rw [h.ofScore]
      exact h.bounds
    · exact hc.bounds task' record' hrecord'

theorem CommunityStep.ratingsSound {c c' : Community}
    {label : CommunityInstruction × CommunityPayments} (h : CommunityStep c label c')
    (hc : RatingsSound c) : RatingsSound c' := by
  rcases h.hire with ⟨_, _, _, _, _, _, _, _, _, -, hrated⟩ | ⟨-, hlistings, hratings⟩
  · exact hrated.ratingsSound hc
  · constructor
    · unfold ratingsOf
      rw [hlistings, hratings]
      exact hc.totals
    · rw [hratings]
      exact hc.bounds

/-- The rating of the hire that opened `task`. -/
def isHireRating (task : Pubkey) (e : CommunityEntry) : Bool :=
  match e.label.1 with
  | .rateHire task' _ _ _ _ => decide (task' = task)
  | _ => false

/-- The rating of a hire is written by its buyer's rating, when there is none. -/
theorem CommunityStep.rating {e : CommunityEntry} (h : CommunityStep e.before e.label e.after)
    (task : Pubkey) :
    e.after.hireRatings.lookup task = e.before.hireRatings.lookup task ∧
        isHireRating task e = false ∨
      e.before.hireRatings.lookup task = none ∧
        (e.after.hireRatings.lookup task).isSome = true ∧ isHireRating task e = true := by
  unfold isHireRating
  rcases h.hire with ⟨task', _, _, _, _, _, _, _, _, hlabel, hrated⟩ | ⟨hother, -, hratings⟩
  · rw [hlabel, hrated.after]
    by_cases hkey : task = task'
    · subst hkey
      refine .inr ⟨hrated.unrated, ?_, decide_eq_true rfl⟩
      rw [AList.lookup_insert]
      rfl
    · exact .inl ⟨AList.lookup_insert_ne hkey, decide_eq_false (Ne.symm hkey)⟩
  · refine .inl ⟨by rw [hratings], ?_⟩
    split
    · rename_i hlabel
      exact absurd hlabel (hother _ _ _ _ _)
    · rfl

/-- What a rating was of: a completed hire of the listing, whose fee qualified it, by its buyer. -/
structure RatesHire (c : Community) (task signer : Pubkey) (score : ℕ) (record : HireRating) :
    Prop where
  hired : ∃ accounts hire, c.market.world.tasks.lookup task = some accounts ∧
    accounts.hire = some hire ∧ accounts.task.status = .Completed ∧
    accounts.task.ratingFeeQualified = true ∧ accounts.task.creator = signer ∧
    record.listing = hire.listing
  score : record.score = score
  buyer : record.buyer = signer

/-- Ratings of hires in every run. The reputation of a listing is the sum and the number of the scores
of its hires; each hire is rated once, by the buyer, after a completion that paid the qualifying
fee, and what it was rated stays. -/
theorem hires_rated {start c : Community} {log : List CommunityEntry}
    (hstart : start.Genesis) (hrun : Run CommunityStep start log c) :
    RatingsSound c ∧
    (∀ task, log.countP (isHireRating task) =
      if (c.hireRatings.lookup task).isSome = true then 1 else 0) ∧
    (∀ e ∈ log, ∀ task signer score reviewHash reviewUri,
      e.label.1 = .rateHire task signer score reviewHash reviewUri →
      ∃ record, RatesHire e.before task signer score record ∧
        c.hireRatings.lookup task = some record) := by
  refine ⟨?_, ?_, ?_⟩
  · exact hrun.invariant (fun _ _ _ hs hm => hs.ratingsSound hm) hstart.ratingsSound
  · intro task
    refine hrun.countP_written (fun c => c.hireRatings.lookup task)
      (fun e hs => hs.rating task) ?_
    rw [hstart.hireRatings]
    rfl
  · intro e he task signer score reviewHash reviewUri hlabel
    obtain ⟨log₁, log₂, -, -, hs, hrest⟩ := hrun.split_mem he
    rcases hs.hire with ⟨_, _, _, _, _, accounts, hire, _, record, hop, hrated⟩ | ⟨hother, -⟩
    · rw [hlabel] at hop
      obtain ⟨rfl, rfl, rfl, -, -⟩ := CommunityInstruction.rateHire.inj hop
      refine ⟨record, ⟨⟨accounts, hire, hrated.loaded, hrated.hired, hrated.completed,
        hrated.qualified, hrated.buyer, hrated.ofListing⟩, hrated.ofScore, hrated.ofBuyer⟩, ?_⟩
      refine hrest.written_stays (fun c => c.hireRatings.lookup task)
        (fun e hs => hs.rating task) ?_
      show e.after.hireRatings.lookup task = some record
      rw [hrated.after]
      exact AList.lookup_insert _
    · exact absurd hlabel (hother _ _ _ _ _)

/-- A listing is hired, the work is done and paid, and the buyer rates it. -/
def ratedScript : List CommunityInstruction :=
  [.market (.core {} (.admin [1, 3] (.updateProtocolFee 100))),
    .market (.core {} (.agent 10 (.registerAgent 100 1 1000000 0))),
    .market (.core {} (.agent 11 (.registerAgent 101 1 1000000 0))),
    .market (.moderation (.configure 1 9 true)),
    .market (.listing 70 (.create 11 101 ⟨5, 6, 7, 0, 8, "agenc://listing/8", 100000000, none, 1,
      3600, 2, none, 0⟩)),
    .market (.moderation (.recordListing 9 false 70 8 { status := .Clean, riskScore := 0 })),
    .market (.core { moderator := 9 } (.create 50 100 false {} (.hireFromListing 10
      { key := 70
        authority := 101
        providerAgent := 11
        specHash := 8
        price := 100000000
        requiredCapabilities := 1
        defaultDeadlineSecs := 3600
        operator := 0
        operatorFeeBps := 0
        active := true
        maxOpenJobs := 2
        version := 1 } 21 22 100000000 1 none 0))),
    .market (.moderation (.recordTask 9 false 50 22 { status := .Clean, riskScore := 0 })),
    .market (.core { moderator := 9, jobSpecUri := "agenc://job/22" } (.task 50
      (.setTaskJobSpec 100 22))),
    .market (.core {} (.work 50 11 (.claimTaskWithJobSpec 101 0))),
    .market (.core {} (.work 50 11 (.completeTask 101 9 none {}))),
    .rateHire 50 100 4 none "agenc://review/1"]

/-- The hire is rated once, and its score is the reputation of the listing. -/
theorem hires_rated_once :
    ∃ log, Run CommunityStep deployedCommunity log (deployedCommunity.after ratedScript) ∧
      log.countP (isHireRating 50) = 1 ∧ RatingsSound (deployedCommunity.after ratedScript) ∧
      ratingsOf (deployedCommunity.after ratedScript) 70 = ⟨4, 1⟩ := by
  obtain ⟨log, hrun⟩ := deployedCommunity.run_after ratedScript
  obtain ⟨hsound, hratings, -⟩ := hires_rated deployedCommunity_genesis hrun
  refine ⟨log, hrun, ?_, hsound, by decide +kernel⟩
  rw [hratings, if_pos]
  decide +kernel

end AgencCoordination
