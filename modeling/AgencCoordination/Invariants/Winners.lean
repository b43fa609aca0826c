import AgencCoordination.Effects.Books
import AgencCoordination.Invariants.Review

/-!
# The tracked winner of a bid book

An open book tracks its best bid by address and terms. As long as no accepted bid is settled back
into an open book, the tracked bid exists, is open, and has the tracked terms; a settlement that
reopens a book leaves it with the closed bid as its winner.

* **`WinnerLive`** — the book tracks nobody, or an open bid with the tracked terms.
* **`Reopens`** — the instructions after which that fails.
* **`tracked_winner_live`** — it holds of every open book in every run without such instructions.
* **`reopened_winner_gone`** — and fails after one.
-/

namespace AgencCoordination

open Foundations

/-! ## The invariant -/

/-- The tracked terms are those of the bid. -/
structure CachesTerms (book : TaskBidBook) (bid : TaskBid) : Prop where
  reward : book.bestRewardLamports = bid.requestedRewardLamports
  eta : book.bestEtaSeconds = bid.etaSeconds
  confidence : book.bestConfidenceBps = bid.confidenceBps
  reputation : book.bestReputationBps = bid.reputationSnapshotBps

/-- The book tracks nobody, or an open bid at its address, with its terms. -/
def WinnerLive (address : Pubkey → Pubkey) (book : TaskBidBook)
    (bids : Ledger Pubkey (Account TaskBid)) : Prop :=
  book.bestBid = 0 ∨ ∃ k bid, bids.lookup k = some bid ∧ bid.data.state.isOpen = true ∧
    book.bestBid = address k ∧ CachesTerms book bid.data

/-- The part of a book that says who leads, and at which terms. -/
structure Tracked where
  bestBid : Pubkey
  reward : ℕ
  eta : ℕ
  confidence : ℕ
  reputation : ℕ

def TaskBidBook.tracked (book : TaskBidBook) : Tracked :=
  ⟨book.bestBid, book.bestRewardLamports, book.bestEtaSeconds, book.bestConfidenceBps,
    book.bestReputationBps⟩

section Winner

variable {address : Pubkey → Pubkey} {book book' : TaskBidBook}
  {bids bids' : Ledger Pubkey (Account TaskBid)} {k : Pubkey} {bid : Account TaskBid}

/-- Nothing but the tracked part of a book matters. -/
theorem WinnerLive.of_tracked (h : WinnerLive address book bids)
    (hsame : book'.tracked = book.tracked) : WinnerLive address book' bids := by
  obtain ⟨hbest, hreward, heta, hconfidence, hreputation⟩ := Tracked.mk.inj hsame
  rcases h with hnone | ⟨k, bid, hbid, hopen, haddress, hcached⟩
  · exact .inl (hbest.trans hnone)
  · exact .inr ⟨k, bid, hbid, hopen, hbest.trans haddress, hreward.trans hcached.reward,
      heta.trans hcached.eta, hconfidence.trans hcached.confidence,
      hreputation.trans hcached.reputation⟩

/-- The winner stays when another bid is written. -/
theorem WinnerLive.insert (h : WinnerLive address book bids)
    (hother : book.bestBid = address k → bids.lookup k = none) :
    WinnerLive address book (bids.insert k bid) := by
  rcases h with hnone | ⟨k', bid', hbid', hopen, haddress, hcached⟩
  · exact .inl hnone
  · refine .inr ⟨k', bid', ?_, hopen, haddress, hcached⟩
    by_cases hk : k' = k
    · subst hk
      rw [hother haddress] at hbid'
      cases hbid'
    · rw [AList.lookup_insert_ne hk]
      exact hbid'

/-- The winner stays when another bid is removed. -/
theorem WinnerLive.erase (h : WinnerLive address book bids)
    (hother : book.bestBid ≠ address k) : WinnerLive address book (bids.erase k) := by
  rcases h with hnone | ⟨k', bid', hbid', hopen, haddress, hcached⟩
  · exact .inl hnone
  · refine .inr ⟨k', bid', ?_, hopen, haddress, hcached⟩
    have hk : k' ≠ k := fun hk => hother (hk ▸ haddress)
    rw [AList.lookup_erase_ne hk]
    exact hbid'

/-- A candidate that takes the lead is the bid it was made from. -/
theorem WinnerLive.install {candidate : BidCandidate} (hbid : bids.lookup k = some bid)
    (hopen : bid.data.state.isOpen = true)
    (hcandidate : CandidateOf (address k) bid.data candidate) :
    WinnerLive address (installBest book candidate) bids :=
  .inr ⟨k, bid, hbid, hopen, hcandidate.key, hcandidate.reward, hcandidate.eta,
    hcandidate.confidence, hcandidate.reputation⟩

theorem WinnerLive.cleared (now : ℤ) : WinnerLive address (clearBest book now) bids := .inl rfl

theorem isOpen_of_bound {bid : TaskBid} (h : bid.state = .BoundActive) :
    bid.state.isOpen = true := by
  rw [h]
  rfl

/-- A new or changed bid is tracked after everything else is. -/
theorem WinnerLive.track {candidate : Option BidCandidate} {task : Task}
    (h : WinnerLive address book bids) (htracked : trackCandidate book task candidate = .ok book')
    (hbid : bids.lookup k = some bid) (hopen : bid.data.state.isOpen = true)
    (hcandidate : ∀ c, candidate = some c → CandidateOf (address k) bid.data c) :
    WinnerLive address book' bids := by
  rcases trackCandidate_spec htracked with ⟨-, rfl⟩ | ⟨presented, incumbent, hpresented, -, rfl⟩
  · exact h
  · split_ifs
    · exact .install hbid hopen (hcandidate presented hpresented)
    · exact h

end Winner

/-! ## One step -/

/-- The instructions that settle an accepted bid and open its book again: a rejection, of the
creator or of a reviewer, and the expiry of the claim. -/
def Reopens (w : World) (i : Instruction) : Prop :=
  ∃ key k op book, i = .work key k op ∧ op.reopens = true ∧ w.bookOf key = some book ∧
    book.state = .Accepted

/-- Whether an instruction could reopen a book. -/
def Instruction.mayReopen : Instruction → Bool
  | .work _ _ op => op.reopens
  | _ => false

theorem Reopens.mayReopen {w : World} {i : Instruction} (h : Reopens w i) : i.mayReopen = true := by
  obtain ⟨key, k, op, book, rfl, hreopens, -⟩ := h
  exact hreopens

/-- Every open book tracks a live winner, or none. -/
def WinnersLive (w : World) : Prop :=
  ∀ key book, w.bookOf key = some book → book.state = .Open →
    WinnerLive (w.sys.bidAddress key) book (w.bidsOf key)

theorem BidMove.winnerLive {c : TaskContext} {kind : BidKind} {book' : TaskBidBook}
    {bids' : Ledger Pubkey (Account TaskBid)} {bidder' : Option BidderMarketState}
    {ts : List Transfer} (h : BidMove c kind (some book') bids' bidder' ts)
    (hlive : ∀ book, c.accounts.bidBook = some book → book.state = .Open →
      WinnerLive (c.sys.bidAddress c.key) book c.accounts.bids) (hopen : book'.state = .Open) :
    WinnerLive (c.sys.bidAddress c.key) book' bids' := by
  cases h with
  | @created book _ version totalBids bid candidate _ opened isOpen fresh bound authority backed
      capped makes unscored tracked counted =>
    have hinserted : WinnerLive (c.sys.bidAddress c.key) book
        (c.accounts.bids.insert c.workerKey bid) :=
      (hlive book opened isOpen).insert fun _ => fresh
    refine .track ?_ tracked (AList.lookup_insert _) (isOpen_of_bound bound)
      fun candidate' hcandidate' => ?_
    · exact hinserted.of_tracked rfl
    · rw [hcandidate'] at makes
      exact (bidCandidate_spec makes).2.1
  | @updated book _ version stored bid incumbent candidate opened isOpen loaded wasOpen bound
      authority bond slash held makes unscored tracked =>
    have hbid : (c.accounts.bids.insert c.workerKey { stored with data := bid }).lookup
        c.workerKey = some { stored with data := bid } := AList.lookup_insert _
    have hcandidate (candidate' : BidCandidate) (hcandidate' : candidate = some candidate') :
        CandidateOf (c.sys.bidAddress c.key c.workerKey) bid candidate' := by
      rw [hcandidate'] at makes
      exact (bidCandidate_spec makes).2.1
    rcases trackUpdate_spec tracked with ⟨-, before, refreshed, -, hrefreshed, -, rfl⟩ |
      ⟨hother, htracked⟩
    · exact .install hbid (isOpen_of_bound bound) (hcandidate refreshed hrefreshed)
    · have hinserted : WinnerLive (c.sys.bidAddress c.key) book
          (c.accounts.bids.insert c.workerKey { stored with data := bid }) :=
        (hlive book opened isOpen).insert fun hleads => absurd hleads hother
      refine .track ?_ htracked hbid (isOpen_of_bound bound) hcandidate
      exact hinserted.of_tracked rfl
  | @promoted book book₁ version bid candidate opened isOpen loaded makes installed =>
    obtain ⟨incumbent, -, -, hbook⟩ := maybeInstallBetter_spec installed
    obtain ⟨hbound, hcandidate, -⟩ := bidCandidate_spec makes
    rw [if_pos rfl] at hbook
    have hinstalled : WinnerLive (c.sys.bidAddress c.key) (installBest book candidate)
        c.accounts.bids := .install loaded (isOpen_of_bound hbound) hcandidate
    exact hinstalled.of_tracked (by rw [hbook]; rfl)
  | @removed book version bid recipient bidder opened loaded free owed record listed counted =>
    split_ifs at hopen ⊢ with hleads
    · exact .cleared _
    · exact ((hlive book opened hopen).erase hleads).of_tracked rfl

theorem SettlesBid.state {b : BidSide} {place : AcceptedBidBookDisposition}
    {disposition : AcceptedBidBondDisposition} {book' : Option TaskBidBook}
    {bids' : Ledger Pubkey (Account TaskBid)} {bidder' : Option BidderMarketState}
    {ts : List Transfer} (h : SettlesBid b place disposition book' bids' bidder' ts)
    (htype : b.taskType = .BidExclusive) :
    ∃ before after, b.book = some before ∧ before.state = .Accepted ∧ book' = some after ∧
      applyBidBookDisposition before b.now place = .ok after := by
  cases h with
  | none type => exact absurd htype type
  | settled type opened loaded record accepted named taken slashed covered placed released =>
    exact ⟨_, _, opened, accepted, rfl, placed⟩

theorem applyBidBookDisposition_state {book book' : TaskBidBook} {now : ℤ}
    {place : AcceptedBidBookDisposition} (h : applyBidBookDisposition book now place = .ok book') :
    book'.state = .Open ↔ place = .Reopen := by
  simp only [applyBidBookDisposition, bind_eq_ok] at h
  obtain ⟨_, -, _, -, h⟩ := h
  cases place with
  | Close =>
    obtain rfl := Except.ok.inj h
    constructor
    · intro hopen
      cases hopen
    · intro hreopen
      cases hreopen
  | Reopen =>
    obtain rfl := Except.ok.inj h
    exact ⟨fun _ => rfl, fun _ => rfl⟩

/-- A book that an instruction leaves open tracks a live winner, unless the instruction settled
its accepted bid. -/
theorem BookMove.winnerLive {w : World} {key : Pubkey} {acc : TaskAccounts} {i : Instruction}
    {bookAfter : Option TaskBidBook} {book' : TaskBidBook}
    {bids' : Ledger Pubkey (Account TaskBid)} {records : Pubkey → Option BidderMarketState}
    {ts : List Transfer} (h : BookMove w key acc i bookAfter bids' records ts)
    (hafter : bookAfter = some book') (hacc : w.tasks.lookup key = some acc)
    (hreview : ReviewSound acc) (hkeeps : ¬Reopens w i)
    (hlive : ∀ book, acc.bidBook = some book → book.state = .Open →
      WinnerLive (w.sys.bidAddress key) book acc.bids) (hopen : book'.state = .Open) :
    WinnerLive (w.sys.bidAddress key) book' bids' := by
  cases h with
  | @donated k amount bid loaded =>
    rcases hlive book' hafter hopen with hnone | ⟨k', bid', hbid', hisOpen, haddress, hcached⟩
    · exact .inl hnone
    · by_cases hk : k' = k
      · subst hk
        obtain rfl := Option.some.inj (loaded.symm.trans hbid')
        exact .inr ⟨k', _, AList.lookup_insert _, hisOpen, haddress, hcached⟩
      · exact .inr ⟨k', bid', (AList.lookup_insert_ne hk).trans hbid', hisOpen, haddress, hcached⟩
  | opened closed status type fresh =>
    obtain rfl := Option.some.inj hafter
    exact .inl fresh.best
  | moved found isKind type move =>
    rw [hafter] at move
    exact move.winnerLive hlive hopen
  | accepted found accepts =>
    obtain ⟨version, hbook⟩ := accepts.book'
    rw [hbook] at hafter
    obtain rfl := Option.some.inj hafter
    cases hopen
  | @settled k i agent place disposition _ _ _ _ found type settles reopening full =>
    obtain ⟨before, after, hbefore, haccepted, hsome, hplaced⟩ := settles.state type
    obtain rfl := Option.some.inj (hsome.symm.trans hafter)
    obtain ⟨op, rfl, hreopens | ⟨config, hconfig, hquorum⟩⟩ :=
      reopening ((applyBidBookDisposition_state hplaced).mp hopen)
    · exact absurd ⟨key, k, op, before, rfl, hreopens, (World.bookOf_eq hacc).trans hbefore,
        haccepted⟩ hkeeps
    · rcases hreview.mode config hconfig with hmode | hmode <;> rw [hmode] at hquorum <;>
        cases hquorum
  | shut opened idle =>
    obtain rfl := Option.some.inj hafter
    cases hopen
  | swept status empty => cases hafter

/-- No other instruction leaves an open book with a winner that is gone. -/
theorem Step.winnersLive {w w' : World} {i : Instruction} {ts : List Transfer}
    (h : Step w (i, ts) w') (hreachable : Reachable w) (hkeeps : ¬Reopens w i)
    (hlive : WinnersLive w) : WinnersLive w' := by
  intro key book' hbook' hopen
  rw [h.bidAddress]
  cases h.books with
  | apart books bids records unpaid =>
    rw [books] at hbook'
    rw [bids]
    exact hlive key book' hbook' hopen
  | @moved key₀ acc loaded move others =>
    by_cases hkey : key = key₀
    · subst hkey
      refine move.winnerLive hbook' loaded (hreachable.reviewSound loaded) hkeeps ?_ hopen
      intro book hbook hopen
      rw [← World.bidsOf_eq loaded]
      exact hlive key book ((World.bookOf_eq loaded).trans hbook) hopen
    · obtain ⟨hbook, hbids⟩ := others key hkey
      rw [hbook] at hbook'
      rw [hbids]
      exact hlive key book' hbook' hopen

/-! ## Every run -/

theorem Genesis.winnersLive {w : World} (h : Genesis w) : WinnersLive w := by
  intro key book hbook
  rw [World.bookOf, h.tasks] at hbook
  cases hbook

/-- In every run that settles no accepted bid back into an open book, an open book tracks nobody
or a bid that exists, is open, and has the tracked terms: it is never blocked behind a winner
whose account is gone. -/
theorem tracked_winner_live {start w : World} {log : List LogEntry} (hstart : Genesis start)
    (hrun : Run Step start log w) (hkeeps : ∀ e ∈ log, ¬Reopens e.before e.label.1) :
    WinnersLive w := by
  have hboth : Reachable w ∧ WinnersLive w :=
    hrun.invariant_of (I := fun w => Reachable w ∧ WinnersLive w)
      (C := fun e => ¬Reopens e.before e.label.1)
      (fun e hstep hkeeps hI => ⟨hI.1.step hstep, hstep.winnersLive hI.1 hkeeps hI.2⟩) hkeeps
      ⟨⟨start, [], hstart, .refl⟩, hstart.winnersLive⟩
  exact hboth.2

/-! ## A reopened book -/

/-- A creator (agent `10`) takes the bid of the worker `11` on task `50`, reviews the result, and
rejects it. -/
def reopeningScript : List Instruction :=
  [.agent 10 (.registerAgent 100 1 1000000 0),
    .agent 11 (.registerAgent 101 1 1000000 0),
    .admin [1, 3] (.initializeBidMarketplace ⟨1000, 0, 10, 10, 86400, 2500⟩),
    .create 50 100 false {} (.createTask 10 ⟨1, 1, (1, 0), 1500, 1, 5000, .BidExclusive, 0, none⟩
      none none 0),
    .task 50 (.configureTaskValidation 100 .CreatorReview 3600 0 none),
    .task 50 (.setTaskJobSpec 100 7),
    .task 50 (.initializeBidBook 100 0 {}),
    .work 50 11 (.createBid 101 ⟨1400, 2000, 5000, 0, 0, 4500, 7, 1000⟩ 0),
    .work 50 11 (.acceptBid 100 ⟨50, 12, 11, 101, 1400, 2000, 5000, 3000, 0, 0, 4500, 1000, 1000,
      1000, 2500, 7, 1000⟩ 0),
    .work 50 11 (.submitTaskResult 101 9 none 0),
    .work 50 11 (.rejectTaskResult 100 5)]

/-- As long as the bid of `11` has not been accepted, the open book tracks it. -/
theorem tracked_winner_live_open : WinnersLive (deployed.after (reopeningScript.take 8)) := by
  obtain ⟨log, hrun, hmem⟩ := deployed.run_script (reopeningScript.take 8)
  have hnone : ∀ i ∈ reopeningScript.take 8, i.mayReopen = false := by decide
  refine tracked_winner_live deployed_genesis hrun fun e he hreopens => ?_
  have hmay := hreopens.mayReopen
  rw [hnone _ (hmem e he)] at hmay
  cases hmay

/-- After the rejection the book is open again, and tracks the bid that the rejection closed. -/
theorem reopened_winner_gone : Reachable (deployed.after reopeningScript) ∧
    ¬WinnersLive (deployed.after reopeningScript) := by
  refine ⟨deployed_genesis.reachable_after _, fun hlive => ?_⟩
  have hbook : ((deployed.after reopeningScript).bookOf 50).map (fun book =>
      (book.state, book.bestBid)) = some (.Open, 12) := by decide +kernel
  have hbids : ((deployed.after reopeningScript).bidsOf 50).keys = [] := by decide +kernel
  obtain ⟨book, hsome, hstate⟩ := Option.map_eq_some_iff.mp hbook
  obtain ⟨hopen, hbest⟩ := Prod.mk.inj hstate
  rcases hlive 50 book hsome hopen with hnone | ⟨k, bid, hbid, -⟩
  · rw [hbest] at hnone
    cases hnone
  · have hmem : k ∈ ((deployed.after reopeningScript).bidsOf 50).keys :=
      AList.mem_keys.mp (AList.lookup_isSome.mp (Option.isSome_of_eq_some hbid))
    rw [hbids] at hmem
    cases hmem

end AgencCoordination
