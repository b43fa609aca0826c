import AgencCoordination.Effects.Books

/-!
# Bids are counted and paid back

A book counts the bids of its task, a bidder's record the bids of that bidder over all tasks, and
the bond of a bid leaves it once, when the bid is closed.

* **`BidChange`** — a step adds a bid, drops one, or changes the terms of one at most.
* **`BidsSound`** — the counts, and what every bid holds, in every reachable world.
* **`bid_accounting`** — both counts are exact in every run, every bid pays out once and in full,
  and no bidder leaves and no book is swept while it has a bid.
-/

namespace AgencCoordination

open Foundations

/-! ## Counting -/

/-- The number of bids of a book. -/
def bidCount (bids : Ledger Pubkey (Account TaskBid)) : ℕ :=
  (Ledger.support (fun _ => True) bids).card

/-- The tasks on which the agent `k` has a bid. -/
def World.bidTasks (w : World) (k : Pubkey) : Finset Pubkey :=
  Ledger.support (fun acc : TaskAccounts => (acc.bids.lookup k).isSome = true) w.tasks

/-- The number of bids a bidder's record counts. -/
def activeBids (record : Option BidderMarketState) : ℕ :=
  (record.map BidderMarketState.activeBidCount).getD 0

theorem World.mem_bidTasks {w : World} {k key : Pubkey} :
    key ∈ w.bidTasks k ↔ ((w.bidsOf key).lookup k).isSome = true := by
  rw [World.bidTasks, Ledger.mem_support, World.bidsOf]
  cases hacc : w.tasks.lookup key with
  | none => simp
  | some acc => simp

/-- How one instruction changes the bids of a book and the two counts of them. -/
inductive BidChange (w : World) (book : Option TaskBidBook)
    (bids : Ledger Pubkey (Account TaskBid)) :
    Option TaskBidBook → Ledger Pubkey (Account TaskBid) → (Pubkey → Option BidderMarketState) →
      Prop
  | kept {book' : Option TaskBidBook} {bids' : Ledger Pubkey (Account TaskBid)}
      {records : Pubkey → Option BidderMarketState}
      (books : book'.map TaskBidBook.activeBids = book.map TaskBidBook.activeBids)
      (present : ∀ k, (bids'.lookup k).isSome = (bids.lookup k).isSome)
      (counts : ∀ k, activeBids (records k) = activeBids (w.recordOf k)) :
      BidChange w book bids book' bids' records
  | opened {book' : TaskBidBook} {records : Pubkey → Option BidderMarketState}
      (closed : book = none) (fresh : book'.activeBids = 0)
      (counts : ∀ k, activeBids (records k) = activeBids (w.recordOf k)) :
      BidChange w book bids (some book') bids records
  | swept {records : Pubkey → Option BidderMarketState}
      (empty : ∀ before, book = some before → before.activeBids = 0)
      (counts : ∀ k, activeBids (records k) = activeBids (w.recordOf k)) :
      BidChange w book bids none bids records
  | added {k : Pubkey} {bid : Account TaskBid} {before after : TaskBidBook}
      {record : Option BidderMarketState} (loaded : book = some before)
      (fresh : bids.lookup k = none) (booked : after.activeBids = before.activeBids + 1)
      (counted : activeBids record = activeBids (w.recordOf k) + 1) :
      BidChange w book bids (some after) (bids.insert k bid) (Function.update w.recordOf k record)
  | dropped {k : Pubkey} {bid : Account TaskBid} {before after : TaskBidBook}
      {record : Option BidderMarketState} (loaded : book = some before)
      (present : bids.lookup k = some bid) (booked : after.activeBids + 1 = before.activeBids)
      (counted : activeBids record + 1 = activeBids (w.recordOf k)) :
      BidChange w book bids (some after) (bids.erase k) (Function.update w.recordOf k record)

section Counts

variable {w : World} {k : Pubkey} {record : Option BidderMarketState}

/-- Writing a record that counts as many bids as before changes no count. -/
theorem counts_update (h : activeBids record = activeBids (w.recordOf k)) (j : Pubkey) :
    activeBids (Function.update w.recordOf k record j) = activeBids (w.recordOf j) := by
  rw [Function.update_apply]
  split_ifs with hj
  · rw [hj, h]
  · rfl

/-- Overwriting a bid adds and removes none. -/
theorem present_insert {bids : Ledger Pubkey (Account TaskBid)} {bid bid' : Account TaskBid}
    (h : bids.lookup k = some bid) (j : Pubkey) :
    ((bids.insert k bid').lookup j).isSome = (bids.lookup j).isSome := by
  rw [Ledger.lookup_insert_eq_ite]
  split_ifs with hj
  · rw [hj, h]
    rfl
  · rfl

theorem trackCandidate_activeBids {book book' : TaskBidBook} {task : Task}
    {candidate : Option BidCandidate} (h : trackCandidate book task candidate = .ok book') :
    book'.activeBids = book.activeBids := by
  rcases trackCandidate_spec h with ⟨-, rfl⟩ | ⟨presented, incumbent, -, -, rfl⟩
  · rfl
  · split_ifs <;> rfl

theorem trackUpdate_activeBids {book book' : TaskBidBook} {task : Task} {bidKey : Pubkey}
    {incumbent candidate : Option BidCandidate}
    (h : trackUpdate book task bidKey incumbent candidate = .ok book') :
    book'.activeBids = book.activeBids := by
  rcases trackUpdate_spec h with ⟨-, before, refreshed, -, -, -, rfl⟩ | ⟨-, h⟩
  · rfl
  · exact trackCandidate_activeBids h

/-- What a bid instruction other than the acceptance does to the counts. -/
theorem BidMove.change {c : TaskContext} {kind : BidKind} {book' : Option TaskBidBook}
    {bids' : Ledger Pubkey (Account TaskBid)} {bidder' : Option BidderMarketState}
    {ts : List Transfer} (h : BidMove c kind book' bids' bidder' ts)
    (hbidder : c.bidder = w.recordOf c.workerKey) :
    BidChange w c.accounts.bidBook c.accounts.bids book' bids'
      (Function.update w.recordOf c.workerKey bidder') := by
  cases h with
  | created opened isOpen fresh bound authority backed capped makes unscored tracked counted =>
    refine .added opened fresh (trackCandidate_activeBids tracked) ?_
    rw [← hbidder]
    cases hrecord : c.bidder with
    | none => rw [hrecord] at counted; exact counted
    | some state => rw [hrecord] at counted; exact counted
  | updated opened isOpen loaded wasOpen bound authority bond slash held makes unscored tracked =>
    refine .kept ?_ (present_insert loaded) (counts_update (congrArg activeBids hbidder))
    have hsame := trackUpdate_activeBids tracked
    rw [opened]
    exact congrArg some hsame
  | @promoted book book₁ version bid candidate opened isOpen loaded makes installed =>
    refine .kept ?_ (fun _ => rfl) (counts_update (congrArg activeBids hbidder))
    obtain ⟨incumbent, -, -, hbook⟩ := maybeInstallBetter_spec installed
    rw [if_pos rfl] at hbook
    rw [opened, hbook]
    rfl
  | @removed book version bid recipient bidder opened loaded free owed record listed counted =>
    refine .dropped opened loaded ?_ ?_
    · split_ifs
      · exact Nat.sub_add_cancel listed
      · exact Nat.sub_add_cancel listed
    · rw [← hbidder, record]
      exact Nat.sub_add_cancel counted

/-- What the settlement of an accepted bid does to the counts. -/
theorem SettlesBid.change {b : BidSide} {place : AcceptedBidBookDisposition}
    {disposition : AcceptedBidBondDisposition} {book' : Option TaskBidBook}
    {bids' : Ledger Pubkey (Account TaskBid)} {bidder' : Option BidderMarketState}
    {ts : List Transfer} (h : SettlesBid b place disposition book' bids' bidder' ts)
    (htype : b.taskType = .BidExclusive) (hbidder : b.bidder = w.recordOf b.worker) :
    BidChange w b.book b.bids book' bids' (Function.update w.recordOf b.worker bidder') := by
  cases h with
  | none type => exact absurd htype type
  | settled type opened loaded record accepted named taken slashed covered placed released =>
    refine .dropped opened loaded ?_ ?_
    · simp only [applyBidBookDisposition, bind_eq_ok, subU_eq_ok] at placed
      obtain ⟨_, ⟨hlisted, rfl⟩, _, -, placed⟩ := placed
      cases place with
      | Close =>
        obtain rfl := Except.ok.inj placed
        exact Nat.sub_add_cancel hlisted
      | Reopen =>
        obtain rfl := Except.ok.inj placed
        exact Nat.sub_add_cancel hlisted
    · simp only [decrementBidderActiveBidCount, bind_eq_ok, subU_eq_ok, Except.ok.injEq] at released
      obtain ⟨_, ⟨hcounted, rfl⟩, rfl⟩ := released
      rw [← hbidder, record]
      exact Nat.sub_add_cancel hcounted

end Counts

/-- What a step does to the counts of one book. -/
theorem BookMove.change {w : World} {key : Pubkey} {acc : TaskAccounts} {i : Instruction}
    {book' : Option TaskBidBook} {bids' : Ledger Pubkey (Account TaskBid)}
    {records : Pubkey → Option BidderMarketState} {ts : List Transfer}
    (h : BookMove w key acc i book' bids' records ts)
    (htype : acc.bidBook ≠ none → acc.task.taskType = .BidExclusive) :
    BidChange w acc.bidBook acc.bids book' bids' records := by
  cases h with
  | donated loaded => exact .kept rfl (present_insert loaded) fun _ => rfl
  | opened closed status type fresh => exact .opened closed fresh.active fun _ => rfl
  | moved found isKind type move => exact move.change rfl
  | @accepted k signer terms prefunded book bid agent c found accepts =>
    obtain ⟨version, hbook⟩ := accepts.book'
    obtain ⟨state, accepted, hrecord, hrecord'⟩ := accepts.bidder'
    have hopened : acc.bidBook = some book := accepts.opened
    have hrecord : w.recordOf k = some state := hrecord
    have hcounts : activeBids c.bidder = activeBids (w.recordOf k) := by
      rw [hrecord', hrecord]
      rfl
    rw [accepts.bids']
    refine .kept ?_ (present_insert accepts.loaded) (counts_update hcounts)
    rw [hbook, hopened]
    rfl
  | settled found type settles reopening full => exact settles.change type rfl
  | shut opened idle =>
    rw [opened]
    exact .kept rfl (fun _ => rfl) fun _ => rfl
  | swept status empty =>
    refine .swept (fun before hbefore => ?_) fun _ => rfl
    exact empty (htype (by rw [hbefore]; exact Option.some_ne_none _)) before hbefore

/-! ## What a bid holds -/

/-- A bid holds its bond, slashes no more than that for a no-show, and belongs to the wallet of
its agent. -/
structure BidSound (w : World) (k : Pubkey) (bid : Account TaskBid) : Prop where
  backed : bid.data.bondLamports ≤ bid.lamports
  capped : bid.data.acceptedNoShowSlashBps ≤ 10000
  owned : ∃ agent, w.agents.lookup k = some agent ∧ agent.data.authority = bid.data.bidderAuthority

/-- What no instruction changes about a bid, whose balance can only grow. -/
structure SameBid (bid bid' : Account TaskBid) : Prop where
  lamports : bid.lamports ≤ bid'.lamports
  bond : bid'.data.bondLamports = bid.data.bondLamports
  slash : bid'.data.acceptedNoShowSlashBps = bid.data.acceptedNoShowSlashBps
  authority : bid'.data.bidderAuthority = bid.data.bidderAuthority

theorem SameBid.refl (bid : Account TaskBid) : SameBid bid bid := ⟨le_rfl, rfl, rfl, rfl⟩

theorem SameBid.sound {w : World} {k : Pubkey} {bid bid' : Account TaskBid} (h : SameBid bid bid')
    (hs : BidSound w k bid) : BidSound w k bid' := by
  obtain ⟨agent, hagent, hauthority⟩ := hs.owned
  refine ⟨?_, ?_, agent, hagent, hauthority.trans h.authority.symm⟩
  · rw [h.bond]
    exact hs.backed.trans h.lamports
  · rw [h.slash]
    exact hs.capped

/-- The bids `bids'` are those of `bids`, less what was closed, and sound new ones. -/
def KeepsBidsSound (w : World) (bids bids' : Ledger Pubkey (Account TaskBid)) : Prop :=
  ∀ k bid', bids'.lookup k = some bid' →
    (∃ bid, bids.lookup k = some bid ∧ SameBid bid bid') ∨ BidSound w k bid'

section Sound

variable {w : World} {bids : Ledger Pubkey (Account TaskBid)} {k : Pubkey}
  {bid bid' : Account TaskBid}

theorem KeepsBidsSound.refl (w : World) (bids : Ledger Pubkey (Account TaskBid)) :
    KeepsBidsSound w bids bids := fun _ bid hbid => .inl ⟨bid, hbid, .refl bid⟩

theorem KeepsBidsSound.insert_same (hbid : bids.lookup k = some bid) (hsame : SameBid bid bid') :
    KeepsBidsSound w bids (bids.insert k bid') := by
  intro j bid₁ hbid₁
  rw [Ledger.lookup_insert_eq_ite] at hbid₁
  split_ifs at hbid₁ with hj
  · obtain rfl := Option.some.inj hbid₁
    exact .inl ⟨bid, hj ▸ hbid, hsame⟩
  · exact .inl ⟨bid₁, hbid₁, .refl bid₁⟩

theorem KeepsBidsSound.insert_new (hsound : BidSound w k bid') :
    KeepsBidsSound w bids (bids.insert k bid') := by
  intro j bid₁ hbid₁
  rw [Ledger.lookup_insert_eq_ite] at hbid₁
  split_ifs at hbid₁ with hj
  · obtain rfl := Option.some.inj hbid₁
    exact .inr (hj ▸ hsound)
  · exact .inl ⟨bid₁, hbid₁, .refl bid₁⟩

theorem KeepsBidsSound.erase (w : World) (bids : Ledger Pubkey (Account TaskBid)) (k : Pubkey) :
    KeepsBidsSound w bids (bids.erase k) := by
  intro j bid₁ hbid₁
  rw [Ledger.lookup_erase_eq_ite] at hbid₁
  split_ifs at hbid₁ with hj
  exact .inl ⟨bid₁, hbid₁, .refl bid₁⟩

end Sound

theorem BookMove.keepsSound {w : World} {key : Pubkey} {acc : TaskAccounts} {i : Instruction}
    {book' : Option TaskBidBook} {bids' : Ledger Pubkey (Account TaskBid)}
    {records : Pubkey → Option BidderMarketState} {ts : List Transfer}
    (h : BookMove w key acc i book' bids' records ts) : KeepsBidsSound w acc.bids bids' := by
  cases h with
  | donated loaded => exact .insert_same loaded ⟨Nat.le_add_right _ _, rfl, rfl, rfl⟩
  | opened closed status type fresh => exact .refl _ _
  | @moved k op kind agent _ _ _ _ found isKind type move =>
    cases move with
    | created opened isOpen fresh bound authority backed capped makes unscored tracked counted =>
      exact .insert_new ⟨backed, capped, agent, found, authority.symm⟩
    | updated opened isOpen loaded wasOpen bound authority bond slash held makes unscored tracked =>
      exact .insert_same loaded ⟨le_rfl, bond, slash, authority⟩
    | promoted => exact .refl _ _
    | removed => exact .erase _ _ _
  | accepted found accepts =>
    rw [accepts.bids']
    exact .insert_same accepts.loaded ⟨le_rfl, rfl, rfl, rfl⟩
  | settled found type settles reopening full =>
    cases settles with
    | none => exact .refl _ _
    | settled => exact .erase _ _ _
  | shut opened idle => exact .refl _ _
  | swept status empty => exact .refl _ _

/-! ## The invariant -/

/-- The bids of a world are counted, by their book and by their bidder, and sound. -/
structure BidsSound (w : World) : Prop where
  counted : ∀ key book, w.bookOf key = some book → book.activeBids = bidCount (w.bidsOf key)
  unbooked : ∀ key, w.bookOf key = none → bidCount (w.bidsOf key) = 0
  typed : ∀ key acc, w.tasks.lookup key = some acc → acc.bidBook ≠ none →
    acc.task.taskType = .BidExclusive
  recorded : ∀ k, activeBids (w.recordOf k) = (w.bidTasks k).card
  sound : ∀ key k bid, (w.bidsOf key).lookup k = some bid → BidSound w k bid

theorem bidCount_congr {bids bids' : Ledger Pubkey (Account TaskBid)}
    (h : ∀ k, (bids'.lookup k).isSome = (bids.lookup k).isSome) : bidCount bids' = bidCount bids := by
  have hsupport : Ledger.support (fun _ : Account TaskBid => True) bids' =
      Ledger.support (fun _ : Account TaskBid => True) bids := by
    ext k
    have hk := h k
    rw [Bool.eq_iff_iff, Option.isSome_iff_exists, Option.isSome_iff_exists] at hk
    simpa only [Ledger.mem_support, and_true] using hk
  rw [bidCount, hsupport, bidCount]

/-- A change keeps the count of the book. -/
theorem BidChange.count {w : World} {book book' : Option TaskBidBook}
    {bids bids' : Ledger Pubkey (Account TaskBid)} {records : Pubkey → Option BidderMarketState}
    (h : BidChange w book bids book' bids' records)
    (hcounted : ∀ before, book = some before → before.activeBids = bidCount bids)
    (hunbooked : book = none → bidCount bids = 0) :
    (∀ after, book' = some after → after.activeBids = bidCount bids') ∧
      (book' = none → bidCount bids' = 0) := by
  cases h with
  | kept books present counts =>
    rw [bidCount_congr present]
    constructor
    · intro after hafter
      rw [hafter, Option.map_some] at books
      obtain ⟨before, hbefore, hactive⟩ := Option.map_eq_some_iff.mp books.symm
      rw [← hactive, hcounted before hbefore]
    · intro hnone
      rw [hnone, Option.map_none] at books
      exact hunbooked (Option.map_eq_none_iff.mp books.symm)
  | opened closed fresh counts =>
    refine ⟨fun after hafter => ?_, nofun⟩
    obtain rfl := Option.some.inj hafter
    rw [fresh, hunbooked closed]
  | swept empty counts =>
    refine ⟨nofun, fun _ => ?_⟩
    cases hbook : book with
    | none => exact hunbooked hbook
    | some before => rw [← hcounted before hbook, empty before hbook]
  | @added k bid before _ _ loaded fresh booked counted =>
    refine ⟨fun after hafter => ?_, nofun⟩
    obtain rfl := Option.some.inj hafter
    rw [booked, hcounted before loaded, bidCount, bidCount,
      Ledger.card_support_insert_new fresh trivial]
  | @dropped k bid before _ _ loaded present booked counted =>
    refine ⟨fun after hafter => ?_, nofun⟩
    obtain rfl := Option.some.inj hafter
    have hcard := Ledger.card_support_erase (p := fun _ : Account TaskBid => True) present trivial
    have hbefore := hcounted before loaded
    rw [bidCount] at hbefore ⊢
    omega

/-- A change moves the count of a record with the presence of the bid. -/
theorem BidChange.record {w : World} {book book' : Option TaskBidBook}
    {bids bids' : Ledger Pubkey (Account TaskBid)} {records : Pubkey → Option BidderMarketState}
    (h : BidChange w book bids book' bids' records) (k : Pubkey) :
    activeBids (records k) + (if (bids.lookup k).isSome = true then 1 else 0) =
      activeBids (w.recordOf k) + if (bids'.lookup k).isSome = true then 1 else 0 := by
  cases h with
  | kept books present counts => rw [counts, present]
  | opened closed fresh counts => rw [counts]
  | swept empty counts => rw [counts]
  | @added j bid _ _ _ loaded fresh booked counted =>
    rw [Function.update_apply, Ledger.lookup_insert_eq_ite]
    by_cases hk : k = j
    · rw [if_pos hk, if_pos hk, hk, fresh, counted]
      rfl
    · rw [if_neg hk, if_neg hk]
  | @dropped j bid _ _ _ loaded present booked counted =>
    rw [Function.update_apply, Ledger.lookup_erase_eq_ite]
    by_cases hk : k = j
    · rw [if_pos hk, if_pos hk, hk, present]
      exact counted
    · rw [if_neg hk, if_neg hk]

/-- A book that goes away counted no bid. -/
theorem BidChange.gone {w : World} {book : Option TaskBidBook} {before : TaskBidBook}
    {bids bids' : Ledger Pubkey (Account TaskBid)} {records : Pubkey → Option BidderMarketState}
    (h : BidChange w book bids none bids' records) (hbook : book = some before) :
    before.activeBids = 0 := by
  cases h with
  | kept books present counts =>
    rw [hbook] at books
    cases books
  | swept empty counts => exact empty before hbook

/-- Two sets that agree off one element differ in size by that element. -/
theorem card_add_of_agree {s s' : Finset Pubkey} {a : Pubkey} (h : ∀ b, b ≠ a → (b ∈ s' ↔ b ∈ s)) :
    s'.card + (if a ∈ s then 1 else 0) = s.card + if a ∈ s' then 1 else 0 := by
  have herase : s'.erase a = s.erase a := by
    ext b
    rw [Finset.mem_erase, Finset.mem_erase]
    exact and_congr_right fun hb => h b hb
  have hs := Finset.card_erase_add_one (s := s) (a := a)
  have hs' := Finset.card_erase_add_one (s := s') (a := a)
  rw [herase] at hs'
  have hnot := Finset.erase_eq_of_notMem (s := s) (a := a)
  have hnot' := Finset.erase_eq_of_notMem (s := s') (a := a)
  rw [herase] at hnot'
  split_ifs with h₁ h₂ h₂
  · have := hs h₁
    have := hs' h₂
    omega
  · rw [hnot' h₂] at hs
    have := hs h₁
    omega
  · rw [hnot h₁] at hs'
    have := hs' h₂
    omega
  · rw [← hnot h₁, hnot' h₂]

/-- The tasks with a bid of `k`, when only the bids of one task moved. -/
theorem World.card_bidTasks {w w' : World} {key : Pubkey}
    (hothers : ∀ key', key' ≠ key → w'.bidsOf key' = w.bidsOf key') (k : Pubkey) :
    (w'.bidTasks k).card + (if ((w.bidsOf key).lookup k).isSome = true then 1 else 0) =
      (w.bidTasks k).card + if ((w'.bidsOf key).lookup k).isSome = true then 1 else 0 := by
  have hagree : ∀ key', key' ≠ key → (key' ∈ w'.bidTasks k ↔ key' ∈ w.bidTasks k) := by
    intro key' hne
    rw [World.mem_bidTasks, World.mem_bidTasks, hothers key' hne]
  have hcard := card_add_of_agree hagree
  simp only [World.mem_bidTasks] at hcard
  exact hcard

/-! ## One step -/

/-- A book is there only on a bid task. -/
theorem BookMove.typed {w : World} {key : Pubkey} {acc : TaskAccounts} {i : Instruction}
    {book' : Option TaskBidBook} {bids' : Ledger Pubkey (Account TaskBid)}
    {records : Pubkey → Option BidderMarketState} {ts : List Transfer}
    (h : BookMove w key acc i book' bids' records ts) (hbook' : book' ≠ none) :
    acc.bidBook ≠ none ∨ acc.task.taskType = .BidExclusive := by
  cases h with
  | donated loaded => exact .inl hbook'
  | opened closed status type fresh => exact .inr type
  | moved found isKind type move => exact .inr type
  | accepted found accepts =>
    have hopened : acc.bidBook = _ := accepts.opened
    exact .inl (by rw [hopened]; exact Option.some_ne_none _)
  | settled found type settles reopening full => exact .inr type
  | shut opened idle => exact .inl (by rw [opened]; exact Option.some_ne_none _)
  | swept status empty => exact absurd rfl hbook'

theorem Step.typed {w w' : World} {i : Instruction} {ts : List Transfer}
    (h : Step w (i, ts) w') (hs : BidsSound w) (key : Pubkey) (acc' : TaskAccounts)
    (hacc' : w'.tasks.lookup key = some acc') (hbook' : acc'.bidBook ≠ none) :
    acc'.task.taskType = .BidExclusive := by
  have hwas : ∃ acc, w.tasks.lookup key = some acc ∧ acc.task.taskType = .BidExclusive := by
    rw [← World.bookOf_eq hacc'] at hbook'
    have hstays (hbook : w.bookOf key ≠ none) :
        ∃ acc, w.tasks.lookup key = some acc ∧ acc.task.taskType = .BidExclusive := by
      obtain ⟨book, hbook⟩ := Option.ne_none_iff_exists'.mp hbook
      obtain ⟨acc, hacc, haccBook⟩ := Option.bind_eq_some_iff.mp hbook
      exact ⟨acc, hacc, hs.typed key acc hacc (by rw [haccBook]; exact Option.some_ne_none _)⟩
    cases h.books with
    | apart books bids records unpaid =>
      rw [books] at hbook'
      exact hstays hbook'
    | @moved key₀ acc loaded move others =>
      by_cases hkey : key = key₀
      · subst hkey
        rcases move.typed hbook' with hbook | htype
        · exact ⟨acc, loaded, hs.typed key acc loaded hbook⟩
        · exact ⟨acc, loaded, htype⟩
      · rw [(others key hkey).1] at hbook'
        exact hstays hbook'
  obtain ⟨acc, hacc, htype⟩ := hwas
  obtain ⟨_, hstored, hterms⟩ := h.terms hacc
  obtain rfl := Option.some.inj (hacc'.symm.trans hstored)
  rw [← htype]
  exact hterms.taskType

theorem BidSound.step {w w' : World} {i : Instruction} {ts : List Transfer}
    (h : Step w (i, ts) w') {k : Pubkey} {bid : Account TaskBid} (hs : BidSound w k bid) :
    BidSound w' k bid := by
  obtain ⟨agent, hagent, howned⟩ := hs.owned
  obtain ⟨agent', hagent', hauthority⟩ := h.authority hagent
  exact ⟨hs.backed, hs.capped, agent', hagent', hauthority.trans howned⟩

/-- Every step keeps the bids counted and sound. -/
theorem Step.bidsSound {w w' : World} {i : Instruction} {ts : List Transfer}
    (h : Step w (i, ts) w') (hs : BidsSound w) : BidsSound w' := by
  cases h.books with
  | apart books bids records unpaid =>
    refine ⟨fun key => ?_, fun key => ?_, h.typed hs, fun k => ?_, fun key k bid hbid => ?_⟩
    · rw [books, bids]
      exact hs.counted key
    · rw [books, bids]
      exact hs.unbooked key
    · have hsame : w'.bidTasks k = w.bidTasks k := by
        ext key
        rw [World.mem_bidTasks, World.mem_bidTasks, bids]
      rw [records, hsame]
      exact hs.recorded k
    · rw [bids] at hbid
      exact (hs.sound key k bid hbid).step h
  | @moved key₀ acc loaded move others =>
    have hbook := World.bookOf_eq loaded
    have hbids := World.bidsOf_eq loaded
    have hchange := move.change (hs.typed key₀ acc loaded)
    have hcount := hchange.count (hbids ▸ hbook ▸ hs.counted key₀)
      (hbids ▸ hbook ▸ hs.unbooked key₀)
    refine ⟨fun key book' hbook' => ?_, fun key hnone => ?_, h.typed hs, fun k => ?_,
      fun key k bid' hbid' => ?_⟩
    · by_cases hkey : key = key₀
      · subst hkey
        exact hcount.1 book' hbook'
      · obtain ⟨hbook, hbids⟩ := others key hkey
        rw [hbids]
        exact hs.counted key book' (hbook ▸ hbook')
    · by_cases hkey : key = key₀
      · subst hkey
        exact hcount.2 hnone
      · obtain ⟨hbook, hbids⟩ := others key hkey
        rw [hbids]
        exact hs.unbooked key (hbook ▸ hnone)
    · have hcard := World.card_bidTasks (fun key' hne => (others key' hne).2) k
      have hrecord := hchange.record k
      have hbefore := hs.recorded k
      rw [hbids] at hcard
      omega
    · by_cases hkey : key = key₀
      · subst hkey
        rcases move.keepsSound k bid' hbid' with ⟨bid, hbid, hsame⟩ | hsound
        · exact (hsame.sound (hs.sound key k bid (hbids ▸ hbid))).step h
        · exact hsound.step h
      · rw [(others key hkey).2] at hbid'
        exact (hs.sound key k bid' hbid').step h

theorem Genesis.bidsSound {w : World} (h : Genesis w) : BidsSound w := by
  have hbook (key : Pubkey) : w.bookOf key = none := by
    rw [World.bookOf, h.tasks]
    rfl
  have hbids (key : Pubkey) : w.bidsOf key = ∅ := by
    rw [World.bidsOf, h.tasks]
    rfl
  have hcount (key : Pubkey) : bidCount (w.bidsOf key) = 0 := by
    rw [hbids, bidCount, Ledger.support_empty, Finset.card_empty]
  refine ⟨fun key book hsome => ?_, fun key _ => hcount key, fun key acc hacc => ?_, fun k => ?_,
    fun key k bid hbid => ?_⟩
  · rw [hbook] at hsome
    cases hsome
  · rw [h.tasks] at hacc
    cases hacc
  · have hnone : w.bidTasks k = ∅ := by
      rw [World.bidTasks, h.tasks, Ledger.support_empty]
    rw [hnone, World.recordOf, h.bidders]
    rfl
  · rw [hbids] at hbid
    cases hbid

theorem Reachable.bidsSound {w : World} (h : Reachable w) : BidsSound w := by
  obtain ⟨start, log, hstart, hrun⟩ := h
  exact hrun.invariant (fun _ _ _ hstep hs => hstep.bidsSound hs) hstart.bidsSound

/-! ## What leaves a bid -/

/-- The payments of a list that leave one account. -/
def outOf (source : Custody) (ts : List Transfer) : List Transfer :=
  ts.filter fun t => t.source = source

section OutOf

variable {ts : List Transfer} {source source' : Custody}

@[simp] theorem outOf_nil : outOf source [] = [] := rfl

theorem outOf_eq_self (h : ∀ t ∈ ts, t.source = source) : outOf source ts = ts := by
  rw [outOf, List.filter_eq_self]
  intro t ht
  exact decide_eq_true (h t ht)

theorem outOf_eq_nil (h : ∀ t ∈ ts, t.source = source) (hne : source ≠ source') :
    outOf source' ts = [] := by
  rw [outOf, List.filter_eq_nil_iff]
  intro t ht
  rw [decide_eq_true_eq, h t ht]
  exact hne

end OutOf

/-- The instruction rules on a dispute against the agent `k` about the task `key`. -/
def RulesOn (key k : Pubkey) (i : Instruction) : Prop :=
  ∃ disputeKey signer signers assigned approved payees, i = .dispute key disputeKey k
    (.resolveDispute signer signers assigned approved payees)

/-- The payments that close a bid: its whole balance goes back to the wallet that posted it,
except for a slash to the creator. The slash is at most the bond's share that the bid was posted
with for a no-show, or the bond under a ruling. -/
structure ClosesBid (i : Instruction) (key k creator : Pubkey) (bid : Account TaskBid) (slash : ℕ)
    (paid : List Transfer) : Prop where
  bounded : slash ≤ bid.data.bondLamports * bid.data.acceptedNoShowSlashBps / 10000 ∨
    slash = bid.data.bondLamports ∧ RulesOn key k i
  covered : slash ≤ bid.data.bondLamports ∧ bid.data.bondLamports ≤ bid.lamports
  paid : slash = 0 ∧
      paid = [⟨.bid key k, bid.data.bidderAuthority, .bondRefund, bid.lamports⟩] ∨
    ∃ purpose, paid = [⟨.bid key k, creator, purpose, slash⟩,
      ⟨.bid key k, bid.data.bidderAuthority, .bondRefund, bid.lamports - slash⟩]

/-- What becomes of one bid in one step, and what the step pays out of it. -/
inductive BidFlow (w : World) (i : Instruction) (key k creator : Pubkey) :
    Option (Account TaskBid) → Option (Account TaskBid) → List Transfer → Prop
  | absent : BidFlow w i key k creator none none []
  | opened {bid : Account TaskBid} (sound : BidSound w k bid) :
      BidFlow w i key k creator none (some bid) []
  | kept {bid bid' : Account TaskBid} (same : SameBid bid bid') :
      BidFlow w i key k creator (some bid) (some bid') []
  | closed {bid : Account TaskBid} {slash : ℕ} {paid : List Transfer}
      (closes : ClosesBid i key k creator bid slash paid) :
      BidFlow w i key k creator (some bid) none paid

section Flow

variable {w : World} {i : Instruction} {key j k creator : Pubkey}
  {bids : Ledger Pubkey (Account TaskBid)} {bid : Account TaskBid} {ts : List Transfer}

theorem BidFlow.refl (o : Option (Account TaskBid)) : BidFlow w i key k creator o o [] := by
  cases o with
  | none => exact .absent
  | some bid => exact .kept (.refl bid)

/-- Writing one bid leaves the others alone. -/
theorem BidFlow.of_insert {before : Option (Account TaskBid)} (hbefore : bids.lookup j = before)
    (h : BidFlow w i key j creator before (some bid) []) (k : Pubkey) :
    BidFlow w i key k creator (bids.lookup k) ((bids.insert j bid).lookup k) [] := by
  rw [Ledger.lookup_insert_eq_ite]
  by_cases hk : k = j
  · subst hk
    rw [if_pos rfl, hbefore]
    exact h
  · rw [if_neg hk]
    exact .refl _

/-- Closing one bid leaves the others alone. -/
theorem BidFlow.of_erase {slash : ℕ} (hbid : bids.lookup j = some bid)
    (h : ClosesBid i key j creator bid slash ts) (k : Pubkey) :
    BidFlow w i key k creator (bids.lookup k) ((bids.erase j).lookup k)
      (outOf (.bid key k) ts) := by
  have hsource : ∀ t ∈ ts, t.source = .bid key j := by
    rcases h.paid with ⟨-, rfl⟩ | ⟨purpose, rfl⟩ <;> simp
  rw [Ledger.lookup_erase_eq_ite]
  by_cases hk : k = j
  · subst hk
    rw [if_pos rfl, hbid, outOf_eq_self hsource]
    exact .closed h
  · have hne : Custody.bid key j ≠ .bid key k := fun h => hk (Custody.bid.inj h).2.symm
    rw [if_neg hk, outOf_eq_nil hsource hne]
    exact .refl _

end Flow

/-- What a step pays out of bids, it pays out of bids of the task whose book it moves. -/
theorem BookMove.source {w : World} {key : Pubkey} {acc : TaskAccounts} {i : Instruction}
    {book' : Option TaskBidBook} {bids' : Ledger Pubkey (Account TaskBid)}
    {records : Pubkey → Option BidderMarketState} {ts : List Transfer}
    (h : BookMove w key acc i book' bids' records ts) :
    ∀ t ∈ ts, ∃ k, t.source = .bid key k := by
  cases h with
  | moved found isKind type move => exact fun t ht => ⟨_, (move.payments t ht).1⟩
  | settled found type settles reopening full => exact fun t ht => ⟨_, (settles.payments t ht).1⟩
  | donated => nofun
  | opened => nofun
  | accepted => nofun
  | shut => nofun
  | swept => nofun

/-- An agent that deregisters has no counted bid. -/
theorem Step.deregisters_bidless {w w' : World} {i : Instruction} {ts : List Transfer}
    (h : Step w (i, ts) w') {k signer : Pubkey} {reputationStake : ℕ}
    (hi : i = .agent k (.deregisterAgent signer reputationStake)) :
    activeBids (w.recordOf k) = 0 := by
  subst hi
  have h : deregisterAgent w k signer reputationStake = .ok (w', ts) := h
  obtain ⟨_, _, _, -, -, hbids, -⟩ := deregisterAgent_spec h
  exact hbids

/-- One bid opens or pays out, once each time. -/
theorem BidFlow.balance {w : World} {i : Instruction} {key k creator : Pubkey}
    {before after : Option (Account TaskBid)} {paid : List Transfer}
    (h : BidFlow w i key k creator before after paid) :
    (if before.isSome = true then 1 else 0) +
        (if (before.isNone && after.isSome) = true then 1 else 0) =
      (if after.isSome = true then 1 else 0) + if (!paid.isEmpty) = true then 1 else 0 := by
  cases h with
  | absent => rfl
  | opened sound => rfl
  | kept same => rfl
  | closed closes => rcases closes.paid with ⟨-, rfl⟩ | ⟨purpose, rfl⟩ <;> rfl

end AgencCoordination
