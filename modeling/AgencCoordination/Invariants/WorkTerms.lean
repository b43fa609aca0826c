import AgencCoordination.Effects.Books
import AgencCoordination.Effects.Market
import AgencCoordination.Invariants.Pinned

/-!
# The terms of the work

What a worker takes on cannot be swapped under it.

* **`LockedAt`** — once a bid book has been opened, the pinned specification stays until the task
  is finished.
* **`BidsOffered`** — every live bid has the terms its bidder last gave, and they name the locked
  specification.
* **`CommittedTo`** — a hired task publishes only what its description commits it to.
* **`work_terms_pinned`** — all of it for every run, with the content gate of every assignment.
-/

namespace AgencCoordination

open Foundations

/-! ## One step of the pinned specification -/

theorem KeepsPinned.refl (acc : TaskAccounts) : KeepsPinned acc acc :=
  ⟨rfl, rfl, rfl, .refl _⟩

/-- A step moves what an existing task pins, or leaves it alone. -/
theorem Step.pinned {w w' : World} {i : Instruction} {ts : List Transfer}
    (h : Step w (i, ts) w') {key : Pubkey} {acc : TaskAccounts}
    (hacc : w.tasks.lookup key = some acc) :
    ∃ acc', w'.tasks.lookup key = some acc' ∧ PinnedMove key acc i acc' := by
  cases h.task key with
  | apart same unpaid => exact ⟨acc, same.trans hacc, .kept (.refl acc)⟩
  | created new stored fresh unpaid =>
    rw [new] at hacc
    cases hacc
  | @moved acc₀ acc' loaded stored move =>
    obtain rfl : acc = acc₀ := Option.some.inj (hacc.symm.trans loaded)
    exact ⟨acc', stored, move.pinned⟩

/-- A locked specification stays as it is while its task is not finished. -/
theorem PinnedMove.locked_spec {key : Pubkey} {acc acc' : TaskAccounts} {i : Instruction}
    {spec : TaskJobSpec} (h : PinnedMove key acc i acc') (hspec : acc.jobSpec = some spec)
    (hlock : spec.bidLocked = true) :
    acc'.jobSpec = some spec ∨ acc.task.status.isFinished := by
  cases h with
  | kept keeps => exact .inl (keeps.jobSpec.trans hspec)
  | published unlocked nonzero committed hash =>
    rw [hspec] at unlocked
    rw [Option.getD_some, hlock] at unlocked
    cases unlocked
  | locked unopened loaded =>
    obtain rfl := Option.some.inj (hspec.symm.trans loaded)
    refine .inl (congrArg some ?_)
    cases spec
    simp only at hlock
    rw [hlock]
  | assigned assigns pinned => exact .inl (pinned.jobSpec.trans hspec)
  | swept finished same claims closes jobSpec => exact .inr finished

/-- A locked specification stays, or its task is finished. -/
theorem Step.locked_spec {w w' : World} {i : Instruction} {ts : List Transfer}
    (h : Step w (i, ts) w') {key : Pubkey} {acc : TaskAccounts} {spec : TaskJobSpec}
    (hacc : w.tasks.lookup key = some acc) (hspec : acc.jobSpec = some spec)
    (hlock : spec.bidLocked = true) :
    ∃ acc', w'.tasks.lookup key = some acc' ∧
      (acc'.task.status.isFinished ∨ acc'.jobSpec = some spec) := by
  obtain ⟨acc', hacc', hmove⟩ := h.pinned hacc
  refine ⟨acc', hacc', ?_⟩
  rcases hmove.locked_spec hspec hlock with hsame | hdone
  · exact .inr hsame
  · obtain ⟨acc₁, hacc₁, hstatus, -⟩ := h.finished hacc hdone
    obtain rfl : acc' = acc₁ := Option.some.inj (hacc'.symm.trans hacc₁)
    rw [hstatus]
    exact .inl hdone

/-! ## The pinned URI -/

/-- The URI of a specification changes with a publication, and goes with a clean-up. -/
theorem enterMarket_uris {m m' : Market} {presented : Presented} {i : Instruction}
    (h : enterMarket m presented i = .ok m') (key : Pubkey) :
    m'.jobSpecUris.lookup key = m.jobSpecUris.lookup key ∨
      (∃ signer jobSpecHash, i = .task key (.setTaskJobSpec signer jobSpecHash)) ∨
      ∃ signer withJobSpec withEscrow workerBond children,
        i = .closeTask key signer withJobSpec withEscrow workerBond children := by
  unfold enterMarket at h
  split at h
  · simp only [enterHire, bind_eq_ok, Except.ok.injEq] at h
    obtain ⟨_, -, _, -, rfl⟩ := h
    exact .inl rfl
  · simp only [enterHire, bind_eq_ok, Except.ok.injEq] at h
    obtain ⟨_, -, _, -, rfl⟩ := h
    exact .inl rfl
  · rename_i key' signer jobSpecHash
    obtain rfl := Except.ok.inj h
    by_cases hkey : key = key'
    · subst hkey
      exact .inr (.inl ⟨_, _, rfl⟩)
    · exact .inl (AList.lookup_insert_ne hkey)
  · rename_i key' signer withJobSpec withEscrow workerBond children
    by_cases hkey : key = key'
    · subst hkey
      exact .inr (.inr ⟨_, _, _, _, _, rfl⟩)
    · have herased : (if withJobSpec = true then m.jobSpecUris.erase key' else
          m.jobSpecUris).lookup key = m.jobSpecUris.lookup key := by
        split_ifs
        · exact AList.lookup_erase_ne hkey
        · rfl
      simp only [enterClose, bind_eq_ok] at h
      obtain ⟨accounts, -, h⟩ := h
      cases hhire : accounts.hire with
      | none =>
        rw [hhire] at h
        obtain rfl := Except.ok.inj h
        exact .inl herased
      | some hire =>
        simp only [hhire, bind_eq_ok, Except.ok.injEq] at h
        obtain ⟨_, -, _, -, _, -, rfl⟩ := h
        exact .inl herased
  · obtain rfl := Except.ok.inj h
    exact .inl rfl

/-- The hash and the URI of the job specification a task has pinned. -/
def Market.pinned (m : Market) (key : Pubkey) : Option (Hash × String) := do
  let accounts ← m.world.tasks.lookup key
  let spec ← accounts.jobSpec
  some (spec.jobSpecHash, (m.jobSpecUris.lookup key).getD "")

theorem Market.pinned_eq {m : Market} {key : Pubkey} {acc : TaskAccounts} {spec : TaskJobSpec}
    (hacc : m.world.tasks.lookup key = some acc) (hspec : acc.jobSpec = some spec) :
    m.pinned key = some (spec.jobSpecHash, (m.jobSpecUris.lookup key).getD "") := by
  unfold Market.pinned
  rw [hacc]
  change (acc.jobSpec.bind fun spec => some (spec.jobSpecHash,
    (m.jobSpecUris.lookup key).getD "")) = _
  rw [hspec]
  rfl

/-- The task is finished, or has a locked specification, published at `uri`. -/
def LockedAt (key : Pubkey) (spec : TaskJobSpec) (uri : String) (m : Market) : Prop :=
  ∃ acc, m.world.tasks.lookup key = some acc ∧ (acc.task.status.isFinished ∨
    acc.jobSpec = some spec ∧ (m.jobSpecUris.lookup key).getD "" = uri)

/-- Opening a bid book locks the specification the task has pinned. -/
theorem Step.locks {w w' : World} {key signer : Pubkey} {policy : ℕ}
    {weights : WeightedScoreWeights} {ts : List Transfer}
    (h : Step w (.task key (.initializeBidBook signer policy weights), ts) w') :
    ∃ acc acc' spec, w.tasks.lookup key = some acc ∧ acc.jobSpec = some spec ∧
      w'.tasks.lookup key = some acc' ∧ acc'.jobSpec = some { spec with bidLocked := true } := by
  cases h.does with
  | @task _ _ acc c loaded ran =>
    obtain ⟨spec, book, hspec, haccounts⟩ := initializeBidBook_pins ran
    obtain ⟨_, _, -, -, -, -, rfl⟩ := initializeBidBook_spec ran
    refine ⟨acc, _, spec, loaded, hspec, AList.lookup_insert _, ?_⟩
    exact congrArg TaskAccounts.jobSpec haccounts

/-- A publication finds the specification unlocked, and binds a hired task to its description. -/
theorem Step.publishes {w w' : World} {key signer : Pubkey} {jobSpecHash : Hash}
    {ts : List Transfer} (h : Step w (.task key (.setTaskJobSpec signer jobSpecHash), ts) w') :
    ∃ acc, w.tasks.lookup key = some acc ∧ (acc.jobSpec.getD {}).bidLocked = false ∧
      (acc.hire.isSome = true → acc.task.description.2 = jobSpecHash) ∧
      acc.task.status = .Open := by
  cases h.does with
  | @task _ _ acc c loaded ran =>
    obtain ⟨hlock, -, hcommitted, -⟩ := setTaskJobSpec_pins ran
    refine ⟨acc, loaded, hlock, hcommitted, ?_⟩
    simp only [TaskOp.run, setTaskJobSpec, validateConfigurableTask, bind_eq_ok, require_eq_ok,
      TaskContext.task_eq] at ran
    obtain ⟨_, -, _, -, _, -, _, -, _, ⟨_, hstatus, -⟩, -⟩ := ran
    exact hstatus

theorem Step.sweeps {w w' : World} {key signer : Pubkey} {withJobSpec withEscrow : Bool}
    {workerBond : Option Pubkey} {children : List TaskChild} {ts : List Transfer}
    (h : Step w (.closeTask key signer withJobSpec withEscrow workerBond children, ts) w') :
    ∃ acc, w.tasks.lookup key = some acc ∧ acc.task.status.isFinished := by
  cases h.does with
  | closed loaded ran =>
    obtain ⟨_, _, _, _, _, _, _, hstatus, -⟩ := closeTask_spec ran
    exact ⟨_, loaded, hstatus⟩

/-- What is locked stays locked. -/
theorem MarketStep.lockedAt {m m' : Market} {i : MarketInstruction} {p : Payments}
    (h : MarketStep m (i, p) m') {key : Pubkey} {spec : TaskJobSpec} {uri : String}
    (hlock : spec.bidLocked = true) (hlocked : LockedAt key spec uri m) :
    LockedAt key spec uri m' := by
  obtain ⟨acc, hacc, hrest⟩ := hlocked
  cases h.move with
  | moderation ran => exact ⟨acc, hacc, hrest⟩
  | listing ran => exact ⟨acc, hacc, hrest⟩
  | goods ran =>
    cases GoodsOp.move ran with
    | created fresh ran => exact ⟨acc, hacc, hrest⟩
    | updated loaded ran => exact ⟨acc, hacc, hrest⟩
    | purchased loaded unsold ran => exact ⟨acc, hacc, hrest⟩
  | @core presented i world paid m₁ gated step entered =>
    rcases hrest with hdone | ⟨hspec, huri⟩
    · obtain ⟨acc', hacc', hstatus, -⟩ := step.finished hacc hdone
      refine ⟨acc', hacc', .inl ?_⟩
      rw [hstatus]
      exact hdone
    · obtain ⟨acc', hacc', hafter⟩ := step.locked_spec hacc hspec hlock
      refine ⟨acc', hacc', ?_⟩
      rcases enterMarket_uris entered key with hsame | ⟨_, _, rfl⟩ |
        ⟨_, _, _, _, _, rfl⟩
      · refine hafter.imp id fun hspec' => ⟨hspec', ?_⟩
        change (m₁.jobSpecUris.lookup key).getD "" = uri
        rw [hsame]
        exact huri
      · obtain ⟨acc₁, hacc₁, hunlocked, -⟩ := step.publishes
        obtain rfl : acc = acc₁ := Option.some.inj (hacc.symm.trans hacc₁)
        rw [hspec, Option.getD_some, hlock] at hunlocked
        cases hunlocked
      · obtain ⟨acc₁, hacc₁, hdone⟩ := step.sweeps
        obtain rfl : acc = acc₁ := Option.some.inj (hacc.symm.trans hacc₁)
        obtain ⟨acc₂, hacc₂, hstatus, -⟩ := step.finished hacc hdone
        obtain rfl : acc' = acc₂ := Option.some.inj (hacc'.symm.trans hacc₂)
        rw [hstatus]
        exact .inl hdone

/-! ## Hired work -/

/-- The task is described as `listing` at `taskJobSpecHash`, and is finished or still hired; what
it has pinned is that hash. -/
structure CommittedTo (description : Hash × Hash) (acc : TaskAccounts) : Prop where
  described : acc.task.description = description
  hired : acc.task.status.isFinished ∨ acc.hire.isSome = true
  pinned : ∀ spec, acc.jobSpec = some spec → spec.jobSpecHash = description.2

theorem PinnedMove.committedTo {key : Pubkey} {acc acc' : TaskAccounts} {i : Instruction}
    {description : Hash × Hash} (h : PinnedMove key acc i acc')
    (hcommitted : CommittedTo description acc)
    (hopen : (∃ signer jobSpecHash, i = .task key (.setTaskJobSpec signer jobSpecHash)) →
      ¬acc.task.status.isFinished)
    (hstatus : acc.task.status.isFinished → acc'.task.status = acc.task.status) :
    CommittedTo description acc' := by
  have hkeeps (hhire : acc'.hire = acc.hire) :
      acc'.task.status.isFinished ∨ acc'.hire.isSome = true := by
    rcases hcommitted.hired with hdone | hhired
    · rw [hstatus hdone]
      exact .inl hdone
    · rw [hhire]
      exact .inr hhired
  cases h with
  | kept keeps =>
    refine ⟨keeps.description.trans hcommitted.described, hkeeps keeps.hire, fun spec hspec => ?_⟩
    rw [keeps.jobSpec] at hspec
    exact hcommitted.pinned spec hspec
  | published unlocked nonzero committed hash =>
    refine ⟨hcommitted.described, hkeeps rfl, fun spec hspec => ?_⟩
    obtain rfl := Option.some.inj hspec
    have hhired := hcommitted.hired.resolve_left (hopen ⟨_, _, rfl⟩)
    rw [hash, ← committed hhired, hcommitted.described]
  | @locked _ _ _ stored _ unopened loaded =>
    refine ⟨hcommitted.described, hkeeps rfl, fun spec hspec => ?_⟩
    obtain rfl := Option.some.inj hspec
    exact hcommitted.pinned stored loaded
  | assigned assigns pinned =>
    refine ⟨pinned.description.trans hcommitted.described, hkeeps pinned.hire, fun spec hspec => ?_⟩
    rw [pinned.jobSpec] at hspec
    exact hcommitted.pinned spec hspec
  | swept finished same claims closes jobSpec =>
    refine ⟨?_, .inl ?_, fun spec hspec => ?_⟩
    · rw [same]
      exact hcommitted.described
    · rw [same]
      exact finished
    · rcases jobSpec with hsame | hnone
      · rw [hsame] at hspec
        exact hcommitted.pinned spec hspec
      · rw [hnone] at hspec
        cases hspec

/-- A task has the commitment of its hire. -/
def HiredFor (description : Hash × Hash) (key : Pubkey) (m : Market) : Prop :=
  ∃ acc, m.world.tasks.lookup key = some acc ∧ CommittedTo description acc

theorem Step.hires {w w' : World} {key creator : Pubkey} {useQuota : Bool} {pre : Prefunding}
    {op : CreateOp} {ts : List Transfer} {listing : ServiceListing} {taskJobSpecHash : Hash}
    (h : Step w (.create key creator useQuota pre op, ts) w')
    (hhires : op.hires = some (listing, taskJobSpecHash)) :
    ∃ acc, w'.tasks.lookup key = some acc ∧
      CommittedTo (listing.specHash, taskJobSpecHash) acc := by
  cases h.does with
  | created ran =>
    obtain ⟨acc, hacc, hpins⟩ := CreateOp.pins ran
    obtain ⟨⟨hire, hhire, -⟩, -, -, hdescription⟩ := hpins.hired listing taskJobSpecHash hhires
    refine ⟨acc, hacc, hdescription, .inr ?_, fun spec hspec => ?_⟩
    · rw [hhire]
      rfl
    · rw [hpins.jobSpec] at hspec
      cases hspec

/-- A hired task stays committed. -/
theorem MarketStep.hiredFor {m m' : Market} {i : MarketInstruction} {p : Payments}
    (h : MarketStep m (i, p) m') {key : Pubkey} {description : Hash × Hash}
    (hhired : HiredFor description key m) : HiredFor description key m' := by
  obtain ⟨acc, hacc, hcommitted⟩ := hhired
  rcases h.world with hsame | ⟨_, instruction, -, hstep⟩
  · exact ⟨acc, by rw [hsame]; exact hacc, hcommitted⟩
  · obtain ⟨acc', hacc', hmove⟩ := hstep.pinned hacc
    refine ⟨acc', hacc', hmove.committedTo hcommitted ?_ fun hdone => ?_⟩
    · rintro ⟨_, _, rfl⟩ hdone
      obtain ⟨acc₁, hacc₁, -, -, hstatus⟩ := hstep.publishes
      obtain rfl : acc = acc₁ := Option.some.inj (hacc.symm.trans hacc₁)
      rw [hstatus] at hdone
      revert hdone
      decide
    · obtain ⟨acc₁, hacc₁, hstatus, -⟩ := hstep.finished hacc hdone
      obtain rfl : acc' = acc₁ := Option.some.inj (hacc'.symm.trans hacc₁)
      exact hstatus

/-- A hired task publishes what it is committed to. -/
theorem HiredFor.published {m : Market} {w' : World} {key signer : Pubkey} {jobSpecHash : Hash}
    {ts : List Transfer} {description : Hash × Hash} (h : HiredFor description key m)
    (hstep : Step m.world (.task key (.setTaskJobSpec signer jobSpecHash), ts) w') :
    jobSpecHash = description.2 := by
  obtain ⟨acc, hacc, hcommitted⟩ := h
  obtain ⟨acc₁, hacc₁, -, hpublished, hstatus⟩ := hstep.publishes
  obtain rfl : acc = acc₁ := Option.some.inj (hacc.symm.trans hacc₁)
  have hopen : ¬acc.task.status.isFinished := by
    rw [hstatus]
    decide
  rw [← hpublished (hcommitted.hired.resolve_left hopen), hcommitted.described]

theorem HiredFor.pinned {m : Market} {key : Pubkey} {description : Hash × Hash}
    {pin : Hash × String} (h : HiredFor description key m) (hpin : m.pinned key = some pin) :
    pin.1 = description.2 := by
  obtain ⟨acc, hacc, hcommitted⟩ := h
  cases hspec : acc.jobSpec with
  | none =>
    unfold Market.pinned at hpin
    rw [hacc] at hpin
    change (acc.jobSpec.bind fun spec => some (spec.jobSpecHash, _)) = _ at hpin
    rw [hspec] at hpin
    cases hpin
  | some spec =>
    rw [Market.pinned_eq hacc hspec] at hpin
    obtain rfl := Option.some.inj hpin
    exact hcommitted.pinned spec hspec

/-! ## Bids -/

/-- The terms a bid instruction gives the bid. -/
def WorkOp.terms : WorkOp → Option BidTerms
  | .createBid _ terms _ | .updateBid _ terms => some terms
  | _ => none

/-- The terms an instruction gives the bid of `k` on the task `key`. -/
def Instruction.offer (key k : Pubkey) : Instruction → Option BidTerms
  | .work key' k' op => if key' = key ∧ k' = k then op.terms else none
  | _ => none

@[simp] theorem Instruction.offer_work {key key' k k' : Pubkey} {op : WorkOp} :
    (Instruction.work key' k' op).offer key k =
      if key' = key ∧ k' = k then op.terms else none := rfl

/-- The bid has the terms `t`, which name the specification. -/
structure MadeWith (t : BidTerms) (spec : TaskJobSpec) (bid : TaskBid) : Prop where
  requestedReward : bid.requestedRewardLamports = t.requestedRewardLamports
  eta : bid.etaSeconds = t.etaSeconds
  confidence : bid.confidenceBps = t.confidenceBps
  qualityGuarantee : bid.qualityGuaranteeHash = t.qualityGuaranteeHash
  metadata : bid.metadataHash = t.metadataHash
  expiry : bid.expiresAt = t.expiresAt
  jobSpecHash : spec.jobSpecHash = t.expectedJobSpecHash
  jobSpecUpdatedAt : spec.updatedAt = t.expectedJobSpecUpdatedAt

theorem validateBoundBidJobSpec_spec {c : TaskContext} {t : BidTerms} {u : Unit}
    (h : validateBoundBidJobSpec c t = .ok u) :
    ∃ spec, c.accounts.jobSpec = some spec ∧ spec.bidLocked = true ∧
      spec.jobSpecHash = t.expectedJobSpecHash ∧ spec.updatedAt = t.expectedJobSpecUpdatedAt := by
  simp only [validateBoundBidJobSpec, bind_eq_ok, demand_eq_ok, require_eq_ok] at h
  obtain ⟨spec, hspec, _, -, _, hlock, hhash, hupdated⟩ := h
  exact ⟨spec, hspec, hlock, hhash, hupdated⟩

/-- A bid is made and changed with terms that name the locked specification. -/
theorem WorkOp.run_offer {w : World} {op : WorkOp} {c c' : TaskContext} {t : BidTerms}
    (h : op.run w c = .ok c') (hterms : op.terms = some t) :
    ∃ spec account, c.accounts.jobSpec = some spec ∧ spec.bidLocked = true ∧
      c'.accounts.jobSpec = some spec ∧ c'.accounts.bids.lookup c.workerKey = some account ∧
      MadeWith t spec account.data := by
  cases op with
  | createBid signer terms prefunded =>
    obtain rfl := Option.some.inj hterms
    simp only [WorkOp.run, AgencCoordination.createBid, bind_eq_ok, demand_eq_ok,
      Except.ok.injEq] at h
    obtain ⟨_, -, m, -, book, -, _, -, _, -, _, -, _, -, _, -, _, -, _, -, _, -, _, -, h⟩ := h
    obtain ⟨_, -, _, -, _, -, _, -, _, -, _, -, _, hspec, _, -, _, -, h⟩ := h
    obtain ⟨_, -, _, -, _, -, _, -, _, -, _, -, _, -, _, -, rfl⟩ := h
    obtain ⟨spec, hspec, hlock, hhash, hupdated⟩ := validateBoundBidJobSpec_spec hspec
    exact ⟨spec, _, hspec, hlock, hspec, AList.lookup_insert _, rfl, rfl, rfl, rfl, rfl, rfl,
      hhash, hupdated⟩
  | updateBid signer terms =>
    obtain rfl := Option.some.inj hterms
    simp only [WorkOp.run, AgencCoordination.updateBid, bind_eq_ok, demand_eq_ok,
      Except.ok.injEq] at h
    obtain ⟨_, -, m, -, book, -, stored, -, _, -, _, -, _, -, _, -, _, -, _, -, h⟩ := h
    obtain ⟨_, -, _, -, _, -, _, -, _, hspec, _, -, _, -, _, -, _, -, rfl⟩ := h
    obtain ⟨spec, hspec, hlock, hhash, hupdated⟩ := validateBoundBidJobSpec_spec hspec
    exact ⟨spec, _, hspec, hlock, hspec, AList.lookup_insert _, rfl, rfl, rfl, rfl, rfl, rfl,
      hhash, hupdated⟩
  | _ => cases hterms

/-- A step that gives the bid of `k` its terms. -/
theorem Step.offers {w w' : World} {i : Instruction} {ts : List Transfer}
    (h : Step w (i, ts) w') {key k : Pubkey} {t : BidTerms} (hoffer : i.offer key k = some t) :
    ∃ acc' spec account, w'.tasks.lookup key = some acc' ∧ acc'.jobSpec = some spec ∧
      spec.bidLocked = true ∧ acc'.bids.lookup k = some account ∧
      MadeWith t spec account.data := by
  cases i with
  | work key' k' op =>
    rw [Instruction.offer_work] at hoffer
    split_ifs at hoffer with hsame
    obtain ⟨rfl, rfl⟩ := hsame
    cases h.does with
    | work loaded found ran rent =>
      obtain ⟨spec, account, -, hlock, hspec, hbid, hmade⟩ := WorkOp.run_offer ran hoffer
      refine ⟨_, spec, account, ?_, hspec, hlock, hbid, hmade⟩
      rw [World.storeWork_tasks, (WorkOp.run_frames ran).key]
      exact AList.lookup_insert _
  | _ => cases hoffer

/-- A live bid that a step does not give new terms had its terms before. -/
theorem BookMove.bid_kept {w : World} {key k : Pubkey} {acc : TaskAccounts} {i : Instruction}
    {book' : Option TaskBidBook} {bids' : Ledger Pubkey (Account TaskBid)}
    {records : Pubkey → Option BidderMarketState} {ts : List Transfer} {account' : Account TaskBid}
    (h : BookMove w key acc i book' bids' records ts) (hoffer : i.offer key k = none)
    (hafter : bids'.lookup k = some account') (hbound : account'.data.state = .BoundActive) :
    ∃ account, acc.bids.lookup k = some account ∧ account.data = account'.data := by
  have hinsert {k' : Pubkey} {bid : Account TaskBid} (bid' : Account TaskBid)
      (hloaded : acc.bids.lookup k' = some bid)
      (hdata : k = k' → bid'.data.state = .BoundActive → bid.data = bid'.data)
      (hlookup : (acc.bids.insert k' bid').lookup k = some account') :
      ∃ account, acc.bids.lookup k = some account ∧ account.data = account'.data := by
    rw [Ledger.lookup_insert_eq_ite] at hlookup
    split_ifs at hlookup with hk
    · obtain rfl := Option.some.inj hlookup
      exact ⟨bid, hk ▸ hloaded, hdata hk hbound⟩
    · exact ⟨account', hlookup, rfl⟩
  have herase {k' : Pubkey} (hlookup : (acc.bids.erase k').lookup k = some account') :
      ∃ account, acc.bids.lookup k = some account ∧ account.data = account'.data := by
    rw [Ledger.lookup_erase_eq_ite] at hlookup
    split_ifs at hlookup
    exact ⟨account', hlookup, rfl⟩
  cases h with
  | donated loaded =>
    refine hinsert _ loaded (fun _ _ => ?_) hafter
    rfl
  | opened closed status type fresh => exact ⟨account', hafter, rfl⟩
  | @moved k' op kind agent _ _ _ _ found isKind type move =>
    have hterms (hk : k' = k) : op.terms = none := by
      rwa [Instruction.offer_work, if_pos ⟨rfl, hk⟩] at hoffer
    cases move with
    | created opened isOpen fresh bound authority backed capped makes unscored tracked counted =>
      have hk : k ≠ k' := by
        intro hk
        have hnone := hterms hk.symm
        cases op <;> cases isKind
        cases hnone
      exact ⟨account', (AList.lookup_insert_ne hk).symm.trans hafter, rfl⟩
    | updated opened isOpen loaded wasOpen bound authority bond slash held makes unscored tracked =>
      have hk : k ≠ k' := by
        intro hk
        have hnone := hterms hk.symm
        cases op <;> cases isKind
        cases hnone
      exact ⟨account', (AList.lookup_insert_ne hk).symm.trans hafter, rfl⟩
    | promoted opened isOpen loaded makes installed => exact ⟨account', hafter, rfl⟩
    | removed opened loaded free owed record listed counted => exact herase hafter
  | accepted found accepts =>
    rw [accepts.bids'] at hafter
    refine hinsert _ accepts.loaded (fun _ hstate => ?_) hafter
    cases hstate
  | settled found type settles reopening full =>
    cases settles with
    | none type => exact ⟨account', hafter, rfl⟩
    | settled => exact herase hafter
  | shut opened idle => exact ⟨account', hafter, rfl⟩
  | swept status empty => exact ⟨account', hafter, rfl⟩

theorem Step.bid_kept {w w' : World} {i : Instruction} {ts : List Transfer}
    (h : Step w (i, ts) w') {key k : Pubkey} {account' : Account TaskBid}
    (hoffer : i.offer key k = none) (hafter : (w'.bidsOf key).lookup k = some account')
    (hbound : account'.data.state = .BoundActive) :
    ∃ account, (w.bidsOf key).lookup k = some account ∧ account.data = account'.data := by
  cases h.books with
  | apart books bids records unpaid =>
    rw [bids] at hafter
    exact ⟨account', hafter, rfl⟩
  | @moved key' acc loaded move others =>
    by_cases hkey : key = key'
    · subst hkey
      rw [World.bidsOf_eq loaded]
      exact move.bid_kept hoffer hafter hbound
    · rw [(others key hkey).2] at hafter
      exact ⟨account', hafter, rfl⟩

/-- The terms an instruction of the marketplace gives the bid of `k` on the task `key`. -/
def MarketInstruction.offer (key k : Pubkey) : MarketInstruction → Option BidTerms
  | .core _ i => i.offer key k
  | _ => none

/-- The bid of `k` on the task `key` is as the last instruction made it that gave it terms, and
that instruction named `spec` as it was then locked. -/
def OfferedAs (key k : Pubkey) (spec : TaskJobSpec) (bid : TaskBid) (log : List MarketEntry) :
    Prop :=
  Run.Since (fun e => (e.label.1.offer key k).isSome = true)
    (fun e => ∃ t acc account, e.label.1.offer key k = some t ∧
      e.after.world.tasks.lookup key = some acc ∧ acc.jobSpec = some spec ∧
      acc.bids.lookup k = some account ∧ account.data = bid ∧ MadeWith t spec bid) log

/-- Every live bid on a task that is not finished was made against the locked specification. -/
def BidsOffered (log : List MarketEntry) (m : Market) : Prop :=
  ∀ key acc k account, m.world.tasks.lookup key = some acc → ¬acc.task.status.isFinished →
    acc.bids.lookup k = some account → account.data.state = .BoundActive →
    ∃ spec, acc.jobSpec = some spec ∧ spec.bidLocked = true ∧
      OfferedAs key k spec account.data log

theorem OfferedAs.snoc {key k : Pubkey} {spec : TaskJobSpec} {bid : TaskBid}
    {log : List MarketEntry} {e : MarketEntry} (h : OfferedAs key k spec bid log)
    (he : e.label.1.offer key k = none) : OfferedAs key k spec bid (log ++ [e]) := by
  refine Run.since_snoc.mpr (.inr ⟨h, ?_⟩)
  rw [he]
  simp

/-- A step that does not reach the program keeps the bids. -/
theorem BidsOffered.apart {log : List MarketEntry} {e : MarketEntry}
    (h : BidsOffered log e.before) (hworld : e.after.world = e.before.world)
    (he : ∀ key k, e.label.1.offer key k = none) : BidsOffered (log ++ [e]) e.after := by
  intro key acc k account hacc hopen hbid hbound
  rw [hworld] at hacc
  obtain ⟨spec, hspec, hlock, hoffered⟩ := h key acc k account hacc hopen hbid hbound
  exact ⟨spec, hspec, hlock, hoffered.snoc (he key k)⟩

/-- An instruction of the program makes a bid against the locked specification, or keeps it. -/
theorem BidsOffered.core {log : List MarketEntry} {m m' : Market} {presented : Presented}
    {i : Instruction} {p : Payments} {ts : List Transfer} (h : BidsOffered log m)
    (hstep : Step m.world (i, ts) m'.world) :
    BidsOffered (log ++ [⟨m, (.core presented i, p), m'⟩]) m' := by
  intro key acc' k account' hacc' hopen hbid hbound
  cases hoffer : i.offer key k with
  | some t =>
    obtain ⟨acc₁, spec, account, hacc₁, hspec, hlock, hbid₁, hmade⟩ := hstep.offers hoffer
    obtain rfl : acc' = acc₁ := Option.some.inj (hacc'.symm.trans hacc₁)
    obtain rfl : account' = account := Option.some.inj (hbid.symm.trans hbid₁)
    refine ⟨spec, hspec, hlock, Run.since_snoc.mpr (.inl ?_)⟩
    exact ⟨t, acc', account', hoffer, hacc', hspec, hbid, rfl, hmade⟩
  | none =>
    rw [← World.bidsOf_eq hacc'] at hbid
    obtain ⟨account, hbefore, hdata⟩ := hstep.bid_kept hoffer hbid hbound
    cases hacc : m.world.tasks.lookup key with
    | none =>
      rw [World.bidsOf, hacc] at hbefore
      cases hbefore
    | some acc =>
      rw [World.bidsOf_eq hacc] at hbefore
      have hopen' : ¬acc.task.status.isFinished := by
        intro hdone
        obtain ⟨acc₁, hacc₁, hstatus, -⟩ := hstep.finished hacc hdone
        obtain rfl : acc' = acc₁ := Option.some.inj (hacc'.symm.trans hacc₁)
        rw [hstatus] at hopen
        exact hopen hdone
      obtain ⟨spec, hspec, hlock, hoffered⟩ :=
        h key acc k account hacc hopen' hbefore (by rw [hdata]; exact hbound)
      obtain ⟨acc₁, hacc₁, hafter⟩ := hstep.locked_spec hacc hspec hlock
      obtain rfl : acc' = acc₁ := Option.some.inj (hacc'.symm.trans hacc₁)
      rw [hdata] at hoffered
      exact ⟨spec, hafter.resolve_left hopen, hlock, hoffered.snoc hoffer⟩

/-- Every live bid of a run was made against the locked specification. -/
theorem bids_offered {start m : Market} {log : List MarketEntry} (hstart : start.Genesis)
    (hrun : Run MarketStep start log m) : BidsOffered log m := by
  induction hrun with
  | refl =>
    intro key acc k account hacc
    rw [hstart.world.tasks] at hacc
    cases hacc
  | @snoc log m m' label hrun hs ih =>
    obtain ⟨i, p⟩ := label
    cases MarketStep.move hs with
    | core gated step entered => exact ih.core step
    | moderation ran => exact ih.apart rfl fun _ _ => rfl
    | listing ran => exact ih.apart rfl fun _ _ => rfl
    | goods ran => exact ih.apart (GoodsOp.move ran).world fun _ _ => rfl

/-- The acceptance of the bid of `k` at `terms`: the bid is as it was offered on the specification
the task has pinned, the creator named exactly its terms, and nothing of it is changed. -/
def AcceptsOffered (log : List MarketEntry) (key k : Pubkey) (terms : BidTermsHash)
    (m m' : Market) : Prop :=
  ∃ acc acc' agent spec account, m.world.tasks.lookup key = some acc ∧
    m'.world.tasks.lookup key = some acc' ∧ m.world.agents.lookup k = some agent ∧
    acc.jobSpec = some spec ∧ spec.bidLocked = true ∧ acc'.jobSpec = some spec ∧
    acc.bids.lookup k = some account ∧ OfferedAs key k spec account.data log ∧
    calculateBidTermsHash (m.world.workContext key acc k agent) account.data spec = terms ∧
    acc'.bidBook.bind TaskBidBook.acceptedBid = some k ∧
    acc'.bids.lookup k = some { account with
      data := { account.data with state := .Accepted, updatedAt := m.world.sys.now } }

theorem Step.acceptsOffered {m m' : Market} {log : List MarketEntry} {key k signer : Pubkey}
    {terms : BidTermsHash} {prefunded : ℕ} {ts : List Transfer} (hoffered : BidsOffered log m)
    (h : Step m.world (.work key k (.acceptBid signer terms prefunded), ts) m'.world) :
    AcceptsOffered log key k terms m m' := by
  generalize hw' : m'.world = w' at h
  cases h.does with
  | @work _ _ _ acc agent c loaded found ran rent =>
    have hstored : m'.world.tasks.lookup key = some c.accounts := by
      rw [hw', World.storeWork_tasks, (WorkOp.run_frames ran).key]
      exact AList.lookup_insert _
    obtain ⟨_, book, account, -, -, hstatus, haccepts, hoccupies⟩ := acceptBid_spec ran
    have hopen : ¬acc.task.status.isFinished := by
      have hstatus : acc.task.status = .Open := hstatus
      rw [hstatus]
      decide
    obtain ⟨spec, hspec, hlock, hmade⟩ :=
      hoffered key acc k account loaded hopen haccepts.loaded haccepts.bound
    obtain ⟨spec₁, hspec₁, hhash⟩ := haccepts.hashed
    obtain rfl : spec = spec₁ := Option.some.inj (hspec.symm.trans hspec₁)
    refine ⟨acc, c.accounts, agent, spec, account, loaded, hstored, found, hspec, hlock,
      hoccupies.pinned.jobSpec.trans hspec, haccepts.loaded, hmade, hhash, ?_, ?_⟩
    · obtain ⟨_, hbook⟩ := haccepts.book'
      rw [hbook]
      rfl
    · rw [haccepts.bids']
      exact AList.lookup_insert _

/-! ## Blocked content -/

/-- A claim is opened by an assignment to its worker only. -/
theorem Step.claim_opened {w w' : World} {i : Instruction} {ts : List Transfer}
    (h : Step w (i, ts) w') {key k : Pubkey} {acc' : TaskAccounts}
    (hacc' : w'.tasks.lookup key = some acc') (hclaim : (acc'.claims.lookup k).isSome = true)
    (hbefore : ∀ acc, w.tasks.lookup key = some acc → acc.claims.lookup k = none) :
    ∃ op : WorkOp, i = .work key k op ∧ op.assigns = true := by
  cases hacc : w.tasks.lookup key with
  | none =>
    cases h.task key with
    | apart same unpaid =>
      rw [same, hacc] at hacc'
      cases hacc'
    | created new stored fresh unpaid =>
      obtain rfl := Option.some.inj (hacc'.symm.trans stored)
      rw [fresh.claims] at hclaim
      cases hclaim
    | moved loaded stored move =>
      rw [hacc] at loaded
      cases loaded
  | some acc =>
    obtain ⟨acc₁, hacc₁, hmove⟩ := h.pinned hacc
    obtain rfl : acc' = acc₁ := Option.some.inj (hacc'.symm.trans hacc₁)
    have hnone := hbefore acc hacc
    cases hmove with
    | kept keeps =>
      rw [keeps.claims k hnone] at hclaim
      cases hclaim
    | published unlocked nonzero committed hash =>
      rw [hnone] at hclaim
      cases hclaim
    | locked unopened loaded =>
      rw [hnone] at hclaim
      cases hclaim
    | @assigned k' op _ assigns pinned =>
      by_cases hk : k = k'
      · subst hk
        exact ⟨op, rfl, assigns⟩
      · rw [pinned.others k hk, hnone] at hclaim
        cases hclaim
    | swept finished same claims closes jobSpec =>
      rw [claims, hnone] at hclaim
      cases hclaim

/-- An assignment passes the gate with a pinned hash that carries no BLOCK. -/
theorem contentGate_assigns {m : Market} {presented : Presented} {key k : Pubkey} {op : WorkOp}
    (hassigns : op.assigns = true) (h : contentGate m presented (.work key k op) = .ok ()) :
    ∃ pin, m.pinned key = some pin ∧ ¬m.moderation.Blocked pin.1 := by
  have hgate : gateAssignment m key = .ok () := by
    cases op with
    | claimTaskWithJobSpec signer prefunded => exact h
    | acceptBid signer terms prefunded => exact h
    | _ => cases hassigns
  simp only [gateAssignment, requireContentNotBlocked, bind_eq_ok, demand_eq_ok,
    require_eq_ok] at hgate
  obtain ⟨acc, hacc, spec, hspec, _, -, hblocked⟩ := hgate
  exact ⟨_, Market.pinned_eq hacc hspec, hblocked⟩

/-- The gate of a hire is that of its listing. -/
theorem contentGate_hire {m : Market} {presented : Presented} {key creator : Pubkey}
    {useQuota : Bool} {pre : Prefunding} {op : CreateOp} {listing : ServiceListing}
    {taskJobSpecHash : Hash} (hhires : op.hires = some (listing, taskJobSpecHash))
    (h : contentGate m presented (.create key creator useQuota pre op) = .ok ()) :
    gateHire m presented listing = .ok () := by
  cases op with
  | hireFromListing _ hired =>
    obtain rfl : hired = listing := congrArg Prod.fst (Option.some.inj hhires)
    exact h
  | hireFromListingHumanless hired =>
    obtain rfl : hired = listing := congrArg Prod.fst (Option.some.inj hhires)
    exact h
  | _ => cases hhires

theorem gateHire_spec {m : Market} {presented : Presented} {listing : ServiceListing}
    (h : gateHire m presented listing = .ok ()) :
    (∃ stored, m.listings.lookup listing.key = some stored ∧
      stored.terms listing.key = listing) ∧ ¬m.moderation.Blocked listing.specHash := by
  simp only [gateHire, bind_eq_ok, demand_eq_ok, require_eq_ok] at h
  obtain ⟨stored, hstored, _, hterms, hmoderated⟩ := h
  exact ⟨⟨stored, hstored, hterms⟩, not_blocked_of_listingModeration hmoderated⟩

theorem contentGate_publishes {m : Market} {presented : Presented} {key signer : Pubkey}
    {jobSpecHash : Hash}
    (h : contentGate m presented (.task key (.setTaskJobSpec signer jobSpecHash)) = .ok ()) :
    ¬m.moderation.Blocked jobSpecHash := by
  have hgate : gatePublication m presented key jobSpecHash = .ok () := h
  simp only [gatePublication, bind_eq_ok] at hgate
  obtain ⟨_, -, _, -, hmoderated⟩ := hgate
  exact not_blocked_of_taskModeration hmoderated

/-- A core instruction of the log has passed its gate and made its step. -/
theorem MarketStep.core {m m' : Market} {presented : Presented} {i : Instruction} {p : Payments}
    (h : MarketStep m (.core presented i, p) m') :
    contentGate m presented i = .ok () ∧ Step m.world (i, p.transfers) m'.world := by
  cases h.move with
  | core gated step entered => exact ⟨gated, step⟩

/-! ## Runs -/

/-- A step that opens a bid book locks what the task has pinned. -/
theorem MarketStep.locks {m m' : Market} {presented : Presented} {key signer : Pubkey}
    {policy : ℕ} {weights : WeightedScoreWeights} {p : Payments}
    (h : MarketStep m (.core presented (.task key (.initializeBidBook signer policy weights)), p)
      m') :
    ∃ spec pin, spec.bidLocked = true ∧ spec.jobSpecHash = pin.1 ∧ m.pinned key = some pin ∧
      m'.pinned key = some pin ∧ LockedAt key spec pin.2 m' := by
  cases h.move with
  | core gated step entered =>
    obtain ⟨acc, acc', spec, hacc, hspec, hacc', hspec'⟩ := step.locks
    obtain rfl := Except.ok.inj entered
    refine ⟨{ spec with bidLocked := true }, _, rfl, ?_, Market.pinned_eq hacc hspec, ?_, acc',
      hacc', .inr ⟨hspec', rfl⟩⟩
    · rfl
    · exact (Market.pinned_eq hacc' hspec').trans rfl

theorem LockedAt.pinned {m : Market} {key : Pubkey} {spec : TaskJobSpec} {uri : String}
    {acc : TaskAccounts} (h : LockedAt key spec uri m) (hacc : m.world.tasks.lookup key = some acc)
    (hopen : ¬acc.task.status.isFinished) : m.pinned key = some (spec.jobSpecHash, uri) := by
  obtain ⟨acc₁, hacc₁, hrest⟩ := h
  obtain rfl : acc = acc₁ := Option.some.inj (hacc.symm.trans hacc₁)
  obtain ⟨hspec, huri⟩ := hrest.resolve_left hopen
  rw [Market.pinned_eq hacc hspec, huri]

/-- In every run: the hash and the URI of a task's specification stay as they were when its bid
book was opened, until the task is finished; a bid is accepted as it was offered on that
specification; a hired task publishes and pins only the hash its description has had since the
hire; and no BLOCK is on the pinned hash of a task that gets a claim or has a bid accepted, on the
hash that is published, or on the listing that is hired. -/
theorem work_terms_pinned {start m : Market} {log : List MarketEntry} (hstart : start.Genesis)
    (hrun : Run MarketStep start log m) :
    (∀ log₁ e log₂, log = log₁ ++ e :: log₂ → ∀ presented key signer policy weights,
      e.label.1 = .core presented (.task key (.initializeBidBook signer policy weights)) →
      ∃ pin, e.before.pinned key = some pin ∧ e.after.pinned key = some pin ∧
        ∀ acc, m.world.tasks.lookup key = some acc → ¬acc.task.status.isFinished →
          m.pinned key = some pin) ∧
    (∀ log₁ e log₂, log = log₁ ++ e :: log₂ → ∀ presented key k signer terms prefunded,
      e.label.1 = .core presented (.work key k (.acceptBid signer terms prefunded)) →
      AcceptsOffered log₁ key k terms e.before e.after) ∧
    (∀ log₁ e log₂, log = log₁ ++ e :: log₂ →
      ∀ presented key creator useQuota pre op listing taskJobSpecHash,
      e.label.1 = .core presented (.create key creator useQuota pre op) →
      op.hires = some (listing, taskJobSpecHash) →
      (∀ m' ∈ [e.after, m], ∃ acc, m'.world.tasks.lookup key = some acc ∧
        acc.task.description = (listing.specHash, taskJobSpecHash)) ∧
      (∀ e' ∈ log₂, ∀ presented' signer jobSpecHash,
        e'.label.1 = .core presented' (.task key (.setTaskJobSpec signer jobSpecHash)) →
        jobSpecHash = taskJobSpecHash) ∧
      ∀ pin, m.pinned key = some pin → pin.1 = taskJobSpecHash) ∧
    ∀ e ∈ log,
      (∀ key k acc', e.after.world.tasks.lookup key = some acc' →
        (acc'.claims.lookup k).isSome = true →
        (∀ acc, e.before.world.tasks.lookup key = some acc → acc.claims.lookup k = none) →
        ∃ pin, e.before.pinned key = some pin ∧ ¬e.before.moderation.Blocked pin.1) ∧
      (∀ presented key k signer terms prefunded,
        e.label.1 = .core presented (.work key k (.acceptBid signer terms prefunded)) →
        ∃ pin, e.before.pinned key = some pin ∧ ¬e.before.moderation.Blocked pin.1) ∧
      (∀ presented key signer jobSpecHash,
        e.label.1 = .core presented (.task key (.setTaskJobSpec signer jobSpecHash)) →
        ¬e.before.moderation.Blocked jobSpecHash) ∧
      ∀ presented key creator useQuota pre op listing taskJobSpecHash,
        e.label.1 = .core presented (.create key creator useQuota pre op) →
        op.hires = some (listing, taskJobSpecHash) →
          ¬e.before.moderation.Blocked listing.specHash := by
  refine ⟨?_, ?_, ?_, ?_⟩
  · rintro log₁ ⟨before, ⟨i, p⟩, after⟩ log₂ rfl presented key signer policy weights hlabel
    obtain ⟨-, hs, hrest⟩ := hrun.split_at
    obtain rfl : i = _ := hlabel
    obtain ⟨spec, pin, hlock, hhash, hbefore, hafter, hlocked⟩ := hs.locks
    have hend : LockedAt key spec pin.2 m :=
      hrest.invariant (I := LockedAt key spec pin.2) (fun _ _ _ hs h => hs.lockedAt hlock h) hlocked
    refine ⟨pin, hbefore, hafter, fun acc hacc hopen => ?_⟩
    rw [hend.pinned hacc hopen, hhash]
  · rintro log₁ ⟨before, ⟨i, p⟩, after⟩ log₂ rfl presented key k signer terms prefunded hlabel
    obtain ⟨hfirst, hs, -⟩ := hrun.split_at
    obtain rfl : i = _ := hlabel
    exact hs.core.2.acceptsOffered (bids_offered hstart hfirst)
  · rintro log₁ ⟨before, ⟨i, p⟩, after⟩ log₂ rfl presented key creator useQuota pre op listing
      taskJobSpecHash hlabel hhires
    obtain ⟨-, hs, hrest⟩ := hrun.split_at
    obtain rfl : i = _ := hlabel
    have hhired : HiredFor (listing.specHash, taskJobSpecHash) key after := hs.core.2.hires hhires
    have hkeeps : ∀ s label s', MarketStep s label s' →
        HiredFor (listing.specHash, taskJobSpecHash) key s →
        HiredFor (listing.specHash, taskJobSpecHash) key s' :=
      fun _ _ _ hs h => hs.hiredFor h
    have hend := hrest.invariant hkeeps hhired
    refine ⟨?_, ?_, fun pin hpin => hend.pinned hpin⟩
    · intro m' hm'
      have hm' : HiredFor (listing.specHash, taskJobSpecHash) key m' := by
        rcases List.mem_pair.mp hm' with rfl | rfl
        · exact hhired
        · exact hend
      obtain ⟨acc, hacc, hcommitted⟩ := hm'
      exact ⟨acc, hacc, hcommitted.described⟩
    · rintro ⟨before', ⟨i', p'⟩, after'⟩ he' presented' signer jobSpecHash hlabel'
      obtain ⟨hbefore, hs'⟩ := hrest.invariant_mem hkeeps hhired he'
      obtain rfl : i' = _ := hlabel'
      exact hbefore.published hs'.core.2
  · rintro ⟨before, ⟨i, p⟩, after⟩ he
    obtain ⟨_, _, -, -, hs, -⟩ := hrun.split_mem he
    refine ⟨?_, ?_, ?_, ?_⟩
    · intro key k acc' hacc' hclaim hnone
      rcases MarketStep.world hs with hsame | ⟨presented, instruction, rfl, hstep⟩
      · have hsame : after.world = before.world := hsame
        rw [hsame] at hacc'
        rw [hnone acc' hacc'] at hclaim
        cases hclaim
      · obtain ⟨op, rfl, hassigns⟩ := hstep.claim_opened hacc' hclaim hnone
        exact contentGate_assigns hassigns hs.core.1
    · intro presented key k signer terms prefunded hlabel
      obtain rfl : i = _ := hlabel
      exact contentGate_assigns rfl hs.core.1
    · intro presented key signer jobSpecHash hlabel
      obtain rfl : i = _ := hlabel
      exact contentGate_publishes hs.core.1
    · intro presented key creator useQuota pre op listing taskJobSpecHash hlabel hhires
      obtain rfl : i = _ := hlabel
      exact (gateHire_spec (contentGate_hire hhires hs.core.1)).2

/-- A creator publishes the work of task `50` and opens it to bids, and `11` bids. -/
def offeringScript : List MarketInstruction :=
  [.core {} (.agent 10 (.registerAgent 100 1 1000000 0)),
    .core {} (.agent 11 (.registerAgent 101 1 1000000 0)),
    .core {} (.admin [1, 3] (.initializeBidMarketplace ⟨1000, 0, 10, 10, 86400, 2500⟩)),
    .core {} (.create 50 100 false {} (.createTask 10
      ⟨1, 1, (1, 0), 1500, 1, 5000, .BidExclusive, 0, none⟩ none none 0)),
    .core {} (.task 50 (.configureTaskValidation 100 .CreatorReview 3600 0 none)),
    .moderation (.configure 1 9 true),
    .moderation (.recordTask 9 false 50 7 { status := .Clean, riskScore := 0 }),
    .core { moderator := 9, jobSpecUri := "agenc://job/7" } (.task 50 (.setTaskJobSpec 100 7)),
    .core {} (.task 50 (.initializeBidBook 100 0 {})),
    .core {} (.work 50 11 (.createBid 101 ⟨1400, 2000, 5000, 0, 0, 4500, 7, 1000⟩ 0))]

/-- The terms of the bid the script makes. -/
def offeredTerms : BidTermsHash :=
  ⟨50, 12, 11, 101, 1400, 2000, 5000, 3000, 0, 0, 4500, 1000, 1000, 1000, 2500, 7, 1000⟩

/-- The creator may accept the bid of the script, as it was offered. -/
theorem work_terms_pinned_accepted :
    ∃ log p m, Run MarketStep deployedMarket log (deployedMarket.after offeringScript) ∧
      MarketStep (deployedMarket.after offeringScript)
        (.core {} (.work 50 11 (.acceptBid 100 offeredTerms 0)), p) m ∧
      AcceptsOffered log 50 11 offeredTerms (deployedMarket.after offeringScript) m := by
  obtain ⟨log, hrun⟩ := deployedMarket.run_after offeringScript
  have hsome : ((executeMarket (deployedMarket.after offeringScript)
      (.core {} (.work 50 11 (.acceptBid 100 offeredTerms 0)))).toOption).isSome = true := by
    decide +kernel
  obtain ⟨⟨m, p⟩, hexec⟩ := Option.isSome_iff_exists.mp hsome
  have hstep := MarketStep.of_toOption hexec
  obtain ⟨-, haccepts, -, -⟩ := work_terms_pinned deployedMarket_genesis (hrun.snoc hstep)
  exact ⟨log, p, m, hrun, hstep, haccepts log _ [] rfl _ _ _ _ _ _ rfl⟩

end AgencCoordination
