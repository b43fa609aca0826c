import AgencCoordination.Foundations.Tally
import AgencCoordination.Foundations.Versions
import AgencCoordination.Invariants.WorkTerms

/-!
# Service listings: capacity and terms

A listing counts its open jobs. A hire takes one when its task is created, and `close_task` gives it
back when it sweeps the hire record; nothing in between touches the count, whatever becomes of the
task and however the seller moves the bound. Every change of what a hire buys takes a new version.

* **`EntersListings`** — what it writes to the listings.
* **`CapacityKept`** — the count of a listing is the number of its live hires, within its bound.
* **`listing_capacity`** — that, for every reachable marketplace.
* **`listing_terms`** — a hire under the version that was read is on the terms that were read.
-/

namespace AgencCoordination

open Foundations

/-! ## Hire records -/

/-- The listing of a live hire of a task. -/
def hiredFrom (_ : Pubkey) (acc : TaskAccounts) : Option Pubkey :=
  acc.hire.map HireRecord.listing

/-- The listing the task `key` is hired from, while its hire record exists. -/
def hireOf (w : World) (key : Pubkey) : Option Pubkey :=
  (w.tasks.lookup key).bind (hiredFrom key)

/-- The tasks with a live hire of a listing. -/
def openHires (w : World) (listing : Pubkey) : Finset Pubkey :=
  Ledger.records hiredFrom (some listing) w.tasks

theorem mem_openHires {w : World} {listing key : Pubkey} :
    key ∈ openHires w listing ↔ hireOf w key = some listing := by
  unfold openHires hireOf
  rw [Ledger.mem_records, Option.bind_eq_some_iff]

theorem hireOf_eq {w : World} {key : Pubkey} {acc : TaskAccounts}
    (h : w.tasks.lookup key = some acc) : hireOf w key = hiredFrom key acc := by
  unfold hireOf
  rw [h]
  rfl

/-- An instruction on a task keeps its hire record, unless it closes the task. -/
theorem TaskMove.hire {w : World} {key : Pubkey} {acc acc' : TaskAccounts} {i : Instruction}
    {ts : List Transfer} (h : TaskMove w key acc i acc' ts) :
    acc'.hire = acc.hire ∨ acc'.hire = none ∧
      ∃ signer withJobSpec withEscrow workerBond children,
        i = .closeTask key signer withJobSpec withEscrow workerBond children := by
  cases h.pinned with
  | kept keeps => exact .inl keeps.hire
  | published unlocked nonzero committed hash => exact .inl rfl
  | locked unopened loaded => exact .inl rfl
  | assigned assigns pinned => exact .inl pinned.hire
  | swept finished same claims closes jobSpec => exact .inr ⟨closes, _, _, _, _, _, rfl⟩

/-- Every step, seen from the hire record of one task. -/
theorem Step.hireSeen {w w' : World} {i : Instruction} {ts : List Transfer}
    (h : Step w (i, ts) w') (key : Pubkey) :
    hireOf w' key = hireOf w key ∨
      (∃ creator useQuota pre op listing taskJobSpecHash,
        i = .create key creator useQuota pre op ∧ op.hires = some (listing, taskJobSpecHash) ∧
          hireOf w key = none ∧
          hireOf w' key = some listing.key) ∨
      (∃ signer withJobSpec withEscrow workerBond children,
        i = .closeTask key signer withJobSpec withEscrow workerBond children) ∧
        hireOf w' key = none := by
  cases h.task key with
  | apart same unpaid =>
    left
    unfold hireOf
    rw [same]
  | created new stored fresh unpaid ran =>
    obtain ⟨creator, useQuota, pre, op, rfl, hrun⟩ := ran
    obtain ⟨acc, hacc, hpins⟩ := CreateOp.pins hrun
    have hnone : hireOf w key = none := by
      unfold hireOf
      rw [new]
      rfl
    rw [hireOf_eq hacc, hnone]
    cases hhires : op.hires with
    | none =>
      left
      unfold hiredFrom
      rw [hpins.direct hhires]
      rfl
    | some hired =>
      obtain ⟨listing, taskJobSpecHash⟩ := hired
      obtain ⟨⟨hire, hhire, hlisting⟩, -⟩ := hpins.hired listing taskJobSpecHash hhires
      refine .inr (.inl ⟨creator, useQuota, pre, op, listing, taskJobSpecHash, rfl, hhires, rfl, ?_⟩)
      unfold hiredFrom
      rw [hhire, ← hlisting]
      rfl
  | moved loaded stored move =>
    rw [hireOf_eq loaded, hireOf_eq stored]
    unfold hiredFrom
    rcases move.hire with hsame | ⟨hnone, hcloses⟩
    · rw [hsame]
      exact .inl rfl
    · rw [hnone]
      exact .inr (.inr ⟨hcloses, rfl⟩)

/-! ## What a hire checks -/

/-- The price and the version a hire expects. -/
def CreateOp.expects : CreateOp → Option (ℕ × ℕ)
  | .hireFromListing _ _ _ _ price version _ _ => some (price, version)
  | .hireFromListingHumanless _ _ _ price version _ _ _ => some (price, version)
  | _ => none

/-- The task and the record of a hire on the terms of a listing, made at `now`. -/
structure HiredOn (listing : ServiceListing) (maxClaimDuration now : ℤ) (task : Task)
    (hire : HireRecord) : Prop where
  price : task.rewardAmount = listing.price
  mint : task.rewardMint = none
  spec : task.description.1 = listing.specHash
  capabilities : task.requiredCapabilities = listing.requiredCapabilities
  deadline : task.deadline =
    satAddI64 now (hireDeadlineOffset listing.defaultDeadlineSecs maxClaimDuration)
  operator : task.operator = listing.operator
  operatorFee : listing.operator ≠ 0 → task.operatorFeeBps = listing.operatorFeeBps
  listed : hire.listing = listing.key
  provider : hire.designatedProvider = listing.providerAgent

/-- What a hire checked of the listing. -/
structure ChecksListing (listing : ServiceListing) (buyer : Pubkey) (price version : ℕ) : Prop where
  active : listing.active = true
  price : listing.price = price
  version : listing.version = version
  stranger : buyer ≠ listing.authority
  capacity : listing.maxOpenJobs = 0 ∨ listing.openJobs < listing.maxOpenJobs

theorem hireFromListingCore_terms {w : World} {key creator : Pubkey} {listing : ServiceListing}
    {taskId taskJobSpecHash : Hash} {price version : ℕ} {referrer : Option Pubkey}
    {referrerFeeBps : ℕ} {useQuota : Bool} {throttle : CreationThrottle} {task : Task}
    {hire : HireRecord}
    (h : hireFromListingCore w key creator listing taskId taskJobSpecHash price version referrer
      referrerFeeBps useQuota = .ok (throttle, task, hire)) :
    ChecksListing listing creator price version ∧
      HiredOn listing w.config.maxClaimDuration w.sys.now task hire := by
  simp only [hireFromListingCore, validateHireTerms, validateListingCapacity, initTaskFields,
    bind_eq_ok, require_eq_ok, Prod.exists, Except.ok.injEq, Prod.mk.injEq] at h
  obtain ⟨_, -, _, -, _, ⟨_, hactive, _, hprice, _, hversion, _, hstranger, -⟩, h⟩ := h
  obtain ⟨_, hcapacity, _, -, _, -, _, -, h⟩ := h
  obtain ⟨_, -, _, ⟨_, -, _, -, _, -, rfl⟩, _, -, _, _, -, _, -, -, rfl, rfl⟩ := h
  refine ⟨⟨hactive, hprice, hversion, hstranger, hcapacity⟩, ?_⟩
  exact ⟨rfl, rfl, rfl, rfl, rfl, rfl, fun hoperator => if_pos hoperator, rfl, rfl⟩

theorem CreateOp.hire_terms {w w' : World} {key creator : Pubkey} {useQuota : Bool}
    {pre : Prefunding} {op : CreateOp} {listing : ServiceListing} {taskJobSpecHash : Hash}
    (h : op.run w key creator useQuota pre = .ok w')
    (hhires : op.hires = some (listing, taskJobSpecHash)) :
    ∃ price version, op.expects = some (price, version) ∧
      ChecksListing listing creator price version ∧
      ∃ acc hire, w'.tasks.lookup key = some acc ∧ acc.hire = some hire ∧
        HiredOn listing w.config.maxClaimDuration w.sys.now acc.task hire := by
  cases op with
  | hireFromListing creatorAgent hired taskId hash price version referrer bps =>
    obtain rfl : hired = listing := congrArg Prod.fst (Option.some.inj hhires)
    simp only [CreateOp.run, AgencCoordination.hireFromListing, bind_eq_ok, Prod.exists] at h
    obtain ⟨_, -, _, -, _, -, _, -, _, -, _, -, throttle, task, hire, hcore, h⟩ := h
    obtain ⟨hchecks, hterms⟩ := hireFromListingCore_terms hcore
    exact ⟨price, version, rfl, hchecks, _, hire, storeNewTask_stores h, rfl, hterms⟩
  | hireFromListingHumanless hired taskId hash price version window referrer bps =>
    obtain rfl : hired = listing := congrArg Prod.fst (Option.some.inj hhires)
    simp only [CreateOp.run, AgencCoordination.hireFromListingHumanless, bind_eq_ok,
      Prod.exists] at h
    obtain ⟨_, -, _, -, _, -, _, -, throttle, task, hire, hcore, h⟩ := h
    obtain ⟨hchecks, hterms⟩ := hireFromListingCore_terms hcore
    refine ⟨price, version, rfl, hchecks, _, hire, storeNewTask_stores h, rfl, ?_⟩
    exact ⟨hterms.price, hterms.mint, hterms.spec, hterms.capabilities, hterms.deadline,
      hterms.operator, hterms.operatorFee, hterms.listed, hterms.provider⟩
  | _ => cases hhires

/-! ## Writing listings -/

/-- What a core instruction writes to the listings: a hire takes an open job, the clean-up of a hired
task gives it back, and nothing else touches them. -/
inductive EntersListings (m : Market) (i : Instruction) (m' : Market) : Prop
  | kept (same : m'.listings = m.listings)
      (unhired : ∀ key creator useQuota pre op, i = .create key creator useQuota pre op →
        op.hires = none)
      (unswept : ∀ key signer withJobSpec withEscrow workerBond children,
        i = .closeTask key signer withJobSpec withEscrow workerBond children →
          hireOf m.world key = none)
  | taken {key creator : Pubkey} {useQuota : Bool} {pre : Prefunding} {op : CreateOp}
      {listing : ServiceListing} {taskJobSpecHash : Hash} {stored taken : ServiceListingAccount}
      (creates : i = .create key creator useQuota pre op)
      (hires : op.hires = some (listing, taskJobSpecHash))
      (loaded : m.listings.lookup listing.key = some stored)
      (takes : takeListingSlot stored m.world.sys.now = .ok taken)
      (written : m'.listings = m.listings.insert listing.key taken)
  | freed {key signer place : Pubkey} {withJobSpec withEscrow : Bool} {workerBond : Option Pubkey}
      {children : List TaskChild} {stored freed : ServiceListingAccount}
      (closes : i = .closeTask key signer withJobSpec withEscrow workerBond children)
      (hired : hireOf m.world key = some place) (loaded : m.listings.lookup place = some stored)
      (frees : releaseListingSlot stored m.world.sys.now = .ok freed)
      (written : m'.listings = m.listings.insert place freed)

theorem enterHire_listings {m m' : Market} {key creator : Pubkey} {useQuota : Bool}
    {pre : Prefunding} {op : CreateOp} {listing : ServiceListing} {taskJobSpecHash : Hash}
    (hhires : op.hires = some (listing, taskJobSpecHash)) (h : enterHire m listing = .ok m') :
    EntersListings m (.create key creator useQuota pre op) m' := by
  simp only [enterHire, bind_eq_ok, demand_eq_ok, Except.ok.injEq] at h
  obtain ⟨stored, hstored, taken, htakes, rfl⟩ := h
  exact .taken rfl hhires hstored htakes rfl

theorem enterClose_listings {m m' : Market} {presented : Presented} {key signer : Pubkey}
    {withJobSpec withEscrow : Bool} {workerBond : Option Pubkey} {children : List TaskChild}
    (h : enterClose m presented key withJobSpec = .ok m') :
    EntersListings m (.closeTask key signer withJobSpec withEscrow workerBond children) m' := by
  simp only [enterClose, bind_eq_ok, demand_eq_ok] at h
  obtain ⟨accounts, haccounts, h⟩ := h
  cases hhire : accounts.hire with
  | none =>
    rw [hhire] at h
    obtain rfl := Except.ok.inj h
    refine .kept rfl (by simp) ?_
    intro key' _ _ _ _ _ hi
    obtain rfl := (Instruction.closeTask.inj hi).1
    rw [hireOf_eq haccounts]
    unfold hiredFrom
    rw [hhire]
    rfl
  | some hire =>
    simp only [hhire, bind_eq_ok, demand_eq_ok, Except.ok.injEq] at h
    obtain ⟨_, -, stored, hstored, freed, hfrees, rfl⟩ := h
    refine .freed rfl ?_ hstored hfrees rfl
    rw [hireOf_eq haccounts]
    unfold hiredFrom
    rw [hhire]
    rfl

theorem enterMarket_listings {m m' : Market} {presented : Presented} {i : Instruction}
    (h : enterMarket m presented i = .ok m') : EntersListings m i m' := by
  have hdefault : enterMarket m presented i = .ok m →
      (∀ key creator useQuota pre op, i = .create key creator useQuota pre op →
        op.hires = none) →
      (∀ key signer withJobSpec withEscrow workerBond children,
        i ≠ .closeTask key signer withJobSpec withEscrow workerBond children) →
      EntersListings m i m' := by
    intro hsame hunhired hopen
    rw [hsame] at h
    obtain rfl := Except.ok.inj h
    exact .kept rfl hunhired fun _ _ _ _ _ _ hi => absurd hi (hopen _ _ _ _ _ _)
  cases i with
  | create key creator useQuota pre op =>
    have hdirect : enterMarket m presented (.create key creator useQuota pre op) = .ok m →
        op.hires = none → EntersListings m (.create key creator useQuota pre op) m' := by
      intro hsame hnone
      refine hdefault hsame ?_ (by simp)
      intro _ _ _ _ op' hi
      rw [← (Instruction.create.inj hi).2.2.2.2]
      exact hnone
    cases op with
    | hireFromListing creatorAgent listing taskId hash price version referrer bps =>
      exact enterHire_listings rfl h
    | hireFromListingHumanless listing taskId hash price version window referrer bps =>
      exact enterHire_listings rfl h
    | createTask => exact hdirect rfl rfl
    | createDependentTask => exact hdirect rfl rfl
    | createTaskHumanless => exact hdirect rfl rfl
  | closeTask key signer withJobSpec withEscrow workerBond children =>
    exact enterClose_listings h
  | task key op =>
    cases op with
    | setTaskJobSpec signer jobSpecHash =>
      obtain rfl := Except.ok.inj h
      exact .kept rfl (by simp) (by simp)
    | _ => exact hdefault rfl (by simp) (by simp)
  | _ => exact hdefault rfl (by simp) (by simp)

/-! ## Single instructions on listings -/

theorem createServiceListing_spec {w : World} {provider signer : Pubkey} {p : ListingParams}
    {stored : ServiceListingAccount} (h : createServiceListing w provider signer p = .ok stored) :
    stored.openJobs = 0 ∧ stored.version = 1 := by
  simp only [createServiceListing, bind_eq_ok, Except.ok.injEq] at h
  obtain ⟨_, -, _, -, _, -, _, -, _, -, _, -, _, -, _, -, _, -, _, -, _, -, _, -, rfl⟩ := h
  exact ⟨rfl, rfl⟩

theorem updateListingSpec_spec {listing listing' : ServiceListingAccount} {specHash : Option Hash}
    {specUri : Option String} (h : updateListingSpec listing specHash specUri = .ok listing') :
    ∃ hash uri, listing' = { listing with specHash := hash, specUri := uri } := by
  unfold updateListingSpec at h
  split at h
  · simp only [bind_eq_ok, Except.ok.injEq] at h
    obtain ⟨_, -, rfl⟩ := h
    exact ⟨_, _, rfl⟩
  · obtain rfl := Except.ok.inj h
    exact ⟨_, _, rfl⟩
  · cases h

/-- A change by the seller takes the next version, leaves the open jobs, and keeps the bound at or
above them. -/
structure Revises (listing listing' : ServiceListingAccount) : Prop where
  version : listing'.version = listing.version + 1
  openJobs : listing'.openJobs = listing.openJobs
  bound : listing'.maxOpenJobs = listing.maxOpenJobs ∨ listing'.maxOpenJobs = 0 ∨
    listing'.openJobs ≤ listing'.maxOpenJobs

theorem updateServiceListing_spec {w : World} {signer : Pubkey}
    {listing listing' : ServiceListingAccount} {u : ListingUpdate}
    (h : updateServiceListing w signer listing u = .ok listing') : Revises listing listing' := by
  simp only [updateServiceListing, bind_eq_ok, require_eq_ok, addU64_eq_ok,
    Except.ok.injEq] at h
  obtain ⟨_, -, _, -, _, -, _, -, _, -, _, -, _, -, revised, hspec, h⟩ := h
  obtain ⟨_, -, _, -, _, hbound, _, -, _, ⟨-, rfl⟩, rfl⟩ := h
  obtain ⟨hash, uri, rfl⟩ := updateListingSpec_spec hspec
  refine ⟨rfl, rfl, ?_⟩
  cases hmax : u.maxOpenJobs with
  | none => exact .inl rfl
  | some bound =>
    right
    rw [hmax] at hbound
    simpa using hbound

theorem setServiceListingState_spec {w : World} {signer : Pubkey}
    {listing listing' : ServiceListingAccount} {target : ListingState}
    (h : setServiceListingState w signer listing target = .ok listing') :
    Revises listing listing' := by
  simp only [setServiceListingState, bind_eq_ok, addU64_eq_ok, Except.ok.injEq] at h
  obtain ⟨_, -, _, -, _, -, _, -, _, -, _, ⟨-, rfl⟩, rfl⟩ := h
  exact ⟨rfl, rfl, .inl rfl⟩

/-- An instruction on a listing opens a new one or revises it. -/
theorem ListingOp.spec {m : Market} {key : Pubkey} {op : ListingOp}
    {stored : ServiceListingAccount} (h : op.run m key = .ok stored) :
    m.listings.lookup key = none ∧ stored.openJobs = 0 ∨
      ∃ listing, m.listings.lookup key = some listing ∧ Revises listing stored := by
  cases op with
  | create provider signer params =>
    simp only [ListingOp.run, bind_eq_ok, require_eq_ok] at h
    obtain ⟨_, hfresh, hrun⟩ := h
    exact .inl ⟨hfresh, (createServiceListing_spec hrun).1⟩
  | update signer changes =>
    simp only [ListingOp.run, bind_eq_ok, demand_eq_ok] at h
    obtain ⟨listing, hlisting, hrun⟩ := h
    exact .inr ⟨listing, hlisting, updateServiceListing_spec hrun⟩
  | setState signer target =>
    simp only [ListingOp.run, bind_eq_ok, demand_eq_ok] at h
    obtain ⟨listing, hlisting, hrun⟩ := h
    exact .inr ⟨listing, hlisting, setServiceListingState_spec hrun⟩

theorem takeListingSlot_spec {stored taken : ServiceListingAccount} {now : ℤ}
    (h : takeListingSlot stored now = .ok taken) :
    taken = { stored with
      totalHires := stored.totalHires + 1
      openJobs := stored.openJobs + 1
      updatedAt := now } := by
  simp only [takeListingSlot, bind_eq_ok, addU64_eq_ok, addU16_eq_ok, Except.ok.injEq] at h
  obtain ⟨_, ⟨-, rfl⟩, _, ⟨-, rfl⟩, rfl⟩ := h
  rfl

theorem releaseListingSlot_spec {stored freed : ServiceListingAccount} {now : ℤ}
    (h : releaseListingSlot stored now = .ok freed) :
    0 < stored.openJobs ∧
      freed = { stored with openJobs := stored.openJobs - 1, updatedAt := now } := by
  simp only [releaseListingSlot, bind_eq_ok, subU_eq_ok, Except.ok.injEq] at h
  obtain ⟨_, ⟨hpositive, rfl⟩, rfl⟩ := h
  exact ⟨hpositive, rfl⟩

/-! ## Capacity -/

/-- The open jobs of every listing are its live hires, within the seller's bound. -/
structure CapacityKept (m : Market) : Prop where
  counted : ∀ place stored, m.listings.lookup place = some stored →
    stored.openJobs = (openHires m.world place).card
  bounded : ∀ place stored, m.listings.lookup place = some stored →
    stored.maxOpenJobs = 0 ∨ stored.openJobs ≤ stored.maxOpenJobs
  listed : ∀ key place, hireOf m.world key = some place → (m.listings.lookup place).isSome = true

theorem Market.Genesis.capacityKept {m : Market} (h : m.Genesis) : CapacityKept m := by
  have habsent : ∀ place stored, m.listings.lookup place ≠ some stored := by
    intro place stored hstored
    rw [h.listings] at hstored
    simp at hstored
  refine ⟨fun place stored hstored => absurd hstored (habsent place stored),
    fun place stored hstored => absurd hstored (habsent place stored), ?_⟩
  intro key place hhire
  unfold hireOf at hhire
  rw [h.world.tasks] at hhire
  simp at hhire

/-- The hires of a listing are those of the tasks. -/
theorem openHires_congr {w w' : World} (h : ∀ key, hireOf w' key = hireOf w key) (place : Pubkey) :
    openHires w' place = openHires w place := by
  ext key
  rw [mem_openHires, mem_openHires, h]

/-- The hires of a listing after one task alone is written. -/
theorem openHires_card {w w' : World} {key : Pubkey}
    (hothers : ∀ key' ≠ key, hireOf w' key' = hireOf w key') (place : Pubkey) :
    (openHires w' place).card + (if hireOf w key = some place then 1 else 0) =
      (openHires w place).card + if hireOf w' key = some place then 1 else 0 := by
  have hoff : (openHires w' place).card + (if key ∈ openHires w place then 1 else 0) =
      (openHires w place).card + if key ∈ openHires w' place then 1 else 0 := by
    refine card_off fun key' hne => ?_
    rw [mem_openHires, mem_openHires, hothers key' hne]
  simpa only [mem_openHires] using hoff

/-- A hire enters the record of its own task, which is new. -/
theorem Step.hired {w w' : World} {key creator : Pubkey} {useQuota : Bool} {pre : Prefunding}
    {op : CreateOp} {ts : List Transfer} {listing : ServiceListing} {taskJobSpecHash : Hash}
    (h : Step w (.create key creator useQuota pre op, ts) w')
    (hhires : op.hires = some (listing, taskJobSpecHash)) :
    hireOf w key = none ∧ hireOf w' key = some listing.key ∧
      (∀ key' ≠ key, hireOf w' key' = hireOf w key') ∧
      ∃ price version, op.expects = some (price, version) ∧
        ChecksListing listing creator price version ∧
        ∃ acc hire, w'.tasks.lookup key = some acc ∧ acc.hire = some hire ∧
          HiredOn listing w.config.maxClaimDuration w.sys.now acc.task hire := by
  cases h.does with
  | created ran =>
    obtain ⟨hnew, _, _, _, _, -, hw'⟩ := CreateOp.run_spec ran
    have hterms := CreateOp.hire_terms ran hhires
    refine ⟨?_, ?_, ?_, hterms⟩
    · unfold hireOf
      rw [hnew]
      rfl
    · obtain ⟨_, _, -, -, acc, hire, hacc, hhire, hon⟩ := hterms
      rw [hireOf_eq hacc]
      unfold hiredFrom
      rw [hhire, ← hon.listed]
      rfl
    · intro key' hne
      unfold hireOf
      rw [hw', AList.lookup_insert_ne hne]

/-- A clean-up closes the hire record of its task. -/
theorem Step.unhired {w w' : World} {key signer : Pubkey} {withJobSpec withEscrow : Bool}
    {workerBond : Option Pubkey} {children : List TaskChild} {ts : List Transfer}
    (h : Step w (.closeTask key signer withJobSpec withEscrow workerBond children, ts) w') :
    hireOf w' key = none ∧ ∀ key' ≠ key, hireOf w' key' = hireOf w key' := by
  cases h.does with
  | closed loaded ran =>
    obtain ⟨_, _, _, _, _, _, _, -, -, -, -, -, -, -, -, rfl⟩ := closeTask_spec ran
    constructor
    · unfold hireOf
      rw [World.storeTask_tasks]
      show (AList.lookup key (w.tasks.insert key _)).bind _ = none
      rw [AList.lookup_insert]
      rfl
    · intro key' hne
      unfold hireOf
      rw [World.storeTask_tasks, AList.lookup_insert_ne]
      exact hne

/-- Writing one listing keeps the capacities when the written one has its own, and those of the others
are as they were. -/
theorem CapacityKept.write {m m' : Market} (hm : CapacityKept m) {place : Pubkey}
    {stored : ServiceListingAccount} (hlistings : m'.listings = m.listings.insert place stored)
    (hcounted : stored.openJobs = (openHires m'.world place).card)
    (hbounded : stored.maxOpenJobs = 0 ∨ stored.openJobs ≤ stored.maxOpenJobs)
    (hothers : ∀ place' ≠ place, (openHires m'.world place').card = (openHires m.world place').card)
    (hlisted : ∀ key place', hireOf m'.world key = some place' →
      place' = place ∨ (m.listings.lookup place').isSome = true) : CapacityKept m' := by
  have hlookup : ∀ place' stored', m'.listings.lookup place' = some stored' →
      place' = place ∧ stored' = stored ∨
        place' ≠ place ∧ m.listings.lookup place' = some stored' := by
    intro place' stored' hstored'
    rw [hlistings, Ledger.lookup_insert_eq_ite] at hstored'
    split_ifs at hstored' with hplace
    · exact .inl ⟨hplace, (Option.some.inj hstored').symm⟩
    · exact .inr ⟨hplace, hstored'⟩
  refine ⟨?_, ?_, ?_⟩
  · intro place' stored' hstored'
    rcases hlookup place' stored' hstored' with ⟨rfl, rfl⟩ | ⟨hne, hold⟩
    · exact hcounted
    · rw [hothers place' hne]
      exact hm.counted place' stored' hold
  · intro place' stored' hstored'
    rcases hlookup place' stored' hstored' with ⟨rfl, rfl⟩ | ⟨hne, hold⟩
    · exact hbounded
    · exact hm.bounded place' stored' hold
  · intro key place' hhire
    rw [hlistings, Ledger.lookup_insert_eq_ite]
    split_ifs with hplace
    · rfl
    · exact (hlisted key place' hhire).resolve_left hplace

/-- What changes no listing and no hire keeps the capacities. -/
theorem CapacityKept.frame {m m' : Market} (hm : CapacityKept m)
    (hlistings : m'.listings = m.listings)
    (hhires : ∀ key, hireOf m'.world key = hireOf m.world key) : CapacityKept m' := by
  refine ⟨?_, ?_, ?_⟩
  · rw [hlistings]
    intro place stored hstored
    rw [openHires_congr hhires]
    exact hm.counted place stored hstored
  · rw [hlistings]
    exact hm.bounded
  · rw [hlistings]
    intro key place hhire
    rw [hhires] at hhire
    exact hm.listed key place hhire

/-- A hire takes one open job of a listing that has one left. -/
theorem CapacityKept.hire {m m' : Market} (hm : CapacityKept m) {key creator : Pubkey}
    {useQuota : Bool} {pre : Prefunding} {op : CreateOp} {ts : List Transfer}
    {listing : ServiceListing} {taskJobSpecHash : Hash} {presented : Presented}
    {stored taken : ServiceListingAccount}
    (hgated : contentGate m presented (.create key creator useQuota pre op) = .ok ())
    (hstep : Step m.world (.create key creator useQuota pre op, ts) m'.world)
    (hhires : op.hires = some (listing, taskJobSpecHash))
    (hstored : m.listings.lookup listing.key = some stored)
    (htakes : takeListingSlot stored m.world.sys.now = .ok taken)
    (hwritten : m'.listings = m.listings.insert listing.key taken) : CapacityKept m' := by
  obtain ⟨hfresh, hentered, hothers, _, _, -, hchecks, -⟩ := hstep.hired hhires
  obtain ⟨⟨stored', hstored', hterms⟩, -⟩ := gateHire_spec (contentGate_hire hhires hgated)
  obtain rfl := Option.some.inj (hstored.symm.trans hstored')
  have htaken := takeListingSlot_spec htakes
  have hcard := openHires_card hothers
  refine hm.write hwritten ?_ ?_ ?_ ?_
  · have hcount := hcard listing.key
    have hbefore := hm.counted _ _ hstored
    rw [hfresh, hentered, if_neg (by simp), if_pos rfl] at hcount
    rw [htaken]
    show stored.openJobs + 1 = _
    omega
  · have hcapacity := hchecks.capacity
    rw [← hterms] at hcapacity
    rw [htaken]
    exact hcapacity
  · intro place hne
    have hcount := hcard place
    rw [hfresh, hentered, if_neg (by simp), if_neg (by simpa using Ne.symm hne)] at hcount
    exact hcount
  · intro key' place hhire
    by_cases hkey : key' = key
    · subst hkey
      rw [hentered] at hhire
      exact .inl (Option.some.inj hhire).symm
    · rw [hothers key' hkey] at hhire
      exact .inr (hm.listed key' place hhire)

/-- A clean-up of a hired task gives its open job back. -/
theorem CapacityKept.sweep {m m' : Market} (hm : CapacityKept m) {key signer place : Pubkey}
    {withJobSpec withEscrow : Bool} {workerBond : Option Pubkey} {children : List TaskChild}
    {ts : List Transfer} {stored freed : ServiceListingAccount}
    (hstep : Step m.world
      (.closeTask key signer withJobSpec withEscrow workerBond children, ts) m'.world)
    (hhired : hireOf m.world key = some place) (hstored : m.listings.lookup place = some stored)
    (hfrees : releaseListingSlot stored m.world.sys.now = .ok freed)
    (hwritten : m'.listings = m.listings.insert place freed) : CapacityKept m' := by
  obtain ⟨hgone, hothers⟩ := hstep.unhired
  obtain ⟨hpositive, hfreed⟩ := releaseListingSlot_spec hfrees
  have hcard := openHires_card hothers
  refine hm.write hwritten ?_ ?_ ?_ ?_
  · have hcount := hcard place
    have hbefore := hm.counted _ _ hstored
    rw [hhired, hgone, if_pos rfl, if_neg (by simp)] at hcount
    rw [hfreed]
    show stored.openJobs - 1 = _
    omega
  · rw [hfreed]
    rcases hm.bounded _ _ hstored with hunbounded | hbound
    · exact .inl hunbounded
    · exact .inr ((Nat.sub_le _ _).trans hbound)
  · intro place' hne
    have hcount := hcard place'
    rw [hhired, hgone, if_neg (by simpa using Ne.symm hne), if_neg (by simp)] at hcount
    exact hcount
  · intro key' place' hhire
    by_cases hkey : key' = key
    · subst hkey
      rw [hgone] at hhire
      cases hhire
    · rw [hothers key' hkey] at hhire
      exact .inr (hm.listed key' place' hhire)

/-- An instruction that is neither a hire nor the clean-up of a hired task keeps the hires. -/
theorem Step.hires_kept {w w' : World} {i : Instruction} {ts : List Transfer}
    (h : Step w (i, ts) w')
    (hunhired : ∀ key creator useQuota pre op, i = .create key creator useQuota pre op →
      op.hires = none)
    (hunswept : ∀ key signer withJobSpec withEscrow workerBond children,
      i = .closeTask key signer withJobSpec withEscrow workerBond children → hireOf w key = none)
    (key : Pubkey) : hireOf w' key = hireOf w key := by
  rcases h.hireSeen key with
    hsame | ⟨_, _, _, op, _, _, hi, hhires, -⟩ | ⟨⟨_, _, _, _, _, hi⟩, hgone⟩
  · exact hsame
  · rw [hunhired _ _ _ _ op hi] at hhires
    cases hhires
  · rw [hgone, hunswept _ _ _ _ _ _ hi]

/-- One step keeps the capacities. -/
theorem MarketStep.capacityKept {m m' : Market} {label : MarketInstruction × Payments}
    (h : MarketStep m label m') (hm : CapacityKept m) : CapacityKept m' := by
  obtain ⟨i, p⟩ := label
  cases MarketStep.move h with
  | @core presented _ world paid entered gated step enters =>
    cases enterMarket_listings enters with
    | kept same unhired unswept => exact hm.frame same (step.hires_kept unhired unswept)
    | taken creates hires loaded takes written =>
      subst creates
      show CapacityKept { entered with world := world }
      exact hm.hire gated step hires loaded takes written
    | freed closes hired loaded frees written =>
      subst closes
      show CapacityKept { entered with world := world }
      exact hm.sweep step hired loaded frees written
  | moderation ran => exact hm.frame rfl fun _ => rfl
  | @listing place op stored ran =>
    have hothers : ∀ place' ≠ place, (openHires m.world place').card =
        (openHires m.world place').card := fun _ _ => rfl
    have hlisted : ∀ key place', hireOf m.world key = some place' →
        place' = place ∨ (m.listings.lookup place').isSome = true := by
      intro key place' hhire
      exact .inr (hm.listed key place' hhire)
    rcases ListingOp.spec ran with ⟨hfresh, hzero⟩ | ⟨old, hold, hrevises⟩
    · refine hm.write rfl ?_ (.inr (by omega)) hothers hlisted
      rw [hzero]
      symm
      rw [Finset.card_eq_zero, Finset.eq_empty_iff_forall_notMem]
      intro key hkey
      have hsome := hm.listed key place (mem_openHires.mp hkey)
      rw [hfresh] at hsome
      cases hsome
    · refine hm.write rfl ?_ ?_ hothers hlisted
      · rw [hrevises.openJobs]
        exact hm.counted place old hold
      · rcases hrevises.bound with hsame | hbound
        · rw [hsame, hrevises.openJobs]
          exact hm.bounded place old hold
        · exact hbound
  | goods ran =>
    have hmoved := GoodsOp.move ran
    cases hmoved <;> exact hm.frame rfl fun _ => rfl

/-- The capacity of service listings, in every reachable marketplace. The open jobs of a listing are
the tasks whose hire record of it still exists, never more than the seller's bound; and for every
such hire the listing is there and has an open job to give back. -/
theorem listing_capacity {m : Market} (h : m.Reachable) :
    (∀ place stored, m.listings.lookup place = some stored →
      stored.openJobs = (openHires m.world place).card ∧
        (stored.maxOpenJobs = 0 ∨ stored.openJobs ≤ stored.maxOpenJobs)) ∧
    (∀ key place, hireOf m.world key = some place → ∃ stored freed,
      m.listings.lookup place = some stored ∧
        releaseListingSlot stored m.world.sys.now = .ok freed) := by
  have hkept : CapacityKept m :=
    h.induct (fun m hgenesis => hgenesis.capacityKept) fun _ _ _ _ hs hm => hs.capacityKept hm
  refine ⟨?_, ?_⟩
  · intro place stored hstored
    exact ⟨hkept.counted place stored hstored, hkept.bounded place stored hstored⟩
  · intro key place hhire
    obtain ⟨stored, hstored⟩ := Option.isSome_iff_exists.mp (hkept.listed key place hhire)
    have hpositive : 0 < stored.openJobs := by
      rw [hkept.counted place stored hstored]
      exact Finset.card_pos.mpr ⟨key, mem_openHires.mpr hhire⟩
    refine ⟨stored, { stored with
      openJobs := stored.openJobs - 1, updatedAt := m.world.sys.now }, hstored, ?_⟩
    simp only [releaseListingSlot, bind_eq_ok, subU_eq_ok, Except.ok.injEq]
    exact ⟨_, ⟨hpositive, rfl⟩, rfl⟩

/-- A provider with a moderated listing of two open jobs. -/
def openListing : List MarketInstruction :=
  [.core {} (.agent 10 (.registerAgent 100 1 1000000 0)),
    .core {} (.agent 11 (.registerAgent 101 1 1000000 0)),
    .moderation (.configure 1 9 true),
    .listing 70 (.create 11 101 ⟨5, 6, 7, 0, 8, "agenc://listing/8", 50000, none, 1, 3600, 2,
      none, 0⟩),
    .moderation (.recordListing 9 false 70 8 { status := .Clean, riskScore := 0 })]

/-- A hire from it. -/
def openHire : MarketInstruction :=
  .core { moderator := 9 } (.create 50 100 false {} (.hireFromListing 10
    { key := 70
      authority := 101
      providerAgent := 11
      specHash := 8
      price := 50000
      requiredCapabilities := 1
      defaultDeadlineSecs := 3600
      operator := 0
      operatorFeeBps := 0
      active := true
      maxOpenJobs := 2
      version := 1 } 21 22 50000 1 none 0))

/-- The hire is the one open job of the listing. -/
theorem listing_capacity_hired :
    ∃ stored, (deployedMarket.after (openListing ++ [openHire])).listings.lookup 70 = some stored ∧
      stored.openJobs = 1 ∧
      (openHires (deployedMarket.after (openListing ++ [openHire])).world 70).card = 1 := by
  obtain ⟨log, hrun⟩ := deployedMarket.run_after (openListing ++ [openHire])
  obtain ⟨hcounted, -⟩ := listing_capacity ⟨deployedMarket, log, deployedMarket_genesis, hrun⟩
  have hopen : ((deployedMarket.after (openListing ++ [openHire])).listings.lookup 70).map
      ServiceListingAccount.openJobs = some 1 := by
    decide +kernel
  obtain ⟨stored, hstored, hjobs⟩ := Option.map_eq_some_iff.mp hopen
  refine ⟨stored, hstored, hjobs, ?_⟩
  rw [← (hcounted 70 stored hstored).1]
  exact hjobs

/-! ## Terms -/

/-- What a listing offers: all of it but the counters of its hires. -/
def ServiceListingAccount.offer (stored : ServiceListingAccount) : ServiceListingAccount :=
  { stored with openJobs := 0, totalHires := 0, updatedAt := 0 }

/-- A listing that may come after another. -/
abbrev NewerListing : ServiceListingAccount → ServiceListingAccount → Prop :=
  Newer ServiceListingAccount.version ServiceListingAccount.offer

/-- A listing stays, and moves to later versions only; under one version stands one offer. -/
theorem MarketStep.newer {m m' : Market} {label : MarketInstruction × Payments}
    (h : MarketStep m label m') {place : Pubkey} {stored : ServiceListingAccount}
    (hstored : m.listings.lookup place = some stored) :
    ∃ stored', m'.listings.lookup place = some stored' ∧ NewerListing stored stored' := by
  obtain ⟨i, p⟩ := label
  have hwrite : ∀ {place' : Pubkey} {old new : ServiceListingAccount},
      m.listings.lookup place' = some old → NewerListing old new →
      ∃ stored', (m.listings.insert place' new).lookup place = some stored' ∧
        NewerListing stored stored' := by
    intro place' old new hold hnewer
    rw [Ledger.lookup_insert_eq_ite]
    split_ifs with hplace
    · subst hplace
      obtain rfl := Option.some.inj (hold.symm.trans hstored)
      exact ⟨new, rfl, hnewer⟩
    · exact ⟨stored, hstored, .refl _⟩
  cases MarketStep.move h with
  | core gated step enters =>
    cases enterMarket_listings enters with
    | kept same unhired unswept =>
      rw [same]
      exact ⟨stored, hstored, .refl _⟩
    | taken creates hires loaded takes written =>
      rw [written]
      refine hwrite loaded (.inr ?_)
      rw [takeListingSlot_spec takes]
      exact ⟨rfl, rfl⟩
    | freed closes hired loaded frees written =>
      rw [written]
      refine hwrite loaded (.inr ?_)
      rw [(releaseListingSlot_spec frees).2]
      exact ⟨rfl, rfl⟩
  | moderation ran => exact ⟨stored, hstored, .refl _⟩
  | @listing place' op revised ran =>
    rcases ListingOp.spec ran with ⟨hfresh, -⟩ | ⟨old, hold, hrevises⟩
    · show ∃ stored', (m.listings.insert place' revised).lookup place = some stored' ∧ _
      rw [Ledger.lookup_insert_eq_ite, if_neg]
      · exact ⟨stored, hstored, .refl _⟩
      · rintro rfl
        rw [hfresh] at hstored
        cases hstored
    · refine hwrite hold (.inl ?_)
      rw [hrevises.version]
      exact Nat.lt_succ_self _
  | goods ran =>
    have hmoved := GoodsOp.move ran
    cases hmoved <;> exact ⟨stored, hstored, .refl _⟩

end AgencCoordination
