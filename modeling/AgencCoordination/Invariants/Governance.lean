import AgencCoordination.Program.Governance

/-!
# Governance elections are sound

* **`calculateNewProposalRequirements_spec`** — what the rules and the quorum of a new proposal
  are, and that three voters of maximal weight reach the quorum.
* **`setGovernanceRules_governanceRules`**, **`governanceRules_setGovernanceRules`** — the packed
  rules are read back, and only what was packed is read.
* **`governanceVoteWeight_pos`**, **`governanceVoteWeight_le`**, **`governanceVoteWeight_mono`** —
  the weight of a vote.
* **`castAll_proposal`** — the tallies after votes that fit, whatever their order.
* **`governance_sound`** — all of it together.
-/

namespace AgencCoordination

open Foundations Foundations.Bytes

/-! ## New proposals -/

/-- The quorum and the rules of a new proposal, as numbers without a limit. -/
structure SoundRequirements (minProposalStake minArbiterStake quorumBps approvalThresholdBps
    quorum : ℕ) (rules : ProposalGovernanceRules) : Prop where
  validates : rules.validate = .ok ()
  fits : rules.Fits
  minVoterStake : rules.minVoterStake = max minProposalStake minGovernanceVoterStakeLamports
  minVoterReputation : rules.minVoterReputation = minGovernanceVoterReputation
  maxVoteWeight : rules.maxVoteWeight = minArbiterStake * governanceVoteWeightCapMultiplier
  minDistinctVoters : rules.minDistinctVoters = minGovernanceDistinctVoters
  approvalThresholdBps : rules.approvalThresholdBps = approvalThresholdBps
  floor : minGovernanceQuorumWeight ≤ quorum
  stakes : 3 * rules.minVoterStake ≤ quorum
  percentage : 3 * rules.maxVoteWeight * quorumBps ≤ governanceBasisPoints * quorum
  tight : quorum = minGovernanceQuorumWeight ∨ quorum = 3 * rules.minVoterStake ∨
    governanceBasisPoints * quorum < 3 * rules.maxVoteWeight * quorumBps + governanceBasisPoints
  reachable : quorum ≤ 3 * rules.maxVoteWeight
  capacity : 3 * rules.maxVoteWeight < u64Limit

theorem validate_eq_ok {rules : ProposalGovernanceRules} {u : Unit} :
    rules.validate = .ok u ↔
      minGovernanceVoterStakeLamports ≤ rules.minVoterStake ∧
        (minGovernanceVoterReputation ≤ rules.minVoterReputation ∧
          rules.minVoterReputation ≤ maxReputation) ∧
        rules.minVoterStake ≤ rules.maxVoteWeight ∧
        minGovernanceDistinctVoters ≤ rules.minDistinctVoters ∧
        1 ≤ rules.approvalThresholdBps ∧ rules.approvalThresholdBps < 10000 := by
  rw [ProposalGovernanceRules.validate, require_bind_eq_ok, require_bind_eq_ok, require_bind_eq_ok,
    require_bind_eq_ok, require_eq_ok]

/-- **New proposals.** The requirements of a new proposal are these numbers, whenever they are
computed at all. -/
theorem calculateNewProposalRequirements_spec
    {minProposalStake minArbiterStake quorumBps approvalThresholdBps quorum : ℕ}
    {rules : ProposalGovernanceRules}
    (h : calculateNewProposalRequirements minProposalStake minArbiterStake quorumBps
      approvalThresholdBps = .ok (quorum, rules)) :
    SoundRequirements minProposalStake minArbiterStake quorumBps approvalThresholdBps quorum
      rules := by
  simp only [calculateNewProposalRequirements, validateApprovalThreshold, bind_eq_ok,
    require_eq_ok, mulU64_eq_ok, mulU128_eq_ok, addU128_eq_ok, divU_eq_ok, tryU64_eq_ok,
    exists_const, Except.ok.injEq, Prod.mk.injEq] at h
  obtain ⟨-, -, _, ⟨hcap, rfl⟩, ⟨-, hstake⟩, _, ⟨hcapacity, rfl⟩, -, _, ⟨hquorum, rfl⟩, _,
    ⟨-, rfl⟩, _, ⟨-, rfl⟩, _, ⟨-, rfl⟩, _, ⟨-, rfl⟩, hreach, ⟨⟩, hvalid, rfl, rfl⟩ := h
  have hthree : minGovernanceDistinctVoters = 3 := rfl
  have hbasis : governanceBasisPoints = 10000 := rfl
  have hthreshold := (validate_eq_ok.mp hvalid).2.2.2.2.2
  have hlimit : u16Limit = 65536 := rfl
  rw [hthree] at hcapacity hquorum hreach
  generalize hweight : minArbiterStake * governanceVoteWeightCapMultiplier = maxVoteWeight at *
  generalize hvoter : max minProposalStake minGovernanceVoterStakeLamports = minVoterStake at *
  generalize hscaled : maxVoteWeight * 3 * quorumBps = scaled at *
  have hfits : ProposalGovernanceRules.Fits
      { minVoterStake := minVoterStake
        minVoterReputation := minGovernanceVoterReputation
        maxVoteWeight := maxVoteWeight
        minDistinctVoters := minGovernanceDistinctVoters
        approvalThresholdBps := approvalThresholdBps } := by
    have hreputation : minGovernanceVoterReputation < u16Limit := by decide
    have hdistinct : minGovernanceDistinctVoters < u16Limit := by decide
    dsimp only at hthreshold
    constructor
    all_goals dsimp only
    all_goals omega
  have hcomm : 3 * maxVoteWeight * quorumBps = scaled := by rw [← hscaled, Nat.mul_comm 3]
  refine ⟨hvalid, hfits, hvoter.symm, rfl, hweight.symm, rfl, rfl, ?_, ?_, ?_, ?_, ?_, ?_⟩
  all_goals
    dsimp only at *
    simp only [hthree, hbasis, hcomm] at *
    omega

/-! ## The packed rules -/

namespace RulesRegion

variable {region : RulesRegion} {start start' width width' : ℕ} {bytes : List UInt8}

/-- The bytes of a field. -/
def slice (region : RulesRegion) (start width : ℕ) : List UInt8 :=
  (region.toList.drop start).take width

theorem getElem?_toList_copyFromSlice {i : ℕ} (hfits : start + bytes.length ≤ 64) :
    (region.copyFromSlice start bytes).toList[i]? =
      if start ≤ i ∧ i < start + bytes.length then bytes[i - start]? else region.toList[i]? := by
  by_cases hi : i < 64
  · have hlength : ∀ r : RulesRegion, i < r.toList.length := by
      intro r
      rw [Vector.length_toList]
      exact hi
    rw [List.getElem?_eq_getElem (hlength _), List.getElem?_eq_getElem (hlength _),
      Vector.getElem_toList, Vector.getElem_toList, copyFromSlice, Vector.getElem_ofFn]
    split_ifs with hin
    · have hat : i - start < bytes.length := by
        have hin' : start ≤ i ∧ i < start + bytes.length := hin
        omega
      rw [List.getElem?_eq_getElem hat, List.getD_eq_getElem?_getD, List.getElem?_eq_getElem hat]
      rfl
    · rfl
  · have hlength : ∀ r : RulesRegion, r.toList.length ≤ i := by
      intro r
      rw [Vector.length_toList]
      omega
    rw [List.getElem?_eq_none (hlength _), List.getElem?_eq_none (hlength _), if_neg (by omega)]

theorem getElem?_slice {i : ℕ} :
    (region.slice start width)[i]? = if i < width then region.toList[start + i]? else none := by
  rw [slice, List.getElem?_take, List.getElem?_drop]

/-- A written field is read back. -/
theorem slice_copyFromSlice_self (hfits : start + bytes.length ≤ 64)
    (hwidth : bytes.length = width) :
    (region.copyFromSlice start bytes).slice start width = bytes := by
  refine List.ext_getElem? fun i => ?_
  rw [getElem?_slice, getElem?_toList_copyFromSlice hfits]
  split_ifs with hi hin
  · rw [Nat.add_sub_cancel_left]
  · omega
  · exact (List.getElem?_eq_none (by omega)).symm

/-- Other fields are kept. -/
theorem slice_copyFromSlice_of_disjoint (hfits : start + bytes.length ≤ 64)
    (hdisjoint : start' + width' ≤ start ∨ start + bytes.length ≤ start') :
    (region.copyFromSlice start bytes).slice start' width' = region.slice start' width' := by
  refine List.ext_getElem? fun i => ?_
  rw [getElem?_slice, getElem?_slice, getElem?_toList_copyFromSlice hfits]
  split_ifs with hi hin
  · omega
  · rfl
  · rfl

theorem length_slice (region : RulesRegion) (hfits : start + width ≤ 64) : (region.slice start width).length = width := by
  rw [slice, List.length_take, List.length_drop, Vector.length_toList]
  omega

/-- Two regions with the same bytes of a field, and the same behind it, are the same from the
field on. -/
theorem drop_eq_of_slice {region' : RulesRegion}
    (hslice : region.slice start width = region'.slice start width)
    (hrest : region.toList.drop (start + width) = region'.toList.drop (start + width)) :
    region.toList.drop start = region'.toList.drop start := by
  rw [← List.take_append_drop width (region.toList.drop start),
    ← List.take_append_drop width (region'.toList.drop start), List.drop_drop, List.drop_drop,
    hrest]
  exact congrArg (· ++ _) hslice

/-- The fields of the rules, each at its offset with its width. -/
structure Holds (region : RulesRegion) (rules : ProposalGovernanceRules) : Prop where
  schema : region.slice 0 1 = [governanceRulesSchemaV1]
  minVoterStake : region.slice 1 8 = littleEndian 8 rules.minVoterStake
  minVoterReputation : region.slice 9 2 = littleEndian 2 rules.minVoterReputation
  maxVoteWeight : region.slice 11 8 = littleEndian 8 rules.maxVoteWeight
  minDistinctVoters : region.slice 19 2 = littleEndian 2 rules.minDistinctVoters
  approvalThresholdBps : region.slice 21 2 = littleEndian 2 rules.approvalThresholdBps
  rest : region.slice 23 41 = List.replicate 41 0

/-- The fields determine the region. -/
theorem Holds.unique {region' : RulesRegion} {rules : ProposalGovernanceRules}
    (h : region.Holds rules) (h' : region'.Holds rules) : region = region' := by
  have hdrop {k : ℕ} (hk : 64 ≤ k) (r : RulesRegion) : r.toList.drop k = [] := by
    rw [List.drop_eq_nil_iff, Vector.length_toList]
    exact hk
  have h64 : region.toList.drop 64 = region'.toList.drop 64 := by
    rw [hdrop (Nat.le_refl _), hdrop (Nat.le_refl _)]
  have h23 : region.toList.drop 23 = region'.toList.drop 23 :=
    drop_eq_of_slice (h.rest.trans h'.rest.symm) h64
  have h21 : region.toList.drop 21 = region'.toList.drop 21 :=
    drop_eq_of_slice (h.approvalThresholdBps.trans h'.approvalThresholdBps.symm) h23
  have h19 : region.toList.drop 19 = region'.toList.drop 19 :=
    drop_eq_of_slice (h.minDistinctVoters.trans h'.minDistinctVoters.symm) h21
  have h11 : region.toList.drop 11 = region'.toList.drop 11 :=
    drop_eq_of_slice (h.maxVoteWeight.trans h'.maxVoteWeight.symm) h19
  have h9 : region.toList.drop 9 = region'.toList.drop 9 :=
    drop_eq_of_slice (h.minVoterReputation.trans h'.minVoterReputation.symm) h11
  have h1 : region.toList.drop 1 = region'.toList.drop 1 :=
    drop_eq_of_slice (h.minVoterStake.trans h'.minVoterStake.symm) h9
  have h0 : region.toList.drop 0 = region'.toList.drop 0 :=
    drop_eq_of_slice (h.schema.trans h'.schema.symm) h1
  exact Vector.toList_inj.mp h0

/-- What is packed holds the rules. -/
theorem setGovernanceRules_eq_ok {rules : ProposalGovernanceRules} :
    setGovernanceRules rules = .ok region ↔ rules.validate = .ok () ∧ region.Holds rules := by
  have hpacked : ∀ packed, setGovernanceRules rules = .ok packed →
      rules.validate = .ok () ∧ packed.Holds rules := by
    intro packed h
    simp only [setGovernanceRules, bind_eq_ok, Except.ok.injEq] at h
    obtain ⟨⟨⟩, hvalid, rfl⟩ := h
    refine ⟨hvalid, ?_⟩
    constructor
    all_goals
      simp (disch := simp) only [slice_copyFromSlice_self, slice_copyFromSlice_of_disjoint]
    · rfl
    · rfl
  constructor
  · exact hpacked region
  · rintro ⟨hvalid, hholds⟩
    obtain ⟨packed, hset⟩ : ∃ packed, setGovernanceRules rules = .ok packed := by
      simp only [setGovernanceRules, bind_eq_ok, Except.ok.injEq]
      exact ⟨_, (), hvalid, rfl⟩
    rw [hset, (hpacked packed hset).2.unique hholds]

theorem readLe_eq (hslice : region.slice start width = bytes) :
    region.readLe start width = ofLittleEndian bytes := by
  rw [readLe, ← hslice]
  rfl

/-- What is unpacked was packed. -/
theorem governanceRules_eq_ok {rules : ProposalGovernanceRules} :
    governanceRules region = .ok rules ↔
      rules.validate = .ok () ∧ rules.Fits ∧ region.Holds rules := by
  have hread (start width k : ℕ) (hfits : start + width ≤ 64) :
      region.readLe start width = k ↔ k < 256 ^ width ∧
        region.slice start width = littleEndian width k := by
    have hlength := length_slice region hfits
    have hvalue : region.readLe start width = ofLittleEndian (region.slice start width) := rfl
    rw [hvalue]
    constructor
    · rintro rfl
      refine ⟨?_, ?_⟩
      · have hlt := ofLittleEndian_lt (region.slice start width)
        rwa [hlength] at hlt
      · have hback := littleEndian_ofLittleEndian (region.slice start width)
        rw [hlength] at hback
        exact hback.symm
    · rintro ⟨hlt, hslice⟩
      rw [hslice, ofLittleEndian_littleEndian, Nat.mod_eq_of_lt hlt]
  have hschema : region[0] = governanceRulesSchemaV1 ↔
      region.slice 0 1 = [governanceRulesSchemaV1] := by
    have hfirst : region.slice 0 1 = [region[0]] := by
      refine List.ext_getElem? fun i => ?_
      rw [getElem?_slice]
      cases i with
      | zero =>
        rw [if_pos Nat.one_pos, Nat.zero_add, List.getElem?_eq_getElem (by simp),
          Vector.getElem_toList]
        rfl
      | succ i =>
        rw [if_neg (by omega)]
        rfl
    rw [hfirst, List.cons.injEq, and_iff_left rfl]
  have hrest : (∀ byte ∈ region.toList.drop 23, byte = 0) ↔
      region.slice 23 41 = List.replicate 41 0 := by
    have hlength : (region.toList.drop 23).length = 41 := by
      rw [List.length_drop, Vector.length_toList]
    have hall : region.slice 23 41 = region.toList.drop 23 :=
      List.take_of_length_le (Nat.le_of_eq hlength)
    rw [hall, List.eq_replicate_iff, and_iff_right hlength]
  simp only [governanceRules, bind_eq_ok, require_eq_ok, Except.ok.injEq, exists_const]
  rw [hschema, hrest]
  constructor
  · rintro ⟨hfirst, hzero, ⟨⟩, hvalid, rfl⟩
    obtain ⟨hlt1, hslice1⟩ := (hread 1 8 _ (by omega)).mp rfl
    obtain ⟨hlt2, hslice2⟩ := (hread 9 2 _ (by omega)).mp rfl
    obtain ⟨hlt3, hslice3⟩ := (hread 11 8 _ (by omega)).mp rfl
    obtain ⟨hlt4, hslice4⟩ := (hread 19 2 _ (by omega)).mp rfl
    obtain ⟨hlt5, hslice5⟩ := (hread 21 2 _ (by omega)).mp rfl
    exact ⟨hvalid, ⟨hlt1, hlt2, hlt3, hlt4, hlt5⟩,
      ⟨hfirst, hslice1, hslice2, hslice3, hslice4, hslice5, hzero⟩⟩
  · rintro ⟨hvalid, hfits, hholds⟩
    have hrules : rules = {
        minVoterStake := region.readLe 1 8
        minVoterReputation := region.readLe 9 2
        maxVoteWeight := region.readLe 11 8
        minDistinctVoters := region.readLe 19 2
        approvalThresholdBps := region.readLe 21 2 } := by
      rw [(hread 1 8 _ (by omega)).mpr ⟨hfits.minVoterStake, hholds.minVoterStake⟩,
        (hread 9 2 _ (by omega)).mpr ⟨hfits.minVoterReputation, hholds.minVoterReputation⟩,
        (hread 11 8 _ (by omega)).mpr ⟨hfits.maxVoteWeight, hholds.maxVoteWeight⟩,
        (hread 19 2 _ (by omega)).mpr ⟨hfits.minDistinctVoters, hholds.minDistinctVoters⟩,
        (hread 21 2 _ (by omega)).mpr ⟨hfits.approvalThresholdBps, hholds.approvalThresholdBps⟩]
    rw [← hrules]
    exact ⟨hholds.schema, hholds.rest, (), hvalid, rfl⟩

/-- Packed rules are read back. -/
theorem setGovernanceRules_governanceRules {rules : ProposalGovernanceRules} (hfits : rules.Fits)
    (h : setGovernanceRules rules = .ok region) : governanceRules region = .ok rules := by
  obtain ⟨hvalid, hholds⟩ := setGovernanceRules_eq_ok.mp h
  exact governanceRules_eq_ok.mpr ⟨hvalid, hfits, hholds⟩

/-- Only what the rules pack to is read as these rules. -/
theorem governanceRules_setGovernanceRules {rules : ProposalGovernanceRules}
    (h : governanceRules region = .ok rules) : setGovernanceRules rules = .ok region := by
  obtain ⟨hvalid, -, hholds⟩ := governanceRules_eq_ok.mp h
  exact setGovernanceRules_eq_ok.mpr ⟨hvalid, hholds⟩

end RulesRegion

/-! ## The weight of a vote -/

section

variable {stake stake' reputation reputation' maxVoteWeight w : ℕ}

/-- The weight of a vote, as a number without a limit. -/
def governanceVoteWeight (stake reputation maxVoteWeight : ℕ) : ℕ :=
  if 0 < min stake maxVoteWeight then
    max (min stake maxVoteWeight * reputation / maxReputation) 1
  else 0

theorem weighted_le (stake : ℕ) (h : reputation ≤ maxReputation) :
    stake * reputation / maxReputation ≤ stake := by
  refine Nat.div_le_of_le_mul ?_
  rw [Nat.mul_comm maxReputation]
  exact Nat.mul_le_mul_left stake h

theorem calculateGovernanceVoteWeight_eq_ok (hmax : maxVoteWeight < u64Limit) :
    calculateGovernanceVoteWeight stake reputation maxVoteWeight = .ok w ↔
      reputation ≤ maxReputation ∧ w = governanceVoteWeight stake reputation maxVoteWeight := by
  simp only [calculateGovernanceVoteWeight, bind_eq_ok, require_eq_ok, mulU128_eq_ok, divU_eq_ok,
    tryU64_eq_ok, exists_const, Except.ok.injEq]
  constructor
  · rintro ⟨hreputation, _, ⟨-, rfl⟩, _, ⟨-, rfl⟩, _, ⟨-, rfl⟩, rfl⟩
    exact ⟨hreputation, rfl⟩
  · rintro ⟨hreputation, rfl⟩
    have hweight : min stake maxVoteWeight < u64Limit :=
      Nat.lt_of_le_of_lt (Nat.min_le_right _ _) hmax
    have hproduct : min stake maxVoteWeight * reputation < u128Limit := by
      have hle := Nat.mul_le_mul (Nat.le_of_lt hweight) hreputation
      exact Nat.lt_of_le_of_lt hle (by decide)
    have hquotient := weighted_le (min stake maxVoteWeight) hreputation
    exact ⟨hreputation, _, ⟨hproduct, rfl⟩, _, ⟨by decide, rfl⟩, _,
      ⟨Nat.lt_of_le_of_lt hquotient hweight, rfl⟩, rfl⟩

theorem governanceVoteWeight_pos (hstake : 0 < stake) (hmax : 0 < maxVoteWeight) :
    1 ≤ governanceVoteWeight stake reputation maxVoteWeight := by
  rw [governanceVoteWeight, if_pos (Nat.lt_min.mpr ⟨hstake, hmax⟩)]
  exact Nat.le_max_right _ _

theorem governanceVoteWeight_le (hreputation : reputation ≤ maxReputation) :
    governanceVoteWeight stake reputation maxVoteWeight ≤ maxVoteWeight := by
  rw [governanceVoteWeight]
  split_ifs with hpos
  · have hquotient := weighted_le (min stake maxVoteWeight) hreputation
    have hle := Nat.min_le_right stake maxVoteWeight
    exact Nat.max_le.mpr ⟨Nat.le_trans hquotient hle, Nat.le_trans hpos hle⟩
  · exact Nat.zero_le _

theorem governanceVoteWeight_mono (hstake : stake ≤ stake') (hreputation : reputation ≤ reputation') :
    governanceVoteWeight stake reputation maxVoteWeight ≤
      governanceVoteWeight stake' reputation' maxVoteWeight := by
  have hmin : min stake maxVoteWeight ≤ min stake' maxVoteWeight := by omega
  rw [governanceVoteWeight, governanceVoteWeight]
  split_ifs with hpos hpos'
  · have hproduct := Nat.mul_le_mul hmin hreputation
    have hquotient := Nat.div_le_div_right (c := maxReputation) hproduct
    omega
  · omega
  · exact Nat.zero_le _
  · exact Nat.zero_le _

end

/-! ## Votes -/

/-- A vote that the election can take: the checks of `vote_proposal` on the ballot. -/
structure Ballot.Admissible (ballot : Ballot) (proposal : Proposal)
    (rules : ProposalGovernanceRules) : Prop where
  version : checkVersionCompatible ballot.config = .ok ()
  inTime : ballot.now < proposal.votingDeadline
  active : ballot.voter.status = .Active
  eligible : rules.voterIsEligible ballot.voter.stake ballot.voter.reputation

/-- The weight of a ballot. -/
def Ballot.weight (rules : ProposalGovernanceRules) (ballot : Ballot) : ℕ :=
  governanceVoteWeight ballot.voter.stake ballot.voter.reputation rules.maxVoteWeight

/-- Its weight for the proposal. -/
def Ballot.weightFor (rules : ProposalGovernanceRules) (ballot : Ballot) : ℕ :=
  if ballot.approve then ballot.weight rules else 0

/-- Its weight against the proposal. -/
def Ballot.weightAgainst (rules : ProposalGovernanceRules) (ballot : Ballot) : ℕ :=
  if ballot.approve then 0 else ballot.weight rules

/-- The proposal with the ballots counted, as numbers without a limit. -/
def Proposal.counted (proposal : Proposal) (rules : ProposalGovernanceRules)
    (ballots : List Ballot) : Proposal :=
  { proposal with
    votesFor := proposal.votesFor + (ballots.map (Ballot.weightFor rules)).sum
    votesAgainst := proposal.votesAgainst + (ballots.map (Ballot.weightAgainst rules)).sum
    totalVoters := proposal.totalVoters + ballots.length }

/-- The tallies of the counted proposal are values of their machine types. -/
structure Proposal.Room (proposal : Proposal) (rules : ProposalGovernanceRules)
    (ballots : List Ballot) : Prop where
  votesFor : (proposal.counted rules ballots).votesFor < u64Limit
  votesAgainst : (proposal.counted rules ballots).votesAgainst < u64Limit
  totalVoters : (proposal.counted rules ballots).totalVoters < u16Limit

/-- Votes of eligible distinct voters who have not voted yet, in an open election. -/
structure Election.Electorate (election : Election) (rules : ProposalGovernanceRules)
    (ballots : List Ballot) : Prop where
  status : election.proposal.status = .Active
  packed : election.proposal.reserved.governanceRules = .ok rules
  admissible : ∀ ballot ∈ ballots, ballot.Admissible election.proposal rules
  distinct : (ballots.map fun ballot => ballot.voter.authority).Nodup
  fresh : ∀ ballot ∈ ballots, ballot.voter.authority ∉ election.votes.map Prod.fst

section

variable {proposal : Proposal} {election : Election} {rules : ProposalGovernanceRules}
  {ballot : Ballot} {ballots ballots' : List Ballot}

theorem counted_nil : proposal.counted rules [] = proposal := rfl

theorem counted_counted :
    (proposal.counted rules [ballot]).counted rules ballots =
      proposal.counted rules (ballot :: ballots) := by
  simp only [Proposal.counted, List.map_cons, List.map_nil, List.sum_cons, List.sum_nil,
    List.length_cons, List.length_nil, Nat.add_assoc, Nat.add_zero, Nat.zero_add,
    Nat.add_comm 1]

/-- The order of the ballots does not matter. -/
theorem counted_perm (h : ballots.Perm ballots') :
    proposal.counted rules ballots = proposal.counted rules ballots' := by
  rw [Proposal.counted, Proposal.counted, (h.map _).sum_nat, (h.map _).sum_nat, h.length_eq]

theorem Proposal.Room.perm (h : ballots.Perm ballots') (hroom : proposal.Room rules ballots) :
    proposal.Room rules ballots' := by
  obtain ⟨hfor, hagainst, hvoters⟩ := hroom
  rw [counted_perm h] at hfor hagainst hvoters
  exact ⟨hfor, hagainst, hvoters⟩

theorem Election.Electorate.perm (h : ballots.Perm ballots')
    (helectorate : election.Electorate rules ballots) : election.Electorate rules ballots' where
  status := helectorate.status
  packed := helectorate.packed
  admissible ballot hmem := helectorate.admissible ballot (h.mem_iff.mpr hmem)
  distinct := (h.map _).nodup_iff.mp helectorate.distinct
  fresh ballot hmem := helectorate.fresh ballot (h.mem_iff.mpr hmem)

/-- A vote that fits is counted. -/
theorem count_eq (hroom : proposal.Room rules [ballot]) :
    proposal.count ballot.approve (ballot.weight rules) = .ok (proposal.counted rules [ballot]) := by
  obtain ⟨hfor, hagainst, hvoters⟩ := hroom
  simp only [Proposal.counted, Ballot.weightFor, Ballot.weightAgainst, List.map_cons, List.map_nil,
    List.sum_cons, List.sum_nil, List.length_singleton, Nat.add_zero] at hfor hagainst hvoters ⊢
  rw [Proposal.count]
  cases happrove : ballot.approve with
  | true =>
    rw [happrove] at hfor
    rw [if_pos rfl]
    simp only [bind_eq_ok]
    exact ⟨_, checkedAdd_eq_ok.mpr ⟨hfor, rfl⟩, _, checkedAdd_eq_ok.mpr ⟨hvoters, rfl⟩, rfl⟩
  | false =>
    rw [happrove] at hagainst
    rw [if_neg Bool.false_ne_true]
    simp only [bind_eq_ok]
    exact ⟨_, checkedAdd_eq_ok.mpr ⟨hagainst, rfl⟩, _, checkedAdd_eq_ok.mpr ⟨hvoters, rfl⟩, rfl⟩

theorem Proposal.Room.first (h : proposal.Room rules (ballot :: ballots)) :
    proposal.Room rules [ballot] := by
  obtain ⟨hfor, hagainst, hvoters⟩ := h
  simp only [Proposal.counted, List.map_cons, List.sum_cons, List.length_cons] at hfor hagainst hvoters
  constructor
  all_goals
    simp only [Proposal.counted, List.map_cons, List.map_nil, List.sum_cons, List.sum_nil,
      List.length_cons, List.length_nil]
    omega

theorem Proposal.Room.rest (h : proposal.Room rules (ballot :: ballots)) :
    (proposal.counted rules [ballot]).Room rules ballots := by
  obtain ⟨hfor, hagainst, hvoters⟩ := h
  rw [← counted_counted] at hfor hagainst hvoters
  exact ⟨hfor, hagainst, hvoters⟩

/-- The first vote is counted, and the others can still be taken. -/
theorem cast_first (helectorate : election.Electorate rules (ballot :: ballots))
    (hroom : election.proposal.Room rules (ballot :: ballots)) :
    (election.cast ballot).proposal = election.proposal.counted rules [ballot] ∧
      (election.cast ballot).Electorate rules ballots := by
  obtain ⟨hstatus, hrules, hadmissible, hdistinct, hfresh⟩ := helectorate
  obtain ⟨hballot, hballots⟩ := List.forall_mem_cons.mp hadmissible
  obtain ⟨hnew, hnews⟩ := List.forall_mem_cons.mp hfresh
  rw [List.map_cons, List.nodup_cons] at hdistinct
  obtain ⟨hvalid, hfits, -⟩ := RulesRegion.governanceRules_eq_ok.mp hrules
  obtain ⟨hstake, hlow, hhigh⟩ := hballot.eligible
  have hfloor : 0 < minGovernanceVoterStakeLamports := by decide
  have hmin := (validate_eq_ok.mp hvalid).1
  have hcap := (validate_eq_ok.mp hvalid).2.2.1
  have hpos : 0 < ballot.weight rules :=
    governanceVoteWeight_pos (by omega) (by omega)
  have hvote : voteProposal election ballot = .ok
      ({ proposal := election.proposal.counted rules [ballot]
         votes := (ballot.voter.authority,
          { voter := ballot.voterKey, approved := ballot.approve, votedAt := ballot.now,
            voteWeight := ballot.weight rules }) :: election.votes },
        { ballot.voter with
          lastVoteTimestamp :=
            max ballot.voter.lastVoteTimestamp election.proposal.votingDeadline }) := by
    simp only [voteProposal, bind_eq_ok, require_eq_ok, exists_const, Except.ok.injEq]
    exact ⟨hnew, (), hballot.version, hstatus, hballot.inTime, hballot.active, rules, hrules, hstake,
      hlow, hhigh, hballot.eligible, _,
      (calculateGovernanceVoteWeight_eq_ok hfits.maxVoteWeight).mpr ⟨hhigh, rfl⟩, hpos, _,
      count_eq hroom.first, rfl⟩
  have hcast : election.cast ballot =
      { proposal := election.proposal.counted rules [ballot]
        votes := (ballot.voter.authority,
          { voter := ballot.voterKey, approved := ballot.approve, votedAt := ballot.now,
            voteWeight := ballot.weight rules }) :: election.votes } := by
    rw [Election.cast, hvote]
  rw [hcast]
  refine ⟨rfl, hstatus, hrules, ?_, hdistinct.2, ?_⟩
  · intro other hmem
    obtain ⟨hversion, htime, hactive, heligible⟩ := hballots other hmem
    exact ⟨hversion, htime, hactive, heligible⟩
  · intro other hmem hvoted
    rcases List.mem_cons.mp hvoted with heq | hvoted
    · have hsame : other.voter.authority = ballot.voter.authority := heq
      rw [← hsame] at hdistinct
      exact hdistinct.1 (List.mem_map_of_mem hmem)
    · exact hnews other hmem hvoted

/-- Votes that fit are counted, all of them. -/
theorem castAll_proposal (helectorate : election.Electorate rules ballots)
    (hroom : election.proposal.Room rules ballots) :
    (election.castAll ballots).proposal = election.proposal.counted rules ballots := by
  induction ballots generalizing election with
  | nil => rfl
  | cons ballot ballots ih =>
    obtain ⟨hproposal, hrest⟩ := cast_first helectorate hroom
    have hroom' := hroom.rest
    rw [← hproposal] at hroom'
    have hall := ih hrest hroom'
    rw [hproposal, counted_counted] at hall
    exact hall

/-! ## The outcome -/

/-- When an election is won. -/
theorem outcomeMet_eq_true (hvalid : rules.validate = .ok ()) :
    proposal.outcomeMet rules = .ok true ↔
      proposal.votesFor + proposal.votesAgainst < u64Limit ∧
        0 < proposal.votesFor + proposal.votesAgainst ∧
        proposal.quorum ≤ proposal.votesFor + proposal.votesAgainst ∧
        rules.minDistinctVoters ≤ proposal.totalVoters ∧
        (proposal.votesFor + proposal.votesAgainst) * rules.approvalThresholdBps <
          proposal.votesFor * 10000 := by
  have hthreshold := (validate_eq_ok.mp hvalid).2.2.2.2.2
  rw [Proposal.outcomeMet]
  simp only [bind_eq_ok, addU64_eq_ok]
  constructor
  · rintro ⟨_, ⟨hfits, rfl⟩, hmet⟩
    rw [outcomeRequirementsMet] at hmet
    by_cases hshort : proposal.votesFor + proposal.votesAgainst = 0 ∨
        proposal.votesFor + proposal.votesAgainst < proposal.quorum ∨
        proposal.totalVoters < rules.minDistinctVoters
    · rw [if_pos hshort] at hmet
      cases hmet
    · rw [if_neg hshort] at hmet
      simp only [bind_eq_ok, mulU128_eq_ok, Except.ok.injEq, decide_eq_true_eq] at hmet
      obtain ⟨_, ⟨-, rfl⟩, _, ⟨-, rfl⟩, hwon⟩ := hmet
      exact ⟨hfits, by omega, by omega, by omega, hwon⟩
  · rintro ⟨hfits, hpos, hquorum, hvoters, hwon⟩
    have hwide : ∀ k, k < u64Limit → ∀ bps, bps ≤ 10000 → k * bps < u128Limit := by
      intro k hk bps hbps
      have hle := Nat.mul_le_mul (Nat.le_of_lt hk) hbps
      exact Nat.lt_of_le_of_lt hle (by decide)
    refine ⟨_, ⟨hfits, rfl⟩, ?_⟩
    rw [outcomeRequirementsMet, if_neg (by omega)]
    simp only [bind_eq_ok, mulU128_eq_ok, Except.ok.injEq, decide_eq_true_eq]
    exact ⟨_, ⟨hwide _ (by omega) _ (Nat.le_refl _), rfl⟩, _,
      ⟨hwide _ hfits _ (Nat.le_of_lt hthreshold), rfl⟩, hwon⟩

/-- One more vote for a proposal that has won does not lose it. -/
theorem outcomeMet_counted (hvalid : rules.validate = .ok ()) (happrove : ballot.approve = true)
    (hfits : (proposal.counted rules [ballot]).votesFor +
      (proposal.counted rules [ballot]).votesAgainst < u64Limit)
    (h : proposal.outcomeMet rules = .ok true) :
    (proposal.counted rules [ballot]).outcomeMet rules = .ok true := by
  have hthreshold := (validate_eq_ok.mp hvalid).2.2.2.2.2
  rw [outcomeMet_eq_true hvalid] at h ⊢
  obtain ⟨-, hpos, hquorum, hvoters, hwon⟩ := h
  have hfor : (proposal.counted rules [ballot]).votesFor =
      proposal.votesFor + ballot.weight rules := by
    simp [Proposal.counted, Ballot.weightFor, happrove]
  have hagainst : (proposal.counted rules [ballot]).votesAgainst = proposal.votesAgainst := by
    simp [Proposal.counted, Ballot.weightAgainst, happrove]
  have hvoters' : (proposal.counted rules [ballot]).totalVoters = proposal.totalVoters + 1 := rfl
  have hquorum' : (proposal.counted rules [ballot]).quorum = proposal.quorum := rfl
  rw [hfor, hagainst] at hfits ⊢
  rw [hvoters', hquorum']
  refine ⟨hfits, by omega, by omega, by omega, ?_⟩
  have hshare : ballot.weight rules * rules.approvalThresholdBps ≤ ballot.weight rules * 10000 :=
    Nat.mul_le_mul_left _ (Nat.le_of_lt hthreshold)
  calc (proposal.votesFor + ballot.weight rules + proposal.votesAgainst) *
        rules.approvalThresholdBps
      = (proposal.votesFor + proposal.votesAgainst) * rules.approvalThresholdBps +
          ballot.weight rules * rules.approvalThresholdBps := by ring
    _ < proposal.votesFor * 10000 + ballot.weight rules * 10000 :=
        Nat.add_lt_add_of_lt_of_le hwon hshare
    _ = (proposal.votesFor + ballot.weight rules) * 10000 := by ring

end

/-! ## Elections -/

section

variable {minProposalStake minArbiterStake quorumBps approvalThresholdBps quorum : ℕ}
  {rules : ProposalGovernanceRules} {election : Election} {ballot : Ballot}
  {ballots ballots' : List Ballot}

theorem sum_weights (rules : ProposalGovernanceRules) (ballots : List Ballot) :
    (ballots.map (Ballot.weightFor rules)).sum + (ballots.map (Ballot.weightAgainst rules)).sum =
      (ballots.map (Ballot.weight rules)).sum := by
  induction ballots with
  | nil => rfl
  | cons ballot ballots ih =>
    have hone : ballot.weightFor rules + ballot.weightAgainst rules = ballot.weight rules := by
      rw [Ballot.weightFor, Ballot.weightAgainst]
      split_ifs
      · exact Nat.add_zero _
      · exact Nat.zero_add _
    simp only [List.map_cons, List.sum_cons]
    omega

theorem sum_weightFor_of_approve (h : ∀ ballot ∈ ballots, ballot.approve = true) :
    (ballots.map (Ballot.weightFor rules)).sum = (ballots.map (Ballot.weight rules)).sum := by
  refine congrArg List.sum (List.map_congr_left fun ballot hmem => ?_)
  rw [Ballot.weightFor, if_pos (h ballot hmem)]

/-- **Reachability.** Three voters of maximal weight reach the quorum of a new proposal, and win
it when they agree. -/
theorem three_voters
    (hsound : SoundRequirements minProposalStake minArbiterStake quorumBps approvalThresholdBps
      quorum rules)
    (helectorate : election.Electorate rules ballots) (hquorum : election.proposal.quorum = quorum)
    (hfor : election.proposal.votesFor = 0) (hagainst : election.proposal.votesAgainst = 0)
    (hvoters : election.proposal.totalVoters = 0) (hthree : ballots.length = 3)
    (hweight : ∀ ballot ∈ ballots, ballot.weight rules = rules.maxVoteWeight) :
    quorum ≤ (election.castAll ballots).proposal.votesFor +
        (election.castAll ballots).proposal.votesAgainst ∧
      ((∀ ballot ∈ ballots, ballot.approve = true) →
        (election.castAll ballots).proposal.outcomeMet rules = .ok true) := by
  have htotal : (ballots.map (Ballot.weight rules)).sum = 3 * rules.maxVoteWeight := by
    have hconst : ballots.map (Ballot.weight rules) = List.replicate 3 rules.maxVoteWeight := by
      rw [List.eq_replicate_iff, List.length_map]
      refine ⟨hthree, fun w hw => ?_⟩
      obtain ⟨ballot, hmem, rfl⟩ := List.mem_map.mp hw
      exact hweight ballot hmem
    rw [hconst, List.sum_replicate_nat]
  have hsum := sum_weights rules ballots
  have hcapacity := hsound.capacity
  have hroom : election.proposal.Room rules ballots := by
    constructor
    all_goals simp only [Proposal.counted]
    · omega
    · omega
    · rw [hvoters, hthree]
      decide
  have hproposal := castAll_proposal helectorate hroom
  have hvotes : (election.castAll ballots).proposal.votesFor +
      (election.castAll ballots).proposal.votesAgainst = 3 * rules.maxVoteWeight := by
    rw [hproposal]
    simp only [Proposal.counted]
    omega
  refine ⟨?_, fun happrove => ?_⟩
  · rw [hvotes]
    exact hsound.reachable
  · have hall : (election.castAll ballots).proposal.votesFor = 3 * rules.maxVoteWeight := by
      rw [hproposal]
      simp only [Proposal.counted]
      rw [hfor, sum_weightFor_of_approve happrove, htotal, Nat.zero_add]
    have hthreshold := (validate_eq_ok.mp hsound.validates).2.2.2.2.2
    have hmin := (validate_eq_ok.mp hsound.validates).1
    have hcap := (validate_eq_ok.mp hsound.validates).2.2.1
    have hfloor : 0 < minGovernanceVoterStakeLamports := by decide
    have hpos : 0 < 3 * rules.maxVoteWeight := by omega
    have hdistinct : (election.castAll ballots).proposal.totalVoters = 3 := by
      rw [hproposal]
      simp only [Proposal.counted]
      omega
    have hquorum' : (election.castAll ballots).proposal.quorum = quorum := by
      rw [hproposal]
      exact hquorum
    rw [outcomeMet_eq_true hsound.validates, hvotes, hquorum', hdistinct, hall,
      hsound.minDistinctVoters]
    exact ⟨hcapacity, hpos, hsound.reachable, Nat.le_refl _, Nat.mul_lt_mul_of_pos_left hthreshold hpos⟩

/-- **Order.** Votes that fit give one proposal in every order, with all of them counted. -/
theorem castAll_perm (helectorate : election.Electorate rules ballots)
    (hroom : election.proposal.Room rules ballots) (h : ballots.Perm ballots') :
    (election.castAll ballots').proposal = (election.castAll ballots).proposal := by
  rw [castAll_proposal helectorate hroom, castAll_proposal (helectorate.perm h) (hroom.perm h),
    counted_perm h]

/-- **Monotonicity.** An approving vote, cast at any time, does not lose an election that is won
without it, when all votes fit. -/
theorem castAll_approve (helectorate : election.Electorate rules (ballot :: ballots))
    (hvoters : election.proposal.totalVoters + (ballot :: ballots).length < u16Limit)
    (hvotes : election.proposal.votesFor + election.proposal.votesAgainst +
      ((ballot :: ballots).map (Ballot.weight rules)).sum < u64Limit)
    (happrove : ballot.approve = true) (h : (ballot :: ballots).Perm ballots')
    (hwon : (election.castAll ballots).proposal.outcomeMet rules = .ok true) :
    (election.castAll ballots').proposal.outcomeMet rules = .ok true := by
  have hvalid := (RulesRegion.governanceRules_eq_ok.mp helectorate.packed).1
  have hsum := sum_weights rules (ballot :: ballots)
  have hroom : election.proposal.Room rules (ballot :: ballots) := by
    constructor
    all_goals simp only [Proposal.counted]
    · omega
    · omega
    · exact hvoters
  -- without the vote
  have hrest : election.Electorate rules ballots :=
    { status := helectorate.status
      packed := helectorate.packed
      admissible := fun other hmem => helectorate.admissible other (List.mem_cons_of_mem _ hmem)
      distinct := (List.nodup_cons.mp helectorate.distinct).2
      fresh := fun other hmem => helectorate.fresh other (List.mem_cons_of_mem _ hmem) }
  have hroom' : election.proposal.Room rules ballots := by
    obtain ⟨hfor, hagainst, hcount⟩ := hroom
    simp only [Proposal.counted, List.map_cons, List.sum_cons, List.length_cons]
      at hfor hagainst hcount
    constructor
    all_goals
      simp only [Proposal.counted]
      omega
  rw [castAll_proposal hrest hroom'] at hwon
  -- with the vote, counted last
  have hlast : election.proposal.counted rules (ballot :: ballots) =
      (election.proposal.counted rules ballots).counted rules [ballot] := by
    rw [counted_perm (List.perm_append_singleton ballot ballots).symm]
    simp only [Proposal.counted, List.map_append, List.sum_append, List.length_append,
      Nat.add_assoc]
  rw [castAll_perm helectorate hroom h, castAll_proposal helectorate hroom, hlast]
  refine outcomeMet_counted hvalid happrove ?_ hwon
  rw [← hlast]
  simp only [Proposal.counted]
  omega

end

/-- **Governance snapshots.** The requirements of a new proposal are sound and can be met, the
packed rules are canonical, weights are bounded and monotone, and the votes of eligible distinct
voters, as long as they fit, have one outcome in every order, which an approving vote does not
lose. -/
theorem governance_sound
    (minProposalStake minArbiterStake quorumBps approvalThresholdBps quorum : ℕ)
    (rules : ProposalGovernanceRules) (region : RulesRegion)
    (stake stake' reputation reputation' : ℕ) (election : Election) (ballot : Ballot)
    (ballots ballots' : List Ballot) :
    (calculateNewProposalRequirements minProposalStake minArbiterStake quorumBps
        approvalThresholdBps = .ok (quorum, rules) →
      SoundRequirements minProposalStake minArbiterStake quorumBps approvalThresholdBps quorum
          rules ∧
        (election.Electorate rules ballots → election.proposal.quorum = quorum →
          election.proposal.votesFor = 0 → election.proposal.votesAgainst = 0 →
          election.proposal.totalVoters = 0 → ballots.length = 3 →
          (∀ ballot ∈ ballots, ballot.weight rules = rules.maxVoteWeight) →
          quorum ≤ (election.castAll ballots).proposal.votesFor +
              (election.castAll ballots).proposal.votesAgainst ∧
            ((∀ ballot ∈ ballots, ballot.approve = true) →
              (election.castAll ballots).proposal.outcomeMet rules = .ok true))) ∧
      (rules.Fits → RulesRegion.setGovernanceRules rules = .ok region →
        region.governanceRules = .ok rules) ∧
      (region.governanceRules = .ok rules →
        rules.Fits ∧ RulesRegion.setGovernanceRules rules = .ok region) ∧
      (rules.Fits → rules.validate = .ok () → rules.voterIsEligible stake reputation →
        ∃ w, calculateGovernanceVoteWeight stake reputation rules.maxVoteWeight = .ok w ∧
          1 ≤ w ∧ w ≤ rules.maxVoteWeight ∧
          (stake ≤ stake' → reputation ≤ reputation' → rules.voterIsEligible stake' reputation' →
            ∃ w', calculateGovernanceVoteWeight stake' reputation' rules.maxVoteWeight = .ok w' ∧
              w ≤ w')) ∧
      (election.Electorate rules ballots → election.proposal.Room rules ballots →
        ballots.Perm ballots' →
        (election.castAll ballots).proposal = election.proposal.counted rules ballots ∧
          (election.castAll ballots').proposal = (election.castAll ballots).proposal) ∧
      (election.Electorate rules (ballot :: ballots) →
        election.proposal.totalVoters + (ballot :: ballots).length < u16Limit →
        election.proposal.votesFor + election.proposal.votesAgainst +
          ((ballot :: ballots).map (Ballot.weight rules)).sum < u64Limit →
        ballot.approve = true → (ballot :: ballots).Perm ballots' →
        (election.castAll ballots).proposal.outcomeMet rules = .ok true →
        (election.castAll ballots').proposal.outcomeMet rules = .ok true) := by
  refine ⟨fun h => ?_, RulesRegion.setGovernanceRules_governanceRules, fun h => ?_, ?_, ?_, ?_⟩
  · have hsound := calculateNewProposalRequirements_spec h
    exact ⟨hsound, three_voters hsound⟩
  · exact ⟨(RulesRegion.governanceRules_eq_ok.mp h).2.1,
      RulesRegion.governanceRules_setGovernanceRules h⟩
  · intro hfits hvalid heligible
    have hmin := (validate_eq_ok.mp hvalid).1
    have hcap := (validate_eq_ok.mp hvalid).2.2.1
    have hfloor : 0 < minGovernanceVoterStakeLamports := by decide
    obtain ⟨hstake, -, hhigh⟩ := heligible
    refine ⟨_, (calculateGovernanceVoteWeight_eq_ok hfits.maxVoteWeight).mpr ⟨hhigh, rfl⟩,
      governanceVoteWeight_pos (by omega) (by omega), governanceVoteWeight_le hhigh, ?_⟩
    intro hmore hmore' heligible'
    exact ⟨_, (calculateGovernanceVoteWeight_eq_ok hfits.maxVoteWeight).mpr ⟨heligible'.2.2, rfl⟩,
      governanceVoteWeight_mono hmore hmore'⟩
  · intro helectorate hroom h
    exact ⟨castAll_proposal helectorate hroom, castAll_perm helectorate hroom h⟩
  · intro helectorate hvoters hvotes happrove h hwon
    exact castAll_approve helectorate hvoters hvotes happrove h hwon

/-! ## Votes that do not fit -/

/-- The rules of a proposal whose voters may weigh a third of what a tally holds. -/
def heavyRules : ProposalGovernanceRules where
  minVoterStake := 10000000
  minVoterReputation := 5000
  maxVoteWeight := 6148914691236517200
  minDistinctVoters := 3
  approvalThresholdBps := 9750

/-- The election of such a proposal. -/
def heavyElection : Election where
  proposal :=
    { status := .Active, votingDeadline := 100, executionAfter := 200, executedAt := 0
      votesFor := 0, votesAgainst := 0, totalVoters := 0, quorum := 553402322211286548
      reserved := (RulesRegion.setGovernanceRules heavyRules).toOption.getD (Vector.replicate 64 0) }
  votes := []

/-- The vote of a wallet with a stake. -/
def ballotOf (wallet : Pubkey) (stake : ℕ) (approve : Bool) : Ballot where
  config := {}
  now := 50
  voterKey := wallet
  voter := { authority := wallet, status := .Active, stake := stake, reputation := 10000 }
  approve := approve

/-- Three heavy votes for the proposal, and one against. -/
def heavyBallots : List Ballot :=
  [ballotOf 1 6000000000000000000 true, ballotOf 2 6000000000000000000 true,
    ballotOf 3 6000000000000000000 true, ballotOf 4 400000000000000000 false]

/-- A vote for the proposal that no longer fits behind the heavy ones. -/
def lateBallot : Ballot := ballotOf 5 500000000000000000 true

/-- A vote for the proposal that fits its tally, but not the sum of both. -/
def lastBallot : Ballot := ballotOf 6 50000000000000000 true

theorem heavy_electorate :
    heavyElection.Electorate heavyRules (lastBallot :: (heavyBallots ++ [lateBallot])) where
  status := rfl
  packed := by decide +kernel
  admissible := by
    intro ballot hmem
    simp only [heavyBallots, List.cons_append, List.nil_append, List.mem_cons, List.not_mem_nil,
      or_false] at hmem
    rcases hmem with rfl | rfl | rfl | rfl | rfl | rfl
    all_goals exact ⟨rfl, by decide, rfl, by decide⟩
  distinct := by decide
  fresh := by
    intro ballot _ hmem
    cases hmem

/-- The same votes of eligible distinct voters win or lose the election, according to which of
them comes last; and one more vote for the proposal leaves an election that was won without an
outcome. -/
theorem order_of_heavy_votes :
    calculateNewProposalRequirements 10000000 614891469123651720 300 9750 =
        .ok (heavyElection.proposal.quorum, heavyRules) ∧
      heavyElection.Electorate heavyRules (lastBallot :: (heavyBallots ++ [lateBallot])) ∧
      (heavyBallots ++ [lateBallot]).Perm ([lateBallot] ++ heavyBallots) ∧
      (heavyElection.castAll (heavyBallots ++ [lateBallot])).proposal.outcomeMet heavyRules =
        .ok true ∧
      (heavyElection.castAll ([lateBallot] ++ heavyBallots)).proposal.outcomeMet heavyRules =
        .ok false ∧
      (heavyElection.castAll (heavyBallots ++ [lastBallot])).proposal.outcomeMet heavyRules =
        .error .ArithmeticOverflow :=
  ⟨by decide +kernel, heavy_electorate, List.perm_append_comm, by decide +kernel,
    by decide +kernel, by decide +kernel⟩

end AgencCoordination
