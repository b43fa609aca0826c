import AgencCoordination.Invariants.Outcomes

/-!
# What a payload says

A payload has room for more bytes than its type reads, and the rest must be zero. So the bytes the
voters approve and what they ask for determine each other.

* **`ProposalAction`** — what a proposal asks for, its bytes and its effect.
* **`accepted_iff`** — the checks of the creation accept the bytes of admissible actions only.
* **`payloads_canonical`** — the payloads of a government and their effects, in every run.
-/

namespace AgencCoordination

open Foundations

/-! ## Fields of a payload -/

namespace RulesRegion

variable {region : RulesRegion} {start width : ℕ}

theorem slice_append_drop (region : RulesRegion) (start width : ℕ) :
    region.slice start width ++ region.toList.drop (start + width) = region.toList.drop start := by
  rw [slice, ← List.drop_drop, List.take_append_drop]

/-- The number read from a field gives the bytes of the field. -/
theorem littleEndian_readLe (hfits : start + width ≤ 64) :
    Bytes.littleEndian width (region.readLe start width) = region.slice start width := by
  have hbytes := Bytes.littleEndian_ofLittleEndian (region.slice start width)
  rw [length_slice region hfits] at hbytes
  exact hbytes

theorem readLe_lt (hfits : start + width ≤ 64) : region.readLe start width < 256 ^ width := by
  have hlt := Bytes.ofLittleEndian_lt (region.slice start width)
  rw [length_slice region hfits] at hlt
  exact hlt

/-- A byte is the number in its field. -/
theorem readLe_one (hfits : start < 64) : region.readLe start 1 = region[start].toNat := by
  have hlength : start < region.toList.length := by
    rw [Vector.length_toList]
    exact hfits
  rw [readLe, List.drop_eq_getElem_cons hlength, List.take_succ_cons, List.take_zero,
    Vector.getElem_toList]
  rfl

/-- A field that was written is read back. -/
theorem readLe_written (before : List UInt8) {after : List UInt8} {k : ℕ}
    (hregion : region.toList = before ++ (Bytes.littleEndian width k ++ after))
    (hstart : before.length = start) (hk : k < 256 ^ width) : region.readLe start width = k := by
  rw [readLe, hregion, List.drop_left' hstart, List.take_left' (Bytes.length_littleEndian width k),
    Bytes.ofLittleEndian_littleEndian, Nat.mod_eq_of_lt hk]

/-- What is behind the fields is zero. -/
theorem drop_eq_replicate (h : ∀ byte ∈ region.toList.drop start, byte = 0) :
    region.toList.drop start = List.replicate (64 - start) 0 := by
  refine List.eq_replicate_iff.mpr ⟨?_, h⟩
  rw [List.length_drop, Vector.length_toList]

end RulesRegion

namespace ProposalPayload

variable {payload : ProposalPayload} {start : ℕ}

/-- A signed number that is read gives the bytes of its field. -/
theorem littleEndian_readI64 (hfits : start + 8 ≤ 64) :
    Bytes.littleEndian 8 (BitVec.ofInt 64 (payload.readI64 start)).toNat =
      RulesRegion.slice payload start 8 := by
  have hlt : RulesRegion.readLe payload start 8 < 2 ^ 64 := RulesRegion.readLe_lt hfits
  rw [readI64, BitVec.ofInt_toInt, BitVec.toNat_ofNat, Nat.mod_eq_of_lt hlt,
    RulesRegion.littleEndian_readLe hfits]

/-- A signed number that was written is read back. -/
theorem readI64_written (before : List UInt8) {after : List UInt8} {k : ℤ}
    (hpayload : payload.toList =
      before ++ (Bytes.littleEndian 8 (BitVec.ofInt 64 k).toNat ++ after))
    (hstart : before.length = start) (hmin : i64Min ≤ k) (hmax : k ≤ i64Max) :
    payload.readI64 start = k := by
  rw [readI64, RulesRegion.readLe_written _ hpayload hstart (BitVec.isLt _), BitVec.ofNat_toNat,
    BitVec.setWidth_eq]
  refine BitVec.toInt_ofInt_eq_self (by decide) ?_ ?_
  · exact hmin
  · exact Int.lt_of_le_of_lt hmax (by decide)

end ProposalPayload

/-! ## Actions -/

/-- What a proposal asks for. -/
inductive ProposalAction
  | upgrade
  | fee (bps : ℕ)
  | spend (recipient : Pubkey) (amount : ℕ)
  | limits (taskCooldown : ℤ) (maxTasks : ℕ) (disputeCooldown : ℤ) (maxDisputes minStake : ℕ)
  deriving DecidableEq

namespace ProposalAction

/-- The type of the proposals for an action. -/
def proposalType : ProposalAction → ProposalType
  | upgrade => .ProtocolUpgrade
  | fee _ => .FeeChange
  | spend _ _ => .TreasurySpend
  | limits _ _ _ _ _ => .RateLimitChange

/-- The bytes of an action. -/
def bytes : ProposalAction → List UInt8
  | upgrade => []
  | fee bps => Bytes.littleEndian 2 bps
  | spend recipient amount => Bytes.littleEndian 32 recipient ++ Bytes.littleEndian 8 amount
  | limits taskCooldown maxTasks disputeCooldown maxDisputes minStake =>
    Bytes.littleEndian 8 (BitVec.ofInt 64 taskCooldown).toNat ++
      (Bytes.littleEndian 1 maxTasks ++
        (Bytes.littleEndian 8 (BitVec.ofInt 64 disputeCooldown).toNat ++
          (Bytes.littleEndian 1 maxDisputes ++ Bytes.littleEndian 8 minStake)))

/-- The payload of an action: its bytes, and zeros. -/
def payload (action : ProposalAction) : ProposalPayload :=
  Vector.ofFn fun i => action.bytes.getD i 0

/-- The actions that may be proposed. -/
def Admissible (minAgentStake : ℕ) : ProposalAction → Prop
  | upgrade => True
  | fee bps => bps ≤ maxProtocolFeeBps
  | spend recipient amount =>
    (recipient ≠ 0 ∧ recipient < 256 ^ 32) ∧ 0 < amount ∧ amount < u64Limit
  | limits taskCooldown maxTasks disputeCooldown maxDisputes minStake =>
    (1 ≤ taskCooldown ∧ taskCooldown ≤ maxCooldown) ∧
      (1 ≤ disputeCooldown ∧ disputeCooldown ≤ maxCooldown) ∧ (1 ≤ maxTasks ∧ maxTasks < 256) ∧
      (1 ≤ maxDisputes ∧ maxDisputes < 256) ∧ isValidDisputeStakeLimit minStake minAgentStake

/-- What an action does to the configuration, and what it pays. -/
def effect (config : ProtocolConfig) : ProposalAction → ProtocolConfig × Option TreasuryPayment
  | upgrade => (config, none)
  | fee bps => ({ config with protocolFeeBps := bps }, none)
  | spend recipient amount => (config, some ⟨config.treasury, recipient, amount⟩)
  | limits taskCooldown maxTasks disputeCooldown maxDisputes minStake =>
    ({ config with
        taskCreationCooldown := taskCooldown
        maxTasksPer24h := maxTasks
        disputeInitiationCooldown := disputeCooldown
        maxDisputesPer24h := maxDisputes
        minStakeForDispute := minStake }, none)

/-- What a payload of some type asks for. -/
def read (proposalType : ProposalType) (payload : ProposalPayload) : ProposalAction :=
  match proposalType with
  | .ProtocolUpgrade => upgrade
  | .FeeChange => fee payload.newFeeBps
  | .TreasurySpend => spend payload.recipientKey payload.amount
  | .RateLimitChange =>
    limits payload.taskCreationCooldown payload.maxTasksPer24h payload.disputeInitiationCooldown
      payload.maxDisputesPer24h payload.minStakeForDispute

@[simp] theorem proposalType_read (proposalType : ProposalType) (payload : ProposalPayload) :
    (read proposalType payload).proposalType = proposalType := by
  cases proposalType with
  | ProtocolUpgrade => rfl
  | FeeChange => rfl
  | TreasurySpend => rfl
  | RateLimitChange => rfl

theorem length_bytes_le (action : ProposalAction) : action.bytes.length ≤ 64 := by
  cases action with
  | upgrade => exact Nat.zero_le _
  | fee bps => simp [bytes]
  | spend recipient amount => simp [bytes]
  | limits taskCooldown maxTasks disputeCooldown maxDisputes minStake => simp [bytes]

theorem toList_payload (action : ProposalAction) :
    action.payload.toList =
      action.bytes ++ List.replicate (64 - action.bytes.length) 0 := by
  have hle := action.length_bytes_le
  unfold payload
  generalize action.bytes = bytes at hle
  rw [Vector.toList_ofFn]
  refine List.ext_getElem ?_ ?_
  · rw [List.length_ofFn, List.length_append, List.length_replicate]
    omega
  · intro i hi hi'
    rw [List.getElem_ofFn, List.getElem_append, List.getD_eq_getElem?_getD]
    split_ifs with hin
    · rw [List.getElem?_eq_getElem hin, Option.getD_some]
    · rw [List.getElem?_eq_none (Nat.not_lt.mp hin), Option.getD_none, List.getElem_replicate]

/-- The payload of an action is padded. -/
theorem padding_payload (action : ProposalAction) :
    validateProposalPayloadPadding action.proposalType action.payload = .ok () := by
  have hdrop (k : ℕ) (hk : action.bytes.length = k) :
      ∀ byte ∈ action.payload.toList.drop k, byte = 0 := by
    rw [toList_payload, List.drop_left' hk]
    exact fun byte hbyte => List.eq_of_mem_replicate hbyte
  unfold validateProposalPayloadPadding
  cases action with
  | upgrade => exact require_eq_ok.mpr (hdrop 0 rfl)
  | fee bps => exact require_eq_ok.mpr (hdrop 2 (by simp [bytes]))
  | spend recipient amount => exact require_eq_ok.mpr (hdrop 40 (by simp [bytes]))
  | limits taskCooldown maxTasks disputeCooldown maxDisputes minStake =>
    exact require_eq_ok.mpr (hdrop 26 (by simp [bytes]))

theorem payload_eq_of_padded {action : ProposalAction} {payload : ProposalPayload} {k : ℕ}
    (hbytes : action.bytes ++ payload.toList.drop k = payload.toList)
    (hlength : action.bytes.length = k) (hzero : ∀ byte ∈ payload.toList.drop k, byte = 0) :
    action.payload = payload := by
  refine Vector.toList_inj.mp ?_
  rw [toList_payload, hlength, ← RulesRegion.drop_eq_replicate hzero, hbytes]

/-- A padded payload is the payload of what it asks for. -/
theorem payload_read {proposalType : ProposalType} {payload : ProposalPayload}
    (h : validateProposalPayloadPadding proposalType payload = .ok ()) :
    (read proposalType payload).payload = payload := by
  have hslice := RulesRegion.slice_append_drop payload
  cases proposalType with
  | ProtocolUpgrade => exact payload_eq_of_padded (k := 0) rfl rfl (require_eq_ok.mp h)
  | FeeChange =>
    refine payload_eq_of_padded (k := 2) ?_ (by simp [read, bytes]) (require_eq_ok.mp h)
    rw [read, bytes, ProposalPayload.newFeeBps, RulesRegion.littleEndian_readLe (by decide)]
    exact hslice 0 2
  | TreasurySpend =>
    refine payload_eq_of_padded (k := 40) ?_ (by simp [read, bytes]) (require_eq_ok.mp h)
    rw [read, bytes, ProposalPayload.recipientKey, ProposalPayload.amount,
      RulesRegion.littleEndian_readLe (by decide), RulesRegion.littleEndian_readLe (by decide),
      List.append_assoc]
    have hamount : RulesRegion.slice payload 32 8 ++ payload.toList.drop 40 =
      payload.toList.drop 32 := hslice 32 8
    rw [hamount]
    exact hslice 0 32
  | RateLimitChange =>
    refine payload_eq_of_padded (k := 26) ?_ (by simp [read, bytes]) (require_eq_ok.mp h)
    have htasks : payload.maxTasksPer24h = RulesRegion.readLe payload 8 1 :=
      (RulesRegion.readLe_one (by decide)).symm
    have hdisputes : payload.maxDisputesPer24h = RulesRegion.readLe payload 17 1 :=
      (RulesRegion.readLe_one (by decide)).symm
    have h18 : RulesRegion.slice payload 18 8 ++ payload.toList.drop 26 =
      payload.toList.drop 18 := hslice 18 8
    have h17 : RulesRegion.slice payload 17 1 ++ payload.toList.drop 18 =
      payload.toList.drop 17 := hslice 17 1
    have h9 : RulesRegion.slice payload 9 8 ++ payload.toList.drop 17 =
      payload.toList.drop 9 := hslice 9 8
    have h8 : RulesRegion.slice payload 8 1 ++ payload.toList.drop 9 =
      payload.toList.drop 8 := hslice 8 1
    rw [read, bytes, htasks, hdisputes, ProposalPayload.taskCreationCooldown,
      ProposalPayload.disputeInitiationCooldown, ProposalPayload.minStakeForDispute,
      ProposalPayload.littleEndian_readI64 (by decide),
      ProposalPayload.littleEndian_readI64 (by decide),
      RulesRegion.littleEndian_readLe (by decide), RulesRegion.littleEndian_readLe (by decide),
      RulesRegion.littleEndian_readLe (by decide)]
    simp only [List.append_assoc]
    rw [h18, h17, h9, h8]
    exact hslice 0 8

/-- What the payload of an admissible action asks for is the action. -/
theorem read_payload {minAgentStake : ℕ} {action : ProposalAction}
    (h : action.Admissible minAgentStake) : read action.proposalType action.payload = action := by
  have hlist := action.toList_payload
  cases action with
  | upgrade => rfl
  | fee bps =>
    have hbound : bps < 256 ^ 2 := Nat.lt_of_le_of_lt h (by decide)
    have hbps : RulesRegion.readLe (fee bps).payload 0 2 = bps :=
      RulesRegion.readLe_written [] hlist rfl hbound
    exact congrArg fee hbps
  | spend recipient amount =>
    obtain ⟨⟨-, hrecipient⟩, -, hamount⟩ := h
    simp only [bytes, List.append_assoc] at hlist
    have hto : RulesRegion.readLe (spend recipient amount).payload 0 32 = recipient :=
      RulesRegion.readLe_written [] hlist rfl hrecipient
    have hof : RulesRegion.readLe (spend recipient amount).payload 32 8 = amount :=
      RulesRegion.readLe_written _ hlist (by simp) hamount
    exact congrArg₂ spend hto hof
  | limits taskCooldown maxTasks disputeCooldown maxDisputes minStake =>
    obtain ⟨⟨htask, htask'⟩, ⟨hdispute, hdispute'⟩, ⟨-, htasks⟩, ⟨-, hdisputes⟩, -, hstake, -⟩ := h
    set payload := (limits taskCooldown maxTasks disputeCooldown maxDisputes minStake).payload
    simp only [bytes, List.append_assoc] at hlist
    have hcooldown {k : ℤ} (hpos : 1 ≤ k) (hmax : k ≤ maxCooldown) : i64Min ≤ k ∧ k ≤ i64Max :=
      ⟨Int.le_trans (by decide) hpos, Int.le_trans hmax (by decide)⟩
    obtain ⟨hmin, hmax⟩ := hcooldown htask htask'
    obtain ⟨hmin', hmax'⟩ := hcooldown hdispute hdispute'
    have h0 : payload.taskCreationCooldown = taskCooldown :=
      ProposalPayload.readI64_written [] hlist rfl hmin hmax
    have h8 : RulesRegion.readLe payload 8 1 = maxTasks :=
      RulesRegion.readLe_written _ hlist (by simp) htasks
    have hlist := hlist.trans (List.append_assoc _ _ _).symm
    have h9 : payload.disputeInitiationCooldown = disputeCooldown :=
      ProposalPayload.readI64_written _ hlist (by simp) hmin' hmax'
    have hlist := hlist.trans (List.append_assoc _ _ _).symm
    have h17 : RulesRegion.readLe payload 17 1 = maxDisputes :=
      RulesRegion.readLe_written _ hlist (by simp) hdisputes
    have hlist := hlist.trans (List.append_assoc _ _ _).symm
    have h18 : payload.minStakeForDispute = minStake :=
      RulesRegion.readLe_written _ hlist (by simp) (Nat.lt_of_le_of_lt hstake (by decide))
    have htasks' : payload.maxTasksPer24h = maxTasks :=
      (RulesRegion.readLe_one (by decide)).symm.trans h8
    have hdisputes' : payload.maxDisputesPer24h = maxDisputes :=
      (RulesRegion.readLe_one (by decide)).symm.trans h17
    show limits payload.taskCreationCooldown payload.maxTasksPer24h
      payload.disputeInitiationCooldown payload.maxDisputesPer24h payload.minStakeForDispute = _
    rw [h0, htasks', h9, hdisputes', h18]

/-- The checks of a payload are those of what it asks for. -/
theorem validate_iff {minAgentStake : ℕ} {proposalType : ProposalType}
    {payload : ProposalPayload} :
    validateProposalPayload proposalType payload minAgentStake = .ok () ↔
      (read proposalType payload).Admissible minAgentStake := by
  cases proposalType with
  | ProtocolUpgrade => exact iff_of_true rfl trivial
  | FeeChange => exact require_eq_ok
  | TreasurySpend =>
    have hrecipient : payload.recipientKey < 256 ^ 32 := RulesRegion.readLe_lt (by decide)
    have hamount : RulesRegion.readLe payload 32 8 < 256 ^ 8 := RulesRegion.readLe_lt (by decide)
    constructor
    · intro h
      obtain ⟨hnamed, hpositive⟩ := require_eq_ok.mp h
      exact ⟨⟨hnamed, hrecipient⟩, hpositive, hamount⟩
    · rintro ⟨⟨hnamed, -⟩, hpositive, -⟩
      exact require_eq_ok.mpr ⟨hnamed, hpositive⟩
  | RateLimitChange =>
    have htasks : payload.maxTasksPer24h < 256 := UInt8.toNat_lt _
    have hdisputes : payload.maxDisputesPer24h < 256 := UInt8.toNat_lt _
    have hlimit : maxRateLimit = 1000 := rfl
    simp only [validateProposalPayload, checkRateLimitChange, bind_eq_ok, require_eq_ok,
      exists_const, read, Admissible]
    constructor
    · rintro ⟨htask, hdispute, h1, -, h2, -, hstake⟩
      exact ⟨htask, hdispute, ⟨h1, htasks⟩, ⟨h2, hdisputes⟩, hstake⟩
    · rintro ⟨htask, hdispute, ⟨h1, -⟩, ⟨h2, -⟩, hstake⟩
      exact ⟨htask, hdispute, h1, by omega, h2, by omega, hstake⟩

/-- **Accepted payloads**: the checks of the creation accept the payload of an admissible action,
and no other payload that asks for it. -/
theorem accepted_iff {minAgentStake : ℕ} {proposalType : ProposalType}
    {payload : ProposalPayload} {action : ProposalAction} :
    validateProposalPayloadPadding proposalType payload = .ok () ∧
        validateProposalPayload proposalType payload minAgentStake = .ok () ∧
        read proposalType payload = action ↔
      action.Admissible minAgentStake ∧ proposalType = action.proposalType ∧
        payload = action.payload := by
  constructor
  · rintro ⟨hpadding, hvalid, rfl⟩
    exact ⟨validate_iff.mp hvalid, (proposalType_read _ _).symm, (payload_read hpadding).symm⟩
  · rintro ⟨hadmissible, rfl, rfl⟩
    have hread := read_payload hadmissible
    refine ⟨padding_payload action, ?_, hread⟩
    rw [validate_iff, hread]
    exact hadmissible

end ProposalAction

/-- What an executed payload does is the effect of what it asks for. -/
theorem Enacts.effect {account : ProposalAccount} {accounts : ExecutionAccounts}
    {config config' : ProtocolConfig} {payment : Option TreasuryPayment}
    (h : Enacts account accounts config config' payment) :
    (config', payment) =
      (ProposalAction.read account.proposalType account.payload).effect config := by
  cases h with
  | upgrade type =>
    rw [type]
    rfl
  | fee type consent bound =>
    rw [type]
    rfl
  | limits type consent checks =>
    rw [type]
    rfl
  | spend type signed named recipient covered =>
    rw [type]
    rfl

/-! ## Runs -/

/-- A step that leaves a proposal executed by its own execution has the effect of its payload. -/
theorem GovernmentStep.effect {g g' : Government} {key : ProposalKey}
    {accounts : ExecutionAccounts} {payments : GovernancePayments}
    (h : GovernmentStep g (.proposal key (.executeProposal accounts), payments) g')
    {account : ProposalAccount} (hafter : g'.proposals.lookup key = some account)
    (hexecuted : account.election.proposal.status = .Executed) :
    (g'.world.config, payments.treasury) =
      (ProposalAction.read account.proposalType account.payload).effect g.world.config := by
  cases h.move with
  | @decided key accounts account₀ proposal' config' payment loaded decides enacts idle =>
    have hwritten : (g.proposals.insert key (account₀.withProposal proposal')).lookup key =
      some account := hafter
    rw [AList.lookup_insert] at hwritten
    obtain rfl := Option.some.inj hwritten
    exact (enacts hexecuted).effect

/-- Each proposal holds the payload of an admissible action. -/
theorem PayloadsSound.asks {g : Government} (h : PayloadsSound g) {key : ProposalKey}
    {account : ProposalAccount} (haccount : g.proposals.lookup key = some account) :
    (ProposalAction.read account.proposalType account.payload).Admissible
        g.world.config.minAgentStake ∧
      account.payload = (ProposalAction.read account.proposalType account.payload).payload := by
  obtain ⟨hpadding, hvalid⟩ := h.payloads key account haccount
  exact ⟨ProposalAction.validate_iff.mp hvalid, (ProposalAction.payload_read hpadding).symm⟩

/-- **Payloads.** In every run each proposal holds the payload of an admissible action; an
admissible action has one accepted payload; and an execution that is carried has the effect of the
action its payload is of. -/
theorem payloads_canonical {start g : Government} {log : List GovernmentEntry}
    (hstart : start.Genesis) (hrun : Run GovernmentStep start log g) :
    (∀ key account, g.proposals.lookup key = some account → ∃ action : ProposalAction,
      action.Admissible g.world.config.minAgentStake ∧
      account.proposalType = action.proposalType ∧ account.payload = action.payload) ∧
    (∀ (action : ProposalAction) (minAgentStake : ℕ), action.Admissible minAgentStake →
      ∃! accepted : ProposalType × ProposalPayload,
        validateProposalPayloadPadding accepted.1 accepted.2 = .ok () ∧
        validateProposalPayload accepted.1 accepted.2 minAgentStake = .ok () ∧
        ProposalAction.read accepted.1 accepted.2 = action) ∧
    ∀ e ∈ log, ∀ key accounts account, e.label.1 = .proposal key (.executeProposal accounts) →
      e.after.proposals.lookup key = some account →
      account.election.proposal.status = .Executed → ∃ action : ProposalAction,
        action.Admissible e.before.world.config.minAgentStake ∧
        account.proposalType = action.proposalType ∧ account.payload = action.payload ∧
        (e.after.world.config, e.label.2.treasury) = action.effect e.before.world.config := by
  refine ⟨?_, ?_, ?_⟩
  · intro key account haccount
    have hpayloads : PayloadsSound g :=
      hrun.invariant (fun _ _ _ hs hg => GovernmentStep.payloads hs hg) hstart.payloads
    obtain ⟨hadmissible, hpayload⟩ := hpayloads.asks haccount
    exact ⟨_, hadmissible, (ProposalAction.proposalType_read _ _).symm, hpayload⟩
  · intro action minAgentStake hadmissible
    refine ⟨(action.proposalType, action.payload), ?_, ?_⟩
    · exact ProposalAction.accepted_iff.mpr ⟨hadmissible, rfl, rfl⟩
    · rintro ⟨proposalType, payload⟩ haccepted
      obtain ⟨-, htype, hpayload⟩ := ProposalAction.accepted_iff.mp haccepted
      exact Prod.ext htype hpayload
  · rintro ⟨before, ⟨i, payments⟩, after⟩ he key accounts account rfl hafter hexecuted
    obtain ⟨hpayloads, hs⟩ := Run.invariant_mem (I := PayloadsSound)
      (fun _ _ _ hs hg => GovernmentStep.payloads hs hg) hrun hstart.payloads he
    obtain ⟨hadmissible, hpayload⟩ := (GovernmentStep.payloads hs hpayloads).asks hafter
    rw [GovernmentStep.minAgentStake hs] at hadmissible
    exact ⟨_, hadmissible, (ProposalAction.proposalType_read _ _).symm, hpayload,
      GovernmentStep.effect hs hafter hexecuted⟩

/-- The fee that is voted on has the one payload of its kind. -/
theorem payloads_canonical_fee :
    ∃ account : ProposalAccount,
      (deployedGovernment.after governmentScript).proposals.lookup (11, 0) = some account ∧
      account.payload = (ProposalAction.fee 100).payload := by
  obtain ⟨log, hrun⟩ := deployedGovernment.run_after governmentScript
  have hfee : ((deployedGovernment.after governmentScript).proposals.lookup (11, 0)).map
      (fun account => ProposalAction.read account.proposalType account.payload) =
        some (.fee 100) := by
    decide +kernel
  obtain ⟨account, haccount, hread⟩ := Option.map_eq_some_iff.mp hfee
  obtain ⟨hasks, -⟩ := payloads_canonical deployedGovernment_genesis hrun
  obtain ⟨action, hadmissible, htype, hpayload⟩ := hasks (11, 0) account haccount
  rw [htype, hpayload, ProposalAction.read_payload hadmissible] at hread
  exact ⟨account, haccount, hread ▸ hpayload⟩

end AgencCoordination
