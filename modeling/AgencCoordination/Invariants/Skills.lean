import AgencCoordination.Effects.Community
import AgencCoordination.Foundations.Tally
import AgencCoordination.Foundations.Versions

/-!
# Skills, their sales and their ratings

* **`CommunityStep.newer`** — a skill only moves to later versions, and one version has one set of
  terms.
* **`SkillsSound`** — the counters of a skill are the numbers and sums of its records, and every
  rating is backed by a qualified purchase of the rater.
* **`SkillSoldAt`** — what a sale checked, and what its record and its payments say.
* **`skills_sold`** — all of it, for every run of the community.
-/

namespace AgencCoordination

open Foundations

/-! ## Single instructions -/

/-- What a buyer of a skill gets, and at what price. -/
def SkillRegistration.terms (skill : SkillRegistration) :
    Hash × Hash × ℕ × Option Pubkey × BitVec 512 × Bool :=
  (skill.name, skill.contentHash, skill.price, skill.priceMint, skill.tags, skill.isActive)

/-- The counters of a skill. -/
def SkillRegistration.counters (skill : SkillRegistration) : ℕ × ℕ × ℕ :=
  (skill.totalRating, skill.ratingCount, skill.downloadCount)

theorem loadAgent_eq_ok {w : World} {key signer : Pubkey} {agent : Account AgentRegistration} :
    loadAgent w key signer = .ok agent ↔
      w.agents.lookup key = some agent ∧ agent.data.authority = signer := by
  simp only [loadAgent, bind_eq_ok, demand_eq_ok, require_eq_ok, Except.ok.injEq]
  constructor
  · intro h
    obtain ⟨_, hagent, _, hauthority, rfl⟩ := h
    exact ⟨hagent, hauthority⟩
  · intro h
    exact ⟨agent, h.1, (), h.2, rfl⟩

theorem registerSkill_spec {w : World} {key : SkillKey} {signer : Pubkey} {p : SkillParams}
    {skill : SkillRegistration} (h : registerSkill w key signer p = .ok skill) :
    skill.version = 1 ∧ skill.counters = (0, 0, 0) := by
  simp only [registerSkill, bind_eq_ok, Except.ok.injEq] at h
  obtain ⟨_, -, _, -, _, -, _, -, _, -, _, -, _, -, rfl⟩ := h
  exact ⟨rfl, rfl⟩

/-- An update takes the next version and no counter. -/
theorem updateSkill_spec {w : World} {key : SkillKey} {signer : Pubkey}
    {skill skill' : SkillRegistration} {u : SkillUpdate}
    (h : updateSkill w key signer skill u = .ok skill') :
    skill'.version = skill.version + 1 ∧ skill'.counters = skill.counters := by
  simp only [updateSkill, nextSkillVersion, bind_eq_ok, lift_eq_ok, addU8_eq_ok,
    Except.ok.injEq] at h
  obtain ⟨_, -, _, -, _, -, _, -, _, -, _, ⟨-, rfl⟩, rfl⟩ := h
  exact ⟨rfl, rfl⟩

/-- What a sale checked of the skill, and what its record and its payments say. -/
structure SkillSoldAt (w : World) (key : SkillKey) (skill : SkillRegistration) (buyer signer : Pubkey)
    (p : SkillPurchase) (record : PurchaseRecord) (sales : List SalePayment) : Prop where
  active : skill.isActive = true
  version : skill.version = p.expectedVersion
  content : skill.contentHash = p.expectedContentHash
  price : skill.price ≤ p.expectedPrice
  stranger : buyer ≠ key.1
  recorded : record.contentVersion = skill.version ∧ record.pricePaid = skill.price
  paid : (sales.map SalePayment.amount).sum = skill.price
  payees : ∃ author, w.agents.lookup key.1 = some author ∧ author.data.authority ≠ signer ∧
    author.data.retired = false ∧ author.data.status ≠ .Suspended ∧
    ∀ s ∈ sales, s.mint = skill.priceMint ∧
      (s.recipient = author.data.authority ∨ s.recipient = w.config.treasury)
  qualified : record.ratingFeeQualified = true → skill.priceMint = none ∧
    ∃ s ∈ sales, s.recipient = w.config.treasury ∧ w.config.treasury ≠ signer ∧
      minRatingProtocolFeeLamports ≤ s.amount

/-- The shares of a price add up to it. -/
theorem splitSkillPrice_eq_ok {price protocolFeeBps authorShare protocolFee : ℕ}
    (h : splitSkillPrice price protocolFeeBps = .ok (authorShare, protocolFee)) :
    authorShare + protocolFee = price := by
  simp only [splitSkillPrice, bind_eq_ok, subU_eq_ok, Except.ok.injEq, Prod.mk.injEq] at h
  obtain ⟨_, ⟨hle, rfl⟩, rfl, rfl⟩ := h
  omega

/-- Leaving out the payments of nothing leaves the sum. -/
theorem sum_skillPayments (mint : Option Pubkey) (author treasury : Pubkey)
    (authorShare protocolFee : ℕ) :
    ((skillPayments mint author treasury authorShare protocolFee).map SalePayment.amount).sum =
      authorShare + protocolFee := by
  unfold skillPayments
  by_cases hauthor : 0 < authorShare <;> by_cases hprotocol : 0 < protocolFee
  · simp [hauthor, hprotocol]
  · simp [hauthor, hprotocol]
    omega
  · simp [hauthor, hprotocol]
    omega
  · simp [hauthor, hprotocol]
    omega

theorem purchaseSkill_spec {w : World} {key : SkillKey} {skill skill' : SkillRegistration}
    {buyer signer : Pubkey} {accounts : SkillSaleAccounts} {p : SkillPurchase}
    {record : PurchaseRecord} {sales : List SalePayment}
    (h : purchaseSkill w key skill buyer signer accounts p = .ok (skill', record, sales)) :
    SkillSoldAt w key skill buyer signer p record sales ∧
      skill' = { skill with downloadCount := skill.downloadCount + 1 } := by
  simp only [purchaseSkill, bind_eq_ok, lift_eq_ok, demand_eq_ok, require_eq_ok, addU32_eq_ok,
    Prod.exists, Except.ok.injEq, Prod.mk.injEq] at h
  obtain ⟨_, -, author, hauthor, _, -, _, -, _, hstanding, _, hactive, _, hstranger, h⟩ := h
  obtain ⟨_, hself, _, hprice, _, hversion, _, hcontent, _, -, authorShare, protocolFee, h⟩ := h
  obtain ⟨hsplit, _, ⟨-, rfl⟩, rfl, rfl, rfl⟩ := h
  refine ⟨⟨hactive, hversion, hcontent, hprice, hstranger, ⟨rfl, rfl⟩, ?_, ?_, ?_⟩, rfl⟩
  · rw [sum_skillPayments, splitSkillPrice_eq_ok hsplit]
  · refine ⟨author, hauthor, Ne.symm hself, hstanding.2, hstanding.1, ?_⟩
    intro s hs
    have hmem := (List.mem_filter.mp hs).1
    rcases List.mem_cons.mp hmem with rfl | hmem
    · exact ⟨rfl, .inl rfl⟩
    · rw [List.mem_singleton.mp hmem]
      exact ⟨rfl, .inr rfl⟩
  · intro hqualified
    dsimp only at hqualified
    rw [Bool.and_eq_true, decide_eq_true_eq, decide_eq_true_eq] at hqualified
    obtain ⟨⟨hmint, htreasury, -⟩, hfee⟩ := hqualified
    refine ⟨hmint, ⟨w.config.treasury, skill.priceMint, protocolFee⟩, ?_, rfl, htreasury, hfee⟩
    refine List.mem_filter.mpr ⟨by simp, decide_eq_true ?_⟩
    have hpositive : 0 < minRatingProtocolFeeLamports := by decide
    exact lt_of_lt_of_le hpositive hfee

/-- A rating adds its weight, and comes from a buyer whose purchase paid the fee. -/
theorem rateSkill_spec {w : World} {key : SkillKey} {skill skill' : SkillRegistration}
    {purchase : PurchaseRecord} {rater signer : Pubkey} {rating : ℕ} {reviewHash : Option Hash}
    {record : SkillRating}
    (h : rateSkill w key skill purchase rater signer rating reviewHash = .ok (skill', record)) :
    (1 ≤ record.rating ∧ record.rating ≤ 5) ∧ rater ≠ key.1 ∧ 0 < purchase.pricePaid ∧
      purchase.ratingFeeQualified = true ∧
      skill' = { skill with
        totalRating := skill.totalRating + record.rating * record.raterReputation
        ratingCount := skill.ratingCount + 1 } := by
  simp only [rateSkill, bind_eq_ok, lift_eq_ok, demand_eq_ok, require_eq_ok, addU64_eq_ok,
    addU32_eq_ok, Except.ok.injEq, Prod.mk.injEq] at h
  obtain ⟨_, -, _, -, _, -, _, -, _, hbounds, _, hself, _, -, _, hpaid, _, hfee, h⟩ := h
  obtain ⟨_, ⟨-, rfl⟩, _, ⟨-, rfl⟩, rfl, rfl⟩ := h
  exact ⟨hbounds, hself, hpaid, hfee, rfl⟩

/-! ## Versions -/

/-- A skill that may come after another. -/
abbrev NewerSkill : SkillRegistration → SkillRegistration → Prop :=
  Newer SkillRegistration.version SkillRegistration.terms

/-- A skill stays, and moves to newer versions only. -/
theorem CommunityStep.newer {c c' : Community} {label : CommunityInstruction × CommunityPayments}
    (h : CommunityStep c label c') {key : SkillKey} {skill : SkillRegistration}
    (hskill : c.skills.lookup key = some skill) :
    ∃ skill', c'.skills.lookup key = some skill' ∧ NewerSkill skill skill' := by
  have hwrite : ∀ {place : SkillKey} {old new : SkillRegistration},
      c.skills.lookup place = some old → NewerSkill old new →
      ∃ skill', (c.skills.insert place new).lookup key = some skill' ∧ NewerSkill skill skill' := by
    intro place old new hold hnewer
    rw [Ledger.lookup_insert_eq_ite]
    split_ifs with hkey
    · subst hkey
      obtain rfl := Option.some.inj (hold.symm.trans hskill)
      exact ⟨new, rfl, hnewer⟩
    · exact ⟨skill, hskill, .refl _⟩
  rcases h.skill with ⟨place, op, -, hmove⟩ | ⟨-, hskills, -⟩
  · generalize label.2.sales = sales at hmove
    cases hmove with
    | registered fresh ran =>
      rw [Ledger.lookup_insert_eq_ite, if_neg]
      · exact ⟨skill, hskill, .refl _⟩
      · rintro rfl
        rw [fresh] at hskill
        cases hskill
    | updated loaded ran =>
      obtain ⟨hversion, -⟩ := updateSkill_spec ran
      exact hwrite loaded (.inl (by omega))
    | purchased loaded unsold ran =>
      obtain ⟨-, rfl⟩ := purchaseSkill_spec ran
      exact hwrite loaded (.inr ⟨rfl, rfl⟩)
    | rated loaded unrated bought ran =>
      obtain ⟨-, -, -, -, rfl⟩ := rateSkill_spec ran
      exact hwrite loaded (.inr ⟨rfl, rfl⟩)
  · rw [hskills]
    exact ⟨skill, hskill, .refl _⟩

/-! ## Counters -/

/-- The skill a record is kept under. -/
def ofSkill {V : Type} (k : SkillKey × Pubkey) (_ : V) : SkillKey := k.1

/-- The weight of a rating: the rating by the reputation of the rater. -/
def SkillRating.weight (r : SkillRating) : ℕ := r.rating * r.raterReputation

/-- The counters of every skill are those of its records, and every rating is backed. -/
structure SkillsSound (c : Community) : Prop where
  counters : ∀ key skill, c.skills.lookup key = some skill → skill.counters =
    (Ledger.tally ofSkill SkillRating.weight key c.skillRatings,
      (Ledger.records ofSkill key c.skillRatings).card,
      (Ledger.records ofSkill key c.purchases).card)
  registered : ∀ key buyer, (c.purchases.lookup (key, buyer)).isSome = true →
    (c.skills.lookup key).isSome = true
  backed : ∀ key rater record, c.skillRatings.lookup (key, rater) = some record →
    (1 ≤ record.rating ∧ record.rating ≤ 5) ∧ rater ≠ key.1 ∧
      ∃ purchase, c.purchases.lookup (key, rater) = some purchase ∧ 0 < purchase.pricePaid ∧
        purchase.ratingFeeQualified = true

theorem Community.Genesis.skillsSound {c : Community} (h : c.Genesis) : SkillsSound c := by
  constructor
  · intro key skill hskill
    rw [h.skills] at hskill
    simp at hskill
  · intro key buyer hbuyer
    rw [h.purchases] at hbuyer
    simp at hbuyer
  · intro key rater record hrecord
    rw [h.skillRatings] at hrecord
    simp at hrecord

/-- Nothing is recorded of a skill that is not there. -/
theorem SkillsSound.unrecorded {c : Community} (h : SkillsSound c) {key : SkillKey}
    (hfresh : c.skills.lookup key = none) :
    (∀ buyer, c.purchases.lookup (key, buyer) = none) ∧
      ∀ rater, c.skillRatings.lookup (key, rater) = none := by
  have hpurchases : ∀ buyer, c.purchases.lookup (key, buyer) = none := by
    intro buyer
    by_contra hsome
    have hregistered := h.registered key buyer (Option.isSome_iff_ne_none.mpr hsome)
    rw [hfresh] at hregistered
    cases hregistered
  refine ⟨hpurchases, fun rater => ?_⟩
  by_contra hsome
  obtain ⟨record, hrecord⟩ := Option.ne_none_iff_exists'.mp hsome
  obtain ⟨-, -, purchase, hpurchase, -⟩ := h.backed key rater record hrecord
  rw [hpurchases rater] at hpurchase
  cases hpurchase

/-- A skill written with the counters of the records keeps them. -/
theorem SkillsSound.write {c : Community} (h : SkillsSound c) {place : SkillKey}
    {new : SkillRegistration} (hnew : new.counters =
      (Ledger.tally ofSkill SkillRating.weight place c.skillRatings,
        (Ledger.records ofSkill place c.skillRatings).card,
        (Ledger.records ofSkill place c.purchases).card)) :
    SkillsSound { c with skills := c.skills.insert place new } where
  counters key skill hskill := by
    rw [Ledger.lookup_insert_eq_ite] at hskill
    split_ifs at hskill with hkey
    · subst hkey
      obtain rfl := Option.some.inj hskill
      exact hnew
    · exact h.counters key skill hskill
  registered key buyer hbuyer := by
    show ((c.skills.insert place new).lookup key).isSome = true
    rw [Ledger.lookup_insert_eq_ite]
    split_ifs
    · rfl
    · exact h.registered key buyer hbuyer
  backed := h.backed

/-- A sale adds its record to the downloads of the skill. -/
theorem SkillsSound.purchase {c : Community} (h : SkillsSound c) {key : SkillKey} {buyer : Pubkey}
    {skill : SkillRegistration} {record : PurchaseRecord}
    (loaded : c.skills.lookup key = some skill)
    (unsold : c.purchases.lookup (key, buyer) = none) :
    SkillsSound { c with
      skills := c.skills.insert key { skill with downloadCount := skill.downloadCount + 1 }
      purchases := c.purchases.insert (key, buyer) record } where
  counters key' skill' hskill' := by
    have hcard : (Ledger.records ofSkill key' (c.purchases.insert (key, buyer) record)).card =
        (Ledger.records ofSkill key' c.purchases).card + if key = key' then 1 else 0 :=
      Ledger.card_records_insert unsold record
    rw [Ledger.lookup_insert_eq_ite] at hskill'
    split_ifs at hskill' with hkey
    · subst hkey
      obtain rfl := Option.some.inj hskill'
      have hold := h.counters key' skill loaded
      simp only [SkillRegistration.counters, Prod.mk.injEq] at hold ⊢
      rw [hcard, if_pos rfl, hold.2.2]
      exact ⟨hold.1, hold.2.1, rfl⟩
    · rw [hcard, if_neg (Ne.symm hkey)]
      exact h.counters key' skill' hskill'
  registered key' buyer' hbuyer := by
    have hlisted : (c.skills.lookup key).isSome = true := by rw [loaded]; rfl
    have hold : (c.skills.lookup key').isSome = true := by
      rw [Ledger.lookup_insert_eq_ite] at hbuyer
      split_ifs at hbuyer with hkey
      · rw [(Prod.mk.inj hkey).1]
        exact hlisted
      · exact h.registered key' buyer' hbuyer
    show ((c.skills.insert key _).lookup key').isSome = true
    rw [Ledger.lookup_insert_eq_ite]
    split_ifs
    · rfl
    · exact hold
  backed key' rater rating hrating := by
    obtain ⟨hbounds, hself, purchase, hpurchase, hpaid⟩ := h.backed key' rater rating hrating
    refine ⟨hbounds, hself, purchase, ?_, hpaid⟩
    show (c.purchases.insert (key, buyer) record).lookup (key', rater) = some purchase
    rw [Ledger.lookup_insert_eq_ite, if_neg]
    · exact hpurchase
    · intro hsame
      rw [hsame, unsold] at hpurchase
      cases hpurchase

/-- A rating adds its weight and one to the counters of the skill. -/
theorem SkillsSound.rate {c : Community} (h : SkillsSound c) {key : SkillKey} {rater : Pubkey}
    {skill : SkillRegistration} {record : SkillRating}
    (loaded : c.skills.lookup key = some skill)
    (unrated : c.skillRatings.lookup (key, rater) = none)
    (hbounds : 1 ≤ record.rating ∧ record.rating ≤ 5) (hself : rater ≠ key.1)
    (hbought : ∃ purchase, c.purchases.lookup (key, rater) = some purchase ∧
      0 < purchase.pricePaid ∧ purchase.ratingFeeQualified = true) :
    SkillsSound { c with
      skills := c.skills.insert key { skill with
        totalRating := skill.totalRating + record.rating * record.raterReputation
        ratingCount := skill.ratingCount + 1 }
      skillRatings := c.skillRatings.insert (key, rater) record } where
  counters key' skill' hskill' := by
    have hcard : (Ledger.records ofSkill key' (c.skillRatings.insert (key, rater) record)).card =
        (Ledger.records ofSkill key' c.skillRatings).card + if key = key' then 1 else 0 :=
      Ledger.card_records_insert unrated record
    have htally : Ledger.tally ofSkill SkillRating.weight key'
          (c.skillRatings.insert (key, rater) record) =
        Ledger.tally ofSkill SkillRating.weight key' c.skillRatings +
          if key = key' then record.weight else 0 :=
      Ledger.tally_insert unrated record
    rw [Ledger.lookup_insert_eq_ite] at hskill'
    split_ifs at hskill' with hkey
    · subst hkey
      obtain rfl := Option.some.inj hskill'
      have hold := h.counters key' skill loaded
      simp only [SkillRegistration.counters, Prod.mk.injEq] at hold ⊢
      rw [hcard, htally, if_pos rfl, if_pos rfl, hold.1, hold.2.1]
      exact ⟨rfl, rfl, hold.2.2⟩
    · rw [hcard, htally, if_neg (Ne.symm hkey), if_neg (Ne.symm hkey)]
      exact h.counters key' skill' hskill'
  registered key' buyer hbuyer := by
    have hold := h.registered key' buyer hbuyer
    show ((c.skills.insert key _).lookup key').isSome = true
    rw [Ledger.lookup_insert_eq_ite]
    split_ifs
    · rfl
    · exact hold
  backed key' rater' rating hrating := by
    rw [Ledger.lookup_insert_eq_ite] at hrating
    split_ifs at hrating with hkey
    · obtain ⟨rfl, rfl⟩ := Prod.mk.inj hkey
      obtain rfl := Option.some.inj hrating
      exact ⟨hbounds, hself, hbought⟩
    · exact h.backed key' rater' rating hrating

theorem SkillMove.skillsSound {c c' : Community} {key : SkillKey} {op : SkillOp}
    {sales : List SalePayment} (h : SkillMove c key op c' sales) (hc : SkillsSound c) :
    SkillsSound c' := by
  cases h with
  | registered fresh ran =>
    obtain ⟨-, hzero⟩ := registerSkill_spec ran
    obtain ⟨hpurchases, hratings⟩ := hc.unrecorded fresh
    refine hc.write ?_
    have hnone : Ledger.records ofSkill key c.skillRatings = ∅ := by
      refine Ledger.records_eq_empty fun k v hv heq => ?_
      obtain ⟨place, rater⟩ := k
      obtain rfl : place = key := heq
      rw [hratings rater] at hv
      cases hv
    have hnobody : Ledger.records ofSkill key c.purchases = ∅ := by
      refine Ledger.records_eq_empty fun k v hv heq => ?_
      obtain ⟨place, buyer⟩ := k
      obtain rfl : place = key := heq
      rw [hpurchases buyer] at hv
      cases hv
    rw [hzero, Ledger.tally, hnone, hnobody]
    rfl
  | updated loaded ran =>
    obtain ⟨-, hsame⟩ := updateSkill_spec ran
    refine hc.write ?_
    rw [hsame]
    exact hc.counters key _ loaded
  | purchased loaded unsold ran =>
    obtain ⟨-, rfl⟩ := purchaseSkill_spec ran
    exact hc.purchase loaded unsold
  | rated loaded unrated bought ran =>
    obtain ⟨hbounds, hself, hpaid, hfee, rfl⟩ := rateSkill_spec ran
    exact hc.rate loaded unrated hbounds hself ⟨_, bought, hpaid, hfee⟩

theorem CommunityStep.skillsSound {c c' : Community}
    {label : CommunityInstruction × CommunityPayments} (h : CommunityStep c label c')
    (hc : SkillsSound c) : SkillsSound c' := by
  rcases h.skill with ⟨key, op, -, hmove⟩ | ⟨-, hskills, hpurchases, hratings⟩
  · exact hmove.skillsSound hc
  · constructor
    · rw [hskills, hpurchases, hratings]
      exact hc.counters
    · rw [hskills, hpurchases]
      exact hc.registered
    · rw [hpurchases, hratings]
      exact hc.backed

/-! ## Sales -/

/-- The sale of the skill at `key` to the agent `buyer`. -/
def isSkillSale (key : SkillKey) (buyer : Pubkey) (e : CommunityEntry) : Bool :=
  match e.label.1 with
  | .skill key' (.purchase buyer' _ _ _) => decide (key' = key ∧ buyer' = buyer)
  | _ => false

/-- A purchase record is written by a sale to its buyer, when there is none. -/
theorem CommunityStep.purchase {e : CommunityEntry} (h : CommunityStep e.before e.label e.after)
    (key : SkillKey) (buyer : Pubkey) :
    e.after.purchases.lookup (key, buyer) = e.before.purchases.lookup (key, buyer) ∧
        isSkillSale key buyer e = false ∨
      e.before.purchases.lookup (key, buyer) = none ∧
        (e.after.purchases.lookup (key, buyer)).isSome = true ∧
        isSkillSale key buyer e = true := by
  unfold isSkillSale
  rcases h.skill with ⟨key', op, hop, hmove⟩ | ⟨hother, -, hpurchases, -⟩
  · rw [hop]
    generalize e.label.2.sales = sales at hmove
    generalize e.after = after at hmove
    cases hmove with
    | registered fresh ran => exact .inl ⟨rfl, rfl⟩
    | updated loaded ran => exact .inl ⟨rfl, rfl⟩
    | @purchased buyer' _ _ _ _ _ _ _ loaded unsold ran =>
      by_cases hkey : (key, buyer) = (key', buyer')
      · obtain ⟨rfl, rfl⟩ := Prod.mk.inj hkey
        refine .inr ⟨unsold, ?_, decide_eq_true ⟨rfl, rfl⟩⟩
        rw [AList.lookup_insert]
        rfl
      · refine .inl ⟨AList.lookup_insert_ne hkey, decide_eq_false ?_⟩
        rintro ⟨rfl, rfl⟩
        exact hkey rfl
    | rated loaded unrated bought ran => exact .inl ⟨rfl, rfl⟩
  · refine .inl ⟨by rw [hpurchases], ?_⟩
    split
    · rename_i hlabel
      exact absurd hlabel (hother _ _)
    · rfl

/-- A sale of a skill under a version that was read sells the terms that were read. -/
theorem sale_of_read {mid c : Community} {log : List CommunityEntry}
    (hrun : Run CommunityStep mid log c) {key : SkillKey} {read : SkillRegistration}
    (hread : mid.skills.lookup key = some read) {e : CommunityEntry} (he : e ∈ log)
    {buyer signer : Pubkey} {accounts : SkillSaleAccounts} {p : SkillPurchase}
    (hlabel : e.label.1 = .skill key (.purchase buyer signer accounts p))
    (hversion : p.expectedVersion = read.version) :
    ∃ skill record, skill.terms = read.terms ∧
      SkillSoldAt e.before.market.world key skill buyer signer p record e.label.2.sales ∧
      c.purchases.lookup (key, buyer) = some record := by
  obtain ⟨log₁, log₂, -, hbefore, hs, hrest⟩ := hrun.split_mem he
  obtain ⟨skill, hskill, hnewer⟩ : ∃ skill, e.before.skills.lookup key = some skill ∧
      NewerSkill read skill :=
    newer_of_run (fun c => c.skills.lookup key) (fun _ _ _ hs _ => hs.newer) hbefore hread
  rcases hs.skill with ⟨_, _, hop, hmove⟩ | ⟨hother, -⟩
  · rw [hlabel] at hop
    obtain ⟨rfl, rfl⟩ := CommunityInstruction.skill.inj hop
    generalize e.label.2.sales = sales at hmove
    generalize e.after = after at hmove hrest
    cases hmove with
    | @purchased _ _ _ _ sold _ record _ loaded unsold ran =>
      obtain ⟨hsold, -⟩ := purchaseSkill_spec ran
      obtain rfl := Option.some.inj (hskill.symm.trans loaded)
      refine ⟨skill, record, hnewer.terms_eq (hsold.version.trans hversion), hsold, ?_⟩
      · refine hrest.written_stays (fun c => c.purchases.lookup (key, buyer))
          (fun e hs => hs.purchase key buyer) ?_
        exact AList.lookup_insert _
  · exact absurd hlabel (hother _ _)

/-- Skills in every run. The counters of a skill are the number of its sales, the number of its
ratings and the sum of their weights; every rating is backed by a qualified purchase of the rater;
each buyer is sold a skill once; and a sale under a version that the buyer read at any earlier time
sells exactly the terms that were read, at that price, to payees in good standing. -/
theorem skills_sold {start mid c : Community} {log₁ log₂ : List CommunityEntry}
    (hstart : start.Genesis) (hbefore : Run CommunityStep start log₁ mid)
    (hafter : Run CommunityStep mid log₂ c) :
    SkillsSound c ∧
    (∀ key buyer, (log₁ ++ log₂).countP (isSkillSale key buyer) =
      if (c.purchases.lookup (key, buyer)).isSome = true then 1 else 0) ∧
    (∀ key read, mid.skills.lookup key = some read → ∀ e ∈ log₂, ∀ buyer signer accounts p,
      e.label.1 = .skill key (.purchase buyer signer accounts p) →
      p.expectedVersion = read.version →
      ∃ skill record, skill.terms = read.terms ∧
        SkillSoldAt e.before.market.world key skill buyer signer p record e.label.2.sales ∧
        c.purchases.lookup (key, buyer) = some record) := by
  have hrun := hbefore.append hafter
  refine ⟨?_, ?_, ?_⟩
  · exact hrun.invariant (fun _ _ _ hs hm => hs.skillsSound hm) hstart.skillsSound
  · intro key buyer
    refine hrun.countP_written (fun c => c.purchases.lookup (key, buyer))
      (fun e hs => hs.purchase key buyer) ?_
    rw [hstart.purchases]
    rfl
  · intro key read hread e he buyer signer accounts p hlabel hversion
    exact sale_of_read hafter hread he hlabel hversion

/-- An author lists a skill and updates it. -/
def skillScript : List CommunityInstruction :=
  [.market (.core {} (.admin [1, 3] (.updateLaunchControls false [] 8))),
    .market (.core {} (.admin [1, 3] (.updateProtocolFee 100))),
    .market (.core {} (.agent 11 (.registerAgent 101 1 1000000 0))),
    .market (.core {} (.agent 12 (.registerAgent 102 1 1000000 0))),
    .skill (11, 5) (.register 101 ⟨7, 77, 3000000000, none, 0⟩),
    .skill (11, 5) (.update 101 { contentHash := 78, price := 4000000000 })]

/-- A buyer who read the update buys it and rates it. -/
def skillSales : List CommunityInstruction :=
  [.skill (11, 5) (.purchase 12 102 {} ⟨5000000000, 2, 78⟩),
    .skill (11, 5) (.rate 12 102 4 none)]

/-- The buyer is sold the skill that was read, at the price that was read. -/
theorem skills_sold_updated :
    ∃ log₁ log₂,
      Run CommunityStep deployedCommunity log₁ (deployedCommunity.after skillScript) ∧
      Run CommunityStep (deployedCommunity.after skillScript) log₂
        ((deployedCommunity.after skillScript).after skillSales) ∧
      (log₁ ++ log₂).countP (isSkillSale (11, 5) 12) = 1 ∧
      SkillsSound ((deployedCommunity.after skillScript).after skillSales) ∧
      (((deployedCommunity.after skillScript).after skillSales).skills.lookup (11, 5)).map
        SkillRegistration.counters = some (12000, 1, 1) := by
  obtain ⟨log₁, hbefore⟩ := deployedCommunity.run_after skillScript
  obtain ⟨log₂, hafter⟩ := (deployedCommunity.after skillScript).run_after skillSales
  obtain ⟨hsound, hsales, -⟩ := skills_sold deployedCommunity_genesis hbefore hafter
  refine ⟨log₁, log₂, hbefore, hafter, ?_, hsound, by decide +kernel⟩
  rw [hsales, if_pos]
  decide +kernel

end AgencCoordination
