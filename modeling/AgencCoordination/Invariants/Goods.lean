import AgencCoordination.Effects.Market

/-!
# Goods and their receipts

* **`splitGoodPrice_exact`** — up to the top of `u64` and at any admissible fees a price splits
  exactly, and the seller keeps at least three fifths of it.
* **`GoodsSound`** — a listing never sells more than its supply, and its receipts are those of
  the serials below its count of sales.
* **`SoldAt`** — what a sale checked, and what its receipt says about the listing of the moment.
* **`goods_sold`** — all of it, for every run of the marketplace.
-/

namespace AgencCoordination

open Foundations

/-! ## The price split -/

/-- A fee of at most ten thousand basis points is part of its base. -/
theorem mul_bps_div_le {price bps : ℕ} (hbps : bps ≤ basisPointsDivisor) :
    price * bps / basisPointsDivisor ≤ price := by
  have hle : price * bps ≤ price * basisPointsDivisor := Nat.mul_le_mul_left price hbps
  have hdiv := Nat.div_le_div_right (c := basisPointsDivisor) hle
  rwa [Nat.mul_div_cancel price (show 0 < basisPointsDivisor by decide)] at hdiv

/-- Of a `u64` no fee is cut off. -/
theorem bpsOf_eq {price bps : ℕ} (hprice : price < u64Limit) (hbps : bps ≤ basisPointsDivisor) :
    bpsOf price bps = price * bps / basisPointsDivisor := by
  unfold bpsOf
  exact Nat.mod_eq_of_lt ((mul_bps_div_le hbps).trans_lt hprice)

/-- Two floored fees leave the seller the complement of their sum. -/
theorem seller_floor {price p o : ℕ} (hsum : p + o ≤ maxCombinedFeeBps) :
    workerFloorBps * price + basisPointsDivisor *
        (price * p / basisPointsDivisor + price * o / basisPointsDivisor) ≤
      basisPointsDivisor * price := by
  have hp : basisPointsDivisor * (price * p / basisPointsDivisor) ≤ price * p :=
    Nat.mul_div_le _ _
  have ho : basisPointsDivisor * (price * o / basisPointsDivisor) ≤ price * o :=
    Nat.mul_div_le _ _
  have hboth : price * (p + o) ≤ price * maxCombinedFeeBps := Nat.mul_le_mul_left price hsum
  calc workerFloorBps * price + basisPointsDivisor *
        (price * p / basisPointsDivisor + price * o / basisPointsDivisor)
      = workerFloorBps * price + (basisPointsDivisor * (price * p / basisPointsDivisor) +
          basisPointsDivisor * (price * o / basisPointsDivisor)) := by rw [Nat.mul_add]
    _ ≤ workerFloorBps * price + (price * p + price * o) := by omega
    _ = workerFloorBps * price + price * (p + o) := by rw [Nat.mul_add]
    _ ≤ workerFloorBps * price + price * maxCombinedFeeBps := by omega
    _ = basisPointsDivisor * price := by
        simp only [workerFloorBps, maxCombinedFeeBps, basisPointsDivisor]
        omega

/-- The shares of a price that a listing may ask are exact and leave the seller's floor. -/
theorem splitGoodPrice_exact {price protocolFeeBps operatorFeeBps : ℕ} (hprice : price < u64Limit)
    (hprotocol : protocolFeeBps ≤ 2000) (hoperator : operatorFeeBps ≤ maxOperatorFeeBps) :
    ∃ seller protocol operator,
      splitGoodPrice price protocolFeeBps operatorFeeBps = .ok (seller, protocol, operator) ∧
        seller + protocol + operator = price ∧
        workerFloorBps * price ≤ basisPointsDivisor * seller := by
  have hcap : protocolFeeBps + operatorFeeBps ≤ maxCombinedFeeBps := by
    simp only [maxOperatorFeeBps, maxCombinedFeeBps] at *
    omega
  have hfloor := @seller_floor price _ _ hcap
  have hp : bpsOf price protocolFeeBps = price * protocolFeeBps / basisPointsDivisor :=
    bpsOf_eq hprice (hprotocol.trans (by decide))
  have ho : bpsOf price operatorFeeBps = price * operatorFeeBps / basisPointsDivisor :=
    bpsOf_eq hprice (hoperator.trans (by decide))
  rw [← hp, ← ho] at hfloor
  simp only [workerFloorBps, basisPointsDivisor] at hfloor
  have hfees : bpsOf price protocolFeeBps + bpsOf price operatorFeeBps ≤ price := by omega
  refine ⟨price - bpsOf price protocolFeeBps - bpsOf price operatorFeeBps,
    bpsOf price protocolFeeBps, bpsOf price operatorFeeBps, ?_, by omega, ?_⟩
  · have hcombined : calculateCombinedFees price protocolFeeBps operatorFeeBps 0 =
        .ok (bpsOf price operatorFeeBps, bpsOf price 0) := by
      simp only [calculateCombinedFees, bind_eq_ok, require_eq_ok]
      refine ⟨(), hoperator, (), by decide, (), hcap, (), ?_, trivial⟩
      simp only [workerFloorBps, basisPointsDivisor, maxCombinedFeeBps] at hcap ⊢
      omega
    simp only [splitGoodPrice, hcombined, bind_eq_ok, subU_eq_ok]
    exact ⟨_, rfl, _, ⟨by omega, rfl⟩, _, ⟨by omega, rfl⟩, rfl⟩
  · simp only [workerFloorBps, basisPointsDivisor]
    omega

/-! ## Single instructions -/

/-- What a sale checked of the marketplace, and what it writes about the listing of that
moment. -/
structure SoldAt (m : Market) (good : GoodsListing) (buyer : Pubkey) (p : PurchaseParams)
    (receipt : SaleReceipt) : Prop where
  serial : p.expectedSerial = good.soldCount
  inStock : good.soldCount < good.totalSupply
  buyer : receipt.buyer = buyer
  price : receipt.pricePaid = good.price
  agreed : good.price ≤ p.expectedPrice
  metadata : receipt.metadataHash = good.metadataHash
  split : ∃ seller, splitGoodPrice good.price m.world.config.protocolFeeBps good.operatorFeeBps =
    .ok (seller, receipt.protocolFee, receipt.operatorFee)
  unblocked : ¬m.moderation.Blocked good.metadataHash
  seller : ∃ agent, m.world.agents.lookup good.seller = some agent ∧
    agent.data.status ≠ .Suspended ∧ agent.data.retired = false

theorem purchaseGood_spec {m : Market} {good good' : GoodsListing} {buyer : Pubkey}
    {accounts : SaleAccounts} {p : PurchaseParams} {receipt : SaleReceipt}
    {payments : List SalePayment}
    (h : purchaseGood m.world m.moderation good buyer accounts p =
      .ok (good', receipt, payments)) :
    SoldAt m good buyer p receipt ∧ good' = { good with soldCount := good.soldCount + 1 } := by
  simp only [purchaseGood, bind_eq_ok, demand_eq_ok, require_eq_ok, Prod.exists, addU64_eq_ok,
    subU_eq_ok, requireContentNotBlocked, Except.ok.injEq, Prod.mk.injEq] at h
  obtain ⟨agent, hagent, _, -, _, -, _, hstatus, _, -, _, hstock, _, hserial, h⟩ := h
  obtain ⟨_, hprice, _, -, _, -, _, hblock, seller, protocolFee, operatorFee, hsplit, h⟩ := h
  obtain ⟨_, -, _, -, _, ⟨-, rfl⟩, _, -, rfl, rfl, rfl⟩ := h
  exact ⟨⟨hserial, hstock, rfl, rfl, hprice, rfl, ⟨seller, hsplit⟩, hblock, agent, hagent,
    hstatus⟩, rfl⟩

/-- An update changes terms and adds supply; it never touches the count of sales. -/
theorem updateGoodsListing_spec {w : World} {key signer : Pubkey} {good good' : GoodsListing}
    {u : GoodsUpdate} (h : updateGoodsListing w key signer good u = .ok good') :
    good'.soldCount = good.soldCount ∧ good.totalSupply ≤ good'.totalSupply := by
  simp only [updateGoodsListing, bind_eq_ok, Except.ok.injEq] at h
  obtain ⟨_, -, _, -, _, -, _, -, _, -, _, -, _, -, described, hdescribed, h⟩ := h
  obtain ⟨stocked, hstocked, operated, hoperated, rfl⟩ := h
  have hmetadata : described.soldCount = good.soldCount ∧
      described.totalSupply = good.totalSupply := by
    unfold updateGoodsMetadata at hdescribed
    split at hdescribed
    · simp only [bind_eq_ok, Except.ok.injEq] at hdescribed
      obtain ⟨_, -, rfl⟩ := hdescribed
      exact ⟨rfl, rfl⟩
    · obtain rfl := Except.ok.inj hdescribed
      exact ⟨rfl, rfl⟩
    · cases hdescribed
  have hstock : stocked.soldCount = described.soldCount ∧
      described.totalSupply ≤ stocked.totalSupply := by
    unfold restockGoods at hstocked
    split at hstocked
    · simp only [bind_eq_ok, addU64_eq_ok, Except.ok.injEq] at hstocked
      obtain ⟨_, -, _, ⟨-, rfl⟩, _, -, rfl⟩ := hstocked
      exact ⟨rfl, Nat.le_add_right _ _⟩
    · obtain rfl := Except.ok.inj hstocked
      exact ⟨rfl, le_rfl⟩
  have hoperator : operated.soldCount = stocked.soldCount ∧
      operated.totalSupply = stocked.totalSupply := by
    unfold updateGoodsOperator at hoperated
    split at hoperated
    · simp only [bind_eq_ok, Except.ok.injEq] at hoperated
      obtain ⟨_, -, rfl⟩ := hoperated
      exact ⟨rfl, rfl⟩
    · obtain rfl := Except.ok.inj hoperated
      exact ⟨rfl, rfl⟩
  constructor
  · change operated.soldCount = good.soldCount
    rw [hoperator.1, hstock.1, hmetadata.1]
  · change good.totalSupply ≤ operated.totalSupply
    rw [hoperator.2, ← hmetadata.2]
    exact hstock.2

theorem createGoodsListing_spec {w : World} {m : Moderation} {key seller signer : Pubkey}
    {p : GoodsParams} {good : GoodsListing}
    (h : createGoodsListing w m key seller signer p = .ok good) : good.soldCount = 0 := by
  simp only [createGoodsListing, bind_eq_ok, Except.ok.injEq] at h
  obtain ⟨_, -, _, -, _, -, _, -, _, -, _, -, _, -, _, -, _, -, _, -, _, -, _, -, rfl⟩ := h
  rfl

/-! ## The invariant -/

/-- Listings within their supply, and the receipts of the serials they have sold. -/
structure GoodsSound (m : Market) : Prop where
  supply : ∀ key good, m.goods.lookup key = some good → good.soldCount ≤ good.totalSupply
  receipts : ∀ key serial, (m.receipts.lookup (key, serial)).isSome = true ↔
    ∃ good, m.goods.lookup key = some good ∧ serial < good.soldCount

theorem Market.Genesis.goodsSound {m : Market} (h : m.Genesis) : GoodsSound m := by
  constructor
  · intro key good hgood
    rw [h.goods] at hgood
    simp at hgood
  · intro key serial
    rw [h.receipts, h.goods]
    simp

/-- A listing written at `key` with the same count of sales keeps the receipts right. -/
theorem GoodsSound.write {m : Market} (h : GoodsSound m) {key : Pubkey} {good' : GoodsListing}
    (hsupply : good'.soldCount ≤ good'.totalSupply)
    (hsold : ∀ serial, serial < good'.soldCount ↔
      ∃ good, m.goods.lookup key = some good ∧ serial < good.soldCount) :
    GoodsSound { m with goods := m.goods.insert key good' } := by
  constructor
  · intro key' good hgood
    rw [Ledger.lookup_insert_eq_ite] at hgood
    split_ifs at hgood with hkey
    · obtain rfl := Option.some.inj hgood
      exact hsupply
    · exact h.supply key' good hgood
  · intro key' serial
    change (m.receipts.lookup (key', serial)).isSome = true ↔ _
    rw [h.receipts, Ledger.lookup_insert_eq_ite]
    split_ifs with hkey
    · subst hkey
      rw [← hsold]
      simp
    · exact Iff.rfl

theorem GoodsMove.goodsSound {m m' : Market} {key : Pubkey} {op : GoodsOp}
    {sales : List SalePayment} (h : GoodsMove m key op m' sales) (hm : GoodsSound m) :
    GoodsSound m' := by
  cases h with
  | created fresh ran =>
    have hsold := createGoodsListing_spec ran
    refine hm.write (by omega) fun serial => ?_
    rw [hsold, fresh]
    simp
  | updated loaded ran =>
    obtain ⟨hsold, htotal⟩ := updateGoodsListing_spec ran
    refine hm.write ?_ fun serial => ?_
    · have hle := hm.supply _ _ loaded
      omega
    · rw [hsold, loaded]
      simp
  | @purchased buyer accounts params good good' receipt payments loaded unsold ran =>
    obtain ⟨hsale, rfl⟩ := purchaseGood_spec ran
    constructor
    · intro key' other hother
      rw [Ledger.lookup_insert_eq_ite] at hother
      split_ifs at hother with hkey
      · obtain rfl := Option.some.inj hother
        exact hsale.inStock
      · exact hm.supply key' other hother
    · intro key' serial
      have hold := hm.receipts key' serial
      rw [Ledger.lookup_insert_eq_ite, Ledger.lookup_insert_eq_ite]
      by_cases hkey : key' = key
      · subst hkey
        rw [loaded] at hold
        simp only [Option.some.injEq, exists_eq_left', Prod.mk.injEq, true_and, if_true,
          hsale.serial] at hold ⊢
        by_cases hserial : serial = good.soldCount
        · simp [hserial]
        · rw [if_neg hserial, hold]
          omega
      · rw [if_neg fun heq => hkey (Prod.mk.inj heq).1, if_neg hkey]
        exact hold

theorem MarketStep.goodsSound {m m' : Market} {label : MarketInstruction × Payments}
    (h : MarketStep m label m') (hm : GoodsSound m) : GoodsSound m' := by
  rcases MarketStep.goods h with ⟨key, op, -, hmove⟩ | ⟨-, hgoods, hreceipts⟩
  · exact hmove.goodsSound hm
  · constructor
    · rw [hgoods]
      exact hm.supply
    · rw [hgoods, hreceipts]
      exact hm.receipts

/-! ## Runs -/

/-- The sale of the unit `serial` of the listing at `key`. -/
def isSale (key : Pubkey) (serial : ℕ) (e : MarketEntry) : Bool :=
  match e.label.1 with
  | .goods key' (.purchase _ _ p) => decide (key' = key ∧ p.expectedSerial = serial)
  | _ => false

/-- Receipts are never changed or closed. -/
theorem MarketStep.receipt {m m' : Market} {label : MarketInstruction × Payments}
    (h : MarketStep m label m') {key : Pubkey × ℕ} {receipt : SaleReceipt}
    (hreceipt : m.receipts.lookup key = some receipt) :
    m'.receipts.lookup key = some receipt := by
  rcases MarketStep.goods h with ⟨_, op, -, hmove⟩ | ⟨-, -, hreceipts⟩
  · generalize label.2.sales = sales at hmove
    cases hmove with
    | created fresh ran => exact hreceipt
    | updated loaded ran => exact hreceipt
    | purchased loaded unsold ran =>
      rw [Ledger.lookup_insert_eq_ite, if_neg, hreceipt]
      rintro rfl
      rw [unsold] at hreceipt
      cases hreceipt
  · rw [hreceipts]
    exact hreceipt

/-- A sale mints its receipt. -/
theorem isSale_mints {key : Pubkey} {serial : ℕ} {e : MarketEntry}
    (h : MarketStep e.before e.label e.after) (hsale : isSale key serial e = true) :
    e.before.receipts.lookup (key, serial) = none ∧
      (e.after.receipts.lookup (key, serial)).isSome = true := by
  unfold isSale at hsale
  split at hsale
  · rename_i key' buyer accounts p hlabel
    obtain ⟨rfl, rfl⟩ := of_decide_eq_true hsale
    rcases MarketStep.goods h with ⟨_, _, hop, hmove⟩ | ⟨hother, -⟩
    · rw [hlabel] at hop
      obtain ⟨rfl, rfl⟩ := MarketInstruction.goods.inj hop
      generalize hsales : e.label.2.sales = sales at hmove
      generalize hafter : e.after = after at hmove
      cases hmove with
      | purchased loaded unsold ran =>
        refine ⟨unsold, ?_⟩
        rw [AList.lookup_insert]
        rfl
    · exact absurd hlabel (hother _ _)
  · cases hsale

/-- A receipt that was not there before comes from its sale. -/
theorem isSale_of_mints {key : Pubkey} {serial : ℕ} {e : MarketEntry}
    (h : MarketStep e.before e.label e.after)
    (hbefore : ¬(e.before.receipts.lookup (key, serial)).isSome = true)
    (hafter : (e.after.receipts.lookup (key, serial)).isSome = true) :
    isSale key serial e = true := by
  rcases MarketStep.goods h with ⟨key', op, hop, hmove⟩ | ⟨-, -, hreceipts⟩
  · unfold isSale
    rw [hop]
    generalize e.label.2.sales = sales at hmove
    generalize e.after = after at hmove hafter
    cases hmove with
    | created fresh ran => exact absurd hafter hbefore
    | updated loaded ran => exact absurd hafter hbefore
    | purchased loaded unsold ran =>
      rw [Ledger.lookup_insert_eq_ite] at hafter
      split_ifs at hafter with hkey
      · obtain ⟨rfl, rfl⟩ := Prod.mk.inj hkey
        exact decide_eq_true ⟨rfl, rfl⟩
      · exact absurd hafter hbefore
  · rw [hreceipts] at hafter
    exact absurd hafter hbefore

/-- A receipt is minted once, by the sale of its serial. -/
theorem sales_of_receipt {start m : Market} {log : List MarketEntry} (hstart : start.Genesis)
    (hrun : Run MarketStep start log m) (key : Pubkey) (serial : ℕ) :
    log.countP (isSale key serial) =
      if (m.receipts.lookup (key, serial)).isSome = true then 1 else 0 := by
  refine hrun.countP_eq (I := fun _ => True)
    (Q := fun m => (m.receipts.lookup (key, serial)).isSome = true)
    (fun _ _ _ _ _ => trivial) ?_ ?_ ?_ trivial ?_
  · intro e hs _ hsale
    obtain ⟨hnone, hsome⟩ := isSale_mints hs hsale
    exact ⟨by rw [hnone]; simp, hsome⟩
  · intro s label s' hs _ hsome
    obtain ⟨receipt, hreceipt⟩ := Option.isSome_iff_exists.mp hsome
    rw [hs.receipt hreceipt]
    rfl
  · intro e hs _ hbefore hafter
    exact isSale_of_mints hs hbefore hafter
  · rw [hstart.receipts]
    simp

/-- The receipt of a sale says what the listing said when it was made, and lasts. -/
theorem receipt_of_sale {start m : Market} {log : List MarketEntry}
    (hrun : Run MarketStep start log m) {e : MarketEntry} (he : e ∈ log) {key buyer : Pubkey}
    {accounts : SaleAccounts} {p : PurchaseParams}
    (hlabel : e.label.1 = .goods key (.purchase buyer accounts p)) :
    ∃ good receipt, e.before.goods.lookup key = some good ∧
      SoldAt e.before good buyer p receipt ∧
      m.receipts.lookup (key, p.expectedSerial) = some receipt := by
  obtain ⟨log₁, log₂, -, -, hs, hrest⟩ := hrun.split_mem he
  rcases MarketStep.goods hs with ⟨_, _, hop, hmove⟩ | ⟨hother, -⟩
  · rw [hlabel] at hop
    obtain ⟨rfl, rfl⟩ := MarketInstruction.goods.inj hop
    generalize e.label.2.sales = sales at hmove
    generalize e.after = after at hmove hrest
    cases hmove with
    | @purchased _ _ _ good good' receipt _ loaded unsold ran =>
      refine ⟨good, receipt, loaded, (purchaseGood_spec ran).1, ?_⟩
      refine hrest.invariant
        (I := fun m => m.receipts.lookup (key, p.expectedSerial) = some receipt)
        (fun _ _ _ hs hm => hs.receipt hm) ?_
      exact AList.lookup_insert _
  · exact absurd hlabel (hother _ _)

/-- Goods in every run: supply is never oversold, the receipts of a listing are those of the
serials below its count and each was minted by one sale, which paid the listing's price of that
moment to a seller in good standing for content that carried no BLOCK; and every price splits
exactly. -/
theorem goods_sold {start m : Market} {log : List MarketEntry} (hstart : start.Genesis)
    (hrun : Run MarketStep start log m) :
    (∀ key good, m.goods.lookup key = some good → good.soldCount ≤ good.totalSupply) ∧
    (∀ key serial, (m.receipts.lookup (key, serial)).isSome = true ↔
      ∃ good, m.goods.lookup key = some good ∧ serial < good.soldCount) ∧
    (∀ key serial, log.countP (isSale key serial) =
      if (m.receipts.lookup (key, serial)).isSome = true then 1 else 0) ∧
    (∀ e ∈ log, ∀ key buyer accounts p,
      e.label.1 = .goods key (.purchase buyer accounts p) →
      ∃ good receipt, e.before.goods.lookup key = some good ∧
        SoldAt e.before good buyer p receipt ∧
        m.receipts.lookup (key, p.expectedSerial) = some receipt) ∧
    (∀ price protocolFeeBps operatorFeeBps, price < u64Limit → protocolFeeBps ≤ 2000 →
      operatorFeeBps ≤ maxOperatorFeeBps →
      ∃ seller protocol operator,
        splitGoodPrice price protocolFeeBps operatorFeeBps = .ok (seller, protocol, operator) ∧
          seller + protocol + operator = price ∧
          workerFloorBps * price ≤ basisPointsDivisor * seller) := by
  have hsound : GoodsSound m :=
    hrun.invariant (fun _ _ _ hs hm => hs.goodsSound hm) hstart.goodsSound
  refine ⟨hsound.supply, hsound.receipts, sales_of_receipt hstart hrun, ?_, ?_⟩
  · intro e he key buyer accounts p hlabel
    exact receipt_of_sale hrun he hlabel
  · intro price protocolFeeBps operatorFeeBps hprice hprotocol hoperator
    exact splitGoodPrice_exact hprice hprotocol hoperator

/-- A seller lists two units, sells one, raises the price and restocks, and sells another. -/
def saleScript : List MarketInstruction :=
  [.core {} (.admin [1, 3] (.updateLaunchControls false [] 8)),
    .core {} (.agent 11 (.registerAgent 101 1 1000000 0)),
    .goods 60 (.create 11 101 ⟨5, 6, 77, "agenc://good/77", 1000, none, 0, 2, 0, 0⟩),
    .goods 60 (.purchase 200 {} ⟨0, 1500, 77⟩),
    .goods 60 (.update 101 { price := some 4000, additionalSupply := some 3 }),
    .goods 60 (.purchase 201 {} ⟨1, 4000, 77⟩)]

/-- Both units of the script have one receipt each, of one sale each. -/
theorem goods_sold_restocked :
    ∃ log, Run MarketStep deployedMarket log (deployedMarket.after saleScript) ∧
      log.countP (isSale 60 0) = 1 ∧ log.countP (isSale 60 1) = 1 ∧
      ∃ good, (deployedMarket.after saleScript).goods.lookup 60 = some good ∧
        good.soldCount = 2 ∧ good.totalSupply = 5 ∧ good.soldCount ≤ good.totalSupply := by
  obtain ⟨log, hrun⟩ := deployedMarket.run_after saleScript
  obtain ⟨hsupply, hreceipts, hsales, -, -⟩ := goods_sold deployedMarket_genesis hrun
  have hlisting : ((deployedMarket.after saleScript).goods.lookup 60).map (fun good =>
      (good.soldCount, good.totalSupply)) = some (2, 5) := by
    decide +kernel
  obtain ⟨good, hgood, hfields⟩ := Option.map_eq_some_iff.mp hlisting
  obtain ⟨hsold, htotal⟩ := Prod.mk.inj hfields
  have hminted : ∀ serial < 2,
      ((deployedMarket.after saleScript).receipts.lookup (60, serial)).isSome = true := by
    intro serial hserial
    exact (hreceipts 60 serial).mpr ⟨good, hgood, by omega⟩
  refine ⟨log, hrun, ?_, ?_, good, hgood, hsold, htotal, hsupply 60 good hgood⟩
  · rw [hsales, if_pos (hminted 0 (by omega))]
  · rw [hsales, if_pos (hminted 1 (by omega))]

end AgencCoordination
