import AgencCoordination.Effects.Steps
import AgencCoordination.Program.Market

/-!
# Steps of the marketplace

`executeMarket` read backwards.

* **`MarketStep`, `Market.Reachable`** — the transition system of the marketplace.
* **`MarketStep.move`** — an instruction of the program behind its gate, or an instruction on the
  moderation registry, a listing or a goods listing.
* **`Market.Reachable.world`** — what the program's worlds keep, the marketplace's world keeps.
* **`GoodsMove`** — what a step does to the goods and their receipts.
-/

namespace AgencCoordination

open Foundations

/-! ## The transition system -/

/-- One successful instruction of the marketplace and its payments. -/
def MarketStep (m : Market) (label : MarketInstruction × Payments) (m' : Market) : Prop :=
  executeMarket m label.1 = .ok (m', label.2)

/-- An entry of the marketplace's log. -/
abbrev MarketEntry := Event Market (MarketInstruction × Payments)

/-- The marketplaces the program can reach. -/
def Market.Reachable (m : Market) : Prop := ∃ start log, start.Genesis ∧ Run MarketStep start log m

theorem Market.Reachable.step {m m' : Market} {label : MarketInstruction × Payments}
    (h : m.Reachable) (hs : MarketStep m label m') : m'.Reachable := by
  obtain ⟨start, log, hstart, hrun⟩ := h
  exact ⟨start, _, hstart, hrun.snoc hs⟩

/-- What holds at genesis and is kept by every step of a reachable marketplace holds of every
reachable one. -/
theorem Market.Reachable.induct {I : Market → Prop} (hgenesis : ∀ m : Market, m.Genesis → I m)
    (hstep : ∀ m label m', m.Reachable → MarketStep m label m' → I m → I m') {m : Market}
    (h : m.Reachable) : I m := by
  obtain ⟨start, log, hstart, hrun⟩ := h
  have hboth : m.Reachable ∧ I m :=
    hrun.invariant (I := fun m => m.Reachable ∧ I m)
      (fun m label m' hs hm => ⟨hm.1.step hs, hstep m label m' hm.1 hs hm.2⟩)
      ⟨⟨start, [], hstart, .refl⟩, hgenesis start hstart⟩
  exact hboth.2

/-- The marketplace after a script of instructions, or the initial one when the script fails. -/
def Market.after (m : Market) (script : List MarketInstruction) : Market :=
  ((Run.play executeMarket m script).toOption).getD m

theorem Market.run_after (m : Market) (script : List MarketInstruction) :
    ∃ log, Run MarketStep m log (m.after script) := by
  unfold Market.after
  cases hplay : Run.play executeMarket m script with
  | error e => exact ⟨[], .refl⟩
  | ok m' => exact Run.of_play hplay

theorem MarketStep.of_toOption {m m' : Market} {i : MarketInstruction} {p : Payments}
    (h : (executeMarket m i).toOption = some (m', p)) : MarketStep m (i, p) m' := by
  cases hexec : executeMarket m i with
  | error e =>
    rw [hexec] at h
    cases h
  | ok r =>
    rw [hexec] at h
    obtain rfl := Option.some.inj h
    exact hexec

/-! ## Instructions by group -/

/-- What an instruction of the program enters into the marketplace leaves the moderation registry
and the goods alone. -/
structure EntersMarket (m m' : Market) : Prop where
  moderation : m'.moderation = m.moderation
  goods : m'.goods = m.goods
  receipts : m'.receipts = m.receipts

theorem EntersMarket.refl (m : Market) : EntersMarket m m := ⟨rfl, rfl, rfl⟩

theorem enterHire_frames {m m' : Market} {listing : ServiceListing}
    (h : enterHire m listing = .ok m') : EntersMarket m m' := by
  simp only [enterHire, bind_eq_ok, Except.ok.injEq] at h
  obtain ⟨_, -, _, -, rfl⟩ := h
  exact ⟨rfl, rfl, rfl⟩

theorem enterClose_frames {m m' : Market} {presented : Presented} {key : Pubkey}
    {withJobSpec : Bool} (h : enterClose m presented key withJobSpec = .ok m') :
    EntersMarket m m' := by
  simp only [enterClose, bind_eq_ok] at h
  obtain ⟨accounts, -, h⟩ := h
  cases hhire : accounts.hire with
  | none =>
    rw [hhire] at h
    obtain rfl := Except.ok.inj h
    exact ⟨rfl, rfl, rfl⟩
  | some hire =>
    simp only [hhire, bind_eq_ok, Except.ok.injEq] at h
    obtain ⟨_, -, _, -, _, -, rfl⟩ := h
    exact ⟨rfl, rfl, rfl⟩

theorem enterMarket_frames {m m' : Market} {presented : Presented} {i : Instruction}
    (h : enterMarket m presented i = .ok m') : EntersMarket m m' := by
  unfold enterMarket at h
  split at h
  · exact enterHire_frames h
  · exact enterHire_frames h
  · obtain rfl := Except.ok.inj h
    exact ⟨rfl, rfl, rfl⟩
  · exact enterClose_frames h
  · obtain rfl := Except.ok.inj h
    exact .refl _

/-- What one step does, group by group. -/
inductive MarketMove (m : Market) : MarketInstruction → Market → Payments → Prop
  | core {presented : Presented} {i : Instruction} {world : World} {paid : List Transfer}
      {m' : Market} (gated : contentGate m presented i = .ok ())
      (step : Step m.world (i, paid) world) (entered : enterMarket m presented i = .ok m') :
      MarketMove m (.core presented i) { m' with world := world } { transfers := paid }
  | moderation {op : ModerationOp} {moderation : Moderation} (ran : op.run m = .ok moderation) :
      MarketMove m (.moderation op) { m with moderation := moderation } {}
  | listing {key : Pubkey} {op : ListingOp} {stored : ServiceListingAccount}
      (ran : op.run m key = .ok stored) :
      MarketMove m (.listing key op) { m with listings := m.listings.insert key stored } {}
  | goods {key : Pubkey} {op : GoodsOp} {m' : Market} {sales : List SalePayment}
      (ran : op.run m key = .ok (m', sales)) : MarketMove m (.goods key op) m' { sales := sales }

theorem MarketStep.move {m m' : Market} {i : MarketInstruction} {p : Payments}
    (h : MarketStep m (i, p) m') : MarketMove m i m' p := by
  have hexec : executeMarket m i = .ok (m', p) := h
  cases i with
  | core presented i =>
    simp only [executeMarket, executeCore, bind_eq_ok, Prod.exists, Except.ok.injEq,
      Prod.mk.injEq] at hexec
    obtain ⟨_, _, ⟨⟨⟩, hgate, world, paid, hstep, _, henter, rfl, rfl⟩, rfl, rfl⟩ := hexec
    exact .core hgate hstep henter
  | moderation op =>
    simp only [executeMarket, bind_eq_ok, Except.ok.injEq, Prod.mk.injEq] at hexec
    obtain ⟨_, hrun, rfl, rfl⟩ := hexec
    exact .moderation hrun
  | listing key op =>
    simp only [executeMarket, bind_eq_ok, Except.ok.injEq, Prod.mk.injEq] at hexec
    obtain ⟨_, hrun, rfl, rfl⟩ := hexec
    exact .listing hrun
  | goods key op =>
    simp only [executeMarket, bind_eq_ok, Prod.exists, Except.ok.injEq, Prod.mk.injEq] at hexec
    obtain ⟨_, _, hrun, rfl, rfl⟩ := hexec
    exact .goods hrun

/-! ## Goods -/

/-- What an instruction on the goods listing at `key` does: the listing is new, changed by its
seller, or sold from. -/
inductive GoodsMove (m : Market) (key : Pubkey) : GoodsOp → Market → List SalePayment → Prop
  | created {seller signer : Pubkey} {params : GoodsParams} {good : GoodsListing}
      (fresh : m.goods.lookup key = none)
      (ran : createGoodsListing m.world m.moderation key seller signer params = .ok good) :
      GoodsMove m key (.create seller signer params)
        { m with goods := m.goods.insert key good } []
  | updated {signer : Pubkey} {changes : GoodsUpdate} {good good' : GoodsListing}
      (loaded : m.goods.lookup key = some good)
      (ran : updateGoodsListing m.world key signer good changes = .ok good') :
      GoodsMove m key (.update signer changes) { m with goods := m.goods.insert key good' } []
  | purchased {buyer : Pubkey} {accounts : SaleAccounts} {params : PurchaseParams}
      {good good' : GoodsListing} {receipt : SaleReceipt} {payments : List SalePayment}
      (loaded : m.goods.lookup key = some good)
      (unsold : m.receipts.lookup (key, params.expectedSerial) = none)
      (ran : purchaseGood m.world m.moderation good buyer accounts params =
        .ok (good', receipt, payments)) :
      GoodsMove m key (.purchase buyer accounts params)
        { m with
          goods := m.goods.insert key good'
          receipts := m.receipts.insert (key, params.expectedSerial) receipt } payments

theorem GoodsOp.move {m m' : Market} {key : Pubkey} {op : GoodsOp} {sales : List SalePayment}
    (h : op.run m key = .ok (m', sales)) : GoodsMove m key op m' sales := by
  cases op with
  | create seller signer params =>
    simp only [GoodsOp.run, bind_eq_ok, require_eq_ok, Except.ok.injEq, Prod.mk.injEq] at h
    obtain ⟨_, hfresh, _, hrun, rfl, rfl⟩ := h
    exact .created hfresh hrun
  | update signer changes =>
    simp only [GoodsOp.run, bind_eq_ok, demand_eq_ok, Except.ok.injEq, Prod.mk.injEq] at h
    obtain ⟨_, hgood, _, hrun, rfl, rfl⟩ := h
    exact .updated hgood hrun
  | purchase buyer accounts params =>
    simp only [GoodsOp.run, bind_eq_ok, demand_eq_ok, require_eq_ok, Prod.exists,
      Except.ok.injEq, Prod.mk.injEq] at h
    obtain ⟨_, hgood, _, hunsold, _, _, _, hrun, rfl, rfl⟩ := h
    exact .purchased hgood hunsold hrun

theorem GoodsMove.world {m m' : Market} {key : Pubkey} {op : GoodsOp} {sales : List SalePayment}
    (h : GoodsMove m key op m' sales) : m'.world = m.world := by
  cases h <;> rfl

/-! ## Projections -/

/-- The world of the marketplace makes a step of the program, or stays. -/
theorem MarketStep.world {m m' : Market} {i : MarketInstruction} {p : Payments}
    (h : MarketStep m (i, p) m') :
    m'.world = m.world ∨
      ∃ presented instruction, i = .core presented instruction ∧
        Step m.world (instruction, p.transfers) m'.world := by
  cases h.move with
  | core gated step entered => exact .inr ⟨_, _, rfl, step⟩
  | moderation ran => exact .inl rfl
  | listing ran => exact .inl rfl
  | goods ran => exact .inl (GoodsOp.move ran).world

/-- The clock moves forward only, and the rent stays. -/
theorem MarketStep.environment {m m' : Market} {label : MarketInstruction × Payments}
    (h : MarketStep m label m') : m.world.sys.now ≤ m'.world.sys.now ∧
      m'.world.sys.rent = m.world.sys.rent := by
  obtain ⟨i, p⟩ := label
  rcases MarketStep.world h with hworld | ⟨_, _, -, hstep⟩
  · rw [hworld]
    exact ⟨le_rfl, rfl⟩
  · obtain ⟨hnow, hrent, -⟩ := hstep.environment
    exact ⟨hnow, hrent⟩

/-- The world of a reachable marketplace is a reachable world. -/
theorem Market.Reachable.world {m : Market} (h : m.Reachable) :
    AgencCoordination.Reachable m.world := by
  refine h.induct (I := fun m => AgencCoordination.Reachable m.world) ?_ ?_
  · intro m hgenesis
    exact ⟨m.world, [], hgenesis.world, .refl⟩
  · intro m label m' _ hs hworld
    rcases MarketStep.world hs with hsame | ⟨_, _, -, hstep⟩
    · rw [hsame]
      exact hworld
    · exact hworld.step hstep

/-- A step is an instruction on one goods listing, or keeps goods and receipts. -/
theorem MarketStep.goods {m m' : Market} {i : MarketInstruction} {p : Payments}
    (h : MarketStep m (i, p) m') :
    (∃ key op, i = .goods key op ∧ GoodsMove m key op m' p.sales) ∨
      (∀ key op, i ≠ .goods key op) ∧ m'.goods = m.goods ∧ m'.receipts = m.receipts := by
  cases h.move with
  | core gated step entered =>
    have hframes := enterMarket_frames entered
    exact .inr ⟨by simp, hframes.goods, hframes.receipts⟩
  | moderation ran => exact .inr ⟨by simp, rfl, rfl⟩
  | listing ran => exact .inr ⟨by simp, rfl, rfl⟩
  | goods ran => exact .inl ⟨_, _, rfl, GoodsOp.move ran⟩

end AgencCoordination
