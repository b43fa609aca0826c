import AgencCoordination.Program.Review

/-!
# What the settlement helpers do

For each helper that moves money, one lemma that says everything a successful call did: the
facts it checked and the context it returned, as an update of the context it was given. The
handlers' own lemmas are put together from these and never unfold a helper.

* **`executeCompletionRewards_spec`** — one completion, in SOL or tokens.
* **`settleCompletionBond_spec`** — a bond leaves the ledger with `bondPayments`.
* **`settleAcceptedBid_spec`** — the accepted bid leaves the book.
* **`SplitOf`** — a settlement pays exactly the gross amount it was computed from.
* **`HonoursLegs`** — payments carry the operator's and the referrer's fee.
-/

namespace AgencCoordination

open Foundations

/-! ## Sums of payments -/

/-- What leaves the account `source` in a list of payments, for the purposes in `q`. -/
def spentOn (q : Purpose → Bool) (source : Custody) (ts : List Transfer) : ℕ :=
  (ts.map fun t => if t.source = source ∧ q t.purpose = true then t.amount else 0).sum

/-- What leaves the account `source` in a list of payments. -/
def spent (source : Custody) (ts : List Transfer) : ℕ := spentOn (fun _ => true) source ts

section Sums

variable (q : Purpose → Bool) (source : Custody) (t : Transfer) (ts us : List Transfer)

@[simp] theorem spentOn_nil : spentOn q source [] = 0 := rfl

@[simp] theorem spentOn_cons : spentOn q source (t :: ts) =
    (if t.source = source ∧ q t.purpose = true then t.amount else 0) + spentOn q source ts := by
  simp [spentOn]

@[simp] theorem spentOn_append :
    spentOn q source (ts ++ us) = spentOn q source ts + spentOn q source us := by
  simp [spentOn]

@[simp] theorem spent_nil : spent source [] = 0 := rfl

@[simp] theorem spent_cons : spent source (t :: ts) =
    (if t.source = source then t.amount else 0) + spent source ts := by
  simp [spent]

@[simp] theorem spent_append :
    spent source (ts ++ us) = spent source ts + spent source us := by
  simp [spent]

end Sums

/-- The four legs of a settlement. -/
def Purpose.isSettlementLeg : Purpose → Bool
  | .workerReward | .protocolFee | .operatorFee | .referrerFee => true
  | _ => false

/-- Payments out of other accounts spend nothing of this one. -/
theorem spent_eq_zero {source : Custody} {ts : List Transfer}
    (h : ∀ t ∈ ts, t.source ≠ source) : spent source ts = 0 := by
  induction ts with
  | nil => rfl
  | cons t ts ih =>
    rw [spent_cons, if_neg (h t List.mem_cons_self), ih fun t ht => h t (List.mem_cons_of_mem _ ht)]

@[simp] theorem TaskContext.task_eq (c : TaskContext) : c.task = c.accounts.task := rfl

@[simp] theorem TaskContext.pay_nil (c : TaskContext) : c.pay [] = c := by
  simp [TaskContext.pay]

/-! ## Legs -/

/-- The leg a payee is owed: none without a fee and a payee, else the account passed for it. -/
inductive LegFor (payee : Pubkey) (feeBps : ℕ) (account : Option PayeeAccount) :
    Option FeeLeg → Prop
  | absent (free : feeBps = 0 ∨ payee = 0) : LegFor payee feeBps account none
  | owed {acct : PayeeAccount} (owed : feeBps ≠ 0 ∧ payee ≠ 0) (passed : account = some acct)
      (key : acct.key = payee) : LegFor payee feeBps account (some ⟨acct, feeBps⟩)

theorem buildFeeLeg_spec {payee : Pubkey} {feeBps : ℕ} {account : Option PayeeAccount}
    {missing invalid : CoordinationError} {leg : Option FeeLeg}
    (h : buildFeeLeg payee feeBps account missing invalid = .ok leg) :
    LegFor payee feeBps account leg := by
  unfold buildFeeLeg at h
  split_ifs at h with hfree
  · obtain rfl := Except.ok.inj h
    exact .absent hfree
  · simp only [bind_eq_ok, demand_eq_ok, require_eq_ok, Except.ok.injEq] at h
    obtain ⟨acct, hpassed, _, hkey, rfl⟩ := h
    exact .owed (not_or.mp hfree) hpassed hkey

/-- Both legs of a task's terms, built from the accounts a caller passes. -/
structure LegsFor (terms : MarketplaceTerms) (payees : PayeeAccounts)
    (operatorLeg referrerLeg : Option FeeLeg) : Prop where
  operator : LegFor terms.operator terms.operatorFeeBps payees.operator operatorLeg
  referrer : LegFor terms.referrer terms.referrerFeeBps payees.referrer referrerLeg

theorem buildMarketplaceFeeLegs_spec {c : TaskContext} {payees : PayeeAccounts}
    {r : Option FeeLeg × Option FeeLeg}
    (h : buildMarketplaceFeeLegs c payees.operator payees.referrer = .ok r) :
    LegsFor (resolveTaskMarketplaceTerms c.accounts) payees r.1 r.2 := by
  simp only [buildMarketplaceFeeLegs, bind_eq_ok, Except.ok.injEq] at h
  obtain ⟨_, -, operatorLeg, hoperator, referrerLeg, hreferrer, rfl⟩ := h
  exact ⟨buildFeeLeg_spec hoperator, buildFeeLeg_spec hreferrer⟩

/-- The fees two legs are due of a gross amount: each at its own rate, unless its payee cannot
hold it. -/
def dueFees (gross : ℕ) (operatorLeg referrerLeg : Option FeeLeg) (rent : Rent) :
    CreditableMarketplaceFees :=
  splitCreditableMarketplaceFees
    (operatorLeg.map fun leg => (leg.payee, bpsOf gross leg.feeBps))
    (referrerLeg.map fun leg => (leg.payee, bpsOf gross leg.feeBps)) rent

@[simp] theorem dueFees_operator_none (gross : ℕ) (referrerLeg : Option FeeLeg) (rent : Rent) :
    (dueFees gross none referrerLeg rent).operatorFee = 0 := by
  simp [dueFees, splitCreditableMarketplaceFees]

@[simp] theorem dueFees_referrer_none (gross : ℕ) (operatorLeg : Option FeeLeg) (rent : Rent) :
    (dueFees gross operatorLeg none rent).referrerFee = 0 := by
  simp [dueFees, splitCreditableMarketplaceFees]

/-- Nothing is due of nothing. -/
theorem dueFees_zero (operatorLeg referrerLeg : Option FeeLeg) (rent : Rent) :
    (dueFees 0 operatorLeg referrerLeg rent).operatorFee = 0 ∧
      (dueFees 0 operatorLeg referrerLeg rent).referrerFee = 0 := by
  cases operatorLeg <;> cases referrerLeg <;>
    simp [dueFees, splitCreditableMarketplaceFees, bpsOf]

/-- Whether an account holds the reward of the task `key`. -/
def Custody.isEscrow (key : Pubkey) : Custody → Bool
  | .escrow k | .tokenEscrow k => decide (k = key)
  | _ => false

/-- Payments out of other accounts than the escrow of the task `key`. -/
def Outside (key : Pubkey) (ts : List Transfer) : Prop := ∀ t ∈ ts, t.source.isEscrow key = false

/-- The payments with one purpose out of the escrow of the task `key`. -/
def paymentsFor (key : Pubkey) (purpose : Purpose) (ts : List Transfer) : List Transfer :=
  ts.filter fun t => t.source.isEscrow key && decide (t.purpose = purpose)

/-- The payments of a settlement of the task `key` carry the legs of `terms`: the operator and the
referrer are each paid once what they are due of the settlement's gross amount, and nobody else is
paid a fee of theirs. -/
def HonoursLegs (terms : MarketplaceTerms) (payees : PayeeAccounts) (rent : Rent) (key : Pubkey)
    (ts : List Transfer) : Prop :=
  ∃ operatorLeg referrerLeg, LegsFor terms payees operatorLeg referrerLeg ∧
    paymentsFor key .operatorFee ts = legTransfer key operatorLeg .operatorFee
      (dueFees (spentOn Purpose.isSettlementLeg (.escrow key) ts) operatorLeg referrerLeg
        rent).operatorFee ∧
    paymentsFor key .referrerFee ts = legTransfer key referrerLeg .referrerFee
      (dueFees (spentOn Purpose.isSettlementLeg (.escrow key) ts) operatorLeg referrerLeg
        rent).referrerFee

section Honours

variable {terms : MarketplaceTerms} {payees : PayeeAccounts} {rent : Rent} {key : Pubkey}
  {ts us : List Transfer} {q : Purpose → Bool} {purpose : Purpose}

theorem Outside.append (hts : Outside key ts) (hus : Outside key us) : Outside key (ts ++ us) :=
  fun t ht => (List.mem_append.mp ht).elim (hts t) (hus t)

/-- Payments out of the escrow for other purposes count for nothing. -/
theorem spentOn_eq_zero (h : ∀ t ∈ ts, t.source.isEscrow key = true → q t.purpose = false) :
    spentOn q (.escrow key) ts = 0 := by
  induction ts with
  | nil => rfl
  | cons t ts ih =>
    rw [spentOn_cons, if_neg, ih fun t ht => h t (List.mem_cons_of_mem _ ht)]
    rintro ⟨hsource, hq⟩
    have hfalse : q t.purpose = false :=
      h t List.mem_cons_self (by rw [hsource]; simp [Custody.isEscrow])
    rw [hfalse] at hq
    cases hq

theorem Outside.spentOn (h : Outside key ts) : spentOn q (.escrow key) ts = 0 :=
  spentOn_eq_zero fun t ht hsource => by rw [h t ht] at hsource; cases hsource

theorem paymentsFor_append :
    paymentsFor key purpose (ts ++ us) = paymentsFor key purpose ts ++ paymentsFor key purpose us :=
  List.filter_append _ _

theorem paymentsFor_eq_nil (h : ∀ t ∈ ts, t.source.isEscrow key = true → t.purpose ≠ purpose) :
    paymentsFor key purpose ts = [] := by
  simpa [paymentsFor, List.filter_eq_nil_iff] using h

theorem Outside.paymentsFor (h : Outside key ts) : paymentsFor key purpose ts = [] :=
  paymentsFor_eq_nil fun t ht hsource => by rw [h t ht] at hsource; cases hsource

/-- Payments out of the escrow that are no leg of a settlement change nothing about the legs. -/
theorem HonoursLegs.append (h : HonoursLegs terms payees rent key ts)
    (hus : ∀ u ∈ us, u.source.isEscrow key = true → u.purpose.isSettlementLeg = false) :
    HonoursLegs terms payees rent key (ts ++ us) := by
  obtain ⟨operatorLeg, referrerLeg, hlegs, hoperator, hreferrer⟩ := h
  have hnil (purpose : Purpose) (hleg : purpose.isSettlementLeg = true) :
      AgencCoordination.paymentsFor key purpose us = [] :=
    paymentsFor_eq_nil fun u hu hsource heq => by
      rw [← heq, hus u hu hsource] at hleg
      cases hleg
  refine ⟨operatorLeg, referrerLeg, hlegs, ?_, ?_⟩
  · rw [paymentsFor_append, spentOn_append, spentOn_eq_zero hus, Nat.add_zero, hoperator,
      hnil _ rfl, List.append_nil]
  · rw [paymentsFor_append, spentOn_append, spentOn_eq_zero hus, Nat.add_zero, hreferrer,
      hnil _ rfl, List.append_nil]

theorem HonoursLegs.append_outside (h : HonoursLegs terms payees rent key ts)
    (hus : Outside key us) : HonoursLegs terms payees rent key (ts ++ us) :=
  h.append fun u hu hsource => by rw [hus u hu] at hsource; cases hsource

/-- A leg pays what it is due, which is nothing for an absent one. -/
theorem spentOn_legTransfer {leg : Option FeeLeg} {amount : ℕ} (hq : q purpose = true)
    (hnone : leg = none → amount = 0) :
    spentOn q (.escrow key) (legTransfer key leg purpose amount) = amount := by
  cases leg with
  | none => rw [hnone rfl]; rfl
  | some leg => simp [legTransfer, hq]

theorem legTransfer_purpose {leg : Option FeeLeg} {amount : ℕ} {t : Transfer}
    (ht : t ∈ legTransfer key leg purpose amount) :
    t.source = .escrow key ∧ t.purpose = purpose := by
  cases leg with
  | none => cases ht
  | some leg => rw [List.mem_singleton.mp ht]; exact ⟨rfl, rfl⟩

theorem paymentsFor_legTransfer (leg : Option FeeLeg) (amount : ℕ) :
    paymentsFor key purpose (legTransfer key leg purpose amount) =
      legTransfer key leg purpose amount := by
  cases leg <;> simp [paymentsFor, legTransfer, Custody.isEscrow]

theorem paymentsFor_legTransfer_ne {other : Purpose} (hne : other ≠ purpose) (leg : Option FeeLeg)
    (amount : ℕ) : paymentsFor key purpose (legTransfer key leg other amount) = [] :=
  paymentsFor_eq_nil fun t ht _ => by rw [(legTransfer_purpose ht).2]; exact hne

/-- Both legs as due of a gross amount, beside payments that make up the rest of it. -/
theorem HonoursLegs.of_parts {operatorLeg referrerLeg : Option FeeLeg} {gross : ℕ}
    (hlegs : LegsFor terms payees operatorLeg referrerLeg)
    (hts : ∀ t ∈ ts, t.purpose ≠ .operatorFee ∧ t.purpose ≠ .referrerFee)
    (hgross : AgencCoordination.spentOn Purpose.isSettlementLeg (.escrow key) ts +
      ((dueFees gross operatorLeg referrerLeg rent).operatorFee +
        (dueFees gross operatorLeg referrerLeg rent).referrerFee) = gross) :
    HonoursLegs terms payees rent key
      (legTransfer key operatorLeg .operatorFee
          (dueFees gross operatorLeg referrerLeg rent).operatorFee ++
        legTransfer key referrerLeg .referrerFee
          (dueFees gross operatorLeg referrerLeg rent).referrerFee ++ ts) := by
  have hspent : AgencCoordination.spentOn Purpose.isSettlementLeg (.escrow key)
      (legTransfer key operatorLeg .operatorFee
          (dueFees gross operatorLeg referrerLeg rent).operatorFee ++
        legTransfer key referrerLeg .referrerFee
          (dueFees gross operatorLeg referrerLeg rent).referrerFee ++ ts) = gross := by
    rw [spentOn_append, spentOn_append,
      spentOn_legTransfer rfl (by rintro rfl; exact dueFees_operator_none _ _ _),
      spentOn_legTransfer rfl (by rintro rfl; exact dueFees_referrer_none _ _ _)]
    omega
  refine ⟨operatorLeg, referrerLeg, hlegs, ?_, ?_⟩
  · rw [hspent, paymentsFor_append, paymentsFor_append, paymentsFor_legTransfer,
      paymentsFor_legTransfer_ne (by decide), paymentsFor_eq_nil fun t ht _ => (hts t ht).1,
      List.append_nil, List.append_nil]
  · rw [hspent, paymentsFor_append, paymentsFor_append, paymentsFor_legTransfer,
      paymentsFor_legTransfer_ne (by decide), paymentsFor_eq_nil fun t ht _ => (hts t ht).2,
      List.append_nil, List.nil_append]

/-- A task that owes neither fee is served by payments that contain neither. -/
theorem HonoursLegs.of_free (hoperator : terms.operatorFeeBps = 0)
    (hreferrer : terms.referrerFeeBps = 0)
    (hts : ∀ t ∈ ts, t.source.isEscrow key = true →
      t.purpose ≠ .operatorFee ∧ t.purpose ≠ .referrerFee) :
    HonoursLegs terms payees rent key ts :=
  ⟨none, none, ⟨.absent (.inl hoperator), .absent (.inl hreferrer)⟩,
    paymentsFor_eq_nil fun t ht hsource => (hts t ht hsource).1,
    paymentsFor_eq_nil fun t ht hsource => (hts t ht hsource).2⟩

end Honours

/-! ## Splits -/

/-- The split `s` divides `gross`, with the two legs' due fees in it. -/
structure SplitOf (s : RewardSplit) (gross : ℕ) (operatorLeg referrerLeg : Option FeeLeg)
    (rent : Rent) : Prop where
  total : s.total = gross
  operator : s.operatorFee = (dueFees gross operatorLeg referrerLeg rent).operatorFee
  referrer : s.referrerFee = (dueFees gross operatorLeg referrerLeg rent).referrerFee

/-- A forfeited leg is exactly the leg that is not paid. -/
theorem splitCreditableMarketplaceFees_operator (operator referrer : Option (PayeeAccount × ℕ))
    (rent : Rent) :
    (splitCreditableMarketplaceFees operator referrer rent).operatorFee +
      (splitCreditableMarketplaceFees operator referrer rent).forfeitedOperatorFee =
      (operator.map Prod.snd).getD 0 := by
  unfold splitCreditableMarketplaceFees
  dsimp only
  split_ifs <;> simp

theorem splitCreditableMarketplaceFees_referrer (operator referrer : Option (PayeeAccount × ℕ))
    (rent : Rent) :
    (splitCreditableMarketplaceFees operator referrer rent).referrerFee +
      (splitCreditableMarketplaceFees operator referrer rent).forfeitedReferrerFee =
      (referrer.map Prod.snd).getD 0 := by
  unfold splitCreditableMarketplaceFees
  dsimp only
  split_ifs <;> simp

/-- Both marketplace fees of an absent leg are nothing. -/
theorem bpsOf_zero (amount : ℕ) : bpsOf amount 0 = 0 := by
  simp [bpsOf]

theorem calculateCombinedFees_spec {base protocolBps operatorBps referrerBps : ℕ} {r : ℕ × ℕ}
    (h : calculateCombinedFees base protocolBps operatorBps referrerBps = .ok r) :
    r = (bpsOf base operatorBps, bpsOf base referrerBps) := by
  simp only [calculateCombinedFees, require_bind_eq_ok, Except.ok.injEq] at h
  exact h.2.2.2.2.symm

/-- The fees of two legs, as a settlement computes them. -/
theorem combinedFees_eq (gross : ℕ) (leg : Option FeeLeg) :
    (leg.map fun l => (l.payee, bpsOf gross ((leg.map FeeLeg.feeBps).getD 0))) =
      leg.map fun l => (l.payee, bpsOf gross l.feeBps) := by
  cases leg <;> rfl

theorem bpsOf_getD (gross : ℕ) (leg : Option FeeLeg) :
    bpsOf gross ((leg.map FeeLeg.feeBps).getD 0) =
      ((leg.map fun l => (l.payee, bpsOf gross l.feeBps)).map Prod.snd).getD 0 := by
  cases leg with
  | none => exact bpsOf_zero gross
  | some leg => rfl

/-- Carving the legs out of the worker's share moves value between the legs and the worker
only. -/
theorem carveMarketplaceLegs_spec {gross feeBps workerReward protocolFee : ℕ}
    {operatorLeg referrerLeg : Option FeeLeg} {rent : Rent} {s : RewardSplit}
    (h : carveMarketplaceLegs gross feeBps workerReward protocolFee operatorLeg referrerLeg rent
      = .ok s) (hgross : workerReward + protocolFee = gross) :
    SplitOf s gross operatorLeg referrerLeg rent := by
  unfold carveMarketplaceLegs at h
  split_ifs at h with hlegs
  · obtain rfl := Except.ok.inj h
    obtain ⟨rfl, rfl⟩ := hlegs
    exact ⟨by simpa [RewardSplit.total] using hgross, by simp, by simp⟩
  · simp only [bind_eq_ok, Prod.exists, subU_eq_ok, require_eq_ok, Except.ok.injEq] at h
    obtain ⟨operatorFee, referrerFee, hfees, _, ⟨hle, rfl⟩, _, -, rfl⟩ := h
    obtain ⟨rfl, rfl⟩ := Prod.mk.inj (calculateCombinedFees_spec hfees)
    simp only [combinedFees_eq]
    refine ⟨?_, rfl, rfl⟩
    have hoperator := splitCreditableMarketplaceFees_operator
      (operatorLeg.map fun leg => (leg.payee, bpsOf gross leg.feeBps))
      (referrerLeg.map fun leg => (leg.payee, bpsOf gross leg.feeBps)) rent
    have hreferrer := splitCreditableMarketplaceFees_referrer
      (operatorLeg.map fun leg => (leg.payee, bpsOf gross leg.feeBps))
      (referrerLeg.map fun leg => (leg.payee, bpsOf gross leg.feeBps)) rent
    rw [← bpsOf_getD] at hoperator hreferrer
    simp only [RewardSplit.total]
    omega

theorem calculateRewardSplitForAmount_spec {gross feeBps : ℕ} {r : ℕ × ℕ}
    (h : calculateRewardSplitForAmount gross feeBps = .ok r) : r.1 + r.2 = gross ∧ 0 < r.1 := by
  simp only [calculateRewardSplitForAmount, bind_eq_ok, subU_eq_ok, require_eq_ok,
    Except.ok.injEq] at h
  obtain ⟨_, ⟨hle, rfl⟩, _, hpos, rfl⟩ := h
  exact ⟨Nat.sub_add_cancel hle, hpos⟩

/-- The split of a completion divides its gross amount. -/
theorem completionSplit_spec {task : Task} {feeBps : ℕ} {price : Option ℕ}
    {operatorLeg referrerLeg : Option FeeLeg} {rent : Rent} {s : RewardSplit}
    (h : completionSplit task feeBps price operatorLeg referrerLeg rent = .ok s) :
    ∃ gross, completionGross task price = .ok gross ∧
      SplitOf s gross operatorLeg referrerLeg rent := by
  simp only [completionSplit, bind_eq_ok, Prod.exists, require_eq_ok] at h
  obtain ⟨gross, hgross, workerReward, protocolFee, hsplit, _, -, hcarve⟩ := h
  have hsum := (calculateRewardSplitForAmount_spec hsplit).1
  exact ⟨gross, hgross, carveMarketplaceLegs_spec hcarve hsum⟩

/-- A task paid in tokens passes no legs on. -/
theorem completionSplit_token {task : Task} {feeBps : ℕ} {price : Option ℕ}
    {operatorLeg referrerLeg : Option FeeLeg} {rent : Rent} {s : RewardSplit}
    (h : completionSplit task feeBps price operatorLeg referrerLeg rent = .ok s)
    (hmint : task.rewardMint ≠ none) : operatorLeg = none ∧ referrerLeg = none := by
  simp only [completionSplit, bind_eq_ok, Prod.exists, require_eq_ok] at h
  obtain ⟨_, -, _, _, -, _, hlegs, -⟩ := h
  exact hlegs.resolve_right hmint

section Settlement

variable {s : RewardSplit} {gross : ℕ} {operatorLeg referrerLeg : Option FeeLeg} {rent : Rent}
  (h : SplitOf s gross operatorLeg referrerLeg rent) (key worker treasury : Pubkey)
include h

/-- The payments of a settlement leave the escrow and add up to its gross amount. -/
theorem spentOn_rewardTransfers :
    spentOn Purpose.isSettlementLeg (.escrow key)
      (rewardTransfers key worker treasury operatorLeg referrerLeg s) = gross := by
  have ho := h.operator
  have hr := h.referrer
  rw [← h.total]
  cases operatorLeg <;> cases referrerLeg <;>
    simp_all [rewardTransfers, legTransfer, RewardSplit.total, Purpose.isSettlementLeg] <;> omega

theorem spent_rewardTransfers :
    spent (.escrow key) (rewardTransfers key worker treasury operatorLeg referrerLeg s) =
      gross := by
  have ho := h.operator
  have hr := h.referrer
  rw [← h.total]
  cases operatorLeg <;> cases referrerLeg <;>
    simp_all [rewardTransfers, legTransfer, RewardSplit.total] <;> omega

/-- The payments of a settlement carry the legs it was split for. -/
theorem honoursLegs_rewardTransfers {terms : MarketplaceTerms} {payees : PayeeAccounts}
    (hlegs : LegsFor terms payees operatorLeg referrerLeg) :
    HonoursLegs terms payees rent key
      (rewardTransfers key worker treasury operatorLeg referrerLeg s) := by
  refine ⟨operatorLeg, referrerLeg, hlegs, ?_, ?_⟩
  · rw [spentOn_rewardTransfers h, ← h.operator]
    cases operatorLeg <;> cases referrerLeg <;>
      simp [paymentsFor, rewardTransfers, legTransfer, Custody.isEscrow]
  · rw [spentOn_rewardTransfers h, ← h.referrer]
    cases operatorLeg <;> cases referrerLeg <;>
      simp [paymentsFor, rewardTransfers, legTransfer, Custody.isEscrow]

end Settlement

/-- Every payment of a settlement is one of its four legs, out of the escrow. -/
theorem rewardTransfers_legs (key worker treasury : Pubkey)
    (operatorLeg referrerLeg : Option FeeLeg) (s : RewardSplit) :
    ∀ t ∈ rewardTransfers key worker treasury operatorLeg referrerLeg s,
      t.source = .escrow key ∧ t.purpose.isSettlementLeg = true := by
  cases operatorLeg <;> cases referrerLeg <;>
    simp [rewardTransfers, legTransfer, Purpose.isSettlementLeg]

/-! ## Completion bonds -/

/-- What settling the bond of `poster` pays, when one is posted. -/
def bondPayments (key poster : Pubkey) (disposition : BondDisposition) :
    Option (Account CompletionBond) → List Transfer
  | none => []
  | some bond =>
      match disposition with
      | .Refund => [⟨.bond key poster, poster, .bondRefund, bond.lamports⟩]
      | .Forfeit recipient purpose =>
          [⟨.bond key poster, recipient, purpose, bond.data.amount⟩,
            ⟨.bond key poster, poster, .bondRefund, bond.lamports - bond.data.amount⟩]

/-- Settling a bond takes it off the ledger and pays it out; a bond that is there has the
expected role, and covers its principal when that is forfeit. -/
theorem settleCompletionBond_spec {c c' : TaskContext} {poster : Pubkey} {role : BondRole}
    {disposition : BondDisposition}
    (h : settleCompletionBond c poster role disposition = .ok c') :
    (∀ bond, c.accounts.bonds.lookup poster = some bond → bond.data.role = role ∧
      (disposition = .Refund ∨ bond.data.amount ≤ bond.lamports)) ∧
    c' = { c with
      accounts := { c.accounts with bonds := c.accounts.bonds.erase poster }
      paid := c.paid ++
        bondPayments c.key poster disposition (c.accounts.bonds.lookup poster) } := by
  unfold settleCompletionBond at h
  split at h
  · rename_i hnone
    obtain rfl := Except.ok.inj h
    refine ⟨fun bond hb => absurd hb (by simp [hnone]), ?_⟩
    simp [hnone, bondPayments, Ledger.erase_of_lookup_eq_none hnone]
  · rename_i bond hsome
    obtain ⟨hrole, h⟩ := require_bind_eq_ok.mp h
    cases disposition with
    | Refund =>
      obtain rfl := Except.ok.inj h
      refine ⟨fun b hb => ?_, by simp [hsome, bondPayments, TaskContext.pay]⟩
      obtain rfl := Option.some.inj (hsome.symm.trans hb)
      exact ⟨hrole, .inl rfl⟩
    | Forfeit recipient purpose =>
      simp only [bind_eq_ok, subU_eq_ok, Except.ok.injEq] at h
      obtain ⟨_, ⟨hle, rfl⟩, rfl⟩ := h
      refine ⟨fun b hb => ?_, by simp [hsome, bondPayments, TaskContext.pay]⟩
      obtain rfl := Option.some.inj (hsome.symm.trans hb)
      exact ⟨hrole, .inr hle⟩

/-! ## Accepted bids -/

/-- What a settled accepted bid pays: the slashed part to the creator, the rest to the bidder. -/
def bidPayments (key bidder creator authority : Pubkey) (bid : Account TaskBid)
    (disposition : AcceptedBidBondDisposition) (slash : ℕ) : List Transfer :=
  [⟨.bid key bidder, creator, bidBondPurpose disposition, slash⟩,
    ⟨.bid key bidder, authority, .bondRefund, bid.lamports - slash⟩]

/-- The part of a context a bid settlement works on. -/
structure BidSide where
  now : ℤ
  key : Pubkey
  worker : Pubkey
  creator : Pubkey
  taskType : TaskType
  book : Option TaskBidBook
  bids : Ledger Pubkey (Account TaskBid)
  bidder : Option BidderMarketState

def TaskContext.bidSide (c : TaskContext) : BidSide :=
  ⟨c.sys.now, c.key, c.workerKey, c.accounts.task.creator, c.accounts.task.taskType,
    c.accounts.bidBook, c.accounts.bids, c.bidder⟩

/-- A handler that leaves the bid side of its context alone. -/
structure KeepsBids (c c' : TaskContext) : Prop where
  book : c'.accounts.bidBook = c.accounts.bidBook
  bids : c'.accounts.bids = c.accounts.bids
  bidder : c'.bidder = c.bidder

/-- The settlement of the accepted bid of a bid task, whose book closes or reopens; another task
has none. -/
inductive SettlesBid (b : BidSide) (place : AcceptedBidBookDisposition)
    (disposition : AcceptedBidBondDisposition) :
    Option TaskBidBook → Ledger Pubkey (Account TaskBid) → Option BidderMarketState →
      List Transfer → Prop
  | none (type : b.taskType ≠ .BidExclusive) :
      SettlesBid b place disposition b.book b.bids b.bidder []
  | settled {bid : Account TaskBid} {book book' : TaskBidBook}
      {bidder bidder' : BidderMarketState} {slash : ℕ} (type : b.taskType = .BidExclusive)
      (opened : b.book = some book) (loaded : b.bids.lookup b.worker = some bid)
      (record : b.bidder = some bidder) (accepted : book.state = .Accepted)
      (named : book.acceptedBid = some b.worker) (taken : bid.data.state = .Accepted)
      (slashed : bidBondSlash bid.data disposition = .ok slash) (covered : slash ≤ bid.lamports)
      (placed : applyBidBookDisposition book b.now place = .ok book')
      (released : decrementBidderActiveBidCount bidder = .ok bidder') :
      SettlesBid b place disposition (some book') (b.bids.erase b.worker) (some bidder')
        (bidPayments b.key b.worker b.creator bid.data.bidderAuthority bid disposition slash)

/-- A settled bid pays out of the bid's own account, and forfeits only what its disposition
says. -/
theorem SettlesBid.payments {b : BidSide} {place : AcceptedBidBookDisposition}
    {disposition : AcceptedBidBondDisposition} {book' : Option TaskBidBook}
    {bids' : Ledger Pubkey (Account TaskBid)} {bidder' : Option BidderMarketState}
    {ts : List Transfer} (h : SettlesBid b place disposition book' bids' bidder' ts) :
    ∀ t ∈ ts, t.source = .bid b.key b.worker ∧
      (t.purpose = bidBondPurpose disposition ∨ t.purpose = .bondRefund) := by
  cases h with
  | none => simp
  | settled => simp [bidPayments]

theorem loadAcceptedBid_spec {c : TaskContext}
    {r : TaskBidBook × Account TaskBid × BidderMarketState} (h : loadAcceptedBid c = .ok r) :
    c.accounts.bidBook = some r.1 ∧ c.accounts.bids.lookup c.workerKey = some r.2.1 ∧
      c.bidder = some r.2.2 ∧ r.1.state = .Accepted ∧ r.1.acceptedBid = some c.workerKey ∧
      r.2.1.data.state = .Accepted := by
  simp only [loadAcceptedBid, bind_eq_ok, demand_eq_ok, require_eq_ok, Except.ok.injEq] at h
  obtain ⟨book, hbook, bid, hbid, bidder, hbidder, _, hstate, _, htaken, _, haccepted, rfl⟩ := h
  exact ⟨hbook, hbid, hbidder, hstate, haccepted, htaken⟩

theorem settleAcceptedBid_spec {c c' : TaskContext} {authority : Pubkey}
    {bookDisposition : AcceptedBidBookDisposition} {bondDisposition : AcceptedBidBondDisposition}
    (h : settleAcceptedBid c authority bookDisposition bondDisposition = .ok c')
    (htype : c.accounts.task.taskType = .BidExclusive) :
    ∃ book' bids' bidder' ts,
      SettlesBid c.bidSide bookDisposition bondDisposition book' bids' bidder' ts ∧
      c' = { c with
        accounts := { c.accounts with bidBook := book', bids := bids' }
        bidder := bidder'
        paid := c.paid ++ ts } := by
  simp only [settleAcceptedBid, bind_eq_ok, Prod.exists, require_eq_ok, subU_eq_ok,
    Except.ok.injEq] at h
  obtain ⟨book, bid, bidder, hload, _, rfl, slash, hslash, _, ⟨hle, rfl⟩, book', hplaced, bidder',
    hreleased, rfl⟩ := h
  obtain ⟨hbook, hbid, hbidder, haccepted, hnamed, htaken⟩ := loadAcceptedBid_spec hload
  exact ⟨some book', _, some bidder', _, .settled (b := c.bidSide) htype hbook hbid hbidder
    haccepted hnamed htaken hslash hle hplaced hreleased, rfl⟩

/-- The completion of a bid task gives the bond back and closes the book. -/
theorem finalizeBidTaskCompletion_spec {c c' : TaskContext}
    (h : finalizeBidTaskCompletion c = .ok c') :
    ∃ book' bids' bidder' ts, SettlesBid c.bidSide .Close .Refund book' bids' bidder' ts ∧
      c' = { c with
        accounts := { c.accounts with bidBook := book', bids := bids' }
        bidder := bidder'
        paid := c.paid ++ ts } := by
  unfold finalizeBidTaskCompletion at h
  split_ifs at h with htype
  · simp only [bind_eq_ok, Prod.exists] at h
    obtain ⟨_, _, _, -, h⟩ := h
    exact settleAcceptedBid_spec h htype
  · obtain rfl := Except.ok.inj h
    exact ⟨_, _, _, _, .none (b := c.bidSide) htype, by simp [TaskContext.bidSide]⟩

/-- Only a bid task has a price other than its reward. -/
theorem loadBidTaskCompletionMeta_eq_none {c : TaskContext} {price : Option ℕ}
    (h : loadBidTaskCompletionMeta c = .ok price)
    (htype : c.accounts.task.taskType ≠ .BidExclusive) : price = none := by
  simpa [loadBidTaskCompletionMeta, htype, eq_comm] using h

/-! ## Completions -/

/-- The part of a context a settlement works on: the wallets it pays and the escrow. -/
structure Till where
  key : Pubkey
  worker : Pubkey
  treasury : Pubkey
  creator : Pubkey
  mint : Option Pubkey
  escrow : Option (Account TaskEscrow)
  vault : Option ℕ
  rent : Rent
  terms : MarketplaceTerms
  mode : Option ValidationMode

def TaskContext.till (c : TaskContext) : Till :=
  ⟨c.key, c.worker.data.authority, c.config.treasury, c.accounts.task.creator,
    c.accounts.task.rewardMint, c.accounts.escrow, c.accounts.tokenEscrow, c.sys.rent,
    resolveTaskMarketplaceTerms c.accounts,
    c.accounts.validation.map TaskValidationConfig.mode⟩

/-- The terms snapshotted on a task. -/
def Task.marketplaceTerms (task : Task) : MarketplaceTerms :=
  ⟨task.operator, task.operatorFeeBps, task.referrer, task.referrerFeeBps⟩

/-- A settlement that reads the terms off the task, whoever reviews it. -/
def TaskContext.snapshotTill (c : TaskContext) : Till :=
  { c.till with terms := c.accounts.task.marketplaceTerms, mode := none }

/-- The legs a settlement passes on: those of the task's terms, or none where another reviewer than
the creator accepts. -/
def Till.Passes (t : Till) (payees : PayeeAccounts) (operatorLeg referrerLeg : Option FeeLeg) :
    Prop :=
  LegsFor t.terms payees operatorLeg referrerLeg ∨
    (operatorLeg = none ∧ referrerLeg = none ∧
      ∃ mode, t.mode = some mode ∧ mode ≠ .CreatorReview)

/-- The escrow after a settlement in SOL: gone when the task is done. -/
def settledEscrow (escrow : Account TaskEscrow) (gross : ℕ) (completed : Bool) :
    Option (Account TaskEscrow) :=
  if completed then none
  else some ⟨escrow.lamports - gross,
    { escrow.data with distributed := escrow.data.distributed + gross }⟩

/-- The payments of a settlement in SOL. -/
def settledPayments (t : Till) (escrow : Account TaskEscrow) (split : RewardSplit)
    (operatorLeg referrerLeg : Option FeeLeg) (completed : Bool) : List Transfer :=
  rewardTransfers t.key t.worker t.treasury operatorLeg referrerLeg split ++
    if completed then [closeEscrowTransfer t.key t.creator (escrow.lamports - split.total)]
    else []

/-- The payments of a settlement in tokens: the worker and the treasury share the gross amount. -/
def tokenShares (t : Till) (reward fee : ℕ) : List Transfer :=
  [⟨.tokenEscrow t.key, t.worker, .workerReward, reward⟩,
    ⟨.tokenEscrow t.key, t.treasury, .protocolFee, fee⟩]

/-- The token side of a settlement of `gross`. The last one leaves what the token account still
holds to the treasury and closes both accounts. -/
inductive PaysTokens (t : Till) (gross : ℕ) :
    Bool → Option (Account TaskEscrow) → Option ℕ → List Transfer → Prop
  | charged {escrow : Account TaskEscrow} {vault reward fee : ℕ} (loaded : t.escrow = some escrow)
      (held : t.vault = some vault) (shares : reward + fee = gross) (covered : gross ≤ vault) :
      PaysTokens t gross false
        (some { escrow with data := { escrow.data with
          distributed := escrow.data.distributed + gross } })
        (some (vault - gross)) (tokenShares t reward fee)
  | closed {escrow : Account TaskEscrow} {vault reward fee : ℕ} (loaded : t.escrow = some escrow)
      (held : t.vault = some vault) (shares : reward + fee = gross) (covered : gross ≤ vault) :
      PaysTokens t gross true none none (tokenShares t reward fee ++
        [⟨.tokenEscrow t.key, t.treasury, .closingBalance, vault - gross⟩,
          closeEscrowTransfer t.key t.creator escrow.lamports])

/-- One settlement of `gross`: how it leaves the escrow, the token account and the payments. -/
inductive Settles (t : Till) (payees : PayeeAccounts) (gross : ℕ) (completed : Bool) :
    Option (Account TaskEscrow) → Option ℕ → List Transfer → Prop
  | sol {escrow : Account TaskEscrow} {split : RewardSplit} {operatorLeg referrerLeg : Option FeeLeg}
      (mint : t.mint = none) (loaded : t.escrow = some escrow)
      (split_of : SplitOf split gross operatorLeg referrerLeg t.rent)
      (passed : t.Passes payees operatorLeg referrerLeg)
      (covered : gross ≤ escrow.lamports)
      (fits : escrow.data.distributed + gross < u64Limit) :
      Settles t payees gross completed (settledEscrow escrow gross completed) t.vault
        (settledPayments t escrow split operatorLeg referrerLeg completed)
  | token {escrow' : Option (Account TaskEscrow)} {vault' : Option ℕ} {ts : List Transfer}
      (mint : t.mint ≠ none)
      (paid : ∀ x ∈ ts, (x.source = .tokenEscrow t.key ∨
          x.source = .escrow t.key ∧ x.purpose = .closingBalance) ∧
        (x.purpose = .workerReward ∨ x.purpose = .protocolFee ∨ x.purpose = .closingBalance))
      (gone : completed = true → escrow' = none)
      (left : completed = false → ∃ escrow distributed, t.escrow = some escrow ∧
        escrow' = some { escrow with data := { escrow.data with distributed := distributed } })
      (tokens : PaysTokens t gross completed escrow' vault' ts) :
      Settles t payees gross completed escrow' vault' ts

theorem settleSolRewards_spec {c c' : TaskContext} {escrow : Account TaskEscrow}
    {split : RewardSplit} {operatorLeg referrerLeg : Option FeeLeg} {completed : Bool}
    (h : settleSolRewards c escrow split operatorLeg referrerLeg completed = .ok c') :
    split.total ≤ escrow.lamports ∧ escrow.data.distributed + split.total < u64Limit ∧
    c' = { c with
      accounts := { c.accounts with escrow := settledEscrow escrow split.total completed }
      paid := c.paid ++
        settledPayments c.till escrow split operatorLeg referrerLeg completed } := by
  simp only [settleSolRewards, bind_eq_ok, require_eq_ok, addU64_eq_ok] at h
  obtain ⟨_, hle, _, ⟨hlt, rfl⟩, h⟩ := h
  refine ⟨hle, hlt, ?_⟩
  cases completed <;> simp [TaskContext.pay, settledEscrow, settledPayments, TaskContext.till] at h ⊢ <;>
    exact h.symm

theorem settleTokenRewards_spec {c c' : TaskContext} {escrow : Account TaskEscrow}
    {split : RewardSplit} {completed : Bool}
    (h : settleTokenRewards c escrow split completed = .ok c')
    (hescrow : c.accounts.escrow = some escrow)
    (hshares : split.workerReward + split.protocolFee = split.total) :
    ∃ escrow' vault' ts, PaysTokens c.till split.total completed escrow' vault' ts ∧
      c' = { c with
        accounts := { c.accounts with escrow := escrow', tokenEscrow := vault' }
        paid := c.paid ++ ts } := by
  simp only [settleTokenRewards, bind_eq_ok, demand_eq_ok, addU64_eq_ok, require_eq_ok] at h
  obtain ⟨vault, hvault, _, ⟨-, rfl⟩, _, hreward, _, hfee, h⟩ := h
  have hcovered : split.total ≤ vault := by omega
  have hleft : vault - split.workerReward - split.protocolFee = vault - split.total := by omega
  rw [hleft] at h
  cases completed
  · simp only [Bool.false_eq_true, if_false, Except.ok.injEq] at h
    exact ⟨_, _, _, .charged (t := c.till) hescrow hvault hshares hcovered, h.symm⟩
  · simp only [if_true, Except.ok.injEq] at h
    exact ⟨_, _, _, .closed (t := c.till) hescrow hvault hshares hcovered, h.symm⟩

/-- The payments of a settlement in tokens, by source and purpose. -/
theorem PaysTokens.purposes {t : Till} {gross : ℕ} {completed : Bool}
    {escrow' : Option (Account TaskEscrow)} {vault' : Option ℕ} {ts : List Transfer}
    (h : PaysTokens t gross completed escrow' vault' ts) :
    ∀ x ∈ ts, (x.source = .tokenEscrow t.key ∨
        x.source = .escrow t.key ∧ x.purpose = .closingBalance) ∧
      (x.purpose = .workerReward ∨ x.purpose = .protocolFee ∨ x.purpose = .closingBalance) := by
  cases h with
  | charged => simp [tokenShares]
  | closed => simp [tokenShares, closeEscrowTransfer]

/-- A settlement in tokens, whatever it records. -/
theorem Settles.of_tokens {t : Till} {payees : PayeeAccounts} {gross : ℕ} {completed : Bool}
    {escrow' : Option (Account TaskEscrow)} {vault' : Option ℕ} {ts : List Transfer}
    (hmint : t.mint ≠ none) (h : PaysTokens t gross completed escrow' vault' ts) :
    Settles t payees gross completed escrow' vault' ts := by
  refine .token hmint h.purposes ?_ ?_ h
  · rintro rfl
    cases h
    rfl
  · rintro rfl
    cases h with
    | charged loaded => exact ⟨_, _, loaded, rfl⟩

theorem updateTaskState_spec {task task' : Task} {timestamp : ℤ} {resultData : Option ℕ}
    (h : updateTaskState task timestamp resultData = .ok task') :
    1 ≤ task.currentWorkers ∧ task.completions + 1 < u8Limit ∧
    ∃ completedAt result, task' = { task with
      currentWorkers := task.currentWorkers - 1
      completions := task.completions + 1
      status := if completesTask task then .Completed else task.status
      completedAt := completedAt
      result := result } := by
  simp only [updateTaskState, bind_eq_ok, subU_eq_ok, addU8_eq_ok] at h
  obtain ⟨_, ⟨hpos, rfl⟩, _, ⟨hlt, rfl⟩, h⟩ := h
  refine ⟨hpos, hlt, ?_⟩
  split_ifs at h with hdone
  · exact ⟨_, _, by simpa [hdone] using (Except.ok.inj h).symm⟩
  · exact ⟨_, _, by simpa [hdone] using (Except.ok.inj h).symm⟩

theorem updateWorkerState_spec {worker worker' : AgentRegistration} {reward protocolFee : ℕ}
    {sol : Bool} {timestamp : ℤ}
    (h : updateWorkerState worker reward protocolFee sol timestamp = .ok worker') :
    1 ≤ worker.activeTasks ∧ ∃ tasksCompleted totalEarned reputation, worker' = { worker with
      tasksCompleted := tasksCompleted
      totalEarned := totalEarned
      activeTasks := worker.activeTasks - 1
      lastActive := timestamp
      reputation := reputation } := by
  simp only [updateWorkerState, bind_eq_ok, subU_eq_ok, Except.ok.injEq] at h
  obtain ⟨_, ⟨hpos, rfl⟩, rfl⟩ := h
  exact ⟨hpos, _, _, _, rfl⟩

/-- One completion: the worker's slot is free, the completion is counted, the gross amount is
settled. -/
theorem executeCompletionRewards_spec {c c' : TaskContext} {feeBps : ℕ}
    {price resultData : Option ℕ} {operatorLeg referrerLeg : Option FeeLeg}
    {payees : PayeeAccounts}
    (h : executeCompletionRewards c feeBps price resultData operatorLeg referrerLeg = .ok c')
    (hpassed : c.till.Passes payees operatorLeg referrerLeg) :
    ∃ gross escrow' vault' ts,
      completionGross c.accounts.task price = .ok gross ∧
      Settles c.till payees gross (completesTask c.accounts.task) escrow' vault' ts ∧
      c.accounts.escrow.isSome = true ∧
      1 ≤ c.accounts.task.currentWorkers ∧ 1 ≤ c.worker.data.activeTasks ∧
      c.accounts.task.completions + 1 < u8Limit ∧
    ∃ completedAt result rated tasksCompleted totalEarned reputation completedTasks totalValue,
      c' = { c with
        accounts := { c.accounts with
          task := { c.accounts.task with
            currentWorkers := c.accounts.task.currentWorkers - 1
            completions := c.accounts.task.completions + 1
            status := if completesTask c.accounts.task then .Completed
              else c.accounts.task.status
            completedAt := completedAt
            result := result
            ratingFeeQualified := rated }
          escrow := escrow'
          tokenEscrow := vault' }
        worker := { c.worker with data := { c.worker.data with
          tasksCompleted := tasksCompleted
          totalEarned := totalEarned
          activeTasks := c.worker.data.activeTasks - 1
          lastActive := c.sys.now
          reputation := reputation } }
        config := { c.config with
          completedTasks := completedTasks, totalValueDistributed := totalValue }
        paid := c.paid ++ ts } := by
  simp only [executeCompletionRewards, bind_eq_ok, demand_eq_ok, TaskContext.task_eq] at h
  obtain ⟨escrow, hescrow, split, hsplit, task, htask, worker, hworker, h⟩ := h
  obtain ⟨gross, hgross, hof⟩ := completionSplit_spec hsplit
  obtain ⟨hn, hk, completedAt, result, rfl⟩ := updateTaskState_spec htask
  obtain ⟨ha, tasksCompleted, totalEarned, reputation, rfl⟩ := updateWorkerState_spec hworker
  obtain ⟨completedTasks, totalValue, hconfig⟩ : ∃ completedTasks totalValue,
      (if completesTask c.accounts.task then
        updateProtocolStats c.config (price.getD c.accounts.task.rewardAmount)
          c.accounts.task.rewardMint.isNone else c.config) =
      { c.config with completedTasks := completedTasks, totalValueDistributed := totalValue } := by
    split_ifs
    · exact ⟨_, _, rfl⟩
    · exact ⟨_, _, rfl⟩
  rw [hconfig] at h
  by_cases hmint : c.accounts.task.rewardMint = none
  · have hsol : c.accounts.task.rewardMint.isNone = true := by simp [hmint]
    simp only [hsol, if_true] at h
    obtain ⟨hcov, hfit, rfl⟩ := settleSolRewards_spec h
    rw [hof.total] at hcov hfit ⊢
    exact ⟨gross, _, _, _, hgross, .sol (t := c.till) hmint hescrow hof hpassed hcov hfit,
      by simp [hescrow], hn, ha, hk, completedAt, result, _, tasksCompleted, totalEarned,
      reputation, completedTasks, totalValue, rfl⟩
  · have hsol : c.accounts.task.rewardMint.isNone = false := by
      rwa [← Bool.not_eq_true, Option.isNone_iff_eq_none]
    simp only [hsol, Bool.false_eq_true, if_false] at h
    have hlegs := completionSplit_token hsplit hmint
    have hshares : split.workerReward + split.protocolFee = split.total := by
      rw [RewardSplit.total, hof.operator, hof.referrer, hlegs.1, hlegs.2]
      rfl
    obtain ⟨escrow', vault', ts, hpays, rfl⟩ := settleTokenRewards_spec h hescrow hshares
    rw [hof.total] at hpays
    exact ⟨gross, _, _, _, hgross, .of_tokens (t := c.till) hmint hpays, by simp [hescrow], hn, ha,
      hk, completedAt, result, _, tasksCompleted, totalEarned, reputation, completedTasks,
      totalValue, rfl⟩

end AgencCoordination
