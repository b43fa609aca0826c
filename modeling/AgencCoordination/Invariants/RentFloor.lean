import AgencCoordination.Effects.Disputes
import AgencCoordination.Invariants.SettlementMath

/-!
# Fees and the rent floor

A transaction fails when it leaves an account that gained lamports below the balance rent
exempts. A settlement therefore pays a fee leg only to a payee who ends above that floor, and
leaves the leg to the worker otherwise.

* **`payLegs`** — the credits of the two legs, one after the other, on the wallets of all keys.
* **`runtimeAllows`** — the rent rule at the end of a transaction.
* **`rent_floor_split`** — the split pays what the rule allows, and the most that it allows.
-/

namespace AgencCoordination

open Foundations

/-! ## Wallets -/

/-- The balance and the data length of an account. -/
structure Wallet where
  lamports : ℕ
  dataLen : ℕ
  deriving DecidableEq

/-- A leg of a settlement: the key of its payee and the fee. -/
abbrev Leg := Option (Pubkey × ℕ)

/-- The fee of a leg. -/
def legDue (leg : Leg) : ℕ := (leg.map Prod.snd).getD 0

/-- A leg with the account of its payee, as the split reads it. -/
def legAt (bank : Pubkey → Wallet) (leg : Leg) : Option (PayeeAccount × ℕ) :=
  leg.map fun l => (⟨l.1, (bank l.1).lamports, (bank l.1).dataLen⟩, l.2)

/-- `transfer_lamports`, on the side of the account that gets them. -/
def creditWallet (bank : Pubkey → Wallet) (key : Pubkey) (amount : ℕ) :
    Result (Pubkey → Wallet) := do
  let lamports ← addU64 (bank key).lamports amount
  .ok (Function.update bank key ⟨lamports, (bank key).dataLen⟩)

/-- Pay one leg; nothing is transferred where nothing is due. -/
def payLeg (bank : Pubkey → Wallet) (leg : Leg) (amount : ℕ) : Result (Pubkey → Wallet) :=
  match leg with
  | some (key, _) => if 0 < amount then creditWallet bank key amount else .ok bank
  | none => .ok bank

/-- Pay the operator, then the referrer. -/
def payLegs (bank : Pubkey → Wallet) (operator referrer : Leg) (o r : ℕ) :
    Result (Pubkey → Wallet) := do
  let bank ← payLeg bank operator o
  payLeg bank referrer r

/-! ## The rent rule -/

/-- Whether an account holds lamports without being exempt from rent. -/
def rentPaying (rent : Rent) (wallet : Wallet) : Bool :=
  decide (0 < wallet.lamports) && !rent.isExempt wallet.lamports wallet.dataLen

/-- The rule at the end of a transaction, for an account that keeps its length: it may end empty
or exempt, or go on paying rent without having gained. -/
def runtimeAllows (rent : Rent) (pre post : Wallet) : Bool :=
  !rentPaying rent post || (rentPaying rent pre && decide (post.lamports ≤ pre.lamports))

theorem Rent.isExempt_mono {rent : Rent} {a b dataLen : ℕ} (hab : a ≤ b)
    (h : rent.isExempt a dataLen = true) : rent.isExempt b dataLen = true :=
  decide_eq_true ((of_decide_eq_true h).trans hab)

theorem runtimeAllows_same (rent : Rent) (wallet : Wallet) :
    runtimeAllows rent wallet wallet = true := by
  unfold runtimeAllows
  cases rentPaying rent wallet
  · rfl
  · simp

theorem runtimeAllows_of_exempt {rent : Rent} {pre post : Wallet}
    (h : rent.isExempt post.lamports post.dataLen = true) :
    runtimeAllows rent pre post = true := by
  simp [runtimeAllows, rentPaying, h]

/-- An account that gained must end exempt. -/
theorem exempt_of_runtimeAllows {rent : Rent} {pre post : Wallet}
    (hgain : pre.lamports < post.lamports) (h : runtimeAllows rent pre post = true) :
    rent.isExempt post.lamports post.dataLen = true := by
  have hnot : ¬ post.lamports ≤ pre.lamports := Nat.not_le.mpr hgain
  simp only [runtimeAllows, hnot, decide_false, Bool.and_false, Bool.or_false, rentPaying,
    Bool.not_and, Bool.not_not, Bool.or_eq_true, Bool.not_eq_true', decide_eq_false_iff_not] at h
  exact h.resolve_left fun hempty => hempty (Nat.zero_lt_of_lt hgain)

/-! ## Credits -/

/-- What paying a leg gives the account `k`. -/
def creditedTo (leg : Leg) (amount : ℕ) (k : Pubkey) : ℕ :=
  match leg with
  | some (key, _) => if key = k then amount else 0
  | none => 0

section Credits

variable {bank bank' : Pubkey → Wallet} {leg operator referrer : Leg} {amount o r : ℕ}

theorem payLeg_spec (h : payLeg bank leg amount = .ok bank') (k : Pubkey) :
    bank' k = ⟨(bank k).lamports + creditedTo leg amount k, (bank k).dataLen⟩ ∧
      (0 < creditedTo leg amount k → (bank' k).lamports < u64Limit) := by
  unfold payLeg at h
  split at h
  · rename_i key fee
    rcases ite_eq_iff.mp h with ⟨hpos, h⟩ | ⟨hzero, h⟩
    · simp only [creditWallet, bind_eq_ok, addU64_eq_ok, Except.ok.injEq] at h
      obtain ⟨_, ⟨hlt, rfl⟩, rfl⟩ := h
      by_cases hk : key = k
      · subst hk
        rw [Function.update_self, creditedTo, if_pos rfl]
        exact ⟨rfl, fun _ => hlt⟩
      · rw [Function.update_of_ne (Ne.symm hk), creditedTo, if_neg hk]
        exact ⟨rfl, fun hne => absurd hne (lt_irrefl 0)⟩
    · obtain rfl := Except.ok.inj h
      have hnone : amount = 0 := by omega
      rw [creditedTo, hnone, ite_self]
      exact ⟨rfl, fun hne => absurd hne (lt_irrefl 0)⟩
  · obtain rfl := Except.ok.inj h
    exact ⟨rfl, fun hne => absurd hne (lt_irrefl 0)⟩

/-- Two legs leave each account what they pay it together. -/
theorem payLegs_spec (h : payLegs bank operator referrer o r = .ok bank') (k : Pubkey) :
    bank' k = ⟨(bank k).lamports + (creditedTo operator o k + creditedTo referrer r k),
        (bank k).dataLen⟩ ∧
      (0 < creditedTo operator o k + creditedTo referrer r k → (bank' k).lamports < u64Limit) := by
  simp only [payLegs, bind_eq_ok] at h
  obtain ⟨middle, hoperator, hreferrer⟩ := h
  obtain ⟨hmiddle, hfits⟩ := payLeg_spec hoperator k
  obtain ⟨hlast, hfits'⟩ := payLeg_spec hreferrer k
  have hfinal : bank' k = ⟨(bank k).lamports + (creditedTo operator o k + creditedTo referrer r k),
      (bank k).dataLen⟩ := by
    rw [hlast, hmiddle, ← Nat.add_assoc]
  refine ⟨hfinal, fun hpos => ?_⟩
  by_cases hr : 0 < creditedTo referrer r k
  · exact hfits' hr
  · have hsame : (bank' k).lamports = (middle k).lamports := by
      rw [hlast]
      show (middle k).lamports + creditedTo referrer r k = (middle k).lamports
      omega
    rw [hsame]
    exact hfits (by omega)

end Credits

/-! ## The split -/

section Split

variable {rent : Rent} {bank : Pubkey → Wallet} {leg other : Leg} {key : Pubkey} {fee c : ℕ}

/-- What is due to one account from both legs. -/
def dueTo (leg other : Leg) (k : Pubkey) : ℕ :=
  creditedTo leg (legDue leg) k + creditedTo other (legDue other) k

/-- A leg is creditable if nothing is due, or if its payee can hold all that is due to it. The
credit the split tests is what is due, cut at 64 bits when both legs go to one account. -/
theorem legCreditable_eq (hfee : 0 < fee) (hleg : leg = some (key, fee)) :
    ∃ credit, legCreditable (legAt bank leg) (legAt bank other) rent =
        marketplacePayeeAccepts ⟨key, (bank key).lamports, (bank key).dataLen⟩ credit rent ∧
      (credit = dueTo leg other key ∨
        u64Limit - 1 = credit ∧ credit ≤ dueTo leg other key) := by
  subst hleg
  have hself : creditedTo (some (key, fee)) (legDue (some (key, fee))) key = fee := if_pos rfl
  unfold dueTo
  rw [hself]
  cases other with
  | none => exact ⟨fee, by simp [legCreditable, legAt, hfee.ne'], .inl rfl⟩
  | some next =>
    obtain ⟨otherKey, otherFee⟩ := next
    by_cases hshared : otherKey = key
    · subst hshared
      have hother : creditedTo (some (otherKey, otherFee)) (legDue (some (otherKey, otherFee)))
          otherKey = otherFee := if_pos rfl
      rw [hother]
      refine ⟨satAdd u64Limit fee otherFee, by simp [legCreditable, legAt, hfee.ne'], ?_⟩
      unfold satAdd
      omega
    · have hother : creditedTo (some (otherKey, otherFee)) (legDue (some (otherKey, otherFee)))
          key = 0 := if_neg hshared
      rw [hother]
      exact ⟨fee, by simp [legCreditable, legAt, hfee.ne', hshared], .inl rfl⟩

/-- A payee who can be credited ends exempt, if the credit fits the account at all. -/
theorem exempt_of_creditable (hfee : 0 < fee) (hleg : leg = some (key, fee))
    (h : legCreditable (legAt bank leg) (legAt bank other) rent = true)
    (hfits : (bank key).lamports + dueTo leg other key < u64Limit) :
    rent.isExempt ((bank key).lamports + dueTo leg other key) (bank key).dataLen = true := by
  obtain ⟨credit, heq, hcredit⟩ := @legCreditable_eq rent bank _ other _ _
    hfee hleg
  have hle : credit ≤ dueTo leg other key := by omega
  have hlands : (bank key).lamports + credit < u64Limit := by omega
  rw [heq, marketplacePayeeAccepts, if_pos hlands] at h
  exact Rent.isExempt_mono (Nat.add_le_add_left hle _) h

/-- A payee who cannot be credited would not be exempt with any part of what is due. -/
theorem not_exempt_of_not_creditable (hfee : 0 < fee) (hleg : leg = some (key, fee))
    (h : legCreditable (legAt bank leg) (legAt bank other) rent = false)
    (hc : c ≤ dueTo leg other key) (hfits : (bank key).lamports + c < u64Limit) :
    rent.isExempt ((bank key).lamports + c) (bank key).dataLen = false := by
  obtain ⟨credit, heq, hcredit⟩ := @legCreditable_eq rent bank _ other _ _
    hfee hleg
  have hle : c ≤ credit := by omega
  rw [heq, marketplacePayeeAccepts] at h
  split_ifs at h
  by_contra hexempt
  rw [Bool.not_eq_false] at hexempt
  rw [Rent.isExempt_mono (Nat.add_le_add_left hle _) hexempt] at h
  cases h

end Split

section Floor

variable {rent : Rent} {bank bank' : Pubkey → Wallet} {operator referrer : Leg} {o r : ℕ}

/-- What the split pays and forfeits of two legs. -/
def splitOf (bank : Pubkey → Wallet) (operator referrer : Leg) (rent : Rent) :
    CreditableMarketplaceFees :=
  splitCreditableMarketplaceFees (legAt bank operator) (legAt bank referrer) rent

theorem legAt_due (leg : Leg) : ((legAt bank leg).map Prod.snd).getD 0 = legDue leg := by
  cases leg <;> rfl

theorem splitOf_operatorFee : (splitOf bank operator referrer rent).operatorFee =
    if legCreditable (legAt bank operator) (legAt bank referrer) rent = true then legDue operator
    else 0 := by
  rw [← @legAt_due bank operator]
  rfl

theorem splitOf_referrerFee : (splitOf bank operator referrer rent).referrerFee =
    if legCreditable (legAt bank referrer) (legAt bank operator) rent = true then legDue referrer
    else 0 := by
  rw [← @legAt_due bank referrer]
  rfl

theorem dueTo_comm (leg other : Leg) (k : Pubkey) : dueTo leg other k = dueTo other leg k :=
  Nat.add_comm _ _

theorem creditedTo_le {leg : Leg} {a b : ℕ} (hab : a ≤ b) (k : Pubkey) :
    creditedTo leg a k ≤ creditedTo leg b k := by
  unfold creditedTo
  split
  · split_ifs
    · exact hab
    · exact le_rfl
  · exact le_rfl

theorem creditedTo_pos {leg : Leg} {amount : ℕ} {k : Pubkey} (h : 0 < creditedTo leg amount k) :
    0 < amount ∧ ∃ fee, leg = some (k, fee) := by
  unfold creditedTo at h
  split at h
  · split_ifs at h with hk
    · exact ⟨h, _, by rw [hk]⟩
    · exact absurd h (lt_irrefl 0)
  · exact absurd h (lt_irrefl 0)

theorem paid_pos {ok : Bool} {due : ℕ} (h : 0 < if ok = true then due else 0) :
    ok = true ∧ 0 < due := by
  split_ifs at h with hok
  · exact ⟨hok, h⟩
  · exact absurd h (lt_irrefl 0)

/-- Two legs of one payee are both paid or both forfeited. -/
theorem paid_together {key fee otherFee : ℕ} (hfee : 0 < fee)
    (hok : legCreditable (legAt bank (some (key, fee))) (legAt bank (some (key, otherFee))) rent =
      true) :
    legCreditable (legAt bank (some (key, otherFee))) (legAt bank (some (key, fee))) rent =
      true := by
  by_cases hnone : otherFee = 0
  · simp [legCreditable, legAt, hnone]
  · simp only [legCreditable, legAt, Option.map_some, hfee.ne', hnone, if_true, if_false] at hok ⊢
    rwa [satAdd, Nat.add_comm otherFee fee, ← satAdd]

/-- The payee of a paid leg is paid all that is due to it. -/
theorem paid_due {leg other : Leg} {key fee : ℕ} (hfee : 0 < fee) (hleg : leg = some (key, fee))
    (hok : legCreditable (legAt bank leg) (legAt bank other) rent = true) :
    creditedTo other (if legCreditable (legAt bank other) (legAt bank leg) rent = true then
      legDue other else 0) key = creditedTo other (legDue other) key := by
  subst hleg
  cases other with
  | none => rfl
  | some next =>
    obtain ⟨otherKey, otherFee⟩ := next
    by_cases hshared : otherKey = key
    · subst hshared
      rw [if_pos (paid_together hfee hok)]
    · rw [creditedTo, creditedTo, if_neg hshared, if_neg hshared]

/-- Paying what the split says leaves the payee of a paid leg exempt. -/
theorem splitOf_exempt (hpays : payLegs bank operator referrer
      (splitOf bank operator referrer rent).operatorFee
      (splitOf bank operator referrer rent).referrerFee = .ok bank') {k : Pubkey}
    (hgain : 0 < creditedTo operator (splitOf bank operator referrer rent).operatorFee k +
      creditedTo referrer (splitOf bank operator referrer rent).referrerFee k) :
    rent.isExempt (bank' k).lamports (bank' k).dataLen = true := by
  obtain ⟨hbank', hfits⟩ := payLegs_spec hpays k
  have hfits := hfits hgain
  rw [splitOf_operatorFee, splitOf_referrerFee] at hbank' hgain
  rw [hbank'] at hfits ⊢
  rcases Nat.add_pos_iff_pos_or_pos.mp hgain with hgain | hgain
  · obtain ⟨hpaid, fee, hleg⟩ := creditedTo_pos hgain
    obtain ⟨hok, hfee⟩ := paid_pos hpaid
    have hfee : 0 < fee := by rwa [hleg] at hfee
    have hdue : creditedTo operator (if legCreditable (legAt bank operator) (legAt bank referrer)
        rent = true then legDue operator else 0) k + creditedTo referrer
        (if legCreditable (legAt bank referrer) (legAt bank operator) rent = true then
          legDue referrer else 0) k = dueTo operator referrer k := by
      rw [paid_due hfee hleg hok, if_pos hok]
      rfl
    rw [hdue] at hfits ⊢
    exact exempt_of_creditable hfee hleg hok hfits
  · obtain ⟨hpaid, fee, hleg⟩ := creditedTo_pos hgain
    obtain ⟨hok, hfee⟩ := paid_pos hpaid
    have hfee : 0 < fee := by rwa [hleg] at hfee
    have hdue : creditedTo operator (if legCreditable (legAt bank operator) (legAt bank referrer)
        rent = true then legDue operator else 0) k + creditedTo referrer
        (if legCreditable (legAt bank referrer) (legAt bank operator) rent = true then
          legDue referrer else 0) k = dueTo referrer operator k := by
      rw [paid_due hfee hleg hok, if_pos hok, dueTo_comm]
      rfl
    rw [hdue] at hfits ⊢
    exact exempt_of_creditable hfee hleg hok hfits

/-- A leg that is forfeited could not be paid in part either. -/
theorem nothing_of_not_creditable {leg other : Leg} {a b : ℕ} (ha : a ≤ legDue leg)
    (hb : b ≤ legDue other)
    (hok : legCreditable (legAt bank leg) (legAt bank other) rent = false)
    (hpost : ∀ k, bank' k = ⟨(bank k).lamports + (creditedTo leg a k + creditedTo other b k),
      (bank k).dataLen⟩)
    (hfits : ∀ k, 0 < creditedTo leg a k + creditedTo other b k → (bank' k).lamports < u64Limit)
    (hallowed : ∀ k, runtimeAllows rent (bank k) (bank' k) = true) : a = 0 := by
  by_contra hne
  have hpos : 0 < a := Nat.pos_of_ne_zero hne
  cases leg with
  | none => exact hne (Nat.le_zero.mp ha)
  | some l =>
    obtain ⟨key, fee⟩ := l
    have hfee : 0 < fee := hpos.trans_le ha
    have hself : creditedTo (some (key, fee)) a key = a := if_pos rfl
    have hgain : 0 < creditedTo (some (key, fee)) a key + creditedTo other b key := by omega
    have hle : creditedTo (some (key, fee)) a key + creditedTo other b key ≤
        dueTo (some (key, fee)) other key :=
      Nat.add_le_add (creditedTo_le ha key) (creditedTo_le hb key)
    have hland := hfits key hgain
    have hrule := hallowed key
    rw [hpost key] at hland hrule
    have hexempt := exempt_of_runtimeAllows (Nat.lt_add_of_pos_right hgain) hrule
    rw [not_exempt_of_not_creditable hfee rfl hok hle hland] at hexempt
    cases hexempt

end Floor

/-! ## Where the forfeited part goes -/

section Forfeits

variable {workerReward protocolFee p : ℕ} {operatorLeg referrerLeg : Option FeeLeg} {rent : Rent}

/-- A completion takes off the worker's reward what it pays the two legs, and no more: a fee is
zero without its leg, so all that was carved is paid or given back. -/
theorem Checked.carveLegs_forfeits {task : Task} {withTokenAccounts : Bool} {s : RewardSplit}
    (h : Checked.carveLegs task p workerReward protocolFee operatorLeg referrerLeg rent
      withTokenAccounts = .ok s) :
    s.workerReward + (s.operatorFee + s.referrerFee) = workerReward := by
  unfold Checked.carveLegs at h
  rcases ite_eq_iff.mp h with ⟨-, h⟩ | ⟨-, h⟩
  · simp only [bind_eq_ok, require_eq_ok, addU64_eq_ok, subU_eq_ok, Prod.exists,
      CreditableMarketplaceFees.forfeited, Except.ok.injEq] at h
    obtain ⟨_, -, _, ⟨-, rfl⟩, o, r, hcombined, _, ⟨-, rfl⟩, _, ⟨hle, rfl⟩, h⟩ := h
    obtain ⟨_, -, _, ⟨-, rfl⟩, _, ⟨-, rfl⟩, rfl⟩ := h
    obtain ⟨rfl, rfl⟩ := Prod.mk.inj
      (AgencCoordination.calculateCombinedFees_spec (Checked.calculateCombinedFees_spec hcombined))
    have hdue (leg : Option FeeLeg) (base : ℕ) : ((leg.map fun l =>
        (l.payee, AgencCoordination.bpsOf base (activeFeeBps leg))).map Prod.snd).getD 0 =
          AgencCoordination.bpsOf base (activeFeeBps leg) := by
      cases leg with
      | none => exact (bpsOf_zero base).symm
      | some leg => rfl
    have hoperator := splitCreditableMarketplaceFees_operator (operatorLeg.map fun leg =>
      (leg.payee, AgencCoordination.bpsOf (workerReward + protocolFee) (activeFeeBps operatorLeg)))
      (referrerLeg.map fun leg => (leg.payee,
        AgencCoordination.bpsOf (workerReward + protocolFee) (activeFeeBps referrerLeg))) rent
    have hreferrer := splitCreditableMarketplaceFees_referrer (operatorLeg.map fun leg =>
      (leg.payee, AgencCoordination.bpsOf (workerReward + protocolFee) (activeFeeBps operatorLeg)))
      (referrerLeg.map fun leg => (leg.payee,
        AgencCoordination.bpsOf (workerReward + protocolFee) (activeFeeBps referrerLeg))) rent
    rw [hdue] at hoperator hreferrer
    dsimp only
    omega
  · obtain rfl := Except.ok.inj h
    rfl

/-- A share of an abandoned contest does the same. -/
theorem carveMarketplaceLegs_forfeits {s : RewardSplit}
    (h : carveMarketplaceLegs (workerReward + protocolFee) p workerReward protocolFee operatorLeg
      referrerLeg rent = .ok s) :
    s.workerReward + (s.operatorFee + s.referrerFee) = workerReward := by
  have htotal := (carveMarketplaceLegs_spec h rfl).total
  have hprotocol : s.protocolFee = protocolFee := by
    unfold carveMarketplaceLegs at h
    rcases ite_eq_iff.mp h with ⟨-, h⟩ | ⟨-, h⟩
    · obtain rfl := Except.ok.inj h
      rfl
    · simp only [bind_eq_ok, Prod.exists, Except.ok.injEq] at h
      obtain ⟨_, _, -, _, -, _, -, rfl⟩ := h
      rfl
  rw [RewardSplit.total] at htotal
  omega

/-- What a ruling takes off the worker's part is what it pays the two legs. -/
theorem payDisputeMarketplaceLegs_forfeits {c : TaskContext} {terms : MarketplaceTerms}
    {payees : PayeeAccounts} {workerGross legsFee : ℕ} {ts : List Transfer}
    (h : payDisputeMarketplaceLegs c terms payees workerGross = .ok (ts, legsFee)) :
    (ts.map Transfer.amount).sum = legsFee := by
  simp only [payDisputeMarketplaceLegs, bind_eq_ok] at h
  obtain ⟨operatorLeg, -, referrerLeg, -, h⟩ := h
  rcases ite_eq_iff.mp h with ⟨-, h⟩ | ⟨-, h⟩
  · obtain ⟨rfl, rfl⟩ := Prod.mk.inj (Except.ok.inj h)
    rfl
  · simp only [bind_eq_ok, Prod.exists, Except.ok.injEq, Prod.mk.injEq] at h
    obtain ⟨o, r, -, rfl, rfl⟩ := h
    cases operatorLeg with
    | none =>
      cases referrerLeg with
      | none => rfl
      | some leg => simp [legTransfer, splitCreditableMarketplaceFees]
    | some leg =>
      cases referrerLeg with
      | none => simp [legTransfer, splitCreditableMarketplaceFees]
      | some leg => simp [legTransfer]

end Forfeits

/-- **Fees and the rent floor.** Whatever the balances and lengths of the payees' accounts and
whatever the two fees, also when one account is owed both: the split pays and forfeits each fee as
a whole; if the payments land, every account they leave passes the rent rule, and the payee of a
paid leg is exempt; and no payment of the fees in whole or in part that passes the rule pays
either of them more. What a completion, a share of a contest or a ruling takes off the worker is
what the legs are paid. -/
theorem rent_floor_split (rent : Rent) (bank : Pubkey → Wallet) (operator referrer : Leg) :
    (splitOf bank operator referrer rent).operatorFee +
        (splitOf bank operator referrer rent).forfeitedOperatorFee = legDue operator ∧
    (splitOf bank operator referrer rent).referrerFee +
        (splitOf bank operator referrer rent).forfeitedReferrerFee = legDue referrer ∧
    (∀ bank', payLegs bank operator referrer (splitOf bank operator referrer rent).operatorFee
        (splitOf bank operator referrer rent).referrerFee = .ok bank' →
      (∀ k, runtimeAllows rent (bank k) (bank' k) = true) ∧
      (∀ k fee, operator = some (k, fee) → 0 < (splitOf bank operator referrer rent).operatorFee →
        rent.isExempt (bank' k).lamports (bank' k).dataLen = true) ∧
      ∀ k fee, referrer = some (k, fee) → 0 < (splitOf bank operator referrer rent).referrerFee →
        rent.isExempt (bank' k).lamports (bank' k).dataLen = true) ∧
    (∀ o r bank', o ≤ legDue operator → r ≤ legDue referrer →
      payLegs bank operator referrer o r = .ok bank' →
      (∀ k, runtimeAllows rent (bank k) (bank' k) = true) →
      o ≤ (splitOf bank operator referrer rent).operatorFee ∧
        r ≤ (splitOf bank operator referrer rent).referrerFee) ∧
    (∀ task p workerReward protocolFee operatorLeg referrerLeg withTokenAccounts s,
      Checked.carveLegs task p workerReward protocolFee operatorLeg referrerLeg rent
        withTokenAccounts = .ok s →
      s.workerReward + (s.operatorFee + s.referrerFee) = workerReward) ∧
    (∀ p workerReward protocolFee operatorLeg referrerLeg s,
      carveMarketplaceLegs (workerReward + protocolFee) p workerReward protocolFee operatorLeg
        referrerLeg rent = .ok s →
      s.workerReward + (s.operatorFee + s.referrerFee) = workerReward) ∧
    (∀ c terms payees workerGross ts legsFee,
      payDisputeMarketplaceLegs c terms payees workerGross = .ok (ts, legsFee) →
      (ts.map Transfer.amount).sum = legsFee) := by
  refine ⟨?_, ?_, fun bank' hpays => ⟨fun k => ?_, ?_, ?_⟩, ?_, fun _ _ _ _ _ _ _ _ h =>
    Checked.carveLegs_forfeits h, fun _ _ _ _ _ _ h => carveMarketplaceLegs_forfeits h,
    fun _ _ _ _ _ _ h => payDisputeMarketplaceLegs_forfeits h⟩
  · rw [← @legAt_due bank operator]
    exact splitCreditableMarketplaceFees_operator _ _ _
  · rw [← @legAt_due bank referrer]
    exact splitCreditableMarketplaceFees_referrer _ _ _
  · by_cases hgain : 0 < creditedTo operator (splitOf bank operator referrer rent).operatorFee k +
        creditedTo referrer (splitOf bank operator referrer rent).referrerFee k
    · exact runtimeAllows_of_exempt (splitOf_exempt hpays hgain)
    · have hnone := Nat.eq_zero_of_not_pos hgain
      rw [(payLegs_spec hpays k).1, hnone]
      exact runtimeAllows_same rent (bank k)
  · rintro k fee rfl hpaid
    refine splitOf_exempt hpays (Nat.add_pos_left ?_ _)
    rwa [creditedTo, if_pos rfl]
  · rintro k fee rfl hpaid
    refine splitOf_exempt hpays (Nat.add_pos_right _ ?_)
    rwa [creditedTo, if_pos rfl]
  · intro o r bank' ho hr hpays hallowed
    have hspec := payLegs_spec hpays
    rw [splitOf_operatorFee, splitOf_referrerFee]
    constructor
    · split_ifs with hok
      · exact ho
      · refine (nothing_of_not_creditable ho hr (Bool.eq_false_iff.mpr hok)
          (fun k => (hspec k).1) (fun k => (hspec k).2) hallowed).le
    · split_ifs with hok
      · exact hr
      · refine (nothing_of_not_creditable hr ho (Bool.eq_false_iff.mpr hok) (fun k => ?_)
          (fun k => ?_) hallowed).le
        · rw [Nat.add_comm (creditedTo referrer r k)]
          exact (hspec k).1
        · rw [Nat.add_comm (creditedTo referrer r k)]
          exact (hspec k).2

/-- One empty account that is owed both legs is paid both, as they reach the floor together. -/
theorem rent_floor_split_shared :
    ∃ bank', payLegs (fun _ => ⟨0, 0⟩) (some (30, 500000)) (some (30, 400000))
        (splitOf (fun _ => ⟨0, 0⟩) (some (30, 500000)) (some (30, 400000)) ⟨3480, 2⟩).operatorFee
        (splitOf (fun _ => ⟨0, 0⟩) (some (30, 500000)) (some (30, 400000)) ⟨3480, 2⟩).referrerFee =
          .ok bank' ∧
      (bank' 30).lamports = 900000 ∧
      ∀ k, runtimeAllows ⟨3480, 2⟩ ⟨0, 0⟩ (bank' k) = true := by
  obtain ⟨-, -, hrule, -⟩ := rent_floor_split ⟨3480, 2⟩ (fun _ => ⟨0, 0⟩) (some (30, 500000))
    (some (30, 400000))
  have hpays : ∃ bank', payLegs (fun _ => ⟨0, 0⟩) (some (30, 500000)) (some (30, 400000))
      (splitOf (fun _ => ⟨0, 0⟩) (some (30, 500000)) (some (30, 400000)) ⟨3480, 2⟩).operatorFee
      (splitOf (fun _ => ⟨0, 0⟩) (some (30, 500000)) (some (30, 400000)) ⟨3480, 2⟩).referrerFee =
        .ok bank' ∧ (bank' 30).lamports = 900000 := by
    exact ⟨_, rfl, by decide⟩
  obtain ⟨bank', hpays, hbalance⟩ := hpays
  exact ⟨bank', hpays, hbalance, (hrule bank' hpays).1⟩

end AgencCoordination
