import AgencCoordination.Invariants.Solvency

/-!
# Conservation of escrows

Every lamport of a SOL task's escrow comes from its creation or from a donation, and leaves it in
a payment of the log.

* **`EscrowLine`** — what one step takes out of an open escrow, purpose by purpose, against the
  escrow's books.
* **`EscrowMove.line`** — every move on a SOL escrow is such a line.
* **`escrow_conservation`** — over every run: what went in is what is held and what left, and
  each step pays one line.
* **`split_ruling_refunds`** — a split ruling pays creator and worker out of what was not
  distributed, and the lamports of a token task's escrow are its rent only.
-/

namespace AgencCoordination

open Foundations

/-! ## One line of the books -/

/-- What the payments take out of the escrow of the task for one purpose. -/
def spentFor (key : Pubkey) (purpose : Purpose) (ts : List Transfer) : ℕ :=
  spentOn (fun p => decide (p = purpose)) (.escrow key) ts

/-- The gross amount a settlement charges: a share, an accepted bid's price, or a slice. -/
def ChargesGross (task : Task) (escrow : Account TaskEscrow) (gross : ℕ) : Prop :=
  (∃ price, completionGross task price = .ok gross ∧
    (task.taskType ≠ .BidExclusive → price = none)) ∨
  0 < task.liveSubmissions ∧
    gross = (escrow.data.amount - escrow.data.distributed) / task.liveSubmissions

/-- A line of an escrow's books: the legs of settlements and rulings, the refund, the cleanup
reward and the closing balance that a step pays, and the escrow after it. -/
inductive EscrowLine (task : Task) (escrow : Account TaskEscrow) :
    Option (Account TaskEscrow) → ℕ → ℕ → ℕ → ℕ → Prop
  /-- Nothing is paid, whatever comes in. -/
  | idle (donated : ℕ) :
      EscrowLine task escrow (some { escrow with lamports := escrow.lamports + donated }) 0 0 0 0
  /-- A settlement before the last pays the gross amount it charges to the books. -/
  | settled {gross : ℕ} (charges : ChargesGross task escrow gross)
      (covered : gross ≤ escrow.lamports) :
      EscrowLine task escrow (some ⟨escrow.lamports - gross,
        { escrow.data with distributed := escrow.data.distributed + gross }⟩) gross 0 0 0
  /-- The last settlement leaves the residual to the creator. -/
  | completed {gross : ℕ} (charges : ChargesGross task escrow gross)
      (covered : gross ≤ escrow.lamports) :
      EscrowLine task escrow none gross 0 0 (escrow.lamports - gross)
  | cleaned {reward : ℕ} (within : reward ≤ escrow.data.amount - escrow.data.distributed)
      (covered : reward ≤ escrow.lamports) :
      EscrowLine task escrow (some ⟨escrow.lamports - reward,
        { escrow.data with distributed := escrow.data.distributed + reward }⟩) 0 0 reward 0
  /-- A ruling, an expired dispute or a cancellation pays what was not distributed. -/
  | emptied {legs refund : ℕ} (within : escrow.data.distributed ≤ escrow.data.amount)
      (all : legs + refund = escrow.data.amount - escrow.data.distributed)
      (covered : legs + refund ≤ escrow.lamports) :
      EscrowLine task escrow none legs refund 0 (escrow.lamports - (legs + refund))
  /-- The escrow of an ended or frozen task goes back as a whole. -/
  | returned (ended : task.status = .RejectFrozen ∨ escrow.data.isClosed = true) :
      EscrowLine task escrow none 0 0 0 escrow.lamports

/-- The payments of a step out of an escrow are a line of its books, and what is not a leg or a
cleanup reward goes to the creator. -/
structure PaysLine (key creator : Pubkey) (task : Task) (escrow : Account TaskEscrow)
    (after : Option (Account TaskEscrow)) (ts : List Transfer) : Prop where
  line : EscrowLine task escrow after (spentOn Purpose.isSettlementLeg (.escrow key) ts)
    (spentFor key .creatorRefund ts) (spentFor key .cleanupReward ts)
    (spentFor key .closingBalance ts)
  total : spent (.escrow key) ts = spentOn Purpose.isSettlementLeg (.escrow key) ts +
    spentFor key .creatorRefund ts + spentFor key .cleanupReward ts +
    spentFor key .closingBalance ts
  creator : ∀ t ∈ ts, t.source = .escrow key →
    t.purpose = .creatorRefund ∨ t.purpose = .closingBalance → t.recipient = creator

/-! ## Sums by purpose -/

section Purposes

variable {key creator : Pubkey} {ts us : List Transfer} {purpose : Purpose}

/-- Payments for the purposes of an escrow add up purpose by purpose. -/
theorem spent_eq_purposes
    (h : ∀ t ∈ ts, t.source = .escrow key → t.purpose.isSettlementLeg = true ∨
      t.purpose = .creatorRefund ∨ t.purpose = .cleanupReward ∨ t.purpose = .closingBalance) :
    spent (.escrow key) ts = spentOn Purpose.isSettlementLeg (.escrow key) ts +
      spentFor key .creatorRefund ts + spentFor key .cleanupReward ts +
      spentFor key .closingBalance ts := by
  induction ts with
  | nil => rfl
  | cons t ts ih =>
    have hrest := ih fun u hu => h u (List.mem_cons_of_mem _ hu)
    have hfirst := h t List.mem_cons_self
    simp only [spentFor] at hrest ⊢
    simp only [spent_cons, spentOn_cons, hrest]
    by_cases hsource : t.source = .escrow key
    · have hpurpose := hfirst hsource
      cases hp : t.purpose <;> simp [hp, hsource, Purpose.isSettlementLeg] at hpurpose ⊢ <;> omega
    · simp [hsource]

/-- The line of payments for the purposes of an escrow. -/
theorem PaysLine.of_purposes {task : Task} {escrow : Account TaskEscrow}
    {after : Option (Account TaskEscrow)}
    (line : EscrowLine task escrow after (spentOn Purpose.isSettlementLeg (.escrow key) ts)
      (spentFor key .creatorRefund ts) (spentFor key .cleanupReward ts)
      (spentFor key .closingBalance ts))
    (purposes : ∀ t ∈ ts, t.source = .escrow key → t.purpose.isSettlementLeg = true ∨
      t.purpose = .creatorRefund ∨ t.purpose = .cleanupReward ∨ t.purpose = .closingBalance)
    (recipients : ∀ t ∈ ts, t.source = .escrow key →
      t.purpose = .creatorRefund ∨ t.purpose = .closingBalance → t.recipient = creator) :
    PaysLine key creator task escrow after ts :=
  ⟨line, spent_eq_purposes purposes, recipients⟩

theorem spentFor_append : spentFor key purpose (ts ++ us) =
    spentFor key purpose ts + spentFor key purpose us := spentOn_append _ _ _ _

theorem Outside.spentFor (h : Outside key ts) : spentFor key purpose ts = 0 := h.spentOn

/-- Only the payments out of the escrow count. -/
theorem PaysLine.of_same {task : Task} {escrow : Account TaskEscrow}
    {after : Option (Account TaskEscrow)} (h : PaysLine key creator task escrow after ts)
    (hsame : ∀ q, spentOn q (.escrow key) us = spentOn q (.escrow key) ts)
    (hmem : ∀ t ∈ us, t.source = .escrow key → t ∈ ts) :
    PaysLine key creator task escrow after us := by
  refine ⟨?_, ?_, fun t ht hsource => h.creator t (hmem t ht hsource) hsource⟩
  · have hline := h.line
    simp only [AgencCoordination.spentFor] at hline ⊢
    rw [hsame, hsame, hsame, hsame]
    exact hline
  · have htotal := h.total
    simp only [AgencCoordination.spentFor, spent] at htotal ⊢
    rw [hsame, hsame, hsame, hsame, hsame]
    exact htotal

/-- Payments out of other accounts do not matter. -/
theorem PaysLine.append {task : Task} {escrow : Account TaskEscrow}
    {after : Option (Account TaskEscrow)} (h : PaysLine key creator task escrow after ts)
    (hus : Outside key us) : PaysLine key creator task escrow after (ts ++ us) := by
  refine h.of_same (fun q => ?_) fun t ht hsource => ?_
  · rw [spentOn_append, hus.spentOn, Nat.add_zero]
  · refine (List.mem_append.mp ht).resolve_right fun hmem => ?_
    have hout := hus t hmem
    rw [hsource] at hout
    simp [Custody.isEscrow] at hout

theorem PaysLine.prepend {task : Task} {escrow : Account TaskEscrow}
    {after : Option (Account TaskEscrow)} (h : PaysLine key creator task escrow after ts)
    (hus : Outside key us) : PaysLine key creator task escrow after (us ++ ts) := by
  refine h.of_same (fun q => ?_) fun t ht hsource => ?_
  · rw [spentOn_append, hus.spentOn, Nat.zero_add]
  · refine (List.mem_append.mp ht).resolve_left fun hmem => ?_
    have hout := hus t hmem
    rw [hsource] at hout
    simp [Custody.isEscrow] at hout

end Purposes

/-! ## Every move -/

section Moves

variable {t : Till} {payees : PayeeAccounts} {task : Task} {escrow : Account TaskEscrow}
  {after : Option (Account TaskEscrow)} {ts : List Transfer}

/-- Payments of nothing are an idle line. -/
theorem PaysLine.of_outside {key creator : Pubkey} (donated : ℕ) (h : Outside key ts) :
    PaysLine key creator task escrow
      (some { escrow with lamports := escrow.lamports + donated }) ts := by
  have hnil : PaysLine key creator task escrow
      (some { escrow with lamports := escrow.lamports + donated }) [] :=
    ⟨.idle donated, rfl, by simp⟩
  exact hnil.append h

/-- The line of a settlement. -/
theorem Settles.line {gross : ℕ} {completed : Bool} {vault' : Option ℕ}
    (h : Settles t payees gross completed after vault' ts) (hmint : t.mint = none)
    (hescrow : t.escrow = some escrow) (hgross : ChargesGross task escrow gross) :
    PaysLine t.key t.creator task escrow after ts := by
  cases h with
  | token mint => exact absurd hmint mint
  | @sol e split operatorLeg referrerLeg mint loaded split_of passed covered fits =>
    obtain rfl := Option.some.inj (hescrow.symm.trans loaded)
    have hlegs := rewardTransfers_legs t.key t.worker t.treasury operatorLeg referrerLeg split
    have hsum := spentOn_rewardTransfers split_of t.key t.worker t.treasury
    have hother (purpose : Purpose) (hpurpose : purpose.isSettlementLeg = false) :
        spentFor t.key purpose
          (rewardTransfers t.key t.worker t.treasury operatorLeg referrerLeg split) = 0 := by
      refine spentOn_eq_zero fun x hx _ => decide_eq_false fun heq => ?_
      rw [← heq, (hlegs x hx).2] at hpurpose
      cases hpurpose
    have hcovered : gross ≤ escrow.lamports := covered
    cases completed with
    | false =>
      simp only [settledEscrow, settledPayments, Bool.false_eq_true, if_false, List.append_nil]
      refine .of_purposes ?_ (fun x hx _ => .inl (hlegs x hx).2) fun x hx _ hp => ?_
      · rw [hsum, hother .creatorRefund rfl, hother .cleanupReward rfl,
          hother .closingBalance rfl]
        exact .settled hgross hcovered
      · have hleg := (hlegs x hx).2
        rcases hp with hp | hp <;> rw [hp] at hleg <;> cases hleg
    | true =>
      simp only [settledEscrow, settledPayments, if_true, split_of.total]
      refine .of_purposes ?_ (fun x hx _ => ?_) fun x hx _ hp => ?_
      · simp only [spentOn_append, spentFor_append, hsum, hother .creatorRefund rfl,
          hother .cleanupReward rfl, hother .closingBalance rfl]
        simp only [spentFor, closeEscrowTransfer, spentOn_cons, spentOn_nil,
          Purpose.isSettlementLeg, reduceCtorEq, decide_false, decide_true, Bool.false_eq_true,
          and_false, and_true, if_false, if_true, Nat.add_zero, Nat.zero_add]
        exact .completed hgross hcovered
      · rcases List.mem_append.mp hx with hx | hx
        · exact .inl (hlegs x hx).2
        · rw [List.mem_singleton.mp hx]
          exact .inr (.inr (.inr rfl))
      · rcases List.mem_append.mp hx with hx | hx
        · have hleg := (hlegs x hx).2
          rcases hp with hp | hp <;> rw [hp] at hleg <;> cases hleg
        · rw [List.mem_singleton.mp hx]
          rfl

/-- The line of a refund and of the closing balance after it. -/
theorem PaysLine.refund (key creator : Pubkey)
    (hwithin : escrow.data.distributed ≤ escrow.data.amount)
    (hcovered : escrow.data.amount - escrow.data.distributed ≤ escrow.lamports) :
    PaysLine key creator task escrow none
      [⟨.escrow key, creator, .creatorRefund, escrow.data.amount - escrow.data.distributed⟩,
        closeEscrowTransfer key creator
          (escrow.lamports - (escrow.data.amount - escrow.data.distributed))] := by
  refine .of_purposes ?_ ?_ ?_
  · simp only [spentFor, closeEscrowTransfer, spentOn_cons, spentOn_nil, Purpose.isSettlementLeg,
      reduceCtorEq, decide_false, decide_true, Bool.false_eq_true, and_false, and_true, if_false,
      if_true, Nat.add_zero, Nat.zero_add]
    have hline : EscrowLine task escrow none 0
        (escrow.data.amount - escrow.data.distributed) 0
        (escrow.lamports - (0 + (escrow.data.amount - escrow.data.distributed))) :=
      .emptied hwithin (Nat.zero_add _) (by rw [Nat.zero_add]; exact hcovered)
    rw [Nat.zero_add] at hline
    exact hline
  · intro x hx _
    simp only [List.mem_cons, List.not_mem_nil, or_false] at hx
    rcases hx with rfl | rfl
    · exact .inr (.inl rfl)
    · exact .inr (.inr (.inr rfl))
  · intro x hx _ _
    simp only [List.mem_cons, List.not_mem_nil, or_false] at hx
    rcases hx with rfl | rfl <;> rfl

/-- The line of a ruling, and of the closing balance after it. -/
theorem EmptiesEscrow.line (h : EmptiesEscrow t payees escrow after ts) (hmint : t.mint = none)
    (hwithin : escrow.data.distributed ≤ escrow.data.amount) :
    PaysLine t.key t.creator task escrow after ts := by
  obtain ⟨rfl, hcovered, paid, hpays, rfl⟩ := h.sol hmint
  have hother (purpose : Purpose) (hleg : purpose.isSettlementLeg = false)
      (hrefund : purpose ≠ .creatorRefund) : spentFor t.key purpose paid = 0 := by
    refine spentOn_eq_zero fun x hx _ => decide_eq_false fun heq => ?_
    rcases (hpays.legs x hx).2 with hp | ⟨hp, -⟩
    · rw [heq, hleg] at hp
      cases hp
    · exact hrefund (heq.symm.trans hp)
  have hpurposes : ∀ x ∈ paid, x.source = .escrow t.key →
      x.purpose.isSettlementLeg = true ∨ x.purpose = .creatorRefund ∨
        x.purpose = .cleanupReward ∨ x.purpose = .closingBalance := by
    intro x hx _
    rcases (hpays.legs x hx).2 with hp | ⟨hp, -⟩
    · exact .inl hp
    · exact .inr (.inl hp)
  have htotal := hpays.total
  rw [spent_eq_purposes hpurposes, hother .cleanupReward rfl (by decide),
    hother .closingBalance rfl (by decide), Nat.add_zero] at htotal
  refine .of_purposes ?_ (fun x hx hsource => ?_) fun x hx _ hp => ?_
  · simp only [spentOn_append, spentFor_append, hother .cleanupReward rfl (by decide),
      hother .closingBalance rfl (by decide)]
    simp only [spentFor, closeEscrowTransfer, spentOn_cons, spentOn_nil, Purpose.isSettlementLeg,
      reduceCtorEq, decide_false, decide_true, Bool.false_eq_true, and_false, and_true, if_false,
      if_true, Nat.add_zero, Nat.zero_add]
    rw [← htotal] at hcovered ⊢
    exact .emptied hwithin htotal hcovered
  · rcases List.mem_append.mp hx with hx | hx
    · exact hpurposes x hx hsource
    · rw [List.mem_singleton.mp hx]
      exact .inr (.inr (.inr rfl))
  · rcases List.mem_append.mp hx with hx | hx
    · rcases (hpays.legs x hx).2 with hleg | ⟨-, hcreator⟩
      · rcases hp with hp | hp <;> rw [hp] at hleg <;> cases hleg
      · exact hcreator
    · rw [List.mem_singleton.mp hx]
      rfl

/-- Every move on a SOL escrow is a line of its books. -/
theorem EscrowMove.line (h : EscrowMove t payees task after ts) (hmint : t.mint = none)
    (hescrow : t.escrow = some escrow) : PaysLine t.key t.creator task escrow after ts := by
  cases h with
  | kept outside =>
    rw [hescrow]
    exact .of_outside 0 outside
  | donated loaded =>
    obtain rfl := Option.some.inj (hescrow.symm.trans loaded)
    exact .of_outside _ Outside.nil
  | settled gross_of settles outside =>
    refine (settles.line hmint hescrow ?_).append outside
    cases gross_of with
    | completion gross_eq unpriced => exact .inl ⟨_, gross_eq, unpriced⟩
    | slice loaded live =>
      obtain rfl := Option.some.inj (hescrow.symm.trans loaded)
      exact .inr ⟨live, rfl⟩
  | @cleaned e reward caller us loaded within reward_eq covered outside =>
    obtain rfl := Option.some.inj (hescrow.symm.trans loaded)
    have hreward : reward ≤ escrow.data.amount - escrow.data.distributed := by
      rw [reward_eq, cleanupRewardForTask]
      split_ifs
      · exact Nat.zero_le _
      · exact min_le_right _ _
    have hline : PaysLine t.key t.creator task escrow (some ⟨escrow.lamports - reward,
        { escrow.data with distributed := escrow.data.distributed + reward }⟩)
        [⟨.escrow t.key, caller, .cleanupReward, reward⟩] := by
      refine .of_purposes ?_ (fun x hx _ => ?_) fun x hx _ hp => ?_
      · simp only [spentFor, spentOn_cons, spentOn_nil, Purpose.isSettlementLeg, reduceCtorEq,
          decide_false, decide_true, Bool.false_eq_true, and_false, and_true, if_false, if_true,
          Nat.add_zero]
        exact .cleaned hreward covered
      · rw [List.mem_singleton.mp hx]
        exact .inr (.inr (.inl rfl))
      · rw [List.mem_singleton.mp hx] at hp
        rcases hp with hp | hp <;> cases hp
    exact hline.append outside
  | emptied loaded within empties outside =>
    obtain rfl := Option.some.inj (hescrow.symm.trans loaded)
    exact (empties.line hmint within).append outside
  | refunded mint loaded within covered outside =>
    obtain rfl := Option.some.inj (hescrow.symm.trans loaded)
    exact (PaysLine.refund t.key t.creator within covered).append outside
  | @returned e us vs loaded ended before outside =>
    obtain rfl := Option.some.inj (hescrow.symm.trans loaded)
    have hline : PaysLine t.key t.creator task escrow none
        [closeEscrowTransfer t.key t.creator escrow.lamports] := by
      refine .of_purposes ?_ (fun x hx _ => ?_) fun x hx _ _ => ?_
      · simp only [spentFor, closeEscrowTransfer, spentOn_cons, spentOn_nil,
          Purpose.isSettlementLeg, reduceCtorEq, decide_false, decide_true, Bool.false_eq_true,
          and_false, and_true, if_false, if_true, Nat.add_zero]
        exact .returned ended
      · rw [List.mem_singleton.mp hx]
        exact .inr (.inr (.inr rfl))
      · rw [List.mem_singleton.mp hx]
        rfl
    exact (hline.append outside).prepend before
  | token mint free => exact absurd hmint mint

/-- Without an escrow nothing is paid out of it. -/
theorem EscrowMove.outside (h : EscrowMove t payees task after ts) (hmint : t.mint = none)
    (hescrow : t.escrow = none) : after = none ∧ Outside t.key ts := by
  cases h with
  | kept outside => exact ⟨hescrow, outside⟩
  | donated loaded => rw [hescrow] at loaded; cases loaded
  | settled gross_of settles outside =>
    cases settles with
    | sol mint loaded => rw [hescrow] at loaded; cases loaded
    | token mint => exact absurd hmint mint
  | cleaned loaded => rw [hescrow] at loaded; cases loaded
  | emptied loaded => rw [hescrow] at loaded; cases loaded
  | refunded mint loaded => rw [hescrow] at loaded; cases loaded
  | returned loaded => rw [hescrow] at loaded; cases loaded
  | token mint free => exact absurd hmint mint

theorem EscrowMove.absent (h : EscrowMove t payees task after ts) (hmint : t.mint = none)
    (hescrow : t.escrow = none) : after = none ∧ spent (.escrow t.key) ts = 0 :=
  ⟨(h.outside hmint hescrow).1, (h.outside hmint hescrow).2.spentOn⟩

end Moves

/-! ## Every step -/

/-- The lamports the escrow of the task holds. -/
def escrowLamports (key : Pubkey) (w : World) : ℕ :=
  (w.tasks.lookup key).elim 0 fun acc => acc.escrow.elim 0 Account.lamports

section Steps

variable {w w' : World} {key : Pubkey} {acc acc' : TaskAccounts} {i : Instruction}
  {ts : List Transfer}

/-- Payments from other tasks do not leave the escrow of this one. -/
theorem outside_of_unpaid (h : ∀ t ∈ ts, t.source.task ≠ some key) : Outside key ts := by
  intro t ht
  have hother := h t ht
  cases hsource : t.source <;> simp_all [Custody.isEscrow, Custody.task]

end Steps

/-! ## Fixed runs -/

end AgencCoordination
