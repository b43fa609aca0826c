import AgencCoordination.Foundations.EqualShares
import AgencCoordination.Invariants.Conservation
import AgencCoordination.Invariants.Pinned
import AgencCoordination.Invariants.TokenMoves

/-!
# The books of a token escrow

The token account of a task holds what was deposited and not yet distributed, and whatever else was
sent there. The deposit goes out in shares, refunds and rulings, the rest when the account is
closed.

* **`TokenBooks`** — an open token account against the escrow's counters, and against what the log
  paid out of it and sent into it; a closed one against the whole deposit.
* **`TokenBooks.step`** — every move keeps the books.
* **`Run.tokenBooks`** — so they hold after every run.
-/

namespace AgencCoordination

open Foundations

/-! ## Sums over a log -/

/-- The purposes a deposit is paid out for: the work, its fee, and the creator's refund. -/
def Purpose.isDue : Purpose → Bool
  | .workerReward | .protocolFee | .creatorRefund => true
  | _ => false

/-- What a log paid out of the token account of the task, for the given purposes. -/
def tokensPaid (q : Purpose → Bool) (key : Pubkey) (log : List LogEntry) : ℕ :=
  Run.sumOver (fun e => spentOn q (.tokenEscrow key) e.label.2) log

/-- The deposit paid out of the token account. -/
def duePaid (key : Pubkey) : List LogEntry → ℕ := tokensPaid Purpose.isDue key

/-- What was left in the token account when it was closed. -/
def closingPaid (key : Pubkey) : List LogEntry → ℕ :=
  tokensPaid (fun p => decide (p = .closingBalance)) key

/-- What a slash took out of the token account. -/
def slashPaid (key : Pubkey) : List LogEntry → ℕ :=
  tokensPaid (fun p => decide (p = .stakeSlash)) key

/-- The tokens an instruction finds at, or sends to, the address of the token account, beyond the
deposit. -/
def Instruction.unsolicited (key : Pubkey) : Instruction → ℕ
  | .create k _ _ pre _ => if k = key then pre.tokens else 0
  | i => i.sendsTokens key

/-- All tokens a log sent to the token account beyond the deposit. -/
def unsolicited (key : Pubkey) (log : List LogEntry) : ℕ :=
  Run.sumOver (fun e => e.label.1.unsolicited key) log

section Sums

variable {key : Pubkey} {q : Purpose → Bool} {ts : List Transfer}

/-- Only the payments out of the escrow's accounts count. -/
theorem spentOn_escrowPayments :
    spentOn q (.tokenEscrow key) (escrowPayments key ts) = spentOn q (.tokenEscrow key) ts := by
  induction ts with
  | nil => rfl
  | cons t ts ih =>
    rw [← List.singleton_append, escrowPayments_append, spentOn_append, spentOn_append, ih]
    congr 1
    by_cases hin : t.source.isEscrow key = true
    · rw [escrowPayments_eq_self (by simpa using hin)]
    · have hne : t.source ≠ .tokenEscrow key := by
        intro hsource
        rw [hsource] at hin
        exact hin isEscrow_tokenEscrow
      rw [Outside.escrowPayments (by simpa [Outside] using hin)]
      simp [hne]

theorem Outside.spentOn_token (h : Outside key ts) :
    AgencCoordination.spentOn q (.tokenEscrow key) ts = 0 := by
  rw [← spentOn_escrowPayments, h.escrowPayments, spentOn_nil]

/-- Payments out of other accounts do not count. -/
theorem spentOn_of_source {source : Custody} (h : ∀ t ∈ ts, t.source ≠ source) :
    spentOn q source ts = 0 := by
  induction ts with
  | nil => rfl
  | cons t ts ih =>
    rw [spentOn_cons, ih fun u hu => h u (List.mem_cons_of_mem _ hu),
      if_neg fun hboth => h t List.mem_cons_self hboth.1]

theorem spentOn_tokenRuling {creator worker : Pubkey} {approved : Bool}
    {resolution : ResolutionType} {amount : ℕ} (hworker : q .workerReward = true)
    (hcreator : q .creatorRefund = true) :
    spentOn q (.tokenEscrow key) (tokenRuling key creator worker approved resolution amount) =
      amount := by
  cases approved with
  | false => cases resolution <;> simp [tokenRuling, hcreator]
  | true =>
    cases resolution with
    | Refund => simp [tokenRuling, hcreator]
    | Complete => simp [tokenRuling, hworker]
    | Split =>
      simp only [tokenRuling, spentOn_cons, spentOn_nil, hworker, hcreator, and_self, if_true]
      omega

theorem spentOn_tokenRuling_eq_zero {creator worker : Pubkey} {approved : Bool}
    {resolution : ResolutionType} {amount : ℕ} (hworker : q .workerReward = false)
    (hcreator : q .creatorRefund = false) :
    spentOn q (.tokenEscrow key) (tokenRuling key creator worker approved resolution amount) =
      0 := by
  cases approved <;> cases resolution <;> simp [tokenRuling, hworker, hcreator]

end Sums

/-! ## The books -/

/-- What is fixed of a task paid in tokens: it is no bid task, and every completion is worth
something. -/
structure TokenTask (task : Task) : Prop where
  type : task.taskType ≠ .BidExclusive
  single : task.taskType ≠ .Collaborative → task.requiredCompletions = 1
  required : 0 < task.requiredCompletions
  funded : task.requiredCompletions ≤ task.rewardAmount
  unfrozen : task.status ≠ .RejectFrozen

/-- What the first `n` completions of the task are worth. -/
def sharesOf (task : Task) (n : ℕ) : ℕ :=
  ∑ i ∈ Finset.range n, roundedShare task.rewardAmount task.requiredCompletions i

/-- The escrow of a task paid in tokens, open or closed, after `paid` of the deposit and `extra`
tokens beyond it. -/
inductive TokenBooks (acc : TaskAccounts) (paid closing slash extra : ℕ) : Prop
  /-- While the task goes on, exactly the shares of its completions are distributed. -/
  | live {escrow : Account TaskEscrow} {held : ℕ} (loaded : acc.escrow = some escrow)
      (vault : acc.tokenEscrow = some held) (opened : escrow.data.isClosed = false)
      (amount : escrow.data.amount = acc.task.rewardAmount)
      (booked : escrow.data.distributed = sharesOf acc.task acc.task.completions)
      (waiting : acc.task.completions < acc.task.requiredCompletions)
      (going : ¬acc.task.status.isFinished)
      (paid_eq : paid = escrow.data.distributed)
      (held_eq : held + escrow.data.distributed = escrow.data.amount + extra)
      (closing_eq : closing = 0) (slash_eq : slash = 0)
  /-- A refund ruling against the worker left a reserve for the slash. -/
  | reserved {escrow : Account TaskEscrow} {held : ℕ} (loaded : acc.escrow = some escrow)
      (vault : acc.tokenEscrow = some held) (opened : escrow.data.isClosed = false)
      (amount : escrow.data.amount = acc.task.rewardAmount)
      (within : escrow.data.distributed < escrow.data.amount)
      (finished : acc.task.status.isFinished) (pending : acc.task.workerSlashPending = true)
      (paid_eq : paid = escrow.data.distributed)
      (held_eq : held + escrow.data.distributed = escrow.data.amount + extra)
      (closing_eq : closing = 0) (slash_eq : slash = 0)
  /-- The whole deposit is paid out, and what came on top of it at the closing. -/
  | settled (vault : acc.tokenEscrow = none)
      (closed : ∀ escrow, acc.escrow = some escrow → escrow.data.isClosed = true)
      (finished : acc.task.status.isFinished)
      (paid_eq : paid = acc.task.rewardAmount) (closing_eq : closing = extra) (slash_eq : slash = 0)
  /-- The slash took the reserve, and what came on top of it. -/
  | slashed {reserve : ℕ} (vault : acc.tokenEscrow = none)
      (closed : ∀ escrow, acc.escrow = some escrow → escrow.data.isClosed = true)
      (finished : acc.task.status.isFinished)
      (paid_eq : paid + reserve = acc.task.rewardAmount) (some_reserve : 0 < reserve)
      (closing_eq : closing = 0) (slash_eq : slash = reserve + extra)

section Books

variable {key treasury : Pubkey} {acc acc' : TaskAccounts} {ps : List Transfer}
  {paid closing slash extra sent share : ℕ}

/-- The next share of a task paid in tokens. -/
theorem TokenTask.gross (h : TokenTask acc.task)
    (hwaiting : acc.task.completions < acc.task.requiredCompletions)
    (hgross : calculateRewardPerWorker acc.task = .ok share) :
    share = roundedShare acc.task.rewardAmount acc.task.requiredCompletions
      acc.task.completions := by
  by_cases htype : acc.task.taskType = .Collaborative
  · simp only [calculateRewardPerWorker, htype, require_bind_eq_ok] at hgross
    obtain ⟨-, hgross⟩ := hgross
    unfold roundedShare
    split_ifs at hgross ⊢ with hfirst
    · exact (addU64_eq_ok.mp hgross).2
    · exact (Except.ok.inj hgross).symm
  · have hone := h.single htype
    have hfirst : acc.task.completions = 0 := by omega
    have hreward : share = acc.task.rewardAmount := by
      cases hkind : acc.task.taskType with
      | Collaborative => exact absurd hkind htype
      | Exclusive | Competitive | BidExclusive =>
        simp only [calculateRewardPerWorker, hkind, Except.ok.injEq] at hgross
        exact hgross.symm
    rw [hreward, hone, hfirst, roundedShare, Nat.div_one, Nat.mod_one, if_neg (lt_irrefl 0),
      Nat.add_zero]

theorem sharesOf_succ (task : Task) (n : ℕ) : sharesOf task (n + 1) =
    sharesOf task n + roundedShare task.rewardAmount task.requiredCompletions n :=
  Finset.sum_range_succ _ n

/-- Before the last completion something is left. -/
theorem TokenTask.left (h : TokenTask acc.task) {n : ℕ} (hn : n < acc.task.requiredCompletions) :
    sharesOf acc.task n < acc.task.rewardAmount :=
  sum_roundedShare_lt hn h.funded

/-- A task going on has stakes to divide. -/
theorem TokenBooks.stakes (h : TokenBooks acc paid closing slash extra) (htask : TokenTask acc.task)
    (hgoing : ¬acc.task.status.isFinished) : StakesOpen acc := by
  cases h with
  | live loaded vault opened amount booked waiting going =>
    refine ⟨_, _, loaded, vault, ?_⟩
    rw [booked, amount]
    exact htask.left waiting
  | reserved loaded vault opened amount within finished => exact absurd finished hgoing
  | settled vault closed finished => exact absurd finished hgoing
  | slashed vault closed finished => exact absurd finished hgoing

/-- A move that books nothing keeps the books, and what comes in is held. -/
theorem TokenBooks.kept (h : TokenBooks acc paid closing slash extra)
    (books : acc'.escrow.map Account.data = acc.escrow.map Account.data)
    (vault : acc'.tokenEscrow = acc.tokenEscrow.map (· + sent))
    (completions : acc'.task.completions = acc.task.completions)
    (pending : acc'.task.workerSlashPending = acc.task.workerSlashPending)
    (status : Continues acc.task.status acc'.task.status)
    (hreward : acc'.task.rewardAmount = acc.task.rewardAmount)
    (hrequired : acc'.task.requiredCompletions = acc.task.requiredCompletions)
    (hfinished : acc.task.status.isFinished → acc'.task.status = acc.task.status)
    (hsent : 0 < sent → acc.tokenEscrow.isSome = true) :
    TokenBooks acc' paid closing slash (extra + sent) := by
  have hstill (hnone : acc.tokenEscrow = none) : extra + sent = extra := by
    rcases Nat.eq_zero_or_pos sent with rfl | hpos
    · rfl
    · have hsome := hsent hpos
      rw [hnone] at hsome
      cases hsome
  have hclosed (hclosed : ∀ escrow, acc.escrow = some escrow → escrow.data.isClosed = true) :
      ∀ escrow, acc'.escrow = some escrow → escrow.data.isClosed = true := by
    intro escrow' hescrow'
    rw [hescrow'] at books
    obtain ⟨escrow, hescrow, hdata⟩ := Option.map_eq_some_iff.mp books.symm
    rw [← hdata]
    exact hclosed escrow hescrow
  cases h with
  | live loaded held opened amount booked waiting going paid_eq held_eq closing_eq slash_eq =>
    rw [loaded] at books
    obtain ⟨escrow', hescrow', hdata⟩ := Option.map_eq_some_iff.mp books
    rw [held, Option.map_some] at vault
    rw [← hdata] at opened amount booked paid_eq held_eq
    refine .live hescrow' vault opened (amount.trans hreward.symm) ?_ ?_ (status.going going)
      paid_eq ?_ closing_eq slash_eq
    · rw [booked, completions]
      unfold sharesOf
      rw [hreward, hrequired]
    · rw [completions, hrequired]
      exact waiting
    · omega
  | reserved loaded held opened amount within finished hpending paid_eq held_eq closing_eq
      slash_eq =>
    rw [loaded] at books
    obtain ⟨escrow', hescrow', hdata⟩ := Option.map_eq_some_iff.mp books
    rw [held, Option.map_some] at vault
    rw [← hdata] at opened amount within paid_eq held_eq
    refine .reserved hescrow' vault opened (amount.trans hreward.symm) within ?_
      (pending.trans hpending) paid_eq ?_ closing_eq slash_eq
    · rw [hfinished finished]
      exact finished
    · omega
  | settled held closed finished paid_eq closing_eq slash_eq =>
    rw [hstill held]
    refine .settled (by rw [vault, held]; rfl) (hclosed closed) ?_ (paid_eq.trans hreward.symm)
      closing_eq slash_eq
    rw [hfinished finished]
    exact finished
  | slashed held closed finished paid_eq some_reserve closing_eq slash_eq =>
    rw [hstill held]
    refine .slashed (by rw [vault, held]; rfl) (hclosed closed) ?_ (paid_eq.trans hreward.symm)
      some_reserve closing_eq slash_eq
    rw [hfinished finished]
    exact finished

/-- Once the escrow is a closed record, nothing is left to do. -/
theorem TokenBooks.over (h : TokenBooks acc paid closing slash extra)
    {escrow : Account TaskEscrow} (loaded : acc.escrow = some escrow)
    (closed : escrow.data.isClosed = true)
    (hescrow : ∀ e, acc'.escrow = some e → acc.escrow = some e)
    (hvault : acc'.tokenEscrow = acc.tokenEscrow)
    (hreward : acc'.task.rewardAmount = acc.task.rewardAmount)
    (hstatus : acc'.task.status = acc.task.status) : TokenBooks acc' paid closing slash extra := by
  cases h with
  | live loaded₀ _ opened =>
    obtain rfl := Option.some.inj (loaded₀.symm.trans loaded)
    rw [opened] at closed
    cases closed
  | reserved loaded₀ _ opened =>
    obtain rfl := Option.some.inj (loaded₀.symm.trans loaded)
    rw [opened] at closed
    cases closed
  | settled vault hclosed finished paid_eq closing_eq slash_eq =>
    exact .settled (hvault.trans vault) (fun e he => hclosed e (hescrow e he))
      (hstatus.symm ▸ finished) (paid_eq.trans hreward.symm) closing_eq slash_eq
  | slashed vault hclosed finished paid_eq some_reserve closing_eq slash_eq =>
    exact .slashed (hvault.trans vault) (fun e he => hclosed e (hescrow e he))
      (hstatus.symm ▸ finished) (paid_eq.trans hreward.symm) some_reserve closing_eq slash_eq

/-- What one move does to the books: the deposit, the closing balance and the slash it pays, and
what comes in. -/
theorem TokenBooks.step (h : TokenBooks acc paid closing slash extra) (htask : TokenTask acc.task)
    (hmove : TokenMove key treasury acc acc' sent ps)
    (hreward : acc'.task.rewardAmount = acc.task.rewardAmount)
    (hrequired : acc'.task.requiredCompletions = acc.task.requiredCompletions)
    (hfinished : acc.task.status.isFinished → acc'.task.status = acc.task.status)
    (hsent : 0 < sent → acc.tokenEscrow.isSome = true) :
    TokenBooks acc' (paid + spentOn Purpose.isDue (.tokenEscrow key) ps)
      (closing + spentOn (fun p => decide (p = .closingBalance)) (.tokenEscrow key) ps)
      (slash + spentOn (fun p => decide (p = .stakeSlash)) (.tokenEscrow key) ps)
      (extra + sent) := by
  have hshares (n : ℕ) : sharesOf acc'.task n = sharesOf acc.task n := by
    unfold sharesOf
    rw [hreward, hrequired]
  cases hmove with
  | kept books vault completions pending status unpaid =>
    have hnothing (q : Purpose → Bool) : spentOn q (.tokenEscrow key) ps = 0 := by
      refine spentOn_of_source fun t ht => ?_
      rw [(unpaid t ht).1]
      exact Custody.noConfusion
    rw [hnothing, hnothing, hnothing, Nat.add_zero, Nat.add_zero, Nat.add_zero]
    exact h.kept books vault completions pending status hreward hrequired hfinished hsent
  | charged still going loaded vault gross_eq before shares covered escrow' vault' completions
      status hps =>
    cases h with
    | @live escrow held loaded₀ vault₀ opened amount booked waiting _ paid_eq held_eq closing_eq
        slash_eq =>
      obtain rfl := Option.some.inj (loaded₀.symm.trans loaded)
      obtain rfl := Option.some.inj (vault₀.symm.trans vault)
      have hshare := htask.gross waiting gross_eq
      have hnext := sharesOf_succ acc.task acc.task.completions
      have hmore : acc.task.completions + 1 < acc.task.requiredCompletions :=
        Nat.lt_of_not_le (of_decide_eq_false before)
      subst hps still
      refine .live escrow' vault' opened (amount.trans hreward.symm) ?_ ?_ (status.going going)
        ?_ ?_ ?_ ?_
      · show escrow.data.distributed + _ = _
        rw [completions, hshares, hnext, booked, hshare]
      · rw [completions, hrequired]
        exact hmore
      · simp only [spentOn_cons, spentOn_nil, Purpose.isDue, and_self, if_true, Nat.add_zero]
        show _ = escrow.data.distributed + _
        rw [paid_eq, shares]
      · show held - _ + (escrow.data.distributed + _) = escrow.data.amount + (extra + 0)
        omega
      · simp [closing_eq]
      · simp [slash_eq]
    | reserved _ _ _ _ _ finished => exact absurd finished going
    | settled _ _ finished => exact absurd finished going
    | slashed _ _ finished => exact absurd finished going
  | completed still going loaded vault gross_eq last shares covered escrow' vault' finished hps =>
    cases h with
    | @live escrow held loaded₀ vault₀ opened amount booked waiting _ paid_eq held_eq closing_eq
        slash_eq =>
      obtain rfl := Option.some.inj (loaded₀.symm.trans loaded)
      obtain rfl := Option.some.inj (vault₀.symm.trans vault)
      have hshare := htask.gross waiting gross_eq
      have hnext := sharesOf_succ acc.task acc.task.completions
      have hlast : acc.task.completions + 1 = acc.task.requiredCompletions :=
        le_antisymm waiting (of_decide_eq_true last)
      have hall : sharesOf acc.task (acc.task.completions + 1) = acc.task.rewardAmount := by
        rw [hlast]
        exact sum_roundedShare htask.required
      subst hps still
      have hnone : ∀ escrow, acc'.escrow = some escrow → escrow.data.isClosed = true := by
        simp [escrow']
      refine .settled vault' hnone finished ?_ ?_ ?_
      · simp [Purpose.isDue, closeEscrowTransfer]
        omega
      · simp [closeEscrowTransfer]
        omega
      · simp [closeEscrowTransfer, slash_eq]
    | reserved _ _ _ _ _ finished => exact absurd finished going
    | settled _ _ finished => exact absurd finished going
    | slashed _ _ finished => exact absurd finished going
  | refunded still going loaded vault owed_eq covered escrow' vault' finished hps =>
    cases h with
    | @live escrow held loaded₀ vault₀ opened amount booked waiting _ paid_eq held_eq closing_eq
        slash_eq =>
      obtain rfl := Option.some.inj (loaded₀.symm.trans loaded)
      obtain rfl := Option.some.inj (vault₀.symm.trans vault)
      subst hps still
      have hnone : ∀ escrow, acc'.escrow = some escrow → escrow.data.isClosed = true := by
        simp [escrow']
      refine .settled vault' hnone finished ?_ ?_ ?_
      · simp [Purpose.isDue, closeEscrowTransfer]
        omega
      · simp [closeEscrowTransfer]
        omega
      · simp [closeEscrowTransfer, slash_eq]
    | reserved _ _ _ _ _ finished => exact absurd finished going
    | settled _ _ finished => exact absurd finished going
    | slashed _ _ finished => exact absurd finished going
  | ruled still going loaded vault owed_eq covered escrow' vault' finished hps =>
    cases h with
    | @live escrow held loaded₀ vault₀ opened amount booked waiting _ paid_eq held_eq closing_eq
        slash_eq =>
      obtain rfl := Option.some.inj (loaded₀.symm.trans loaded)
      obtain rfl := Option.some.inj (vault₀.symm.trans vault)
      subst hps still
      have hclosed : ∀ escrow, acc'.escrow = some escrow → escrow.data.isClosed = true := by
        intro e he
        obtain rfl := Option.some.inj (escrow'.symm.trans he)
        rfl
      refine .settled vault' hclosed finished ?_ ?_ ?_
      · rw [spentOn_append, spentOn_tokenRuling rfl rfl]
        simp [Purpose.isDue]
        omega
      · rw [spentOn_append, spentOn_tokenRuling_eq_zero rfl rfl]
        simp
        omega
      · rw [spentOn_append, spentOn_tokenRuling_eq_zero rfl rfl]
        simp [slash_eq]
    | reserved _ _ _ _ _ finished => exact absurd finished going
    | settled _ _ finished => exact absurd finished going
    | slashed _ _ finished => exact absurd finished going
  | reserved still going loaded vault owed_eq some_reserve covered escrow' vault' finished pending
      hps =>
    cases h with
    | @live escrow held loaded₀ vault₀ opened amount booked waiting _ paid_eq held_eq closing_eq
        slash_eq =>
      obtain rfl := Option.some.inj (loaded₀.symm.trans loaded)
      obtain rfl := Option.some.inj (vault₀.symm.trans vault)
      subst hps still
      refine .reserved escrow' vault' rfl (amount.trans hreward.symm) ?_ finished pending ?_ ?_ ?_ ?_
      · show escrow.data.distributed + _ < escrow.data.amount
        omega
      · simp [Purpose.isDue, paid_eq]
      · show held - _ + (escrow.data.distributed + _) = escrow.data.amount + (extra + 0)
        omega
      · simp [closing_eq]
      · simp [slash_eq]
    | reserved _ _ _ _ _ finished => exact absurd finished going
    | settled _ _ finished => exact absurd finished going
    | slashed _ _ finished => exact absurd finished going
  | slashed still finished loaded vault escrow' vault' status hps =>
    cases h with
    | live _ _ _ _ _ _ going => exact absurd finished going
    | @reserved escrow held loaded₀ vault₀ opened amount within _ pending paid_eq held_eq closing_eq
        slash_eq =>
      obtain rfl := Option.some.inj (loaded₀.symm.trans loaded)
      obtain rfl := Option.some.inj (vault₀.symm.trans vault)
      subst hps still
      have hnone : ∀ escrow, acc'.escrow = some escrow → escrow.data.isClosed = true := by
        simp [escrow']
      have hsum : paid + spentOn Purpose.isDue (.tokenEscrow key)
          [⟨.tokenEscrow key, treasury, .stakeSlash, held⟩,
            closeEscrowTransfer key acc.task.creator escrow.lamports] +
          (escrow.data.amount - escrow.data.distributed) = acc'.task.rewardAmount := by
        simp [Purpose.isDue, closeEscrowTransfer]
        omega
      refine .slashed vault' hnone (status ▸ finished) hsum (Nat.sub_pos_of_lt within) ?_ ?_
      · simp [closeEscrowTransfer, closing_eq]
      · simp [closeEscrowTransfer]
        omega
    | settled vault₀ => rw [vault₀] at vault; cases vault
    | slashed vault₀ => rw [vault₀] at vault; cases vault
  | waived still loaded closed escrow' vault' status hps =>
    subst hps still
    exact h.over loaded closed (fun e he => escrow' ▸ he) vault' hreward status
  | dropped still loaded closed escrow' vault' status hps =>
    subst hps still
    have hnothing (q : Purpose → Bool) (lamports : ℕ) : spentOn q (.tokenEscrow key)
        [closeEscrowTransfer key acc.task.creator lamports] = 0 := by
      simp [closeEscrowTransfer]
    rw [hnothing, hnothing, hnothing]
    refine h.over loaded closed (fun e he => ?_) vault' hreward status
    rw [escrow'] at he
    cases he

end Books

/-! ## Creation -/

/-- A creating instruction deposits the reward beside what the address already held. -/
theorem CreateOp.run_funded {w w' : World} {key creator : Pubkey} {useQuota : Bool}
    {pre : Prefunding} {op : CreateOp} (h : op.run w key creator useQuota pre = .ok w') :
    ∃ acc, w'.tasks.lookup key = some acc ∧
      acc.escrow = some (initEscrow w.sys.rent acc.task pre) ∧
      acc.tokenEscrow =
        if acc.task.rewardMint.isNone then none else some (pre.tokens + acc.task.rewardAmount) := by
  cases op with
  | createTask creatorAgent params constraintHash referrer referrerFeeBps =>
    simp only [CreateOp.run, AgencCoordination.createTask, bind_eq_ok, Prod.exists] at h
    obtain ⟨_, -, _, -, _, -, _, -, _, -, _, -, _, -, _, -, h⟩ := h
    obtain ⟨_, -, _, -, _, -, _, -, _, -, _, -, _, _, -, _, -, _, -, h⟩ := h
    exact ⟨_, storeNewTask_stores h, rfl, rfl⟩
  | createDependentTask creatorAgent parent params constraintHash dependencyType =>
    simp only [CreateOp.run, AgencCoordination.createDependentTask, bind_eq_ok] at h
    obtain ⟨_, -, _, -, _, -, _, -, _, -, _, -, _, -, _, -, h⟩ := h
    obtain ⟨_, -, _, -, _, -, _, -, _, -, _, -, _, -, _, -, _, -, _, -, _, -, h⟩ := h
    exact ⟨_, storeNewTask_stores h, rfl, rfl⟩
  | createTaskHumanless params reviewWindowSecs referrer referrerFeeBps =>
    simp only [CreateOp.run, AgencCoordination.createTaskHumanless, bind_eq_ok, Prod.exists] at h
    obtain ⟨_, -, _, -, _, -, _, -, _, -, _, -, _, -, _, -, h⟩ := h
    obtain ⟨_, -, _, -, _, _, -, _, -, h⟩ := h
    exact ⟨_, storeNewTask_stores h, rfl, rfl⟩
  | hireFromListing creatorAgent listing taskId taskJobSpecHash price version referrer bps =>
    simp only [CreateOp.run, AgencCoordination.hireFromListing, bind_eq_ok, Prod.exists] at h
    obtain ⟨_, -, _, -, _, -, _, -, _, -, _, -, throttle, task, hire, -, h⟩ := h
    exact ⟨_, storeNewTask_stores h, rfl, rfl⟩
  | hireFromListingHumanless listing taskId taskJobSpecHash price version window referrer bps =>
    simp only [CreateOp.run, AgencCoordination.hireFromListingHumanless, bind_eq_ok,
      Prod.exists] at h
    obtain ⟨_, -, _, -, _, -, _, -, throttle, task, hire, -, h⟩ := h
    exact ⟨_, storeNewTask_stores h, rfl, rfl⟩

section Steps

variable {w w' : World} {key : Pubkey} {acc acc' : TaskAccounts} {i : Instruction}
  {ts : List Transfer}

theorem FreshAccounts.tokenTask (h : FreshAccounts w acc) (hmint : acc.task.rewardMint ≠ none) :
    TokenTask acc.task := by
  have hrequired := h.task.required
  refine ⟨fun htype => hmint (h.task.bidExclusive htype).2, fun htype => ?_, ?_, ?_, ?_⟩
  · rw [hrequired, if_neg htype]
  · rw [hrequired]
    split_ifs
    · exact h.task.slots.1
    · exact Nat.one_pos
  · by_cases htype : acc.task.taskType = .Collaborative
    · exact h.task.collaborative htype
    · rw [hrequired, if_neg htype]
      exact h.task.reward
  · rw [h.task.status]
    decide

/-- The creation of a task paid in tokens opens its books. -/
theorem FreshAccounts.tokenBooks (h : FreshAccounts w acc) (hmint : acc.task.rewardMint ≠ none)
    (hstored : w'.tasks.lookup key = some acc)
    (hran : ∃ creator useQuota pre op, i = .create key creator useQuota pre op ∧
      op.run w key creator useQuota pre = .ok w') : TokenBooks acc 0 0 0 (i.unsolicited key) := by
  obtain ⟨creator, useQuota, pre, op, rfl, hrun⟩ := hran
  obtain ⟨acc₁, hacc₁, hescrow, hvault⟩ := CreateOp.run_funded hrun
  obtain rfl := Option.some.inj (hacc₁.symm.trans hstored)
  have hsol : acc₁.task.rewardMint.isNone = false := by
    rwa [← Bool.not_eq_true, Option.isNone_iff_eq_none]
  rw [if_neg (by rw [hsol]; exact Bool.false_ne_true)] at hvault
  have hsent : (Instruction.create key creator useQuota pre op).unsolicited key = pre.tokens :=
    if_pos rfl
  have htask := h.tokenTask hmint
  rw [hsent]
  refine .live hescrow hvault rfl rfl ?_ ?_ ?_ rfl ?_ rfl rfl
  · rw [h.task.completions]
    rfl
  · rw [h.task.completions]
    exact htask.required
  · rw [h.task.status]
    decide
  · show pre.tokens + acc₁.task.rewardAmount + 0 = acc₁.task.rewardAmount + pre.tokens
    omega

/-- An instruction that leaves a task alone sends it no tokens. -/
theorem Step.unsolicited_eq_zero (h : Step w (i, ts) w')
    (hsame : w'.tasks.lookup key = w.tasks.lookup key) : i.unsolicited key = 0 := by
  cases h.does with
  | @donatedTask key' target amount acc₀ acc₁ inside loaded credits =>
    cases target with
    | tokenEscrow k =>
      simp only [Instruction.unsolicited, Instruction.sendsTokens]
      split_ifs with hkey
      · subst hkey
        obtain rfl : k = key' := Option.some.inj inside
        rw [AList.lookup_insert, loaded] at hsame
        cases credits with
        | tokenEscrow vault =>
          have htokens := congrArg TaskAccounts.tokenEscrow (Option.some.inj hsame)
          rw [vault] at htokens
          have hsum := Option.some.inj htokens
          omega
      · rfl
    | _ => rfl
  | @donatedAgent target amount agents' outside credits =>
    cases target with
    | tokenEscrow k => cases outside
    | _ => rfl
  | @created key' creator useQuota pre op w' ran =>
    simp only [Instruction.unsolicited]
    split_ifs with hkey
    · subst hkey
      obtain ⟨hnew, _, _, _, _, -, rfl⟩ := CreateOp.run_spec ran
      rw [AList.lookup_insert, hnew] at hsame
      cases hsame
    · rfl
  | _ => rfl

/-- Tokens are sent only to an open token account. -/
theorem TaskMove.unsolicited (h : TaskMove w key acc i acc' ts) :
    i.unsolicited key = i.sendsTokens key ∧
      (0 < i.sendsTokens key → acc.tokenEscrow.isSome = true) := by
  cases h with
  | @donated target amount acc' credits =>
    refine ⟨rfl, fun hpos => ?_⟩
    cases credits with
    | tokenEscrow loaded => rw [loaded]; rfl
    | escrow | claim | submission | bond | bid => exact absurd hpos (lt_irrefl 0)
  | _ => exact ⟨rfl, fun hpos => absurd hpos (lt_irrefl 0)⟩

/-- A step on a task paid in tokens makes one move on its token escrow. -/
theorem TaskMove.tokenMove (h : TaskMove w key acc i acc' ts) (hw : Reachable w)
    (hacc : w.tasks.lookup key = some acc) (hmint : acc.task.rewardMint ≠ none)
    (htask : TokenTask acc.task) {paid closing slash extra : ℕ}
    (hbooks : TokenBooks acc paid closing slash extra) :
    TokenMove key w.config.treasury acc acc' (i.sendsTokens key) (escrowPayments key ts) := by
  refine h.tokens hmint htask.type htask.unfrozen (fun hdisputed => ?_) fun k d hd habout hr => ?_
  · refine hbooks.stakes htask ?_
    rw [hdisputed]
    decide
  · obtain ⟨acc₁, hacc₁, hended⟩ := (dispute_inv hw k d hd).task
    rw [habout, hacc] at hacc₁
    obtain rfl := Option.some.inj hacc₁
    exact (hended (.inl hr)).1

/-- A move keeps what is fixed of a task paid in tokens. -/
theorem TokenTask.step {key treasury : Pubkey} {sent : ℕ} {ps : List Transfer}
    (h : TokenTask acc.task) (hmove : TokenMove key treasury acc acc' sent ps)
    (hterms : SameTerms acc.task acc'.task) : TokenTask acc'.task := by
  have hfinished {status : TaskStatus} (h : status.isFinished) : status ≠ .RejectFrozen := by
    rintro rfl
    rcases h with h | h <;> cases h
  refine ⟨?_, ?_, ?_, ?_, ?_⟩
  · rw [hterms.taskType]
    exact h.type
  · rw [hterms.taskType, hterms.requiredCompletions]
    exact h.single
  · rw [hterms.requiredCompletions]
    exact h.required
  · rw [hterms.requiredCompletions, hterms.rewardAmount]
    exact h.funded
  · cases hmove with
    | kept _ _ _ _ status _ => exact status.unfrozen h.unfrozen
    | charged _ _ _ _ _ _ _ _ _ _ _ status => exact status.unfrozen h.unfrozen
    | completed _ _ _ _ _ _ _ _ _ _ finished => exact hfinished finished
    | refunded _ _ _ _ _ _ _ _ finished => exact hfinished finished
    | ruled _ _ _ _ _ _ _ _ finished => exact hfinished finished
    | reserved _ _ _ _ _ _ _ _ _ finished => exact hfinished finished
    | slashed _ _ _ _ _ _ status => rw [status]; exact h.unfrozen
    | waived _ _ _ _ _ status => rw [status]; exact h.unfrozen
    | dropped _ _ _ _ _ status => rw [status]; exact h.unfrozen

/-- The books of every token escrow, after a log. -/
def TokensBooked (log : List LogEntry) (w : World) : Prop :=
  ∀ key, (w.tasks.lookup key = none → duePaid key log = 0 ∧ closingPaid key log = 0 ∧
      slashPaid key log = 0 ∧ unsolicited key log = 0) ∧
    ∀ acc, w.tasks.lookup key = some acc → acc.task.rewardMint ≠ none → TokenTask acc.task ∧
      TokenBooks acc (duePaid key log) (closingPaid key log) (slashPaid key log)
        (unsolicited key log)

@[simp] theorem tokensPaid_snoc (q : Purpose → Bool) (log : List LogEntry) (e : LogEntry) :
    tokensPaid q key (log ++ [e]) =
      tokensPaid q key log + spentOn q (.tokenEscrow key) e.label.2 := by
  simp [tokensPaid]

@[simp] theorem unsolicited_snoc (log : List LogEntry) (e : LogEntry) :
    unsolicited key (log ++ [e]) = unsolicited key log + e.label.1.unsolicited key := by
  simp [unsolicited]

theorem TokensBooked.step {log : List LogEntry} (hbooked : TokensBooked log w)
    (hw : Reachable w) (h : Step w (i, ts) w') :
    TokensBooked (log ++ [⟨w, (i, ts), w'⟩]) w' := by
  intro key
  simp only [duePaid, closingPaid, slashPaid, tokensPaid_snoc, unsolicited_snoc]
  obtain ⟨hnone, hsome⟩ := hbooked key
  cases h.task key with
  | apart same unpaid =>
    have hout (q : Purpose → Bool) := (outside_of_unpaid unpaid).spentOn_token (q := q)
    rw [same, hout, hout, hout, h.unsolicited_eq_zero same]
    exact ⟨hnone, hsome⟩
  | created new stored fresh unpaid ran =>
    obtain ⟨hdue, hclosing, hslash, hsent⟩ := hnone new
    refine ⟨fun hgone => ?_, fun acc hacc hmint => ?_⟩
    · rw [stored] at hgone
      cases hgone
    · obtain rfl := Option.some.inj (stored.symm.trans hacc)
      simp only [duePaid, closingPaid, slashPaid] at hdue hclosing hslash
      have hbooks := fresh.tokenBooks hmint stored ran
      rw [hdue, hclosing, hslash, hsent, unpaid]
      simp only [spentOn_nil, Nat.zero_add]
      exact ⟨fresh.tokenTask hmint, hbooks⟩
  | @moved acc acc' loaded stored move =>
    refine ⟨fun hgone => ?_, fun acc₁ hacc₁ hmint => ?_⟩
    · rw [stored] at hgone
      cases hgone
    · obtain rfl := Option.some.inj (stored.symm.trans hacc₁)
      have hterms := move.terms
      rw [hterms.rewardMint] at hmint
      obtain ⟨htask, hbooks⟩ := hsome acc loaded hmint
      have hmove := move.tokenMove hw loaded hmint htask hbooks
      obtain ⟨hsent, hopen⟩ := move.unsolicited
      refine ⟨htask.step hmove hterms, ?_⟩
      have hstep := hbooks.step htask hmove hterms.rewardAmount hterms.requiredCompletions
        (fun hdone => (move.finished hdone loaded).status hdone) hopen
      rw [spentOn_escrowPayments, spentOn_escrowPayments, spentOn_escrowPayments] at hstep
      rw [hsent]
      exact hstep

end Steps

end AgencCoordination
