import AgencCoordination.Invariants.GhostSplit

/-!
# Entry deposits of contests

Whoever enters a contest leaves a deposit on the account of the claim, as lamports beyond its
rent. Six instructions close claims of a contest, each with a rule of its own for that surplus.

* **`ReturnsEntry`, `ForfeitsEntry`** — the two ways a handler closes a claim: everything goes to
  the entrant, or the rent does and the surplus goes to the treasury.
* **`EntryMove`** — what a step on a contest does to the claim of one entrant.
* **`EntryTerms`** — every open claim of a contest holds its rent and the deposit.
* **`contest_deposits`** — over every run the deposit leaves the claim once, to the entrant if it
  submitted and to the treasury if it did not, and no finished contest keeps a claim that cannot
  be closed.
-/

namespace AgencCoordination

open Foundations

/-! ## Payments out of a claim -/

/-- The payments of a list that leave the claim of `k` on the task `key`. -/
def claimPart (key k : Pubkey) (ts : List Transfer) : List Transfer :=
  ts.filter fun t => decide (t.source = .claim key k)

section ClaimPart

variable {ts us : List Transfer} {key k j : Pubkey}

@[simp] theorem claimPart_nil : claimPart key k [] = [] := rfl

@[simp] theorem claimPart_append :
    claimPart key k (ts ++ us) = claimPart key k ts ++ claimPart key k us :=
  List.filter_append ts us

theorem claimPart_eq_nil (h : ∀ t ∈ ts, t.source ≠ .claim key k) : claimPart key k ts = [] := by
  rw [claimPart, List.filter_eq_nil_iff]
  intro t ht
  rw [decide_eq_true_eq]
  exact h t ht

theorem claimPart_eq_self (h : ∀ t ∈ ts, t.source = .claim key k) : claimPart key k ts = ts := by
  rw [claimPart, List.filter_eq_self]
  intro t ht
  rw [decide_eq_true_eq]
  exact h t ht

/-- Payments out of the claim of one worker are seen from that worker only. -/
theorem claimPart_of_worker (h : ∀ t ∈ ts, t.source = .claim key j) :
    claimPart key k ts = if k = j then ts else [] := by
  split_ifs with hkj
  · rw [hkj]
    exact claimPart_eq_self h
  · refine claimPart_eq_nil fun t ht hsource => hkj ?_
    rw [h t ht] at hsource
    injection hsource with _ hworker
    exact hworker.symm

theorem claimPart_bondPayments {poster : Pubkey} {disposition : BondDisposition}
    {bond : Option (Account CompletionBond)} :
    claimPart key k (bondPayments j poster disposition bond) = [] := by
  refine claimPart_eq_nil fun t ht => ?_
  rw [bondPayments_source t ht]
  exact nofun

theorem claimPart_settles {t : Till} {payees : PayeeAccounts} {gross : ℕ} {completed : Bool}
    {escrow' : Option (Account TaskEscrow)} {vault' : Option ℕ}
    (h : Settles t payees gross completed escrow' vault' ts) : claimPart key k ts = [] := by
  refine claimPart_eq_nil fun x hx => ?_
  rcases h.source x hx with hs | hs
  · rw [hs]
    exact nofun
  · rw [hs]
    exact nofun

theorem claimPart_settlesBid {b : BidSide} {place : AcceptedBidBookDisposition}
    {disposition : AcceptedBidBondDisposition} {book' : Option TaskBidBook}
    {bids' : Ledger Pubkey (Account TaskBid)} {bidder' : Option BidderMarketState}
    (h : SettlesBid b place disposition book' bids' bidder' ts) : claimPart key k ts = [] := by
  refine claimPart_eq_nil fun t ht => ?_
  rw [(h.payments t ht).1]
  exact nofun

theorem claimPart_cancelsBids {b : BidSide} {workers : ℕ} {penalty : Bool}
    {book' : Option TaskBidBook} {bids' : Ledger Pubkey (Account TaskBid)}
    {bidder' : Option BidderMarketState}
    (h : CancelsBids b workers penalty book' bids' bidder' ts) : claimPart key k ts = [] := by
  refine claimPart_eq_nil fun t ht => ?_
  rw [h.payments t ht]
  exact nofun

theorem claimPart_noShow {poster creator : Pubkey} {penalty : Prop}
    {bonds bonds' : Ledger Pubkey (Account CompletionBond)}
    (h : SettlesNoShow j poster creator penalty bonds bonds' ts) : claimPart key k ts = [] := by
  refine claimPart_eq_nil fun t ht => ?_
  rw [h.source t ht]
  exact nofun

theorem claimPart_claimClosing {c : TaskContext} {amount : ℕ} :
    claimPart c.key k [claimClosing c amount] =
      if k = c.workerKey then [claimClosing c amount] else [] :=
  claimPart_of_worker fun t ht => by rw [List.mem_singleton.mp ht]; rfl

theorem claimPart_claimClosings {c : TaskContext} {recipient : Pubkey} {claim : Account TaskClaim}
    {forfeited : ℕ} : claimPart c.key k (claimClosings c recipient claim forfeited) =
      if k = c.workerKey then claimClosings c recipient claim forfeited else [] :=
  claimPart_of_worker fun _ ht => claimClosings_source _ ht

@[simp] theorem claimPart_submissionClosing {c : TaskContext} {amount : ℕ} :
    claimPart key k [submissionClosing c amount] = [] := rfl

end ClaimPart

/-! ## Closing a claim -/

/-- A handler that closes the claim of an entrant whose submission waited: the entrant gets all
the claim holds. -/
structure ReturnsEntry (c c' : TaskContext) : Prop where
  waiting : c.workerKey ∈ c.accounts.submitters
  claims : c'.accounts.claims = c.accounts.claims.erase c.workerKey
  others : ∀ k, k ≠ c.workerKey →
    c'.accounts.submissions.lookup k = c.accounts.submissions.lookup k
  paid : ∃ claim, c.accounts.claims.lookup c.workerKey = some claim ∧
    ∀ k, claimPart c.key k c'.paid =
      if k = c.workerKey then [claimClosing c claim.lamports] else []

/-- A handler that closes the claim of an entrant who has nothing under review: the treasury gets
the surplus, the entrant the rest. -/
structure ForfeitsEntry (c c' : TaskContext) : Prop where
  silent : c.workerKey ∉ c.accounts.submitters
  claims : c'.accounts.claims = c.accounts.claims.erase c.workerKey
  others : ∀ k, k ≠ c.workerKey →
    c'.accounts.submissions.lookup k = c.accounts.submissions.lookup k
  paid : ∃ claim, c.accounts.claims.lookup c.workerKey = some claim ∧
    ∀ k, claimPart c.key k c'.paid = if k = c.workerKey then
      claimClosings c c.worker.data.authority claim (claimSurplus c.sys.rent claim) else []

section Closers

variable {c c' : TaskContext}

theorem UnderReview.waiting {config : TaskValidationConfig} {submission : Account TaskSubmission}
    (h : UnderReview c config submission) : c.workerKey ∈ c.accounts.submitters :=
  Ledger.mem_support.mpr ⟨submission, h.stored, h.submitted⟩

theorem acceptTaskResult_returns {signer : Pubkey} {payees : PayeeAccounts}
    (h : acceptTaskResult c signer payees = .ok c') (hpaid : c.paid = []) : ReturnsEntry c c' := by
  obtain ⟨config, submission, hr, -, -, -, hpays⟩ := acceptTaskResult_spec h
  obtain ⟨claim, stored, gross, price, escrow', vault', paidReward, book', bids', bidder',
    paidBid, votes', hclaim, -, -, -, -, -, -, hsettles, hbid, _, _, _, _, _, _, _, _, rfl⟩ := hpays
  refine ⟨hr.waiting, rfl, fun k hk => AList.lookup_erase_ne hk, claim, hclaim, fun k => ?_⟩
  simp only [hpaid, claimPart_append, claimPart_settles hsettles,
    claimPart_settlesBid hbid, claimPart_claimClosing, claimPart_submissionClosing,
    claimPart_bondPayments, List.nil_append, List.append_nil]

theorem rejectTaskResult_returns {signer : Pubkey} {rejectionHash : Hash}
    (h : rejectTaskResult c signer rejectionHash = .ok c') (hpaid : c.paid = []) :
    ReturnsEntry c c' := by
  obtain ⟨config, submission, hr, -⟩ := rejectTaskResult_spec h
  simp only [rejectTaskResult, bind_eq_ok, demand_eq_ok, require_eq_ok, TaskContext.task_eq] at h
  obtain ⟨_, -, claim, -, _, -, _, -, _, -, _, -, _, -, _, -, _, -, c₁, h₁, c₂, h₂, h₃⟩ := h
  obtain ⟨rejected, book', bids', bidder', paidBid, -, -, -, -, hbid, rfl⟩ :=
    releaseRejected_spec h₁
  obtain ⟨claim, hclaim, rfl⟩ := closeClaim_spec h₂
  obtain ⟨stored, -, rfl⟩ := closeSubmission_spec h₃
  refine ⟨hr.waiting, rfl, fun k hk => ?_, claim, hclaim, fun k => ?_⟩
  · show ((c.accounts.submissions.insert c.workerKey rejected).erase c.workerKey).lookup k = _
    rw [AList.lookup_erase_ne hk, AList.lookup_insert_ne hk]
  · have hclose : claimPart c.key k [claimClosing c claim.lamports] = _ := claimPart_claimClosing
    simp only [hpaid, claimPart_append, claimPart_settlesBid hbid, claimPart_bondPayments,
      List.nil_append]
    exact (congrArg (· ++ []) hclose).trans (List.append_nil _)

theorem distributeGhostShare_returns {payees : PayeeAccounts}
    (h : distributeGhostShare c payees = .ok c') (hpaid : c.paid = []) : ReturnsEntry c c' := by
  obtain ⟨config, submission, claim, escrow, escrow', paidReward, h⟩ := distributeGhostShare_spec h
  obtain ⟨hr, -, -, hclaim, -, -, -, -, -, -, -, -, h⟩ := h
  obtain ⟨hsettles, _, _, _, _, _, _, rfl⟩ := h
  refine ⟨hr.waiting, rfl, fun k hk => AList.lookup_erase_ne hk, claim, hclaim, fun k => ?_⟩
  simp only [hpaid, claimPart_append, claimPart_settles hsettles,
    claimPart_claimClosing, claimPart_submissionClosing, List.nil_append]

/-- On a contest the expiry of a claim asks for proof that nothing was submitted, and forfeits the
surplus. -/
theorem expireClaim_forfeits {caller : Pubkey} {withSubmission : Bool}
    (h : expireClaim c caller withSubmission = .ok c') (hpaid : c.paid = [])
    (hcontest : isContestConfiguredTask c.accounts.task = true) : ForfeitsEntry c c' := by
  simp only [expireClaim, bind_eq_ok, demand_eq_ok, require_eq_ok, TaskContext.task_eq] at h
  obtain ⟨_, -, claim, hclaim, _, -, _, -, _, -, _, -, _, -, h⟩ := h
  obtain ⟨_, -, _, -, _, -, c₁, h₁, _, habsent, c₂, h₂, c₃, h₃, h⟩ := h
  obtain ⟨escrow, reward, -, -, -, -, rfl⟩ := payCleanupReward_spec h₁
  obtain ⟨-, rfl⟩ := reopenAfterExpiry_spec h₂
  obtain ⟨book', bids', bidder', paidBid, hbid, rfl⟩ := settleBidOf_spec h₃
  have hterms : (if isContestConfiguredTask c.accounts.task = true then
      claimSurplus c.sys.rent claim else 0) = claimSurplus c.sys.rent claim := if_pos hcontest
  have hnone : c.accounts.submissions.lookup c.workerKey = none := by
    have hproven := habsent hcontest
    rw [Bool.and_eq_true, Option.isNone_iff_eq_none] at hproven
    exact hproven.2
  have hsilent : c.workerKey ∉ c.accounts.submitters := by
    rw [Ledger.mem_support]
    rintro ⟨s, hs, -⟩
    rw [hnone] at hs
    cases hs
  have hreward : ∀ k, claimPart c.key k [⟨.escrow c.key, caller, .cleanupReward, reward⟩] = [] :=
    fun _ => rfl
  have hclose (k : Pubkey) : claimPart c.key k
      (claimClosings c c.worker.data.authority claim (claimSurplus c.sys.rent claim)) = _ :=
    claimPart_claimClosings
  rcases ite_eq_iff.mp h with ⟨hno, h⟩ | ⟨-, h⟩
  · simp only [bind_eq_ok, Except.ok.injEq] at h
    obtain ⟨c₄, h₄, rfl⟩ := h
    obtain ⟨bonds', paidBond, hbond, rfl⟩ :=
      settleNoShowBond_spec (NoShowPenalty c) h₄ fun hp => ⟨hno.2, hp⟩
    refine ⟨hsilent, rfl, fun _ _ => rfl, claim, hclaim, fun k => ?_⟩
    rw [← hclose k]
    show claimPart c.key k (c.paid ++ _ ++ paidBid ++ paidBond ++
      claimClosings c c.worker.data.authority claim
        (if isContestConfiguredTask c.accounts.task = true then _ else 0)) = _
    rw [hterms]
    simp only [hpaid, claimPart_append, hreward, claimPart_settlesBid hbid,
      claimPart_noShow hbond, List.nil_append]
  · obtain rfl := Except.ok.inj h
    refine ⟨hsilent, rfl, fun _ _ => rfl, claim, hclaim, fun k => ?_⟩
    rw [← hclose k]
    show claimPart c.key k (c.paid ++ _ ++ paidBid ++
      claimClosings c c.worker.data.authority claim
        (if isContestConfiguredTask c.accounts.task = true then _ else 0)) = _
    rw [hterms]
    simp only [hpaid, claimPart_append, hreward, claimPart_settlesBid hbid,
      List.nil_append]

theorem submittedStraggler_eq_false (h : c.workerKey ∉ c.accounts.submitters) :
    submittedStraggler c = false := by
  unfold submittedStraggler
  cases hs : c.accounts.submissions.lookup c.workerKey with
  | none => rfl
  | some submission =>
    rw [decide_eq_false_iff_not]
    exact fun hsubmitted => h (Ledger.mem_support.mpr ⟨submission, hs, hsubmitted⟩)

/-- Behind a finished task a claim forfeits its surplus, unless its submission never left
review. -/
theorem reclaimTerminalClaim_forfeits (h : reclaimTerminalClaim c = .ok c') (hpaid : c.paid = [])
    (hsilent : c.workerKey ∉ c.accounts.submitters) : ForfeitsEntry c c' := by
  simp only [reclaimTerminalClaim, bind_eq_ok, demand_eq_ok, require_eq_ok, Except.ok.injEq,
    submittedStraggler_eq_false hsilent, Bool.false_eq_true, if_false] at h
  obtain ⟨claim, hclaim, _, -, _, -, _, -, _, -, c₁, h₁, rfl⟩ := h
  obtain ⟨live, validation', -, rfl⟩ := releaseTerminalSubmission_spec h₁
  obtain ⟨ts, hts, heq⟩ := closeSubmissionIfAny_eq (closeClaimForfeitingSurplus _ claim
    c.worker.data.authority (claimSurplus c.sys.rent claim)) c.worker.data.authority
  rw [heq]
  refine ⟨hsilent, rfl, fun k hk => AList.lookup_erase_ne hk, claim, hclaim, fun k => ?_⟩
  have hclose : claimPart c.key k
      (claimClosings c c.worker.data.authority claim (claimSurplus c.sys.rent claim)) = _ :=
    claimPart_claimClosings
  have hothers : claimPart c.key k ts = [] := by
    refine claimPart_eq_nil fun t ht => ?_
    rw [(hts t ht).1]
    intro hsurplus
    cases hsurplus
  rw [← hclose]
  show claimPart c.key k (c.paid ++ claimClosings c c.worker.data.authority claim _ ++ ts) = _
  rw [claimPart_append, hothers, List.append_nil, hpaid, List.nil_append]

/-- What a worker who was cancelled away forfeits: the surplus of a contest entry. -/
def cancelForfeit (c : TaskContext) (claim : Account TaskClaim) : ℕ :=
  if isContestConfiguredTask c.accounts.task then claimSurplus c.sys.rent claim else 0

/-- The loop over a cancelled task's workers pays each of them once, and nobody else. -/
theorem closeCancelledClaims_claimPart {workers : List Pubkey}
    {agents agents' : Ledger Pubkey (Account AgentRegistration)}
    (h : closeCancelledClaims c agents workers = .ok (c', agents')) (k : Pubkey) :
    claimPart c.key k c'.paid = claimPart c.key k c.paid ++
      if k ∈ workers then
        (c.accounts.claims.lookup k).elim [] fun claim => (agents.lookup k).elim [] fun agent =>
          claimClosings { c with workerKey := k } agent.data.authority claim
            (cancelForfeit c claim)
      else [] := by
  induction workers generalizing c agents with
  | nil =>
    obtain ⟨rfl, -⟩ := Prod.mk.inj (Except.ok.inj h)
    rw [if_neg List.not_mem_nil, List.append_nil]
  | cons key rest ih =>
    have hnodup := (closeCancelledClaims_spec h).1
    simp only [closeCancelledClaims, bind_eq_ok, demand_eq_ok] at h
    obtain ⟨claim, hclaim, agent, hagent, h⟩ := h
    have hfirst : claimPart c.key k (claimClosings { c with workerKey := key }
        agent.data.authority claim (cancelForfeit c claim)) = _ :=
      claimPart_claimClosings (c := { c with workerKey := key })
    have hrest := ih h
    change claimPart c.key k c'.paid = claimPart c.key k (c.paid ++ claimClosings
      { c with workerKey := key } agent.data.authority claim (cancelForfeit c claim)) ++ _
      at hrest
    rw [hrest, claimPart_append, hfirst, List.append_assoc]
    congr 1
    by_cases hk : k = key
    · subst hk
      rw [if_pos rfl, if_neg (List.nodup_cons.mp hnodup).1, if_pos List.mem_cons_self, hclaim,
        hagent, List.append_nil]
      rfl
    · have hiff : k ∈ key :: rest ↔ k ∈ rest := by
        rw [List.mem_cons, or_iff_right hk]
      rw [if_neg hk, List.nil_append]
      dsimp only [closeClaimForfeitingSurplus, TaskContext.pay]
      rw [AList.lookup_erase_ne hk, AList.lookup_insert_ne hk]
      simp only [hiff]
      rfl

/-- A cancellation closes every listed claim: a contest entry forfeits its surplus, and the rest
goes to the worker. -/
theorem cancelTask_claimPart {agents agents' : Ledger Pubkey (Account AgentRegistration)}
    {signer : Pubkey} {workers : List Pubkey} {workerBondAuthority : Pubkey} {withParent : Bool}
    (h : cancelTask c agents signer workers workerBondAuthority withParent = .ok (c', agents'))
    (hpaid : c.paid = []) (k : Pubkey) :
    claimPart c.key k c'.paid = if k ∈ workers then
        (c.accounts.claims.lookup k).elim [] fun claim => (agents.lookup k).elim [] fun agent =>
          claimClosings { c with workerKey := k } agent.data.authority claim
            (cancelForfeit c claim)
      else [] := by
  simp only [cancelTask, bind_eq_ok, require_eq_ok, Prod.exists, Except.ok.injEq, Prod.mk.injEq,
    TaskContext.task_eq] at h
  obtain ⟨_, -, _, -, _, -, _, -, c₁, h₁, c₂, h₂, c₃, agents₃, h₃, h⟩ := h
  obtain ⟨c₄, h₄, _, -, c₅, h₅, rfl, rfl⟩ := h
  obtain ⟨escrow, vault', paidRefund, -, -, -, hrefund, rfl⟩ := refundEscrow_spec h₁
  obtain ⟨book', bids', bidder', paidBid, hbid, rfl⟩ := settleBidsOnCancel_spec h₂
  obtain ⟨-, rfl⟩ := settleCompletionBond_spec h₄
  obtain ⟨bonds', paidBond, hbond, rfl⟩ := settleNoShowBond_spec True h₅ fun _ => trivial
  have hclosed := closeCancelledClaims_claimPart h₃ k
  obtain ⟨-, -, -, workerKey, claims', paidClaims, -, -, -, rfl⟩ := closeCancelledClaims_spec h₃
  have hrefunded : claimPart c.key k paidRefund = [] := by
    refine claimPart_eq_nil fun t ht => ?_
    rcases (hrefund t ht).1 with hs | hs
    · rw [hs]
      exact nofun
    · rw [hs]
      exact nofun
  simp only [claimPart_append, claimPart_bondPayments, claimPart_noShow hbond, hrefunded,
    claimPart_cancelsBids hbid, hpaid, List.nil_append, List.append_nil]
    at hclosed ⊢
  exact hclosed

/-- The cancellation of a contest closes every listed claim and forfeits its surplus. -/
theorem cancelTask_forfeits {agents agents' : Ledger Pubkey (Account AgentRegistration)}
    {signer : Pubkey} {workers : List Pubkey} {workerBondAuthority : Pubkey} {withParent : Bool}
    (h : cancelTask c agents signer workers workerBondAuthority withParent = .ok (c', agents'))
    (hpaid : c.paid = []) (hcontest : isContestConfiguredTask c.accounts.task = true)
    (k : Pubkey) :
    claimPart c.key k c'.paid = if k ∈ workers then
        (c.accounts.claims.lookup k).elim [] fun claim => (agents.lookup k).elim [] fun agent =>
          claimClosings { c with workerKey := k } agent.data.authority claim
            (claimSurplus c.sys.rent claim)
      else [] := by
  have hforfeit : cancelForfeit c = claimSurplus c.sys.rent := funext fun _ => if_pos hcontest
  rw [cancelTask_claimPart h hpaid k, hforfeit]

end Closers

/-! ## What a contest relies on -/

/-- Every submission an instruction leaves waits, is rejected, or has the status it had. -/
def KeepsVerdicts (acc acc' : TaskAccounts) : Prop :=
  ∀ k s', acc'.submissions.lookup k = some s' →
    (s'.data.status = .Submitted ∨ s'.data.status = .Rejected) ∨
      ∃ s, acc.submissions.lookup k = some s ∧ s.data.status = s'.data.status

namespace KeepsVerdicts

variable {acc acc' : TaskAccounts} {k : Pubkey}

theorem of_same (h : acc'.submissions = acc.submissions) : KeepsVerdicts acc acc' :=
  fun _ s' hs' => .inr ⟨s', h ▸ hs', rfl⟩

theorem of_erase (h : acc'.submissions = acc.submissions.erase k) : KeepsVerdicts acc acc' := by
  intro j s' hs'
  rw [h, Ledger.lookup_erase_eq_ite] at hs'
  split_ifs at hs'
  exact .inr ⟨s', hs', rfl⟩

theorem of_insert {s : Account TaskSubmission}
    (h : acc'.submissions = acc.submissions.insert k s)
    (hstatus : s.data.status = .Submitted ∨ s.data.status = .Rejected) :
    KeepsVerdicts acc acc' := by
  intro j s' hs'
  rw [h, Ledger.lookup_insert_eq_ite] at hs'
  split_ifs at hs'
  · obtain rfl := Option.some.inj hs'
    exact .inl hstatus
  · exact .inr ⟨s', hs', rfl⟩

end KeepsVerdicts

section Verdicts

variable {c c' : TaskContext} {w : World}

theorem WorkOp.run_verdicts {op : WorkOp} (h : op.run w c = .ok c') :
    KeepsVerdicts c.accounts c'.accounts := by
  have hbids {c₁ : TaskContext} (ht : TouchesBids c c₁) :
      KeepsVerdicts c.accounts c₁.accounts := by
    obtain ⟨_, _, _, _, _, -, -, -, rfl⟩ := ht
    exact .of_same rfl
  have hoccupied {expiresAt : ℤ} {c₁ : TaskContext} (ho : Occupies c expiresAt c₁) :
      KeepsVerdicts c.accounts c₁.accounts := by
    obtain ⟨_, _, _, _, _, _, _, _, _, rfl, -⟩ := ho
    exact .of_same rfl
  have hpaid {config : TaskValidationConfig} {payees : PayeeAccounts} {c₁ : TaskContext}
      (hp : PaysAccepted c config payees c₁) : KeepsVerdicts c.accounts c₁.accounts := by
    obtain ⟨_, _, _, _, _, _, _, _, _, _, _, _, -, -, -, -, -, -, -, -, -, _, _, _, _, _, _, _, _,
      rfl⟩ := hp
    exact .of_erase rfl
  have hrejected {config : TaskValidationConfig} {c₁ : TaskContext}
      (hr : RejectsClaim c config c₁) : KeepsVerdicts c.accounts c₁.accounts := by
    obtain ⟨_, _, _, _, _, _, _, _, -, hsubmissions, -, -, -, -, -, rfl⟩ := hr
    rcases hsubmissions with herased | ⟨rejected, hrejected, hstored⟩
    · exact .of_erase herased
    · exact .of_insert hstored (.inr hrejected)
  have hfrozen {payees : PayeeAccounts} {disposition : BondDisposition} {c₁ : TaskContext}
      (hp : PaysFrozen c payees disposition c₁) : KeepsVerdicts c.accounts c₁.accounts := by
    obtain ⟨_, _, _, _, _, _, -, -, -, -, -, -, -, -, _, _, _, _, _, _, _, _, rfl⟩ := hp
    exact .of_erase rfl
  cases op with
  | claimTaskWithJobSpec signer prefunded =>
    obtain ⟨_, -, -, -, -, -, ho⟩ := claimTaskWithJobSpec_spec h
    exact hoccupied ho
  | createBid signer terms prefunded => exact hbids (createBid_spec h).touches
  | updateBid signer terms => exact hbids (updateBid_spec h).touches
  | cancelBid signer => exact hbids (cancelBid_spec h).touches
  | expireBid => exact hbids (expireBid_spec h).touches
  | promoteBid => exact hbids (promoteBid_spec h).touches
  | demoteIneligibleBest => exact hbids (demoteIneligibleBest_spec h).touches
  | acceptBid signer expectedBidTermsHash prefunded =>
    obtain ⟨_, _, _, -, -, -, -, ho⟩ := acceptBid_spec h
    exact hoccupied ho
  | postWorkerBond signer prefunded =>
    have h : postCompletionBond c signer .Worker prefunded = .ok c' := h
    obtain ⟨_, -, -, -, -, -, -, -, -, rfl⟩ := postCompletionBond_spec h
    exact .of_same rfl
  | submitTaskResult signer proofHash resultData prefunded =>
    obtain ⟨_, _, _, -, -, -, -, -, -, hsubmitted, _, _, rfl⟩ := submitTaskResult_spec h
    exact .of_insert rfl (.inl hsubmitted)
  | acceptTaskResult signer payees =>
    obtain ⟨_, _, -, -, -, -, hp⟩ := acceptTaskResult_spec h
    exact hpaid hp
  | autoAcceptTaskResult payees =>
    obtain ⟨_, _, -, -, -, hp⟩ := autoAcceptTaskResult_spec h
    exact hpaid hp
  | rejectTaskResult signer rejectionHash =>
    obtain ⟨_, _, -, -, -, -, hr⟩ := rejectTaskResult_spec h
    exact hrejected hr
  | requestChanges signer changesHash =>
    obtain ⟨_, _, _, _, _, -, -, -, -, hstatus, -, rfl⟩ := requestChanges_spec h
    exact .of_insert rfl (.inr hstatus)
  | validateTaskResult reviewer validator approved =>
    obtain ⟨_, _, -, -, hp | ⟨hr, -⟩ | ⟨_, _, hvoted, rfl⟩⟩ := validateTaskResult_spec h
    · exact hpaid hp
    · exact hrejected hr
    · exact .of_insert rfl (.inl hvoted)
  | rejectAndFreeze signer rejectionHash =>
    obtain ⟨_, _, _, -, -, -, hstatus, -, rfl⟩ := rejectAndFreeze_spec h
    exact .of_insert rfl (.inr hstatus)
  | resolveRejectFrozen signers approveCompletion payees =>
    obtain ⟨_, hp⟩ | ⟨_, _, _, -, -, -, -, -, -, -, rfl⟩ := resolveRejectFrozen_spec h
    · exact hfrozen hp
    · exact .of_erase rfl
  | expireRejectFrozen payees => exact hfrozen (expireRejectFrozen_spec h)
  | completeTask signer proofHash resultData payees =>
    obtain ⟨_, _, _, _, _, _, _, _, _, _, -, -, -, -, -, -, -, -, -, hc⟩ := completeTask_spec h
    obtain ⟨_, _, _, _, _, _, _, _, rfl⟩ := hc
    exact .of_same rfl
  | expireClaim caller withSubmission =>
    obtain ⟨_, _, _, _, _, _, _, _, _, _, -, -, -, -, -, -, -, -, -, -, -, -, -, rfl⟩ :=
      expireClaim_spec h
    exact .of_same rfl
  | distributeGhostShare payees =>
    obtain ⟨_, _, _, _, _, _, -, -, -, -, -, -, -, -, -, -, -, -, -, _, _, _, _, _, _, rfl⟩ :=
      distributeGhostShare_spec h
    exact .of_erase rfl
  | reclaimTerminalClaim =>
    obtain ⟨_, _, _, _, -, -, -, -, -, -, -, rfl⟩ := reclaimTerminalClaim_spec h
    exact .of_erase rfl

theorem DisputeOp.run_verdicts {op : DisputeOp} {d d' : Dispute}
    (h : op.run w c d = .ok (c', d')) : KeepsVerdicts c.accounts c'.accounts := by
  cases op with
  | cancelDispute signer =>
    obtain ⟨_, _, -, -, -, -, -, rfl, rfl⟩ := cancelDispute_spec h
    exact .of_same rfl
  | resolveDispute signer signers withAssignment approved payees =>
    obtain ⟨_, _, _, _, _, _, _, _, _, _, _, _, _, _, _, -, -, -, -, -, -, -, -, -, -, -, h⟩ :=
      resolveDispute_spec h
    obtain ⟨_, _, _, _, _, _, _, -, -, rfl, rfl⟩ := h
    exact .of_erase rfl
  | expireDispute =>
    obtain ⟨_, _, _, _, _, _, _, _, _, _, _, _, _, _, _, -, -, -, -, -, -, -, -, -, -, -, -, rfl,
      rfl⟩ := expireDispute_spec h
    exact .of_erase rfl
  | settleDisputeClaim =>
    obtain ⟨_, _, _, _, _, _, _, -, -, -, -, -, -, -, -, -, -, -, rfl, -⟩ :=
      settleDisputeClaim_spec h
    exact .of_erase rfl
  | applyDisputeSlash withTokenAccounts =>
    obtain ⟨_, _, _, _, _, _, _, _, _, _, _, _, -, -, -, -, -, -, -, -, -, -, -, rfl, -⟩ :=
      applyDisputeSlash_spec h
    exact .of_same rfl

/-- Every step leaves submissions that wait, are rejected, or have the status they had. -/
theorem TaskMove.verdicts {key : Pubkey} {acc acc' : TaskAccounts} {i : Instruction}
    {ts : List Transfer} (h : TaskMove w key acc i acc' ts) : KeepsVerdicts acc acc' := by
  cases h with
  | donated credits =>
    cases credits with
    | @submission k stored loaded =>
      intro j s' hs'
      dsimp only at hs'
      rw [Ledger.lookup_insert_eq_ite] at hs'
      split_ifs at hs' with hj
      · obtain rfl := Option.some.inj hs'
        subst hj
        exact .inr ⟨stored, loaded, rfl⟩
      · exact .inr ⟨s', hs', rfl⟩
    | escrow | tokenEscrow | claim | bond | bid => exact .of_same rfl
  | @task op c ran =>
    cases op with
    | configureTaskValidation signer mode reviewWindowSecs validatorQuorum attestor =>
      obtain ⟨_, -, -, -, -, -, rfl⟩ := configureTaskValidation_spec ran
      exact .of_same rfl
    | setTaskJobSpec signer jobSpecHash =>
      obtain ⟨_, -, rfl⟩ := setTaskJobSpec_spec ran
      exact .of_same rfl
    | initializeBidBook signer policy weights =>
      obtain ⟨_, _, -, -, -, -, rfl⟩ := initializeBidBook_spec ran
      exact .of_same rfl
    | postCreatorBond signer prefunded =>
      have ran : postCompletionBond (w.taskContext key acc) signer .Creator prefunded = .ok c := ran
      obtain ⟨_, -, -, -, -, -, -, -, -, rfl⟩ := postCompletionBond_spec ran
      exact .of_same rfl
    | reclaimCompletionBond party role =>
      obtain ⟨-, rfl⟩ := reclaimCompletionBond_spec ran
      exact .of_same rfl
  | work found ran rent => exact WorkOp.run_verdicts ran
  | cancelled listed ran =>
    obtain ⟨-, haccounts, -⟩ := listed_context listed
    obtain ⟨_, _, _, _, _, _, _, h⟩ := cancelTask_spec ran
    obtain ⟨_, _, _, _, _, _, -, -, -, -, -, -, -, -, -, -, -, -, -, -, -, -, -, rfl⟩ := h
    rw [← haccounts]
    exact .of_same rfl
  | closed ran =>
    obtain ⟨_, _, _, _, _, _, _, -, -, -, -, hold, -, -, -, rfl⟩ := closeTask_spec ran
    exact fun k s' hs' => .inr ⟨s', hold k s' hs', rfl⟩
  | disputed opens => exact .of_same rfl
  | ruled found filed about ran rent => exact DisputeOp.run_verdicts ran

end Verdicts

section Floors

variable {w : World} {key : Pubkey} {acc acc' : TaskAccounts} {i : Instruction}
  {ts : List Transfer}

/-- An open escrow holds its rent. -/
def RentKept (rent : Rent) (acc : TaskAccounts) : Prop :=
  ∀ escrow, acc.escrow = some escrow → rent.minimumBalance taskEscrowSize ≤ escrow.lamports

theorem rentKept_of_rule {sys : Sysvars} (h : World.rentRule sys acc = .ok ()) :
    RentKept sys.rent acc := by
  intro escrow hescrow
  rw [World.rentRule, hescrow] at h
  exact require_eq_ok.mp h

/-- The escrow of a task keeps its rent: the program gives it away whole or the runtime objects. -/
theorem TaskMove.rentKept (h : TaskMove w key acc i acc' ts) (hr : RentKept w.sys.rent acc) :
    RentKept w.sys.rent acc' := by
  have hsame {acc₁ : TaskAccounts} (he : acc₁.escrow = acc.escrow) : RentKept w.sys.rent acc₁ :=
    fun escrow hescrow => hr escrow (he ▸ hescrow)
  cases h with
  | donated credits =>
    cases credits with
    | escrow loaded =>
      intro escrow hescrow
      obtain rfl := Option.some.inj hescrow
      exact (hr _ loaded).trans (Nat.le_add_right _ _)
    | tokenEscrow | claim | submission | bond | bid => exact hsame rfl
  | @task op c ran =>
    cases op with
    | configureTaskValidation signer mode reviewWindowSecs validatorQuorum attestor =>
      obtain ⟨_, -, -, -, -, -, rfl⟩ := configureTaskValidation_spec ran
      exact hsame rfl
    | setTaskJobSpec signer jobSpecHash =>
      obtain ⟨_, -, rfl⟩ := setTaskJobSpec_spec ran
      exact hsame rfl
    | initializeBidBook signer policy weights =>
      obtain ⟨_, _, -, -, -, -, rfl⟩ := initializeBidBook_spec ran
      exact hsame rfl
    | postCreatorBond signer prefunded =>
      have ran : postCompletionBond (w.taskContext key acc) signer .Creator prefunded = .ok c := ran
      obtain ⟨_, -, -, -, -, -, -, -, -, rfl⟩ := postCompletionBond_spec ran
      exact hsame rfl
    | reclaimCompletionBond party role =>
      obtain ⟨-, rfl⟩ := reclaimCompletionBond_spec ran
      exact hsame rfl
  | work found ran rent => exact rentKept_of_rule rent
  | cancelled listed ran =>
    obtain ⟨_, _, _, _, _, _, _, h⟩ := cancelTask_spec ran
    obtain ⟨_, _, _, _, _, _, -, -, -, -, -, -, -, -, -, -, -, -, -, -, -, -, -, rfl⟩ := h
    exact fun _ hescrow => nomatch hescrow
  | closed ran =>
    obtain ⟨_, _, _, _, _, _, _, -, -, -, hescrow, -, -, -, -, rfl⟩ := closeTask_spec ran
    rcases hescrow with ⟨hkept, -⟩ | ⟨_, -, -, hnone, -⟩
    · exact hsame hkept
    · intro escrow hescrow
      have habsent : none = some escrow := hnone.symm.trans hescrow
      cases habsent
  | disputed opens => exact hsame rfl
  | ruled found filed about ran rent => exact rentKept_of_rule rent

/-- A task that is not finished reserves no claim for a dispute, and a contest never does. -/
def Unreserved (acc : TaskAccounts) : Prop :=
  ¬acc.task.status.isFinished ∨ isContestConfiguredTask acc.task = true →
    acc.task.workerSlashPending = false ∧ acc.task.peerSettlementPending = false

theorem Unreserved.of_marks (h : Unreserved acc) (hsame : acc'.task.marks = acc.task.marks)
    (hback : ¬acc'.task.status.isFinished ∨ isContestConfiguredTask acc'.task = true →
      ¬acc.task.status.isFinished ∨ isContestConfiguredTask acc.task = true) :
    Unreserved acc' := by
  intro hopen
  obtain ⟨hslash, hpeers⟩ := h (hback hopen)
  have hmarks := congrArg Prod.snd hsame
  exact ⟨(congrArg Prod.fst hmarks).trans hslash, (congrArg Prod.snd hmarks).trans hpeers⟩

/-- Only the ruling of a dispute reserves claims, and it ends a task that is not a contest. -/
theorem TaskMove.unreserved (h : TaskMove w key acc i acc' ts) (hw : Reachable w)
    (hacc : w.tasks.lookup key = some acc) (hu : Unreserved acc) : Unreserved acc' := by
  have hterms := h.terms
  have hstays (hdone : acc.task.status.isFinished) : acc'.task.status.isFinished := by
    rw [(h.finished hdone hacc).status hdone]
    exact hdone
  cases h.marks with
  | kept same =>
    refine hu.of_marks same (Or.imp (fun hopen hdone => hopen (hstays hdone)) fun hcontest => ?_)
    rw [← hterms.contest_eq (congrArg Prod.fst same)]
    exact hcontest
  | configured opened idle after =>
    have hopen : ¬acc.task.status.isFinished := by
      rw [opened]
      decide
    obtain ⟨hslash, hpeers⟩ := hu (.inl hopen)
    rw [after]
    exact fun _ => ⟨hslash, hpeers⟩
  | @ruled disputeKey k op agent d d' c instruction filed about ran after =>
    have hcontest : isContestConfiguredTask acc'.task = isContestConfiguredTask acc.task := by
      refine hterms.contest_eq ?_
      rw [after]
      exact DisputeOp.run_constraint ran
    have hended (he : d.hasEnded) : acc.task.status.isFinished ∧
        isContestConfiguredTask acc.task = false := by
      obtain ⟨acc₀, hacc₀, hdone⟩ := (dispute_inv hw _ _ filed).task
      rw [about] at hacc₀
      obtain rfl : acc = acc₀ := Option.some.inj (hacc.symm.trans hacc₀)
      exact ⟨(hdone he).1, hw.contest_undisputed filed he (about ▸ hacc)⟩
    -- A dispute that ended, or ends, leaves a finished task that was no contest.
    have hvoid (hdone : acc'.task.status.isFinished)
        (hnot : isContestConfiguredTask acc.task = true → False) : Unreserved acc' := by
      rintro (hopen | hconfigured)
      · exact absurd hdone hopen
      · exact (hnot (hcontest ▸ hconfigured)).elim
    have hfrozen (hstatus : acc.task.status = .Disputed)
        (hconfigured : isContestConfiguredTask acc.task = true) : False := by
      rcases (hw.contestSound hacc).thawed hconfigured with hlive | ⟨hdone, -⟩
      · rw [hstatus] at hlive
        cases hlive
      · rw [hstatus] at hdone
        rcases hdone with hdone | hdone <;> cases hdone
    cases op with
    | cancelDispute signer =>
      obtain ⟨status, _, -, -, -, -, -, rfl, -⟩ := cancelDispute_spec ran
      have hsame : acc'.task.marks = acc.task.marks := by
        rw [after]
        rfl
      refine hu.of_marks hsame (Or.imp (fun hopen hdone => hopen (hstays hdone)) fun hc => ?_)
      rw [← hcontest]
      exact hc
    | resolveDispute signer signers withAssignment approved payees =>
      obtain ⟨_, _, _, _, _, _, _, _, _, _, _, _, _, _, _, -, -, -, hstatus, -, -, -, -, -, -, -,
        h⟩ := resolveDispute_spec ran
      obtain ⟨_, _, _, _, _, _, _, -, -, rfl, -⟩ := h
      refine hvoid ?_ (hfrozen hstatus)
      rw [after]
      exact rulingStatus_isFinished _ _
    | expireDispute =>
      obtain ⟨_, _, _, _, _, _, _, _, _, _, _, _, _, _, _, -, -, -, hstatus, -, -, -, -, -, -, -,
        -, rfl, -⟩ := expireDispute_spec ran
      refine hvoid ?_ (hfrozen hstatus)
      rw [after]
      exact .inr rfl
    | settleDisputeClaim =>
      obtain ⟨_, _, _, _, _, _, _, hpending, -⟩ := settleDisputeClaim_spec ran
      obtain ⟨hdone, hnot⟩ := hended (.inr (.inr hpending))
      exact hvoid (hstays hdone) fun hc => by rw [hnot] at hc; cases hc
    | applyDisputeSlash withTokenAccounts =>
      obtain ⟨_, _, _, _, _, _, _, _, _, _, _, _, -, -, hresolved, -⟩ := applyDisputeSlash_spec ran
      obtain ⟨hdone, hnot⟩ := hended (.inl hresolved)
      exact hvoid (hstays hdone) fun hc => by rw [hnot] at hc; cases hc

end Floors

/-! ## One step on one entry -/

/-- The instruction enters `k` in the task. -/
def Instruction.enters (key k : Pubkey) : Instruction → Bool
  | .work key' k' (.claimTaskWithJobSpec _ _) => decide (key' = key ∧ k' = k)
  | _ => false

/-- The instruction hands in a result of `k`. -/
def Instruction.submits (key k : Pubkey) : Instruction → Bool
  | .work key' k' (.submitTaskResult _ _ _ _) => decide (key' = key ∧ k' = k)
  | _ => false

/-- The instruction decides on the entry of `k`: the creator accepts or rejects it, or it is paid
its share of an abandoned contest. -/
def Instruction.decides (key k : Pubkey) : Instruction → Bool
  | .work key' k' (.acceptTaskResult _ _) | .work key' k' (.rejectTaskResult _ _)
  | .work key' k' (.distributeGhostShare _) => decide (key' = key ∧ k' = k)
  | _ => false

/-- The instruction drops `k` from the task: the claim has expired, the task is cancelled, or it
is finished. -/
def Instruction.drops (key k : Pubkey) : Instruction → Bool
  | .work key' k' (.expireClaim _ _) | .work key' k' .reclaimTerminalClaim =>
      decide (key' = key ∧ k' = k)
  | .cancelTask key' _ workers _ _ => decide (key' = key ∧ k ∈ workers)
  | _ => false

/-- The claim holds its rent and an entry deposit, and is not marked completed. -/
structure HoldsDeposit (rent : Rent) (claim : Account TaskClaim) : Prop where
  covered : rent.minimumBalance taskClaimSize + contestEntryDepositLamports ≤ claim.lamports
  running : claim.data.isCompleted = false

/-- What a step does to the claim of `k` on a contest. `submitted` and `submitted'` say, before
and after it, whether `k` has handed in a result since it entered. -/
inductive EntryMove (w : World) (key k : Pubkey) (submitted submitted' : Prop)
    (acc acc' : TaskAccounts) (i : Instruction) (ts : List Transfer) : Prop
  /-- There was no claim, and there is none. -/
  | idle (vacant : acc.claims.lookup k = none) (still : acc'.claims.lookup k = none)
      (quiet : i.enters key k = false) (unpaid : claimPart key k ts = [])
  /-- The wallet of `k` opens the claim and pays the deposit on top of what `init` left there. -/
  | entered {signer : Pubkey} {prefunded : ℕ} {agent : Account AgentRegistration}
      {claim : Account TaskClaim}
      (instruction : i = .work key k (.claimTaskWithJobSpec signer prefunded))
      (found : w.agents.lookup k = some agent) (payer : agent.data.authority = signer)
      (vacant : acc.claims.lookup k = none) (opened : acc'.claims.lookup k = some claim)
      (funded : claim.lamports =
        initBalance w.sys.rent taskClaimSize prefunded + contestEntryDepositLamports)
      (holds : HoldsDeposit w.sys.rent claim) (fresh : ¬submitted')
      (unpaid : claimPart key k ts = [])
  /-- The claim stays, with all it holds. -/
  | stays {claim claim' : Account TaskClaim} (opened : acc.claims.lookup k = some claim)
      (still : acc'.claims.lookup k = some claim') (kept : claim.lamports ≤ claim'.lamports)
      (holds : HoldsDeposit w.sys.rent claim') (quiet : i.enters key k = false)
      (entry : submitted' ↔ i.submits key k = true ∨ submitted)
      (unpaid : claimPart key k ts = [])
  /-- A decision on the entry closes the claim, and the entrant gets everything. -/
  | returned {agent : Account AgentRegistration} {claim : Account TaskClaim}
      (instruction : i.decides key k = true) (found : w.agents.lookup k = some agent)
      (waiting : submitted) (opened : acc.claims.lookup k = some claim)
      (gone : acc'.claims.lookup k = none)
      (paid : claimPart key k ts =
        [⟨.claim key k, agent.data.authority, .closingBalance, claim.lamports⟩])
  /-- An entrant who never submitted is dropped: the treasury gets the deposit, with whatever else
  the claim holds beyond its rent, and the entrant the rent. -/
  | forfeited {agent : Account AgentRegistration} {claim : Account TaskClaim}
      (instruction : i.drops key k = true) (found : w.agents.lookup k = some agent)
      (silent : ¬submitted) (opened : acc.claims.lookup k = some claim)
      (gone : acc'.claims.lookup k = none)
      (paid : claimPart key k ts =
        [⟨.claim key k, w.config.treasury, .depositForfeit,
            claim.lamports - w.sys.rent.minimumBalance taskClaimSize⟩,
          ⟨.claim key k, agent.data.authority, .closingBalance,
            w.sys.rent.minimumBalance taskClaimSize⟩])

/-- Every open claim of the task holds a deposit. -/
def DepositsHeld (rent : Rent) (acc : TaskAccounts) : Prop :=
  ∀ k claim, acc.claims.lookup k = some claim → HoldsDeposit rent claim

/-- A new claim on a contest is made by the wallet of the entrant, and holds what `init` left on
its account and the deposit. -/
theorem claimTaskWithJobSpec_deposit {c c' : TaskContext} {signer : Pubkey} {prefunded : ℕ}
    (h : claimTaskWithJobSpec c signer prefunded = .ok c')
    (hcontest : isContestConfiguredTask c.accounts.task = true)
    (hvacant : c.accounts.claims.lookup c.workerKey = none) :
    c.worker.data.authority = signer ∧ ∃ claim, claim.lamports =
        initBalance c.sys.rent taskClaimSize prefunded + contestEntryDepositLamports ∧
      claim.data.isCompleted = false ∧
      c'.accounts.claims = c.accounts.claims.insert c.workerKey claim ∧
      c'.accounts.submissions = c.accounts.submissions ∧ c'.paid = c.paid := by
  simp only [claimTaskWithJobSpec, bind_eq_ok, require_eq_ok, Except.ok.injEq] at h
  obtain ⟨_, hsigner, spec, -, _, -, _, -, _, -, c₁, hclaim, rfl⟩ := h
  simp only [processClaim, bind_eq_ok, require_eq_ok, addU8_eq_ok, addU16_eq_ok, Except.ok.injEq,
    TaskContext.task_eq, hvacant, Option.getD_none] at hclaim
  obtain ⟨_, -, _, -, _, -, _, -, _, -, _, -, _, -, _, -, h⟩ := hclaim
  obtain ⟨_, -, _, -, _, -, _, -, _, -, _, -, expiresAt, -, task, htask, h⟩ := h
  obtain ⟨_, ⟨-, rfl⟩, _, ⟨-, rfl⟩, hc₁⟩ := h
  obtain ⟨claimGeneration, rfl⟩ := incrementClaimGeneration_spec htask
  obtain ⟨balance, hfound, hbalance⟩ : ∃ balance, c₁.accounts.claims.lookup c₁.workerKey =
      some ⟨balance, newClaim c.sys.now expiresAt⟩ ∧
      balance = initBalance c.sys.rent taskClaimSize prefunded := by
    rw [← hc₁]
    exact ⟨_, AList.lookup_insert _, rfl⟩
  have hstill : isContestConfiguredTask c₁.accounts.task = true := by
    rw [← hc₁]
    exact hcontest
  refine ⟨hsigner, ⟨balance + contestEntryDepositLamports, newClaim c.sys.now expiresAt⟩,
    by rw [hbalance], rfl, ?_⟩
  unfold depositContestEntry
  rw [if_pos hstill, hfound, ← hc₁]
  refine ⟨?_, rfl, rfl⟩
  exact AList.insert_insert _

section Entries

variable {w : World} {key k k₀ : Pubkey} {acc acc' : TaskAccounts} {i : Instruction}
  {ts : List Transfer} {agent : Account AgentRegistration} {c : TaskContext} {r : Roster Pubkey}

theorem initBalance_ge (rent : Rent) (size prefunded : ℕ) :
    rent.minimumBalance size ≤ initBalance rent size prefunded := Nat.le_max_left _ _

/-- What the surplus of a claim that holds its rent leaves is the rent. -/
theorem HoldsDeposit.rent_left {rent : Rent} {claim : Account TaskClaim}
    (h : HoldsDeposit rent claim) :
    claim.lamports - claimSurplus rent claim = rent.minimumBalance taskClaimSize := by
  have hcovered := h.covered
  unfold claimSurplus
  omega

/-- A step that leaves the claims and the submissions of the task alone. -/
theorem EntryMove.of_same (hheld : DepositsHeld w.sys.rent acc)
    (hclaims : acc'.claims = acc.claims) (hentries : acc'.submitters = acc.submitters)
    (hquiet : i.enters key k = false) (hsubmits : i.submits key k = false)
    (hunpaid : claimPart key k ts = []) :
    EntryMove w key k (k ∈ acc.submitters) (k ∈ acc'.submitters) acc acc' i ts := by
  cases hk : acc.claims.lookup k with
  | none => exact .idle hk (by rw [hclaims, hk]) hquiet hunpaid
  | some claim =>
    refine .stays hk (by rw [hclaims, hk]) le_rfl (hheld k claim hk) hquiet ?_ hunpaid
    rw [hentries, hsubmits]
    simp only [Bool.false_eq_true, false_or]

/-- A step on the claim of another worker. -/
theorem EntryMove.of_other (hheld : DepositsHeld w.sys.rent acc)
    (hclaims : acc'.claims.lookup k = acc.claims.lookup k)
    (hentries : acc'.submissions.lookup k = acc.submissions.lookup k)
    (hquiet : i.enters key k = false) (hsubmits : i.submits key k = false)
    (hunpaid : claimPart key k ts = []) :
    EntryMove w key k (k ∈ acc.submitters) (k ∈ acc'.submitters) acc acc' i ts := by
  cases hk : acc.claims.lookup k with
  | none => exact .idle hk (hclaims.trans hk) hquiet hunpaid
  | some claim =>
    refine .stays hk (hclaims.trans hk) le_rfl (hheld k claim hk) hquiet ?_ hunpaid
    rw [Ledger.mem_support, Ledger.mem_support, hentries, hsubmits]
    simp only [Bool.false_eq_true, false_or]

/-- A decision on the entry of `k₀`, seen from any entry. -/
theorem ReturnsEntry.entry (h : ReturnsEntry (w.workContext key acc k₀ agent) c)
    (found : w.agents.lookup k₀ = some agent) (hheld : DepositsHeld w.sys.rent acc)
    (hquiet : i.enters key k = false) (hsubmits : i.submits key k = false)
    (hdecides : i.decides key k₀ = true) :
    EntryMove w key k (k ∈ acc.submitters) (k ∈ c.accounts.submitters) acc c.accounts i c.paid := by
  obtain ⟨claim, hclaim, hpaid⟩ := h.paid
  by_cases hk : k = k₀
  · subst hk
    refine .returned hdecides found h.waiting hclaim ?_ ((hpaid k).trans (if_pos rfl))
    rw [h.claims]
    exact AList.lookup_erase _ _
  · have hpaid : claimPart key k c.paid = [] := (hpaid k).trans (if_neg hk)
    refine .of_other hheld ?_ (h.others k hk) hquiet hsubmits hpaid
    rw [h.claims]
    exact AList.lookup_erase_ne hk

/-- A claim without an entry is dropped, seen from any entry. -/
theorem ForfeitsEntry.entry (h : ForfeitsEntry (w.workContext key acc k₀ agent) c)
    (found : w.agents.lookup k₀ = some agent) (hheld : DepositsHeld w.sys.rent acc)
    (hquiet : i.enters key k = false) (hsubmits : i.submits key k = false)
    (hdrops : i.drops key k₀ = true) :
    EntryMove w key k (k ∈ acc.submitters) (k ∈ c.accounts.submitters) acc c.accounts i c.paid := by
  obtain ⟨claim, hclaim, hpaid⟩ := h.paid
  by_cases hk : k = k₀
  · subst hk
    have hclosings : claimPart key k c.paid = claimClosings (w.workContext key acc k agent)
        agent.data.authority claim (claimSurplus w.sys.rent claim) :=
      (hpaid k).trans (if_pos rfl)
    rw [claimClosings, (hheld k claim hclaim).rent_left] at hclosings
    refine .forfeited hdrops found h.silent hclaim ?_ hclosings
    rw [h.claims]
    exact AList.lookup_erase _ _
  · have hpaid : claimPart key k c.paid = [] := (hpaid k).trans (if_neg hk)
    refine .of_other hheld ?_ (h.others k hk) hquiet hsubmits hpaid
    rw [h.claims]
    exact AList.lookup_erase_ne hk

/-- A donation only raises what a claim holds. -/
theorem Credits.entry {amount : ℕ} {target : Custody} (h : Credits key amount acc target acc')
    (hheld : DepositsHeld w.sys.rent acc) :
    EntryMove w key k (k ∈ acc.submitters) (k ∈ acc'.submitters) acc acc' (.donate target amount)
      [] := by
  cases h with
  | @claim j claim loaded =>
    by_cases hk : k = j
    · subst hk
      have hholds := hheld k claim loaded
      refine .stays loaded (AList.lookup_insert _) (Nat.le_add_right _ _)
        ⟨hholds.covered.trans (Nat.le_add_right _ _), hholds.running⟩ rfl ?_ rfl
      show k ∈ acc.submitters ↔ false = true ∨ k ∈ acc.submitters
      simp only [Bool.false_eq_true, false_or]
    · exact .of_other hheld (AList.lookup_insert_ne hk) rfl rfl rfl rfl
  | submission loaded =>
    exact .of_same hheld rfl (Ledger.support_insert_same loaded Iff.rfl) rfl rfl rfl
  | escrow loaded | tokenEscrow loaded | bond loaded | bid loaded =>
    exact .of_same hheld rfl rfl rfl rfl rfl

/-- Who has no claim has no entry. -/
theorem Tracks.silent (h : Tracks acc r) (hvacant : acc.claims.lookup k = none) :
    k ∉ acc.submitters := by
  intro hwaiting
  rw [← h.waiting] at hwaiting
  have hseat := h.mem_seated.mp (r.subset hwaiting)
  rw [hvacant] at hseat
  cases hseat

/-- What a step on a contest that has not ended does to the claim of any `k`. -/
theorem ContestMove.entry (h : ContestMove w key acc i acc' ts) (hs : Staffed acc r)
    (hcontest : isContestConfiguredTask acc.task = true) (hheld : DepositsHeld w.sys.rent acc)
    (hagents : ∀ k, (acc.claims.lookup k).isSome = true → (w.agents.lookup k).isSome = true)
    (k : Pubkey) :
    EntryMove w key k (k ∈ acc.submitters) (k ∈ acc'.submitters) acc acc' i ts := by
  cases h with
  | donated credits => exact credits.entry hheld
  | prepared opened => exact .of_same hheld rfl rfl rfl rfl rfl
  | @entered k₀ signer prefunded agent c found ran =>
    have hvacant : acc.claims.lookup k₀ = none := by
      obtain ⟨_, hassignable, -⟩ := claimTaskWithJobSpec_spec ran
      cases hclaim : acc.claims.lookup k₀ with
      | none => rfl
      | some claim =>
        exact absurd (hs.tracks.claims.stamped k₀ claim hclaim)
          (not_lt.mpr (hassignable.unclaimed claim hclaim))
    obtain ⟨hsigner, claim, hfunded, hrunning, hclaims, hsubmissions, hpaid⟩ :=
      claimTaskWithJobSpec_deposit ran hcontest hvacant
    have hclaims : c.accounts.claims = acc.claims.insert k₀ claim := hclaims
    have hsubmissions : c.accounts.submissions = acc.submissions := hsubmissions
    have hunpaid : claimPart key k c.paid = [] := by
      rw [hpaid]
      rfl
    by_cases hk : k = k₀
    · subst hk
      refine .entered rfl found hsigner hvacant (by rw [hclaims, AList.lookup_insert]) hfunded
        ⟨?_, hrunning⟩ ?_ hunpaid
      · rw [hfunded]
        exact Nat.add_le_add_right (initBalance_ge _ _ _) _
      · rw [TaskAccounts.submitters, hsubmissions]
        exact hs.tracks.silent hvacant
    · refine .of_other hheld ?_ (by rw [hsubmissions]) ?_ rfl hunpaid
      · rw [hclaims]
        exact AList.lookup_insert_ne hk
      · exact decide_eq_false fun hself => hk hself.2.symm
  | @submitted k₀ signer proofHash resultData prefunded agent c found ran =>
    obtain ⟨claim, config, submission, hclaim, -, -, -, -, -, hsubmitted, _, _, rfl⟩ :=
      submitTaskResult_spec ran
    by_cases hk : k = k₀
    · subst hk
      have hholds := hheld k claim hclaim
      refine .stays hclaim (AList.lookup_insert _) le_rfl ⟨hholds.covered, rfl⟩ rfl ?_ rfl
      refine iff_of_true ?_ (.inl (decide_eq_true ⟨rfl, rfl⟩))
      exact Ledger.mem_support.mpr ⟨submission, AList.lookup_insert _, hsubmitted⟩
    · refine .of_other hheld (AList.lookup_insert_ne hk) (AList.lookup_insert_ne hk) rfl ?_ rfl
      exact decide_eq_false fun hself => hk hself.2.symm
  | accepted found ran =>
    exact (acceptTaskResult_returns ran rfl).entry found hheld rfl rfl (decide_eq_true ⟨rfl, rfl⟩)
  | rejected found ran =>
    exact (rejectTaskResult_returns ran rfl).entry found hheld rfl rfl (decide_eq_true ⟨rfl, rfl⟩)
  | expired found ran =>
    exact (expireClaim_forfeits ran rfl hcontest).entry found hheld rfl rfl
      (decide_eq_true ⟨rfl, rfl⟩)
  | shared found ran =>
    exact (distributeGhostShare_returns ran rfl).entry found hheld rfl rfl
      (decide_eq_true ⟨rfl, rfl⟩)
  | @cancelled signer workers workerBondAuthority withParent base c agents' listed ran =>
    obtain ⟨hkey, haccounts, hsys, hconfig, hpaid, -⟩ := listed_context listed
    have hcontest' : isContestConfiguredTask base.accounts.task = true := by
      rw [haccounts]
      exact hcontest
    have hclosed := cancelTask_forfeits ran hpaid hcontest' k
    have hseats : ∀ k, k ∈ workers ↔ k ∈ r.seated :=
      (cancelTask_staffed ran (by rw [haccounts]; exact hs)).2.1
    rw [hkey, haccounts] at hclosed
    obtain ⟨_, _, _, _, _, _, _, _, _, claims', _, _, _, -, -, hsilent, -, -, -, -, hclaims, -, -,
      -, -, -, -, -, -, -, rfl⟩ := cancelTask_spec ran
    rw [haccounts] at hclaims hsilent
    have hnobody : k ∉ acc.submitters := by
      have hlive : acc.task.liveSubmissions = 0 :=
        hsilent (isContestTask_of_configured hcontest)
      rw [hs.tracks.counted.live, Finset.card_eq_zero, hs.tracks.waiting] at hlive
      rw [hlive]
      exact Finset.notMem_empty k
    have hentries : base.accounts.submissions = acc.submissions := by rw [haccounts]
    by_cases hk : k ∈ workers
    · obtain ⟨claim, hclaim⟩ := Option.isSome_iff_exists.mp
        (hs.tracks.mem_seated.mp ((hseats k).mp hk))
      obtain ⟨agent, hagent⟩ := Option.isSome_iff_exists.mp
        (hagents k (by rw [hclaim]; rfl))
      rw [if_pos hk, hclaim, hagent] at hclosed
      refine .forfeited (decide_eq_true ⟨rfl, hk⟩) hagent hnobody hclaim
        ((hclaims k).trans (if_pos hk)) (hclosed.trans ?_)
      show claimClosings { base with key := key, accounts := acc, workerKey := k }
        agent.data.authority claim (claimSurplus base.sys.rent claim) = _
      rw [claimClosings, hconfig, hsys, (hheld k claim hclaim).rent_left]
      rfl
    · rw [if_neg hk] at hclosed
      refine .of_other hheld ((hclaims k).trans (if_neg hk)) ?_ rfl rfl hclosed
      show base.accounts.submissions.lookup k = _
      rw [hentries]
  | withdrawn found filed about ran =>
    obtain ⟨status, _, -, -, -, -, -, rfl, -⟩ := cancelDispute_spec ran
    exact .of_same hheld rfl rfl rfl rfl rfl

/-- What a step on a finished contest does to the claim of any `k`. -/
theorem FinishedMove.entry (h : FinishedMove w key acc i acc' ts) (hw : Reachable w)
    (hacc : w.tasks.lookup key = some acc)
    (hcontest : isContestConfiguredTask acc.task = true) (hheld : DepositsHeld w.sys.rent acc)
    (hnobody : acc.submitters = ∅) (k : Pubkey) :
    EntryMove w key k (k ∈ acc.submitters) (k ∈ acc'.submitters) acc acc' i ts := by
  have htype := (isContestConfiguredTask_iff.mp hcontest).1.2
  have hvoid {disputeKey : Pubkey} {d : Dispute} (filed : w.disputes.lookup disputeKey = some d)
      (about : d.task = key) (hended : d.hasEnded) : False := by
    have hnot := hw.contest_undisputed filed hended (about ▸ hacc)
    rw [hcontest] at hnot
    cases hnot
  cases h with
  | donated credits => exact credits.entry hheld
  | bid found touches tends => exact (touches.not_contest htype).elim
  | bond ran =>
    obtain ⟨-, rfl⟩ := reclaimCompletionBond_spec ran
    refine .of_same hheld rfl rfl rfl rfl ?_
    exact claimPart_append.trans claimPart_bondPayments
  | claim found ran =>
    refine (reclaimTerminalClaim_forfeits ran rfl ?_).entry found hheld rfl rfl
      (decide_eq_true ⟨rfl, rfl⟩)
    show _ ∉ acc.submitters
    rw [hnobody]
    exact Finset.notMem_empty _
  | closed ran =>
    obtain ⟨_, paidEscrow, _, submissions', _, _, ts, -, -, -, hescrow, hold, -, -, hts, rfl⟩ :=
      closeTask_spec ran
    have hunpaid : claimPart key k (paidEscrow ++ ts) = [] := by
      refine claimPart_eq_nil fun t ht => ?_
      rcases List.mem_append.mp ht with ht | ht
      · rcases hescrow with ⟨-, hnone⟩ | ⟨_, -, -, -, hone⟩
        · rw [hnone] at ht
          exact absurd ht List.not_mem_nil
        · rw [hone] at ht
          rw [List.mem_singleton.mp ht]
          exact nofun
      · obtain ⟨⟨j, hj⟩, -⟩ := hts t ht
        rw [hj]
        exact nofun
    refine .of_same hheld rfl ?_ rfl rfl hunpaid
    have hnobody : Ledger.support IsSubmitted acc.submissions = ∅ := hnobody
    refine (Finset.eq_empty_of_forall_notMem fun j hj => ?_).trans hnobody.symm
    obtain ⟨s, hs, hsubmitted⟩ := Ledger.mem_support.mp hj
    have hstored : j ∈ Ledger.support IsSubmitted acc.submissions :=
      Ledger.mem_support.mpr ⟨s, hold j s hs, hsubmitted⟩
    rw [hnobody] at hstored
    exact absurd hstored (Finset.notMem_empty j)
  | withdrawn found filed about ran =>
    obtain ⟨status, _, -, -, -, -, -, rfl, -⟩ := cancelDispute_spec ran
    exact .of_same hheld rfl rfl rfl rfl rfl
  | settled found filed about ran =>
    obtain ⟨_, _, _, _, _, _, _, hpending, -⟩ := settleDisputeClaim_spec ran
    exact (hvoid filed about (.inr (.inr hpending))).elim
  | slashed found filed about ran =>
    obtain ⟨_, _, _, _, _, _, _, _, _, _, _, _, -, -, hresolved, -⟩ := applyDisputeSlash_spec ran
    exact (hvoid filed about (.inl hresolved)).elim

end Entries

/-! ## Every reachable contest -/

/-- What every reachable world keeps about the claims and the submissions of a task. -/
structure EntrySound (rent : Rent) (acc : TaskAccounts) : Prop where
  verdicts : ∀ k s, acc.submissions.lookup k = some s →
    s.data.status = .Submitted ∨ s.data.status = .Rejected
  floor : RentKept rent acc
  unreserved : Unreserved acc
  deposits : isContestConfiguredTask acc.task = true → DepositsHeld rent acc

section Sound

variable {w w' : World} {key k : Pubkey} {acc acc' : TaskAccounts} {i : Instruction}
  {ts : List Transfer}

/-- Whoever has a claim is registered. -/
theorem Occupancy.claimant (ho : Occupancy w) (hacc : w.tasks.lookup key = some acc)
    (hclaim : (acc.claims.lookup k).isSome = true) : (w.agents.lookup k).isSome = true := by
  cases hk : w.agents.lookup k with
  | some agent => rfl
  | none =>
    have hnone : (openClaims w k).card = 0 := by
      rw [← ho.active k, activeTasksOf, counterOf_of_none hk]
    have hmem : key ∈ openClaims w k := Ledger.mem_support.mpr ⟨acc, hacc, hclaim⟩
    rw [Finset.card_eq_zero.mp hnone] at hmem
    exact absurd hmem (Finset.notMem_empty key)

/-- What a step on a contest does to the claim of any `k`. -/
theorem TaskMove.entry (h : TaskMove w key acc i acc' ts) (hw : Reachable w)
    (hacc : w.tasks.lookup key = some acc)
    (hcontest : isContestConfiguredTask acc.task = true) (hheld : DepositsHeld w.sys.rent acc)
    (k : Pubkey) :
    EntryMove w key k (k ∈ acc.submitters) (k ∈ acc'.submitters) acc acc' i ts := by
  have hsound := hw.contestSound hacc
  obtain ⟨r, hstaffed⟩ := (occupancy hw).tasks key acc hacc
  rcases hsound.thawed hcontest with hlive | ⟨hdone, hnobody⟩
  · exact (h.contest hsound (dispute_inv hw) hacc hcontest hlive).entry hstaffed hcontest hheld
      (fun _ => (occupancy hw).claimant hacc) k
  · exact (h.finished hdone hacc).entry hw hacc hcontest hheld hnobody k

/-- The claims after a move hold their deposits. -/
theorem EntryMove.holds {submitted submitted' : Prop} {claim : Account TaskClaim}
    (h : EntryMove w key k submitted submitted' acc acc' i ts)
    (hclaim : acc'.claims.lookup k = some claim) : HoldsDeposit w.sys.rent claim := by
  cases h with
  | idle vacant still =>
    rw [still] at hclaim
    cases hclaim
  | entered instruction found payer vacant opened funded holds =>
    obtain rfl := Option.some.inj (opened.symm.trans hclaim)
    exact holds
  | stays opened still kept holds =>
    obtain rfl := Option.some.inj (still.symm.trans hclaim)
    exact holds
  | returned instruction found waiting opened gone =>
    rw [gone] at hclaim
    cases hclaim
  | forfeited instruction found silent opened gone =>
    rw [gone] at hclaim
    cases hclaim

/-- A task becomes a contest while nobody has a claim on it. -/
theorem TaskMove.contest_before (h : TaskMove w key acc i acc' ts) (hw : Reachable w)
    (hacc : w.tasks.lookup key = some acc)
    (hcontest : isContestConfiguredTask acc'.task = true) :
    isContestConfiguredTask acc.task = true ∨ ∀ k, acc'.claims.lookup k = none := by
  have hterms := h.terms
  cases h.marks with
  | kept same => exact .inl (hterms.contest_eq (congrArg Prod.fst same) ▸ hcontest)
  | configured opened idle after =>
    refine .inr fun k => ?_
    obtain ⟨r, hstaffed⟩ := (occupancy hw).tasks key acc hacc
    rw [hstaffed.tracks.workers, Finset.card_eq_zero] at idle
    have hclaims : acc'.claims = acc.claims := by rw [after]
    rw [hclaims, ← Option.not_isSome_iff_eq_none, ← hstaffed.tracks.mem_seated, idle]
    exact Finset.notMem_empty k
  | ruled instruction filed about ran after =>
    refine .inl (hterms.contest_eq ?_ ▸ hcontest)
    rw [after]
    exact DisputeOp.run_constraint ran

theorem FreshAccounts.entrySound (h : FreshAccounts w acc) : EntrySound w.sys.rent acc := by
  refine ⟨fun k s hs => ?_, fun escrow hescrow => ?_, fun _ => ⟨h.task.slash, h.task.peers⟩,
    fun _ k claim hclaim => ?_⟩
  · rw [h.submissions] at hs
    cases hs
  · obtain ⟨pre, hinit⟩ := h.escrow
    obtain rfl := Option.some.inj (hinit.symm.trans hescrow)
    refine (Nat.le_max_left _ pre.lamports).trans ?_
    rw [initEscrow]
    dsimp only
    split_ifs
    · exact Nat.le_add_right _ _
    · exact le_rfl
  · rw [h.claims] at hclaim
    cases hclaim

theorem TaskMove.entrySound (h : TaskMove w key acc i acc' ts) (hw : Reachable w)
    (hacc : w.tasks.lookup key = some acc) (hs : EntrySound w.sys.rent acc) :
    EntrySound w.sys.rent acc' := by
  refine ⟨fun k s' hs' => ?_, h.rentKept hs.floor, h.unreserved hw hacc hs.unreserved,
    fun hcontest k claim hclaim => ?_⟩
  · rcases h.verdicts k s' hs' with hverdict | ⟨s, hstored, hsame⟩
    · exact hverdict
    · rw [← hsame]
      exact hs.verdicts k s hstored
  · rcases h.contest_before hw hacc hcontest with hbefore | hvacant
    · exact (h.entry hw hacc hbefore (hs.deposits hbefore) k).holds hclaim
    · rw [hvacant k] at hclaim
      cases hclaim

/-- Every task of a reachable world is sound so. -/
theorem Reachable.entrySound (h : Reachable w) (hacc : w.tasks.lookup key = some acc) :
    EntrySound w.sys.rent acc := by
  refine Reachable.induct (I := fun w => ∀ key acc, w.tasks.lookup key = some acc →
    EntrySound w.sys.rent acc) (fun w hgenesis key acc hacc => ?_)
    (fun w label w' hw hstep hI key acc hacc => ?_) h key acc hacc
  · rw [hgenesis.tasks] at hacc
    cases hacc
  · obtain ⟨i, ts⟩ := label
    rw [(Step.environment hstep).2.1]
    cases Step.task hstep key with
    | apart same unpaid => exact hI key acc (same ▸ hacc)
    | created new stored fresh unpaid =>
      obtain rfl := Option.some.inj (hacc.symm.trans stored)
      exact fresh.entrySound
    | moved loaded stored move =>
      obtain rfl := Option.some.inj (hacc.symm.trans stored)
      exact move.entrySound hw loaded (hI key _ loaded)

/-- The version the program was deployed with is never out of range. -/
theorem Reachable.version (h : Reachable w) : checkVersionRange w.config = .ok () := by
  have hversions : w.config.protocolVersion = 1 ∧ w.config.minSupportedVersion = 1 := by
    refine Reachable.induct (I := fun w => w.config.protocolVersion = 1 ∧
      w.config.minSupportedVersion = 1) (fun w hgenesis => ?_) (fun w label w' _ hstep hI => ?_) h
    · exact ⟨hgenesis.protocolVersion, hgenesis.minSupportedVersion⟩
    · obtain ⟨i, ts⟩ := label
      have hsame := Step.settings hstep
      exact ⟨hsame.protocolVersion.trans hI.1, hsame.minSupportedVersion.trans hI.2⟩
  unfold checkVersionRange
  rw [hversions.1, hversions.2]
  rfl

/-- A claim of a finished task that no dispute reserves, without an entry under review, can be
reclaimed. -/
theorem reclaimTerminalClaim_ok {c : TaskContext} {claim : Account TaskClaim}
    (hclaim : c.accounts.claims.lookup c.workerKey = some claim)
    (hversion : checkVersionRange c.config = .ok ())
    (hdone : c.accounts.task.status = .Completed ∨ c.accounts.task.status = .Cancelled)
    (hrunning : claim.data.isCompleted = false)
    (hslash : c.accounts.task.workerSlashPending = false)
    (hpeers : c.accounts.task.peerSettlementPending = false)
    (hworkers : 0 < c.accounts.task.currentWorkers)
    (hverdict : ∀ s, c.accounts.submissions.lookup c.workerKey = some s →
      s.data.status = .Rejected) : ∃ c', reclaimTerminalClaim c = .ok c' := by
  have hrelease : releaseTerminalSubmission c = .ok c := by
    unfold releaseTerminalSubmission
    cases hs : c.accounts.submissions.lookup c.workerKey with
    | none => rfl
    | some s =>
      dsimp only
      rw [hverdict s hs]
  simp only [reclaimTerminalClaim, validateTerminalClaimNotDisputeReserved, bind_eq_ok,
    demand_eq_ok, require_eq_ok, TaskContext.task_eq]
  exact ⟨_, claim, hclaim, (), hversion, (), hdone, (), hrunning, (), ⟨(), ⟨hslash, hworkers⟩,
    hpeers⟩, c, hrelease, rfl⟩

end Sound

/-! ## Every run -/

section Runs

variable {w w' : World} {key k : Pubkey} {acc acc' : TaskAccounts} {i : Instruction}
  {ts : List Transfer}

theorem Instruction.of_enters (h : i.enters key k = true) :
    ∃ signer prefunded, i = .work key k (.claimTaskWithJobSpec signer prefunded) := by
  unfold Instruction.enters at h
  split at h
  · obtain ⟨rfl, rfl⟩ := of_decide_eq_true h
    exact ⟨_, _, rfl⟩
  · cases h

/-- Who is decided on or dropped does not enter. -/
theorem Instruction.quiet_of_closes (h : i.decides key k = true ∨ i.drops key k = true) :
    i.enters key k = false := by
  rw [← Bool.not_eq_true]
  intro henters
  obtain ⟨signer, prefunded, rfl⟩ := Instruction.of_enters henters
  rcases h with h | h
  · cases h
  · cases h

theorem Instruction.of_submits (h : i.submits key k = true) : ∃ op, i = .work key k op := by
  unfold Instruction.submits at h
  split at h
  · obtain ⟨rfl, rfl⟩ := of_decide_eq_true h
    exact ⟨_, rfl⟩
  · cases h

/-- A step seen from a task that exists: it moves the task, or leaves it alone, pays nothing out of
it, and is not an entry or a submission on it. -/
theorem Step.moves_or_apart (h : Step w (i, ts) w') (hacc : w.tasks.lookup key = some acc) :
    (∃ acc', w'.tasks.lookup key = some acc' ∧ TaskMove w key acc i acc' ts) ∨
      w'.tasks.lookup key = some acc ∧ (∀ t ∈ ts, t.source.task ≠ some key) ∧
        ∀ k, i.enters key k = false ∧ i.submits key k = false := by
  by_cases hworks : ∃ k op, i = .work key k op
  · obtain ⟨k, op, rfl⟩ := hworks
    obtain ⟨acc₁, acc', hloaded, hstored, hmove⟩ := Step.worked h
    obtain rfl := Option.some.inj (hacc.symm.trans hloaded)
    exact .inl ⟨acc', hstored, hmove⟩
  · cases Step.task h key with
    | apart same unpaid =>
      refine .inr ⟨same.trans hacc, unpaid, fun k => ⟨?_, ?_⟩⟩
      · rw [← Bool.not_eq_true]
        intro henters
        obtain ⟨signer, prefunded, rfl⟩ := Instruction.of_enters henters
        exact hworks ⟨k, _, rfl⟩
      · rw [← Bool.not_eq_true]
        exact fun hsubmits => hworks ⟨k, Instruction.of_submits hsubmits⟩
    | created new stored fresh unpaid =>
      rw [hacc] at new
      cases new
    | moved loaded stored move =>
      obtain rfl := Option.some.inj (hacc.symm.trans loaded)
      exact .inl ⟨_, stored, move⟩

/-- A contest stays one, and every step makes one move on the claim of `k`. -/
theorem Step.entry (h : Step w (i, ts) w') (hw : Reachable w)
    (hacc : w.tasks.lookup key = some acc) (hcontest : isContestConfiguredTask acc.task = true)
    (k : Pubkey) :
    ∃ acc', w'.tasks.lookup key = some acc' ∧ isContestConfiguredTask acc'.task = true ∧
      EntryMove w key k (k ∈ acc.submitters) (k ∈ acc'.submitters) acc acc' i ts := by
  have hheld := (hw.entrySound hacc).deposits hcontest
  rcases h.moves_or_apart hacc with ⟨acc', hstored, hmove⟩ | ⟨hsame, hunpaid, hquiet⟩
  · exact ⟨acc', hstored, hmove.terms.contest hcontest, hmove.entry hw hacc hcontest hheld k⟩
  · refine ⟨acc, hsame, hcontest, .of_same hheld rfl rfl (hquiet k).1 (hquiet k).2 ?_⟩
    refine claimPart_eq_nil fun t ht hsource => hunpaid t ht ?_
    rw [hsource]
    rfl

/-- An open claim of a contest was there before the step, or is opened by it on a contest. -/
theorem Step.entry_before (h : Step w (i, ts) w') (hw : Reachable w)
    (hacc' : w'.tasks.lookup key = some acc') (hcontest : isContestConfiguredTask acc'.task = true)
    (hclaim : (acc'.claims.lookup k).isSome = true) :
    ∃ acc, w.tasks.lookup key = some acc ∧ isContestConfiguredTask acc.task = true := by
  cases Step.task h key with
  | apart same unpaid => exact ⟨acc', same ▸ hacc', hcontest⟩
  | created new stored fresh unpaid =>
    obtain rfl := Option.some.inj (hacc'.symm.trans stored)
    rw [fresh.claims] at hclaim
    cases hclaim
  | moved loaded stored move =>
    obtain rfl := Option.some.inj (hacc'.symm.trans stored)
    refine ⟨_, loaded, (move.contest_before hw loaded hcontest).resolve_right fun hvacant => ?_⟩
    rw [hvacant k] at hclaim
    cases hclaim

/-- In the log `k` has handed in a result since it last entered. -/
def SubmittedSince (key k : Pubkey) (log : List LogEntry) : Prop :=
  Run.Since (fun e : LogEntry => e.label.1.enters key k = true)
    (fun e => e.label.1.submits key k = true) log

/-- The task is a contest. -/
def IsContest (key : Pubkey) (w : World) : Prop :=
  (w.tasks.lookup key).any (fun acc => isContestConfiguredTask acc.task) = true

instance (key : Pubkey) (w : World) : Decidable (IsContest key w) :=
  inferInstanceAs (Decidable (_ = true))

/-- `k` has an open claim on the contest. -/
def HasEntered (key k : Pubkey) (w : World) : Prop :=
  (w.tasks.lookup key).any (fun acc =>
    isContestConfiguredTask acc.task && (acc.claims.lookup k).isSome) = true

instance (key k : Pubkey) (w : World) : Decidable (HasEntered key k w) :=
  inferInstanceAs (Decidable (_ = true))

/-- The step enters `k` in the contest. -/
def entersContest (key k : Pubkey) (e : LogEntry) : Bool :=
  decide (IsContest key e.before) && e.label.1.enters key k

/-- The step pays out of the claim of `k` on the contest. -/
def paysEntry (key k : Pubkey) (e : LogEntry) : Bool :=
  decide (IsContest key e.before) && decide (claimPart key k e.label.2 ≠ [])

theorem isContest_iff : IsContest key w ↔
    ∃ acc, w.tasks.lookup key = some acc ∧ isContestConfiguredTask acc.task = true := by
  unfold IsContest
  rw [Option.any_eq_true]

theorem hasEntered_of_lookup (hacc : w.tasks.lookup key = some acc)
    (hcontest : isContestConfiguredTask acc.task = true) :
    HasEntered key k w ↔ (acc.claims.lookup k).isSome = true := by
  unfold HasEntered
  rw [hacc, Option.any_some, hcontest, Bool.true_and]

theorem not_hasEntered (h : ¬IsContest key w) : ¬HasEntered key k w := by
  intro hentered
  obtain ⟨acc, hacc, hboth⟩ := (Option.any_eq_true _ _).mp hentered
  exact h (isContest_iff.mpr ⟨acc, hacc, (Bool.and_eq_true_iff.mp hboth).1⟩)

/-- The books of one entrant: entering opens a claim, and one payment out of it ends it. -/
theorem Step.entry_books {e : LogEntry} (h : Step e.before e.label e.after)
    (hw : Reachable e.before) :
    (if HasEntered key k e.before then 1 else 0) + (if entersContest key k e = true then 1 else 0) =
      (if HasEntered key k e.after then 1 else 0) + if paysEntry key k e = true then 1 else 0 := by
  by_cases hcontest : IsContest key e.before
  · have hdecided : decide (IsContest key e.before) = true := decide_eq_true hcontest
    obtain ⟨acc, hacc, hconfigured⟩ := isContest_iff.mp hcontest
    obtain ⟨acc', hacc', hconfigured', hmove⟩ := Step.entry h hw hacc hconfigured k
    simp only [entersContest, paysEntry, hdecided, Bool.true_and, decide_eq_true_eq,
      hasEntered_of_lookup hacc hconfigured, hasEntered_of_lookup hacc' hconfigured']
    cases hmove with
    | idle vacant still quiet unpaid => simp [vacant, still, quiet, unpaid]
    | entered instruction found payer vacant opened funded holds fresh unpaid =>
      simp [vacant, opened, unpaid, instruction, Instruction.enters]
    | stays opened still kept holds quiet entry unpaid => simp [opened, still, quiet, unpaid]
    | returned instruction found waiting opened gone paid =>
      have hquiet := Instruction.quiet_of_closes (.inl instruction)
      simp [opened, gone, paid, hquiet]
    | forfeited instruction found silent opened gone paid =>
      have hquiet := Instruction.quiet_of_closes (.inr instruction)
      simp [opened, gone, paid, hquiet]
  · have hafter : ¬HasEntered key k e.after := by
      intro hentered
      obtain ⟨acc', hacc', hboth⟩ := (Option.any_eq_true _ _).mp hentered
      obtain ⟨hconfigured, hclaim⟩ := Bool.and_eq_true_iff.mp hboth
      exact hcontest (isContest_iff.mpr (Step.entry_before h hw hacc' hconfigured hclaim))
    simp only [entersContest, paysEntry, decide_eq_false hcontest, Bool.false_and,
      Bool.false_eq_true, if_false, if_neg (not_hasEntered hcontest), if_neg hafter]

/-- Who waits on a contest is who has submitted since entering. -/
theorem run_submitted {w₀ : World} {log : List LogEntry} (hgenesis : Genesis w₀)
    (hrun : Run Step w₀ log w) (hacc : w.tasks.lookup key = some acc)
    (hcontest : isContestConfiguredTask acc.task = true)
    (hclaim : (acc.claims.lookup k).isSome = true) :
    k ∈ acc.submitters ↔ SubmittedSince key k log := by
  induction hrun generalizing acc with
  | refl =>
    rw [hgenesis.tasks] at hacc
    cases hacc
  | @snoc log s s' label hrun hs ih =>
    obtain ⟨i, ts⟩ := label
    have hw : Reachable s := ⟨w₀, log, hgenesis, hrun⟩
    obtain ⟨acc₀, hacc₀, hcontest₀⟩ := Step.entry_before hs hw hacc hcontest hclaim
    obtain ⟨acc₁, hacc₁, -, hmove⟩ := Step.entry hs hw hacc₀ hcontest₀ k
    obtain rfl := Option.some.inj (hacc.symm.trans hacc₁)
    rw [SubmittedSince, Run.since_snoc]
    cases hmove with
    | idle vacant still => simp [still] at hclaim
    | entered instruction found payer vacant opened funded holds fresh unpaid =>
      refine iff_of_false fresh ?_
      rintro (hsubmits | ⟨-, hquiet⟩)
      · rw [instruction] at hsubmits
        cases hsubmits
      · refine hquiet ?_
        rw [instruction]
        exact decide_eq_true ⟨rfl, rfl⟩
    | stays opened still kept holds quiet entry unpaid =>
      have hbefore : k ∈ acc₀.submitters ↔ SubmittedSince key k log :=
        ih hacc₀ hcontest₀ (by rw [opened]; rfl)
      rw [entry, hbefore]
      simp only [quiet, Bool.false_eq_true, not_false_eq_true, and_true]
      rfl
    | returned instruction found waiting opened gone => simp [gone] at hclaim
    | forfeited instruction found silent opened gone => simp [gone] at hclaim

/-- The same move, read with other words for who has submitted. -/
theorem EntryMove.congr {p p' q q' : Prop} (h : EntryMove w key k p p' acc acc' i ts)
    (hp : (acc.claims.lookup k).isSome = true → (p ↔ q))
    (hp' : (acc'.claims.lookup k).isSome = true → (p' ↔ q')) :
    EntryMove w key k q q' acc acc' i ts := by
  cases h with
  | idle vacant still quiet unpaid => exact .idle vacant still quiet unpaid
  | entered instruction found payer vacant opened funded holds fresh unpaid =>
    have hiff := hp' (by rw [opened]; rfl)
    exact .entered instruction found payer vacant opened funded holds (mt hiff.mpr fresh) unpaid
  | stays opened still kept holds quiet entry unpaid =>
    have hbefore := hp (by rw [opened]; rfl)
    have hafter := hp' (by rw [still]; rfl)
    refine .stays opened still kept holds quiet ?_ unpaid
    rw [← hafter, entry, hbefore]
  | returned instruction found waiting opened gone paid =>
    have hbefore := hp (by rw [opened]; rfl)
    exact .returned instruction found (hbefore.mp waiting) opened gone paid
  | forfeited instruction found silent opened gone paid =>
    have hbefore := hp (by rw [opened]; rfl)
    exact .forfeited instruction found (mt hbefore.mpr silent) opened gone paid

/-- Every claim a finished contest still has can be reclaimed. -/
theorem Reachable.entry_closable (hw : Reachable w) (hacc : w.tasks.lookup key = some acc)
    (hcontest : isContestConfiguredTask acc.task = true) (hdone : acc.task.status.isFinished)
    {claim : Account TaskClaim} (hclaim : acc.claims.lookup k = some claim) :
    ∃ ts w' acc', Step w (.work key k .reclaimTerminalClaim, ts) w' ∧
      w'.tasks.lookup key = some acc' ∧ acc'.claims.lookup k = none := by
  have hsound := hw.entrySound hacc
  obtain ⟨r, hstaffed⟩ := (occupancy hw).tasks key acc hacc
  obtain ⟨agent, hagent⟩ := Option.isSome_iff_exists.mp
    ((occupancy hw).claimant hacc (by rw [hclaim]; rfl))
  obtain ⟨hslash, hpeers⟩ := hsound.unreserved (.inr hcontest)
  have hworkers : 0 < acc.task.currentWorkers := by
    rw [hstaffed.tracks.workers]
    exact r.card_seated_pos (hstaffed.tracks.mem_seated.mpr (by rw [hclaim]; rfl))
  have hnobody : acc.submitters = ∅ := by
    rcases (hw.contestSound hacc).thawed hcontest with hlive | ⟨-, hnobody⟩
    · rcases hdone with hdone | hdone
      · rw [hdone] at hlive
        cases hlive
      · rw [hdone] at hlive
        cases hlive
    · exact hnobody
  have hverdict (s : Account TaskSubmission) (hs : acc.submissions.lookup k = some s) :
      s.data.status = .Rejected := by
    refine (hsound.verdicts k s hs).resolve_left fun hsubmitted => ?_
    have hwaiting : k ∈ acc.submitters := Ledger.mem_support.mpr ⟨s, hs, hsubmitted⟩
    rw [hnobody] at hwaiting
    exact absurd hwaiting (Finset.notMem_empty k)
  obtain ⟨c, hran⟩ := reclaimTerminalClaim_ok (c := w.workContext key acc k agent) hclaim
    hw.version hdone (hsound.deposits hcontest k claim hclaim).running hslash hpeers hworkers
    hverdict
  obtain ⟨_, _, _, _, -, -, -, -, -, -, -, hc⟩ := reclaimTerminalClaim_spec hran
  have hrent : World.rentRule w.sys c.accounts = .ok () := by
    have hsame : c.accounts.escrow = acc.escrow := by
      rw [hc]
      rfl
    cases hescrow : acc.escrow with
    | none =>
      rw [hescrow] at hsame
      simp only [World.rentRule, hsame]
    | some escrow =>
      rw [hescrow] at hsame
      simp only [World.rentRule, hsame]
      exact require_eq_ok.mpr (hsound.floor escrow hescrow)
  have hstep : Step w (.work key k .reclaimTerminalClaim, c.paid) (w.storeWork c) := by
    show executeWork w key k .reclaimTerminalClaim = _
    simp only [executeWork, bind_eq_ok, demand_eq_ok]
    exact ⟨acc, hacc, agent, hagent, c, hran, (), hrent, rfl⟩
  obtain ⟨acc', hacc', -, hmove⟩ := Step.entry hstep hw hacc hcontest k
  refine ⟨c.paid, _, acc', hstep, hacc', ?_⟩
  cases hmove with
  | idle vacant still => exact still
  | entered instruction => cases instruction
  | stays opened still =>
    have hkey : (w.storeWork c).tasks.lookup key = some c.accounts := by
      rw [World.storeWork_tasks, hc]
      exact AList.lookup_insert _
    obtain rfl := Option.some.inj (hkey.symm.trans hacc')
    rw [hc] at still
    have hgone : (acc.claims.erase k).lookup k = none := AList.lookup_erase _ _
    exact absurd (hgone.symm.trans still) nofun
  | returned instruction found waiting opened gone => exact gone
  | forfeited instruction found silent opened gone => exact gone

/-- In every run, for every contest and every worker `k`: each step makes one of the moves of
`EntryMove` on the claim of `k`, told apart by whether `k` has submitted since it entered; as many
payments leave claims of `k` as claims were opened, but for the one still open; and when the
contest has finished, an open claim can be reclaimed. -/
theorem contest_deposits {w₀ : World} {log : List LogEntry} (hgenesis : Genesis w₀)
    (hrun : Run Step w₀ log w) (key k : Pubkey) :
    (∀ log₁ e log₂, log = log₁ ++ e :: log₂ → ∀ acc, e.before.tasks.lookup key = some acc →
      isContestConfiguredTask acc.task = true →
      ∃ acc', e.after.tasks.lookup key = some acc' ∧
        EntryMove e.before key k (SubmittedSince key k log₁) (SubmittedSince key k (log₁ ++ [e]))
          acc acc' e.label.1 e.label.2) ∧
    log.countP (entersContest key k) =
      log.countP (paysEntry key k) + (if HasEntered key k w then 1 else 0) ∧
    (∀ acc claim, w.tasks.lookup key = some acc → isContestConfiguredTask acc.task = true →
      acc.task.status.isFinished → acc.claims.lookup k = some claim →
      ∃ ts w' acc', Step w (.work key k .reclaimTerminalClaim, ts) w' ∧
        w'.tasks.lookup key = some acc' ∧ acc'.claims.lookup k = none) := by
  refine ⟨fun log₁ e log₂ hlog acc hacc hcontest => ?_, ?_, fun acc claim hacc hcontest hdone =>
    Reachable.entry_closable ⟨w₀, log, hgenesis, hrun⟩ hacc hcontest hdone⟩
  · subst hlog
    obtain ⟨hbefore, hstep, -⟩ := hrun.split_at
    obtain ⟨acc', hacc', hcontest', hmove⟩ :=
      Step.entry hstep ⟨w₀, log₁, hgenesis, hbefore⟩ hacc hcontest k
    have hafter : Run Step w₀ (log₁ ++ [e]) e.after := hbefore.snoc hstep
    exact ⟨acc', hacc', hmove.congr (run_submitted hgenesis hbefore hacc hcontest)
      (run_submitted hgenesis hafter hacc' hcontest')⟩
  · have hbooks := hrun.countP_balance (Q := HasEntered key k) (O := entersContest key k)
      (C := paysEntry key k) fun e he => by
        obtain ⟨log₁, log₂, -, hbefore, hstep, -⟩ := hrun.split_mem he
        exact Step.entry_books hstep ⟨w₀, log₁, hgenesis, hbefore⟩
    have hstart : ¬HasEntered key k w₀ := by
      refine not_hasEntered fun hcontest => ?_
      obtain ⟨acc, hacc, -⟩ := isContest_iff.mp hcontest
      rw [hgenesis.tasks] at hacc
      cases hacc
    rw [if_neg hstart, Nat.zero_add] at hbooks
    rw [hbooks, Nat.add_comm]

/-- Two entrants of an abandoned contest: the deposit of each left its claim once, and after the
shares are paid no claim is open. -/
theorem contest_deposits_silent :
    ∃ log w, Run Step deployed log w ∧ ¬HasEntered 50 11 w ∧
      log.countP (entersContest 50 11) = log.countP (paysEntry 50 11) := by
  obtain ⟨log, hrun⟩ := deployed.run_after (silentScript ++ ghostScript)
  have hgone : ¬HasEntered 50 11 (deployed.after (silentScript ++ ghostScript)) := by
    decide +kernel
  have hbooks := (contest_deposits deployed_genesis hrun 50 11).2.1
  rw [if_neg hgone] at hbooks
  exact ⟨log, _, hrun, hgone, hbooks⟩

end Runs

end AgencCoordination
