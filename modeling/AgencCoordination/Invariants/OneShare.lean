import AgencCoordination.Invariants.ClaimGeneration

/-!
# One share for each worker

A collaborative task pays its reward in shares, one for each completion. The claim of a worker
says whether the worker has completed the task, and `process_claim` refuses a second claim of a
worker who has; but every instruction that pays a share closes the claim.

* **`WorkOp.run_share`** — a payment to a worker closes its claim.
* **`one_share_unless_back`** — a worker who does not claim the task again after it was paid is
  paid one share at most.
* **`two_shares`** — a worker who does can be paid both shares of a task for two.
-/

namespace AgencCoordination

open Foundations

/-! ## Shares -/

/-- The instruction creates a claim of `k` on the task `key`. -/
def Instruction.opensClaimOf (key k : Pubkey) : Instruction → Bool
  | .work key' k' op => decide (key' = key ∧ k' = k) && op.opensClaim
  | _ => false

/-- The instruction pays the worker `k` of the task `key` a share of the reward. -/
def paysShare (key k : Pubkey) (e : LogEntry) : Bool :=
  match e.label.1 with
  | .work key' k' _ => decide (key' = key ∧ k' = k) &&
      e.label.2.any fun t => decide (t.purpose = .workerReward)
  | _ => false

/-- The worker of the context had a claim, and has none any more. -/
def LosesClaim (c c' : TaskContext) : Prop :=
  (c.accounts.claims.lookup c.workerKey).isSome = true ∧
    c'.accounts.claims.lookup c.workerKey = none

section Handlers

variable {w : World} {c c' : TaskContext}

theorem LosesClaim.of_erase {claim : Account TaskClaim}
    (hclaim : c.accounts.claims.lookup c.workerKey = some claim)
    (hclaims : c'.accounts.claims = c.accounts.claims.erase c.workerKey) : LosesClaim c c' := by
  refine ⟨by rw [hclaim]; rfl, ?_⟩
  rw [hclaims, AList.lookup_erase]

/-- A payment to a worker closes its claim. -/
theorem WorkOp.run_share {op : WorkOp} (h : op.run w c = .ok c') (hpaid : c.paid = []) :
    LosesClaim c c' ∨ ∀ t ∈ c'.paid, t.purpose ≠ .workerReward := by
  have hquiet {c₁ : TaskContext} (hsame : c₁.paid = c.paid) :
      ∀ t ∈ c₁.paid, t.purpose ≠ .workerReward := by
    rw [hsame, hpaid]
    simp
  have hbids {c₁ : TaskContext} (ht : TouchesBids c c₁) :
      ∀ t ∈ c₁.paid, t.purpose ≠ .workerReward := by
    obtain ⟨_, _, _, _, ts, -, hts, rfl, rfl⟩ := ht
    intro t ht hreward
    dsimp only at ht
    rw [hpaid, List.nil_append] at ht
    rw [(hts t ht).2] at hreward
    cases hreward
  have haccepted {config : TaskValidationConfig} {payees : PayeeAccounts} {c₁ : TaskContext}
      (hp : PaysAccepted c config payees c₁) : LosesClaim c c₁ := by
    obtain ⟨_, _, _, _, _, _, _, _, _, _, _, _, hclaim, -, -, -, -, -, -, -, -, _, _, _, _, _, _, _,
      _, rfl⟩ := hp
    exact .of_erase hclaim rfl
  have hfrozen {payees : PayeeAccounts} {disposition : BondDisposition} {c₁ : TaskContext}
      (hp : PaysFrozen c payees disposition c₁) : LosesClaim c c₁ := by
    obtain ⟨_, _, _, _, _, _, hclaim, -, -, -, -, -, -, -, _, _, _, _, _, _, _, _, rfl⟩ := hp
    exact .of_erase hclaim rfl
  have hrejected {config : TaskValidationConfig} {c₁ : TaskContext}
      (hr : RejectsClaim c config c₁) : LosesClaim c c₁ := by
    obtain ⟨_, _, _, _, _, _, _, _, hclaim, -, -, -, -, -, -, rfl⟩ := hr
    exact .of_erase hclaim rfl
  cases op with
  | claimTaskWithJobSpec signer prefunded =>
    obtain ⟨_, -, -, -, -, -, _, _, _, _, _, _, _, _, _, rfl, -⟩ := claimTaskWithJobSpec_spec h
    exact .inr (hquiet rfl)
  | createBid signer terms prefunded => exact .inr (hbids (createBid_spec h).touches)
  | updateBid signer terms => exact .inr (hbids (updateBid_spec h).touches)
  | cancelBid signer => exact .inr (hbids (cancelBid_spec h).touches)
  | expireBid => exact .inr (hbids (expireBid_spec h).touches)
  | promoteBid => exact .inr (hbids (promoteBid_spec h).touches)
  | demoteIneligibleBest => exact .inr (hbids (demoteIneligibleBest_spec h).touches)
  | acceptBid signer expectedBidTermsHash prefunded =>
    obtain ⟨_, _, _, -, -, -, -, _, _, _, _, _, _, _, _, _, rfl, -⟩ := acceptBid_spec h
    exact .inr (hquiet rfl)
  | postWorkerBond signer prefunded =>
    have h : postCompletionBond c signer .Worker prefunded = .ok c' := h
    obtain ⟨_, -, -, -, -, -, -, -, -, rfl⟩ := postCompletionBond_spec h
    exact .inr (hquiet rfl)
  | submitTaskResult signer proofHash resultData prefunded =>
    obtain ⟨_, _, _, -, -, -, -, -, -, -, _, _, rfl⟩ := submitTaskResult_spec h
    exact .inr (hquiet rfl)
  | acceptTaskResult signer payees =>
    obtain ⟨_, _, -, -, -, -, hp⟩ := acceptTaskResult_spec h
    exact .inl (haccepted hp)
  | autoAcceptTaskResult payees =>
    obtain ⟨_, _, -, -, -, hp⟩ := autoAcceptTaskResult_spec h
    exact .inl (haccepted hp)
  | rejectTaskResult signer rejectionHash =>
    obtain ⟨_, _, -, -, -, -, hr⟩ := rejectTaskResult_spec h
    exact .inl (hrejected hr)
  | requestChanges signer changesHash =>
    obtain ⟨_, _, _, _, _, -, -, -, -, -, -, rfl⟩ := requestChanges_spec h
    exact .inr (hquiet rfl)
  | validateTaskResult reviewer validator approved =>
    obtain ⟨_, _, -, -, hp | ⟨hr, -⟩ | ⟨_, _, -, rfl⟩⟩ := validateTaskResult_spec h
    · exact .inl (haccepted hp)
    · exact .inl (hrejected hr)
    · exact .inr (hquiet rfl)
  | rejectAndFreeze signer rejectionHash =>
    obtain ⟨_, _, _, -, -, -, -, -, rfl⟩ := rejectAndFreeze_spec h
    exact .inr (hquiet rfl)
  | resolveRejectFrozen signers approveCompletion payees =>
    obtain ⟨_, hp⟩ | ⟨_, _, _, hclaim, -, -, -, -, -, -, rfl⟩ := resolveRejectFrozen_spec h
    · exact .inl (hfrozen hp)
    · exact .inl (.of_erase hclaim rfl)
  | expireRejectFrozen payees => exact .inl (hfrozen (expireRejectFrozen_spec h))
  | completeTask signer proofHash resultData payees =>
    obtain ⟨_, _, _, _, _, _, _, _, _, _, hclaim, -, -, -, -, -, -, -, -, hc⟩ :=
      completeTask_spec h
    obtain ⟨_, _, _, _, _, _, _, _, rfl⟩ := hc
    exact .inl (.of_erase hclaim rfl)
  | expireClaim caller withSubmission =>
    obtain ⟨_, _, _, _, _, _, _, _, _, _, hclaim, -, -, -, -, -, -, -, -, -, -, -, -, rfl⟩ :=
      expireClaim_spec h
    exact .inl (.of_erase hclaim rfl)
  | distributeGhostShare payees =>
    obtain ⟨_, _, _, _, _, _, -, -, -, hclaim, -, -, -, -, -, -, -, -, -, _, _, _, _, _, _, rfl⟩ :=
      distributeGhostShare_spec h
    exact .inl (.of_erase hclaim rfl)
  | reclaimTerminalClaim =>
    obtain ⟨_, _, _, _, hclaim, -, -, -, -, -, -, rfl⟩ := reclaimTerminalClaim_spec h
    exact .inl (.of_erase hclaim rfl)

end Handlers

/-! ## Runs -/

section Runs

variable {w w' : World} {key k : Pubkey} {i : Instruction} {ts : List Transfer}

/-- `k` has no claim on the task `key`. -/
def Unclaimed (key k : Pubkey) (w : World) : Prop :=
  ∀ acc, w.tasks.lookup key = some acc → acc.claims.lookup k = none

/-- A claim of `k` is opened by nothing but the instructions that create it. -/
theorem Step.unclaimed (h : Step w (i, ts) w') (hw : Reachable w)
    (hquiet : i.opensClaimOf key k = false) (hfree : Unclaimed key k w) : Unclaimed key k w' := by
  intro acc' hacc'
  cases Step.task h key with
  | apart same unpaid => exact hfree acc' (same.symm.trans hacc')
  | created new stored fresh unpaid =>
    obtain rfl := Option.some.inj (stored.symm.trans hacc')
    rw [fresh.claims]
    rfl
  | @moved acc acc₁ loaded stored move =>
    obtain rfl := Option.some.inj (stored.symm.trans hacc')
    have hmove := move.generation (occupancy hw) loaded
    split_ifs at hmove with hopens
    · obtain ⟨k', op, rfl, hraises⟩ := hmove
      rw [Instruction.opensClaim, Bool.and_eq_true] at hopens
      have hother : k ≠ k' := by
        rintro rfl
        rw [Instruction.opensClaimOf, hopens.2, Bool.and_true, decide_eq_false_iff_not] at hquiet
        exact hquiet ⟨rfl, rfl⟩
      rw [hraises.others k hother]
      exact hfree acc loaded
    · exact hmove.vacant k (hfree acc loaded)

/-- The step that pays `k` a share closes its claim. -/
theorem Step.pays_share {e : LogEntry} (h : Step e.before e.label e.after)
    (hpays : paysShare key k e = true) :
    ¬Unclaimed key k e.before ∧ Unclaimed key k e.after := by
  obtain ⟨w, ⟨i, ts⟩, w'⟩ := e
  cases i with
  | work key' k' op =>
    rw [paysShare, Bool.and_eq_true, decide_eq_true_eq, List.any_eq_true] at hpays
    obtain ⟨⟨rfl, rfl⟩, t, ht, hreward⟩ := hpays
    obtain ⟨acc, acc', loaded, stored, move⟩ := Step.worked h
    cases move with
    | @work _ _ agent c found ran rent =>
      rcases WorkOp.run_share ran rfl with ⟨hclaim, hgone⟩ | hquiet
      · have hclaim : (acc.claims.lookup k').isSome = true := hclaim
        have hkey := (WorkOp.run_frames ran).workerKey
        refine ⟨fun hfree => ?_, fun acc₁ hacc₁ => ?_⟩
        · rw [hfree acc loaded] at hclaim
          cases hclaim
        · obtain rfl := Option.some.inj (stored.symm.trans hacc₁)
          exact hgone
      · exact absurd (of_decide_eq_true hreward) (hquiet t ht)
  | _ => cases hpays

/-- `k` does not claim the task `key` again after it was paid a share of it. -/
def StaysAway (key k : Pubkey) (log : List LogEntry) : Prop :=
  log.Pairwise fun paid later => paysShare key k paid = true →
    later.label.1.opensClaimOf key k = false

instance (key k : Pubkey) (log : List LogEntry) : Decidable (StaysAway key k log) :=
  inferInstanceAs (Decidable (List.Pairwise _ _))

/-- The number of shares, and whether the claim is open, along a run. -/
theorem shares_counted {start : World} {log : List LogEntry} (hstart : Reachable start)
    (hrun : Run Step start log w) (haway : StaysAway key k log) :
    log.countP (paysShare key k) = 0 ∨
      log.countP (paysShare key k) = 1 ∧ Unclaimed key k w := by
  induction hrun with
  | refl => exact .inl rfl
  | @snoc log w w' label hrun hstep ih =>
    rw [List.countP_append, List.countP_singleton]
    have hw := hstart.run hrun
    obtain ⟨haway, -, hlast⟩ := List.pairwise_append.mp haway
    by_cases hpays : paysShare key k ⟨w, label, w'⟩ = true
    · -- the claim was open, so nothing was paid before
      obtain ⟨hclaimed, hgone⟩ := Step.pays_share hstep hpays
      rcases ih haway with hnone | ⟨-, hfree⟩
      · rw [hnone, if_pos hpays]
        exact .inr ⟨rfl, hgone⟩
      · exact absurd hfree hclaimed
    · rw [if_neg hpays, Nat.add_zero]
      rcases ih haway with hnone | ⟨hone, hfree⟩
      · exact .inl hnone
      · have hpaid : ∃ e₁ ∈ log, paysShare key k e₁ = true :=
          List.countP_pos_iff.mp (by rw [hone]; decide)
        obtain ⟨e₁, he₁, hpaid⟩ := hpaid
        have hquiet := hlast e₁ he₁ _ (List.mem_singleton_self _) hpaid
        exact .inr ⟨hone, Step.unclaimed hstep hw hquiet hfree⟩

/-- In every run, a worker who does not claim a task again after it was paid a share of it is paid
one share of it at most. -/
theorem one_share_unless_back {w₀ : World} {log : List LogEntry} (hgenesis : Genesis w₀)
    (hrun : Run Step w₀ log w) (haway : StaysAway key k log) :
    log.countP (paysShare key k) ≤ 1 := by
  have hstart : Reachable w₀ := ⟨w₀, [], hgenesis, .refl⟩
  rcases shares_counted hstart hrun haway with hnone | ⟨hone, -⟩
  · omega
  · omega

/-! ## A worker that comes back -/

/-- A collaborative task for two workers, which one worker completes twice. -/
def returningScript : List Instruction :=
  [.agent 10 (.registerAgent 100 1 1000000 0), .agent 11 (.registerAgent 101 1 1000000 0),
   .create 50 100 false {} (.createTask 10
     ⟨1, 1, (1, 0), 100000000, 2, 5000, .Collaborative, 0, none⟩ none none 0),
   .task 50 (.setTaskJobSpec 100 7),
   .work 50 11 (.claimTaskWithJobSpec 101 0),
   .work 50 11 (.completeTask 101 9 none {}),
   .work 50 11 (.claimTaskWithJobSpec 101 0),
   .work 50 11 (.completeTask 101 9 none {})]

/-- What a script records is a run. -/
theorem run_of_record {start final : World} {script : List Instruction} {log : List LogEntry}
    (h : (Run.record execute start script).toOption = some (final, log)) :
    Run Step start log final := by
  cases hrecorded : Run.record execute start script with
  | error e =>
    rw [hrecorded] at h
    cases h
  | ok r =>
    rw [hrecorded] at h
    obtain rfl := Option.some.inj h
    exact Run.of_record hrecorded

/-- The claim was closed with the first payment, so nothing refuses the second. -/
theorem two_shares : ¬∀ w₀ w log, Genesis w₀ → Run Step w₀ log w → ∀ key acc,
    w.tasks.lookup key = some acc → acc.task.taskType = .Collaborative →
    ∀ k, log.countP (paysShare key k) ≤ 1 := by
  intro hclaim
  have hran : (Run.record execute deployed returningScript).toOption.any (fun r =>
      decide (r.2.countP (paysShare 50 11) = 2) && (r.1.tasks.lookup 50).any fun acc =>
        decide (acc.task.taskType = .Collaborative)) = true := by decide +kernel
  obtain ⟨⟨w, log⟩, hrecord, hcheck⟩ := (Option.any_eq_true _ _).mp hran
  rw [Bool.and_eq_true, decide_eq_true_eq] at hcheck
  obtain ⟨hcount, hcollaborative⟩ := hcheck
  obtain ⟨acc, hacc, htype⟩ := (Option.any_eq_true _ _).mp hcollaborative
  have hone := hclaim deployed w log deployed_genesis (run_of_record hrecord) 50 acc hacc
    (of_decide_eq_true htype) 11
  rw [hcount] at hone
  exact absurd hone (by decide)

/-- Until the worker comes back it has been paid one share. -/
theorem one_share_unless_back_once : ∃ w log, Run Step deployed log w ∧
    log.countP (paysShare 50 11) = 1 ∧ log.countP (paysShare 50 11) ≤ 1 := by
  have hran : (Run.record execute deployed (returningScript.take 6)).toOption.any (fun r =>
      decide (StaysAway 50 11 r.2) && decide (r.2.countP (paysShare 50 11) = 1)) = true := by
    decide +kernel
  obtain ⟨⟨w, log⟩, hrecord, hcheck⟩ := (Option.any_eq_true _ _).mp hran
  rw [Bool.and_eq_true, decide_eq_true_eq, decide_eq_true_eq] at hcheck
  have hrun := run_of_record hrecord
  exact ⟨w, log, hrun, hcheck.2, one_share_unless_back deployed_genesis hrun hcheck.1⟩

end Runs

end AgencCoordination
