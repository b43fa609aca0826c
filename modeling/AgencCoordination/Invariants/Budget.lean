import AgencCoordination.Effects.Steps

/-!
# The daily budget of task creations

A wallet's creations are counted for the calendar day, in an 8-bit counter every creation uses
and, for a wallet with an extended quota, in a wider counter merged with the first. Whatever
entry a creation takes:

* **`CreationThrottle.Sound`** — the wider counter is behind the narrow one, or the narrow one
  is full.
* **`Sound.create`** — a creation raises the day's count by one and stays within the larger
  limit; an opened dispute and a changed quota leave the count (`Sound.dispute`,
  `Sound.configure`).
* **`daily_creation_budget`** — the count is the number of the day's creations in the log.
-/

namespace AgencCoordination

open Foundations

/-! ## Calendar days -/

theorem dayStart_le (now : ℤ) : dayStart now ≤ now := by
  unfold dayStart window24h
  omega

theorem dayStart_mono {now now' : ℤ} (h : now ≤ now') : dayStart now ≤ dayStart now' := by
  unfold dayStart window24h
  omega

theorem dayStart_emod (now : ℤ) : dayStart now % window24h = 0 := by
  unfold dayStart window24h
  omega

/-- A window that opened with an earlier day is over; the one of today is not. -/
theorem window_over_iff {start now : ℤ} (hday : start % window24h = 0)
    (hle : start ≤ dayStart now) : window24h ≤ now - start ↔ start ≠ dayStart now := by
  unfold dayStart window24h at *
  omega

/-! ## The count of one wallet -/

namespace CreationThrottle

/-- The wider count of the day of `now`. -/
def wideCount (quota : AuthorityTaskQuota) (now : ℤ) : ℕ :=
  if quota.rateLimitWindowStart = dayStart now then quota.taskCount24h else 0

/-- The creations the counters record for the day of `now`. -/
def dayCount (t : CreationThrottle) (now : ℤ) : ℕ :=
  if t.limit.rateLimitWindowStart = dayStart now then
    max t.limit.taskCount24h (t.quota.elim 0 fun quota => wideCount quota now)
  else 0

/-- The daily limit of the wallet: the larger of the enabled quota and the protocol's cap. -/
def dayLimit (t : CreationThrottle) (config : ProtocolConfig) : ℕ :=
  max config.maxTasksPer24h
    (t.quota.elim 0 fun quota => if quota.enabled then quota.maxTasksPer24h else 0)

/-- What holds of the counters of `wallet` at `now`. -/
structure Sound (t : CreationThrottle) (wallet : Pubkey) (now : ℤ) : Prop where
  owner : t.limit = {} ∨ t.limit.authority = wallet
  window : t.limit.authority = wallet →
    t.limit.rateLimitWindowStart % window24h = 0 ∧ t.limit.rateLimitWindowStart ≤ dayStart now
  narrow : t.limit.taskCount24h ≤ 255
  quotaOwner : ∀ quota, t.quota = some quota →
    quota.authority = wallet ∧ t.limit.authority = wallet ∧
      quota.rateLimitWindowStart ≤ t.limit.rateLimitWindowStart
  /-- The wider counter is behind the narrow one, or the narrow one is full. -/
  merged : ∀ quota, t.quota = some quota →
    quota.rateLimitWindowStart = t.limit.rateLimitWindowStart →
      quota.taskCount24h ≤ t.limit.taskCount24h ∨ t.limit.taskCount24h = 255

variable {t : CreationThrottle} {wallet : Pubkey} {now now' : ℤ} {config : ProtocolConfig}

/-- A wallet that never acted. -/
theorem sound_empty (hwallet : wallet ≠ 0) : Sound ⟨{}, none⟩ wallet now where
  owner := .inl rfl
  window := fun h => absurd h.symm hwallet
  narrow := by simp
  quotaOwner := nofun
  merged := nofun

/-- The counters stay sound while the clock moves on. -/
theorem Sound.later (h : t.Sound wallet now) (hle : now ≤ now') : t.Sound wallet now' where
  owner := h.owner
  window := fun hauthority =>
    ⟨(h.window hauthority).1, (h.window hauthority).2.trans (dayStart_mono hle)⟩
  narrow := h.narrow
  quotaOwner := h.quotaOwner
  merged := h.merged

/-- The narrow counter as a check reads it: opened, and reset on a new day. -/
def refreshed (t : CreationThrottle) (wallet : Pubkey) (now : ℤ) : AuthorityRateLimit :=
  maybeResetAuthorityWindow (initializeAuthorityRateLimit t.limit wallet now) now

/-- A refreshed counter belongs to the wallet and counts today. -/
theorem Sound.refreshed (h : t.Sound wallet now) (hwallet : wallet ≠ 0) :
    (t.refreshed wallet now).authority = wallet ∧
      (t.refreshed wallet now).rateLimitWindowStart = dayStart now ∧
      (t.refreshed wallet now).taskCount24h =
        if t.limit.rateLimitWindowStart = dayStart now then t.limit.taskCount24h else 0 := by
  unfold CreationThrottle.refreshed
  rcases h.owner with hnew | howner
  · have hopen : ¬window24h ≤ now - dayStart now :=
      fun hover => (window_over_iff (dayStart_emod now) le_rfl).mp hover rfl
    simp [hnew, initializeAuthorityRateLimit, maybeResetAuthorityWindow, hopen]
  · obtain ⟨hday, hle⟩ := h.window howner
    have hauthority : t.limit.authority ≠ 0 := by rwa [howner]
    simp only [initializeAuthorityRateLimit, if_neg hauthority, maybeResetAuthorityWindow,
      window_over_iff hday hle]
    by_cases htoday : t.limit.rateLimitWindowStart = dayStart now
    · simp [htoday, howner]
    · simp [htoday, howner]

theorem Sound.refreshed_narrow (h : t.Sound wallet now) (hwallet : wallet ≠ 0) :
    (t.refreshed wallet now).taskCount24h ≤ 255 := by
  rw [(h.refreshed hwallet).2.2]
  split_ifs
  · exact h.narrow
  · exact Nat.zero_le _

/-- A quota that counts today merges with a narrow counter that does too. -/
theorem Sound.wideCount_le (h : t.Sound wallet now) (hwallet : wallet ≠ 0)
    {quota : AuthorityTaskQuota} (hquota : t.quota = some quota) :
    wideCount quota now ≤ (t.refreshed wallet now).taskCount24h ∨
      (t.refreshed wallet now).taskCount24h = 255 := by
  obtain ⟨-, howner, hle⟩ := h.quotaOwner quota hquota
  rw [(h.refreshed hwallet).2.2]
  unfold wideCount
  by_cases htoday : quota.rateLimitWindowStart = dayStart now
  · have hlimit : t.limit.rateLimitWindowStart = dayStart now :=
      le_antisymm (h.window howner).2 (htoday ▸ hle)
    rw [if_pos htoday, if_pos hlimit]
    exact h.merged quota hquota (htoday.trans hlimit.symm)
  · rw [if_neg htoday]
    exact .inl (Nat.zero_le _)

/-- The day's count, read off the refreshed counter. -/
theorem Sound.dayCount_eq (h : t.Sound wallet now) (hwallet : wallet ≠ 0) :
    t.dayCount now = max (t.refreshed wallet now).taskCount24h
      (t.quota.elim 0 fun quota => wideCount quota now) := by
  rw [(h.refreshed hwallet).2.2]
  unfold dayCount
  by_cases htoday : t.limit.rateLimitWindowStart = dayStart now
  · simp only [if_pos htoday]
  · simp only [if_neg htoday, Nat.zero_max]
    cases hquota : t.quota with
    | none => rfl
    | some quota =>
      obtain ⟨-, howner, hle⟩ := h.quotaOwner quota hquota
      have hbefore := (h.window howner).2
      refine (if_neg fun hquotaToday => htoday ?_).symm
      omega

/-- The day's count of counters that were just refreshed. -/
theorem dayCount_today (htoday : t.limit.rateLimitWindowStart = dayStart now) :
    t.dayCount now = max t.limit.taskCount24h
      (t.quota.elim 0 fun quota => wideCount quota now) := if_pos htoday

/-- Counters written for today are sound when the wider one is behind the narrow one. -/
theorem sound_today {limit : AuthorityRateLimit} {quota : Option AuthorityTaskQuota}
    (howner : limit.authority = wallet) (htoday : limit.rateLimitWindowStart = dayStart now)
    (hnarrow : limit.taskCount24h ≤ 255)
    (hquota : ∀ q, quota = some q → q.authority = wallet ∧
      q.rateLimitWindowStart ≤ dayStart now ∧
      (wideCount q now ≤ limit.taskCount24h ∨ limit.taskCount24h = 255)) :
    Sound ⟨limit, quota⟩ wallet now where
  owner := .inr howner
  window := fun _ => ⟨htoday ▸ dayStart_emod now, le_of_eq htoday⟩
  narrow := hnarrow
  quotaOwner := fun q hq => ⟨(hquota q hq).1, howner, htoday ▸ (hquota q hq).2.1⟩
  merged := by
    intro q hq hsame
    have hcount := (hquota q hq).2.2
    rwa [wideCount, if_pos (hsame.trans htoday)] at hcount

/-- Counting `n` more in the narrow counter alone counts `n` more for the day. -/
theorem Sound.count (h : t.Sound wallet now) (hwallet : wallet ≠ 0) (limit : AuthorityRateLimit)
    {n : ℕ} (howner : limit.authority = wallet)
    (htoday : limit.rateLimitWindowStart = dayStart now)
    (hcount : limit.taskCount24h = (t.refreshed wallet now).taskCount24h + n)
    (hnarrow : limit.taskCount24h ≤ 255) :
    Sound ⟨limit, t.quota⟩ wallet now ∧
      (⟨limit, t.quota⟩ : CreationThrottle).dayCount now = t.dayCount now + n := by
  constructor
  · refine sound_today howner htoday hnarrow fun q hq => ?_
    obtain ⟨hq₁, hq₂, hq₃⟩ := h.quotaOwner q hq
    refine ⟨hq₁, hq₃.trans (h.window hq₂).2, ?_⟩
    rcases h.wideCount_le hwallet hq with hle | hfull
    · exact .inl (by omega)
    · exact .inr (by omega)
  · rw [dayCount_today htoday, h.dayCount_eq hwallet, hcount]
    cases hq : t.quota with
    | none => simp
    | some q =>
      have hmerged := h.wideCount_le hwallet hq
      simp only [Option.elim_some]
      omega

/-- What `synchronize_task_quota` leaves behind: the larger of the two counts of its window. -/
theorem synchronizeTaskQuota_spec {quota quota' : AuthorityTaskQuota}
    {limit : AuthorityRateLimit} (h : synchronizeTaskQuota quota limit = .ok quota')
    (htoday : limit.rateLimitWindowStart = dayStart now) :
    quota.authority = limit.authority ∧ quota.rateLimitWindowStart ≤ dayStart now ∧
      quota' = { quota with
        rateLimitWindowStart := dayStart now
        taskCount24h := max limit.taskCount24h (wideCount quota now) } := by
  simp only [synchronizeTaskQuota, require_bind_eq_ok] at h
  obtain ⟨howner, hle, h⟩ := h
  rw [htoday] at h hle
  refine ⟨howner, hle, ?_⟩
  split at h
  · rename_i hbefore
    obtain rfl := Except.ok.inj h
    rw [wideCount, if_neg (ne_of_lt hbefore), Nat.max_zero]
  · rename_i hbefore
    obtain rfl := Except.ok.inj h
    have hsame : quota.rateLimitWindowStart = dayStart now := by omega
    rw [wideCount, if_pos hsame, max_comm, ← hsame]

/-- A check that counts refreshes the counters, stays below its limit, and adds one to the count of
its action. -/
theorem checkAuthorityRateLimits_spec {limit' : AuthorityRateLimit} {action : RateLimitAction}
    (h : checkAuthorityRateLimits t.limit wallet config now action = .ok limit')
    (hmax : 0 < action.maxPer24h config) :
    action.authorityCount (t.refreshed wallet now) < action.maxPer24h config ∧
      limit' = action.setTimestamp (action.setCount (t.refreshed wallet now)
        (action.authorityCount (t.refreshed wallet now) + 1)) now := by
  simp only [checkAuthorityRateLimits, if_pos hmax, bind_eq_ok, require_eq_ok, addU8_eq_ok,
    pure_eq_ok, Except.ok.injEq] at h
  obtain ⟨_, -, _, hbelow, _, ⟨-, rfl⟩, _, rfl, rfl⟩ := h
  exact ⟨hbelow, rfl⟩

/-! ## Creations -/

/-- A creation in the narrow counter: the day's count is what that counter says, and both grow. -/
theorem Sound.createNarrow (h : t.Sound wallet now) (hwallet : wallet ≠ 0)
    (hcap : 0 < config.maxTasksPer24h ∧ config.maxTasksPer24h ≤ 255) {limit' : AuthorityRateLimit}
    (hcheck : checkAuthorityRateLimits t.limit wallet config now .TaskCreation = .ok limit') :
    limit'.authority = wallet ∧ limit'.rateLimitWindowStart = dayStart now ∧
      limit'.taskCount24h = t.dayCount now + 1 ∧ t.dayCount now < config.maxTasksPer24h ∧
      Sound ⟨limit', t.quota⟩ wallet now ∧
      (⟨limit', t.quota⟩ : CreationThrottle).dayCount now = t.dayCount now + 1 := by
  obtain ⟨howner, htoday, -⟩ := h.refreshed hwallet
  obtain ⟨hbelow, rfl⟩ := checkAuthorityRateLimits_spec hcheck hcap.1
  have hbelow : (t.refreshed wallet now).taskCount24h < config.maxTasksPer24h := hbelow
  have hcount : t.dayCount now = (t.refreshed wallet now).taskCount24h := by
    rw [h.dayCount_eq hwallet]
    cases hq : t.quota with
    | none => simp
    | some q =>
      have hmerged := h.wideCount_le hwallet hq
      simp only [Option.elim_some]
      omega
  have hkeeps := h.count (n := 1) hwallet (RateLimitAction.setTimestamp
    (RateLimitAction.setCount (t.refreshed wallet now)
      ((t.refreshed wallet now).taskCount24h + 1) .TaskCreation) now .TaskCreation)
    howner htoday rfl (show (t.refreshed wallet now).taskCount24h + 1 ≤ 255 by omega)
  exact ⟨howner, htoday, congrArg (· + 1) hcount.symm, hcount ▸ hbelow, hkeeps⟩

/-- A creation raises the day's count by one, and the count was below the limit. -/
theorem Sound.create (h : t.Sound wallet now) (hwallet : wallet ≠ 0)
    (hcap : 0 < config.maxTasksPer24h ∧ config.maxTasksPer24h ≤ 255)
    {quota : Option AuthorityTaskQuota} {t' : CreationThrottle}
    (hquota : quota = none ∨ quota = t.quota)
    (hcheck : checkTaskCreationWithOptionalQuota t.limit quota wallet config now = .ok t') :
    Sound ⟨t'.limit, t'.quota.or t.quota⟩ wallet now ∧
      (⟨t'.limit, t'.quota.or t.quota⟩ : CreationThrottle).dayCount now = t.dayCount now + 1 ∧
      t.dayCount now < t.dayLimit config := by
  obtain ⟨howner, htoday, -⟩ := h.refreshed hwallet
  cases hq : quota with
  | none =>
    rw [hq] at hcheck
    simp only [checkTaskCreationWithOptionalQuota, bind_eq_ok, Except.ok.injEq] at hcheck
    obtain ⟨limit', hcheck, rfl⟩ := hcheck
    obtain ⟨-, -, -, hbelow, hsound, hcount⟩ := h.createNarrow hwallet hcap hcheck
    exact ⟨hsound, hcount, lt_of_lt_of_le hbelow (le_max_left _ _)⟩
  | some q =>
    have htq : t.quota = some q := by
      rcases hquota with hnone | hsame
      · rw [hq] at hnone
        cases hnone
      · rw [← hsame, hq]
    rw [hq] at hcheck
    have hfold : maybeResetAuthorityWindow (initializeAuthorityRateLimit t.limit wallet now) now
      = t.refreshed wallet now := rfl
    simp only [checkTaskCreationWithOptionalQuota, bind_eq_ok, require_eq_ok, hfold] at hcheck
    obtain ⟨_, -, _, hqowner, _, -, _, -, synced, hsync, hcheck⟩ := hcheck
    obtain ⟨-, hqwindow, rfl⟩ := synchronizeTaskQuota_spec hsync htoday
    have hwide : max (t.refreshed wallet now).taskCount24h (wideCount q now) = t.dayCount now := by
      rw [h.dayCount_eq hwallet, htq]
      rfl
    split at hcheck
    · rename_i henabled
      have henabled : q.enabled = true := henabled
      simp only [bind_eq_ok, require_eq_ok, Except.ok.injEq] at hcheck
      obtain ⟨_, -, _, hbelow, rfl⟩ := hcheck
      simp only [hwide] at hbelow ⊢
      refine ⟨sound_today howner htoday (min_le_right _ _) ?_, ?_, ?_⟩
      · intro q' hq'
        obtain rfl := Option.some.inj hq'
        refine ⟨hqowner, le_rfl, ?_⟩
        rw [wideCount, if_pos rfl]
        show t.dayCount now + 1 ≤ min (t.dayCount now + 1) 255 ∨ min (t.dayCount now + 1) 255 = 255
        omega
      · rw [dayCount_today htoday]
        simp only [Option.some_or, Option.elim_some, wideCount, if_true]
        omega
      · refine lt_of_lt_of_le hbelow ?_
        rw [dayLimit, htq, Option.elim_some, if_pos henabled]
        exact le_max_right _ _
    · simp only [bind_eq_ok, Except.ok.injEq] at hcheck
      obtain ⟨limit', hnarrow, merged, hmerge, rfl⟩ := hcheck
      -- The narrow check runs on the refreshed counter, which counts the same.
      obtain ⟨hsound, hsame⟩ := h.count (n := 0) hwallet _ howner htoday rfl
        (h.refreshed_narrow hwallet)
      obtain ⟨howner', htoday', hcount, hbelow, -, -⟩ :=
        hsound.createNarrow hwallet hcap hnarrow
      obtain ⟨-, -, rfl⟩ := synchronizeTaskQuota_spec hmerge htoday'
      rw [hsame, Nat.add_zero] at hcount hbelow
      have hmerged : max limit'.taskCount24h (t.dayCount now) = t.dayCount now + 1 := by omega
      have hwide' : wideCount { q with
          rateLimitWindowStart := dayStart now
          taskCount24h := max (t.refreshed wallet now).taskCount24h (wideCount q now) } now
          = t.dayCount now := (if_pos rfl).trans hwide
      simp only [hwide', hmerged]
      refine ⟨sound_today howner' htoday' (by omega) ?_, ?_, ?_⟩
      · intro q' hq'
        obtain rfl := Option.some.inj hq'
        refine ⟨hqowner, le_rfl, .inl ?_⟩
        rw [wideCount, if_pos rfl, hcount]
      · rw [dayCount_today htoday']
        simp only [Option.some_or, Option.elim_some, wideCount, if_true]
        omega
      · exact lt_of_lt_of_le hbelow (le_max_left _ _)

/-- An opened dispute may start a new day, but counts no creation. -/
theorem Sound.dispute (h : t.Sound wallet now) (hwallet : wallet ≠ 0)
    (hmax : 0 < config.maxDisputesPer24h) {limit' : AuthorityRateLimit}
    (hcheck : checkAuthorityRateLimits t.limit wallet config now .DisputeInitiation
      = .ok limit') :
    Sound ⟨limit', t.quota⟩ wallet now ∧
      (⟨limit', t.quota⟩ : CreationThrottle).dayCount now = t.dayCount now := by
  obtain ⟨howner, htoday, -⟩ := h.refreshed hwallet
  obtain ⟨-, rfl⟩ := checkAuthorityRateLimits_spec hcheck hmax
  exact h.count (n := 0) hwallet _ howner htoday rfl (h.refreshed_narrow hwallet)

/-- Granting, changing or withdrawing a quota replenishes nothing. -/
theorem Sound.configure (h : t.Sound wallet now) (hwallet : wallet ≠ 0)
    {quota' : AuthorityTaskQuota} {maxTasksPer24h : ℕ} {enabled : Bool}
    (hsync : synchronizeTaskQuota (t.quota.getD
      { authority := wallet
        rateLimitWindowStart := (t.refreshed wallet now).rateLimitWindowStart
        taskCount24h := (t.refreshed wallet now).taskCount24h })
      (t.refreshed wallet now) = .ok quota') :
    Sound ⟨t.refreshed wallet now,
        some { quota' with maxTasksPer24h := maxTasksPer24h, enabled := enabled }⟩ wallet now ∧
      (⟨t.refreshed wallet now, some { quota' with
        maxTasksPer24h := maxTasksPer24h, enabled := enabled }⟩ : CreationThrottle).dayCount now
        = t.dayCount now := by
  obtain ⟨howner, htoday, -⟩ := h.refreshed hwallet
  obtain ⟨hqowner, -, rfl⟩ := synchronizeTaskQuota_spec hsync htoday
  rw [howner] at hqowner
  have hwide : ∀ q, t.quota = some q → wideCount q now ≤ (t.refreshed wallet now).taskCount24h ∨
      (t.refreshed wallet now).taskCount24h = 255 := fun q hq => h.wideCount_le hwallet hq
  have hcount := h.dayCount_eq hwallet
  have hnarrow := h.refreshed_narrow hwallet
  constructor
  · refine sound_today howner htoday hnarrow fun q hq => ?_
    obtain rfl := Option.some.inj hq
    refine ⟨hqowner, le_rfl, ?_⟩
    simp only [wideCount, if_true]
    cases hq : t.quota with
    | none => simp [htoday]
    | some q =>
      have hmerged := hwide q hq
      unfold wideCount at hmerged
      simp only [Option.getD_some]
      omega
  · rw [dayCount_today htoday, hcount]
    cases hq : t.quota with
    | none => simp [htoday, wideCount]
    | some q => simp [wideCount]

end CreationThrottle

/-! ## Steps -/

/-- The throttle of a wallet. -/
def World.throttle (w : World) (wallet : Pubkey) : CreationThrottle :=
  ⟨(w.rateLimits.lookup wallet).getD {}, w.quotas.lookup wallet⟩

/-- A creation by `wallet`. -/
def Instruction.creates (wallet : Pubkey) : Instruction → Bool
  | .create _ creator _ _ _ => decide (creator = wallet)
  | _ => false

/-- The protocol's limits are in force and fit the narrow counter. -/
def ProtocolConfig.countsActions (config : ProtocolConfig) : Prop :=
  0 < config.maxTasksPer24h ∧ config.maxTasksPer24h ≤ 255 ∧ 0 < config.maxDisputesPer24h

theorem SameProtocol.countsActions {config config' : ProtocolConfig}
    (h : SameProtocol config config') (hcounts : config.countsActions) : config'.countsActions := by
  obtain ⟨_, _, rfl⟩ := h
  exact hcounts

/-- One step, seen from the throttle of `wallet`. -/
inductive ThrottleMove (w : World) (wallet : Pubkey) (w' : World) : Instruction → Prop
  | same {i : Instruction} (plain : i.creates wallet = false)
      (stored : w'.throttle wallet = w.throttle wallet) : ThrottleMove w wallet w' i
  | created {key : Pubkey} {useQuota : Bool} {pre : Prefunding} {op : CreateOp}
      {t : CreationThrottle} (sys : w'.sys = w.sys)
      (check : checkTaskCreation w wallet useQuota = .ok t)
      (stored : w'.throttle wallet = ⟨t.limit, t.quota.or (w.throttle wallet).quota⟩) :
      ThrottleMove w wallet w' (.create key wallet useQuota pre op)
  | disputed {key : Pubkey} {filing : DisputeFiling} {limit : AuthorityRateLimit}
      (sys : w'.sys = w.sys)
      (check : checkAuthorityRateLimits (w.throttle wallet).limit wallet w.config w.sys.now
        .DisputeInitiation = .ok limit)
      (stored : w'.throttle wallet = ⟨limit, (w.throttle wallet).quota⟩) :
      ThrottleMove w wallet w' (.initiateDispute key wallet filing)
  | configured {signers : List Pubkey} {maxTasksPer24h : ℕ} {enabled : Bool}
      {quota : AuthorityTaskQuota} (sys : w'.sys = w.sys)
      (sync : synchronizeTaskQuota ((w.throttle wallet).quota.getD
        { authority := wallet
          rateLimitWindowStart :=
            ((w.throttle wallet).refreshed wallet w.sys.now).rateLimitWindowStart
          taskCount24h := ((w.throttle wallet).refreshed wallet w.sys.now).taskCount24h })
        ((w.throttle wallet).refreshed wallet w.sys.now) = .ok quota)
      (stored : w'.throttle wallet = ⟨(w.throttle wallet).refreshed wallet w.sys.now,
        some { quota with maxTasksPer24h := maxTasksPer24h, enabled := enabled }⟩) :
      ThrottleMove w wallet w'
        (.admin signers (.configureTaskCreationQuota wallet maxTasksPer24h enabled))

section Creations

variable {w w' : World} {key creator : Pubkey} {useQuota : Bool} {pre : Prefunding}

/-- What a creating instruction does to the throttles: it checks and stores its creator's. -/
def StoresThrottle (w : World) (creator : Pubkey) (useQuota : Bool) (w' : World) : Prop :=
  ∃ t, checkTaskCreation w creator useQuota = .ok t ∧
    w'.rateLimits = w.rateLimits.insert creator t.limit ∧
    w'.quotas = (match t.quota with
      | some quota => w.quotas.insert creator quota
      | none => w.quotas)

theorem storeNewTask_throttle {throttle : CreationThrottle} {accounts : TaskAccounts}
    (hcheck : checkTaskCreation w creator useQuota = .ok throttle)
    (h : storeNewTask w key creator throttle accounts = .ok w') :
    StoresThrottle w creator useQuota w' := by
  simp only [storeNewTask, bind_eq_ok, addU64_eq_ok, Except.ok.injEq] at h
  obtain ⟨_, -, rfl⟩ := h
  exact ⟨throttle, hcheck, rfl, rfl⟩

/-- Both hires throttle the buyer. -/
theorem hireFromListingCore_throttle {listing : ServiceListing} {taskId taskJobSpecHash : Hash}
    {expectedPrice expectedVersion : ℕ} {referrer : Option Pubkey} {referrerFeeBps : ℕ}
    {r : CreationThrottle × Task × HireRecord}
    (h : hireFromListingCore w key creator listing taskId taskJobSpecHash expectedPrice
      expectedVersion referrer referrerFeeBps useQuota = .ok r) :
    checkTaskCreation w creator useQuota = .ok r.1 := by
  simp only [hireFromListingCore, bind_eq_ok, Except.ok.injEq, Prod.exists] at h
  obtain ⟨_, -, _, -, _, -, _, -, _, -, _, -, _, -, throttle, hthrottle, h⟩ := h
  obtain ⟨_, -, _, -, _, _, -, _, -, rfl⟩ := h
  exact hthrottle

theorem CreateOp.run_throttle {op : CreateOp} (h : op.run w key creator useQuota pre = .ok w') :
    StoresThrottle w creator useQuota w' := by
  cases op with
  | createTask creatorAgent params constraintHash referrer referrerFeeBps =>
    simp only [CreateOp.run, AgencCoordination.createTask, bind_eq_ok, Prod.exists] at h
    obtain ⟨_, -, _, -, _, -, _, -, _, -, _, -, _, -, _, -, h⟩ := h
    obtain ⟨_, -, _, -, _, -, _, -, _, hcheck, _, -, _, _, -, _, -, _, -, h⟩ := h
    exact storeNewTask_throttle hcheck h
  | createDependentTask creatorAgent parent params constraintHash dependencyType =>
    simp only [CreateOp.run, AgencCoordination.createDependentTask, bind_eq_ok] at h
    obtain ⟨_, -, _, -, _, -, _, -, _, -, _, -, _, -, _, -, h⟩ := h
    obtain ⟨_, -, _, -, _, -, _, -, _, -, _, -, _, -, _, -, _, hcheck, _, -, _, -, h⟩ := h
    exact storeNewTask_throttle hcheck h
  | createTaskHumanless params reviewWindowSecs referrer referrerFeeBps =>
    simp only [CreateOp.run, AgencCoordination.createTaskHumanless, bind_eq_ok, Prod.exists] at h
    obtain ⟨_, -, _, -, _, -, _, -, _, -, _, -, _, -, _, -, h⟩ := h
    obtain ⟨_, hcheck, _, -, _, _, -, _, -, h⟩ := h
    exact storeNewTask_throttle hcheck h
  | hireFromListing creatorAgent listing taskId specHash price version referrer referrerFeeBps =>
    simp only [CreateOp.run, AgencCoordination.hireFromListing, bind_eq_ok, Prod.exists] at h
    obtain ⟨_, -, _, -, _, -, _, -, _, -, _, -, _, _, _, hcore, h⟩ := h
    exact storeNewTask_throttle (hireFromListingCore_throttle hcore) h
  | hireFromListingHumanless listing taskId specHash price version reviewWindowSecs referrer
      referrerFeeBps =>
    simp only [CreateOp.run, AgencCoordination.hireFromListingHumanless, bind_eq_ok,
      Prod.exists] at h
    obtain ⟨_, -, _, -, _, -, _, -, _, _, _, hcore, h⟩ := h
    exact storeNewTask_throttle (hireFromListingCore_throttle hcore) h

end Creations

theorem initiateDispute_throttle {w w' : World} {key signer : Pubkey} {filing : DisputeFiling}
    (h : initiateDispute w key signer filing = .ok w') :
    ∃ limit, checkAuthorityRateLimits (w.throttle signer).limit signer w.config w.sys.now
        .DisputeInitiation = .ok limit ∧
      w'.sys = w.sys ∧ w'.rateLimits = w.rateLimits.insert signer limit ∧ w'.quotas = w.quotas := by
  simp only [initiateDispute, bind_eq_ok] at h
  obtain ⟨_, -, _, -, _, -, _, -, _, -, _, -, _, -, _, -, _, -, _, -, h⟩ := h
  rcases ite_eq_iff.mp h with ⟨-, h⟩ | ⟨-, h⟩
  · simp only [bind_eq_ok, Except.ok.injEq] at h
    obtain ⟨_, -, _, -, limit, hcheck, _, -, _, -, rfl⟩ := h
    exact ⟨limit, hcheck, rfl, rfl, rfl⟩
  · simp only [bind_eq_ok, Except.ok.injEq] at h
    obtain ⟨_, -, _, -, _, -, limit, hcheck, _, -, _, -, rfl⟩ := h
    exact ⟨limit, hcheck, rfl, rfl, rfl⟩

/-- The throttle of a wallet only depends on its own entries. -/
theorem throttle_congr {w w' : World} {wallet : Pubkey}
    (rateLimits : w'.rateLimits.lookup wallet = w.rateLimits.lookup wallet)
    (quotas : w'.quotas.lookup wallet = w.quotas.lookup wallet) :
    w'.throttle wallet = w.throttle wallet := by
  unfold World.throttle
  rw [rateLimits, quotas]

/-- The administrative instructions leave the throttles alone, except for the quota they set. -/
theorem AdminOp.run_throttle {w w' : World} {signers : List Pubkey} {op : AdminOp}
    (h : op.run w signers = .ok w') (wallet : Pubkey) :
    ThrottleMove w wallet w' (.admin signers op) ∧
      (w.config.countsActions → w'.config.countsActions) := by
  cases op with
  | updateProtocolFee protocolFeeBps =>
    simp only [AdminOp.run, AgencCoordination.updateProtocolFee, bind_eq_ok,
      Except.ok.injEq] at h
    obtain ⟨_, -, _, -, rfl⟩ := h
    exact ⟨.same rfl rfl, id⟩
  | updateTreasury newTreasury =>
    simp only [AdminOp.run, AgencCoordination.updateTreasury, bind_eq_ok, Except.ok.injEq] at h
    obtain ⟨_, -, _, -, _, -, rfl⟩ := h
    exact ⟨.same rfl rfl, id⟩
  | updateLaunchControls paused mask revision =>
    simp only [AdminOp.run, AgencCoordination.updateLaunchControls, bind_eq_ok,
      Except.ok.injEq] at h
    obtain ⟨_, -, _, -, rfl⟩ := h
    exact ⟨.same rfl rfl, id⟩
  | updateRateLimits taskCooldown maxTasks disputeCooldown maxDisputes minStake =>
    simp only [AdminOp.run, AgencCoordination.updateRateLimits, bind_eq_ok, require_eq_ok,
      Except.ok.injEq] at h
    obtain ⟨_, -, _, hleast, _, -, _, hmost, _, -, rfl⟩ := h
    refine ⟨.same rfl rfl, fun _ => ⟨hleast.2.2.1, ?_, hleast.2.2.2⟩⟩
    exact Nat.le_of_lt_succ hmost.1
  | configureTaskCreationQuota taskAuthority maxTasks enabled =>
    simp only [AdminOp.run, AgencCoordination.configureTaskCreationQuota, bind_eq_ok,
      require_eq_ok, Except.ok.injEq] at h
    obtain ⟨_, -, _, -, _, -, _, -, quota, hsync, rfl⟩ := h
    refine ⟨?_, id⟩
    by_cases hwallet : wallet = taskAuthority
    · subst hwallet
      exact .configured rfl hsync (by simp [World.throttle]; rfl)
    · exact .same rfl (throttle_congr (AList.lookup_insert_ne hwallet)
        (AList.lookup_insert_ne hwallet))
  | initializeBidMarketplace config =>
    simp only [AdminOp.run, AgencCoordination.initializeBidMarketplace, bind_eq_ok,
      Except.ok.injEq] at h
    obtain ⟨_, -, _, -, _, -, _, -, rfl⟩ := h
    exact ⟨.same rfl rfl, id⟩
  | updateBidMarketplaceConfig config =>
    simp only [AdminOp.run, AgencCoordination.updateBidMarketplaceConfig, bind_eq_ok,
      Except.ok.injEq] at h
    obtain ⟨_, -, _, -, _, -, _, -, rfl⟩ := h
    exact ⟨.same rfl rfl, id⟩
  | assignDisputeResolver resolver =>
    simp only [AdminOp.run, AgencCoordination.assignDisputeResolver, bind_eq_ok,
      Except.ok.injEq] at h
    obtain ⟨_, -, _, -, rfl⟩ := h
    exact ⟨.same rfl rfl, id⟩
  | revokeDisputeResolver resolver =>
    simp only [AdminOp.run, AgencCoordination.revokeDisputeResolver, bind_eq_ok,
      Except.ok.injEq] at h
    obtain ⟨_, -, _, -, rfl⟩ := h
    exact ⟨.same rfl rfl, id⟩

/-- Every step, seen from the throttle of one wallet; no step turns the limits off. -/
theorem Step.throttle {w w' : World} {i : Instruction} {ts : List Transfer}
    (h : Step w (i, ts) w') (wallet : Pubkey) :
    ThrottleMove w wallet w' i ∧ (w.config.countsActions → w'.config.countsActions) := by
  cases h.does with
  | ticked later => exact ⟨.same rfl rfl, id⟩
  | donatedAgent outside credits => exact ⟨.same rfl rfl, id⟩
  | donatedTask inside loaded credits => exact ⟨.same rfl rfl, id⟩
  | administered ran => exact AdminOp.run_throttle ran wallet
  | agent ran =>
    obtain ⟨⟨_, _, -, rfl⟩, -⟩ := AgentOp.run_spec ran
    exact ⟨.same rfl rfl, id⟩
  | @created key creator useQuota pre op _ ran =>
    obtain ⟨t, hcheck, hlimits, hquotas⟩ := CreateOp.run_throttle ran
    obtain ⟨-, _, _, _, _, -, rfl⟩ := CreateOp.run_spec ran
    refine ⟨?_, id⟩
    by_cases hwallet : creator = wallet
    · subst hwallet
      refine .created rfl hcheck ?_
      unfold World.throttle
      rw [hlimits, hquotas, AList.lookup_insert]
      cases hq : t.quota with
      | none => simp
      | some q => simp
    · refine .same (decide_eq_false hwallet) (throttle_congr ?_ ?_)
      · rw [hlimits, AList.lookup_insert_ne (Ne.symm hwallet)]
      · rw [hquotas]
        split
        · rw [AList.lookup_insert_ne (Ne.symm hwallet)]
        · rfl
  | task loaded ran => exact ⟨.same rfl rfl, (TaskOp.run_frames ran).config.countsActions⟩
  | work loaded found ran rent =>
    refine ⟨.same rfl (throttle_congr ?_ ?_), (WorkOp.run_frames ran).config.countsActions⟩
    · rw [World.storeWork_rateLimits]
    · rw [World.storeWork_quotas]
  | cancelled loaded listed ran =>
    have hconfig := (cancelTask_frames ran).config
    obtain ⟨-, -, -, hbase, -, -⟩ := listed_context listed
    rw [hbase] at hconfig
    refine ⟨.same rfl (throttle_congr ?_ ?_), hconfig.countsActions⟩
    · rw [World.storeTask_rateLimits, World.storeBidder_rateLimits]
    · rw [World.storeTask_quotas, World.storeBidder_quotas]
  | closed loaded ran => exact ⟨.same rfl rfl, (closeTask_frames ran).config.countsActions⟩
  | @disputed key signer filing _ ran =>
    obtain ⟨limit, hcheck, hsys, hlimits, hquotas⟩ := initiateDispute_throttle ran
    have hopens := initiateDispute_spec ran
    obtain ⟨_, _, _, _, -, -, -, -, -, -, -, -, -, -, -, rfl⟩ := hopens
    refine ⟨?_, id⟩
    by_cases hwallet : wallet = signer
    · subst hwallet
      refine .disputed rfl hcheck ?_
      unfold World.throttle
      rw [hlimits, hquotas, AList.lookup_insert]
      rfl
    · refine .same rfl (throttle_congr ?_ rfl)
      rw [hlimits, AList.lookup_insert_ne hwallet]
  | ruled loaded found filed about ran rent =>
    refine ⟨.same rfl (throttle_congr ?_ ?_), (DisputeOp.run_frames ran).1.config.countsActions⟩
    · change (w.storeWork _).rateLimits.lookup wallet = _
      rw [World.storeWork_rateLimits]
    · change (w.storeWork _).quotas.lookup wallet = _
      rw [World.storeWork_quotas]
  | finalized ran =>
    obtain ⟨_, _, _, _, -, -, -, -, -, -, -, -, -, rfl⟩ := applyInitiatorSlash_spec ran
    exact ⟨.same rfl rfl, id⟩
  | repaired ran =>
    obtain ⟨_, _, -, -, -, -, -, -, rfl⟩ := repairDisputeInitiatorCounter_spec ran
    exact ⟨.same rfl rfl, id⟩

/-! ## Runs -/

/-- The count of `wallet` for the day of the clock. -/
def World.dayCount (w : World) (wallet : Pubkey) : ℕ := (w.throttle wallet).dayCount w.sys.now

/-- The number of creations `wallet` may make on one day under the limits in force. -/
def World.creationLimit (w : World) (wallet : Pubkey) : ℕ := (w.throttle wallet).dayLimit w.config

/-- What holds of the throttles of every reachable world. -/
structure BudgetInv (w : World) : Prop where
  limits : w.config.countsActions
  sound : ∀ wallet, wallet ≠ 0 → (w.throttle wallet).Sound wallet w.sys.now

theorem Genesis.budget {w : World} (h : Genesis w) : BudgetInv w where
  limits := by
    rw [ProtocolConfig.countsActions, h.maxTasksPer24h, h.maxDisputesPer24h]
    decide
  sound := by
    intro wallet hwallet
    rw [World.throttle, h.rateLimits, h.quotas]
    exact CreationThrottle.sound_empty hwallet

theorem checkTaskCreation_spec {w : World} {wallet : Pubkey} {useQuota : Bool}
    {t : CreationThrottle} (h : checkTaskCreation w wallet useQuota = .ok t) :
    ∃ quota, (quota = none ∨ quota = (w.throttle wallet).quota) ∧
      checkTaskCreationWithOptionalQuota (w.throttle wallet).limit quota wallet w.config w.sys.now
        = .ok t := by
  unfold checkTaskCreation at h
  cases useQuota with
  | false => exact ⟨none, .inl rfl, h⟩
  | true =>
    simp only [if_true, bind_eq_ok, demand_eq_ok, pure_eq_ok] at h
    obtain ⟨quota, hquota, _, rfl, h⟩ := h
    exact ⟨some quota, .inr hquota.symm, h⟩

section Steps

variable {w w' : World} {i : Instruction} {ts : List Transfer} {wallet : Pubkey}

/-- What a step does to the throttle of one wallet: it stays sound, and within the day its count
grows by the step's creations. -/
theorem Step.counts (h : Step w (i, ts) w') (hinv : BudgetInv w) (hwallet : wallet ≠ 0) :
    (w'.throttle wallet).Sound wallet w'.sys.now ∧
      (dayStart w'.sys.now = dayStart w.sys.now →
        w'.dayCount wallet = w.dayCount wallet + if i.creates wallet then 1 else 0) := by
  have hsound := hinv.sound wallet hwallet
  unfold World.dayCount
  cases (h.throttle wallet).1 with
  | same plain stored =>
    rw [stored, plain]
    refine ⟨hsound.later h.environment.1, fun hday => ?_⟩
    simp [CreationThrottle.dayCount, CreationThrottle.wideCount, hday]
  | created sys check stored =>
    obtain ⟨quota, hquota, hcheck⟩ := checkTaskCreation_spec check
    have hcap : 0 < w.config.maxTasksPer24h ∧ w.config.maxTasksPer24h ≤ 255 :=
      ⟨hinv.limits.1, hinv.limits.2.1⟩
    obtain ⟨hsound', hcount, -⟩ := hsound.create hwallet hcap hquota hcheck
    rw [stored, sys]
    exact ⟨hsound', fun _ => by simpa [Instruction.creates] using hcount⟩
  | disputed sys check stored =>
    obtain ⟨hsound', hcount⟩ := hsound.dispute hwallet hinv.limits.2.2 check
    rw [stored, sys]
    exact ⟨hsound', fun _ => by simpa [Instruction.creates] using hcount⟩
  | configured sys sync stored =>
    obtain ⟨hsound', hcount⟩ := hsound.configure hwallet sync
    rw [stored, sys]
    exact ⟨hsound', fun _ => by simpa [Instruction.creates] using hcount⟩

theorem Step.budget (h : Step w (i, ts) w') (hinv : BudgetInv w) : BudgetInv w' where
  limits := (h.throttle 0).2 hinv.limits
  sound := fun _ hwallet => (h.counts hinv hwallet).1

/-- A creation happens below the limit, and takes no time. -/
theorem Step.creation (h : Step w (i, ts) w') (hinv : BudgetInv w) (hwallet : wallet ≠ 0)
    (hcreates : i.creates wallet = true) :
    w.dayCount wallet < w.creationLimit wallet ∧ w'.sys = w.sys := by
  cases (h.throttle wallet).1 with
  | same plain stored =>
    rw [plain] at hcreates
    cases hcreates
  | created sys check stored =>
    obtain ⟨quota, hquota, hcheck⟩ := checkTaskCreation_spec check
    have hcap : 0 < w.config.maxTasksPer24h ∧ w.config.maxTasksPer24h ≤ 255 :=
      ⟨hinv.limits.1, hinv.limits.2.1⟩
    exact ⟨((hinv.sound wallet hwallet).create hwallet hcap hquota hcheck).2.2, sys⟩
  | disputed sys check stored => cases hcreates
  | configured sys sync stored => cases hcreates

/-- A new day starts without creations. -/
theorem Step.newDay (h : Step w (i, ts) w') (hinv : BudgetInv w) (hwallet : wallet ≠ 0)
    (hday : dayStart w.sys.now < dayStart w'.sys.now) :
    w'.dayCount wallet = 0 ∧ i.creates wallet = false := by
  cases (h.throttle wallet).1 with
  | same plain stored =>
    refine ⟨?_, plain⟩
    have hsound := hinv.sound wallet hwallet
    rw [World.dayCount, stored]
    unfold CreationThrottle.dayCount
    split
    · rename_i htoday
      rcases hsound.owner with hnew | howner
      · cases hq : (w.throttle wallet).quota with
        | none => simp [hnew]
        | some quota =>
          have howner := (hsound.quotaOwner quota hq).2.1
          rw [hnew] at howner
          exact absurd howner.symm hwallet
      · have hle := (hsound.window howner).2
        omega
    · rfl
  | created sys check stored =>
    rw [sys] at hday
    exact absurd hday (lt_irrefl _)
  | disputed sys check stored =>
    rw [sys] at hday
    exact absurd hday (lt_irrefl _)
  | configured sys sync stored =>
    rw [sys] at hday
    exact absurd hday (lt_irrefl _)

end Steps

/-- The creations of `wallet` on the day that starts at `day`. -/
def creationsOn (wallet : Pubkey) (day : ℤ) (log : List LogEntry) : ℕ :=
  log.countP fun e => e.label.1.creates wallet && decide (dayStart e.before.sys.now = day)

theorem creationsOn_snoc (wallet : Pubkey) (day : ℤ) (log : List LogEntry) (e : LogEntry) :
    creationsOn wallet day (log ++ [e]) = creationsOn wallet day log +
      if e.label.1.creates wallet && decide (dayStart e.before.sys.now = day) then 1 else 0 := by
  rw [creationsOn, creationsOn, List.countP_append, List.countP_singleton]

/-- After every run the day's count is the number of the day's creations. -/
theorem run_counts {start w : World} {log : List LogEntry} (hstart : Genesis start)
    (hrun : Run Step start log w) {wallet : Pubkey} (hwallet : wallet ≠ 0) :
    BudgetInv w ∧ (∀ e ∈ log, e.before.sys.now ≤ w.sys.now) ∧
      w.dayCount wallet = creationsOn wallet (dayStart w.sys.now) log := by
  induction hrun with
  | refl =>
    refine ⟨hstart.budget, by simp, ?_⟩
    rw [World.dayCount, World.throttle, hstart.rateLimits, hstart.quotas]
    simp [CreationThrottle.dayCount, creationsOn]
  | @snoc log s s' label _ hs ih =>
    obtain ⟨hinv, hbefore, hcount⟩ := ih
    have hlater := (Step.environment hs).1
    refine ⟨Step.budget hs hinv, ?_, ?_⟩
    · intro e he
      rcases List.mem_append.mp he with he | he
      · exact (hbefore e he).trans hlater
      · obtain rfl := List.mem_singleton.mp he
        exact hlater
    · rw [creationsOn_snoc]
      rcases (dayStart_mono hlater).eq_or_lt with hday | hday
      · rw [(Step.counts hs hinv hwallet).2 hday.symm, hcount, hday]
        simp
      · obtain ⟨hzero, hplain⟩ := Step.newDay hs hinv hwallet hday
        have hnone : creationsOn wallet (dayStart s'.sys.now) log = 0 := by
          refine List.countP_eq_zero.mpr fun e he => ?_
          have hle := dayStart_mono (hbefore e he)
          simp only [Bool.and_eq_true, decide_eq_true_eq, not_and]
          intro _ hsame
          omega
        rw [hzero, hnone, hplain]
        rfl

/-- The creations of one day stay within a limit that was in force at each of them. -/
theorem creationsOn_le {start w : World} {log : List LogEntry} (hstart : Genesis start)
    (hrun : Run Step start log w) {wallet : Pubkey} (hwallet : wallet ≠ 0) {day : ℤ} {limit : ℕ}
    (hlimit : ∀ e ∈ log, e.label.1.creates wallet = true → dayStart e.before.sys.now = day →
      e.before.creationLimit wallet ≤ limit) : creationsOn wallet day log ≤ limit := by
  induction hrun with
  | refl => exact Nat.zero_le _
  | @snoc log s s' label hr hs ih =>
    have hrest := ih fun e he => hlimit e (List.mem_append_left _ he)
    rw [creationsOn_snoc]
    split
    · rename_i hcreation
      simp only [Bool.and_eq_true, decide_eq_true_eq] at hcreation
      obtain ⟨hcreates, hday⟩ := hcreation
      obtain ⟨hinv, -, hcount⟩ := run_counts hstart hr hwallet
      have hbelow := (Step.creation hs hinv hwallet hcreates).1
      have hwithin := hlimit _ (List.mem_append_right _ (List.mem_singleton_self _)) hcreates hday
      rw [hday] at hcount
      have hwithin : s.creationLimit wallet ≤ limit := hwithin
      omega
    · exact hrest

/-- The daily budget of a wallet, over every run and whichever entries its creations take: the
count of the day is the number of the day's creations; a creation raises it by one and nothing
else changes it within the day; every creation happens below the limit; and a limit that was
never exceeded by the limits in force bounds the creations of the day. The default key is no
wallet: nobody signs with it. -/
theorem daily_creation_budget {start w : World} {log : List LogEntry} (hstart : Genesis start)
    (hrun : Run Step start log w) {wallet : Pubkey} (hwallet : wallet ≠ 0) :
    w.dayCount wallet = creationsOn wallet (dayStart w.sys.now) log ∧
    (∀ e ∈ log, dayStart e.after.sys.now = dayStart e.before.sys.now →
      e.after.dayCount wallet = e.before.dayCount wallet +
        if e.label.1.creates wallet then 1 else 0) ∧
    (∀ e ∈ log, e.label.1.creates wallet = true → e.after.sys = e.before.sys ∧
      e.before.dayCount wallet < e.before.creationLimit wallet) ∧
    ∀ day limit, (∀ e ∈ log, e.label.1.creates wallet = true →
        dayStart e.before.sys.now = day → e.before.creationLimit wallet ≤ limit) →
      creationsOn wallet day log ≤ limit := by
  refine ⟨(run_counts hstart hrun hwallet).2.2, fun e he hday => ?_, fun e he hcreates => ?_,
    fun day limit => creationsOn_le hstart hrun hwallet⟩
  · obtain ⟨_, _, -, hr, hs, -⟩ := hrun.split_mem he
    exact (Step.counts hs (run_counts hstart hr hwallet).1 hwallet).2 hday
  · obtain ⟨_, _, -, hr, hs, -⟩ := hrun.split_mem he
    obtain ⟨hbelow, hsys⟩ :=
      Step.creation hs (run_counts hstart hr hwallet).1 hwallet hcreates
    exact ⟨hsys, hbelow⟩

/-- The wallet `7` opens a task, is granted a quota, and opens another one with it. -/
def quotaScript : List Instruction :=
  [.create 50 7 false {} (.createTaskHumanless ⟨1, 1, (1, 0), 1500, 1, 5000, .Exclusive, 0, none⟩
      3600 none 0),
    .admin [1, 3] (.updateLaunchControls false [] 7),
    .admin [1, 3] (.configureTaskCreationQuota 7 256 true),
    .tick 1060,
    .create 51 7 true {} (.createTaskHumanless ⟨2, 1, (1, 0), 1500, 1, 5000, .Exclusive, 0, none⟩
      3600 none 0)]

theorem daily_creation_budget_quota :
    ∃ log, Run Step deployed log (deployed.after quotaScript) ∧ creationsOn 7 0 log = 2 := by
  obtain ⟨log, hrun⟩ := deployed.run_after quotaScript
  refine ⟨log, hrun, ?_⟩
  have hcount := 
    (daily_creation_budget deployed_genesis hrun (show (7 : Pubkey) ≠ 0 by decide)).1
  have hday : dayStart (deployed.after quotaScript).sys.now = 0 := by decide +kernel
  rw [hday] at hcount
  rw [← hcount]
  decide +kernel

end AgencCoordination
