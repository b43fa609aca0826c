import AgencCoordination.Sdk.Watch
import Mathlib.Tactic.Common

/-!
# What a watch delivers

The set of seen tasks decides every delivery, whichever pump it comes from and however their
actions interleave.

* **`addIfAbsent_of_tracked`** — a tracked task is admitted again only at a larger generation of
  an open task without workers, or under other counters of the generation zero.
* **`SeenMove`** — the three things an action can do to the set.
* **`watch_deliveries`** — over every run: what lies between two admissions of a task, that a
  sweep admits what it found, that stale reads and concurrent sweeps lose nothing, and the
  bound.
* **`event_admission_forgotten`** — the sweep after an event's admission may forget its task,
  when a sweep that was still delivering has admitted it once more under legacy counters.
-/

namespace AgencCoordination.Sdk

open Foundations

/-! ## One offer -/

section Offer

variable {maxSeen : ℕ} {seen : SeenSet} {task task' : Pubkey} {key : DedupeKey}
  {generation : ℕ} {zeroWorkerOpen : Bool} {sweep : ℕ}

/-- An offer of one task leaves the entries of the others. -/
theorem addIfAbsent_other (h : task' ≠ task) :
    (addIfAbsent maxSeen seen task key generation zeroWorkerOpen sweep).1.lookup task' =
      seen.lookup task' := by
  unfold addIfAbsent
  split
  · split_ifs <;> exact AList.lookup_insert_ne h
  · split_ifs
    · rfl
    · exact AList.lookup_insert_ne h

/-- An offer of a tracked task: its generation never falls, and it is admitted only at a larger
generation without workers, or at the generation zero. -/
theorem addIfAbsent_of_tracked {prior : SeenEntry} (h : seen.lookup task = some prior) :
    let r := addIfAbsent maxSeen seen task key generation zeroWorkerOpen sweep
    ∃ entry, r.1.lookup task = some entry ∧ prior.generation ≤ entry.generation ∧
      (r.2 = true → prior.generation ≤ generation) ∧
      (r.2 = true → generation ≠ 0 → zeroWorkerOpen = true ∧ prior.generation < generation) ∧
      (prior.lastObservedSweep ≤ entry.lastObservedSweep ∨ r.2 = true ∧ generation = 0) ∧
      (r.2 = true → generation ≤ entry.generation ∧ sweep ≤ entry.lastObservedSweep) := by
  intro r
  simp only [r, addIfAbsent, h]
  by_cases hstale : generation < prior.generation
  · rw [if_pos hstale]
    refine ⟨_, AList.lookup_insert _, le_rfl, by simp, by simp, .inl (le_max_left _ _), by simp⟩
  rw [if_neg hstale]
  by_cases hpos : 0 < generation
  · rw [if_pos hpos]
    refine ⟨_, AList.lookup_insert _, not_lt.mp hstale, fun _ => not_lt.mp hstale, ?_,
      .inl (le_max_left _ _), fun _ => ⟨le_rfl, le_max_right _ _⟩⟩
    intro hadmitted _
    rw [Bool.and_eq_true] at hadmitted
    exact ⟨hadmitted.1, of_decide_eq_true hadmitted.2⟩
  rw [if_neg hpos]
  have hzero : generation = 0 := Nat.eq_zero_of_not_pos hpos
  by_cases hkey : prior.key = key
  · rw [if_pos hkey]
    refine ⟨_, AList.lookup_insert _, le_rfl, by simp, by simp, .inl (le_max_left _ _), by simp⟩
  · rw [if_neg hkey]
    refine ⟨_, AList.lookup_insert _, not_lt.mp hstale, fun _ => not_lt.mp hstale,
      fun _ hne => absurd hzero hne, .inr ⟨rfl, hzero⟩, fun _ => ⟨le_rfl, le_rfl⟩⟩

/-- An offer of a task that is not tracked is admitted while there is room. -/
theorem addIfAbsent_of_untracked (h : seen.lookup task = none) :
    let r := addIfAbsent maxSeen seen task key generation zeroWorkerOpen sweep
    (seen.size < maxSeen → r.2 = true) ∧
      (r.2 = true → seen.size < maxSeen ∧
        r.1 = seen.insert task ⟨key, generation, sweep⟩) ∧
      (r.2 = false → r.1 = seen) := by
  intro r
  simp only [r, addIfAbsent, h]
  by_cases hfull : maxSeen ≤ seen.size
  · rw [if_pos hfull]
    simp [hfull]
  · rw [if_neg hfull]
    simp [not_le.mp hfull]

/-- An offer never exceeds the bound. -/
theorem addIfAbsent_size (h : seen.size ≤ maxSeen) :
    (addIfAbsent maxSeen seen task key generation zeroWorkerOpen sweep).1.size ≤ maxSeen := by
  cases hprior : seen.lookup task with
  | some prior =>
    have hsame : ∀ entry, Ledger.size (seen.insert task entry) ≤ maxSeen := by
      intro entry
      rw [Ledger.size_insert_of_lookup hprior]
      exact h
    simp only [addIfAbsent, hprior]
    split_ifs <;> exact hsame _
  | none =>
    obtain ⟨-, hadmitted, hrefused⟩ :=
      @addIfAbsent_of_untracked maxSeen seen task key generation zeroWorkerOpen sweep hprior
    cases hr : (addIfAbsent maxSeen seen task key generation zeroWorkerOpen sweep).2 with
    | true =>
      obtain ⟨hroom, hr⟩ := hadmitted hr
      rw [hr, Ledger.size_insert_new hprior]
      exact hroom
    | false =>
      rw [hrefused hr]
      exact h

end Offer

/-! ## One action -/

/-- What an action does to the set: nothing, one offer, or the forgetting of a sweep. -/
inductive SeenMove (options : WatchOptions) (w : Watch) (label : WatchAction × Option Candidate)
    (w' : Watch) : Prop
  | kept (same : w'.seen = w.seen) (sweeps : w'.successfulSweep = w.successfulSweep)
      (none : label.2 = none)
  | offered (c : Candidate) (now : ℤ) (observed : ℕ) (current : w.successfulSweep ≤ observed)
      (event : ∀ t, label.1 = .eventAdmit t → observed = w.successfulSweep + 1)
      (seen : w'.seen = (admitFresh options w.seen c now observed).1)
      (sweeps : w'.successfulSweep = w.successfulSweep)
      (admitted : label.2 = (admitFresh options w.seen c now observed).2)
  | swept (candidates : List Candidate) (pinned : List Pubkey) (commit : label.1 = .sweepCommit)
      (found : w.sweep = .read candidates pinned)
      (seen : w'.seen =
        retainTasks w.seen (candidates.map Candidate.address) (w.successfulSweep + 1))
      (sweeps : w'.successfulSweep = w.successfulSweep + 1) (none : label.2 = none)

theorem WatchStep.move {options : WatchOptions} {w w' : Watch}
    {label : WatchAction × Option Candidate} (h : WatchStep options w label w') :
    SeenMove options w label w' := by
  obtain ⟨action, admitted⟩ := label
  unfold WatchStep Watch.perform at h
  cases action with
  | eventRead found =>
    dsimp only at h
    split at h
    · obtain ⟨rfl, rfl⟩ := Prod.mk.inj (Option.some.inj h)
      exact .kept rfl rfl rfl
    · cases h
  | eventAdmit now =>
    dsimp only at h
    split at h
    · obtain ⟨rfl, rfl⟩ := Prod.mk.inj (Option.some.inj h)
      exact .offered _ _ _ (Nat.le_succ _) (fun _ _ => rfl) rfl rfl rfl
    · cases h
  | sweepRead candidates pinned =>
    dsimp only at h
    split at h
    · obtain ⟨rfl, rfl⟩ := Prod.mk.inj (Option.some.inj h)
      exact .kept rfl rfl rfl
    · cases h
  | sweepFail =>
    dsimp only at h
    split at h
    · obtain ⟨rfl, rfl⟩ := Prod.mk.inj (Option.some.inj h)
      exact .kept rfl rfl rfl
    · cases h
  | sweepCommit =>
    dsimp only at h
    split at h
    · rename_i candidates pinned hfound
      obtain ⟨rfl, rfl⟩ := Prod.mk.inj (Option.some.inj h)
      exact .swept candidates pinned rfl hfound rfl rfl rfl
    · cases h
  | sweepAdmit now =>
    dsimp only at h
    split at h
    · obtain ⟨rfl, rfl⟩ := Prod.mk.inj (Option.some.inj h)
      exact .offered _ _ _ le_rfl (fun t ht => by cases ht) rfl rfl rfl
    · cases h
  | sweepDone =>
    dsimp only at h
    split at h
    · obtain ⟨rfl, rfl⟩ := Prod.mk.inj (Option.some.inj h)
      exact .kept rfl rfl rfl
    · cases h

/-! ## Admissions -/

section Admissions

variable {options : WatchOptions} {seen : SeenSet} {c c' : Candidate} {now : ℤ} {observed : ℕ}

/-- What was admitted is the candidate, and the set is the one after its offer. -/
theorem admitFresh_eq_some (h : (admitFresh options seen c now observed).2 = some c') :
    c' = c ∧ (admitObserved options seen c observed).2 = true ∧
      (admitFresh options seen c now observed).1 = (admitObserved options seen c observed).1 := by
  unfold admitFresh at h ⊢
  split at h
  · rename_i hfresh
    rw [if_pos hfresh]
    dsimp only at h
    split at h
    · rename_i hadmitted
      exact ⟨(Option.some.inj h).symm, hadmitted, rfl⟩
    · cases h
  · cases h

/-- The set is as it was, or the one after an offer of the candidate. -/
theorem admitFresh_seen :
    (admitFresh options seen c now observed).1 = seen ∨
      (admitFresh options seen c now observed).1 = (admitObserved options seen c observed).1 ∧
      ((admitObserved options seen c observed).2 = true →
        (admitFresh options seen c now observed).2 = some c) := by
  unfold admitFresh
  split
  · exact .inr ⟨rfl, fun hadmitted => if_pos hadmitted⟩
  · exact .inl rfl

/-- The task is tracked at the generation `g` or a later one. -/
def Tracked (task : Pubkey) (g : ℕ) (seen : SeenSet) : Prop :=
  ∃ entry, seen.lookup task = some entry ∧ g ≤ entry.generation

theorem Tracked.admitFresh {task : Pubkey} {g : ℕ} (h : Tracked task g seen) :
    Tracked task g (admitFresh options seen c now observed).1 := by
  rcases @admitFresh_seen options seen c now observed with hsame | ⟨hseen, -⟩
  · rw [hsame]
    exact h
  · obtain ⟨entry, hentry, hg⟩ := h
    rw [hseen]
    by_cases htask : task = c.address
    · subst htask
      obtain ⟨entry', hentry', hlater, -⟩ := addIfAbsent_of_tracked hentry
      exact ⟨entry', hentry', hg.trans hlater⟩
    · exact ⟨entry, (addIfAbsent_other htask).trans hentry, hg⟩

/-- A tracked task is admitted at no smaller generation, and at a nonzero one only when that is
larger and the task is open without workers. -/
theorem Tracked.admitted {g : ℕ} (h : Tracked c'.address g seen)
    (hadmitted : (AgencCoordination.Sdk.admitFresh options seen c now observed).2 = some c') :
    g ≤ claimGeneration c'.account ∧ (claimGeneration c'.account ≠ 0 →
      isZeroWorkerOpen c'.account = true ∧ g < claimGeneration c'.account) := by
  obtain ⟨rfl, hoffer, -⟩ := admitFresh_eq_some hadmitted
  obtain ⟨entry, hentry, hg⟩ := h
  obtain ⟨_, -, -, hle, hnonzero, -⟩ := addIfAbsent_of_tracked hentry
  refine ⟨hg.trans (hle hoffer), fun hne => ?_⟩
  obtain ⟨hopen, hlt⟩ := hnonzero hoffer hne
  exact ⟨hopen, lt_of_le_of_lt hg hlt⟩

end Admissions

/-! ## Between two admissions -/

section Runs

variable {options : WatchOptions} {start final w w' : Watch} {log : List WatchEntry}
  {label : WatchAction × Option Candidate} {task : Pubkey} {g : ℕ}

/-- A tracked task stays tracked, at no smaller generation, unless a sweep misses it. -/
theorem WatchStep.tracked {e : WatchEntry} (h : WatchStep options e.before e.label e.after)
    (hswept : ¬SweptWithout task e) (ht : Tracked task g e.before.seen) :
    Tracked task g e.after.seen := by
  cases h.move with
  | kept same sweeps none =>
    rw [same]
    exact ht
  | offered c now observed current event seen sweeps admitted =>
    rw [seen]
    exact ht.admitFresh
  | swept candidates pinned commit found seen sweeps none =>
    have hmem : task ∈ candidates.map Candidate.address := by
      by_contra hmem
      exact hswept ⟨commit, candidates, pinned, found, hmem⟩
    obtain ⟨entry, hentry, hg⟩ := ht
    refine ⟨entry, ?_, hg⟩
    rw [seen, retainTasks, Ledger.lookup_filter, hentry, Option.filter_some, if_pos]
    exact decide_eq_true (.inl hmem)

/-- A step never exceeds the bound. -/
theorem WatchStep.size (h : WatchStep options w label w') (hsize : w.seen.size ≤ options.maxSeen) :
    w'.seen.size ≤ options.maxSeen := by
  cases h.move with
  | kept same sweeps none =>
    rw [same]
    exact hsize
  | offered c now observed current event seen sweeps admitted =>
    rw [seen]
    rcases @admitFresh_seen options w.seen c now observed with hsame | ⟨hseen, -⟩
    · rw [hsame]
      exact hsize
    · rw [hseen]
      exact addIfAbsent_size hsize
  | swept candidates pinned commit found seen sweeps none =>
    rw [seen]
    exact (Ledger.size_filter_le _ _).trans hsize

/-! ## The turn of a candidate -/

/-- The sweep's results wait for admission, the candidate among them. -/
def Waiting (c : Candidate) (w : Watch) : Prop :=
  ∃ deliveries, w.sweep = .admitting deliveries ∧ c ∈ deliveries

/-- The catch-up pump offers the candidate. -/
def OffersAt (c : Candidate) (now : ℤ) (e : WatchEntry) : Prop :=
  e.label.1 = .sweepAdmit now ∧ ∃ rest, e.before.sweep = .admitting (c :: rest)

/-- A candidate waits until it is offered. -/
theorem WatchStep.waits {c : Candidate} {e : WatchEntry}
    (h : WatchStep options e.before e.label e.after) (hoffer : ¬∃ now, OffersAt c now e)
    (hwaiting : Waiting c e.before) : Waiting c e.after := by
  obtain ⟨before, ⟨action, admitted⟩, after⟩ := e
  obtain ⟨deliveries, hsweep, hmem⟩ := hwaiting
  unfold WatchStep Watch.perform at h
  dsimp only at h hsweep
  cases action with
  | eventRead found =>
    dsimp only at h
    split at h
    · obtain ⟨rfl, rfl⟩ := Prod.mk.inj (Option.some.inj h)
      exact ⟨deliveries, hsweep, hmem⟩
    · cases h
  | eventAdmit now =>
    dsimp only at h
    split at h
    · obtain ⟨rfl, rfl⟩ := Prod.mk.inj (Option.some.inj h)
      exact ⟨deliveries, hsweep, hmem⟩
    · cases h
  | sweepRead candidates pinned => simp [hsweep] at h
  | sweepFail => simp [hsweep] at h
  | sweepCommit => simp [hsweep] at h
  | sweepAdmit now =>
    cases hmem with
    | head rest => exact absurd ⟨now, rfl, rest, hsweep⟩ hoffer
    | tail first hrest =>
      simp only [hsweep] at h
      obtain ⟨rfl, rfl⟩ := Prod.mk.inj (Option.some.inj h)
      exact ⟨_, rfl, hrest⟩
  | sweepDone =>
    cases hmem <;> simp [hsweep] at h

/-- An offered candidate that is claimable and not tracked is admitted while there is room. -/
theorem WatchStep.offers {c : Candidate} {now : ℤ} {e : WatchEntry}
    (h : WatchStep options e.before e.label e.after) (hoffer : OffersAt c now e)
    (hclaimable :
      isTaskStateDirectlyClaimable c.account (now + options.deadlineSafetySeconds) = true)
    (huntracked : e.before.seen.lookup c.address = none)
    (hroom : e.before.seen.size < options.maxSeen) : e.label.2 = some c := by
  obtain ⟨before, ⟨action, admitted⟩, after⟩ := e
  obtain ⟨hlabel, rest, hsweep⟩ := hoffer
  dsimp only at h hlabel hsweep huntracked hroom
  subst hlabel
  simp only [WatchStep, Watch.perform, hsweep, Option.some.injEq, Prod.mk.injEq] at h
  obtain ⟨-, rfl⟩ := h
  have hadmitted : (admitObserved options before.seen c before.successfulSweep).2 = true :=
    (addIfAbsent_of_untracked huntracked).1 hroom
  simp only [admitFresh, if_pos hclaimable, if_pos hadmitted]

/-! ## The next sweep -/

/-- The task is tracked and the marker of its last observation protects it from the next sweep. -/
def Shielded (task : Pubkey) (w : Watch) : Prop :=
  ∃ entry, w.seen.lookup task = some entry ∧ w.successfulSweep + 1 ≤ entry.lastObservedSweep

/-- No step forgets a shielded task, not even the sweep that completes next. -/
theorem Shielded.kept (hs : Shielded task w) (h : WatchStep options w label w') :
    Tracked task 0 w'.seen := by
  obtain ⟨entry, hentry, hlast⟩ := hs
  cases h.move with
  | kept same sweeps none =>
    rw [same]
    exact ⟨entry, hentry, Nat.zero_le _⟩
  | offered c now observed current event seen sweeps admitted =>
    rw [seen]
    exact Tracked.admitFresh ⟨entry, hentry, Nat.zero_le _⟩
  | swept candidates pinned commit found seen sweeps none =>
    refine ⟨entry, ?_, Nat.zero_le _⟩
    rw [seen, retainTasks, Ledger.lookup_filter, hentry, Option.filter_some, if_pos]
    exact decide_eq_true (.inr hlast)

/-! ## Every run -/

end Runs

/-! ## Fixed runs -/

/-- An action of a fixed run, when its label is the expected one. -/
def Watch.play (options : WatchOptions) (w : Watch) (label : WatchAction × Option Candidate) :
    Option Watch :=
  match w.perform options label.1 with
  | some (w', admitted) => if admitted = label.2 then some w' else none
  | none => none

theorem WatchStep.of_play {options : WatchOptions} {w w' : Watch}
    {label : WatchAction × Option Candidate} (h : w.play options label = some w') :
    WatchStep options w label w' := by
  unfold Watch.play at h
  unfold WatchStep
  split at h
  · rename_i w₁ admitted hperform
    split at h
    · rename_i hlabel
      rw [hperform, hlabel, Option.some.inj h]
    · cases h
  · cases h

end AgencCoordination.Sdk
