import AgencCoordination.Sdk.Claimable
import AgencCoordination.Foundations.Run

/-!
# The claimable-task watch

`watchClaimableTasks` of the SDK: one pump reads a task when an event names it and admits it
later, another sweeps over all candidates. Both admit into one bounded set of the tasks that
were seen, which decides what is delivered.

A step of the watch is one action of one pump between two suspensions. Reads go through one
lock, so a read is one action; what a read returns is up to the chain. After an abort no action
is taken, so aborts do not appear.
-/

namespace AgencCoordination.Sdk

open Foundations

/-! ## What is remembered of a task -/

/-- `claimGeneration`: the bytes 10 down to 3 of the reserved space. -/
def claimGeneration (task : TaskAccount) : ℕ :=
  [10, 9, 8, 7, 6, 5, 4, 3].foldl
    (fun generation index => generation * 256 + (task.reserved.getD index 0).toNat) 0

/-- What `dedupeKey` encodes. -/
inductive DedupeKey
  | legacy (task : Pubkey) (currentWorkers completions : ℕ)
  | generation (task : Pubkey) (generation : ℕ)
  deriving DecidableEq

/-- `dedupeKey`: the legacy counters stand in for the generation zero. -/
def dedupeKey (task : Pubkey) (currentWorkers completions generation : ℕ) : DedupeKey :=
  if generation = 0 then .legacy task currentWorkers completions
  else .generation task generation

/-- An entry of the `BoundedSeenSet`. -/
structure SeenEntry where
  key : DedupeKey
  generation : ℕ
  lastObservedSweep : ℕ
  deriving DecidableEq

/-- The entries of the `BoundedSeenSet`, by task. -/
abbrev SeenSet := Ledger Pubkey SeenEntry

/-- `addIfAbsent`: the set after it, and whether the state is admitted. -/
def addIfAbsent (maxSeen : ℕ) (seen : SeenSet) (task : Pubkey) (key : DedupeKey)
    (generation : ℕ) (isZeroWorkerOpen : Bool) (observedSweep : ℕ) : SeenSet × Bool :=
  match seen.lookup task with
  | some prior =>
      if generation < prior.generation then
        (seen.insert task { prior with
          lastObservedSweep := max prior.lastObservedSweep observedSweep }, false)
      else if 0 < generation then
        (seen.insert task ⟨key, generation, max prior.lastObservedSweep observedSweep⟩,
          isZeroWorkerOpen && decide (prior.generation < generation))
      else if prior.key = key then
        (seen.insert task { prior with
          lastObservedSweep := max prior.lastObservedSweep observedSweep }, false)
      else (seen.insert task ⟨key, generation, observedSweep⟩, true)
  | none =>
      if maxSeen ≤ seen.size then (seen, false)
      else (seen.insert task ⟨key, generation, observedSweep⟩, true)

/-- `retainTasks`: forget the absent tasks that were not observed since. -/
def retainTasks (seen : SeenSet) (tasks : List Pubkey) (sweep : ℕ) : SeenSet :=
  seen.filter fun task entry => decide (task ∈ tasks ∨ sweep ≤ entry.lastObservedSweep)

/-! ## The pumps -/

/-- A candidate of a read: a task's address and its account. -/
structure Candidate where
  address : Pubkey
  account : TaskAccount
  deriving DecidableEq

/-- The options the pumps use. -/
structure WatchOptions where
  maxSeen : ℕ
  deadlineSafetySeconds : ℤ

/-- Where the catch-up pump is: between sweeps, with the result of its reads, or handing over
what it found. -/
inductive SweepPhase
  | idle
  | read (candidates : List Candidate) (pinned : List Pubkey)
  | admitting (deliveries : List Candidate)
  deriving DecidableEq

/-- The state of a watch. `event` is the candidate the event pump has read and not yet
admitted. -/
structure Watch where
  seen : SeenSet := ∅
  successfulSweep : ℕ := 0
  event : Option Candidate := none
  sweep : SweepPhase := .idle

/-- The actions of the pumps. -/
inductive WatchAction
  | eventRead (found : Option Candidate)
  | eventAdmit (now : ℤ)
  | sweepRead (candidates : List Candidate) (pinned : List Pubkey)
  | sweepFail
  | sweepCommit
  | sweepAdmit (now : ℤ)
  | sweepDone
  deriving DecidableEq

/-- `account.status === TaskStatus.Open && account.currentWorkers === 0`. -/
def isZeroWorkerOpen (task : TaskAccount) : Bool :=
  decide (task.status = .Open ∧ task.currentWorkers = 0)

/-- `admit`: one offer of a candidate, as the sweep that observed it saw it. -/
def admitObserved (options : WatchOptions) (seen : SeenSet) (candidate : Candidate)
    (observedSweep : ℕ) : SeenSet × Bool :=
  let account := candidate.account
  addIfAbsent options.maxSeen seen candidate.address
    (dedupeKey candidate.address account.currentWorkers account.completions
      (claimGeneration account))
    (claimGeneration account) (isZeroWorkerOpen account) observedSweep

/-- Admit a candidate that is still claimable now; the result says which one was admitted. -/
def admitFresh (options : WatchOptions) (seen : SeenSet) (candidate : Candidate) (now : ℤ)
    (observedSweep : ℕ) : SeenSet × Option Candidate :=
  if isTaskStateDirectlyClaimable candidate.account (now + options.deadlineSafetySeconds) then
    let r := admitObserved options seen candidate observedSweep
    (r.1, if r.2 then some candidate else none)
  else (seen, none)

/-- The watch after an action, and the candidate the action admitted. -/
def Watch.perform (options : WatchOptions) (w : Watch) :
    WatchAction → Option (Watch × Option Candidate)
  | .eventRead found =>
      match w.event with
      | none => some ({ w with event := found }, none)
      | some _ => none
  | .eventAdmit now =>
      match w.event with
      | some candidate =>
          let r := admitFresh options w.seen candidate now (w.successfulSweep + 1)
          some ({ w with seen := r.1, event := none }, r.2)
      | none => none
  | .sweepRead candidates pinned =>
      match w.sweep with
      | .idle => some ({ w with sweep := .read candidates pinned }, none)
      | _ => none
  | .sweepFail =>
      match w.sweep with
      | .idle => some (w, none)
      | _ => none
  | .sweepCommit =>
      match w.sweep with
      | .read candidates pinned =>
          some ({ w with
            seen := retainTasks w.seen (candidates.map Candidate.address) (w.successfulSweep + 1)
            successfulSweep := w.successfulSweep + 1
            sweep := .admitting (candidates.filter fun c => decide (c.address ∈ pinned)) }, none)
      | _ => none
  | .sweepAdmit now =>
      match w.sweep with
      | .admitting (candidate :: rest) =>
          let r := admitFresh options w.seen candidate now w.successfulSweep
          some ({ w with seen := r.1, sweep := .admitting rest }, r.2)
      | _ => none
  | .sweepDone =>
      match w.sweep with
      | .admitting [] => some ({ w with sweep := .idle }, none)
      | _ => none

/-- One action of a watch, with the candidate it admitted. -/
def WatchStep (options : WatchOptions) (w : Watch) (label : WatchAction × Option Candidate)
    (w' : Watch) : Prop :=
  w.perform options label.1 = some (w', label.2)

/-- An action of a run. -/
abbrev WatchEntry := Event Watch (WatchAction × Option Candidate)

/-- A complete successful sweep in which the task was absent. -/
def SweptWithout (task : Pubkey) (e : WatchEntry) : Prop :=
  e.label.1 = .sweepCommit ∧ ∃ candidates pinned, e.before.sweep = .read candidates pinned ∧
    task ∉ candidates.map Candidate.address

end AgencCoordination.Sdk
