import Mathlib.Algebra.GroupWithZero.Nat
import Mathlib.Data.Nat.Notation
import Mathlib.Algebra.BigOperators.Group.List.Basic
import Mathlib.Data.List.Induction
import Mathlib.Tactic.Common

/-!
# Runs of a labelled transition system

A run is a sequence of steps with its log: for every step the state before, the label and the
state after. The module has the rules by which a property of one step becomes a property of
whole runs:

* **`Run.invariant`** — what every step preserves holds at the end of every run that starts
  with it, also when the steps of the run are restricted by a condition (`Run.invariant_of`).
* **`Run.split_mem`** — an event of the log splits the run into what came before and after.
* **`Run.countP_eq`**, **`Run.countP_le_one`** — an event that a lasting condition excludes and
  that leads to it happens once, or at most once, in a run.
* **`Run.Since`** — what happened after the last event of a kind.
* **`Run.balance`** — when every step balances what is held against what goes in and out, so
  does the run.
-/

namespace Foundations

/-- One step of a run, as the log keeps it. -/
structure Event (State Label : Type) where
  before : State
  label : Label
  after : State

variable {State Label : Type}

/-- The runs from `start`, with the log and the state they reach. -/
inductive Run (step : State → Label → State → Prop) (start : State) :
    List (Event State Label) → State → Prop
  | refl : Run step start [] start
  | snoc {log : List (Event State Label)} {s s' : State} {label : Label} :
      Run step start log s → step s label s' → Run step start (log ++ [⟨s, label, s'⟩]) s'

namespace Run

variable {step : State → Label → State → Prop} {start mid final : State}
  {log log₁ log₂ : List (Event State Label)}

/-- A run of fewer steps is a run of more. -/
theorem mono {step' : State → Label → State → Prop} (h : Run step start log final)
    (hstep : ∀ s label s', step s label s' → step' s label s') : Run step' start log final := by
  induction h with
  | refl => exact .refl
  | snoc _ hs ih => exact .snoc ih (hstep _ _ _ hs)

/-- Runs compose. -/
theorem append (h₁ : Run step start log₁ mid) (h₂ : Run step mid log₂ final) :
    Run step start (log₁ ++ log₂) final := by
  induction h₂ with
  | refl => rwa [List.append_nil]
  | snoc _ hs ih =>
    rw [← List.append_assoc]
    exact .snoc ih hs

/-- A run with an empty log has not moved. -/
theorem eq_of_nil (h : Run step start [] final) : final = start := by
  generalize hl : ([] : List (Event State Label)) = l at h
  cases h with
  | refl => rfl
  | snoc => simp at hl

/-- The last event of a log is the last step of the run. -/
theorem snoc_inv {e : Event State Label} (h : Run step start (log ++ [e]) final) :
    Run step start log e.before ∧ step e.before e.label e.after ∧ e.after = final := by
  generalize hl : log ++ [e] = l at h
  cases h with
  | refl => simp at hl
  | snoc hr hs =>
    obtain ⟨rfl, he⟩ := List.append_inj' hl rfl
    obtain rfl : e = _ := by simpa using he
    exact ⟨hr, hs, rfl⟩

/-- A run splits wherever its log does. -/
theorem split (h : Run step start (log₁ ++ log₂) final) :
    ∃ mid, Run step start log₁ mid ∧ Run step mid log₂ final := by
  induction log₂ using List.reverseRecOn generalizing final with
  | nil => exact ⟨final, by rwa [List.append_nil] at h, .refl⟩
  | append_singleton log₂ e ih =>
    rw [← List.append_assoc] at h
    obtain ⟨hr, hs, rfl⟩ := h.snoc_inv
    obtain ⟨mid, h₁, h₂⟩ := ih hr
    exact ⟨mid, h₁, .snoc h₂ hs⟩

/-- A run whose log starts with an event starts with that step. -/
theorem cons_inv {e : Event State Label} (h : Run step start (e :: log) final) :
    e.before = start ∧ step e.before e.label e.after ∧ Run step e.after log final := by
  have h : Run step start ([e] ++ log) final := h
  obtain ⟨mid, h₁, h₂⟩ := h.split
  have h₁ : Run step start ([] ++ [e]) mid := h₁
  obtain ⟨h₀, hs, rfl⟩ := h₁.snoc_inv
  exact ⟨h₀.eq_of_nil, hs, h₂⟩

/-- An event in the middle of a log: the run before it, its step, and the run after it. -/
theorem split_at {e : Event State Label} (h : Run step start (log₁ ++ e :: log₂) final) :
    Run step start log₁ e.before ∧ step e.before e.label e.after ∧
      Run step e.after log₂ final := by
  obtain ⟨mid, h₁, h₂⟩ := h.split
  obtain ⟨rfl, hs, h₃⟩ := h₂.cons_inv
  exact ⟨h₁, hs, h₃⟩

theorem split_mem {e : Event State Label} (h : Run step start log final) (he : e ∈ log) :
    ∃ log₁ log₂, log = log₁ ++ e :: log₂ ∧ Run step start log₁ e.before ∧
      step e.before e.label e.after ∧ Run step e.after log₂ final := by
  obtain ⟨log₁, log₂, rfl⟩ := List.append_of_mem he
  exact ⟨log₁, log₂, rfl, h.split_at⟩

/-! ## Executing a script -/

/-- The state after a list of inputs, for a system whose steps are computed by `exec`. -/
def play {Input Output Error : Type} (exec : State → Input → Except Error (State × Output)) :
    State → List Input → Except Error State
  | s, [] => .ok s
  | s, i :: rest => do
      let r ← exec s i
      play exec r.1 rest

/-- What a script plays is a run, whose inputs are those of the script. -/
theorem of_play_mem {Input Output Error : Type}
    {exec : State → Input → Except Error (State × Output)} {script : List Input}
    (h : play exec start script = .ok final) :
    ∃ log : List (Event State (Input × Output)),
      Run (fun s (label : Input × Output) s' => exec s label.1 = .ok (s', label.2)) start log
        final ∧ ∀ e ∈ log, e.label.1 ∈ script := by
  induction script generalizing start with
  | nil =>
    obtain rfl := Except.ok.inj h
    exact ⟨[], .refl, by simp⟩
  | cons i rest ih =>
    rw [play] at h
    cases hexec : exec start i with
    | error e =>
      rw [hexec] at h
      cases h
    | ok r =>
      rw [hexec] at h
      obtain ⟨log, hrun, hmem⟩ := ih h
      have hfirst : Run (fun s (label : Input × Output) s' => exec s label.1 = .ok (s', label.2))
          start [⟨start, (i, r.2), r.1⟩] r.1 := .snoc .refl hexec
      refine ⟨_, hfirst.append hrun, fun e he => ?_⟩
      rcases List.mem_append.mp he with he | he
      · rw [List.mem_singleton.mp he]
        exact List.mem_cons_self
      · exact List.mem_cons_of_mem _ (hmem e he)

/-- What a script plays is a run. -/
theorem of_play {Input Output Error : Type}
    {exec : State → Input → Except Error (State × Output)} {script : List Input}
    (h : play exec start script = .ok final) :
    ∃ log, Run (fun s (label : Input × Output) s' => exec s label.1 = .ok (s', label.2)) start log
      final := by
  obtain ⟨log, hrun, -⟩ := of_play_mem h
  exact ⟨log, hrun⟩

/-- The state after a list of inputs, with the log. -/
def record {Input Output Error : Type} (exec : State → Input → Except Error (State × Output)) :
    State → List Input → Except Error (State × List (Event State (Input × Output)))
  | s, [] => .ok (s, [])
  | s, i :: rest => do
      let r ← exec s i
      let (final, log) ← record exec r.1 rest
      .ok (final, ⟨s, (i, r.2), r.1⟩ :: log)

/-- What is recorded is a run. -/
theorem of_record {Input Output Error : Type}
    {exec : State → Input → Except Error (State × Output)} {script : List Input}
    {log : List (Event State (Input × Output))}
    (h : record exec start script = .ok (final, log)) :
    Run (fun s (label : Input × Output) s' => exec s label.1 = .ok (s', label.2)) start log
      final := by
  induction script generalizing start log with
  | nil =>
    obtain ⟨rfl, rfl⟩ := Prod.mk.inj (Except.ok.inj h)
    exact .refl
  | cons i rest ih =>
    rw [record] at h
    cases hexec : exec start i with
    | error e =>
      rw [hexec] at h
      cases h
    | ok r =>
      rw [hexec] at h
      cases hrest : record exec r.1 rest with
      | error e =>
        simp only [bind, Except.bind, hrest] at h
        cases h
      | ok r' =>
        simp only [bind, Except.bind, hrest] at h
        obtain ⟨rfl, rfl⟩ := Prod.mk.inj (Except.ok.inj h)
        have hfirst : Run (fun s (label : Input × Output) s' =>
            exec s label.1 = .ok (s', label.2)) start [⟨start, (i, r.2), r.1⟩] r.1 :=
          .snoc .refl hexec
        exact hfirst.append (ih hrest)

/-- The record names the inputs in their order. -/
theorem record_inputs {Input Output Error : Type}
    {exec : State → Input → Except Error (State × Output)} {script : List Input}
    {log : List (Event State (Input × Output))}
    (h : record exec start script = .ok (final, log)) : log.map (fun e => e.label.1) = script := by
  induction script generalizing start log with
  | nil =>
    obtain ⟨rfl, rfl⟩ := Prod.mk.inj (Except.ok.inj h)
    rfl
  | cons i rest ih =>
    rw [record] at h
    cases hexec : exec start i with
    | error e =>
      rw [hexec] at h
      cases h
    | ok r =>
      rw [hexec] at h
      cases hrest : record exec r.1 rest with
      | error e =>
        simp only [bind, Except.bind, hrest] at h
        cases h
      | ok r' =>
        simp only [bind, Except.bind, hrest] at h
        obtain ⟨rfl, rfl⟩ := Prod.mk.inj (Except.ok.inj h)
        rw [List.map_cons, ih hrest]

/-- A script of labels, for a system whose steps are computed by a partial `exec`, is a run with
these labels. -/
theorem of_foldlM_labels {exec : State → Label → Option State} {script : List Label}
    (h : script.foldlM exec start = some final) :
    ∃ log, Run (fun s label s' => exec s label = some s') start log final ∧
      log.map Event.label = script := by
  induction script generalizing start with
  | nil =>
    obtain rfl := Option.some.inj h
    exact ⟨[], .refl, rfl⟩
  | cons label rest ih =>
    rw [List.foldlM_cons] at h
    obtain ⟨s, hexec, h⟩ := Option.bind_eq_some_iff.mp h
    obtain ⟨log, hrun, hlabels⟩ := ih h
    have hfirst : Run (fun s label s' => exec s label = some s') start [⟨start, label, s⟩] s :=
      .snoc .refl hexec
    refine ⟨_, hfirst.append hrun, ?_⟩
    rw [List.map_append, hlabels]
    rfl

/-- A script of labels, for a system whose steps are computed by a partial `exec`, is a run. -/
theorem of_foldlM {exec : State → Label → Option State} {script : List Label}
    (h : script.foldlM exec start = some final) :
    ∃ log, Run (fun s label s' => exec s label = some s') start log final := by
  obtain ⟨log, hrun, -⟩ := of_foldlM_labels h
  exact ⟨log, hrun⟩

/-! ## Invariants -/

/-- What every step of a run preserves holds at its end, when the condition `C` restricts the
steps the run may take. -/
theorem invariant_of {I : State → Prop} {C : Event State Label → Prop}
    (hstep : ∀ e : Event State Label, step e.before e.label e.after → C e →
      I e.before → I e.after)
    (h : Run step start log final) (hC : ∀ e ∈ log, C e) (h₀ : I start) : I final := by
  induction h with
  | refl => exact h₀
  | snoc _ hs ih =>
    have hI := ih fun e he => hC e (List.mem_append_left _ he)
    exact hstep _ hs (hC _ (List.mem_append_right _ (List.mem_singleton_self _))) hI

theorem invariant {I : State → Prop}
    (hstep : ∀ s label s', step s label s' → I s → I s')
    (h : Run step start log final) (h₀ : I start) : I final :=
  h.invariant_of (C := fun _ => True) (fun _ hs _ hI => hstep _ _ _ hs hI) (fun _ _ => trivial) h₀

/-- An invariant holds before every step of the run. -/
theorem invariant_mem {I : State → Prop}
    (hstep : ∀ s label s', step s label s' → I s → I s')
    (h : Run step start log final) (h₀ : I start) {e : Event State Label} (he : e ∈ log) :
    I e.before ∧ step e.before e.label e.after := by
  obtain ⟨_, _, _, hr, hs, _⟩ := h.split_mem he
  exact ⟨hr.invariant hstep h₀, hs⟩

/-! ## Counting events -/

/-- Events of the kind `P` happen where `Q` fails and lead to `Q`, which then lasts: a run has at
most one of them, and none once `Q` holds. -/
theorem countP_add_le {I Q : State → Prop} [DecidablePred Q] {P : Event State Label → Bool}
    (hI : ∀ s label s', step s label s' → I s → I s')
    (fires : ∀ e : Event State Label, step e.before e.label e.after → I e.before → P e = true →
      ¬Q e.before ∧ Q e.after)
    (stays : ∀ s label s', step s label s' → I s → Q s → Q s')
    (h : Run step start log final) (h₀ : I start) :
    log.countP P + (if Q start then 1 else 0) ≤ if Q final then 1 else 0 := by
  induction h with
  | refl => simp
  | @snoc log s s' label hr hs ih =>
    have hIs := hr.invariant hI h₀
    rw [List.countP_append, List.countP_singleton]
    by_cases hP : P ⟨s, label, s'⟩ = true
    · obtain ⟨hnot, hafter⟩ := fires _ hs hIs hP
      rw [if_neg hnot] at ih
      rw [if_pos hP, if_pos hafter]
      omega
    · rw [if_neg hP]
      by_cases hQ : Q s
      · rw [if_pos hQ] at ih
        rw [if_pos (stays _ _ _ hs hIs hQ)]
        omega
      · rw [if_neg hQ] at ih
        omega

theorem countP_le_one {I Q : State → Prop} [DecidablePred Q] {P : Event State Label → Bool}
    (hI : ∀ s label s', step s label s' → I s → I s')
    (fires : ∀ e : Event State Label, step e.before e.label e.after → I e.before → P e = true →
      ¬Q e.before ∧ Q e.after)
    (stays : ∀ s label s', step s label s' → I s → Q s → Q s')
    (h : Run step start log final) (h₀ : I start) : log.countP P ≤ 1 := by
  have hle := countP_add_le hI fires stays h h₀
  split_ifs at hle <;> omega

/-- When nothing else leads to `Q`, the run has exactly one such event where `Q` came to hold. -/
theorem countP_eq {I Q : State → Prop} [DecidablePred Q] {P : Event State Label → Bool}
    (hI : ∀ s label s', step s label s' → I s → I s')
    (fires : ∀ e : Event State Label, step e.before e.label e.after → I e.before → P e = true →
      ¬Q e.before ∧ Q e.after)
    (stays : ∀ s label s', step s label s' → I s → Q s → Q s')
    (only : ∀ e : Event State Label, step e.before e.label e.after → I e.before → ¬Q e.before →
      Q e.after → P e = true)
    (h : Run step start log final) (h₀ : I start) (hstart : ¬Q start) :
    log.countP P = if Q final then 1 else 0 := by
  induction h with
  | refl => simp [hstart]
  | @snoc log s s' label hr hs ih =>
    have hIs := hr.invariant hI h₀
    rw [List.countP_append, List.countP_singleton, ih]
    by_cases hP : P ⟨s, label, s'⟩ = true
    · obtain ⟨hnot, hafter⟩ := fires _ hs hIs hP
      rw [if_pos hP, if_neg hnot, if_pos hafter]
    · rw [if_neg hP]
      by_cases hQ : Q s
      · rw [if_pos hQ, if_pos (stays _ _ _ hs hIs hQ)]
      · have hafter : ¬Q s' := fun hQ' => hP (only ⟨s, label, s'⟩ hs hIs hQ hQ')
        rw [if_neg hQ, if_neg hafter]

/-- A clock that no step sets back has not passed the end of a run at any of its events. -/
theorem clock_le {Time : Type} [Preorder Time] {clock : State → Time}
    (hclock : ∀ s label s', step s label s' → clock s ≤ clock s') (h : Run step start log final) :
    ∀ e ∈ log, clock e.before ≤ clock final := by
  induction h with
  | refl => simp
  | @snoc log s s' label _ hs ih =>
    intro e he
    have hlast := hclock s label s' hs
    rcases List.mem_append.mp he with he | he
    · exact (ih e he).trans hlast
    · rw [List.mem_singleton.mp he]
      exact hlast

/-! ## Records -/

section Records

variable {Record : Type} (record : State → Option Record) {P : Event State Label → Bool}

/-- A record that is written once and then stays counts the events that write it. -/
theorem countP_written (h : Run step start log final)
    (hwrite : ∀ e : Event State Label, step e.before e.label e.after →
      record e.after = record e.before ∧ P e = false ∨
        record e.before = none ∧ (record e.after).isSome = true ∧ P e = true)
    (hstart : record start = none) :
    log.countP P = if (record final).isSome = true then 1 else 0 := by
  refine h.countP_eq (I := fun _ => True) (Q := fun s => (record s).isSome = true)
    (fun _ _ _ _ _ => trivial) ?_ ?_ ?_ trivial (by rw [hstart]; simp)
  · intro e hs _ hP
    rcases hwrite e hs with ⟨-, hplain⟩ | ⟨hnone, hsome, -⟩
    · rw [hP] at hplain
      cases hplain
    · rw [hnone]
      exact ⟨by simp, hsome⟩
  · intro s label s' hs _ hsome
    rcases hwrite ⟨s, label, s'⟩ hs with ⟨hsame, -⟩ | ⟨hnone, -⟩
    · rw [hsame]
      exact hsome
    · rw [hnone] at hsome
      cases hsome
  · intro e hs _ hbefore hafter
    rcases hwrite e hs with ⟨hsame, -⟩ | ⟨-, -, hP⟩
    · rw [hsame] at hafter
      exact absurd hafter hbefore
    · exact hP

/-- A record that is written once stays. -/
theorem written_stays (h : Run step start log final)
    (hwrite : ∀ e : Event State Label, step e.before e.label e.after →
      record e.after = record e.before ∧ P e = false ∨
        record e.before = none ∧ (record e.after).isSome = true ∧ P e = true)
    {r : Record} (hstart : record start = some r) :
    record final = some r := by
  refine h.invariant (I := fun s => record s = some r) ?_ hstart
  intro s label s' hs hrecord
  rcases hwrite ⟨s, label, s'⟩ hs with ⟨hsame, -⟩ | ⟨hnone, -⟩
  · rw [← hrecord]
    exact hsame
  · rw [hnone] at hrecord
    cases hrecord

end Records

/-! ## Since -/

/-- The log has an event of the kind `P` after its last event of the kind `C`. -/
def Since (C P : Event State Label → Prop) (log : List (Event State Label)) : Prop :=
  ∃ log₁ e log₂, log = log₁ ++ e :: log₂ ∧ P e ∧ ∀ e' ∈ log₂, ¬C e'

theorem since_snoc {C P : Event State Label → Prop} {e : Event State Label} :
    Since C P (log ++ [e]) ↔ P e ∨ Since C P log ∧ ¬C e := by
  constructor
  · rintro ⟨log₁, e₀, log₂, hlog, hP, hC⟩
    rcases List.eq_nil_or_concat' log₂ with rfl | ⟨log₃, e₁, rfl⟩
    · obtain ⟨-, he⟩ := List.append_inj' hlog rfl
      obtain rfl := List.singleton_inj.mp he
      exact .inl hP
    · rw [← List.cons_append, ← List.append_assoc] at hlog
      obtain ⟨hinit, he⟩ := List.append_inj' hlog rfl
      obtain rfl := List.singleton_inj.mp he
      exact .inr ⟨⟨log₁, e₀, log₃, hinit, hP, fun e' he' => hC e' (List.mem_append_left _ he')⟩,
        hC e (List.mem_append_right _ (List.mem_singleton_self e))⟩
  · rintro (hP | ⟨⟨log₁, e₀, log₂, rfl, hP, hC⟩, hnot⟩)
    · exact ⟨log, e, [], rfl, hP, by simp⟩
    · refine ⟨log₁, e₀, log₂ ++ [e], by simp, hP, fun e' he' => ?_⟩
      rcases List.mem_append.mp he' with he' | he'
      · exact hC e' he'
      · rw [List.mem_singleton.mp he']
        exact hnot

/-! ## Accounting -/

/-- The sum of a quantity over a log. -/
def sumOver (f : Event State Label → ℕ) (log : List (Event State Label)) : ℕ := (log.map f).sum

@[simp] theorem sumOver_nil (f : Event State Label → ℕ) : sumOver f [] = 0 := rfl

@[simp] theorem sumOver_append (f : Event State Label → ℕ) (l₁ l₂ : List (Event State Label)) :
    sumOver f (l₁ ++ l₂) = sumOver f l₁ + sumOver f l₂ := by
  simp [sumOver]

@[simp] theorem sumOver_cons (f : Event State Label → ℕ) (e : Event State Label)
    (l : List (Event State Label)) : sumOver f (e :: l) = f e + sumOver f l := by
  simp [sumOver]

/-- When every step of a run balances what is held against what comes in and goes out, so does
the run. -/
theorem balance {held : State → ℕ} {inflow outflow : Event State Label → ℕ}
    (h : Run step start log final)
    (hb : ∀ e ∈ log, held e.before + inflow e = held e.after + outflow e) :
    held start + sumOver inflow log = held final + sumOver outflow log := by
  induction h with
  | refl => simp
  | @snoc log s s' label _ _ ih =>
    have hlast := hb ⟨s, label, s'⟩ (List.mem_append_right _ (List.mem_singleton_self _))
    have hrest := ih fun e he => hb e (List.mem_append_left _ he)
    simp only [sumOver_append, sumOver_cons, sumOver_nil] at *
    omega

/-- When every step of a run takes what it pays out of what is held, so does the run. -/
theorem spends (held : State → ℕ) {outflow : Event State Label → ℕ}
    (h : Run step start log final) (hb : ∀ e ∈ log, held e.before = held e.after + outflow e) :
    held start = held final + sumOver outflow log := by
  have hbalance : held start + sumOver (fun _ => 0) log = held final + sumOver outflow log :=
    h.balance hb
  rwa [show sumOver (fun _ => 0) log = 0 by simp [sumOver], Nat.add_zero] at hbalance

/-- When every step of a run adds what comes in to what is held, so does the run. -/
theorem grows (held : State → ℕ) {inflow : Event State Label → ℕ}
    (h : Run step start log final) (hb : ∀ e ∈ log, held e.after = held e.before + inflow e) :
    held final = held start + sumOver inflow log := by
  have hbalance : held start + sumOver inflow log = held final + sumOver (fun _ => 0) log :=
    h.balance fun e he => (hb e he).symm
  rw [hbalance, show sumOver (fun _ => 0) log = 0 by simp [sumOver], Nat.add_zero]

/-- A sum that is zero has no other terms. -/
theorem eq_zero_of_sumOver {f : Event State Label → ℕ} {l : List (Event State Label)}
    (h : sumOver f l = 0) {e : Event State Label} (he : e ∈ l) : f e = 0 := by
  obtain ⟨l₁, l₂, rfl⟩ := List.append_of_mem he
  rw [sumOver_append, sumOver_cons] at h
  omega

theorem sumOver_add (f g : Event State Label → ℕ) (l : List (Event State Label)) :
    sumOver (fun e => f e + g e) l = sumOver f l + sumOver g l := List.sum_map_add

/-- Counting events is summing over them. -/
theorem sumOver_ite (P : Event State Label → Bool) (l : List (Event State Label)) :
    sumOver (fun e => if P e = true then 1 else 0) l = l.countP P := by
  induction l with
  | nil => rfl
  | cons e l ih => rw [sumOver_cons, ih, List.countP_cons, Nat.add_comm]

/-- When every step that leads to `Q` is an opening (`O`) and every step that ends it a closing
(`C`), there are as many closings as openings, and one less while `Q` holds. -/
theorem countP_balance {Q : State → Prop} [DecidablePred Q] {O C : Event State Label → Bool}
    (h : Run step start log final)
    (hb : ∀ e ∈ log, (if Q e.before then 1 else 0) + (if O e = true then 1 else 0) =
      (if Q e.after then 1 else 0) + if C e = true then 1 else 0) :
    (if Q start then 1 else 0) + log.countP O = (if Q final then 1 else 0) + log.countP C := by
  have hsum := @balance State Label step start final log (fun s => if Q s then 1 else 0) _ _ h hb
  rwa [sumOver_ite, sumOver_ite] at hsum

end Run

end Foundations
