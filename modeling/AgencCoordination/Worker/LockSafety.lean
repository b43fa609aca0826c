import AgencCoordination.Worker.StateLock
import Mathlib.Tactic.Common

/-!
# At most one process holds the state directory

Whether the lock excludes rests on one step: the unlink of a reaper marker whose process is
gone. The code compares the marker at the path with the one it observed and unlinks the path
after that, and in between another contender can have removed the dead marker and a third one
published its own.

* **`LockState.Sound`** — the invariant: a live owner's inode is the one at `.active.lock`, a
  contender that reclaims has observed the lock of a call whose process is gone, its marker
  stands, and no two calls share a marker.
* **`LockState.Sound.perform`** — every step keeps it, unless it unlinks the marker of a live
  reaper (`MarkersKept`).
* **`state_lock_exclusive`** — in the runs without such a step, at most one call of a live
  process holds the lock, and a release unlinks only the lock of its own call.
* **`state_lock_shared`** — with such a step, two live processes hold it.
-/

namespace AgencCoordination.Worker

open Foundations

/-! ## What a program counter promises -/

/-- From the publication of the lock to its unlink. -/
def Pc.owns : Pc → Bool
  | .sync | .retract | .retractUnlink | .held | .release | .releaseUnlink => true
  | _ => false

theorem Pc.owns_of_holds {pc : Pc} (h : pc.holds = true) : pc.owns = true := by
  cases pc <;> first | rfl | cases h

/-- The observed lock and its nonce, once its owner was found gone. -/
def Pc.stale : Pc → Option (Inode × Nonce)
  | .mark _ observation target => some (observation, target)
  | .syncMark r | .compare r | .reclaim r => some (r.observation, r.target)
  | _ => none

/-- The target and the nonce of the call's marker, from its publication to its unlink. -/
def Pc.marker : Pc → Option (Nonce × Nonce)
  | .syncMark r | .compare r | .reclaim r => some (r.target, r.nonce)
  | .unmark target nonce _ | .unlinkMarker target nonce _ => some (target, nonce)
  | _ => none

/-- The observed lock that is read next. -/
def Pc.seen : Pc → Option Inode
  | .inspect _ observation => some observation
  | _ => none

/-- The observed lock that the next system call unlinks. -/
def Pc.reclaims : Pc → Option Inode
  | .reclaim r => some r.observation
  | _ => none

@[simp] theorem retry_owns (a : ℕ) : (retry a).owns = false := by
  unfold retry
  split <;> rfl

@[simp] theorem retry_stale (a : ℕ) : (retry a).stale = none := by
  unfold retry
  split <;> rfl

@[simp] theorem retry_marker (a : ℕ) : (retry a).marker = none := by
  unfold retry
  split <;> rfl

@[simp] theorem retry_seen (a : ℕ) : (retry a).seen = none := by
  unfold retry
  split <;> rfl

@[simp] theorem retry_reclaims (a : ℕ) : (retry a).reclaims = none := by
  unfold retry
  split <;> rfl

/-- A program counter that promises nothing about the directory. -/
def Pc.Free (pc : Pc) : Prop :=
  pc.owns = false ∧ pc.seen = none ∧ pc.stale = none ∧ pc.marker = none ∧ pc.reclaims = none

theorem retry_free (a : ℕ) : (retry a).Free := by simp [Pc.Free]

theorem resume_free (resume : Option ℕ) (synced : Bool) :
    (if synced then (resume.map retry).getD .failed else .failed).Free := by
  split
  · cases resume with
    | none => exact ⟨rfl, rfl, rfl, rfl, rfl⟩
    | some a => exact retry_free a
  · exact ⟨rfl, rfl, rfl, rfl, rfl⟩

/-- The record names the process of the call. -/
def WrittenBy (b : LockBody) (c : Call) : Prop :=
  b.pid = c.pid ∧ (b.identity = none ∨ b.identity = some c.process)

/-- The check never takes a live process for a dead one. -/
theorem processStillOwnsLock_of_live {s : LockState} {c : Call} {owner : LockOwner}
    (hlive : s.Live c) (hpid : owner.pid = c.pid)
    (hid : owner.identity = none ∨ owner.identity = some c.process) (readable : Bool) :
    processStillOwnsLock s.running readable owner = true := by
  have hrun : s.running owner.pid = some c.process := by
    rw [hpid]
    exact hlive
  unfold processStillOwnsLock
  rw [hrun]
  rcases hid with hid | hid
  · simp [hid]
  · simp [hid]

/-! ## The invariant -/

namespace LockState

/-- The call of that nonce, if there is one, is of a process that is gone. -/
def Gone (s : LockState) (n : Nonce) : Prop := ∀ c, s.calls n = some c → ¬s.Live c

/-- A live call whose marker for `target` is the one with this nonce. -/
def Reaps (s : LockState) (target nonce : Nonce) : Prop :=
  ∃ n c, s.calls n = some c ∧ s.Live c ∧ c.pc.marker = some (target, nonce)

/-- What the directory owes to one call. -/
structure Keeps (s : LockState) (n : Nonce) (c : Call) : Prop where
  owner : s.Live c → c.pc.owns = true →
    ∃ i, s.lock = some i ∧ (s.body i).nonce = n ∧ (s.body i).targetNonce = none
  seen : ∀ i, c.pc.seen = some i → i < s.inodes
  stale : ∀ i target, c.pc.stale = some (i, target) →
    i < s.inodes ∧ (s.body i).nonce = target ∧ s.Gone target
  marker : ∀ target nonce, c.pc.marker = some (target, nonce) → nonce < s.fresh ∧
    (s.Live c → ∃ i, s.reaper target = some i ∧ (s.body i).nonce = nonce)
  reclaims : s.Live c → ∀ i, c.pc.reclaims = some i → s.lock = some i

structure Sound (s : LockState) : Prop where
  running_lt : ∀ pid process, s.running pid = some process → process < s.fresh
  call_lt : ∀ n c, s.calls n = some c → n < s.fresh ∧ c.process < s.fresh
  identity : ∀ n c, s.calls n = some c → c.identity = none ∨ c.identity = some c.process
  nonce_lt : ∀ i < s.inodes, (s.body i).nonce < s.fresh
  lock_lt : ∀ i, s.lock = some i → i < s.inodes
  reaper_lt : ∀ target i, s.reaper target = some i → i < s.inodes
  written : ∀ i < s.inodes, ∀ c, s.calls (s.body i).nonce = some c → WrittenBy (s.body i) c
  keeps : ∀ n c, s.calls n = some c → s.Keeps n c
  /-- No two calls share a marker. -/
  apart : ∀ n n' c c' target target' nonce, s.calls n = some c → s.calls n' = some c' →
    c.pc.marker = some (target, nonce) → c'.pc.marker = some (target', nonce) → n = n'

/-- The directory as earlier processes left it: no call of theirs runs any more. -/
structure Initial (s : LockState) : Prop where
  calls : ∀ n, s.calls n = none
  running_lt : ∀ pid process, s.running pid = some process → process < s.fresh
  nonce_lt : ∀ i < s.inodes, (s.body i).nonce < s.fresh
  lock_lt : ∀ i, s.lock = some i → i < s.inodes
  reaper_lt : ∀ target i, s.reaper target = some i → i < s.inodes

variable {s s' : LockState} {n : Nonce} {c : Call}

theorem Initial.sound (h : s.Initial) : s.Sound where
  running_lt := h.running_lt
  call_lt n c hc := by rw [h.calls n] at hc; cases hc
  identity n c hc := by rw [h.calls n] at hc; cases hc
  nonce_lt := h.nonce_lt
  lock_lt := h.lock_lt
  reaper_lt := h.reaper_lt
  written i _ c hc := by rw [h.calls] at hc; cases hc
  keeps n c hc := by rw [h.calls n] at hc; cases hc
  apart n n' c c' _ _ _ hc _ _ _ := by rw [h.calls n] at hc; cases hc

/-! ## What the parts of a step keep -/

@[simp] theorem goto_calls (pc : Pc) :
    (s.goto n c pc).calls = Function.update s.calls n (some { c with pc := pc }) := rfl

/-- The calls of `s` after one of them moved on. -/
theorem calls_goto {pc : Pc} {n' : Nonce} {c' : Call} (hc' : (s.goto n c pc).calls n' = some c') :
    n' = n ∧ c' = { c with pc := pc } ∨ n' ≠ n ∧ s.calls n' = some c' := by
  by_cases hn : n' = n
  · subst hn
    rw [goto_calls, Function.update_self] at hc'
    exact .inl ⟨rfl, (Option.some.inj hc').symm⟩
  · rw [goto_calls, Function.update_of_ne hn] at hc'
    exact .inr ⟨hn, hc'⟩

/-- A change of program counters buries no one and revives no one. -/
theorem gone_goto (hc : s.calls n = some c) (pc : Pc) (m : Nonce) :
    (s.goto n c pc).Gone m ↔ s.Gone m := by
  unfold Gone
  by_cases hm : m = n
  · subst hm
    simp only [goto_calls, Function.update_self, Option.some.injEq, forall_eq', hc]
    exact Iff.rfl
  · simp only [goto_calls, Function.update_of_ne hm]
    exact Iff.rfl

/-- A call moves on, to a program counter whose promises the directory keeps. Its marker is the
one it had, or nobody's. -/
theorem Sound.goto (h : s.Sound) (hc : s.calls n = some c) {pc : Pc}
    (hkeeps : s.Keeps n { c with pc := pc })
    (hmarker : ∀ target nonce, pc.marker = some (target, nonce) →
      (∃ target', c.pc.marker = some (target', nonce)) ∨
      ∀ n' c' target', s.calls n' = some c' → c'.pc.marker ≠ some (target', nonce)) :
    (s.goto n c pc).Sound := by
  -- What the marker of the moved call says about every other call.
  have hapart : ∀ n' c' target target' nonce, n' ≠ n → s.calls n' = some c' →
      pc.marker = some (target, nonce) → c'.pc.marker = some (target', nonce) → False := by
    intro n' c' target target' nonce hne hc' hm hm'
    rcases hmarker target nonce hm with ⟨t, hown⟩ | hnobody
    · exact hne (h.apart n' n c' c target' t nonce hc' hc hm' hown)
    · exact hnobody n' c' target' hc' hm'
  refine ⟨h.running_lt, ?_, ?_, h.nonce_lt, h.lock_lt, h.reaper_lt, ?_, ?_, ?_⟩
  · intro n' c' hc'
    rcases calls_goto hc' with ⟨rfl, rfl⟩ | ⟨-, hc'⟩
    · exact h.call_lt n' c hc
    · exact h.call_lt n' c' hc'
  · intro n' c' hc'
    rcases calls_goto hc' with ⟨rfl, rfl⟩ | ⟨-, hc'⟩
    · exact h.identity n' c hc
    · exact h.identity n' c' hc'
  · intro i hi c' hc'
    rcases calls_goto hc' with ⟨hn, rfl⟩ | ⟨-, hc'⟩
    · exact h.written i hi c (hn.symm ▸ hc)
    · exact h.written i hi c' hc'
  · intro n' c' hc'
    have hk : s.Keeps n' c' := by
      rcases calls_goto hc' with ⟨rfl, rfl⟩ | ⟨-, hc'⟩
      · exact hkeeps
      · exact h.keeps n' c' hc'
    refine ⟨hk.owner, hk.seen, ?_, hk.marker, hk.reclaims⟩
    intro i target hs
    obtain ⟨hlt, hbody, hgone⟩ := hk.stale i target hs
    exact ⟨hlt, hbody, (gone_goto hc pc target).mpr hgone⟩
  · intro n₁ n₂ c₁ c₂ t₁ t₂ nonce h₁ h₂ hm₁ hm₂
    rcases calls_goto h₁ with ⟨e₁, rfl⟩ | ⟨hne₁, h₁'⟩
    · rcases calls_goto h₂ with ⟨e₂, -⟩ | ⟨hne₂, h₂'⟩
      · rw [e₁, e₂]
      · exact (hapart n₂ c₂ t₁ t₂ nonce hne₂ h₂' hm₁ hm₂).elim
    · rcases calls_goto h₂ with ⟨-, rfl⟩ | ⟨-, h₂'⟩
      · exact (hapart n₁ c₁ t₂ t₁ nonce hne₁ h₁' hm₂ hm₁).elim
      · exact h.apart n₁ n₂ c₁ c₂ t₁ t₂ nonce h₁' h₂' hm₁ hm₂

/-- A call moves on to a program counter that promises nothing. -/
theorem Sound.goto_free (h : s.Sound) (hc : s.calls n = some c) {pc : Pc} (hpc : pc.Free) :
    (s.goto n c pc).Sound := by
  obtain ⟨howns, hseen, hstale, hmarker, hreclaims⟩ := hpc
  refine h.goto hc ⟨?_, ?_, ?_, ?_, ?_⟩ ?_
  · intro _ ho
    rw [howns] at ho
    cases ho
  · intro i hs
    rw [hseen] at hs
    cases hs
  · intro i target hs
    rw [hstale] at hs
    cases hs
  · intro target nonce hm
    rw [hmarker] at hm
    cases hm
  · intro _ i hr
    rw [hreclaims] at hr
    cases hr
  · intro target nonce hm
    rw [hmarker] at hm
    cases hm

/-- A call moves on and promises no more than it did. -/
theorem Sound.goto_keep (h : s.Sound) (hc : s.calls n = some c) {pc : Pc}
    (howns : pc.owns = true → c.pc.owns = true)
    (hseen : pc.seen = none) (hreclaims : pc.reclaims = none)
    (hstale : ∀ x, pc.stale = some x → c.pc.stale = some x)
    (hmarker : ∀ x, pc.marker = some x → c.pc.marker = some x) : (s.goto n c pc).Sound := by
  have hk := h.keeps n c hc
  refine h.goto hc ⟨fun hl ho => hk.owner hl (howns ho), ?_, ?_, ?_, ?_⟩ ?_
  · intro i hs
    rw [hseen] at hs
    cases hs
  · intro i target hs
    exact hk.stale i target (hstale _ hs)
  · intro target nonce hm
    exact hk.marker target nonce (hmarker _ hm)
  · intro _ i hr
    rw [hreclaims] at hr
    cases hr
  · intro target nonce hm
    exact .inl ⟨target, hmarker _ hm⟩

/-- A nonce that is drawn changes nothing. -/
theorem Sound.draw (h : s.Sound) : s.draw.Sound := by
  have hlt : ∀ {k}, k < s.fresh → k < s.draw.fresh := fun hk => Nat.lt_succ_of_lt hk
  refine ⟨fun pid k hk => hlt (h.running_lt pid k hk), fun n c hc => ?_, h.identity,
    fun i hi => hlt (h.nonce_lt i hi), h.lock_lt, h.reaper_lt, h.written, fun n c hc => ?_, h.apart⟩
  · obtain ⟨hn, hp⟩ := h.call_lt n c hc
    exact ⟨hlt hn, hlt hp⟩
  · obtain ⟨howner, hseen, hstale, hmarker, hreclaims⟩ := h.keeps n c hc
    refine ⟨howner, hseen, hstale, fun t m hm => ?_, hreclaims⟩
    obtain ⟨hm, hr⟩ := hmarker t m hm
    exact ⟨hlt hm, hr⟩

/-- A new inode, with a nonce that was drawn, by the call of that nonce if there is one. -/
theorem Sound.write (h : s.Sound) {b : LockBody} (hnonce : b.nonce < s.fresh)
    (hwritten : ∀ c, s.calls b.nonce = some c → WrittenBy b c) : (s.write b).Sound := by
  have hold : ∀ i < s.inodes, (s.write b).body i = s.body i := by
    intro i hi
    exact Function.update_of_ne (Nat.ne_of_lt hi) _ _
  have hnew : (s.write b).body s.inodes = b := Function.update_self _ _ _
  have hlt : ∀ {k}, k < s.inodes → k < (s.write b).inodes := fun hk => Nat.lt_succ_of_lt hk
  have hcases : ∀ i < (s.write b).inodes, i < s.inodes ∨ i = s.inodes :=
    fun i hi => Nat.lt_succ_iff_lt_or_eq.mp hi
  refine ⟨h.running_lt, h.call_lt, h.identity, fun i hi => ?_, fun i hi => hlt (h.lock_lt i hi),
    fun t i hi => hlt (h.reaper_lt t i hi), fun i hi c hc => ?_, fun n c hc => ?_, h.apart⟩
  · rcases hcases i hi with hi | rfl
    · rw [hold i hi]
      exact h.nonce_lt i hi
    · rw [hnew]
      exact hnonce
  · rcases hcases i hi with hi | rfl
    · rw [hold i hi] at hc ⊢
      exact h.written i hi c hc
    · rw [hnew] at hc ⊢
      exact hwritten c hc
  · obtain ⟨howner, hseen, hstale, hmarker, hreclaims⟩ := h.keeps n c hc
    refine ⟨fun hl ho => ?_, fun i hs => hlt (hseen i hs), fun i t hs => ?_, fun t m hm => ?_,
      hreclaims⟩
    · obtain ⟨i, hi, hb⟩ := howner hl ho
      exact ⟨i, hi, by rwa [hold i (h.lock_lt i hi)]⟩
    · obtain ⟨hi, hb, hg⟩ := hstale i t hs
      exact ⟨hlt hi, by rwa [hold i hi], hg⟩
    · obtain ⟨hm, hr⟩ := hmarker t m hm
      refine ⟨hm, fun hl => ?_⟩
      obtain ⟨i, hi, hb⟩ := hr hl
      exact ⟨i, hi, by rwa [hold i (h.reaper_lt t i hi)]⟩

/-- A link to the free name of the lock. -/
theorem Sound.linkLock (h : s.Sound) (hfree : s.lock = none) {i : Inode} (hi : i < s.inodes) :
    (s.setLock (some i)).Sound := by
  refine ⟨h.running_lt, h.call_lt, h.identity, h.nonce_lt, fun j hj => ?_, h.reaper_lt, h.written,
    fun n c hc => ?_, h.apart⟩
  · obtain rfl := Option.some.inj hj
    exact hi
  · obtain ⟨howner, hseen, hstale, hmarker, hreclaims⟩ := h.keeps n c hc
    refine ⟨fun hl ho => ?_, hseen, hstale, hmarker, fun hl j hj => ?_⟩
    · obtain ⟨j, hj, -⟩ := howner hl ho
      rw [hfree] at hj
      cases hj
    · have hj := hreclaims hl j hj
      rw [hfree] at hj
      cases hj

/-- An unlink of the lock that no live call owns or is about to reclaim. -/
theorem Sound.unlinkLock (h : s.Sound)
    (hnobody : ∀ n c, s.calls n = some c → s.Live c → c.pc.owns = false ∧ c.pc.reclaims = none) :
    (s.setLock none).Sound := by
  refine ⟨h.running_lt, h.call_lt, h.identity, h.nonce_lt, fun j hj => ?_, h.reaper_lt, h.written,
    fun n c hc => ?_, h.apart⟩
  · cases hj
  · obtain ⟨howner, hseen, hstale, hmarker, hreclaims⟩ := h.keeps n c hc
    refine ⟨fun hl ho => ?_, hseen, hstale, hmarker, fun hl j hj => ?_⟩
    · rw [(hnobody n c hc hl).1] at ho
      cases ho
    · rw [(hnobody n c hc hl).2] at hj
      cases hj

/-- A link to a free name of a marker. -/
theorem Sound.linkReaper (h : s.Sound) {target : Nonce} (hfree : s.reaper target = none)
    {i : Inode} (hi : i < s.inodes) : (s.setReaper target (some i)).Sound := by
  refine ⟨h.running_lt, h.call_lt, h.identity, h.nonce_lt, h.lock_lt, fun t j hj => ?_, h.written,
    fun n c hc => ?_, h.apart⟩
  · by_cases ht : t = target
    · subst ht
      have hj : Function.update s.reaper t (some i) t = some j := hj
      rw [Function.update_self] at hj
      obtain rfl := Option.some.inj hj
      exact hi
    · have hj : Function.update s.reaper target (some i) t = some j := hj
      rw [Function.update_of_ne ht] at hj
      exact h.reaper_lt t j hj
  · obtain ⟨howner, hseen, hstale, hmarker, hreclaims⟩ := h.keeps n c hc
    refine ⟨howner, hseen, hstale, fun t m hm => ?_, hreclaims⟩
    obtain ⟨hlt, hr⟩ := hmarker t m hm
    refine ⟨hlt, fun hl => ?_⟩
    obtain ⟨j, hj, hb⟩ := hr hl
    have ht : t ≠ target := by
      intro ht
      rw [ht, hfree] at hj
      cases hj
    exact ⟨j, (Function.update_of_ne ht _ _).trans hj, hb⟩

/-- An unlink of a marker that is not the marker of a live reaper. -/
theorem Sound.unlinkReaper (h : s.Sound) {target : Nonce}
    (hnobody : ∀ i, s.reaper target = some i → ¬s.Reaps target (s.body i).nonce) :
    (s.setReaper target none).Sound := by
  refine ⟨h.running_lt, h.call_lt, h.identity, h.nonce_lt, h.lock_lt, fun t j hj => ?_, h.written,
    fun n c hc => ?_, h.apart⟩
  · by_cases ht : t = target
    · subst ht
      have hj : Function.update s.reaper t none t = some j := hj
      rw [Function.update_self] at hj
      cases hj
    · have hj : Function.update s.reaper target none t = some j := hj
      rw [Function.update_of_ne ht] at hj
      exact h.reaper_lt t j hj
  · obtain ⟨howner, hseen, hstale, hmarker, hreclaims⟩ := h.keeps n c hc
    refine ⟨howner, hseen, hstale, fun t m hm => ?_, hreclaims⟩
    obtain ⟨hlt, hr⟩ := hmarker t m hm
    refine ⟨hlt, fun hl => ?_⟩
    obtain ⟨j, hj, hb⟩ := hr hl
    have ht : t ≠ target := by
      intro ht
      subst ht
      subst hb
      exact hnobody j hj ⟨n, c, hc, hl, hm⟩
    exact ⟨j, (Function.update_of_ne ht _ _).trans hj, hb⟩

/-! ## The system calls -/

theorem Pc.of_reclaims {pc : Pc} {i : Inode} (h : pc.reclaims = some i) :
    ∃ target nonce, pc.stale = some (i, target) ∧ pc.marker = some (target, nonce) := by
  cases pc <;> simp only [Pc.reclaims, reduceCtorEq, Option.some.injEq] at h
  subst h
  exact ⟨_, _, rfl, rfl⟩

/-- Two live owners are one. -/
theorem Sound.owner_unique (h : s.Sound) {n' : Nonce} {c' : Call} (hc : s.calls n = some c)
    (hc' : s.calls n' = some c') (hl : s.Live c) (hl' : s.Live c') (ho : c.pc.owns = true)
    (ho' : c'.pc.owns = true) : n = n' := by
  obtain ⟨i, hi, hn, -⟩ := (h.keeps n c hc).owner hl ho
  obtain ⟨j, hj, hn', -⟩ := (h.keeps n' c' hc').owner hl' ho'
  obtain rfl : i = j := Option.some.inj (hi.symm.trans hj)
  exact hn.symm.trans hn'

/-- No live call reclaims the lock of a live owner. -/
theorem Sound.owner_not_reclaimed (h : s.Sound) {n' : Nonce} {c' : Call} {i : Inode}
    (hc : s.calls n = some c) (hc' : s.calls n' = some c') (hl : s.Live c) (hl' : s.Live c')
    (ho : c.pc.owns = true) (hr : c'.pc.reclaims = some i) : False := by
  obtain ⟨j, hj, hn, -⟩ := (h.keeps n c hc).owner hl ho
  have hi := (h.keeps n' c' hc').reclaims hl' i hr
  obtain ⟨target, -, hs, -⟩ := Pc.of_reclaims hr
  obtain ⟨-, hbody, hgone⟩ := (h.keeps n' c' hc').stale i target hs
  obtain rfl : i = j := Option.some.inj (hi.symm.trans hj)
  have htarget : target = n := hbody.symm.trans hn
  subst htarget
  exact hgone c hc hl

/-- Two live calls with a marker for one target are one. -/
theorem Sound.marker_unique (h : s.Sound) {n' : Nonce} {c' : Call} {target m m' : Nonce}
    (hc : s.calls n = some c) (hc' : s.calls n' = some c') (hl : s.Live c) (hl' : s.Live c')
    (hm : c.pc.marker = some (target, m)) (hm' : c'.pc.marker = some (target, m')) : n = n' := by
  obtain ⟨i, hi, hb⟩ := ((h.keeps n c hc).marker target m hm).2 hl
  obtain ⟨j, hj, hb'⟩ := ((h.keeps n' c' hc').marker target m' hm').2 hl'
  obtain rfl : i = j := Option.some.inj (hi.symm.trans hj)
  obtain rfl : m = m' := hb.symm.trans hb'
  exact h.apart n n' c c' target target m hc hc' hm hm'

/-- The owner unlinks its lock and promises nothing any more. -/
theorem Sound.dropLock (h : s.Sound) (hc : s.calls n = some c) (hl : s.Live c)
    (ho : c.pc.owns = true) {pc : Pc} (hpc : pc.Free) :
    ((s.goto n c pc).setLock none).Sound := by
  refine (h.goto_free hc hpc).unlinkLock fun n' c' hc' hl' => ?_
  rcases calls_goto hc' with ⟨rfl, rfl⟩ | ⟨hne, hc'⟩
  · exact ⟨hpc.1, hpc.2.2.2.2⟩
  · constructor
    · by_contra ho'
      have ho' : c'.pc.owns = true := by simpa using ho'
      exact hne (h.owner_unique hc' hc hl' hl ho' ho)
    · rw [Option.eq_none_iff_forall_ne_some]
      intro i hr
      exact h.owner_not_reclaimed hc hc' hl hl' ho hr

/-- A contender unlinks the stale lock and keeps only its marker. -/
theorem Sound.reclaimLock (h : s.Sound) (hc : s.calls n = some c) (hl : s.Live c)
    {i : Inode} (hr : c.pc.reclaims = some i) {pc : Pc} (howns : pc.owns = false)
    (hseen : pc.seen = none) (hreclaims : pc.reclaims = none) (hstale : pc.stale = none)
    (hmarker : ∀ x, pc.marker = some x → c.pc.marker = some x) :
    ((s.goto n c pc).setLock none).Sound := by
  have hgoto : (s.goto n c pc).Sound := by
    refine h.goto_keep hc ?_ hseen hreclaims ?_ hmarker
    · intro ho
      rw [howns] at ho
      cases ho
    · intro x hs
      rw [hstale] at hs
      cases hs
  obtain ⟨target, nonce, hs, hm⟩ := Pc.of_reclaims hr
  have hi := (h.keeps n c hc).reclaims hl i hr
  obtain ⟨-, hbody, -⟩ := (h.keeps n c hc).stale i target hs
  refine hgoto.unlinkLock fun n' c' hc' hl' => ?_
  rcases calls_goto hc' with ⟨rfl, rfl⟩ | ⟨hne, hc'⟩
  · exact ⟨howns, hreclaims⟩
  · constructor
    · by_contra ho'
      have ho' : c'.pc.owns = true := by simpa using ho'
      exact h.owner_not_reclaimed hc' hc hl' hl ho' hr
    · rw [Option.eq_none_iff_forall_ne_some]
      intro j hr'
      -- Both have observed the lock that stands, so both hold a marker for its nonce.
      have hj := (h.keeps n' c' hc').reclaims hl' j hr'
      obtain rfl : i = j := Option.some.inj (hi.symm.trans hj)
      obtain ⟨target', nonce', hs', hm'⟩ := Pc.of_reclaims hr'
      obtain ⟨-, hbody', -⟩ := (h.keeps n' c' hc').stale i target' hs'
      obtain rfl : target = target' := hbody.symm.trans hbody'
      exact hne (h.marker_unique hc' hc hl' hl hm' hm)

/-- A reaper unlinks its own marker. -/
theorem Sound.dropMarker (h : s.Sound) (hc : s.calls n = some c) (hl : s.Live c)
    {target nonce : Nonce} (hm : c.pc.marker = some (target, nonce)) {pc : Pc} (hpc : pc.Free) :
    ((s.goto n c pc).setReaper target none).Sound := by
  refine (h.goto_free hc hpc).unlinkReaper fun i hi => ?_
  rintro ⟨n', c', hc', hl', hm'⟩
  rcases calls_goto hc' with ⟨rfl, rfl⟩ | ⟨hne, hc'⟩
  · rw [hpc.2.2.2.1] at hm'
    cases hm'
  · exact hne (h.marker_unique hc' hc hl' hl hm' hm)

theorem Sound.publish (h : s.Sound) (hc : s.calls n = some c) (attempt : ℕ) :
    (s.publish n c attempt).Sound := by
  have hn := (h.call_lt n c hc).1
  have hwrite : (s.write ⟨c.pid, n, none, c.identity⟩).Sound := by
    refine h.write hn fun c' hc' => ?_
    obtain rfl : c = c' := Option.some.inj (hc.symm.trans hc')
    exact ⟨rfl, h.identity n c hc⟩
  unfold LockState.publish
  cases hlock : s.lock with
  | some i => exact hwrite.goto_free hc ⟨rfl, rfl, rfl, rfl, rfl⟩
  | none =>
    refine (hwrite.linkLock hlock (Nat.lt_succ_self _)).goto hc ⟨?_, ?_, ?_, ?_, ?_⟩ ?_
    · intro _ _
      refine ⟨s.inodes, rfl, ?_, ?_⟩
      · exact congrArg LockBody.nonce (Function.update_self s.inodes _ s.body)
      · exact congrArg LockBody.targetNonce (Function.update_self s.inodes _ s.body)
    · intro i hs
      cases hs
    · intro i target hs
      cases hs
    · intro target nonce hm
      cases hm
    · intro _ i hr
      cases hr
    · intro target nonce hm
      cases hm

theorem Sound.readOwnLock (h : s.Sound) (hc : s.calls n = some c) {own other : Pc}
    (ho : c.pc.owns = true) (hown : own.seen = none ∧ own.reclaims = none ∧ own.stale = none ∧
      own.marker = none) (hother : other.Free) : (s.readOwnLock n c own other).Sound := by
  unfold LockState.readOwnLock
  split
  · split
    · refine h.goto_keep hc (fun _ => ho) hown.1 hown.2.1 ?_ ?_
      · intro x hs
        rw [hown.2.2.1] at hs
        cases hs
      · intro x hm
        rw [hown.2.2.2] at hm
        cases hm
    · exact h.goto_free hc hother
  · exact h.goto_free hc ⟨rfl, rfl, rfl, rfl, rfl⟩

/-- A lock whose owner fails the check belongs to a call whose process is gone. -/
theorem Sound.gone_of_not_owned (h : s.Sound) {i : Inode} (hi : i < s.inodes) {owner : LockOwner}
    {readable : Bool} (hread : readLockOwner (s.body i) = some owner)
    (hdead : processStillOwnsLock s.running readable owner = false) :
    (s.body i).nonce = owner.nonce ∧ s.Gone owner.nonce := by
  unfold readLockOwner at hread
  split at hread
  · cases hread
  · obtain rfl := Option.some.inj hread
    refine ⟨rfl, fun c hc hl => ?_⟩
    obtain ⟨hpid, hid⟩ := h.written i hi c hc
    rw [processStillOwnsLock_of_live hl hpid hid readable] at hdead
    cases hdead

theorem Sound.inspect (h : s.Sound) (hc : s.calls n = some c) {i : Inode} (hi : i < s.inodes)
    (readable : Bool) (attempt : ℕ) : (s.inspect n c readable attempt i).Sound := by
  unfold LockState.inspect
  cases hread : readLockOwner (s.body i) with
  | none => exact h.goto_free hc ⟨rfl, rfl, rfl, rfl, rfl⟩
  | some existing =>
    by_cases halive : processStillOwnsLock s.running readable existing = true
    · simp only [halive, if_true]
      exact h.goto_free hc ⟨rfl, rfl, rfl, rfl, rfl⟩
    · have hdead : processStillOwnsLock s.running readable existing = false := by
        simpa using halive
      simp only [hdead, Bool.false_eq_true, if_false]
      refine h.goto hc ⟨?_, ?_, ?_, ?_, ?_⟩ ?_
      · intro _ ho
        cases ho
      · intro j hs
        cases hs
      · intro j target hs
        obtain ⟨rfl, rfl⟩ := Prod.mk.inj (Option.some.inj hs)
        exact ⟨hi, h.gone_of_not_owned hi hread hdead⟩
      · intro target nonce hm
        cases hm
      · intro _ j hr
        cases hr
      · intro target nonce hm
        cases hm

theorem Sound.mark (h : s.Sound) (hc : s.calls n = some c) {attempt : ℕ} {i : Inode}
    {target : Nonce} (hs : c.pc.stale = some (i, target)) (readable : Bool) :
    (s.mark n c readable attempt i target).Sound := by
  have hwrite : (s.draw.write ⟨c.pid, s.fresh, some target,
      if readable then some c.process else none⟩).Sound := by
    refine h.draw.write (Nat.lt_succ_self _) fun c' hc' => ?_
    exact absurd (h.call_lt s.fresh c' hc').1 (Nat.lt_irrefl _)
  unfold LockState.mark
  cases hr : s.reaper target with
  | some j => exact hwrite.goto_free hc ⟨rfl, rfl, rfl, rfl, rfl⟩
  | none =>
    have hlink := hwrite.linkReaper hr (Nat.lt_succ_self s.inodes)
    refine hlink.goto hc ⟨?_, ?_, ?_, ?_, ?_⟩ ?_
    · intro _ ho
      cases ho
    · intro j hseen
      cases hseen
    · intro j t hs'
      obtain ⟨rfl, rfl⟩ := Prod.mk.inj (Option.some.inj hs')
      exact (hlink.keeps n c hc).stale i target hs
    · intro t m hm
      obtain ⟨rfl, rfl⟩ := Prod.mk.inj (Option.some.inj hm)
      refine ⟨Nat.lt_succ_self _, fun _ => ⟨s.inodes, Function.update_self _ _ _, ?_⟩⟩
      exact congrArg LockBody.nonce (Function.update_self s.inodes _ s.body)
    · intro _ j hreclaims
      cases hreclaims
    · intro t m hm
      obtain ⟨rfl, rfl⟩ := Prod.mk.inj (Option.some.inj hm)
      refine .inr fun n' c' t' hc' hm' => ?_
      exact Nat.lt_irrefl _ ((h.keeps n' c' hc').marker t' _ hm').1

theorem Sound.inspectMarker (h : s.Sound) (hc : s.calls n = some c) (readable : Bool)
    (attempt : ℕ) (target : Nonce) (i : Inode) :
    (s.inspectMarker n c readable attempt target i).Sound := by
  unfold LockState.inspectMarker
  simp only
  split
  · exact h.goto_free hc ⟨rfl, rfl, rfl, rfl, rfl⟩
  · split
    · exact h.goto_free hc ⟨rfl, rfl, rfl, rfl, rfl⟩
    · exact h.goto_free hc ⟨rfl, rfl, rfl, rfl, rfl⟩

/-- The step does not unlink the marker of a live reaper: where a contender unlinks a marker it
found dead, the marker at that path is still none of a reaper that runs. -/
def MarkersKept (e : Event LockState LockLabel) : Prop :=
  ∀ n o c attempt target i, e.label = .advance n o → e.before.calls n = some c →
    c.pc = .removeMarker attempt target → e.before.reaper target = some i →
    ¬e.before.Reaps target (e.before.body i).nonce

/-- Every system call keeps the invariant, the unlink of a dead marker as long as the marker of
no live reaper stands at its path. -/
theorem Sound.proceed (h : s.Sound) (hc : s.calls n = some c) (hl : s.Live c) {o : SystemReply}
    (hkept : ∀ attempt target i, c.pc = .removeMarker attempt target →
      s.reaper target = some i → ¬s.Reaps target (s.body i).nonce)
    (hs' : s.proceed n c o = some s') : s'.Sound := by
  have hfailed : (Pc.failed).Free := ⟨rfl, rfl, rfl, rfl, rfl⟩
  unfold LockState.proceed at hs'
  cases hpc : c.pc with
  | publish attempt =>
    rw [hpc] at hs'
    obtain rfl := Option.some.inj hs'
    exact h.publish hc attempt
  | sync =>
    rw [hpc] at hs'
    obtain rfl := Option.some.inj hs'
    have ho : c.pc.owns = true := by rw [hpc]; rfl
    have hplain : ∀ pc : Pc, pc.seen = none → pc.reclaims = none → pc.stale = none →
        pc.marker = none → (s.goto n c pc).Sound := by
      intro pc hseen hreclaims hstale hmarker
      refine h.goto_keep hc (fun _ => ho) hseen hreclaims ?_ ?_
      · intro x hx
        rw [hstale] at hx
        cases hx
      · intro x hx
        rw [hmarker] at hx
        cases hx
    cases o.synced with
    | true => exact hplain .held rfl rfl rfl rfl
    | false => exact hplain .retract rfl rfl rfl rfl
  | retract =>
    rw [hpc] at hs'
    obtain rfl := Option.some.inj hs'
    exact h.readOwnLock hc (by rw [hpc]; rfl) ⟨rfl, rfl, rfl, rfl⟩ hfailed
  | retractUnlink =>
    rw [hpc] at hs'
    obtain rfl := Option.some.inj hs'
    exact h.dropLock hc hl (by rw [hpc]; rfl) hfailed
  | observe attempt =>
    rw [hpc] at hs'
    cases hlock : s.lock with
    | none =>
      simp only [hlock] at hs'
      obtain rfl := Option.some.inj hs'
      exact h.goto_free hc (retry_free attempt)
    | some i =>
      simp only [hlock] at hs'
      obtain rfl := Option.some.inj hs'
      refine h.goto hc ⟨?_, ?_, ?_, ?_, ?_⟩ ?_
      · intro _ ho
        cases ho
      · intro j hseen
        obtain rfl := Option.some.inj hseen
        exact h.lock_lt i hlock
      · intro j target hs
        cases hs
      · intro target nonce hm
        cases hm
      · intro _ j hr
        cases hr
      · intro target nonce hm
        cases hm
  | inspect attempt i =>
    rw [hpc] at hs'
    obtain rfl := Option.some.inj hs'
    exact h.inspect hc ((h.keeps n c hc).seen i (by rw [hpc]; rfl)) _ attempt
  | mark attempt i target =>
    rw [hpc] at hs'
    obtain rfl := Option.some.inj hs'
    exact h.mark hc (by rw [hpc]; rfl) _
  | syncMark r =>
    rw [hpc] at hs'
    obtain rfl := Option.some.inj hs'
    cases o.synced with
    | true =>
      refine h.goto_keep hc (fun ho => by cases ho) rfl rfl ?_ ?_
      · intro x hx
        rw [hpc]
        exact hx
      · intro x hx
        rw [hpc]
        exact hx
    | false =>
      refine h.goto_keep hc (fun ho => by cases ho) rfl rfl (fun x hx => by cases hx) ?_
      intro x hx
      rw [hpc]
      exact hx
  | observeMarker attempt target =>
    rw [hpc] at hs'
    cases hr : s.reaper target with
    | none =>
      simp only [hr] at hs'
      obtain rfl := Option.some.inj hs'
      exact h.goto_free hc (retry_free attempt)
    | some i =>
      simp only [hr] at hs'
      obtain rfl := Option.some.inj hs'
      exact h.goto_free hc ⟨rfl, rfl, rfl, rfl, rfl⟩
  | inspectMarker attempt target i =>
    rw [hpc] at hs'
    obtain rfl := Option.some.inj hs'
    exact h.inspectMarker hc _ attempt target i
  | compareMarker attempt target i =>
    rw [hpc] at hs'
    cases hr : s.reaper target with
    | none =>
      simp only [hr] at hs'
      obtain rfl := Option.some.inj hs'
      exact h.goto_free hc hfailed
    | some j =>
      simp only [hr] at hs'
      obtain rfl := Option.some.inj hs'
      refine h.goto_free hc ?_
      split
      · exact ⟨rfl, rfl, rfl, rfl, rfl⟩
      · exact retry_free attempt
  | removeMarker attempt target =>
    rw [hpc] at hs'
    cases hr : s.reaper target with
    | none =>
      simp only [hr] at hs'
      obtain rfl := Option.some.inj hs'
      exact h.goto_free hc hfailed
    | some i =>
      simp only [hr] at hs'
      obtain rfl := Option.some.inj hs'
      have hfree : (if o.synced then retry attempt else .failed).Free := by
        split
        · exact retry_free attempt
        · exact hfailed
      refine (h.goto_free hc hfree).unlinkReaper fun j hj => ?_
      rintro ⟨n', c', hc', hl', hm'⟩
      rcases calls_goto hc' with ⟨rfl, rfl⟩ | ⟨-, hc'⟩
      · rw [hfree.2.2.2.1] at hm'
        cases hm'
      · exact hkept attempt target j hpc hj ⟨n', c', hc', hl', hm'⟩
  | compare r =>
    rw [hpc] at hs'
    obtain rfl := Option.some.inj hs'
    have hk := h.keeps n c hc
    rw [show c = { c with pc := .compare r } by rw [← hpc]] at hk
    by_cases hlock : s.lock = some r.observation
    · rw [if_pos hlock]
      refine h.goto hc ⟨?_, ?_, hk.stale, hk.marker, ?_⟩ ?_
      · intro _ ho
        cases ho
      · intro i hseen
        cases hseen
      · intro _ i hi
        obtain rfl := Option.some.inj hi
        exact hlock
      · intro target nonce hm
        refine .inl ⟨target, ?_⟩
        rw [hpc]
        exact hm
    · rw [if_neg hlock]
      refine h.goto_keep hc (fun ho => by cases ho) rfl rfl (fun x hx => by cases hx) ?_
      intro x hx
      rw [hpc]
      exact hx
  | reclaim r =>
    rw [hpc] at hs'
    obtain rfl := Option.some.inj hs'
    have hr : c.pc.reclaims = some r.observation := by rw [hpc]; rfl
    refine h.reclaimLock hc hl hr rfl rfl rfl rfl ?_
    intro x hx
    rw [hpc]
    exact hx
  | unmark target nonce resume =>
    rw [hpc] at hs'
    cases hr : s.reaper target with
    | none =>
      simp only [hr] at hs'
      obtain rfl := Option.some.inj hs'
      exact h.goto_free hc hfailed
    | some i =>
      simp only [hr] at hs'
      by_cases hown : (readReaperOwner (s.body i)).nonce = nonce
      · rw [if_pos hown] at hs'
        obtain rfl := Option.some.inj hs'
        refine h.goto_keep hc (fun ho => by cases ho) rfl rfl (fun x hx => by cases hx) ?_
        intro x hx
        rw [hpc]
        exact hx
      · rw [if_neg hown] at hs'
        obtain rfl := Option.some.inj hs'
        exact h.goto_free hc (resume_free resume o.synced)
  | unlinkMarker target nonce resume =>
    rw [hpc] at hs'
    obtain rfl := Option.some.inj hs'
    have hm : c.pc.marker = some (target, nonce) := by rw [hpc]; rfl
    exact h.dropMarker hc hl hm (resume_free resume o.synced)
  | release =>
    rw [hpc] at hs'
    obtain rfl := Option.some.inj hs'
    exact h.readOwnLock hc (by rw [hpc]; rfl) ⟨rfl, rfl, rfl, rfl⟩ ⟨rfl, rfl, rfl, rfl, rfl⟩
  | releaseUnlink =>
    rw [hpc] at hs'
    obtain rfl := Option.some.inj hs'
    exact h.dropLock hc hl (by rw [hpc]; rfl) ⟨rfl, rfl, rfl, rfl, rfl⟩
  | held =>
    rw [hpc] at hs'
    cases hs'
  | released =>
    rw [hpc] at hs'
    cases hs'
  | failed =>
    rw [hpc] at hs'
    cases hs'

/-! ## Processes -/

/-- A process that ends takes its promises with it. -/
theorem Sound.crash (h : s.Sound) (pid : Pid) :
    ({ s with running := Function.update s.running pid none }).Sound := by
  have hlive : ∀ c : Call, LockState.Live { s with running := Function.update s.running pid none } c →
      s.Live c := by
    intro c hl
    have hl : Function.update s.running pid none c.pid = some c.process := hl
    by_cases hp : c.pid = pid
    · rw [hp, Function.update_self] at hl
      cases hl
    · rwa [Function.update_of_ne hp] at hl
  refine ⟨fun p k hk => ?_, h.call_lt, h.identity, h.nonce_lt, h.lock_lt, h.reaper_lt,
    h.written, fun n c hc => ?_, h.apart⟩
  · by_cases hp : p = pid
    · simp only [hp, Function.update_self] at hk
      cases hk
    · simp only [Function.update_of_ne hp] at hk
      exact h.running_lt p k hk
  obtain ⟨howner, hseen, hstale, hmarker, hreclaims⟩ := h.keeps n c hc
  refine ⟨fun hl => howner (hlive c hl), hseen, fun i t hs => ?_, fun t m hm => ?_,
    fun hl => hreclaims (hlive c hl)⟩
  · obtain ⟨hi, hb, hg⟩ := hstale i t hs
    exact ⟨hi, hb, fun c' hc' hl' => hg c' hc' (hlive c' hl')⟩
  · obtain ⟨hm, hr⟩ := hmarker t m hm
    exact ⟨hm, fun hl => hr (hlive c hl)⟩

/-- A process that starts has an identity of its own, so no call of an earlier one revives. -/
theorem Sound.spawn (h : s.Sound) {pid : Pid} :
    ({ s.draw with running := Function.update s.running pid (some s.fresh) }).Sound := by
  have hlive : ∀ n c, s.calls n = some c → LockState.Live
      { s.draw with running := Function.update s.running pid (some s.fresh) } c → s.Live c := by
    intro n c hc hl
    have hl : Function.update s.running pid (some s.fresh) c.pid = some c.process := hl
    by_cases hp : c.pid = pid
    · rw [hp, Function.update_self] at hl
      have hlt := (h.call_lt n c hc).2
      rw [← Option.some.inj hl] at hlt
      exact absurd hlt (Nat.lt_irrefl _)
    · rwa [Function.update_of_ne hp] at hl
  have hd := h.draw
  refine ⟨fun p k hk => ?_, hd.call_lt, hd.identity, hd.nonce_lt, hd.lock_lt, hd.reaper_lt,
    hd.written, fun n c hc => ?_, hd.apart⟩
  · by_cases hp : p = pid
    · simp only [hp, Function.update_self] at hk
      rw [← Option.some.inj hk]
      exact Nat.lt_succ_self _
    · simp only [Function.update_of_ne hp] at hk
      exact hd.running_lt p k hk
  obtain ⟨howner, hseen, hstale, hmarker, hreclaims⟩ := hd.keeps n c hc
  refine ⟨fun hl => howner (hlive n c hc hl), hseen, fun i t hs => ?_, fun t m hm => ?_,
    fun hl => hreclaims (hlive n c hc hl)⟩
  · obtain ⟨hi, hb, hg⟩ := hstale i t hs
    exact ⟨hi, hb, fun c' hc' hl' => hg c' hc' (hlive t c' hc' hl')⟩
  · obtain ⟨hm, hr⟩ := hmarker t m hm
    exact ⟨hm, fun hl => hr (hlive n c hc hl)⟩

/-- A new call has a nonce that no file carries yet. -/
theorem Sound.call (h : s.Sound) (hl : s.Live c)
    (hid : c.identity = none ∨ c.identity = some c.process) {attempt : ℕ}
    (hpc : c.pc = .publish attempt) :
    ({ s.draw with calls := Function.update s.calls s.fresh (some c) }).Sound := by
  have hcalls : ∀ n' c', Function.update s.calls s.fresh (some c) n' = some c' →
      n' = s.fresh ∧ c' = c ∨ n' < s.fresh ∧ s.calls n' = some c' := by
    intro n' c' hc'
    by_cases hn : n' = s.fresh
    · subst hn
      rw [Function.update_self] at hc'
      exact .inl ⟨rfl, (Option.some.inj hc').symm⟩
    · rw [Function.update_of_ne hn] at hc'
      exact .inr ⟨(h.call_lt n' c' hc').1, hc'⟩
  have hmarker : c.pc.marker = none := by
    rw [hpc]
    rfl
  have hd := h.draw
  refine ⟨hd.running_lt, fun n' c' hc' => ?_, fun n' c' hc' => ?_, hd.nonce_lt, hd.lock_lt,
    hd.reaper_lt, fun i hi c' hc' => ?_, fun n' c' hc' => ?_,
    fun n₁ n₂ c₁ c₂ t₁ t₂ m h₁ h₂ hm₁ hm₂ => ?_⟩
  · rcases hcalls n' c' hc' with ⟨rfl, rfl⟩ | ⟨-, hc'⟩
    · exact ⟨Nat.lt_succ_self _, Nat.lt_succ_of_lt (h.running_lt c'.pid c'.process hl)⟩
    · exact hd.call_lt n' c' hc'
  · rcases hcalls n' c' hc' with ⟨rfl, rfl⟩ | ⟨-, hc'⟩
    · exact hid
    · exact h.identity n' c' hc'
  · rcases hcalls _ c' hc' with ⟨hn, -⟩ | ⟨-, hc'⟩
    · exact absurd hn (Nat.ne_of_lt (h.nonce_lt i hi))
    · exact h.written i hi c' hc'
  · rcases hcalls n' c' hc' with ⟨rfl, rfl⟩ | ⟨-, hc'⟩
    · refine ⟨?_, ?_, ?_, ?_, ?_⟩
      · intro _ ho
        rw [hpc] at ho
        cases ho
      · intro i hseen
        rw [hpc] at hseen
        cases hseen
      · intro i target hs
        rw [hpc] at hs
        cases hs
      · intro target nonce hm
        rw [hpc] at hm
        cases hm
      · intro _ i hr
        rw [hpc] at hr
        cases hr
    · obtain ⟨howner, hseen, hstale, hmarker, hreclaims⟩ := hd.keeps n' c' hc'
      refine ⟨howner, hseen, fun i t hs => ?_, hmarker, hreclaims⟩
      obtain ⟨hi, hb, hg⟩ := hstale i t hs
      refine ⟨hi, hb, fun c₀ hc₀ => ?_⟩
      rcases hcalls t c₀ hc₀ with ⟨ht, -⟩ | ⟨-, hc₀⟩
      · exact absurd (hb.trans ht) (Nat.ne_of_lt (h.nonce_lt i hi))
      · exact hg c₀ hc₀
  · rcases hcalls n₁ c₁ h₁ with ⟨-, rfl⟩ | ⟨-, h₁⟩
    · rw [hmarker] at hm₁
      cases hm₁
    · rcases hcalls n₂ c₂ h₂ with ⟨-, rfl⟩ | ⟨-, h₂⟩
      · rw [hmarker] at hm₂
        cases hm₂
      · exact h.apart n₁ n₂ c₁ c₂ t₁ t₂ m h₁ h₂ hm₁ hm₂

/-- Every step without the unlink of a live reaper's marker keeps the invariant. -/
theorem Sound.perform (h : s.Sound) {l : LockLabel} (hs' : s.perform l = some s')
    (hkept : MarkersKept ⟨s, l, s'⟩) : s'.Sound := by
  cases l with
  | spawn pid =>
    unfold LockState.perform at hs'
    cases hrun : s.running pid with
    | some k =>
      simp only [hrun] at hs'
      cases hs'
    | none =>
      simp only [hrun] at hs'
      obtain rfl := Option.some.inj hs'
      exact h.spawn
  | crash pid =>
    obtain rfl := Option.some.inj hs'
    exact h.crash pid
  | call pid readable =>
    unfold LockState.perform at hs'
    obtain ⟨process, hrun, hs'⟩ := Option.bind_eq_some_iff.mp hs'
    obtain rfl := Option.some.inj hs'
    refine h.call hrun ?_ rfl
    cases readable with
    | true => exact .inr rfl
    | false => exact .inl rfl
  | advance n o =>
    unfold LockState.perform at hs'
    obtain ⟨c, hc, hs'⟩ := Option.bind_eq_some_iff.mp hs'
    split at hs'
    · rename_i hl
      exact h.proceed hc hl (fun attempt target i hpc hi => hkept n o c attempt target i rfl hc hpc hi)
        hs'
    · cases hs'
  | release n =>
    unfold LockState.perform at hs'
    obtain ⟨c, hc, hs'⟩ := Option.bind_eq_some_iff.mp hs'
    split at hs'
    · rename_i hheld
      obtain rfl := Option.some.inj hs'
      refine h.goto_keep hc (fun _ => ?_) rfl rfl ?_ ?_
      · rw [hheld.2]
        rfl
      · intro x hx
        cases hx
      · intro x hx
        cases hx
    · cases hs'

end LockState

/-! ## Runs -/

/-- At most one call of a live process has returned from `acquireStateLock` and not released. -/
def Exclusive (s : LockState) : Prop :=
  ∀ n n' c c', s.calls n = some c → s.calls n' = some c' → s.Live c → s.Live c' →
    c.pc.holds = true → c'.pc.holds = true → n = n'

/-- A release that unlinks `.active.lock` unlinks the inode its own call published. -/
def ReleasesOwn (e : Event LockState LockLabel) : Prop :=
  ∀ n o c i, e.label = .advance n o → e.before.calls n = some c → c.pc = .releaseUnlink →
    e.before.lock = some i → (e.before.body i).nonce = n

theorem LockState.Sound.exclusive {s : LockState} (h : s.Sound) : Exclusive s := by
  intro n n' c c' hc hc' hl hl' hholds hholds'
  exact h.owner_unique hc hc' hl hl' (Pc.owns_of_holds hholds) (Pc.owns_of_holds hholds')

theorem LockState.Sound.releasesOwn {e : Event LockState LockLabel} (h : e.before.Sound)
    (hstep : LockStep e.before e.label e.after) : ReleasesOwn e := by
  intro n o c i hlabel hc hpc hi
  have hl : e.before.Live c := by
    unfold LockStep at hstep
    rw [hlabel] at hstep
    unfold LockState.perform at hstep
    obtain ⟨c', hc', hstep⟩ := Option.bind_eq_some_iff.mp hstep
    obtain rfl : c = c' := Option.some.inj (hc.symm.trans hc')
    by_contra hl
    rw [if_neg hl] at hstep
    cases hstep
  have ho : c.pc.owns = true := by rw [hpc]; rfl
  obtain ⟨j, hj, hn, -⟩ := (h.keeps n c hc).owner hl ho
  obtain rfl : i = j := Option.some.inj (hi.symm.trans hj)
  exact hn

/-- In every run in which no contender unlinks the marker of a live reaper, whatever the
interleaving and wherever processes crash, at most one live process holds the state directory,
and no release removes the lock of another call. -/
theorem state_lock_exclusive {s₀ s : LockState} {log : List (Event LockState LockLabel)}
    (h₀ : s₀.Initial) (hrun : Run LockStep s₀ log s) (hkept : ∀ e ∈ log, LockState.MarkersKept e) :
    Exclusive s ∧ ∀ e ∈ log, ReleasesOwn e := by
  have hsound : s.Sound :=
    hrun.invariant_of (I := LockState.Sound) (C := LockState.MarkersKept)
      (fun _ hstep hk h => h.perform hstep hk) hkept h₀.sound
  refine ⟨hsound.exclusive, fun e he => ?_⟩
  obtain ⟨log₁, log₂, rfl, hrun₁, hstep, -⟩ := hrun.split_mem he
  have hbefore : e.before.Sound :=
    hrun₁.invariant_of (I := LockState.Sound) (C := LockState.MarkersKept)
      (fun _ hstep hk h => h.perform hstep hk)
      (fun e' he' => hkept e' (List.mem_append_left _ he')) h₀.sound
  exact hbefore.releasesOwn hstep

theorem emptyDirectory_initial : emptyDirectory.Initial where
  calls _ := rfl
  running_lt _ _ h := by cases h
  nonce_lt _ h := absurd h (Nat.not_lt_zero _)
  lock_lt _ h := by cases h
  reaper_lt _ _ h := by cases h

/-- The lock is taken (2), its owner crashes, a contender (3) reclaims the lock, acquires it and
starts to release it. -/
def recoveryScript : List LockLabel :=
  [.spawn 1, .spawn 2, .call 1 true, .advance 2 {}, .advance 2 {}, .crash 1, .call 2 true] ++
  List.replicate 11 (.advance 3 {}) ++ [.release 3]

/-- The step is the unlink of a marker that was found dead. -/
def LockState.removesMarker (s : LockState) : LockLabel → Bool
  | .advance n _ => (s.calls n).any fun c =>
      match c.pc with
      | .removeMarker .. => true
      | _ => false
  | _ => false

theorem LockState.markersKept_of {s s' : LockState} {l : LockLabel}
    (h : s.removesMarker l = false) : MarkersKept ⟨s, l, s'⟩ := by
  rintro n o c attempt target i rfl hc hpc -
  have hremoves : s.removesMarker (.advance n o) = true := by
    have hc : s.calls n = some c := hc
    unfold LockState.removesMarker
    simp [hc, hpc]
  rw [h] at hremoves
  cases hremoves

theorem state_lock_exclusive_recovered :
    ∃ s log, Run LockStep emptyDirectory log s ∧
      (∃ c, s.calls 3 = some c ∧ c.pc.holds = true) ∧ Exclusive s ∧ ∀ e ∈ log, ReleasesOwn e := by
  have hplay : ((recoveryScript.foldlM
      (fun (s : LockState) l => if s.removesMarker l then none else s.perform l)
      emptyDirectory).any fun s =>
      (s.calls 3).any fun c => c.pc.holds) = true := by decide +kernel
  obtain ⟨s, hs, hholds⟩ := (Option.any_eq_true _ _).mp hplay
  obtain ⟨log, hrun⟩ := Run.of_foldlM hs
  have hrun' : Run LockStep emptyDirectory log s := by
    refine hrun.mono fun s l s' hstep => ?_
    split at hstep
    · cases hstep
    · exact hstep
  have hkept : ∀ e ∈ log, LockState.MarkersKept e := by
    intro e he
    obtain ⟨_, _, _, _, hstep, _⟩ := hrun.split_mem he
    split at hstep
    · cases hstep
    · rename_i hquiet
      exact LockState.markersKept_of (by simpa using hquiet)
  refine ⟨s, log, hrun', (Option.any_eq_true _ _).mp hholds, ?_⟩
  exact state_lock_exclusive emptyDirectory_initial hrun' hkept

/-- A run with such a step. The owner of the lock dies (5), and a reaper of it (6). Two
contenders (8 and 10) find the dead marker and compare it; the first unlinks it, takes the marker
itself and compares the lock. The second unlinks that marker, takes one of its own, reclaims the
lock and acquires it. The first then unlinks the lock, and a third one (14) acquires it. -/
def reapingScript : List LockLabel :=
  let calls (n : Nonce) (k : ℕ) := List.replicate k (LockLabel.advance n {})
  [.spawn 1, .spawn 2, .spawn 3, .spawn 4, .spawn 5] ++
  .call 1 true :: calls 5 2 ++ [.crash 1] ++
  .call 2 true :: calls 6 4 ++ [.crash 2] ++
  .call 3 true :: calls 8 7 ++
  .call 4 true :: calls 10 7 ++
  calls 8 7 ++ calls 10 12 ++ calls 8 1 ++
  .call 5 true :: calls 14 2

/-- The call holds the lock and its process runs. -/
def LockState.liveHolder (s : LockState) (n : Nonce) : Bool :=
  (s.calls n).any fun c => decide (s.Live c) && c.pc.holds

theorem LockState.liveHolder_iff {s : LockState} {n : Nonce} :
    s.liveHolder n = true ↔ ∃ c, s.calls n = some c ∧ s.Live c ∧ c.pc.holds = true := by
  unfold LockState.liveHolder
  rw [Option.any_eq_true]
  simp only [Bool.and_eq_true, decide_eq_true_eq]

/-- The lock is not exclusive in every run: from the empty directory, with two crashes and three
more processes, two live processes come to hold it. -/
theorem state_lock_shared :
    ¬∀ (s : LockState) (log : List (Event LockState LockLabel)),
      Run LockStep emptyDirectory log s → Exclusive s := by
  intro hclaim
  have hplay : ((reapingScript.foldlM LockState.perform emptyDirectory).any fun s =>
      s.liveHolder 10 && s.liveHolder 14) = true := by decide +kernel
  obtain ⟨s, hs, hboth⟩ := (Option.any_eq_true _ _).mp hplay
  rw [Bool.and_eq_true] at hboth
  obtain ⟨c, hc, hl, hholds⟩ := LockState.liveHolder_iff.mp hboth.1
  obtain ⟨c', hc', hl', hholds'⟩ := LockState.liveHolder_iff.mp hboth.2
  obtain ⟨log, hrun⟩ := Run.of_foldlM hs
  have heq := hclaim s log hrun 10 14 c c' hc hc' hl hl' hholds hholds'
  exact absurd heq (by decide)

end AgencCoordination.Worker
