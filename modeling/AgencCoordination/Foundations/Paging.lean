import Mathlib.Data.List.Basic
import Mathlib.Tactic.Common

/-!
# Paging backwards through a growing history

A history is kept newest first and grows at its front. A page holds the newest entries older than
the cursor `before` and newer than the mark `until`, at most `limit` of them. A reader asks for one
page after another, each older than the last, until a page is empty or it has had enough pages;
between two questions the history may grow.

* **`pageOf`** — one page.
* **`fetchPages`** — the pages a reader gets.
* **`fetchPages_flatten`** — together they are the newest entries since the mark, whatever is added
  meanwhile.
-/

namespace Foundations

variable {V K : Type} [DecidableEq K]

/-- The entries older than the cursor. -/
def olderThan (key : V → K) (before : Option K) (history : List V) : List V :=
  match before with
  | none => history
  | some b => (history.dropWhile fun v => key v ≠ b).tail

/-- The entries newer than the mark. -/
def newerThan (key : V → K) (mark : Option K) (history : List V) : List V :=
  match mark with
  | none => history
  | some m => history.takeWhile fun v => key v ≠ m

/-- The newest entries between a cursor and a mark. -/
def pageOf (key : V → K) (limit : ℕ) (mark before : Option K) (history : List V) : List V :=
  (newerThan key mark (olderThan key before history)).take limit

/-- The pages a reader gets that asks at most `fuel` times, the first time as question `t`. -/
def fetchPages (key : V → K) (ask : ℕ → Option K → List V) : ℕ → ℕ → Option K → List (List V)
  | 0, _, _ => []
  | fuel + 1, t, before =>
      match (ask t before).getLast? with
      | none => []
      | some last => ask t before :: fetchPages key ask fuel (t + 1) (some (key last))

/-- The mark a reader keeps of a history: its newest entry. -/
def markOf (key : V → K) (history : List V) : Option K := history.head?.map key

section Pages

variable {key : V → K} {done rest base history : List V}

omit [DecidableEq K] in
theorem key_ne_of_nodup {last : V} (hnodup : ((done ++ last :: rest).map key).Nodup) :
    ∀ v ∈ done, key v ≠ key last := by
  intro v hv
  rw [List.map_append, List.map_cons] at hnodup
  exact (List.nodup_append.mp hnodup).2.2 (key v) (List.mem_map_of_mem hv) (key last)
    List.mem_cons_self

/-- The entries after the newest one there was. -/
theorem newerThan_markOf (hnodup : ((rest ++ base).map key).Nodup) :
    newerThan key (markOf key base) (rest ++ base) = rest := by
  cases base with
  | nil => simp [newerThan, markOf]
  | cons m base =>
    have hfresh := key_ne_of_nodup hnodup
    show (rest ++ m :: base).takeWhile (fun v => key v ≠ key m) = rest
    rw [List.takeWhile_append_of_pos (fun v hv => decide_eq_true (hfresh v hv)),
      List.takeWhile_cons_of_neg (by simp), List.append_nil]

/-- The entries older than the last one that was read. -/
theorem olderThan_last {last : V} (hnodup : ((done ++ last :: rest).map key).Nodup) :
    olderThan key (some (key last)) (done ++ last :: rest) = rest := by
  have hfresh := key_ne_of_nodup hnodup
  show ((done ++ last :: rest).dropWhile (fun v => key v ≠ key last)).tail = rest
  rw [List.dropWhile_append_of_pos (fun v hv => decide_eq_true (hfresh v hv)),
    List.dropWhile_cons_of_neg (by simp), List.tail_cons]

theorem olderThan_suffix (key : V → K) (before : Option K) (history : List V) :
    olderThan key before history <:+ history := by
  cases before with
  | none => exact List.suffix_refl history
  | some b => exact (List.tail_suffix _).trans (List.dropWhile_suffix _)

end Pages

/-! ## A growing history -/

section Growing

variable {key : V → K} {chain : ℕ → List V} {ask : ℕ → Option K → List V} {limit : ℕ}
  {base : List V}

/-- The history grows at its front and has no entry twice. -/
structure Grows (key : V → K) (chain : ℕ → List V) : Prop where
  step : ∀ t, chain t <:+ chain (t + 1)
  nodup : ∀ t, ((chain t).map key).Nodup

omit [DecidableEq K] in
theorem Grows.suffix (h : Grows key chain) {t t' : ℕ} (ht : t ≤ t') : chain t <:+ chain t' := by
  induction ht with
  | refl => exact List.suffix_refl _
  | step _ ih => exact ih.trans (h.step _)

/-- The pages from a cursor on are the newest entries between it and the mark. -/
theorem fetchPages_from (hgrows : Grows key chain) (hlimit : 0 < limit)
    (hask : ∀ t before, ask t before = pageOf key limit (markOf key base) before (chain t))
    (fuel : ℕ) : ∀ (t : ℕ) (before : Option K) (rest : List V),
      olderThan key before (chain t) = rest ++ base →
        (fetchPages key ask fuel t before).flatten = rest.take (fuel * limit) := by
  induction fuel with
  | zero =>
    intro t before rest _
    rw [Nat.zero_mul, List.take_zero]
    rfl
  | succ fuel ih =>
    intro t before rest holder
    obtain ⟨front, hfront⟩ := olderThan_suffix key before (chain t)
    rw [holder] at hfront
    have hnodup : ((rest ++ base).map key).Nodup := by
      refine ((hgrows.nodup t).sublist ?_)
      rw [← hfront]
      exact (List.sublist_append_right front _).map key
    have hpage : ask t before = rest.take limit := by
      rw [hask, pageOf, holder, newerThan_markOf hnodup]
    rw [fetchPages]
    cases hlast : (ask t before).getLast? with
    | none =>
      rw [List.getLast?_eq_none_iff, hpage, List.take_eq_nil_iff] at hlast
      rcases hlast with hzero | hempty
      · omega
      · rw [hempty, List.take_nil]
        rfl
    | some last =>
      obtain ⟨page, hread⟩ := List.getLast?_eq_some_iff.mp hlast
      rw [hpage] at hread
      have hrest : rest = page ++ last :: rest.drop limit := by
        have hsplit := List.take_append_drop limit rest
        rw [hread, List.append_assoc] at hsplit
        exact hsplit.symm
      obtain ⟨new, hnew⟩ := hgrows.step t
      have hchain : chain (t + 1) = (new ++ front ++ page) ++ last :: (rest.drop limit ++ base) := by
        rw [← hnew, ← hfront]
        nth_rewrite 1 [hrest]
        simp only [List.append_assoc, List.cons_append]
      have hnext : olderThan key (some (key last)) (chain (t + 1)) = rest.drop limit ++ base := by
        have hwhole := hgrows.nodup (t + 1)
        rw [hchain] at hwhole ⊢
        exact olderThan_last hwhole
      rw [List.flatten_cons, ih (t + 1) (some (key last)) _ hnext, hpage, ← List.take_add]
      rw [Nat.succ_mul, Nat.add_comm]

/-- All pages together are the newest entries since the mark was set. -/
theorem fetchPages_flatten (hgrows : Grows key chain) (hlimit : 0 < limit)
    (hask : ∀ t before, ask t before = pageOf key limit (markOf key base) before (chain t))
    {fuel t : ℕ} {rest : List V} (hchain : chain t = rest ++ base) :
    (fetchPages key ask fuel t none).flatten = rest.take (fuel * limit) :=
  fetchPages_from hgrows hlimit hask fuel t none rest hchain

end Growing

/-- The first page is the answer to the first question, and has an entry. -/
theorem fetchPages_first {key : V → K} {ask : ℕ → Option K → List V} {fuel t : ℕ}
    {before : Option K} {page : List V} {pages : List (List V)}
    (h : fetchPages key ask fuel t before = page :: pages) : page = ask t before ∧ page ≠ [] := by
  cases fuel with
  | zero => cases h
  | succ fuel =>
    rw [fetchPages] at h
    cases hlast : (ask t before).getLast? with
    | none =>
      rw [hlast] at h
      cases h
    | some last =>
      rw [hlast] at h
      obtain ⟨rfl, -⟩ := List.cons.inj h
      refine ⟨rfl, ?_⟩
      intro hempty
      rw [hempty] at hlast
      cases hlast

end Foundations
