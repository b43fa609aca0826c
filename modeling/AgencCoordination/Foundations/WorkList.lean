import Mathlib.Data.Fintype.Basic
import Mathlib.Data.Finset.Card
import Mathlib.Logic.Relation

/-!
# Work-list search

A search takes values from a list, looks at each node once, and puts what it finds there back on the
list; looking at a node may fail. The nodes are finitely many, so the search ends.

* **`search`** — the nodes inspected, in order, and the outcome.
* **`search_nodup`** — no node is inspected twice.
* **`search_ok_iff`** — the search succeeds exactly when no reachable node fails.
* **`search_inspected`** — a search that succeeds has inspected exactly the reachable nodes.
-/

namespace Foundations

/-- The nodes that a search inspected, and its outcome. -/
structure Searched (R ε : Type) where
  inspected : List R
  outcome : Except ε Unit

section reached

variable {R V ε : Type} (node : V → Option R) (expand : R → Except ε (List V))

/-- What looking at one node finds. -/
def Leads (r s : R) : Prop := ∃ found, expand r = .ok found ∧ ∃ v ∈ found, node v = some s

/-- A node that is reached from a value of the list. -/
def Reached (pending : List V) (s : R) : Prop :=
  ∃ v ∈ pending, ∃ r, node v = some r ∧ Relation.ReflTransGen (Leads node expand) r s

variable {node expand}

theorem Reached.mono {pending pending' : List V} (hsub : pending ⊆ pending') {s : R}
    (h : Reached node expand pending s) : Reached node expand pending' s := by
  obtain ⟨v, hv, r, hr, hpath⟩ := h
  exact ⟨v, hsub hv, r, hr, hpath⟩

/-- What is reached from what a node leads to is reached from the node. -/
theorem Reached.of_found {v : V} {rest found : List V} {r s : R} (hr : node v = some r)
    (hfound : expand r = .ok found) (h : Reached node expand (found ++ rest) s) :
    Reached node expand (v :: rest) s := by
  obtain ⟨w, hw, q, hq, hpath⟩ := h
  rcases List.mem_append.mp hw with hw | hw
  · exact ⟨v, List.mem_cons_self, r, hr, .head ⟨found, hfound, w, hw, hq⟩ hpath⟩
  · exact ⟨w, List.mem_cons_of_mem _ hw, q, hq, hpath⟩

end reached

section search

variable {R V ε : Type} [Fintype R] [DecidableEq R]

theorem card_sdiff_insert_lt {r : R} {visited : Finset R} (h : r ∉ visited) :
    (Finset.univ \ insert r visited).card < (Finset.univ \ visited).card := by
  refine Finset.card_lt_card ⟨?_, fun hsub => ?_⟩
  · exact Finset.sdiff_subset_sdiff (Finset.Subset.refl _) (Finset.subset_insert r visited)
  · have hmem := hsub (Finset.mem_sdiff.mpr ⟨Finset.mem_univ r, h⟩)
    exact (Finset.mem_sdiff.mp hmem).2 (Finset.mem_insert_self r visited)

/-- The search: what is found at a node is put in front of the list. -/
def search [Fintype R] (node : V → Option R) (expand : R → Except ε (List V)) (pending : List V)
    (visited : Finset R) : Searched R ε :=
  match pending with
  | [] => ⟨[], .ok ()⟩
  | v :: rest =>
    match node v with
    | none => search node expand rest visited
    | some r =>
      if h : r ∈ visited then search node expand rest visited
      else
        match expand r with
        | .error e => ⟨[r], .error e⟩
        | .ok found =>
          let later := search node expand (found ++ rest) (insert r visited)
          ⟨r :: later.inspected, later.outcome⟩
termination_by ((Finset.univ \ visited).card, pending.length)
decreasing_by
  · exact Prod.Lex.right _ (Nat.lt_succ_self _)
  · exact Prod.Lex.right _ (Nat.lt_succ_self _)
  · exact Prod.Lex.left _ _ (card_sdiff_insert_lt h)

variable {node : V → Option R} {expand : R → Except ε (List V)}

/-- **No node** is inspected twice, and none that was visited before. -/
theorem search_nodup (pending : List V) (visited : Finset R) :
    (search node expand pending visited).inspected.Nodup ∧
      ∀ r ∈ (search node expand pending visited).inspected, r ∉ visited := by
  fun_induction search node expand pending visited with
  | case1 visited => exact ⟨List.nodup_nil, fun _ h => absurd h List.not_mem_nil⟩
  | case2 visited v rest hnone ih => exact ih
  | case3 visited v rest r hr hmem ih => exact ih
  | case4 visited v rest r hr hnew e he =>
    refine ⟨List.nodup_singleton r, fun s hs => ?_⟩
    rw [List.mem_singleton.mp hs]
    exact hnew
  | case5 visited v rest r hr hnew found hfound later ih =>
    refine ⟨List.nodup_cons.mpr ⟨fun hmem => ?_, ih.1⟩, fun s hs => ?_⟩
    · exact ih.2 r hmem (Finset.mem_insert_self r visited)
    · rcases List.mem_cons.mp hs with rfl | hs
      · exact hnew
      · exact fun hmem => ih.2 s hs (Finset.mem_insert_of_mem hmem)

/-- Only reachable nodes are inspected. -/
theorem search_reached (pending : List V) (visited : Finset R) :
    ∀ r ∈ (search node expand pending visited).inspected, Reached node expand pending r := by
  fun_induction search node expand pending visited with
  | case1 visited => exact fun _ h => absurd h List.not_mem_nil
  | case2 visited v rest hnone ih =>
    exact fun r hr => (ih r hr).mono (List.subset_cons_self v rest)
  | case3 visited v rest s hs hmem ih =>
    exact fun r hr => (ih r hr).mono (List.subset_cons_self v rest)
  | case4 visited v rest s hs hnew e he =>
    intro r hr
    rw [List.mem_singleton.mp hr]
    exact ⟨v, List.mem_cons_self, s, hs, .refl⟩
  | case5 visited v rest s hs hnew found hfound later ih =>
    intro r hr
    rcases List.mem_cons.mp hr with rfl | hr
    · exact ⟨v, List.mem_cons_self, r, hs, .refl⟩
    · exact (ih r hr).of_found hs hfound

/-- A failure is that of an inspected node. -/
theorem search_error (pending : List V) (visited : Finset R) {e : ε}
    (h : (search node expand pending visited).outcome = .error e) :
    ∃ r ∈ (search node expand pending visited).inspected, expand r = .error e := by
  fun_induction search node expand pending visited with
  | case1 visited => cases h
  | case2 visited v rest hnone ih => exact ih h
  | case3 visited v rest s hs hmem ih => exact ih h
  | case4 visited v rest s hs hnew e' he =>
    cases h
    exact ⟨s, List.mem_singleton.mpr rfl, he⟩
  | case5 visited v rest s hs hnew found hfound later ih =>
    obtain ⟨r, hr, he⟩ := ih h
    exact ⟨r, List.mem_cons_of_mem _ hr, he⟩

/-- A node that was visited before or is inspected. -/
def Covered (node : V → Option R) (visited : Finset R) (inspected : List R) (v : V) : Prop :=
  ∀ s, node v = some s → s ∈ visited ∨ s ∈ inspected

/-- A search that succeeds covers its list and what it finds. -/
theorem search_covers (pending : List V) (visited : Finset R)
    (h : (search node expand pending visited).outcome = .ok ()) :
    (∀ v ∈ pending, Covered node visited (search node expand pending visited).inspected v) ∧
      ∀ r ∈ (search node expand pending visited).inspected, ∃ found, expand r = .ok found ∧
        ∀ v ∈ found, Covered node visited (search node expand pending visited).inspected v := by
  fun_induction search node expand pending visited with
  | case1 visited =>
    exact ⟨fun _ h => absurd h List.not_mem_nil, fun _ h => absurd h List.not_mem_nil⟩
  | case2 visited v rest hnone ih =>
    refine ⟨fun w hw => ?_, (ih h).2⟩
    rcases List.mem_cons.mp hw with rfl | hw
    · intro s hs
      rw [hnone] at hs
      cases hs
    · exact (ih h).1 w hw
  | case3 visited v rest r hr hmem ih =>
    refine ⟨fun w hw => ?_, (ih h).2⟩
    rcases List.mem_cons.mp hw with rfl | hw
    · intro s hs
      rw [← Option.some.inj (hr.symm.trans hs)]
      exact .inl hmem
    · exact (ih h).1 w hw
  | case4 visited v rest r hr hnew e he => cases h
  | case5 visited v rest r hr hnew found hfound later ih =>
    obtain ⟨hpending, hinspected⟩ := ih h
    have hmono : ∀ w, Covered node (insert r visited) later.inspected w →
        Covered node visited (r :: later.inspected) w := by
      intro w hw s hs
      rcases hw s hs with hmem | hmem
      · rcases Finset.mem_insert.mp hmem with rfl | hmem
        · exact .inr List.mem_cons_self
        · exact .inl hmem
      · exact .inr (List.mem_cons_of_mem _ hmem)
    refine ⟨fun w hw => ?_, fun s hs => ?_⟩
    · rcases List.mem_cons.mp hw with rfl | hw
      · intro s hs
        rw [← Option.some.inj (hr.symm.trans hs)]
        exact .inr List.mem_cons_self
      · exact hmono w (hpending w (List.mem_append_right _ hw))
    · rcases List.mem_cons.mp hs with rfl | hs
      · exact ⟨found, hfound, fun w hw => hmono w (hpending w (List.mem_append_left _ hw))⟩
      · obtain ⟨found', hfound', hcovers⟩ := hinspected s hs
        exact ⟨found', hfound', fun w hw => hmono w (hcovers w hw)⟩

/-- **The reachable nodes** are exactly the inspected ones when the search succeeds. -/
theorem search_inspected {pending : List V}
    (h : (search node expand pending ∅).outcome = .ok ()) (r : R) :
    r ∈ (search node expand pending ∅).inspected ↔ Reached node expand pending r := by
  refine ⟨search_reached pending ∅ r, ?_⟩
  obtain ⟨hpending, hinspected⟩ := search_covers pending ∅ h
  rintro ⟨v, hv, s, hs, hpath⟩
  have hstart : s ∈ (search node expand pending ∅).inspected :=
    (hpending v hv s hs).resolve_left (Finset.notMem_empty s)
  induction hpath with
  | refl => exact hstart
  | tail _ hlast ih =>
    obtain ⟨found, hfound, w, hw, hq⟩ := hlast
    obtain ⟨found', hfound', hcovers⟩ := hinspected _ ih
    obtain rfl := Except.ok.inj (hfound.symm.trans hfound')
    exact (hcovers w hw _ hq).resolve_left (Finset.notMem_empty _)

/-- **The search** succeeds exactly when no reachable node fails. -/
theorem search_ok_iff (pending : List V) :
    (search node expand pending ∅).outcome = .ok () ↔
      ∀ r, Reached node expand pending r → ∃ found, expand r = .ok found := by
  constructor
  · intro h r hr
    obtain ⟨found, hfound, -⟩ := (search_covers pending ∅ h).2 r ((search_inspected h r).mpr hr)
    exact ⟨found, hfound⟩
  · intro h
    cases houtcome : (search node expand pending ∅).outcome with
    | ok u => rfl
    | error e =>
      obtain ⟨r, hr, he⟩ := search_error pending ∅ houtcome
      obtain ⟨found, hfound⟩ := h r (search_reached pending ∅ r hr)
      rw [hfound] at he
      cases he

end search

end Foundations
