import AgencCoordination.Foundations.Guard
import AgencCoordination.Sdk.EventPolling

/-!
# What polling delivers

Every poll of an address lists exactly the newest of what landed since the poll before it, as many
as its pages hold; while nothing overflows, all polls together list what landed since the baseline,
once each and oldest first. A listed success is delivered, and again only when more signatures were
delivered in between than the memory holds.

* **`Serves`** — an RPC that answers from a growing chain.
* **`Polled`** — what the generator knows about the polls before.
* **`Yields`** — what it delivers of what it is listed.
* **`polling_exact`** — for every run of the generator.
-/

namespace AgencCoordination.Sdk

open Foundations

variable {Address Signature RpcError AgencEvent : Type} [DecidableEq Address]
  [DecidableEq Signature] {rpc : MarketplaceEventsPollingRpc Address Signature RpcError}
  {options : PollingOptions Address AgencEvent}

/-- An entry of the record of the generator. -/
abbrev PollEntry (Address Signature AgencEvent : Type) :=
  Event (PollState Address Signature) (Address × List (Fetched Signature AgencEvent))

/-- One poll of one address. -/
def Polls (rpc : MarketplaceEventsPollingRpc Address Signature RpcError)
    (options : PollingOptions Address AgencEvent) (s : PollState Address Signature)
    (label : Address × List (Fetched Signature AgencEvent)) (s' : PollState Address Signature) :
    Prop :=
  pollAddress rpc options s label.1 = .ok (s', label.2)

/-- The RPC answers from a chain in which the histories of the addresses grow, newest first, in
pages of a size, and serves the log messages of every transaction. -/
structure Serves (rpc : MarketplaceEventsPollingRpc Address Signature RpcError)
    (chain : ℕ → Address → List (SignatureInfo Signature)) (limit : ℕ)
    (logsOf : Signature → Option (List (List Char))) : Prop where
  grows : ∀ a, Grows SignatureInfo.signature fun t => chain t a
  sized : 0 < limit
  pages : ∀ t a mark before infos, rpc.getSignaturesForAddress t a mark before = .ok infos →
    infos = pageOf SignatureInfo.signature limit mark before (chain t a)
  transactions : ∀ t signature logs, rpc.getTransaction t signature = .ok logs →
    logs = logsOf signature

variable {chain : ℕ → Address → List (SignatureInfo Signature)} {limit : ℕ}
  {logsOf : Signature → Option (List (List Char))}

/-! ## One poll -/

/-- The signatures a poll is listed, oldest first. -/
def listed (rpc : MarketplaceEventsPollingRpc Address Signature RpcError)
    (options : PollingOptions Address AgencEvent) (s : PollState Address Signature)
    (a : Address) : List (SignatureInfo Signature) :=
  if a ∈ s.baselined then
    match fetchSignaturePages rpc a (s.watermarks a) options.maxPagesPerRound s.calls none with
    | .ok (pages, _) => pages.flatten.reverse
    | .error _ => []
  else []

omit [DecidableEq Address] in
theorem fetchSignaturePages_spec (hserves : Serves rpc chain limit logsOf) {a : Address}
    {mark : Option Signature} {fuel calls calls' : ℕ} {before : Option Signature}
    {pages : List (List (SignatureInfo Signature))}
    (h : fetchSignaturePages rpc a mark fuel calls before = .ok (pages, calls')) :
    pages = fetchPages SignatureInfo.signature
      (fun t b => pageOf SignatureInfo.signature limit mark b (chain t a)) fuel calls before ∧
      calls ≤ calls' := by
  induction fuel generalizing calls before pages calls' with
  | zero =>
    obtain ⟨rfl, rfl⟩ := Prod.mk.inj (Except.ok.inj h)
    exact ⟨rfl, Nat.le_refl _⟩
  | succ fuel ih =>
    simp only [fetchSignaturePages, bind_eq_ok] at h
    obtain ⟨infos, hinfos, h⟩ := h
    have hpage := hserves.pages _ _ _ _ _ hinfos
    rw [fetchPages, ← hpage]
    cases hlast : infos.getLast? with
    | none =>
      rw [hlast] at h
      obtain ⟨rfl, rfl⟩ := Prod.mk.inj (Except.ok.inj h)
      exact ⟨rfl, Nat.le_succ _⟩
    | some last =>
      rw [hlast] at h
      simp only [bind_eq_ok, Prod.exists] at h
      obtain ⟨rest, calls'', hrest, h⟩ := h
      obtain ⟨rfl, rfl⟩ := Prod.mk.inj (Except.ok.inj h)
      obtain ⟨rfl, hcalls⟩ := ih hrest
      exact ⟨rfl, Nat.le_of_succ_le hcalls⟩

/-- What the generator delivers of a list of signatures, after it delivered `before`: successful
ones in their order, none that it remembers, and each that it does not. -/
structure Yields (options : PollingOptions Address AgencEvent)
    (logsOf : Signature → Option (List (List Char))) (infos : List (SignatureInfo Signature))
    (before : List Signature) (fetched : List (Fetched Signature AgencEvent)) : Prop where
  ordered : (fetched.map Fetched.signature).Sublist
    ((infos.filter fun info => !info.failed).map SignatureInfo.signature)
  served : ∀ info ∈ infos, info.failed = false →
    info.signature ∈ before ++ fetched.map Fetched.signature
  events : ∀ f ∈ fetched, f.events =
    wantedEvents options.decodeEventBlob options.wanted (logsOf f.signature)

omit [DecidableEq Address] in
theorem yieldSignatures_spec (hserves : Serves rpc chain limit logsOf)
    {infos : List (SignatureInfo Signature)} {seen seen' before : List Signature}
    {calls calls' : ℕ} {fetched : List (Fetched Signature AgencEvent)}
    (h : yieldSignatures rpc options seen calls infos = .ok (seen', calls', fetched))
    (hseen : Remembers maxTrackedSignatures seen before)
    (hspaced : Spaced maxTrackedSignatures before) :
    Yields options logsOf infos before fetched ∧ calls ≤ calls' ∧
      Remembers maxTrackedSignatures seen' (before ++ fetched.map Fetched.signature) ∧
      Spaced maxTrackedSignatures (before ++ fetched.map Fetched.signature) := by
  induction infos generalizing seen calls before fetched with
  | nil =>
    simp only [yieldSignatures, Except.ok.injEq, Prod.mk.injEq] at h
    obtain ⟨rfl, rfl, rfl⟩ := h
    rw [List.map_nil, List.append_nil]
    exact ⟨⟨List.Sublist.refl _, fun info hinfo => by simp at hinfo, fun f hf => by simp at hf⟩,
      Nat.le_refl _, hseen, hspaced⟩
  | cons info infos ih =>
    rw [yieldSignatures] at h
    rcases ite_eq_iff.mp h with ⟨hskip, h⟩ | ⟨hkeep, h⟩
    · obtain ⟨hyields, hcalls, hmemory, hgaps⟩ := ih h hseen hspaced
      refine ⟨⟨?_, ?_, hyields.events⟩, hcalls, hmemory, hgaps⟩
      · exact hyields.ordered.trans (((List.sublist_cons_self info infos).filter _).map _)
      · intro info' hinfo' hsucceeded
        rcases List.mem_cons.mp hinfo' with rfl | hinfo'
        · rw [hsucceeded, Bool.false_or, decide_eq_true_eq] at hskip
          exact List.mem_append_left _ (hseen.mem hskip)
        · exact hyields.served info' hinfo' hsucceeded
    · rw [Bool.not_eq_true, Bool.or_eq_false_iff, decide_eq_false_iff_not] at hkeep
      obtain ⟨hsucceeded, hnew⟩ := hkeep
      simp only [bind_eq_ok, Prod.exists] at h
      obtain ⟨logs, hlogs, seen₁, calls₁, rest, hrest, h⟩ := h
      simp only [Except.ok.injEq, Prod.mk.injEq] at h
      obtain ⟨rfl, rfl, rfl⟩ := h
      obtain ⟨hyields, hcalls, hmemory, hgaps⟩ := ih hrest hseen.push (hspaced.push hseen hnew)
      rw [List.append_assoc, List.singleton_append] at hmemory hgaps
      refine ⟨⟨?_, ?_, ?_⟩, Nat.le_of_succ_le hcalls, hmemory, hgaps⟩
      · rw [List.filter_cons_of_pos (by simp [hsucceeded]), List.map_cons, List.map_cons]
        exact hyields.ordered.cons_cons _
      · intro info' hinfo' hsucceeded'
        rcases List.mem_cons.mp hinfo' with rfl | hinfo'
        · exact List.mem_append_right _ List.mem_cons_self
        · have hmem := hyields.served info' hinfo' hsucceeded'
          rwa [List.append_assoc, List.singleton_append] at hmem
      · intro f hf
        rcases List.mem_cons.mp hf with rfl | hf
        · rw [hserves.transactions _ _ _ hlogs]
        · exact hyields.events f hf

/-- What one poll of an address changes, and what it delivers. -/
structure PollsOnce (options : PollingOptions Address AgencEvent)
    (chain : ℕ → Address → List (SignatureInfo Signature))
    (logsOf : Signature → Option (List (List Char))) (infos : List (SignatureInfo Signature))
    (before : List Signature) (a : Address) (s s' : PollState Address Signature)
    (fetched : List (Fetched Signature AgencEvent)) : Prop where
  others : ∀ b ≠ a, s'.watermarks b = s.watermarks b
  mark : 0 < options.maxPagesPerRound →
    s'.watermarks a = markOf SignatureInfo.signature (chain s.calls a)
  baselined : ∀ b, b ∈ s'.baselined ↔ b = a ∨ b ∈ s.baselined
  calls : s.calls ≤ s'.calls
  yields : Yields options logsOf infos before fetched
  memory : Remembers maxTrackedSignatures s'.seenSignatures
    (before ++ fetched.map Fetched.signature)
  spaced : Spaced maxTrackedSignatures (before ++ fetched.map Fetched.signature)

omit [DecidableEq Address] in
/-- The pages of a poll are the newest of what landed since its mark was set, and the first page
starts with the newest of all. -/
theorem fetchSignaturePages_landed (hserves : Serves rpc chain limit logsOf) {a : Address}
    {mark : Option Signature} {fuel calls calls' t : ℕ}
    {pages : List (List (SignatureInfo Signature))} {landed : List (SignatureInfo Signature)}
    (h : fetchSignaturePages rpc a mark fuel calls none = .ok (pages, calls'))
    (hchain : chain calls a = landed ++ chain t a)
    (hmark : 0 < fuel → mark = markOf SignatureInfo.signature (chain t a)) :
    pages.flatten = landed.take (fuel * limit) ∧
      ∀ page rest, pages = page :: rest →
        ∃ newest, page.head? = some newest ∧ (chain calls a).head? = some newest := by
  obtain ⟨hpages, -⟩ := fetchSignaturePages_spec hserves h
  rcases Nat.eq_zero_or_pos fuel with rfl | hfuel
  · rw [fetchPages] at hpages
    subst hpages
    rw [Nat.zero_mul, List.take_zero]
    exact ⟨rfl, fun page rest hnone => by cases hnone⟩
  · rw [hmark hfuel] at hpages
    refine ⟨?_, fun page rest hcons => ?_⟩
    · rw [hpages]
      exact fetchPages_flatten (hserves.grows a) hserves.sized (fun _ _ => rfl) hchain
    · obtain ⟨hpage, hnonempty⟩ := fetchPages_first (hpages.symm.trans hcons)
      have hnodup := (hserves.grows a).nodup calls
      rw [hchain] at hnodup
      have htake : page = landed.take limit := by
        rw [hpage]
        show (newerThan _ _ (chain calls a)).take limit = _
        rw [hchain, newerThan_markOf hnodup]
      cases landed with
      | nil => exact absurd (htake.trans List.take_nil) hnonempty
      | cons newest landed =>
        refine ⟨newest, ?_, ?_⟩
        · rw [htake, List.head?_take, if_neg (Nat.ne_of_gt hserves.sized), List.head?_cons]
        · rw [hchain, List.cons_append, List.head?_cons]

/-- A poll lists the newest of what landed since its mark was set, oldest first. -/
theorem listed_landed (hserves : Serves rpc chain limit logsOf) {s s' : PollState Address Signature}
    {a : Address} {fetched : List (Fetched Signature AgencEvent)}
    (h : pollAddress rpc options s a = .ok (s', fetched)) (hagain : a ∈ s.baselined) {t : ℕ}
    {landed : List (SignatureInfo Signature)} (hchain : chain s.calls a = landed ++ chain t a)
    (hmark : 0 < options.maxPagesPerRound →
      s.watermarks a = markOf SignatureInfo.signature (chain t a)) :
    listed rpc options s a = (landed.take (options.maxPagesPerRound * limit)).reverse := by
  rw [pollAddress, if_neg (not_not.mpr hagain)] at h
  simp only [bind_eq_ok, Prod.exists] at h
  obtain ⟨pages, calls, hpages, -⟩ := h
  rw [listed, if_pos hagain, hpages]
  exact congrArg List.reverse (fetchSignaturePages_landed hserves hpages hchain hmark).1

theorem pollAddress_spec (hserves : Serves rpc chain limit logsOf)
    {s s' : PollState Address Signature} {a : Address}
    {fetched : List (Fetched Signature AgencEvent)} {before : List Signature}
    (h : pollAddress rpc options s a = .ok (s', fetched))
    (hfresh : a ∉ s.baselined → s.watermarks a = none)
    (hmark : a ∈ s.baselined → 0 < options.maxPagesPerRound → ∃ t ≤ s.calls,
      s.watermarks a = markOf SignatureInfo.signature (chain t a))
    (hseen : Remembers maxTrackedSignatures s.seenSignatures before)
    (hspaced : Spaced maxTrackedSignatures before) :
    PollsOnce options chain logsOf (listed rpc options s a) before a s s' fetched := by
  unfold pollAddress at h
  rcases ite_eq_iff.mp h with ⟨hfirst, h⟩ | ⟨hagain, h⟩
  · simp only [bind_eq_ok, Except.ok.injEq, Prod.mk.injEq] at h
    obtain ⟨infos, hinfos, rfl, rfl⟩ := h
    have hpage := hserves.pages _ _ _ _ _ hinfos
    have hhead : infos.head? = (chain s.calls a).head? := by
      rw [hpage, hfresh hfirst]
      show ((chain s.calls a).take limit).head? = _
      rw [List.head?_take, if_neg (Nat.ne_of_gt hserves.sized)]
    rw [listed, if_neg hfirst]
    refine ⟨?_, ?_, fun b => List.mem_cons, Nat.le_succ _, ?_, ?_, ?_⟩
    · intro b hb
      cases infos.head? with
      | none => rfl
      | some newest => exact Function.update_of_ne hb _ _
    · intro _
      rw [markOf, ← hhead]
      cases infos.head? with
      | none => exact hfresh hfirst
      | some newest => exact Function.update_self a _ _
    · exact ⟨List.Sublist.refl _, fun info hinfo => by simp at hinfo, fun f hf => by simp at hf⟩
    · rw [List.map_nil, List.append_nil]
      exact hseen
    · rw [List.map_nil, List.append_nil]
      exact hspaced
  · rw [not_not] at hagain
    simp only [bind_eq_ok, Prod.exists] at h
    obtain ⟨pages, calls, hpages, h⟩ := h
    have hlisted : listed rpc options s a = pages.flatten.reverse := by
      rw [listed, if_pos hagain, hpages]
    have hmoved := (fetchSignaturePages_spec hserves hpages).2
    have hbaselined : ∀ b, b ∈ s.baselined ↔ b = a ∨ b ∈ s.baselined := by
      intro b
      refine ⟨Or.inr, ?_⟩
      rintro (rfl | hb)
      · exact hagain
      · exact hb
    rw [hlisted]
    cases pages with
    | nil =>
      obtain ⟨rfl, rfl⟩ := Prod.mk.inj (Except.ok.inj h)
      refine ⟨fun _ _ => rfl, fun hpositive => ?_, hbaselined, hmoved, ?_, ?_, ?_⟩
      · obtain ⟨t, ht, hmark⟩ := hmark hagain hpositive
        obtain ⟨landed, hchain⟩ := (hserves.grows a).suffix ht
        obtain ⟨hnone, -⟩ :=
          fetchSignaturePages_landed hserves hpages hchain.symm fun _ => hmark
        have hempty : landed = [] := by
          rcases List.take_eq_nil_iff.mp hnone.symm with hzero | hempty
          · exact absurd hzero (Nat.ne_of_gt (Nat.mul_pos hpositive hserves.sized))
          · exact hempty
        have hchain : landed ++ chain t a = chain s.calls a := hchain
        show s.watermarks a = _
        rw [hmark, ← hchain, hempty, List.nil_append]
      · exact ⟨List.Sublist.refl _, fun info hinfo => by simp at hinfo, fun f hf => by simp at hf⟩
      · rw [List.map_nil, List.append_nil]
        exact hseen
      · rw [List.map_nil, List.append_nil]
        exact hspaced
    | cons newestPage rest =>
      simp only [bind_eq_ok, Prod.exists] at h
      obtain ⟨seen, calls', fetched', hyield, h⟩ := h
      obtain ⟨rfl, rfl⟩ := Prod.mk.inj (Except.ok.inj h)
      rw [List.map_reverse, ← List.reverse_flatten] at hyield
      obtain ⟨hyields, hlater, hmemory, hgaps⟩ :=
        yieldSignatures_spec hserves hyield hseen hspaced
      refine ⟨fun b hb => ?_, fun hpositive => ?_, hbaselined, Nat.le_trans hmoved hlater,
        hyields, hmemory, hgaps⟩
      · cases newestPage.head? with
        | none => rfl
        | some newest => exact Function.update_of_ne hb _ _
      · obtain ⟨t, ht, hmark⟩ := hmark hagain hpositive
        obtain ⟨landed, hchain⟩ := (hserves.grows a).suffix ht
        obtain ⟨-, hfirst⟩ :=
          fetchSignaturePages_landed hserves hpages hchain.symm fun _ => hmark
        obtain ⟨newest, hpage, hnewest⟩ := hfirst _ _ rfl
        rw [hpage, markOf, hnewest]
        exact Function.update_self a _ _

/-! ## All polls -/

/-- The number of calls made before the last poll of an address. -/
def lastPoll (a : Address) (log : List (PollEntry Address Signature AgencEvent)) : Option ℕ :=
  ((log.filter fun e => decide (e.label.1 = a)).getLast?).map fun e => e.before.calls

omit [DecidableEq Signature] in
theorem lastPoll_snoc {a : Address} {log : List (PollEntry Address Signature AgencEvent)}
    {e : PollEntry Address Signature AgencEvent} :
    lastPoll a (log ++ [e]) = if e.label.1 = a then some e.before.calls else lastPoll a log := by
  unfold lastPoll
  rw [List.filter_append]
  split_ifs with ha
  · rw [List.filter_cons_of_pos (by simpa using ha), List.filter_nil, List.getLast?_append]
    rfl
  · rw [List.filter_cons_of_neg (by simpa using ha), List.filter_nil, List.append_nil]

/-- The signatures that were delivered, in their order. -/
def delivered (log : List (PollEntry Address Signature AgencEvent)) : List Signature :=
  log.flatMap fun e => e.label.2.map Fetched.signature

/-- What the generator knows about the polls so far: which addresses it polled, the newest
signature there was at the last poll of each, and what it delivered lately. -/
structure Polled (options : PollingOptions Address AgencEvent)
    (chain : ℕ → Address → List (SignatureInfo Signature))
    (log : List (PollEntry Address Signature AgencEvent)) (s : PollState Address Signature) :
    Prop where
  baselined : ∀ a, a ∈ s.baselined ↔ (lastPoll a log).isSome = true
  fresh : ∀ a, a ∉ s.baselined → s.watermarks a = none
  mark : 0 < options.maxPagesPerRound → ∀ a t, lastPoll a log = some t →
    s.watermarks a = markOf SignatureInfo.signature (chain t a)
  past : ∀ a t, lastPoll a log = some t → t ≤ s.calls
  memory : Remembers maxTrackedSignatures s.seenSignatures (delivered log)
  spaced : Spaced maxTrackedSignatures (delivered log)

omit [DecidableEq Signature] in
theorem Polled.start : Polled options chain [] ({} : PollState Address Signature) := by
  refine ⟨fun a => ?_, fun _ _ => rfl, fun _ a t ht => ?_, fun a t ht => ?_, .nil _, .nil _⟩
  · simp [lastPoll]
  · cases ht
  · cases ht

/-- What one more poll is listed and delivers. -/
theorem Polled.once (hserves : Serves rpc chain limit logsOf)
    {log : List (PollEntry Address Signature AgencEvent)} {s s' : PollState Address Signature}
    {label : Address × List (Fetched Signature AgencEvent)} (h : Polled options chain log s)
    (hs : Polls rpc options s label s') :
    PollsOnce options chain logsOf (listed rpc options s label.1) (delivered log) label.1 s s'
      label.2 := by
  refine pollAddress_spec hserves hs (h.fresh label.1) (fun hagain hpositive => ?_) h.memory
    h.spaced
  obtain ⟨t, ht⟩ := Option.isSome_iff_exists.mp ((h.baselined label.1).mp hagain)
  exact ⟨t, h.past _ t ht, h.mark hpositive _ t ht⟩

theorem Polled.snoc (hserves : Serves rpc chain limit logsOf)
    {log : List (PollEntry Address Signature AgencEvent)} {s s' : PollState Address Signature}
    {label : Address × List (Fetched Signature AgencEvent)} (h : Polled options chain log s)
    (hs : Polls rpc options s label s') :
    Polled options chain (log ++ [⟨s, label, s'⟩]) s' := by
  have honce := h.once hserves hs
  have hdelivered : delivered (log ++ [⟨s, label, s'⟩]) =
      delivered log ++ label.2.map Fetched.signature := by
    simp [delivered]
  refine ⟨fun a => ?_, fun a ha => ?_, fun hpositive a t ht => ?_, fun a t ht => ?_, ?_, ?_⟩
  · rw [honce.baselined, lastPoll_snoc]
    split_ifs with ha
    · simp [Eq.comm.mp ha]
    · rw [h.baselined, or_iff_right (Ne.symm ha)]
  · have hboth := (not_congr (honce.baselined a)).mp ha
    rw [not_or] at hboth
    rw [honce.others a hboth.1]
    exact h.fresh a hboth.2
  · rw [lastPoll_snoc] at ht
    split_ifs at ht with ha
    · obtain rfl := Option.some.inj ht
      subst ha
      exact honce.mark hpositive
    · rw [honce.others a (Ne.symm ha)]
      exact h.mark hpositive a t ht
  · rw [lastPoll_snoc] at ht
    split_ifs at ht with ha
    · obtain rfl := Option.some.inj ht
      exact honce.calls
    · exact Nat.le_trans (h.past a t ht) honce.calls
  · rw [hdelivered]
    exact honce.memory
  · rw [hdelivered]
    exact honce.spaced

theorem polled_of_run (hserves : Serves rpc chain limit logsOf)
    {log : List (PollEntry Address Signature AgencEvent)} {s : PollState Address Signature}
    (hrun : Run (Polls rpc options) {} log s) : Polled options chain log s := by
  induction hrun with
  | refl => exact .start
  | snoc _ hs ih => exact ih.snoc hserves hs

/-! ## Whole subscriptions -/

/-- The number of calls made before the first poll of an address, its baseline. -/
def firstPoll (a : Address) (log : List (PollEntry Address Signature AgencEvent)) : Option ℕ :=
  ((log.filter fun e => decide (e.label.1 = a)).head?).map fun e => e.before.calls

/-- The signatures all polls of an address were listed, in their order. -/
def listedOf (rpc : MarketplaceEventsPollingRpc Address Signature RpcError)
    (options : PollingOptions Address AgencEvent) (a : Address)
    (log : List (PollEntry Address Signature AgencEvent)) : List (SignatureInfo Signature) :=
  (log.filter fun e => decide (e.label.1 = a)).flatMap fun e => listed rpc options e.before a

/-- No poll overflows: what landed since the poll before it fits its pages. -/
def FitsPages (options : PollingOptions Address AgencEvent)
    (chain : ℕ → Address → List (SignatureInfo Signature)) (limit : ℕ)
    (log : List (PollEntry Address Signature AgencEvent)) : Prop :=
  ∀ log₁ e log₂, log = log₁ ++ e :: log₂ → ∀ t, lastPoll e.label.1 log₁ = some t →
    (chain e.before.calls e.label.1).length ≤
      (chain t e.label.1).length + options.maxPagesPerRound * limit

omit [DecidableEq Signature] in
theorem Polled.baseline {log : List (PollEntry Address Signature AgencEvent)}
    {s : PollState Address Signature} (h : Polled options chain log s) {a : Address}
    (hfirst : lastPoll a log = none) : listed rpc options s a = [] := by
  rw [Sdk.listed, if_neg]
  rw [h.baselined, hfirst]
  exact Bool.false_ne_true

theorem Polled.listed (hserves : Serves rpc chain limit logsOf)
    {log : List (PollEntry Address Signature AgencEvent)} {s s' : PollState Address Signature}
    {label : Address × List (Fetched Signature AgencEvent)} (h : Polled options chain log s)
    (hs : Polls rpc options s label s') {t : ℕ} (ht : lastPoll label.1 log = some t)
    {landed : List (SignatureInfo Signature)}
    (hchain : chain s.calls label.1 = landed ++ chain t label.1) :
    listed rpc options s label.1 = (landed.take (options.maxPagesPerRound * limit)).reverse := by
  have hagain : label.1 ∈ s.baselined := by
    rw [h.baselined, ht]
    rfl
  exact listed_landed hserves hs hagain hchain fun hpositive => h.mark hpositive _ t ht

section Since

variable {a : Address} {log : List (PollEntry Address Signature AgencEvent)}
  {e : PollEntry Address Signature AgencEvent}

omit [DecidableEq Signature] in
theorem firstPoll_snoc :
    firstPoll a (log ++ [e]) =
      (firstPoll a log).or (if e.label.1 = a then some e.before.calls else none) := by
  unfold firstPoll
  rw [List.filter_append, List.head?_append]
  split_ifs with ha
  · rw [List.filter_cons_of_pos (by simpa using ha), List.filter_nil]
    cases (log.filter fun e => decide (e.label.1 = a)).head? with
    | none => rfl
    | some first => rfl
  · rw [List.filter_cons_of_neg (by simpa using ha), List.filter_nil]
    cases (log.filter fun e => decide (e.label.1 = a)).head? with
    | none => rfl
    | some first => rfl

omit [DecidableEq Signature] in
theorem firstPoll_eq_none : firstPoll a log = none ↔ lastPoll a log = none := by
  rw [firstPoll, lastPoll, Option.map_eq_none_iff, Option.map_eq_none_iff, List.head?_eq_none_iff,
    List.getLast?_eq_none_iff]

omit [DecidableEq Signature] in
theorem listedOf_snoc :
    listedOf rpc options a (log ++ [e]) =
      listedOf rpc options a log ++
        if e.label.1 = a then listed rpc options e.before a else [] := by
  unfold listedOf
  rw [List.filter_append, List.flatMap_append]
  congr 1
  split_ifs with ha
  · rw [List.filter_cons_of_pos (by simpa using ha)]
    simp
  · rw [List.filter_cons_of_neg (by simpa using ha)]
    rfl

omit [DecidableEq Signature] in
theorem listedOf_eq_nil (h : lastPoll a log = none) : listedOf rpc options a log = [] := by
  rw [lastPoll, Option.map_eq_none_iff, List.getLast?_eq_none_iff] at h
  rw [listedOf, h]
  rfl

omit [DecidableEq Signature] in
theorem FitsPages.of_snoc (h : FitsPages options chain limit (log ++ [e])) :
    FitsPages options chain limit log := by
  intro log₁ e' log₂ hsplit t ht
  refine h log₁ e' (log₂ ++ [e]) ?_ t ht
  rw [hsplit, List.append_assoc, List.cons_append]

end Since

/-- While nothing overflows, the polls of an address list what landed since its baseline, once each
and oldest first. -/
theorem listed_since_baseline (hserves : Serves rpc chain limit logsOf)
    {log : List (PollEntry Address Signature AgencEvent)} {s : PollState Address Signature}
    (hrun : Run (Polls rpc options) {} log s) (hfits : FitsPages options chain limit log)
    {a : Address} {t₀ t : ℕ} (hfirst : firstPoll a log = some t₀) (hlast : lastPoll a log = some t) :
    chain t a = (listedOf rpc options a log).reverse ++ chain t₀ a := by
  induction hrun generalizing t with
  | refl => cases hfirst
  | @snoc log s s' label hrun hs ih =>
    have hpolled := polled_of_run hserves hrun
    rw [lastPoll_snoc] at hlast
    rw [firstPoll_snoc] at hfirst
    rw [listedOf_snoc]
    split_ifs at hlast hfirst ⊢ with ha
    · obtain rfl : s.calls = t := Option.some.inj hlast
      subst ha
      cases hbefore : lastPoll label.1 log with
      | none =>
        rw [firstPoll_eq_none.mpr hbefore, Option.none_or] at hfirst
        obtain rfl : s.calls = t₀ := Option.some.inj hfirst
        rw [listedOf_eq_nil hbefore, hpolled.baseline hbefore]
        rfl
      | some t₁ =>
        obtain ⟨t₂, ht₂⟩ := Option.ne_none_iff_exists'.mp
          (mt firstPoll_eq_none.mp (by rw [hbefore]; exact Option.some_ne_none t₁))
        rw [ht₂, Option.some_or] at hfirst
        obtain rfl := Option.some.inj hfirst
        obtain ⟨landed, hchain⟩ :=
          (hserves.grows label.1).suffix (hpolled.past label.1 t₁ hbefore)
        have hchain : chain s.calls label.1 = landed ++ chain t₁ label.1 := hchain.symm
        have hroom : landed.length ≤ options.maxPagesPerRound * limit := by
          have hfit := hfits log ⟨s, label, s'⟩ [] rfl t₁ hbefore
          simp only [hchain, List.length_append] at hfit
          omega
        rw [hpolled.listed hserves hs hbefore hchain, List.take_of_length_le hroom,
          List.reverse_append, List.reverse_reverse, List.append_assoc, hchain,
          ih hfits.of_snoc ht₂ hbefore]
    · rw [List.append_nil]
      rw [Option.or_none] at hfirst
      exact ih hfits.of_snoc hfirst hlast

/-- The signatures of the successful ones. -/
def successes (infos : List (SignatureInfo Signature)) : List Signature :=
  (infos.filter fun info => !info.failed).map SignatureInfo.signature

/-- Each poll delivers from what it is listed. -/
theorem yields_of_run (hserves : Serves rpc chain limit logsOf)
    {log₁ log₂ : List (PollEntry Address Signature AgencEvent)}
    {e : PollEntry Address Signature AgencEvent} {s : PollState Address Signature}
    (hrun : Run (Polls rpc options) {} (log₁ ++ e :: log₂) s) :
    Polled options chain log₁ e.before ∧ Polls rpc options e.before e.label e.after ∧
      Yields options logsOf (listed rpc options e.before e.label.1) (delivered log₁) e.label.2 := by
  obtain ⟨hbefore, hs, -⟩ := hrun.split_at
  have hpolled := polled_of_run hserves hbefore
  exact ⟨hpolled, hs, (hpolled.once hserves hs).yields⟩

/-- With one address only, what is delivered comes in the order of the lists. -/
theorem delivered_sublist (hserves : Serves rpc chain limit logsOf) {a : Address}
    {log : List (PollEntry Address Signature AgencEvent)} {s : PollState Address Signature}
    (hrun : Run (Polls rpc options) {} log s) (hone : ∀ e ∈ log, e.label.1 = a) :
    (delivered log).Sublist (successes (listedOf rpc options a log)) := by
  induction hrun with
  | refl => exact List.Sublist.refl _
  | @snoc log s s' label hrun hs ih =>
    have ha : label.1 = a := hone ⟨s, label, s'⟩ (by simp)
    have hyields := ((polled_of_run hserves hrun).once hserves hs).yields
    rw [listedOf_snoc, if_pos ha, delivered, List.flatMap_append, List.flatMap_singleton,
      successes, List.filter_append, List.map_append]
    subst ha
    exact (ih fun e he => hone e (List.mem_append_left _ he)).append hyields.ordered

/-- A listed success is delivered. -/
theorem delivered_of_listed (hserves : Serves rpc chain limit logsOf) {a : Address}
    {log : List (PollEntry Address Signature AgencEvent)} {s : PollState Address Signature}
    (hrun : Run (Polls rpc options) {} log s) {info : SignatureInfo Signature}
    (hinfo : info ∈ listedOf rpc options a log) (hsucceeded : info.failed = false) :
    info.signature ∈ delivered log := by
  induction hrun with
  | refl => simp [listedOf] at hinfo
  | @snoc log s s' label hrun hs ih =>
    have hyields := ((polled_of_run hserves hrun).once hserves hs).yields
    have hdelivered : delivered (log ++ [⟨s, label, s'⟩]) =
        delivered log ++ label.2.map Fetched.signature := by
      simp [delivered]
    rw [hdelivered]
    rw [listedOf_snoc] at hinfo
    rcases List.mem_append.mp hinfo with hbefore | hlast
    · exact List.mem_append_left _ (ih hbefore)
    · split_ifs at hlast with ha
      · subst ha
        exact hyields.served info hlast hsucceeded
      · simp at hlast

/-- One watched address: while nothing overflows, exactly the successes since the baseline are
delivered, once each and oldest first. -/
theorem delivered_single (hserves : Serves rpc chain limit logsOf) {a : Address}
    {log : List (PollEntry Address Signature AgencEvent)} {s : PollState Address Signature}
    (hrun : Run (Polls rpc options) {} log s) (hone : ∀ e ∈ log, e.label.1 = a)
    (hfits : FitsPages options chain limit log) :
    delivered log = successes (listedOf rpc options a log) := by
  refine (delivered_sublist hserves hrun hone).eq_of_length_le ?_
  have hnodup : (successes (listedOf rpc options a log)).Nodup := by
    cases hlast : lastPoll a log with
    | none =>
      rw [listedOf_eq_nil hlast]
      exact List.nodup_nil
    | some t =>
      obtain ⟨t₀, ht₀⟩ := Option.ne_none_iff_exists'.mp
        (mt firstPoll_eq_none.mp (by rw [hlast]; exact Option.some_ne_none t))
      have hchain := (hserves.grows a).nodup t
      rw [show chain t a = _ from listed_since_baseline hserves hrun hfits ht₀ hlast,
        List.map_append, List.map_reverse] at hchain
      have hlisted := List.nodup_reverse.mp (List.nodup_append.mp hchain).1
      exact hlisted.sublist (List.filter_sublist.map _)
  refine (List.subperm_of_subset hnodup ?_).length_le
  intro signature hsignature
  obtain ⟨info, hinfo, rfl⟩ := List.mem_map.mp hsignature
  obtain ⟨hlisted, hsucceeded⟩ := List.mem_filter.mp hinfo
  exact delivered_of_listed hserves hrun hlisted (by simpa using hsucceeded)

/-- What polling delivers, for any number of rounds. The first poll of an address is listed
nothing, and every later one the newest of what landed since the poll before it, as many as its
pages hold, oldest first. Of these it delivers, in that order, the successful ones it did not
deliver lately, with their wanted events; so every listed success is delivered, and again only
after as many others as the memory holds. While no poll overflows, all polls of an address list
what landed since its baseline, and a single watched address has each success among it delivered
exactly once. -/
theorem polling_exact (hserves : Serves rpc chain limit logsOf) {rounds : ℕ}
    {s : PollState Address Signature} {log : List (PollEntry Address Signature AgencEvent)}
    (h : subscribeMarketplaceEventsViaPolling rpc options rounds = .ok (s, log)) :
    (∀ log₁ e log₂, log = log₁ ++ e :: log₂ →
      (lastPoll e.label.1 log₁ = none → listed rpc options e.before e.label.1 = []) ∧
      (∀ t landed, lastPoll e.label.1 log₁ = some t →
        chain e.before.calls e.label.1 = landed ++ chain t e.label.1 →
        listed rpc options e.before e.label.1 =
          (landed.take (options.maxPagesPerRound * limit)).reverse) ∧
      Yields options logsOf (listed rpc options e.before e.label.1) (delivered log₁) e.label.2) ∧
    Spaced maxTrackedSignatures (delivered log) ∧
    ((delivered log).length ≤ maxTrackedSignatures → (delivered log).Nodup) ∧
    (FitsPages options chain limit log →
      (∀ a t₀ t, firstPoll a log = some t₀ → lastPoll a log = some t →
        chain t a = (listedOf rpc options a log).reverse ++ chain t₀ a) ∧
      ∀ a, options.watched = [a] → delivered log = successes (listedOf rpc options a log)) := by
  have hrun : Run (Polls rpc options) {} log s := Run.of_record h
  have hspaced := (polled_of_run hserves hrun).spaced
  refine ⟨?_, hspaced, hspaced.nodup, fun hfits => ⟨?_, fun a hwatched => ?_⟩⟩
  · rintro log₁ e log₂ rfl
    obtain ⟨hpolled, hs, hyields⟩ := yields_of_run hserves hrun
    exact ⟨hpolled.baseline, fun t landed ht hchain => hpolled.listed hserves hs ht hchain, hyields⟩
  · exact fun a t₀ t hfirst hlast => listed_since_baseline hserves hrun hfits hfirst hlast
  · refine delivered_single hserves hrun (fun e he => ?_) hfits
    have hinputs := Run.record_inputs h
    have hmem : e.label.1 ∈ log.map fun e => e.label.1 := List.mem_map_of_mem he
    rw [hinputs, hwatched, List.mem_flatten] at hmem
    obtain ⟨round, hround, hmem⟩ := hmem
    rw [List.eq_of_mem_replicate hround, List.mem_singleton] at hmem
    exact hmem

/-! ## An example -/

/-- A history of one signature, and after the first call of two more, the newest a failure. -/
def sampleChain (t _ : ℕ) : List (SignatureInfo ℕ) :=
  match t with
  | 0 => [⟨1, false⟩]
  | _ + 1 => [⟨3, true⟩, ⟨2, false⟩, ⟨1, false⟩]

/-- An RPC that answers from it, in pages of two. -/
def sampleRpc : MarketplaceEventsPollingRpc ℕ ℕ Unit where
  getSignaturesForAddress t a mark before :=
    .ok (pageOf SignatureInfo.signature 2 mark before (sampleChain t a))
  getTransaction _ _ := .ok (some [])

/-- A subscription to one address. -/
def sampleOptions : PollingOptions ℕ Unit where
  watched := [7]
  decodeEventBlob _ := none

theorem sampleRpc_serves : Serves sampleRpc sampleChain 2 fun _ => some [] := by
  refine ⟨fun a => ⟨fun t => ?_, fun t => ?_⟩, by decide, ?_, ?_⟩
  · cases t with
    | zero => exact ⟨[⟨3, true⟩, ⟨2, false⟩], rfl⟩
    | succ t => exact List.suffix_refl _
  · cases t with
    | zero => simp [sampleChain]
    | succ t => simp [sampleChain]
  · intro t a mark before infos h
    exact (Except.ok.inj h).symm
  · intro t signature logs h
    exact (Except.ok.inj h).symm

/-- In two rounds the one success since the baseline is delivered. -/
theorem polling_exact_single :
    ∃ s log, subscribeMarketplaceEventsViaPolling sampleRpc sampleOptions 2 = .ok (s, log) ∧
      successes (listedOf sampleRpc sampleOptions 7 log) = [2] := by
  have hplay : (subscribeMarketplaceEventsViaPolling sampleRpc sampleOptions 2).toOption.map
      (fun r => delivered r.2) = some [2] := by
    decide +kernel
  obtain ⟨⟨s, log⟩, hrun, hdelivered⟩ := Option.map_eq_some_iff.mp hplay
  have hok : subscribeMarketplaceEventsViaPolling sampleRpc sampleOptions 2 = .ok (s, log) := by
    cases hresult : subscribeMarketplaceEventsViaPolling sampleRpc sampleOptions 2 with
    | error e =>
      rw [hresult] at hrun
      cases hrun
    | ok r =>
      rw [hresult] at hrun
      rw [Option.some.inj hrun]
  have hfits : FitsPages sampleOptions sampleChain 2 log := by
    intro log₁ e log₂ _ t _
    have hlength : (sampleChain e.before.calls e.label.1).length ≤ 3 := by
      cases e.before.calls with
      | zero => exact Nat.le_of_ble_eq_true rfl
      | succ t => exact Nat.le_refl 3
    exact Nat.le_trans hlength (Nat.le_trans (by decide) (Nat.le_add_left _ _))
  refine ⟨s, log, hok, ?_⟩
  rw [← ((polling_exact sampleRpc_serves hok).2.2.2 hfits).2 7 rfl]
  exact hdelivered

end AgencCoordination.Sdk
