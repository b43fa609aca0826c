import AgencCoordination.Worker.State
import AgencCoordination.Foundations.Guard

/-!
# Reading back what was written

A state is valid (`WorkerState.Valid`) when every field passes its own reader and the ledger and
the claim in flight fit together. Validity is exactly what the reader of a file accepts:

* **`currentState_json`** — a valid state is read back from what is written of it.
* **`currentState_valid`** — whatever file `currentState` accepts, the state is valid.
* **`pruneSettledSubmissions_keeps`** — pruning keeps every unsettled record and the newest
  settled ones, in order.
* **`loadState_saveState`** — a saved state is loaded up to pruning.
-/

namespace AgencCoordination.Worker

open Foundations

variable {p : Platform}

/-! ## Validity -/

structure ExecutionIntent.Valid (p : Platform) (e : ExecutionIntent) : Prop where
  canonical : p.toBase64 (p.fromBase64 e.resultBytesBase64) = e.resultBytesBase64
  hash : hashHex e.resultHashHex = true
  digest : p.sha256Hex (p.fromBase64 e.resultBytesBase64) = e.resultHashHex
  reward : isDecimal e.rewardAmount = true
  executedAt : p.isIso e.executedAt = true

/-- A text that is not empty. -/
def Nonempty (s : String) : Prop := s.toList.isEmpty = false

instance (s : String) : Decidable (Nonempty s) := inferInstanceAs (Decidable (_ = _))

structure SubmissionIntent.Valid (p : Platform) (i : SubmissionIntent) : Prop where
  uri : Nonempty i.resultUri
  hash : hashHex i.resultHashHex = true
  reward : isDecimal i.rewardAmount = true
  preparedAt : p.isIso i.preparedAt = true
  lastBroadcastAt : ∀ t, i.lastBroadcastAt = some t → p.isIso t = true
  signature : ∀ t, i.transactionSignature = some t → Nonempty t

structure OpenClaim.Valid (p : Platform) (c : OpenClaim) : Prop where
  task : Nonempty c.task ∧ p.isAddress c.task = true
  claimedAt : p.isIso c.claimedAt = true
  signature : ∀ t, c.claimTransactionSignature = some t → Nonempty t
  revision : ∀ n, c.revisionSubmissionCount = some n → 1 ≤ n ∧ n ≤ 65535
  execution : ∀ e, c.execution = some e → e.Valid p
  submission : ∀ i, c.submission = some i → i.Valid p
  executes : c.phase.executes = c.execution.isSome
  submits : (c.phase == .submitting) = c.submission.isSome

/-- The fields of a settlement, all of them or none. -/
def SubmissionRecord.Settlement (r : SubmissionRecord) : Prop :=
  if r.settled then
    r.outcome.isSome ∧ r.earnedLamports.isSome ∧ r.settlementSignature.isSome ∧ r.settledAt.isSome
  else
    r.outcome = none ∧ r.earnedLamports = none ∧ r.settlementSignature = none ∧ r.settledAt = none

structure SubmissionRecord.Valid (p : Platform) (r : SubmissionRecord) : Prop where
  task : Nonempty r.task ∧ p.isAddress r.task = true
  signature : ∀ t, r.submissionSignature = some t → Nonempty t
  uri : Nonempty r.resultUri
  hash : hashHex r.resultHashHex = true
  reward : isDecimal r.rewardAmount = true
  submittedAt : p.isIso r.submittedAt = true
  settlement : r.Settlement
  earned : ∀ t, r.earnedLamports = some (some t) → isDecimal t = true
  settlementSignature : ∀ t, r.settlementSignature = some (some t) → Nonempty t
  settledAt : ∀ t, r.settledAt = some t → p.isIso t = true

structure WorkerState.Valid (p : Platform) (s : WorkerState) : Prop where
  agentIdHex : ∀ t, s.agentIdHex = some t → hashHex t = true
  baseline : isDecimal s.totalEarnedBaseline = true
  records : ∀ r ∈ s.submissions, r.Valid p
  length : s.submissions.length ≤ maxParsedSubmissions
  unsettled : s.unsettled ≤ maxUnsettledSubmissions
  distinct : (s.submissions.map SubmissionRecord.task).Nodup
  claim : ∀ c, s.openClaim = some c → c.Valid p
  apart : ∀ c, s.openClaim = some c → ∀ r ∈ s.submissions, r.task ≠ c.task

theorem emptyState_valid : emptyState.Valid p where
  agentIdHex t h := by cases h
  baseline := by decide
  records r h := by cases h
  length := Nat.zero_le _
  unsettled := Nat.zero_le _
  distinct := List.nodup_nil
  claim c h := by cases h
  apart c h := by cases h

/-! ## Readers of one field -/

/-- An object written from the required fields and any of the optional ones has the exact keys. -/
theorem exactKeys_fields {l : List (String × Option Json)} {label : String}
    {required optional : List String} (hnames : ∀ name ∈ l.map Prod.fst, name ∈ required ++ optional)
    (hrequired : ∀ key ∈ required, ∃ v, (key, some v) ∈ l) :
    exactKeys (Json.fields l) label required optional = .ok () := by
  have hfirst : (Json.fields l).find? (fun field => !(required ++ optional).contains field.1)
      = none := by
    rw [List.find?_eq_none]
    intro field hfield
    have hmem := hnames field.1 (Json.fields_names hfield)
    simp only [List.contains_eq_mem, hmem, decide_true, Bool.not_true, Bool.false_eq_true,
      not_false_eq_true]
  have hsecond : required.find? (fun key => !(Json.fields l).any fun field => field.1 == key)
      = none := by
    rw [List.find?_eq_none]
    intro key hkey
    obtain ⟨v, hv⟩ := hrequired key hkey
    rw [Json.fields_any hv]
    decide
  unfold exactKeys
  rw [hfirst, hsecond]

theorem string_str (s label : String) : string (some (.str s)) label = .ok s := rfl

theorem nonempty_str {s : String} (h : Nonempty s) (label : String) :
    nonempty (some (.str s)) label = .ok s := by
  unfold nonempty
  rw [string_str]
  exact if_neg (by rw [h]; decide)

theorem iso_str {s : String} (h : p.isIso s = true) (label : String) :
    p.iso (some (.str s)) label = .ok s := by
  unfold Platform.iso
  rw [string_str]
  exact if_pos h

theorem decimal_str {s : String} (h : isDecimal s = true) (label : String) :
    decimal (some (.str s)) label = .ok s := by
  unfold decimal
  rw [string_str]
  exact if_pos h

theorem hash_str {s : String} (h : hashHex s = true) (label : String) :
    hash (some (.str s)) label = .ok s := by
  unfold hash
  rw [string_str]
  exact if_pos h

theorem taskAddress_str {s : String} (h : Nonempty s ∧ p.isAddress s = true) (label : String) :
    p.taskAddress (some (.str s)) label = .ok s := by
  unfold Platform.taskAddress
  rw [nonempty_str h.1]
  exact if_pos h.2

/-- An optional field is read back when its reader reads back the value it has. -/
theorem optionally_map {α : Type} {value : Option α} {write : α → Json}
    {read : Option Json → Except String α}
    (h : ∀ a, value = some a → read (some (write a)) = .ok a) :
    optionally (value.map write) read = .ok value := by
  cases value with
  | none => rfl
  | some a =>
    unfold optionally
    rw [Option.map_some]
    simp only
    rw [h a rfl]
    rfl

theorem readRevisionSubmissionCount_num {count : Option ℕ} {label : String}
    (h : ∀ n, count = some n → 1 ≤ n ∧ n ≤ 65535) :
    readRevisionSubmissionCount (count.map countJson) label = .ok count := by
  cases count with
  | none => rfl
  | some n =>
    obtain ⟨hlow, hhigh⟩ := h n rfl
    have hden : ((n : ℕ) : ℚ).den = 1 := Rat.den_natCast n
    have hnum : ((n : ℕ) : ℚ).num = n := Rat.num_natCast n
    have hcond : ((n : ℕ) : ℚ).den = 1 ∧ 1 ≤ ((n : ℕ) : ℚ).num ∧ ((n : ℕ) : ℚ).num ≤ 65535 := by
      rw [hden, hnum]
      omega
    have hread : readRevisionSubmissionCount (some (countJson n)) label =
        .ok (some ((n : ℕ) : ℚ).num.toNat) := if_pos hcond
    rw [hnum, Int.toNat_natCast] at hread
    exact hread

/-! ## What is written is read back -/

theorem executionIntent_json {e : ExecutionIntent} (h : e.Valid p) (label : String) :
    p.executionIntent (some e.json) label = .ok e := by
  have hkeys : exactKeys (Json.fields e.fields) label
      ["resultBytesBase64", "resultHashHex", "rewardAmount", "executedAt"] [] = .ok () :=
    exactKeys_fields (by simp [ExecutionIntent.fields]) (by simp [ExecutionIntent.fields])
  have get : ∀ {name value}, (name, value) ∈ e.fields → (Json.fields e.fields).lookup name = value :=
    fun hmem => Json.fields_lookup (by simp [ExecutionIntent.fields]) hmem
  have hbytes : (Json.fields e.fields).lookup "resultBytesBase64" =
      some (.str e.resultBytesBase64) := get (by simp [ExecutionIntent.fields])
  have hhash : (Json.fields e.fields).lookup "resultHashHex" = some (.str e.resultHashHex) :=
    get (by simp [ExecutionIntent.fields])
  have hreward : (Json.fields e.fields).lookup "rewardAmount" = some (.str e.rewardAmount) :=
    get (by simp [ExecutionIntent.fields])
  have hexecuted : (Json.fields e.fields).lookup "executedAt" = some (.str e.executedAt) :=
    get (by simp [ExecutionIntent.fields])
  unfold Platform.executionIntent
  rw [bind_eq_ok]
  refine ⟨Json.fields e.fields, rfl, ?_⟩
  rw [hbytes, hhash, hreward, hexecuted]
  simp only [bind_eq_ok]
  refine ⟨(), hkeys, e.resultBytesBase64, rfl, ?_⟩
  rw [if_neg (not_not.mpr h.canonical), bind_eq_ok]
  refine ⟨e.resultHashHex, hash_str h.hash _, ?_⟩
  rw [if_neg (not_not.mpr h.digest)]
  simp only [bind_eq_ok]
  exact ⟨_, decimal_str h.reward _, _, iso_str h.executedAt _, rfl⟩

theorem submissionIntent_json {i : SubmissionIntent} (h : i.Valid p) (label : String) :
    p.submissionIntent (some i.json) label = .ok i := by
  have hkeys : exactKeys (Json.fields i.fields) label
      ["resultUri", "resultHashHex", "rewardAmount", "preparedAt"]
      ["lastBroadcastAt", "transactionSignature"] = .ok () :=
    exactKeys_fields (by simp [SubmissionIntent.fields]) (by simp [SubmissionIntent.fields])
  have get : ∀ {name value}, (name, value) ∈ i.fields → (Json.fields i.fields).lookup name = value :=
    fun hmem => Json.fields_lookup (by simp [SubmissionIntent.fields]) hmem
  have huri : (Json.fields i.fields).lookup "resultUri" = some (.str i.resultUri) :=
    get (by simp [SubmissionIntent.fields])
  have hhash : (Json.fields i.fields).lookup "resultHashHex" = some (.str i.resultHashHex) :=
    get (by simp [SubmissionIntent.fields])
  have hreward : (Json.fields i.fields).lookup "rewardAmount" = some (.str i.rewardAmount) :=
    get (by simp [SubmissionIntent.fields])
  have hprepared : (Json.fields i.fields).lookup "preparedAt" = some (.str i.preparedAt) :=
    get (by simp [SubmissionIntent.fields])
  have hbroadcast : (Json.fields i.fields).lookup "lastBroadcastAt" =
      i.lastBroadcastAt.map .str := get (by simp [SubmissionIntent.fields])
  have hsignature : (Json.fields i.fields).lookup "transactionSignature" =
      i.transactionSignature.map .str := get (by simp [SubmissionIntent.fields])
  unfold Platform.submissionIntent
  rw [bind_eq_ok]
  refine ⟨Json.fields i.fields, rfl, ?_⟩
  rw [huri, hhash, hreward, hprepared, hbroadcast, hsignature]
  simp only [bind_eq_ok]
  exact ⟨(), hkeys, _, optionally_map fun t ht => nonempty_str (h.signature t ht) _,
    _, nonempty_str h.uri _, _, hash_str h.hash _, _, decimal_str h.reward _,
    _, iso_str h.preparedAt _, _, optionally_map fun t ht => iso_str (h.lastBroadcastAt t ht) _, rfl⟩

theorem openClaim_json {c : OpenClaim} (h : c.Valid p) (label : String) :
    p.openClaim (some c.json) label = .ok c := by
  have hkeys : exactKeys (Json.fields c.fields) label ["task", "claimedAt", "phase"]
      ["claimTransactionSignature", "revisionSubmissionCount", "execution", "submission"] =
      .ok () :=
    exactKeys_fields (by simp [OpenClaim.fields]) (by simp [OpenClaim.fields])
  have get : ∀ {name value}, (name, value) ∈ c.fields → (Json.fields c.fields).lookup name = value :=
    fun hmem => Json.fields_lookup (by simp [OpenClaim.fields]) hmem
  have htask : (Json.fields c.fields).lookup "task" = some (.str c.task) :=
    get (by simp [OpenClaim.fields])
  have hclaimed : (Json.fields c.fields).lookup "claimedAt" = some (.str c.claimedAt) :=
    get (by simp [OpenClaim.fields])
  have hphase : (Json.fields c.fields).lookup "phase" = some (.str c.phase.text) :=
    get (by simp [OpenClaim.fields])
  have hsignature : (Json.fields c.fields).lookup "claimTransactionSignature" =
      c.claimTransactionSignature.map .str := get (by simp [OpenClaim.fields])
  have hrevision : (Json.fields c.fields).lookup "revisionSubmissionCount" =
      c.revisionSubmissionCount.map countJson := get (by simp [OpenClaim.fields])
  have hexecution : (Json.fields c.fields).lookup "execution" =
      c.execution.map ExecutionIntent.json := get (by simp [OpenClaim.fields])
  have hsubmission : (Json.fields c.fields).lookup "submission" =
      c.submission.map SubmissionIntent.json := get (by simp [OpenClaim.fields])
  have hread : readPhase (some (.str c.phase.text)) label = .ok c.phase := by
    unfold readPhase
    simp only [Phase.ofText_text]
  unfold Platform.openClaim
  rw [bind_eq_ok]
  refine ⟨Json.fields c.fields, rfl, ?_⟩
  rw [htask, hclaimed, hphase, hsignature, hrevision, hexecution, hsubmission]
  simp only [bind_eq_ok]
  refine ⟨(), hkeys, c.phase, hread,
    c.execution, optionally_map fun e he => executionIntent_json (h.execution e he) _,
    c.submission, optionally_map fun i hi => submissionIntent_json (h.submission i hi) _, ?_⟩
  rw [if_neg (not_not.mpr h.executes), if_neg (not_not.mpr h.submits)]
  simp only [bind_eq_ok]
  exact ⟨_, optionally_map fun t ht => nonempty_str (h.signature t ht) _,
    _, readRevisionSubmissionCount_num h.revision, _, taskAddress_str h.task _,
    _, iso_str h.claimedAt _, rfl⟩

/-- A nullable text is read back. -/
theorem nullableString_nullable (s : Option String) (message : String) :
    nullableString (some (nullable s)) message = .ok s := by
  cases s <;> rfl

theorem readOutcome_text (outcome : Option Outcome) (label : String) :
    readOutcome (outcome.map fun o => .str o.text) label = .ok outcome := by
  cases outcome with
  | none => rfl
  | some o =>
    unfold readOutcome
    simp only [Option.map_some, Outcome.ofText_text]

theorem readTerminalEvidence_text (evidence : Option TerminalEvidence) (label : String) :
    readTerminalEvidence (evidence.map fun e => .str e.text) label = .ok evidence := by
  cases evidence with
  | none => rfl
  | some e =>
    unfold readTerminalEvidence
    simp only [Option.map_some, TerminalEvidence.ofText_text]

theorem readEarnedLamports_nullable {earned : Option (Option String)} {label : String}
    (h : ∀ t, earned = some (some t) → isDecimal t = true) :
    readEarnedLamports (earned.map nullable) label = .ok earned := by
  cases earned with
  | none => rfl
  | some value =>
    cases value with
    | none => rfl
    | some t => exact if_pos (h t rfl)

theorem readSettlementSignature_nullable {signature : Option (Option String)} {label : String}
    (h : ∀ t, signature = some (some t) → Nonempty t) :
    readSettlementSignature (signature.map nullable) label = .ok signature := by
  cases signature with
  | none => rfl
  | some value =>
    cases value with
    | none => rfl
    | some t => exact if_neg (by rw [h t rfl]; decide)

/-- The settlement fields of a valid record pass the check. -/
theorem checkSettlementFields_ok {r : SubmissionRecord} {parsed : List (String × Json)}
    {label : String} (h : r.Settlement)
    (hearned : (parsed.lookup "earnedLamports").isSome = r.earnedLamports.isSome)
    (hsignature : (parsed.lookup "settlementSignature").isSome = r.settlementSignature.isSome)
    (hsettled : (parsed.lookup "settledAt").isSome = r.settledAt.isSome) :
    checkSettlementFields parsed label r.settled r.outcome = .ok () := by
  unfold checkSettlementFields
  simp only [hearned, hsignature, hsettled]
  unfold SubmissionRecord.Settlement at h
  cases hs : r.settled with
  | true =>
    rw [hs, if_pos rfl] at h
    obtain ⟨ho, he, hsig, hat⟩ := h
    have hnone : r.outcome.isNone = false := by
      rw [Option.isNone_eq_false_iff]
      exact ho
    simp [hnone, he, hsig, hat]
  | false =>
    rw [hs, if_neg (by decide)] at h
    obtain ⟨ho, he, hsig, hat⟩ := h
    simp [ho, he, hsig, hat]

theorem submissionRecord_json {r : SubmissionRecord} (h : r.Valid p) (label : String) :
    p.submissionRecord r.json label = .ok r := by
  have hkeys : exactKeys (Json.fields r.fields) label
      ["task", "submissionSignature", "resultUri", "resultHashHex", "rewardAmount", "submittedAt",
        "settled"]
      ["outcome", "terminalEvidence", "earnedLamports", "settlementSignature", "settledAt"] =
      .ok () :=
    exactKeys_fields (by simp [SubmissionRecord.fields]) (by simp [SubmissionRecord.fields])
  have get : ∀ {name value}, (name, value) ∈ r.fields → (Json.fields r.fields).lookup name = value :=
    fun hmem => Json.fields_lookup (by simp [SubmissionRecord.fields]) hmem
  have htask : (Json.fields r.fields).lookup "task" = some (.str r.task) :=
    get (by simp [SubmissionRecord.fields])
  have hsigned : (Json.fields r.fields).lookup "submissionSignature" =
      some (nullable r.submissionSignature) := get (by simp [SubmissionRecord.fields])
  have huri : (Json.fields r.fields).lookup "resultUri" = some (.str r.resultUri) :=
    get (by simp [SubmissionRecord.fields])
  have hhash : (Json.fields r.fields).lookup "resultHashHex" = some (.str r.resultHashHex) :=
    get (by simp [SubmissionRecord.fields])
  have hreward : (Json.fields r.fields).lookup "rewardAmount" = some (.str r.rewardAmount) :=
    get (by simp [SubmissionRecord.fields])
  have hsubmitted : (Json.fields r.fields).lookup "submittedAt" = some (.str r.submittedAt) :=
    get (by simp [SubmissionRecord.fields])
  have hsettled : (Json.fields r.fields).lookup "settled" = some (.bool r.settled) :=
    get (by simp [SubmissionRecord.fields])
  have houtcome : (Json.fields r.fields).lookup "outcome" =
      r.outcome.map fun o => .str o.text := get (by simp [SubmissionRecord.fields])
  have hevidence : (Json.fields r.fields).lookup "terminalEvidence" =
      r.terminalEvidence.map fun e => .str e.text := get (by simp [SubmissionRecord.fields])
  have hearned : (Json.fields r.fields).lookup "earnedLamports" = r.earnedLamports.map nullable :=
    get (by simp [SubmissionRecord.fields])
  have hsignature : (Json.fields r.fields).lookup "settlementSignature" =
      r.settlementSignature.map nullable := get (by simp [SubmissionRecord.fields])
  have hat : (Json.fields r.fields).lookup "settledAt" = r.settledAt.map .str :=
    get (by simp [SubmissionRecord.fields])
  have hcheck : checkSettlementFields (Json.fields r.fields) label r.settled r.outcome = .ok () := by
    refine checkSettlementFields_ok h.settlement ?_ ?_ ?_
    · rw [hearned, Option.isSome_map]
    · rw [hsignature, Option.isSome_map]
    · rw [hat, Option.isSome_map]
  have hsig : nonemptyOrNull r.submissionSignature s!"{label}.submissionSignature" =
      .ok r.submissionSignature := by
    cases hs : r.submissionSignature with
    | none => rfl
    | some t =>
      unfold nonemptyOrNull
      simp only
      rw [nonempty_str (h.signature t hs)]
      rfl
  unfold Platform.submissionRecord
  rw [bind_eq_ok]
  refine ⟨Json.fields r.fields, rfl, ?_⟩
  rw [htask, hsigned, huri, hhash, hreward, hsubmitted, hsettled, houtcome, hevidence, hearned,
    hsignature, hat]
  simp only [bind_eq_ok]
  exact ⟨(), hkeys, _, nullableString_nullable _ _, _, rfl, _, readOutcome_text _ _,
    _, readTerminalEvidence_text _ _, (), hcheck, _, readEarnedLamports_nullable h.earned,
    _, readSettlementSignature_nullable h.settlementSignature, _, taskAddress_str h.task _,
    _, hsig, _, nonempty_str h.uri _, _, hash_str h.hash _, _, decimal_str h.reward _,
    _, iso_str h.submittedAt _, _, optionally_map fun t ht => iso_str (h.settledAt t ht) _, rfl⟩

theorem readSubmissions_json {l : List SubmissionRecord} (h : ∀ r ∈ l, r.Valid p) (index : ℕ) :
    p.readSubmissions index (l.map SubmissionRecord.json) = .ok l := by
  induction l generalizing index with
  | nil => rfl
  | cons r rest ih =>
    have hfirst := submissionRecord_json (h r List.mem_cons_self) s!"root.submissions[{index}]"
    have hrest := ih (fun r' hr' => h r' (List.mem_cons_of_mem _ hr')) (index + 1)
    rw [List.map_cons, Platform.readSubmissions]
    simp only [bind_eq_ok]
    exact ⟨r, hfirst, rest, hrest, rfl⟩

theorem readAgentIdHex_nullable {id : Option String} (h : ∀ t, id = some t → hashHex t = true) :
    readAgentIdHex (some (nullable id)) = .ok id := by
  cases id with
  | none => rfl
  | some t => exact if_pos (h t rfl)

theorem claimApart_iff {claim : Option OpenClaim} {l : List SubmissionRecord} :
    claimApart claim l = true ↔ ∀ c, claim = some c → ∀ r ∈ l, r.task ≠ c.task := by
  unfold claimApart
  cases claim with
  | none => simp
  | some c => simp [List.all_eq_true]

theorem readOpenClaim_json {claim : Option OpenClaim} (h : ∀ c, claim = some c → c.Valid p)
    (label : String) :
    p.readOpenClaim (some ((claim.map OpenClaim.json).getD .null)) label = .ok claim := by
  cases claim with
  | none => rfl
  | some c =>
    have hc := openClaim_json (h c rfl) label
    unfold Platform.readOpenClaim
    simp only [Option.map_some, Option.getD_some]
    rw [show c.json = .obj (Json.fields c.fields) from rfl] at hc ⊢
    simp only
    rw [hc]
    rfl

/-- A valid state is read back from what is written of it. -/
theorem currentState_json {s : WorkerState} (h : s.Valid p) : p.currentState s.json = .ok s := by
  have hkeys : exactKeys (Json.fields s.fields) "root"
      ["version", "agentIdHex", "openClaim", "totalEarnedBaseline", "submissions"] [] = .ok () :=
    exactKeys_fields (by simp [WorkerState.fields]) (by simp [WorkerState.fields])
  have get : ∀ {name value}, (name, value) ∈ s.fields → (Json.fields s.fields).lookup name = value :=
    fun hmem => Json.fields_lookup (by simp [WorkerState.fields]) hmem
  have hversion : (Json.fields s.fields).lookup "version" = some (countJson workerStateVersion) :=
    get (by simp [WorkerState.fields])
  have hagent : (Json.fields s.fields).lookup "agentIdHex" = some (nullable s.agentIdHex) :=
    get (by simp [WorkerState.fields])
  have hclaim : (Json.fields s.fields).lookup "openClaim" =
      some ((s.openClaim.map OpenClaim.json).getD .null) := get (by simp [WorkerState.fields])
  have hbaseline : (Json.fields s.fields).lookup "totalEarnedBaseline" =
      some (.str s.totalEarnedBaseline) := get (by simp [WorkerState.fields])
  have hrecords : (Json.fields s.fields).lookup "submissions" =
      some (.arr (s.submissions.map SubmissionRecord.json)) := get (by simp [WorkerState.fields])
  have hlength : ¬(s.submissions.map SubmissionRecord.json).length > maxParsedSubmissions := by
    rw [List.length_map]
    exact Nat.not_lt.mpr h.length
  have hunsettled : ¬s.submissions.countP (fun r => !r.settled) > maxUnsettledSubmissions :=
    Nat.not_lt.mpr h.unsettled
  have hdistinct : distinctTasks s.submissions = true := decide_eq_true h.distinct
  have hapart : claimApart s.openClaim s.submissions = true := claimApart_iff.mpr h.apart
  unfold Platform.currentState
  rw [bind_eq_ok]
  refine ⟨Json.fields s.fields, rfl, ?_⟩
  rw [hversion, hagent, hclaim, hbaseline, hrecords]
  simp only [bind_eq_ok]
  refine ⟨(), hkeys, (), ?_, _, readAgentIdHex_nullable h.agentIdHex, _, rfl, ?_⟩
  · unfold readVersion countJson
    exact if_pos rfl
  rw [if_neg hlength, bind_eq_ok]
  refine ⟨_, readSubmissions_json h.records 0, ?_⟩
  rw [if_neg hunsettled, if_neg (by rw [hdistinct]; decide), bind_eq_ok]
  refine ⟨_, readOpenClaim_json h.claim _, ?_⟩
  rw [if_neg (by rw [hapart]; decide), bind_eq_ok]
  exact ⟨_, decimal_str h.baseline _, rfl⟩

/-! ## What is read is valid -/

theorem string_eq_ok {value : Option Json} {label s : String} :
    string value label = .ok s ↔ value = some (.str s) := by
  constructor
  · intro h
    unfold string at h
    split at h
    · rw [Except.ok.inj h]
    · cases h
  · rintro rfl
    rfl

theorem nonempty_eq_ok {value : Option Json} {label s : String} (h : nonempty value label = .ok s) :
    value = some (.str s) ∧ Nonempty s := by
  unfold nonempty at h
  obtain ⟨t, ht, h⟩ := bind_eq_ok.mp h
  split at h
  · cases h
  · rename_i hne
    obtain rfl := Except.ok.inj h
    exact ⟨string_eq_ok.mp ht, by simpa [Nonempty] using hne⟩

theorem iso_eq_ok {value : Option Json} {label s : String} (h : p.iso value label = .ok s) :
    value = some (.str s) ∧ p.isIso s = true := by
  unfold Platform.iso at h
  obtain ⟨t, ht, h⟩ := bind_eq_ok.mp h
  split at h
  · rename_i hiso
    obtain rfl := Except.ok.inj h
    exact ⟨string_eq_ok.mp ht, hiso⟩
  · cases h

theorem decimal_eq_ok {value : Option Json} {label s : String} (h : decimal value label = .ok s) :
    value = some (.str s) ∧ isDecimal s = true := by
  unfold decimal at h
  obtain ⟨t, ht, h⟩ := bind_eq_ok.mp h
  split at h
  · rename_i hdec
    obtain rfl := Except.ok.inj h
    exact ⟨string_eq_ok.mp ht, hdec⟩
  · cases h

theorem hash_eq_ok {value : Option Json} {label s : String} (h : hash value label = .ok s) :
    value = some (.str s) ∧ hashHex s = true := by
  unfold hash at h
  obtain ⟨t, ht, h⟩ := bind_eq_ok.mp h
  split at h
  · rename_i hhex
    obtain rfl := Except.ok.inj h
    exact ⟨string_eq_ok.mp ht, hhex⟩
  · cases h

theorem taskAddress_eq_ok {value : Option Json} {label s : String}
    (h : p.taskAddress value label = .ok s) :
    value = some (.str s) ∧ Nonempty s ∧ p.isAddress s = true := by
  unfold Platform.taskAddress at h
  obtain ⟨t, ht, h⟩ := bind_eq_ok.mp h
  split at h
  · rename_i haddress
    obtain rfl := Except.ok.inj h
    obtain ⟨hvalue, hne⟩ := nonempty_eq_ok ht
    exact ⟨hvalue, hne, haddress⟩
  · cases h

theorem optionally_eq_ok {α : Type} {value : Option Json} {read : Option Json → Except String α}
    {a : Option α} (h : optionally value read = .ok a) :
    ∀ b, a = some b → ∃ v, value = some v ∧ read (some v) = .ok b := by
  rintro b rfl
  unfold optionally at h
  cases value with
  | none => cases h
  | some v =>
    simp only at h
    cases hr : read (some v) with
    | error e =>
      rw [hr] at h
      cases h
    | ok b' =>
      rw [hr] at h
      obtain rfl := Option.some.inj (Except.ok.inj h)
      exact ⟨v, rfl, hr⟩

theorem executionIntent_valid {value : Option Json} {label : String} {e : ExecutionIntent}
    (h : p.executionIntent value label = .ok e) : e.Valid p := by
  unfold Platform.executionIntent at h
  simp only [bind_eq_ok] at h
  obtain ⟨parsed, -, -, -, base, -, h⟩ := h
  split at h
  · cases h
  · rename_i hcanonical
    simp only [bind_eq_ok] at h
    obtain ⟨digest, hdigest, h⟩ := h
    split at h
    · cases h
    · rename_i hmatch
      simp only [bind_eq_ok] at h
      obtain ⟨reward, hreward, at', hat, h⟩ := h
      obtain rfl := Except.ok.inj h
      exact ⟨not_not.mp hcanonical, (hash_eq_ok hdigest).2, not_not.mp hmatch,
        (decimal_eq_ok hreward).2, (iso_eq_ok hat).2⟩

theorem submissionIntent_valid {value : Option Json} {label : String} {i : SubmissionIntent}
    (h : p.submissionIntent value label = .ok i) : i.Valid p := by
  unfold Platform.submissionIntent at h
  simp only [bind_eq_ok] at h
  obtain ⟨parsed, -, -, -, signature, hsignature, uri, huri, digest, hdigest, h⟩ := h
  obtain ⟨reward, hreward, prepared, hprepared, broadcast, hbroadcast, h⟩ := h
  obtain rfl := Except.ok.inj h
  refine ⟨(nonempty_eq_ok huri).2, (hash_eq_ok hdigest).2, (decimal_eq_ok hreward).2,
    (iso_eq_ok hprepared).2, fun t ht => ?_, fun t ht => ?_⟩
  · obtain ⟨v, -, hv⟩ := optionally_eq_ok hbroadcast t ht
    exact (iso_eq_ok hv).2
  · obtain ⟨v, -, hv⟩ := optionally_eq_ok hsignature t ht
    exact (nonempty_eq_ok hv).2

theorem readRevisionSubmissionCount_valid {value : Option Json} {label : String} {count : Option ℕ}
    (h : readRevisionSubmissionCount value label = .ok count) :
    ∀ n, count = some n → 1 ≤ n ∧ n ≤ 65535 := by
  rintro n rfl
  unfold readRevisionSubmissionCount at h
  split at h
  · cases h
  · split at h
    · rename_i hbounds
      have hn := Option.some.inj (Except.ok.inj h)
      omega
    · cases h
  · cases h

theorem openClaim_valid {value : Option Json} {label : String} {c : OpenClaim}
    (h : p.openClaim value label = .ok c) : c.Valid p := by
  unfold Platform.openClaim at h
  simp only [bind_eq_ok] at h
  obtain ⟨parsed, -, -, -, phase, -, execution, hexecution, submission, hsubmission, h⟩ := h
  split at h
  · cases h
  · rename_i hexecutes
    split at h
    · cases h
    · rename_i hsubmits
      simp only [bind_eq_ok] at h
      obtain ⟨signature, hsignature, count, hcount, task, htask, claimed, hclaimed, h⟩ := h
      obtain rfl := Except.ok.inj h
      refine ⟨(taskAddress_eq_ok htask).2, (iso_eq_ok hclaimed).2, fun t ht => ?_,
        readRevisionSubmissionCount_valid hcount, fun e he => ?_, fun i hi => ?_,
        not_not.mp hexecutes, not_not.mp hsubmits⟩
      · obtain ⟨v, -, hv⟩ := optionally_eq_ok hsignature t ht
        exact (nonempty_eq_ok hv).2
      · obtain ⟨v, -, hv⟩ := optionally_eq_ok hexecution e he
        exact executionIntent_valid hv
      · obtain ⟨v, -, hv⟩ := optionally_eq_ok hsubmission i hi
        exact submissionIntent_valid hv

/-- A record that passes the check has the fields of a settlement exactly when it is settled. -/
theorem checkSettlementFields_spec {parsed : List (String × Json)} {label : String} {settled : Bool}
    {outcome : Option Outcome} {u : Unit}
    (h : checkSettlementFields parsed label settled outcome = .ok u) :
    if settled then outcome.isSome ∧ (parsed.lookup "earnedLamports").isSome ∧
        (parsed.lookup "settlementSignature").isSome ∧ (parsed.lookup "settledAt").isSome
    else outcome = none ∧ (parsed.lookup "earnedLamports").isSome = false ∧
        (parsed.lookup "settlementSignature").isSome = false ∧
        (parsed.lookup "settledAt").isSome = false := by
  unfold checkSettlementFields at h
  simp only at h
  split at h
  · cases h
  · rename_i h₁
    split at h
    · cases h
    · rename_i h₂
      split at h
      · cases h
      · rename_i h₃
        cases settled with
        | true =>
          simp only [Bool.true_and, Bool.or_eq_true, not_or, Bool.not_eq_true,
            Bool.not_eq_true', Bool.not_eq_false, Option.isNone_eq_false_iff] at h₁ h₃
          simp only [if_true]
          exact ⟨h₁.1, h₃.1, h₃.2, h₁.2⟩
        | false =>
          simp only [Bool.not_false, Bool.true_and, Bool.or_eq_true, not_or,
            Bool.not_eq_true] at h₂
          obtain ⟨⟨⟨ho, he⟩, hs⟩, ha⟩ := h₂
          simp only [Bool.false_eq_true, if_false]
          refine ⟨?_, he, hs, ha⟩
          cases outcome with
          | none => rfl
          | some o => cases ho

theorem readEarnedLamports_spec {value : Option Json} {label : String}
    {earned : Option (Option String)} (h : readEarnedLamports value label = .ok earned) :
    earned.isSome = value.isSome ∧ ∀ t, earned = some (some t) → isDecimal t = true := by
  unfold readEarnedLamports at h
  split at h
  · obtain rfl := Except.ok.inj h
    exact ⟨rfl, fun t ht => by cases ht⟩
  · obtain rfl := Except.ok.inj h
    exact ⟨rfl, fun t ht => by cases ht⟩
  · split at h
    · rename_i hdec
      obtain rfl := Except.ok.inj h
      refine ⟨rfl, fun t ht => ?_⟩
      obtain rfl := Option.some.inj (Option.some.inj ht)
      exact hdec
    · cases h
  · cases h

theorem readSettlementSignature_spec {value : Option Json} {label : String}
    {signature : Option (Option String)}
    (h : readSettlementSignature value label = .ok signature) :
    signature.isSome = value.isSome ∧ ∀ t, signature = some (some t) → Nonempty t := by
  unfold readSettlementSignature at h
  split at h
  · obtain rfl := Except.ok.inj h
    exact ⟨rfl, fun t ht => by cases ht⟩
  · obtain rfl := Except.ok.inj h
    exact ⟨rfl, fun t ht => by cases ht⟩
  · split at h
    · cases h
    · rename_i hne
      obtain rfl := Except.ok.inj h
      refine ⟨rfl, fun t ht => ?_⟩
      obtain rfl := Option.some.inj (Option.some.inj ht)
      simpa [Nonempty] using hne
  · cases h

theorem optionally_isSome {α : Type} {value : Option Json} {read : Option Json → Except String α}
    {a : Option α} (h : optionally value read = .ok a) : a.isSome = value.isSome := by
  unfold optionally at h
  cases value with
  | none =>
    obtain rfl := Except.ok.inj h
    rfl
  | some v =>
    simp only at h
    cases hr : read (some v) with
    | error e =>
      rw [hr] at h
      cases h
    | ok b =>
      rw [hr] at h
      obtain rfl := Except.ok.inj h
      rfl

theorem nonemptyOrNull_spec {value result : Option String} {label : String}
    (h : nonemptyOrNull value label = .ok result) : ∀ t, result = some t → Nonempty t := by
  rintro t rfl
  unfold nonemptyOrNull at h
  cases value with
  | none => cases h
  | some s =>
    simp only at h
    cases hs : nonempty (some (.str s)) label with
    | error e =>
      rw [hs] at h
      cases h
    | ok s' =>
      rw [hs] at h
      obtain rfl := Option.some.inj (Except.ok.inj h)
      exact (nonempty_eq_ok hs).2

theorem submissionRecord_valid {value : Json} {label : String} {r : SubmissionRecord}
    (h : p.submissionRecord value label = .ok r) : r.Valid p := by
  unfold Platform.submissionRecord at h
  simp only [bind_eq_ok] at h
  obtain ⟨parsed, -, -, -, rawSignature, -, settled, -, outcome, -, evidence, -, h⟩ := h
  obtain ⟨u, hcheck, earned, hearned, settlement, hsettlement, task, htask, h⟩ := h
  obtain ⟨signature, hsignature, uri, huri, digest, hdigest, reward, hreward, h⟩ := h
  obtain ⟨submitted, hsubmitted, settledAt, hsettledAt, h⟩ := h
  obtain rfl := Except.ok.inj h
  obtain ⟨hearnedSome, hearnedDec⟩ := readEarnedLamports_spec hearned
  obtain ⟨hsettlementSome, hsettlementNe⟩ := readSettlementSignature_spec hsettlement
  have hatSome := optionally_isSome hsettledAt
  refine ⟨(taskAddress_eq_ok htask).2, nonemptyOrNull_spec hsignature, (nonempty_eq_ok huri).2,
    (hash_eq_ok hdigest).2, (decimal_eq_ok hreward).2, (iso_eq_ok hsubmitted).2, ?_, hearnedDec,
    hsettlementNe, fun t ht => ?_⟩
  · have hspec := checkSettlementFields_spec hcheck
    rw [← hearnedSome, ← hsettlementSome, ← hatSome] at hspec
    unfold SubmissionRecord.Settlement
    cases settled with
    | true => exact hspec
    | false =>
      simp only [Bool.false_eq_true, if_false, Option.isSome_eq_false_iff,
        Option.isNone_iff_eq_none] at hspec ⊢
      exact hspec
  · obtain ⟨v, -, hv⟩ := optionally_eq_ok hsettledAt t ht
    exact (iso_eq_ok hv).2

theorem readSubmissions_valid {items : List Json} {index : ℕ} {l : List SubmissionRecord}
    (h : p.readSubmissions index items = .ok l) :
    (∀ r ∈ l, r.Valid p) ∧ l.length = items.length := by
  induction items generalizing index l with
  | nil =>
    obtain rfl := Except.ok.inj h
    refine ⟨fun r hr => ?_, rfl⟩
    cases hr
  | cons item rest ih =>
    rw [Platform.readSubmissions] at h
    simp only [bind_eq_ok] at h
    obtain ⟨first, hfirst, others, hothers, h⟩ := h
    obtain rfl := Except.ok.inj h
    obtain ⟨hvalid, hlength⟩ := ih hothers
    refine ⟨fun r hr => ?_, by rw [List.length_cons, List.length_cons, hlength]⟩
    rcases List.mem_cons.mp hr with rfl | hr
    · exact submissionRecord_valid hfirst
    · exact hvalid r hr

theorem readAgentIdHex_valid {value : Option Json} {id : Option String}
    (h : readAgentIdHex value = .ok id) : ∀ t, id = some t → hashHex t = true := by
  rintro t rfl
  unfold readAgentIdHex at h
  split at h
  · cases h
  · split at h
    · rename_i hhex
      obtain rfl := Option.some.inj (Except.ok.inj h)
      exact hhex
    · cases h
  · cases h

theorem readOpenClaim_valid {value : Option Json} {label : String} {claim : Option OpenClaim}
    (h : p.readOpenClaim value label = .ok claim) : ∀ c, claim = some c → c.Valid p := by
  rintro c rfl
  unfold Platform.readOpenClaim at h
  split at h
  · cases h
  · cases hr : p.openClaim value label with
    | error e =>
      rw [hr] at h
      cases h
    | ok c' =>
      rw [hr] at h
      obtain rfl := Option.some.inj (Except.ok.inj h)
      exact openClaim_valid hr

/-- Whatever value the reader accepts, the state is valid. -/
theorem currentState_valid {value : Json} {s : WorkerState} (h : p.currentState value = .ok s) :
    s.Valid p := by
  unfold Platform.currentState at h
  simp only [bind_eq_ok] at h
  obtain ⟨parsed, -, -, -, -, -, agentIdHex, hagent, items, -, h⟩ := h
  split at h
  · cases h
  · rename_i hlength
    simp only [bind_eq_ok] at h
    obtain ⟨submissions, hsubmissions, h⟩ := h
    split at h
    · cases h
    · rename_i hunsettled
      split at h
      · cases h
      · rename_i hdistinct
        simp only [bind_eq_ok] at h
        obtain ⟨claim, hclaim, h⟩ := h
        split at h
        · cases h
        · rename_i hapart
          simp only [bind_eq_ok] at h
          obtain ⟨baseline, hbaseline, h⟩ := h
          obtain rfl := Except.ok.inj h
          obtain ⟨hrecords, hlen⟩ := readSubmissions_valid hsubmissions
          refine ⟨readAgentIdHex_valid hagent, (decimal_eq_ok hbaseline).2, hrecords, ?_,
            Nat.not_lt.mp hunsettled, ?_, readOpenClaim_valid hclaim, ?_⟩
          · rw [hlen]
            exact Nat.not_lt.mp hlength
          · exact of_decide_eq_true (by simpa [distinctTasks] using hdistinct)
          · exact claimApart_iff.mp (by simpa using hapart)

/-- The reader accepts what is written of a state exactly when the state is valid. -/
theorem currentState_json_iff {s : WorkerState} : p.currentState s.json = .ok s ↔ s.Valid p :=
  ⟨currentState_valid, currentState_json⟩

/-! ## Pruning -/

/-- Dropping settled records leaves the unsettled ones, and the settled ones but the first `n`. -/
theorem dropSettled_filter (n : ℕ) (l : List SubmissionRecord) :
    (dropSettled n l).filter (fun r => !r.settled) = l.filter (fun r => !r.settled) ∧
    (dropSettled n l).filter (fun r => r.settled) = (l.filter fun r => r.settled).drop n := by
  induction l generalizing n with
  | nil => simp [dropSettled]
  | cons r rest ih =>
    rw [dropSettled]
    cases hs : r.settled with
    | false =>
      obtain ⟨hu, hd⟩ := ih n
      simp only [Bool.not_false, Bool.true_or, if_true, List.filter_cons, hs]
      refine ⟨by rw [hu], ?_⟩
      simpa using hd
    | true =>
      cases n with
      | zero =>
        obtain ⟨hu, hd⟩ := ih 0
        rw [List.drop_zero] at hd
        simp [hs, hu, hd]
      | succ n =>
        obtain ⟨hu, hd⟩ := ih n
        simp [hs, hu, hd]

theorem dropSettled_sublist (n : ℕ) (l : List SubmissionRecord) : (dropSettled n l).Sublist l := by
  induction l generalizing n with
  | nil => exact List.Sublist.refl _
  | cons r rest ih =>
    rw [dropSettled]
    split
    · exact (ih n).cons_cons r
    · exact (ih (n - 1)).cons r

/-- The settled records of a ledger, oldest first. -/
def WorkerState.settledRecords (s : WorkerState) : List SubmissionRecord :=
  s.submissions.filter fun r => r.settled

def WorkerState.unsettledRecords (s : WorkerState) : List SubmissionRecord :=
  s.submissions.filter fun r => !r.settled

/-- Pruning changes only the ledger: in the same order, it keeps every unsettled record and the
newest `retention` of the settled ones, all of them where there are no more. -/
theorem pruneSettledSubmissions_keeps (s : WorkerState) (retention : ℕ) :
    let pruned := pruneSettledSubmissions s retention
    pruned.submissions.Sublist s.submissions ∧
    pruned.unsettledRecords = s.unsettledRecords ∧
    pruned.settledRecords = s.settledRecords.drop (s.settledRecords.length - retention) ∧
    pruned = { s with submissions := pruned.submissions } := by
  intro pruned
  have hlength : s.settledRecords.length = s.submissions.countP fun r => r.settled :=
    List.countP_eq_length_filter.symm
  by_cases hzero : s.submissions.countP (fun r => r.settled) - retention = 0
  · have hp : pruned = s := if_pos hzero
    rw [hp, hlength, hzero, List.drop_zero]
    exact ⟨List.Sublist.refl _, rfl, rfl, rfl⟩
  · rw [hlength]
    generalize hk : s.submissions.countP (fun r => r.settled) - retention = k at hzero ⊢
    have hp : pruned = { s with submissions := dropSettled k s.submissions } := by
      rw [← hk] at hzero ⊢
      exact if_neg hzero
    obtain ⟨hu, hd⟩ := dropSettled_filter k s.submissions
    rw [hp]
    exact ⟨dropSettled_sublist _ _, hu, hd, rfl⟩

/-- At most `retention` settled records are left, and pruning again changes nothing. -/
theorem pruneSettledSubmissions_idem (s : WorkerState) (retention : ℕ) :
    pruneSettledSubmissions (pruneSettledSubmissions s retention) retention =
      pruneSettledSubmissions s retention := by
  obtain ⟨-, -, hsettled, -⟩ := pruneSettledSubmissions_keeps s retention
  have hlength : (pruneSettledSubmissions s retention).submissions.countP (fun r => r.settled) =
      (pruneSettledSubmissions s retention).settledRecords.length :=
    List.countP_eq_length_filter
  have hzero : (pruneSettledSubmissions s retention).submissions.countP (fun r => r.settled) -
      retention = 0 := by
    rw [hlength, hsettled, List.length_drop]
    omega
  exact if_pos hzero

theorem WorkerState.Valid.prune {s : WorkerState} (h : s.Valid p) (retention : ℕ) :
    (pruneSettledSubmissions s retention).Valid p := by
  obtain ⟨hsub, -, -, heq⟩ := pruneSettledSubmissions_keeps s retention
  have hagent : (pruneSettledSubmissions s retention).agentIdHex = s.agentIdHex := by rw [heq]
  have hclaim : (pruneSettledSubmissions s retention).openClaim = s.openClaim := by rw [heq]
  have hbase : (pruneSettledSubmissions s retention).totalEarnedBaseline =
      s.totalEarnedBaseline := by rw [heq]
  refine ⟨?_, ?_, fun r hr => h.records r (hsub.subset hr), hsub.length_le.trans h.length,
    (hsub.countP_le).trans h.unsettled, h.distinct.sublist (hsub.map _), ?_, ?_⟩
  · rw [hagent]
    exact h.agentIdHex
  · rw [hbase]
    exact h.baseline
  · rw [hclaim]
    exact h.claim
  · intro c hc r hr
    rw [hclaim] at hc
    exact h.apart c hc r (hsub.subset hr)

/-! ## Loading and saving -/

theorem WorkerState.json_version (s : WorkerState) :
    ((Json.fields s.fields).lookup "version").isSome = true := by
  have hmem : ("version", some (countJson workerStateVersion)) ∈ s.fields := by
    simp [WorkerState.fields]
  rw [Json.fields_lookup (l := s.fields) (by simp [WorkerState.fields]) hmem]
  rfl

/-- Saving a valid state fails only when the file would be too large. -/
theorem saveState_of_valid {s : WorkerState} (h : s.Valid p) :
    p.saveState s =
      if p.stringifiedBytes (pruneSettledSubmissions s).json > maxWorkerStateBytes then
        .error s!"worker state exceeds {maxWorkerStateBytes} bytes"
      else .ok (.text (some (pruneSettledSubmissions s).json)
        (p.stringifiedBytes (pruneSettledSubmissions s).json)) := by
  unfold Platform.saveState
  rw [currentState_json h]
  rfl

/-- What is saved is loaded up to pruning. -/
theorem loadState_saveState {s : WorkerState} {file : StateFile} (h : s.Valid p)
    (hsave : p.saveState s = .ok file) :
    p.loadState file = .ok (pruneSettledSubmissions s) := by
  rw [saveState_of_valid h] at hsave
  split at hsave
  · cases hsave
  · rename_i hsize
    obtain rfl := Except.ok.inj hsave
    have hread := currentState_json (h.prune settledSubmissionRetention)
    unfold Platform.loadState
    simp only
    rw [if_neg hsize, bind_eq_ok]
    refine ⟨Json.fields (pruneSettledSubmissions s).fields, rfl, ?_⟩
    rw [bind_eq_ok]
    refine ⟨pruneSettledSubmissions s, ?_, ?_⟩
    · unfold Platform.readRoot
      rw [if_pos (WorkerState.json_version _)]
      exact hread
    · rw [pruneSettledSubmissions_idem]

theorem migrateLegacyState_valid {value : Json} {s : WorkerState}
    (h : p.migrateLegacyState value = .ok s) : s.Valid p := by
  unfold Platform.migrateLegacyState at h
  simp only [bind_eq_ok] at h
  obtain ⟨parsed, -, -, -, claim, -, h⟩ := h
  exact currentState_valid h

/-- A loaded state is valid, and it is pruned. -/
theorem loadState_valid {file : StateFile} {s : WorkerState} (h : p.loadState file = .ok s) :
    s.Valid p ∧ pruneSettledSubmissions s = s := by
  unfold Platform.loadState at h
  cases file with
  | absent =>
    obtain rfl := Except.ok.inj h
    have hnone : emptyState.submissions.countP (fun r => r.settled) - settledSubmissionRetention = 0 :=
      Nat.zero_sub _
    refine ⟨emptyState_valid, ?_⟩
    unfold pruneSettledSubmissions
    exact if_pos hnone
  | text parsed bytes =>
    simp only at h
    split at h
    · cases h
    · cases parsed with
      | none => cases h
      | some json =>
        simp only [bind_eq_ok] at h
        obtain ⟨root, -, state, hstate, h⟩ := h
        obtain rfl := Except.ok.inj h
        have hvalid : state.Valid p := by
          unfold Platform.readRoot at hstate
          split at hstate
          · exact currentState_valid hstate
          · exact migrateLegacyState_valid hstate
        exact ⟨hvalid.prune _, pruneSettledSubmissions_idem _ _⟩

/-- Saving a loaded state changes nothing that is loaded again. -/
theorem saveState_loadState {file saved : StateFile} {s : WorkerState}
    (hload : p.loadState file = .ok s) (hsave : p.saveState s = .ok saved) :
    p.loadState saved = .ok s := by
  obtain ⟨hvalid, hpruned⟩ := loadState_valid hload
  have hloaded := loadState_saveState hvalid hsave
  rwa [hpruned] at hloaded

end AgencCoordination.Worker
