import AgencCoordination.Foundations.Json

/-!
# The worker's persisted state

The state file of a worker: the claim in flight with its write-ahead phase, the ledger of
submissions, and the readers that accept or refuse a file. A reader takes a JSON value and the
label of its place in the file, and returns the typed value or the error that names the place.

* **`currentState`**, **`migrateLegacyState`** — the readers of a whole file.
* **`pruneSettledSubmissions`** — bounds the settled part of the ledger.
* **`loadState`**, **`saveState`** — a file as the runtime reads and writes it.

Opening the directory and the file, their owner and their permissions are not modelled; a file
is absent or a JSON value, or text that is no JSON. What Node and the address package compute is
a parameter (`Platform`).
-/

namespace AgencCoordination.Worker

open Foundations

/-- What the runtime takes from its platform. -/
structure Platform where
  /-- `address(value)` does not throw. -/
  isAddress : String → Bool
  /-- `Date.parse`, without `NaN`. -/
  parseDate : String → Option ℤ
  /-- `new Date(millis).toISOString()`. -/
  toISOString : ℤ → String
  sha256Hex : List UInt8 → String
  fromBase64 : String → List UInt8
  toBase64 : List UInt8 → String
  /-- The bytes of `JSON.stringify(value, null, 2)` and a newline. -/
  stringifiedBytes : Json → ℕ

def workerStateVersion : ℕ := 1
def maxWorkerStateBytes : ℕ := 16 * 1024 * 1024
def maxUnsettledSubmissions : ℕ := 10000
def settledSubmissionRetention : ℕ := 1000
def maxParsedSubmissions : ℕ := 50000

/-! ## Data -/

structure ExecutionIntent where
  resultBytesBase64 : String
  resultHashHex : String
  rewardAmount : String
  executedAt : String
  deriving DecidableEq

structure SubmissionIntent where
  resultUri : String
  resultHashHex : String
  rewardAmount : String
  preparedAt : String
  lastBroadcastAt : Option String := none
  transactionSignature : Option String := none
  deriving DecidableEq

inductive Phase where
  | claiming
  | claimed
  | executed
  | uploading
  | submitting
  deriving DecidableEq

/-- A claim, an execution or a submission that still needs reconciliation. -/
structure OpenClaim where
  task : String
  claimedAt : String
  phase : Phase
  claimTransactionSignature : Option String := none
  revisionSubmissionCount : Option ℕ := none
  execution : Option ExecutionIntent := none
  submission : Option SubmissionIntent := none
  deriving DecidableEq

inductive Outcome where
  | accepted
  | rejected
  | cancelled
  | closed
  | straggler
  deriving DecidableEq

inductive TerminalEvidence where
  | collaborativeStraggler
  deriving DecidableEq

/-- One submitted result, awaiting its settlement or past it. -/
structure SubmissionRecord where
  task : String
  submissionSignature : Option String
  resultUri : String
  resultHashHex : String
  rewardAmount : String
  submittedAt : String
  settled : Bool
  outcome : Option Outcome := none
  terminalEvidence : Option TerminalEvidence := none
  /-- Absent, or a string or `null`. -/
  earnedLamports : Option (Option String) := none
  settlementSignature : Option (Option String) := none
  settledAt : Option String := none
  deriving DecidableEq

structure WorkerState where
  agentIdHex : Option String
  openClaim : Option OpenClaim
  totalEarnedBaseline : String
  /-- Oldest first. -/
  submissions : List SubmissionRecord
  deriving DecidableEq

def emptyState : WorkerState where
  agentIdHex := none
  openClaim := none
  totalEarnedBaseline := "0"
  submissions := []

def WorkerState.unsettled (s : WorkerState) : ℕ := s.submissions.countP fun r => !r.settled

/-! ## Texts -/

def Phase.text : Phase → String
  | .claiming => "claiming"
  | .claimed => "claimed"
  | .executed => "executed"
  | .uploading => "uploading"
  | .submitting => "submitting"

def Phase.ofText : String → Option Phase
  | "claiming" => some .claiming
  | "claimed" => some .claimed
  | "executed" => some .executed
  | "uploading" => some .uploading
  | "submitting" => some .submitting
  | _ => none

@[simp] theorem Phase.ofText_text (phase : Phase) : Phase.ofText phase.text = some phase := by
  cases phase <;> rfl

def Outcome.text : Outcome → String
  | .accepted => "accepted"
  | .rejected => "rejected"
  | .cancelled => "cancelled"
  | .closed => "closed"
  | .straggler => "straggler"

def Outcome.ofText : String → Option Outcome
  | "accepted" => some .accepted
  | "rejected" => some .rejected
  | "cancelled" => some .cancelled
  | "closed" => some .closed
  | "straggler" => some .straggler
  | _ => none

@[simp] theorem Outcome.ofText_text (outcome : Outcome) :
    Outcome.ofText outcome.text = some outcome := by
  cases outcome <;> rfl

def TerminalEvidence.text : TerminalEvidence → String
  | .collaborativeStraggler => "collaborative-straggler"

def TerminalEvidence.ofText : String → Option TerminalEvidence
  | "collaborative-straggler" => some .collaborativeStraggler
  | _ => none

@[simp] theorem TerminalEvidence.ofText_text (evidence : TerminalEvidence) :
    TerminalEvidence.ofText evidence.text = some evidence := by
  cases evidence
  rfl

/-- `/^[0-9a-f]{64}$/u` -/
def hashHex (s : String) : Bool :=
  s.toList.length == 64 && s.toList.all fun c => c.isDigit || ('a' ≤ c && c ≤ 'f')

/-- `/^\d+$/u` -/
def isDecimal (s : String) : Bool := !s.toList.isEmpty && s.toList.all Char.isDigit

/-- `new Date(Date.parse(s)).toISOString() === s` -/
def Platform.isIso (p : Platform) (s : String) : Bool :=
  (p.parseDate s).any fun t => p.toISOString t == s

/-! ## Readers -/

def fail {α : Type} (message : String) : Except String α :=
  .error s!"invalid worker state: {message}"

def record (value : Option Json) (label : String) : Except String (List (String × Json)) :=
  match value with
  | some (.obj fields) => .ok fields
  | _ => fail s!"{label} must be an object"

def exactKeys (value : List (String × Json)) (label : String) (required optional : List String) :
    Except String Unit :=
  match value.find? fun field => !(required ++ optional).contains field.1 with
  | some field => fail s!"{label}.{field.1} is not supported"
  | none =>
    match required.find? fun key => !value.any fun field => field.1 == key with
    | some key => fail s!"{label}.{key} is required"
    | none => .ok ()

def string (value : Option Json) (label : String) : Except String String :=
  match value with
  | some (.str s) => .ok s
  | _ => fail s!"{label} must be a string"

def nonempty (value : Option Json) (label : String) : Except String String := do
  let parsed ← string value label
  if parsed.toList.isEmpty then fail s!"{label} must not be empty" else .ok parsed

def Platform.iso (p : Platform) (value : Option Json) (label : String) : Except String String := do
  let parsed ← string value label
  if p.isIso parsed then .ok parsed else fail s!"{label} must be a canonical ISO timestamp"

def decimal (value : Option Json) (label : String) : Except String String := do
  let parsed ← string value label
  if isDecimal parsed then .ok parsed else fail s!"{label} must be unsigned decimal lamports"

def hash (value : Option Json) (label : String) : Except String String := do
  let parsed ← string value label
  if hashHex parsed then .ok parsed else fail s!"{label} must be a 32-byte lowercase hex hash"

def Platform.taskAddress (p : Platform) (value : Option Json) (label : String) :
    Except String String := do
  let parsed ← nonempty value label
  if p.isAddress parsed then .ok parsed else fail s!"{label} must be a valid Solana address"

/-- An optional field: absent, or read by `read`. -/
def optionally {α : Type} (value : Option Json) (read : Option Json → Except String α) :
    Except String (Option α) :=
  match value with
  | none => .ok none
  | some v => (read (some v)).map some

def optionalSignature (value : Option Json) (label : String) : Except String (Option String) :=
  optionally value fun v => nonempty v label

def Platform.executionIntent (p : Platform) (value : Option Json) (label : String) :
    Except String ExecutionIntent := do
  let parsed ← record value label
  exactKeys parsed label ["resultBytesBase64", "resultHashHex", "rewardAmount", "executedAt"] []
  let resultBytesBase64 ← string (parsed.lookup "resultBytesBase64") s!"{label}.resultBytesBase64"
  let bytes := p.fromBase64 resultBytesBase64
  if p.toBase64 bytes ≠ resultBytesBase64 then
    fail s!"{label}.resultBytesBase64 must be canonical base64"
  else do
    let resultHashHex ← hash (parsed.lookup "resultHashHex") s!"{label}.resultHashHex"
    if p.sha256Hex bytes ≠ resultHashHex then
      fail s!"{label}.resultHashHex does not match stdout"
    else do
      let rewardAmount ← decimal (parsed.lookup "rewardAmount") s!"{label}.rewardAmount"
      let executedAt ← p.iso (parsed.lookup "executedAt") s!"{label}.executedAt"
      .ok ⟨resultBytesBase64, resultHashHex, rewardAmount, executedAt⟩

def Platform.submissionIntent (p : Platform) (value : Option Json) (label : String) :
    Except String SubmissionIntent := do
  let parsed ← record value label
  exactKeys parsed label ["resultUri", "resultHashHex", "rewardAmount", "preparedAt"]
    ["lastBroadcastAt", "transactionSignature"]
  let transactionSignature ← optionalSignature (parsed.lookup "transactionSignature")
    s!"{label}.transactionSignature"
  let resultUri ← nonempty (parsed.lookup "resultUri") s!"{label}.resultUri"
  let resultHashHex ← hash (parsed.lookup "resultHashHex") s!"{label}.resultHashHex"
  let rewardAmount ← decimal (parsed.lookup "rewardAmount") s!"{label}.rewardAmount"
  let preparedAt ← p.iso (parsed.lookup "preparedAt") s!"{label}.preparedAt"
  let lastBroadcastAt ← optionally (parsed.lookup "lastBroadcastAt") fun v =>
    p.iso v s!"{label}.lastBroadcastAt"
  .ok ⟨resultUri, resultHashHex, rewardAmount, preparedAt, lastBroadcastAt, transactionSignature⟩

def readPhase (value : Option Json) (label : String) : Except String Phase :=
  match value with
  | some (.str s) =>
    match Phase.ofText s with
    | some phase => .ok phase
    | none => fail s!"{label}.phase is unsupported"
  | _ => fail s!"{label}.phase is unsupported"

/-- A positive u16, where the field is there. -/
def readRevisionSubmissionCount (value : Option Json) (label : String) :
    Except String (Option ℕ) :=
  match value with
  | none => .ok none
  | some (.num n) =>
    if n.den = 1 ∧ 1 ≤ n.num ∧ n.num ≤ 65535 then .ok (some n.num.toNat)
    else fail s!"{label}.revisionSubmissionCount must be a positive u16"
  | some _ => fail s!"{label}.revisionSubmissionCount must be a positive u16"

def Phase.executes (phase : Phase) : Bool := phase == .executed || phase == .uploading

def Platform.openClaim (p : Platform) (value : Option Json) (label : String) :
    Except String OpenClaim := do
  let parsed ← record value label
  exactKeys parsed label ["task", "claimedAt", "phase"]
    ["claimTransactionSignature", "revisionSubmissionCount", "execution", "submission"]
  let phase ← readPhase (parsed.lookup "phase") label
  let execution ← optionally (parsed.lookup "execution") fun v =>
    p.executionIntent v s!"{label}.execution"
  let submission ← optionally (parsed.lookup "submission") fun v =>
    p.submissionIntent v s!"{label}.submission"
  if phase.executes ≠ execution.isSome then
    fail s!"{label}.execution does not match phase {phase.text}"
  else if (phase == .submitting) ≠ submission.isSome then
    fail s!"{label}.submission does not match phase {phase.text}"
  else do
    let claimTransactionSignature ← optionalSignature (parsed.lookup "claimTransactionSignature")
      s!"{label}.claimTransactionSignature"
    let revisionSubmissionCount ← readRevisionSubmissionCount
      (parsed.lookup "revisionSubmissionCount") label
    let task ← p.taskAddress (parsed.lookup "task") s!"{label}.task"
    let claimedAt ← p.iso (parsed.lookup "claimedAt") s!"{label}.claimedAt"
    .ok ⟨task, claimedAt, phase, claimTransactionSignature, revisionSubmissionCount, execution,
      submission⟩

/-- A string or `null`. -/
def nullableString (value : Option Json) (message : String) : Except String (Option String) :=
  match value with
  | some .null => .ok none
  | some (.str s) => .ok (some s)
  | _ => fail message

def nonemptyOrNull (value : Option String) (label : String) : Except String (Option String) :=
  match value with
  | none => .ok none
  | some s => (nonempty (some (.str s)) label).map some

def readOutcome (value : Option Json) (label : String) : Except String (Option Outcome) :=
  match value with
  | none => .ok none
  | some (.str s) =>
    match Outcome.ofText s with
    | some outcome => .ok (some outcome)
    | none => fail s!"{label}.outcome is unsupported"
  | some _ => fail s!"{label}.outcome is unsupported"

def readTerminalEvidence (value : Option Json) (label : String) :
    Except String (Option TerminalEvidence) :=
  match value with
  | none => .ok none
  | some (.str s) =>
    match TerminalEvidence.ofText s with
    | some evidence => .ok (some evidence)
    | none => fail s!"{label}.terminalEvidence is unsupported"
  | some _ => fail s!"{label}.terminalEvidence is unsupported"

def readSettled (value : Option Json) (label : String) : Except String Bool :=
  match value with
  | some (.bool b) => .ok b
  | _ => fail s!"{label}.settled must be boolean"

/-- The lamports earned, where the field is there: decimal, or `null`. -/
def readEarnedLamports (value : Option Json) (label : String) :
    Except String (Option (Option String)) :=
  match value with
  | none => .ok none
  | some .null => .ok (some none)
  | some (.str s) =>
    if isDecimal s then .ok (some (some s))
    else fail s!"{label}.earnedLamports must be decimal or null"
  | some _ => fail s!"{label}.earnedLamports must be decimal or null"

def readSettlementSignature (value : Option Json) (label : String) :
    Except String (Option (Option String)) :=
  match value with
  | none => .ok none
  | some .null => .ok (some none)
  | some (.str s) =>
    if s.toList.isEmpty then
      fail s!"{label}.settlementSignature must be a nonempty string or null"
    else .ok (some (some s))
  | some _ => fail s!"{label}.settlementSignature must be a nonempty string or null"

/-- The fields of a settlement are there exactly when the record is settled. -/
def checkSettlementFields (parsed : List (String × Json)) (label : String) (settled : Bool)
    (outcome : Option Outcome) : Except String Unit :=
  let has (name : String) : Bool := (parsed.lookup name).isSome
  if settled && (outcome.isNone || !has "settledAt") then
    fail s!"{label} settled records require outcome and settledAt"
  else if !settled && (outcome.isSome || has "earnedLamports" || has "settlementSignature" ||
      has "settledAt") then
    fail s!"{label} unsettled records cannot carry terminal fields"
  else if settled && (!has "earnedLamports" || !has "settlementSignature") then
    fail s!"{label} settled records require complete settlement fields"
  else .ok ()

def Platform.submissionRecord (p : Platform) (value : Json) (label : String) :
    Except String SubmissionRecord := do
  let parsed ← record (some value) label
  exactKeys parsed label
    ["task", "submissionSignature", "resultUri", "resultHashHex", "rewardAmount", "submittedAt",
      "settled"]
    ["outcome", "terminalEvidence", "earnedLamports", "settlementSignature", "settledAt"]
  let signature ← nullableString (parsed.lookup "submissionSignature")
    s!"{label}.submissionSignature must be a string or null"
  let settled ← readSettled (parsed.lookup "settled") label
  let outcome ← readOutcome (parsed.lookup "outcome") label
  let terminalEvidence ← readTerminalEvidence (parsed.lookup "terminalEvidence") label
  checkSettlementFields parsed label settled outcome
  let earnedLamports ← readEarnedLamports (parsed.lookup "earnedLamports") label
  let settlementSignature ← readSettlementSignature (parsed.lookup "settlementSignature") label
  let task ← p.taskAddress (parsed.lookup "task") s!"{label}.task"
  let submissionSignature ← nonemptyOrNull signature s!"{label}.submissionSignature"
  let resultUri ← nonempty (parsed.lookup "resultUri") s!"{label}.resultUri"
  let resultHashHex ← hash (parsed.lookup "resultHashHex") s!"{label}.resultHashHex"
  let rewardAmount ← decimal (parsed.lookup "rewardAmount") s!"{label}.rewardAmount"
  let submittedAt ← p.iso (parsed.lookup "submittedAt") s!"{label}.submittedAt"
  let settledAt ← optionally (parsed.lookup "settledAt") fun v => p.iso v s!"{label}.settledAt"
  .ok ⟨task, submissionSignature, resultUri, resultHashHex, rewardAmount, submittedAt, settled,
    outcome, terminalEvidence, earnedLamports, settlementSignature, settledAt⟩

/-- Reads the records in order; the label of each carries its index. -/
def Platform.readSubmissions (p : Platform) : ℕ → List Json → Except String (List SubmissionRecord)
  | _, [] => .ok []
  | index, item :: rest => do
    let first ← p.submissionRecord item s!"root.submissions[{index}]"
    let others ← p.readSubmissions (index + 1) rest
    .ok (first :: others)

def readAgentIdHex (value : Option Json) : Except String (Option String) :=
  match value with
  | some .null => .ok none
  | some (.str s) =>
    if hashHex s then .ok (some s) else fail "root.agentIdHex must encode exactly 32 bytes"
  | _ => fail "root.agentIdHex must be a string or null"

def readArray (value : Option Json) : Except String (List Json) :=
  match value with
  | some (.arr items) => .ok items
  | _ => fail "root.submissions must be an array"

def readVersion (value : Option Json) : Except String Unit :=
  match value with
  | some (.num n) =>
    if n = workerStateVersion then .ok () else fail s!"unsupported version {n}"
  | _ => fail "unsupported version"

/-- Whether no two records are of one task. -/
def distinctTasks (submissions : List SubmissionRecord) : Bool :=
  decide (submissions.map SubmissionRecord.task).Nodup

def Platform.readOpenClaim (p : Platform) (value : Option Json) (label : String) :
    Except String (Option OpenClaim) :=
  match value with
  | some .null => .ok none
  | v => (p.openClaim v label).map some

/-- The claim in flight is not in the ledger. -/
def claimApart (openClaim : Option OpenClaim) (submissions : List SubmissionRecord) : Bool :=
  openClaim.all fun claim => submissions.all fun r => r.task != claim.task

def Platform.currentState (p : Platform) (value : Json) : Except String WorkerState := do
  let parsed ← record (some value) "root"
  exactKeys parsed "root"
    ["version", "agentIdHex", "openClaim", "totalEarnedBaseline", "submissions"] []
  readVersion (parsed.lookup "version")
  let agentIdHex ← readAgentIdHex (parsed.lookup "agentIdHex")
  let items ← readArray (parsed.lookup "submissions")
  if items.length > maxParsedSubmissions then
    fail s!"root.submissions exceeds the {maxParsedSubmissions} record parse limit"
  else do
    let submissions ← p.readSubmissions 0 items
    if submissions.countP (fun r => !r.settled) > maxUnsettledSubmissions then
      fail s!"root.submissions exceeds the {maxUnsettledSubmissions} unsettled-record limit"
    else if distinctTasks submissions = false then
      fail "root.submissions contains duplicate tasks"
    else do
      let openClaim ← p.readOpenClaim (parsed.lookup "openClaim") "root.openClaim"
      if claimApart openClaim submissions = false then
        fail "root.openClaim task also exists in the submission ledger"
      else do
        let totalEarnedBaseline ← decimal (parsed.lookup "totalEarnedBaseline")
          "root.totalEarnedBaseline"
        .ok ⟨agentIdHex, openClaim, totalEarnedBaseline, submissions⟩

def countJson (n : ℕ) : Json := .num n

/-- The claim of the earlier form, as a claim of the current one. -/
def Platform.migrateLegacyClaim (p : Platform) (value : Option Json) : Except String Json :=
  match value with
  | some .null => .ok .null
  | v => do
    let legacyClaim ← record v "legacy root.openClaim"
    exactKeys legacyClaim "legacy root.openClaim" ["task", "claimedAt"] []
    let task ← p.taskAddress (legacyClaim.lookup "task") "legacy root.openClaim.task"
    let claimedAt ← p.iso (legacyClaim.lookup "claimedAt") "legacy root.openClaim.claimedAt"
    .ok (.obj [("task", .str task), ("claimedAt", .str claimedAt), ("phase", .str "claimed")])

/-- The one earlier form has no version and no phase. -/
def Platform.migrateLegacyState (p : Platform) (value : Json) : Except String WorkerState := do
  let parsed ← record (some value) "legacy root"
  exactKeys parsed "legacy root" ["agentIdHex", "openClaim", "totalEarnedBaseline", "submissions"] []
  let migratedClaim ← p.migrateLegacyClaim (parsed.lookup "openClaim")
  p.currentState (.obj (Json.fields
    [ ("version", some (countJson workerStateVersion)),
      ("agentIdHex", parsed.lookup "agentIdHex"),
      ("openClaim", some migratedClaim),
      ("totalEarnedBaseline", parsed.lookup "totalEarnedBaseline"),
      ("submissions", parsed.lookup "submissions")]))

/-! ## Writing -/

def ExecutionIntent.fields (e : ExecutionIntent) : List (String × Option Json) :=
  [ ("resultBytesBase64", some (.str e.resultBytesBase64)),
    ("resultHashHex", some (.str e.resultHashHex)),
    ("rewardAmount", some (.str e.rewardAmount)),
    ("executedAt", some (.str e.executedAt))]

def ExecutionIntent.json (e : ExecutionIntent) : Json := .obj (Json.fields e.fields)

def SubmissionIntent.fields (i : SubmissionIntent) : List (String × Option Json) :=
  [ ("resultUri", some (.str i.resultUri)),
    ("resultHashHex", some (.str i.resultHashHex)),
    ("rewardAmount", some (.str i.rewardAmount)),
    ("preparedAt", some (.str i.preparedAt)),
    ("lastBroadcastAt", i.lastBroadcastAt.map .str),
    ("transactionSignature", i.transactionSignature.map .str)]

def SubmissionIntent.json (i : SubmissionIntent) : Json := .obj (Json.fields i.fields)

def OpenClaim.fields (c : OpenClaim) : List (String × Option Json) :=
  [ ("task", some (.str c.task)),
    ("claimedAt", some (.str c.claimedAt)),
    ("phase", some (.str c.phase.text)),
    ("claimTransactionSignature", c.claimTransactionSignature.map .str),
    ("revisionSubmissionCount", c.revisionSubmissionCount.map countJson),
    ("execution", c.execution.map ExecutionIntent.json),
    ("submission", c.submission.map SubmissionIntent.json)]

def OpenClaim.json (c : OpenClaim) : Json := .obj (Json.fields c.fields)

/-- A string, or `null`. -/
def nullable (s : Option String) : Json := (s.map Json.str).getD .null

def SubmissionRecord.fields (r : SubmissionRecord) : List (String × Option Json) :=
  [ ("task", some (.str r.task)),
    ("submissionSignature", some (nullable r.submissionSignature)),
    ("resultUri", some (.str r.resultUri)),
    ("resultHashHex", some (.str r.resultHashHex)),
    ("rewardAmount", some (.str r.rewardAmount)),
    ("submittedAt", some (.str r.submittedAt)),
    ("settled", some (.bool r.settled)),
    ("outcome", r.outcome.map fun o => .str o.text),
    ("terminalEvidence", r.terminalEvidence.map fun e => .str e.text),
    ("earnedLamports", r.earnedLamports.map nullable),
    ("settlementSignature", r.settlementSignature.map nullable),
    ("settledAt", r.settledAt.map .str)]

def SubmissionRecord.json (r : SubmissionRecord) : Json := .obj (Json.fields r.fields)

def WorkerState.fields (s : WorkerState) : List (String × Option Json) :=
  [ ("version", some (countJson workerStateVersion)),
    ("agentIdHex", some (nullable s.agentIdHex)),
    ("openClaim", some ((s.openClaim.map OpenClaim.json).getD .null)),
    ("totalEarnedBaseline", some (.str s.totalEarnedBaseline)),
    ("submissions", some (.arr (s.submissions.map SubmissionRecord.json)))]

def WorkerState.json (s : WorkerState) : Json := .obj (Json.fields s.fields)

/-! ## Pruning -/

/-- Drops the first `n` settled records. -/
def dropSettled : ℕ → List SubmissionRecord → List SubmissionRecord
  | _, [] => []
  | n, r :: rest =>
    if !r.settled || n == 0 then r :: dropSettled n rest else dropSettled (n - 1) rest

/-- Keeps every unsettled record and the newest `retention` settled ones. -/
def pruneSettledSubmissions (s : WorkerState) (retention : ℕ := settledSubmissionRetention) :
    WorkerState :=
  let settledToRemove := s.submissions.countP (fun r => r.settled) - retention
  if settledToRemove = 0 then s
  else { s with submissions := dropSettled settledToRemove s.submissions }

/-! ## The file -/

/-- The state file: absent, or its text as a JSON value, where it is one, with its size. -/
inductive StateFile where
  | absent
  | text (parsed : Option Json) (bytes : ℕ)

/-- A root with a version has the current form, one without the earlier form. -/
def Platform.readRoot (p : Platform) (root : List (String × Json)) (json : Json) :
    Except String WorkerState :=
  if (root.lookup "version").isSome then p.currentState json else p.migrateLegacyState json

def Platform.loadState (p : Platform) (file : StateFile) : Except String WorkerState :=
  match file with
  | .absent => .ok emptyState
  | .text parsed bytes =>
    if bytes > maxWorkerStateBytes then
      .error s!"worker state exceeds {maxWorkerStateBytes} bytes"
    else
      match parsed with
      | none => .error "invalid worker state JSON"
      | some json => do
        let root ← record (some json) "root"
        let state ← p.readRoot root json
        .ok (pruneSettledSubmissions state)

/-- The file after the state was saved. -/
def Platform.saveState (p : Platform) (state : WorkerState) : Except String StateFile := do
  let validated ← p.currentState state.json
  let pruned := pruneSettledSubmissions validated
  if p.stringifiedBytes pruned.json > maxWorkerStateBytes then
    .error s!"worker state exceeds {maxWorkerStateBytes} bytes"
  else .ok (.text (some pruned.json) (p.stringifiedBytes pruned.json))

end AgencCoordination.Worker
