import AgencCoordination.Foundations.HexText
import AgencCoordination.Sdk.CanonicalJson
import AgencCoordination.Sdk.ListingMetadata
import AgencCoordination.Sdk.Webhooks

/-!
# Job-spec envelopes

A job spec travels in an envelope that names its hash. The worker takes the payload out of it when
the hash of its canonical JSON is both the one on chain and the one declared, and passes on that
canonical JSON, never the bytes it was sent.

* **`verifyJobSpecEnvelope`** — the checks of an envelope and the content that comes out.
* **`verifyJobSpecEnvelope_content`** — what such content is.
-/

namespace AgencCoordination.Worker

open Foundations Sdk
open Foundations.JsonValue (word)

/-- A `JobSpecError` with its message. -/
structure JobSpecError where
  message : Utf16
deriving DecidableEq

/-- What the runtime supplies: `JSON.parse` and SHA-256. -/
structure JobSpecRuntime where
  jsonParse : Utf16 → Option JsonValue
  sha256 : List UInt8 → List UInt8

/-- The members of an object (`isJsonObject`). -/
def isJsonObject : JsonValue → Option (List (Utf16 × JsonValue))
  | .object members => some members
  | _ => none

/-- The text of a string. -/
def asText : JsonValue → Option Utf16
  | .string s => some s
  | _ => none

/-- The property of an object under a name. -/
def property (members : List (Utf16 × JsonValue)) (name : String) : Option JsonValue :=
  members.lookup (word name)

/-- `/^[0-9a-f]{64}$/`. -/
def isHashHex (text : Utf16) : Bool := text.length = 64 && text.all isHexLower

/-- An error about a task. -/
def taskError (task text : Utf16) : JobSpecError :=
  ⟨word "task " ++ task ++ word ": " ++ text⟩

/-- `verifyJobSpecEnvelope`. -/
def verifyJobSpecEnvelope (runtime : JobSpecRuntime) (task : Utf16)
    (envelopeBytes onChainHash : List UInt8) : Except JobSpecError (List UInt8) := do
  let parsed ← demand ((utf8Decoder envelopeBytes).bind runtime.jsonParse)
    (taskError task (word "job-spec document is not a valid UTF-8 JSON envelope"))
  let envelope ← demand (isJsonObject parsed)
    (taskError task (word "job-spec envelope must be a JSON object"))
  let integrity ← demand ((property envelope "integrity").bind isJsonObject)
    (taskError task (word "job-spec envelope.integrity must be a JSON object"))
  require ((property integrity "algorithm").bind asText = some (word "sha256"))
    (taskError task (word "job-spec envelope integrity.algorithm must be \"sha256\""))
  require ((property integrity "canonicalization").bind asText = some (word "json-stable-v1"))
    (taskError task (word "job-spec envelope integrity.canonicalization must be \"json-stable-v1\""))
  let declaredPayloadHash ← demand
    (((property integrity "payloadHash").bind asText).filter isHashHex)
    (taskError task (word
      "job-spec envelope integrity.payloadHash must be 64 lowercase hex characters"))
  let payload ← demand ((property envelope "payload").bind isJsonObject)
    (taskError task (word "job-spec envelope.payload must be a JSON object"))
  let canonicalPayload ← (canonicalJobSpecJson (.object payload)).mapError fun e =>
    taskError task (word "job-spec payload is not valid json-stable-v1 data: " ++ e.message)
  let digest := runtime.sha256 (utf8Encoder canonicalPayload)
  require (digest = onChainHash)
    (taskError task (word ("job-spec payload hash mismatch — canonical payload does not match " ++
      "the on-chain commitment (expected ") ++ hexText onChainHash ++ word ", got " ++
      hexText digest ++ word ")"))
  require (declaredPayloadHash = hexText digest)
    (taskError task (word "job-spec envelope integrity.payloadHash mismatch (declared " ++
      declaredPayloadHash ++ word ", got " ++ hexText digest ++ word ")"))
  .ok (utf8Encoder canonicalPayload)

/-- **Verified content** is the canonical JSON of the payload of the envelope, and the hash of it
is the one on chain and the one declared. -/
theorem verifyJobSpecEnvelope_content {runtime : JobSpecRuntime} {task : Utf16}
    {envelopeBytes onChainHash content : List UInt8}
    (h : verifyJobSpecEnvelope runtime task envelopeBytes onChainHash = .ok content) :
    ∃ envelope integrity payload text,
      (utf8Decoder envelopeBytes).bind runtime.jsonParse = some (.object envelope) ∧
      property envelope "integrity" = some (.object integrity) ∧
      property envelope "payload" = some (.object payload) ∧
      canonicalJobSpecJson (.object payload) = .ok text ∧
      content = utf8Encoder text ∧
      runtime.sha256 content = onChainHash ∧
      property integrity "payloadHash" = some (.string (hexText onChainHash)) := by
  simp only [verifyJobSpecEnvelope, bind_eq_ok, demand_eq_ok, require_eq_ok] at h
  obtain ⟨parsed, hparsed, members, hmembers, integrity, hintegrity, _, halgorithm, h⟩ := h
  obtain ⟨_, hcanonicalization, declared, hdeclared, payload, hpayload, h⟩ := h
  obtain ⟨text, htext, _, hdigest, _, hsame, hcontent⟩ := h
  have hobject : ∀ {v : JsonValue} {ms}, isJsonObject v = some ms → v = .object ms := by
    intro v ms hv
    cases v <;> simp only [isJsonObject, reduceCtorEq, Option.some.injEq] at hv
    rw [hv]
  obtain ⟨vi, hvi, hi⟩ := Option.bind_eq_some_iff.mp hintegrity
  obtain ⟨vp, hvp, hp⟩ := Option.bind_eq_some_iff.mp hpayload
  obtain ⟨hdeclared, -⟩ := Option.filter_eq_some_iff.mp hdeclared
  obtain ⟨vd, hvd, hd⟩ := Option.bind_eq_some_iff.mp hdeclared
  have hstring : vd = .string declared := by
    cases vd <;> simp only [asText, reduceCtorEq, Option.some.injEq] at hd
    rw [hd]
  have hcanonical : canonicalJobSpecJson (.object payload) = .ok text := by
    cases hout : canonicalJobSpecJson (.object payload) with
    | error e =>
      rw [hout] at htext
      cases htext
    | ok out =>
      rw [hout] at htext
      cases htext
      rfl
  have hcontent : utf8Encoder text = content := Except.ok.inj hcontent
  refine ⟨members, integrity, payload, text, ?_, ?_, ?_, hcanonical, hcontent.symm, ?_, ?_⟩
  · rw [hparsed, hobject hmembers]
  · rw [hvi, hobject hi]
  · rw [hvp, hobject hp]
  · rw [← hcontent]
    exact hdigest
  · rw [hvd, hstring, hsame, hdigest]

end AgencCoordination.Worker
