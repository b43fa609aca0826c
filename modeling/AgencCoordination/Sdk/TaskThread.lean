import AgencCoordination.Foundations.Guard
import AgencCoordination.Foundations.SafeInteger
import AgencCoordination.Sdk.CanonicalJson
import AgencCoordination.Sdk.Webhooks

/-!
# Task-thread envelopes

A message between buyer and worker is an envelope whose canonical JSON is hashed on chain. A body
that a server sends is taken for one after every field has been checked.

* **`assertTaskThreadEnvelope`** — the checks, in their order.
* **`canonicalEnvelopeJson`** — the text that is hashed.
* **`assertTaskThreadEnvelope_finite`** — the timestamp of an accepted envelope is finite.
-/

namespace AgencCoordination.Sdk

open Foundations
open Foundations.JsonValue (word)

/-- What `new URL` reads of the URI of an attachment. -/
structure AttachmentUrl where
  protocol : Utf16
  username : Utf16
  password : Utf16

/-- What the runtime supplies: whether `address` accepts a string, `new URL`, and `String` of a
value in a message. -/
structure TaskThreadRuntime where
  isAddress : Utf16 → Bool
  parseUrl : Utf16 → Option AttachmentUrl
  display : JsonValue → Utf16

inductive TaskThreadRole where
  | buyer
  | worker
deriving DecidableEq

structure TaskThreadAttachment where
  uri : Utf16
  hash : Utf16
deriving DecidableEq

/-- `TaskThreadEnvelope`; its version is always one. -/
structure TaskThreadEnvelope where
  taskPda : Utf16
  parentHash : Option Utf16
  role : TaskThreadRole
  body : Utf16
  attachments : List TaskThreadAttachment
  ts : Number

/-- `ENVELOPE_KEYS`. -/
def envelopeKeys : List String :=
  ["attachments", "body", "parentHash", "role", "taskPda", "ts", "v"]

/-- `ATTACHMENT_KEYS`. -/
def attachmentKeys : List String := ["hash", "uri"]

/-- `MAX_BODY_CHARS`. -/
def maxBodyChars : ℕ := 16384

/-- `MAX_ATTACHMENTS`. -/
def maxAttachments : ℕ := 32

/-- `MAX_URI_CHARS`. -/
def maxUriChars : ℕ := 2048

/-- `HASH_HEX`. -/
def hashHexPattern (text : Utf16) : Bool := text.length = 64 && text.all isHexLower

/-- An error about the envelope. -/
def envelopeError (text : Utf16) : TypeError := ⟨word "task-thread envelope: " ++ text⟩

/-- An error about an attachment. -/
def attachmentError (index : ℕ) (text : String) : TypeError :=
  envelopeError (itemPath (word "attachment") index ++ word text)

/-- `assertExactKeys`: the keys, sorted, are the expected ones. -/
def assertExactKeys (members : List (Utf16 × JsonValue)) (expected : List String)
    (context : Utf16) : Except TypeError Unit :=
  require ((sortMembers members).map Prod.fst = expected.map word)
    ⟨context ++ word ": unknown or missing keys"⟩

/-- A natural number in decimal. -/
def countText (n : ℕ) : Utf16 := if n = 0 then [0x30] else Number.decimal n

/-- The members of a value of type `object`; those of an array are its items. -/
def objectMembers : JsonValue → Option (List (Utf16 × JsonValue))
  | .object members => some members
  | .array items => some (items.mapIdx fun i v => (countText i, v))
  | _ => none

/-- The string under a key. -/
def textOf (members : List (Utf16 × JsonValue)) (key : String) : Option Utf16 :=
  match members.lookup (word key) with
  | some (.string s) => some s
  | _ => none

/-- `assertTaskThreadTaskPda`. -/
def assertTaskThreadTaskPda (runtime : TaskThreadRuntime) (value : Option Utf16) :
    Except TypeError Utf16 := do
  let value ← demand value (envelopeError (word "`taskPda` must be a Solana address"))
  require (runtime.isAddress value = true)
    (envelopeError (word "`taskPda` must be a valid Solana address"))
  .ok value

/-- `assertAttachmentUri`. -/
def assertAttachmentUri (runtime : TaskThreadRuntime) (value : Option Utf16) (index : ℕ) :
    Except TypeError Utf16 := do
  let value ← demand (value.filter fun s => decide (s.length ≠ 0 ∧ s.length ≤ maxUriChars))
    (attachmentError index ".uri is invalid")
  let parsed ← demand (runtime.parseUrl value) (attachmentError index ".uri is invalid")
  require ((parsed.protocol = word "https:" ∨ parsed.protocol = word "agenc:") ∧
      parsed.username = [] ∧ parsed.password = [])
    (attachmentError index ".uri must use https: or agenc: without credentials")
  .ok value

/-- One attachment. -/
def assertAttachment (runtime : TaskThreadRuntime) (index : ℕ) (a : JsonValue) :
    Except TypeError TaskThreadAttachment := do
  let att ← demand (objectMembers a) (attachmentError index " is not an object")
  assertExactKeys att attachmentKeys
    (word "task-thread envelope: " ++ itemPath (word "attachment") index)
  let uri ← assertAttachmentUri runtime (textOf att "uri") index
  let hash ← demand ((textOf att "hash").filter hashHexPattern)
    (attachmentError index ".hash must be 64 lowercase hex chars")
  .ok ⟨uri, hash⟩

/-- The attachments, in their order. -/
def assertAttachments (runtime : TaskThreadRuntime) :
    ℕ → List JsonValue → Except TypeError (List TaskThreadAttachment)
  | _, [] => .ok []
  | index, a :: rest => do
    let attachment ← assertAttachment runtime index a
    let attachments ← assertAttachments runtime (index + 1) rest
    .ok (attachment :: attachments)

/-- The check of `v`. -/
def assertVersion (runtime : TaskThreadRuntime) : Option JsonValue → Except TypeError Unit
  | some (.number x) =>
    require (x.safeInteger? = some 1)
      (envelopeError (word "unsupported version " ++ runtime.display (.number x) ++
        word " (expected 1)"))
  | some v => .error (envelopeError (word "unsupported version " ++ runtime.display v ++
      word " (expected 1)"))
  | none => .error (envelopeError (word "unsupported version undefined (expected 1)"))

/-- The check of `parentHash`. -/
def assertParentHash : Option JsonValue → Except TypeError (Option Utf16)
  | some .null => .ok none
  | some (.string s) => do
    require (hashHexPattern s = true)
      (envelopeError (word "`parentHash` must be 64 lowercase hex chars or null"))
    .ok (some s)
  | _ => .error (envelopeError (word "`parentHash` must be 64 lowercase hex chars or null"))

/-- The check of `role`. -/
def assertRole (value : Option Utf16) : Except TypeError TaskThreadRole :=
  if value = some (word "buyer") then .ok .buyer
  else if value = some (word "worker") then .ok .worker
  else .error (envelopeError (word "`role` must be \"buyer\" or \"worker\""))

/-- The items of an array. -/
def itemsOf : Option JsonValue → Option (List JsonValue)
  | some (.array items) => some items
  | _ => none

/-- The check of `ts`. -/
def assertTs : Option JsonValue → Except TypeError Number
  | some (.number x) => do
    require ((x.safeInteger?.any fun n => decide (0 ≤ n)) = true)
      (envelopeError (word "`ts` must be a non-negative safe integer"))
    .ok x
  | _ => .error (envelopeError (word "`ts` must be a non-negative safe integer"))

/-- `assertTaskThreadEnvelope`. -/
def assertTaskThreadEnvelope (runtime : TaskThreadRuntime) (value : JsonValue) :
    Except TypeError TaskThreadEnvelope := do
  let e ← demand (objectMembers value) (envelopeError (word "not a JSON object"))
  assertExactKeys e envelopeKeys (word "task-thread envelope")
  assertVersion runtime (e.lookup (word "v"))
  let taskPda ← assertTaskThreadTaskPda runtime (textOf e "taskPda")
  let parentHash ← assertParentHash (e.lookup (word "parentHash"))
  let role ← assertRole (textOf e "role")
  let body ← demand ((textOf e "body").filter fun s => decide (s.length ≤ maxBodyChars))
    (envelopeError (word "`body` must be at most 16384 chars"))
  let items ← demand (itemsOf (e.lookup (word "attachments")))
    (envelopeError (word "`attachments` must be an array"))
  require (items.length ≤ maxAttachments)
    (envelopeError (word "at most 32 attachments are allowed"))
  let attachments ← assertAttachments runtime 0 items
  let ts ← assertTs (e.lookup (word "ts"))
  .ok ⟨taskPda, parentHash, role, body, attachments, ts⟩

/-! ## As JSON -/

/-- The word of a role. -/
def TaskThreadRole.toText : TaskThreadRole → Utf16
  | .buyer => word "buyer"
  | .worker => word "worker"

/-- An attachment as the object it is. -/
def TaskThreadAttachment.toJson (a : TaskThreadAttachment) : JsonValue :=
  .object [(word "uri", .string a.uri), (word "hash", .string a.hash)]

/-- The parent hash, or null. -/
def parentJson : Option Utf16 → JsonValue
  | none => .null
  | some hash => .string hash

/-- An envelope as the object it is. -/
def TaskThreadEnvelope.toJson (e : TaskThreadEnvelope) : JsonValue :=
  .object [(word "v", .number (.ofNat 1)), (word "taskPda", .string e.taskPda),
    (word "parentHash", parentJson e.parentHash), (word "role", .string e.role.toText),
    (word "body", .string e.body),
    (word "attachments", .array (e.attachments.map TaskThreadAttachment.toJson)),
    (word "ts", .number e.ts)]

/-- `canonicalEnvelopeJson`. -/
def canonicalEnvelopeJson (envelope : TaskThreadEnvelope) : Except TypeError Utf16 :=
  canonicalJobSpecJson envelope.toJson

/-- A safe integer is finite. -/
theorem assertTaskThreadEnvelope_finite {runtime : TaskThreadRuntime} {value : JsonValue}
    {e : TaskThreadEnvelope} (h : assertTaskThreadEnvelope runtime value = .ok e) :
    e.ts.isFinite = true := by
  simp only [assertTaskThreadEnvelope, bind_eq_ok, demand_eq_ok, require_eq_ok] at h
  obtain ⟨members, _, _, _, _, _, taskPda, _, parentHash, _, role, _, body, _, h⟩ := h
  obtain ⟨items, _, _, _, attachments, _, ts, hts, h⟩ := h
  have hsame : ts = e.ts := by
    rw [← Except.ok.inj h]
  rw [← hsame]
  cases hfield : members.lookup (word "ts") with
  | none =>
    rw [hfield] at hts
    cases hts
  | some v =>
    rw [hfield] at hts
    cases v with
    | number x =>
      simp only [assertTs, bind_eq_ok, require_eq_ok] at hts
      obtain ⟨_, hsafe, hts⟩ := hts
      rw [← Except.ok.inj hts]
      cases x with
      | finite negative size => rfl
      | infinite negative => cases hsafe
    | null => cases hts
    | bool b => cases hts
    | string s => cases hts
    | array items => cases hts
    | object members => cases hts

/-! ## The canonical text -/

theorem attachments_distinct (attachments : List TaskThreadAttachment) :
    JsonValue.DistinctItems (attachments.map TaskThreadAttachment.toJson) := by
  induction attachments with
  | nil => trivial
  | cons a rest ih =>
    have hkeys : [word "uri", word "hash"].Nodup := by decide
    exact ⟨⟨hkeys, trivial, trivial, trivial⟩, ih⟩

theorem attachments_conform (attachments : List TaskThreadAttachment) :
    JsonValue.ConformItems (attachments.map TaskThreadAttachment.toJson) := by
  induction attachments with
  | nil => trivial
  | cons a rest ih =>
    have hkeys : ∀ key ∈ [word "uri", word "hash"], arrayIndex? key = none := by decide +kernel
    exact ⟨⟨.of_names hkeys, trivial, trivial, trivial⟩, ih⟩

theorem attachments_finite (attachments : List TaskThreadAttachment) :
    JsonValue.isFiniteItems (attachments.map TaskThreadAttachment.toJson) = true := by
  induction attachments with
  | nil => rfl
  | cons a rest ih =>
    rw [List.map_cons, JsonValue.isFiniteItems, ih]
    rfl

theorem parentJson_plain (parent : Option Utf16) :
    (parentJson parent).Distinct ∧ (parentJson parent).Conforms ∧
      (parentJson parent).isFinite = true := by
  cases parent with
  | none => exact ⟨trivial, trivial, rfl⟩
  | some hash => exact ⟨trivial, trivial, rfl⟩

namespace TaskThreadEnvelope

theorem toJson_distinct (e : TaskThreadEnvelope) : e.toJson.Distinct := by
  have hkeys : [word "v", word "taskPda", word "parentHash", word "role", word "body",
      word "attachments", word "ts"].Nodup := by decide +kernel
  exact ⟨hkeys, trivial, trivial, (parentJson_plain e.parentHash).1, trivial, trivial,
    attachments_distinct e.attachments, trivial, trivial⟩

theorem toJson_conforms (e : TaskThreadEnvelope) : e.toJson.Conforms := by
  have hkeys : ∀ key ∈ [word "v", word "taskPda", word "parentHash", word "role", word "body",
      word "attachments", word "ts"], arrayIndex? key = none := by decide +kernel
  exact ⟨.of_names hkeys, trivial, trivial, (parentJson_plain e.parentHash).2.1, trivial, trivial,
    attachments_conform e.attachments, trivial, trivial⟩

theorem toJson_finite {e : TaskThreadEnvelope} (h : e.ts.isFinite = true) :
    e.toJson.isFinite = true := by
  have hone : (Number.ofNat 1).isFinite = true := by
    have hsafe := Number.safeInteger_ofNat 1
    rw [if_pos (by decide)] at hsafe
    cases hnumber : Number.ofNat 1 with
    | finite negative size => rfl
    | infinite negative =>
      rw [hnumber] at hsafe
      cases hsafe
  rw [toJson]
  simp only [JsonValue.isFinite, JsonValue.isFiniteMembers, hone, h, Bool.true_and,
    (parentJson_plain e.parentHash).2.2, attachments_finite]

end TaskThreadEnvelope

theorem canonicalEnvelopeJson_eq {e : TaskThreadEnvelope} (h : e.ts.isFinite = true) :
    canonicalEnvelopeJson e = .ok e.toJson.rebuilt.stringify :=
  canonicalJobSpecJson_eq (TaskThreadEnvelope.toJson_finite h)

/-- **The canonical text** of an envelope is that of the envelopes that are the same JSON value,
and of no others. -/
theorem canonicalEnvelopeJson_inj {e e' : TaskThreadEnvelope} (h : e.ts.isFinite = true)
    (h' : e'.ts.isFinite = true) :
    canonicalEnvelopeJson e = canonicalEnvelopeJson e' ↔ e.toJson.Equal e'.toJson := by
  have hfinite := TaskThreadEnvelope.toJson_finite h
  have hfinite' := TaskThreadEnvelope.toJson_finite h'
  have hsorted := (JsonValue.stringify_rebuilt hfinite e.toJson_distinct).mpr e.toJson_conforms
  have hsorted' := (JsonValue.stringify_rebuilt hfinite' e'.toJson_distinct).mpr e'.toJson_conforms
  rw [canonicalEnvelopeJson_eq h, canonicalEnvelopeJson_eq h', Except.ok.injEq, hsorted, hsorted',
    JsonValue.stringify_sorted_eq_iff hfinite hfinite' e.toJson_distinct]

end AgencCoordination.Sdk
