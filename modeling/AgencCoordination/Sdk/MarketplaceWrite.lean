import AgencCoordination.Foundations.Borsh
import AgencCoordination.Foundations.Utf8
import AgencCoordination.Sdk.CanonicalJson

/-!
# The decoder of marketplace-write history

Three instructions, each in the layout of revision 4 and in that of revision 5. The decoders of the
layouts are put together from Kit's, which accept more than Borsh: an option with another tag than
`0` and `1`, and bytes that follow.

* **`Kit`** — what is relied on of Kit's primitive decoders.
* **`decodeMarketplaceWriteInstruction`** — the dispatcher.
* **`WriteData.encode`** — the Borsh encoding of an instruction's data.
-/

namespace AgencCoordination.Sdk

open Foundations
open Foundations.JsonValue (word)

/-- `Decoder.read`: a value and the offset behind it; `none` when the decoder throws. -/
def Reader (α : Type) : Type := List UInt8 → ℕ → Option (α × ℕ)

namespace Reader

instance : Monad Reader where
  pure a := fun _ offset => some (a, offset)
  bind r f := fun data offset => (r data offset).bind fun p => f p.1 data p.2

end Reader

/-- A decoder reads exactly the encodings of a format. -/
def Reads {α : Type} (r : Reader α) (c : Codec α) : Prop :=
  ∀ data offset a offset', r data offset = some (a, offset') ↔
    c.encode a <+: data.drop offset ∧ offset' = offset + (c.encode a).length

/-- Kit's decoders, as far as they are used. Nothing is said about an option whose tag is neither
`0` nor `1`. -/
structure Kit where
  fixedBytes : (n : ℕ) → Reader (Bytes n)
  u16 : Reader UInt16
  u32 : Reader UInt32
  u64 : Reader UInt64
  i64 : Reader Int64
  option : {α : Type} → Reader α → Reader (Option α)
  sizePrefix : {α : Type} → Reader α → Reader UInt32 → Reader α
  fixedBytes_reads : ∀ n, 0 < n → Reads (fixedBytes n) (Codec.bytes n)
  u16_reads : Reads u16 Codec.u16
  u32_reads : Reads u32 Codec.u32
  u64_reads : Reads u64 Codec.u64
  i64_reads : Reads i64 Codec.i64
  option_none : ∀ {α : Type} (r : Reader α) (data : List UInt8) (offset : ℕ),
    data[offset]? = some 0 → option r data offset = some (none, offset + 1)
  option_some : ∀ {α : Type} (r : Reader α) (data : List UInt8) (offset : ℕ),
    data[offset]? = some 1 →
      option r data offset = (r data (offset + 1)).map fun p => (some p.1, p.2)
  /-- The inner decoder is given the announced bytes and nothing else. -/
  sizePrefix_eq : ∀ {α : Type} (r : Reader α) (size : Reader UInt32) (data : List UInt8)
    (offset : ℕ), sizePrefix r size data offset =
      (size data offset).bind fun p =>
        if data.length < p.2 + p.1.toNat then none
        else (r ((data.drop p.2).take p.1.toNat) 0).map fun q => (q.1, p.2 + p.1.toNat)

/-- An address, by its bytes. -/
abbrev Address := Bytes 32

/-! ## Identities -/

inductive MarketplaceWriteInstructionName where
  | hireFromListing
  | hireFromListingHumanless
  | setTaskJobSpec
deriving DecidableEq

def MarketplaceWriteInstructionName.text : MarketplaceWriteInstructionName → String
  | .hireFromListing => "hire_from_listing"
  | .hireFromListingHumanless => "hire_from_listing_humanless"
  | .setTaskJobSpec => "set_task_job_spec"

inductive MarketplaceWriteWireVersion where
  | legacyV1
  | commitmentV2
deriving DecidableEq

def MarketplaceWriteWireVersion.text : MarketplaceWriteWireVersion → String
  | .legacyV1 => "legacy-v1"
  | .commitmentV2 => "commitment-v2"

/-- Account-meta position and privileges in one frozen instruction ABI. -/
structure MarketplaceWriteAccountSchema where
  name : String
  writable : Bool
  signer : Bool
  optional : Bool
deriving DecidableEq

def ro (name : String) : MarketplaceWriteAccountSchema := ⟨name, false, false, false⟩

def roOptional (name : String) : MarketplaceWriteAccountSchema := ⟨name, false, false, true⟩

def writable (name : String) : MarketplaceWriteAccountSchema := ⟨name, true, false, false⟩

def signer (name : String) (writable : Bool) : MarketplaceWriteAccountSchema :=
  ⟨name, writable, true, false⟩

/-- `REVISION_4_MARKETPLACE_WRITE_ACCOUNT_SCHEMAS`. -/
def revision4AccountSchemas :
    MarketplaceWriteInstructionName → List MarketplaceWriteAccountSchema
  | .hireFromListing =>
    [writable "task", writable "escrow", writable "hire_record", writable "listing", writable "protocol_config",
      ro "moderation_config", roOptional "listing_moderation", roOptional "moderation_attestor",
      ro "moderation_block", ro "creator_agent", writable "authority_rate_limit",
      signer "authority" false, signer "creator" true, ro "system_program"]
  | .hireFromListingHumanless =>
    [writable "task", writable "escrow", writable "hire_record", writable "task_validation_config", writable "listing",
      writable "protocol_config", ro "moderation_config", roOptional "listing_moderation",
      roOptional "moderation_attestor", ro "moderation_block", writable "authority_rate_limit",
      signer "creator" true, ro "system_program"]
  | .setTaskJobSpec =>
    [ro "protocol_config", ro "task", ro "moderation_config", ro "task_moderation",
      roOptional "moderation_attestor", ro "moderation_block", writable "task_job_spec",
      signer "creator" true, ro "system_program"]

/-- `REVISION_5_MARKETPLACE_WRITE_ACCOUNT_SCHEMAS`. -/
def revision5AccountSchemas :
    MarketplaceWriteInstructionName → List MarketplaceWriteAccountSchema
  | .hireFromListing =>
    [writable "task", writable "escrow", writable "hire_record", writable "listing", ro "provider_agent",
      writable "protocol_config", ro "moderation_config", roOptional "listing_moderation",
      roOptional "moderation_attestor", ro "moderation_block", ro "creator_agent",
      writable "authority_rate_limit", signer "authority" false, signer "creator" true,
      ro "system_program"]
  | .hireFromListingHumanless =>
    [writable "task", writable "escrow", writable "hire_record", writable "task_validation_config", writable "listing",
      ro "provider_agent", writable "protocol_config", ro "moderation_config",
      roOptional "listing_moderation", roOptional "moderation_attestor", ro "moderation_block",
      writable "authority_rate_limit", signer "creator" true, ro "system_program"]
  | .setTaskJobSpec =>
    [ro "protocol_config", ro "task", ro "moderation_config", ro "task_moderation",
      roOptional "moderation_attestor", ro "moderation_block", writable "task_job_spec",
      signer "creator" true, ro "system_program", ro "hire_record"]

structure MarketplaceWriteInstructionIdentity where
  instruction : MarketplaceWriteInstructionName
  wireVersion : MarketplaceWriteWireVersion
  surfaceRevision : ℕ
  discriminator : Bytes 8
  accountSchema : List MarketplaceWriteAccountSchema

def revision4 (instruction : MarketplaceWriteInstructionName) (discriminator : Bytes 8) :
    MarketplaceWriteInstructionIdentity :=
  ⟨instruction, .legacyV1, 4, discriminator, revision4AccountSchemas instruction⟩

def revision5 (instruction : MarketplaceWriteInstructionName) (discriminator : Bytes 8) :
    MarketplaceWriteInstructionIdentity :=
  ⟨instruction, .commitmentV2, 5, discriminator, revision5AccountSchemas instruction⟩

def revision4HireFromListing : MarketplaceWriteInstructionIdentity :=
  revision4 .hireFromListing ⟨[174, 225, 81, 68, 172, 19, 97, 194], rfl⟩

def revision4HireFromListingHumanless : MarketplaceWriteInstructionIdentity :=
  revision4 .hireFromListingHumanless ⟨[90, 142, 39, 225, 150, 161, 217, 49], rfl⟩

def revision4SetTaskJobSpec : MarketplaceWriteInstructionIdentity :=
  revision4 .setTaskJobSpec ⟨[134, 102, 102, 86, 31, 164, 202, 193], rfl⟩

def revision5HireFromListing : MarketplaceWriteInstructionIdentity :=
  revision5 .hireFromListing ⟨[241, 94, 127, 7, 104, 174, 240, 116], rfl⟩

def revision5HireFromListingHumanless : MarketplaceWriteInstructionIdentity :=
  revision5 .hireFromListingHumanless ⟨[229, 163, 171, 114, 38, 116, 215, 85], rfl⟩

def revision5SetTaskJobSpec : MarketplaceWriteInstructionIdentity :=
  revision5 .setTaskJobSpec ⟨[118, 9, 99, 58, 215, 87, 58, 59], rfl⟩

/-- `IDENTITIES`. -/
def identities : List MarketplaceWriteInstructionIdentity :=
  [revision4HireFromListing, revision4HireFromListingHumanless, revision4SetTaskJobSpec,
    revision5HireFromListing, revision5HireFromListingHumanless, revision5SetTaskJobSpec]

def startsWithDiscriminator (data discriminator : List UInt8) : Bool :=
  discriminator.isPrefixOf data

def identifyMarketplaceWriteInstruction (data : List UInt8) :
    Option MarketplaceWriteInstructionIdentity :=
  identities.find? fun candidate => startsWithDiscriminator data candidate.discriminator.data

/-! ## Layouts -/

structure Revision4HireFromListingInstructionData where
  discriminator : Bytes 8
  taskId : Bytes 32
  expectedPrice : UInt64
  expectedVersion : UInt64
  referrer : Option Address
  referrerFeeBps : UInt16
  moderator : Address

structure Revision4HireFromListingHumanlessInstructionData where
  discriminator : Bytes 8
  taskId : Bytes 32
  expectedPrice : UInt64
  expectedVersion : UInt64
  reviewWindowSecs : Int64
  referrer : Option Address
  referrerFeeBps : UInt16
  moderator : Address

/-- The data of both revisions of `set_task_job_spec`. -/
structure SetTaskJobSpecInstructionData where
  discriminator : Bytes 8
  jobSpecHash : Bytes 32
  jobSpecUri : List Char
  moderator : Address

structure HireFromListingInstructionData extends Revision4HireFromListingInstructionData where
  taskJobSpecHash : Bytes 32

structure HireFromListingHumanlessInstructionData extends
    Revision4HireFromListingHumanlessInstructionData where
  taskJobSpecHash : Bytes 32

/-- `getBorshStringDecoder`: the text decoder is fatal and keeps a byte-order mark. -/
def borshStringDecoder : Reader (List Char) := fun bytes offset =>
  (Utf8.decode (bytes.drop offset)).map fun text => (text, bytes.length)

section decoders

variable (k : Kit)

def revision4HireFromListingDecoder : Reader Revision4HireFromListingInstructionData := do
  let discriminator ← k.fixedBytes 8
  let taskId ← k.fixedBytes 32
  let expectedPrice ← k.u64
  let expectedVersion ← k.u64
  let referrer ← k.option (k.fixedBytes 32)
  let referrerFeeBps ← k.u16
  let moderator ← k.fixedBytes 32
  pure { discriminator, taskId, expectedPrice, expectedVersion, referrer, referrerFeeBps,
         moderator }

def revision4HireFromListingHumanlessDecoder :
    Reader Revision4HireFromListingHumanlessInstructionData := do
  let discriminator ← k.fixedBytes 8
  let taskId ← k.fixedBytes 32
  let expectedPrice ← k.u64
  let expectedVersion ← k.u64
  let reviewWindowSecs ← k.i64
  let referrer ← k.option (k.fixedBytes 32)
  let referrerFeeBps ← k.u16
  let moderator ← k.fixedBytes 32
  pure { discriminator, taskId, expectedPrice, expectedVersion, reviewWindowSecs, referrer,
         referrerFeeBps, moderator }

/-- `revision4SetTaskJobSpecDecoder` and the decoder of revision 5, which are alike. -/
def setTaskJobSpecDecoder : Reader SetTaskJobSpecInstructionData := do
  let discriminator ← k.fixedBytes 8
  let jobSpecHash ← k.fixedBytes 32
  let jobSpecUri ← k.sizePrefix borshStringDecoder k.u32
  let moderator ← k.fixedBytes 32
  pure { discriminator, jobSpecHash, jobSpecUri, moderator }

/-- `getHireFromListingInstructionDataDecoder`. -/
def hireFromListingDecoder : Reader HireFromListingInstructionData := do
  let fields ← revision4HireFromListingDecoder k
  let taskJobSpecHash ← k.fixedBytes 32
  pure { fields with taskJobSpecHash }

/-- `getHireFromListingHumanlessInstructionDataDecoder`. -/
def hireFromListingHumanlessDecoder : Reader HireFromListingHumanlessInstructionData := do
  let fields ← revision4HireFromListingHumanlessDecoder k
  let taskJobSpecHash ← k.fixedBytes 32
  pure { fields with taskJobSpecHash }

end decoders

/-! ## The Borsh encoding -/

/-- A Borsh string: the number of its bytes, and its bytes. -/
def borshString (text : List Char) : List UInt8 :=
  Codec.u32.encode (UInt32.ofNat (Utf8.encode text).length) ++ Utf8.encode text

def Revision4HireFromListingInstructionData.encode
    (x : Revision4HireFromListingInstructionData) : List UInt8 :=
  (Codec.bytes 8).encode x.discriminator ++ ((Codec.bytes 32).encode x.taskId ++
    (Codec.u64.encode x.expectedPrice ++ (Codec.u64.encode x.expectedVersion ++
      ((Codec.option (Codec.bytes 32)).encode x.referrer ++
        (Codec.u16.encode x.referrerFeeBps ++ (Codec.bytes 32).encode x.moderator)))))

def Revision4HireFromListingHumanlessInstructionData.encode
    (x : Revision4HireFromListingHumanlessInstructionData) : List UInt8 :=
  (Codec.bytes 8).encode x.discriminator ++ ((Codec.bytes 32).encode x.taskId ++
    (Codec.u64.encode x.expectedPrice ++ (Codec.u64.encode x.expectedVersion ++
      (Codec.i64.encode x.reviewWindowSecs ++ ((Codec.option (Codec.bytes 32)).encode x.referrer ++
        (Codec.u16.encode x.referrerFeeBps ++ (Codec.bytes 32).encode x.moderator))))))

def SetTaskJobSpecInstructionData.encode (x : SetTaskJobSpecInstructionData) : List UInt8 :=
  (Codec.bytes 8).encode x.discriminator ++ ((Codec.bytes 32).encode x.jobSpecHash ++
    (borshString x.jobSpecUri ++ (Codec.bytes 32).encode x.moderator))

def HireFromListingInstructionData.encode (x : HireFromListingInstructionData) : List UInt8 :=
  x.toRevision4HireFromListingInstructionData.encode ++
    (Codec.bytes 32).encode x.taskJobSpecHash

def HireFromListingHumanlessInstructionData.encode
    (x : HireFromListingHumanlessInstructionData) : List UInt8 :=
  x.toRevision4HireFromListingHumanlessInstructionData.encode ++
    (Codec.bytes 32).encode x.taskJobSpecHash

/-- Borsh has no string whose length does not fit its prefix. -/
def SetTaskJobSpecInstructionData.Fits (x : SetTaskJobSpecInstructionData) : Prop :=
  (Utf8.encode x.jobSpecUri).length < 2 ^ 32

/-- The data of an instruction, under its layout. -/
inductive WriteData where
  | revision4Hire (data : Revision4HireFromListingInstructionData)
  | revision4Humanless (data : Revision4HireFromListingHumanlessInstructionData)
  | revision4SetTaskJobSpec (data : SetTaskJobSpecInstructionData)
  | hire (data : HireFromListingInstructionData)
  | humanless (data : HireFromListingHumanlessInstructionData)
  | setTaskJobSpec (data : SetTaskJobSpecInstructionData)

/-- The identity of a layout. -/
def WriteData.identity : WriteData → MarketplaceWriteInstructionIdentity
  | .revision4Hire _ => revision4HireFromListing
  | .revision4Humanless _ => revision4HireFromListingHumanless
  | .revision4SetTaskJobSpec _ => Sdk.revision4SetTaskJobSpec
  | .hire _ => revision5HireFromListing
  | .humanless _ => revision5HireFromListingHumanless
  | .setTaskJobSpec _ => revision5SetTaskJobSpec

def WriteData.discriminator : WriteData → Bytes 8
  | .revision4Hire x => x.discriminator
  | .revision4Humanless x => x.discriminator
  | .revision4SetTaskJobSpec x => x.discriminator
  | .hire x => x.discriminator
  | .humanless x => x.discriminator
  | .setTaskJobSpec x => x.discriminator

/-- The instruction data as the program's Borsh encoding. -/
def WriteData.encode : WriteData → List UInt8
  | .revision4Hire x => x.encode
  | .revision4Humanless x => x.encode
  | .revision4SetTaskJobSpec x => x.encode
  | .hire x => x.encode
  | .humanless x => x.encode
  | .setTaskJobSpec x => x.encode

def WriteData.Fits : WriteData → Prop
  | .revision4SetTaskJobSpec x => x.Fits
  | .setTaskJobSpec x => x.Fits
  | _ => True

/-- `DecodedMarketplaceWriteInstruction`. -/
structure DecodedMarketplaceWriteInstruction where
  identity : MarketplaceWriteInstructionIdentity
  data : WriteData

/-- A value of one of the six schemas. -/
structure DecodedMarketplaceWriteInstruction.IsValue (x : DecodedMarketplaceWriteInstruction) :
    Prop where
  identity : x.identity = x.data.identity
  discriminator : x.data.discriminator = x.identity.discriminator
  fits : x.data.Fits

/-! ## The dispatcher -/

def decodeExactly {α : Type} (decoder : Reader α) (data : List UInt8) (label : String) :
    Except TypeError α :=
  match decoder data 0 with
  | some (decoded, offset) =>
    let trailing := data.length - offset
    if offset ≠ data.length then
      .error ⟨word s!"{label} contains {trailing} trailing byte(s)"⟩
    else .ok decoded
  | none => .error ⟨word s!"Invalid {label} instruction data"⟩

def assertCanonicalOptionTag (data : List UInt8) (offset : ℕ) (label : String) :
    Except TypeError Unit :=
  if data[offset]? ≠ some 0 ∧ data[offset]? ≠ some 1 then
    .error ⟨word
      s!"Invalid {label} instruction data: option tag at byte {offset} must be 0 or 1"⟩
  else .ok ()

/-- The tag checks before the decoders run. -/
def assertCanonicalTags (identity : MarketplaceWriteInstructionIdentity) (data : List UInt8)
    (label : String) : Except TypeError Unit :=
  match identity.instruction with
  | .hireFromListing => assertCanonicalOptionTag data 56 label
  | .hireFromListingHumanless => assertCanonicalOptionTag data 64 label
  | .setTaskJobSpec => .ok ()

/-- The decoder of an identity's layout. -/
def decodeData (k : Kit) (identity : MarketplaceWriteInstructionIdentity) (data : List UInt8)
    (label : String) : Except TypeError WriteData :=
  match identity.wireVersion, identity.instruction with
  | .legacyV1, .hireFromListing =>
    (decodeExactly (revision4HireFromListingDecoder k) data label).map .revision4Hire
  | .legacyV1, .hireFromListingHumanless =>
    (decodeExactly (revision4HireFromListingHumanlessDecoder k) data label).map
      .revision4Humanless
  | .legacyV1, .setTaskJobSpec =>
    (decodeExactly (setTaskJobSpecDecoder k) data label).map .revision4SetTaskJobSpec
  | .commitmentV2, .hireFromListing =>
    (decodeExactly (hireFromListingDecoder k) data label).map .hire
  | .commitmentV2, .hireFromListingHumanless =>
    (decodeExactly (hireFromListingHumanlessDecoder k) data label).map .humanless
  | .commitmentV2, .setTaskJobSpec =>
    (decodeExactly (setTaskJobSpecDecoder k) data label).map .setTaskJobSpec

/-- `decodeMarketplaceWriteInstruction`; `none` for `null`. -/
def decodeMarketplaceWriteInstruction (k : Kit) (data : List UInt8) :
    Except TypeError (Option DecodedMarketplaceWriteInstruction) :=
  match identifyMarketplaceWriteInstruction data with
  | none => .ok none
  | some identity => do
    let label := identity.instruction.text ++ " " ++ identity.wireVersion.text
    assertCanonicalTags identity data label
    let decoded ← decodeData k identity data label
    .ok (some ⟨identity, decoded⟩)

end AgencCoordination.Sdk
