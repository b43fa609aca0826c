import AgencCoordination.Foundations.SafeInteger
import AgencCoordination.Sdk.CanonicalJson
import AgencCoordination.Sdk.DeliveryCrypto
import AgencCoordination.Sdk.ListingMetadata

/-!
# Delivery manifests

A deliverable is published as a ciphertext and a manifest that carries no key: in the symmetric mode
the key is handed over elsewhere, in the other it is wrapped to the recipient. From version 2 on the
canonical JSON of the whole manifest is authenticated with the ciphertext.

* **`encryptDeliverableVersion`** — the ciphertext and the manifest of a version.
* **`decryptDeliverable`** — the plaintext, from a manifest as it was read.
-/

namespace AgencCoordination.Sdk

open Foundations
open Foundations.JsonValue (word)

inductive DeliveryKeyWrap where
  | symmetric (gateRef : Option Utf16)
  | x25519 (wrappedKey ephemeralPublicKey recipientPublicKey : Utf16)
deriving DecidableEq

inductive DeliveryVersion where
  | one
  | two
deriving DecidableEq

/-- `DeliveryManifest`; its `encAlgo` is always the same. -/
structure DeliveryManifest where
  v : DeliveryVersion
  taskPda : Utf16
  ciphertextUri : Utf16
  previewUri : Option Utf16
  plaintextHash : Utf16
  keyWrap : DeliveryKeyWrap
deriving DecidableEq

/-- `DELIVERY_ENC_ALGO`. -/
def deliveryEncAlgo : Utf16 := word "AES-256-GCM"

/-- `DELIVERY_KEY_AGREEMENT`. -/
def deliveryKeyAgreement : Utf16 := word "X25519"

/-- A member that is there only with a value. -/
def optionalMember (key : String) : Option Utf16 → List (Utf16 × JsonValue)
  | none => []
  | some s => [(word key, .string s)]

def DeliveryKeyWrap.toJson : DeliveryKeyWrap → JsonValue
  | .symmetric gateRef =>
    .object ((word "mode", .string (word "symmetric")) :: optionalMember "gateRef" gateRef)
  | .x25519 wrappedKey ephemeralPublicKey recipientPublicKey =>
    .object [(word "mode", .string (word "x25519")),
      (word "agreement", .string deliveryKeyAgreement),
      (word "wrappedKey", .string wrappedKey),
      (word "ephemeralPublicKey", .string ephemeralPublicKey),
      (word "recipientPublicKey", .string recipientPublicKey)]

/-- The number of a version. -/
def DeliveryVersion.toNumber : DeliveryVersion → Number
  | .one => .ofNat 1
  | .two => .ofNat 2

/-- A manifest as the object it is. -/
def DeliveryManifest.toJson (m : DeliveryManifest) : JsonValue :=
  .object ([(word "v", .number m.v.toNumber), (word "taskPda", .string m.taskPda),
      (word "ciphertextUri", .string m.ciphertextUri)] ++ optionalMember "previewUri" m.previewUri ++
    [(word "encAlgo", .string deliveryEncAlgo), (word "plaintextHash", .string m.plaintextHash),
      (word "keyWrap", m.keyWrap.toJson)])

/-- `deliveryManifestV2Aad`. -/
def deliveryManifestV2Aad (manifest : JsonValue) : Except DeliveryError (List UInt8) := do
  let text ← (canonicalJobSpecJson manifest).mapError fun e => .typeError e.message
  .ok (utf8Encoder text)

/-- `sha256Hex`. -/
def sha256Hex (crypto : WebCrypto) (bytes : List UInt8) : Utf16 := hexText (crypto.sha256 bytes)

/-- The additional data of a version. -/
def additionalData (v : DeliveryVersion) (manifest : JsonValue) :
    Except DeliveryError (Option (List UInt8)) :=
  match v with
  | .one => .ok none
  | .two => (deliveryManifestV2Aad manifest).map some

/-! ## Encryption -/

/-- Bytes or a string. -/
inductive Plaintext where
  | bytes (bytes : List UInt8)
  | text (text : Utf16)

/-- The bytes of a plaintext. -/
def Plaintext.toBytes : Plaintext → List UInt8
  | .bytes b => b
  | .text t => utf8Encoder t

/-- `DeliveryRecipient`. -/
inductive DeliveryRecipient where
  | symKey (symKey : List UInt8)
  | recipientPublicKey (recipientPublicKey : List UInt8)

/-- What is stamped into a manifest. -/
structure DeliveryMeta where
  taskPda : Utf16
  ciphertextUri : Utf16
  previewUri : Option Utf16
  gateRef : Option Utf16

/-- `EncryptDeliverableResult`, with the encryptions made. -/
structure EncryptDeliverableResult where
  ciphertext : List UInt8
  symKey : List UInt8
  manifest : DeliveryManifest
  sealings : List Sealing

/-- The symmetric key, its descriptor, and the encryptions made for it. -/
def wrapFor (crypto : WebCrypto) (coins : Coins) (gateRef : Option Utf16) :
    DeliveryRecipient → Except DeliveryError (List UInt8 × DeliveryKeyWrap × List Sealing)
  | .symKey symKey => .ok (symKey, .symmetric gateRef, [])
  | .recipientPublicKey recipientPublicKey => do
    let wrapped ← wrapKeyToPubkey crypto coins coins.symKey recipientPublicKey
    .ok (coins.symKey, .x25519 wrapped.1.wrappedKey wrapped.1.ephemeralPublicKey
      (hexText recipientPublicKey), [wrapped.2])

/-- `encryptDeliverableVersion`. -/
def encryptDeliverableVersion (crypto : WebCrypto) (coins : Coins) (version : DeliveryVersion)
    (plaintext : Plaintext) (recipient : DeliveryRecipient) (metadata : DeliveryMeta) :
    Except DeliveryError EncryptDeliverableResult := do
  let plaintextHash := sha256Hex crypto plaintext.toBytes
  let wrap ← wrapFor crypto coins metadata.gateRef recipient
  let manifest : DeliveryManifest :=
    ⟨version, metadata.taskPda, metadata.ciphertextUri, metadata.previewUri, plaintextHash, wrap.2.1⟩
  let additional ← additionalData version manifest.toJson
  let blob ← aesGcmEncrypt coins.iv coins.body plaintext.toBytes wrap.1 additional
  .ok ⟨blob.1, wrap.1, manifest, wrap.2.2 ++ [blob.2]⟩

/-! ## Decryption -/

/-- `DeliveryDecryptKey`. -/
inductive DeliveryDecryptKey where
  | symKey (symKey : List UInt8)
  | recipient (recipientPrivateKey recipientPublicKey : List UInt8)

/-- The members of an object. -/
def membersOf : JsonValue → Option (List (Utf16 × JsonValue))
  | .object members => some members
  | _ => none

/-- The string under a key. -/
def stringAt (members : List (Utf16 × JsonValue)) (key : String) : Option Utf16 :=
  match members.lookup (word key) with
  | some (.string s) => some s
  | _ => none

/-- The version that a manifest says. -/
def versionOf (members : List (Utf16 × JsonValue)) : Option DeliveryVersion :=
  match members.lookup (word "v") with
  | some (.number x) =>
    if x.safeInteger? = some 1 then some .one
    else if x.safeInteger? = some 2 then some .two
    else none
  | _ => none

/-- `/^[0-9a-f]{64}$/`. -/
def isPlaintextHash (text : Utf16) : Bool := text.length = 64 && text.all isHexLower

def invalidManifest : DeliveryError :=
  .typeError (word "decryptDeliverable: invalid or unsupported manifest")

/-- The symmetric key, given or unwrapped. -/
def symKeyFor (crypto : WebCrypto) (members : List (Utf16 × JsonValue)) :
    DeliveryDecryptKey → Except DeliveryError (List UInt8)
  | .symKey symKey => .ok symKey
  | .recipient recipientPrivateKey recipientPublicKey => do
    let wrap ← demand ((members.lookup (word "keyWrap")).bind membersOf) invalidManifest
    require (stringAt wrap "mode" = some (word "x25519"))
      (.typeError (word ("decryptDeliverable: recipient-key path requires a manifest with an " ++
        "x25519 keyWrap")))
    let wrappedKey ← demand (stringAt wrap "wrappedKey") invalidManifest
    let wrappedKey ← hexToBytes wrappedKey
    let ephemeralPublicKey ← demand (stringAt wrap "ephemeralPublicKey") invalidManifest
    let ephemeralPublicKey ← hexToBytes ephemeralPublicKey
    unwrapKeyWithPrivateKey crypto wrappedKey ephemeralPublicKey recipientPrivateKey
      recipientPublicKey

/-- `decryptDeliverable`. A hash that is no string is never that of a plaintext. -/
def decryptDeliverable (crypto : WebCrypto) (ciphertext : List UInt8) (key : DeliveryDecryptKey)
    (manifest : Option JsonValue) : Except DeliveryError (List UInt8) := do
  let manifest ← demand manifest
    (.typeError (word ("decryptDeliverable: a v1/v2 manifest is required for mandatory plaintext " ++
      "integrity verification")))
  let members ← demand (membersOf manifest) invalidManifest
  let version ← demand (versionOf members) invalidManifest
  require (stringAt members "encAlgo" = some deliveryEncAlgo) invalidManifest
  let plaintextHash ← demand ((stringAt members "plaintextHash").filter isPlaintextHash)
    invalidManifest
  let symKey ← symKeyFor crypto members key
  let additional ← additionalData version manifest
  let plaintext ← aesGcmDecrypt crypto ciphertext symKey additional
  require (sha256Hex crypto plaintext = plaintextHash)
    (.integrity (word
      "decryptDeliverable: plaintext integrity check failed (plaintextHash mismatch)"))
  .ok plaintext

end AgencCoordination.Sdk
