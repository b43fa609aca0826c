import AgencCoordination.Foundations.Guard
import AgencCoordination.Foundations.HexText
import AgencCoordination.Foundations.SealedBox
import AgencCoordination.Sdk.Webhooks

/-!
# The cryptography of encrypted deliverables

A deliverable is encrypted under a symmetric key, and that key may be wrapped to an X25519 public
key. WebCrypto is a parameter with what is relied on; what it draws at random, and the bodies its
cipher answers with, are the coins of a call.

* **`aesGcmEncrypt`**, **`aesGcmDecrypt`** — a blob is the nonce and the body.
* **`wrapKeyToPubkey`**, **`unwrapKeyWithPrivateKey`** — a key under an agreed key.
-/

namespace AgencCoordination.Sdk

open Foundations
open Foundations.JsonValue (word)

/-- `AES_GCM_IV_BYTES`. -/
def aesGcmIvBytes : ℕ := 12

/-- `AES_KEY_BYTES`. -/
def aesKeyBytes : ℕ := 32

/-- `X25519_PUBKEY_BYTES`. -/
def x25519PubkeyBytes : ℕ := 32

/-- WebCrypto: SHA-256, AES-256-GCM as an ideal cipher, X25519 and HKDF-SHA256. Two sides agree on
the same bits. -/
structure WebCrypto where
  sha256 : List UInt8 → List UInt8
  sha256_length : ∀ bytes, (sha256 bytes).length = 32
  cipher : IdealCipher
  publicKey : List UInt8 → List UInt8
  publicKey_length : ∀ key, (publicKey key).length = x25519PubkeyBytes
  deriveBits : (privateKey publicKey : List UInt8) → Option (List UInt8)
  deriveBits_comm : ∀ a b, deriveBits a (publicKey b) = deriveBits b (publicKey a)
  hkdf : (secret salt : List UInt8) → List UInt8
  hkdf_length : ∀ secret salt, (hkdf secret salt).length = aesKeyBytes

/-- What is drawn in one call: a symmetric key, the private key of an ephemeral pair, and nonces and
bodies of the two encryptions. -/
structure Coins where
  symKey : List UInt8
  symKey_length : symKey.length = aesKeyBytes
  ephemeral : List UInt8
  wrapIv : List UInt8
  wrapIv_length : wrapIv.length = aesGcmIvBytes
  wrapBody : List UInt8
  iv : List UInt8
  iv_length : iv.length = aesGcmIvBytes
  body : List UInt8

/-- A `TypeError`, an `OperationError` of WebCrypto, or the error of the last check. -/
inductive DeliveryError where
  | typeError (message : Utf16)
  | operationError
  | integrity (message : Utf16)
deriving DecidableEq

/-- A natural number in a message. -/
def lengthText (n : ℕ) : Utf16 := if n = 0 then [0x30] else Number.decimal n

/-- `importAesKey`. -/
def importAesKey (raw : List UInt8) : Except DeliveryError Unit :=
  require (raw.length = aesKeyBytes)
    (.typeError (word "delivery: symmetric key must be 32 bytes, got " ++ lengthText raw.length))

/-- `aesGcmEncrypt`: the blob, and the encryption made; no additional data is empty data. -/
def aesGcmEncrypt (iv body plaintext symKey : List UInt8) (additionalData : Option (List UInt8)) :
    Except DeliveryError (List UInt8 × Sealing) := do
  importAesKey symKey
  .ok (iv ++ body, ⟨symKey, iv, additionalData.getD [], plaintext, body⟩)

/-- `aesGcmDecrypt`. -/
def aesGcmDecrypt (crypto : WebCrypto) (blob symKey : List UInt8)
    (additionalData : Option (List UInt8)) : Except DeliveryError (List UInt8) := do
  require (aesGcmIvBytes ≤ blob.length)
    (.typeError (word "delivery: ciphertext shorter than the IV"))
  importAesKey symKey
  demand (crypto.cipher.decrypt symKey (blob.take aesGcmIvBytes) (additionalData.getD [])
    (blob.drop aesGcmIvBytes)) .operationError

/-- A wrapped key with the ephemeral public key, in hexadecimal. -/
structure WrappedKey where
  wrappedKey : Utf16
  ephemeralPublicKey : Utf16
deriving DecidableEq

/-- `wrapKeyToPubkey`, with the encryption made. -/
def wrapKeyToPubkey (crypto : WebCrypto) (coins : Coins) (symKey recipientPublicKey : List UInt8) :
    Except DeliveryError (WrappedKey × Sealing) := do
  require (recipientPublicKey.length = x25519PubkeyBytes)
    (.typeError (word "delivery: recipient public key must be 32 bytes, got " ++
      lengthText recipientPublicKey.length))
  let ephemeralPublicKey := crypto.publicKey coins.ephemeral
  let shared ← demand (crypto.deriveBits coins.ephemeral recipientPublicKey) .operationError
  let aesKey := crypto.hkdf shared (ephemeralPublicKey ++ recipientPublicKey)
  let wrapped ← aesGcmEncrypt coins.wrapIv coins.wrapBody symKey aesKey none
  .ok (⟨hexText wrapped.1, hexText ephemeralPublicKey⟩, wrapped.2)

/-- `unwrapKeyWithPrivateKey`. -/
def unwrapKeyWithPrivateKey (crypto : WebCrypto)
    (wrappedKey ephemeralPublicKey recipientPrivateKey recipientPublicKey : List UInt8) :
    Except DeliveryError (List UInt8) := do
  let shared ← demand (crypto.deriveBits recipientPrivateKey ephemeralPublicKey) .operationError
  let aesKey := crypto.hkdf shared (ephemeralPublicKey ++ recipientPublicKey)
  aesGcmDecrypt crypto wrappedKey aesKey none

/-! ## Hexadecimal -/

/-- `Number.parseInt` of two units in base sixteen, as a byte. -/
def parseByte (a b : UInt16) : Option UInt8 :=
  if isTrimmed a then (JsonValue.hexValue b).map UInt8.ofNat
  else if a = 0x2B then (JsonValue.hexValue b).map UInt8.ofNat
  else if a = 0x2D then (JsonValue.hexValue b).map fun d => 0 - UInt8.ofNat d
  else if a = 0x30 ∧ (b = 0x78 ∨ b = 0x58) then none
  else (JsonValue.hexValue a).map fun d =>
    match JsonValue.hexValue b with
    | some e => UInt8.ofNat (d * 16 + e)
    | none => UInt8.ofNat d

/-- The bytes of pairs of units, up to the first pair that is none. -/
def parsePairs : ℕ → Utf16 → Except DeliveryError (List UInt8)
  | _, [] => .ok []
  | index, [_] => .error (.typeError (word "hexToBytes: non-hex character at byte " ++
      lengthText index))
  | index, a :: b :: rest => do
    let byte ← demand (parseByte a b)
      (.typeError (word "hexToBytes: non-hex character at byte " ++ lengthText index))
    let bytes ← parsePairs (index + 1) rest
    .ok (byte :: bytes)

/-- `hexToBytes`. -/
def hexToBytes (hex : Utf16) : Except DeliveryError (List UInt8) := do
  let clean := if hex.take 2 = word "0x" ∨ hex.take 2 = word "0X" then hex.drop 2 else hex
  require (clean.length % 2 = 0)
    (.typeError (word "hexToBytes: odd-length hex string (" ++ lengthText clean.length ++
      word " chars)"))
  parsePairs 0 clean

end AgencCoordination.Sdk
