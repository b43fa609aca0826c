import AgencCoordination.Foundations.HexText
import AgencCoordination.Foundations.SafeInteger
import AgencCoordination.Foundations.Utf8

/-!
# Webhook signatures

The header of a delivery is `t=<unixMillis>,v1=<hex>,…`; the MAC is taken over the timestamp, a dot
and the body. The timestamp is read from the header as a number and written out again.

* **`parseSignatureHeader`** — the timestamp and the candidates of a header.
* **`verifyAgencWebhookSignature`** — whether a delivery is authentic and recent.
* **`LowerCase`** — what is relied on of `toLowerCase`.
-/

namespace AgencCoordination.Sdk

open Foundations

/-- A lower-case letter for an upper-case one, in ASCII. -/
def asciiLower (u : UInt16) : UInt16 := if 0x41 ≤ u.toNat ∧ u.toNat ≤ 0x5A then u + 0x20 else u

/-- `[0-9a-f]`. -/
def isHexLower (u : UInt16) : Bool :=
  Number.isDigit u || decide (0x61 ≤ u.toNat ∧ u.toNat ≤ 0x66)

/-- `toLowerCase`: ASCII letters one by one, and no text with a character outside ASCII becomes one
of hexadecimal digits. -/
structure LowerCase where
  toLowerCase : Utf16 → Utf16
  ascii : ∀ text, (∀ u ∈ text, u.toNat < 0x80) → toLowerCase text = text.map asciiLower
  hex : ∀ text, (∀ u ∈ toLowerCase text, isHexLower u = true) → ∀ u ∈ text, u.toNat < 0x80

/-- The white space and line terminators that `trim` removes. -/
def isTrimmed (u : UInt16) : Bool :=
  decide (u.toNat ∈ [0x09, 0x0A, 0x0B, 0x0C, 0x0D, 0x20, 0xA0, 0x1680, 0x2028, 0x2029, 0x202F,
    0x205F, 0x3000, 0xFEFF] ∨ 0x2000 ≤ u.toNat ∧ u.toNat ≤ 0x200A)

/-- `trim`. -/
def trim (text : Utf16) : Utf16 :=
  ((text.dropWhile isTrimmed).reverse.dropWhile isTrimmed).reverse

/-- `MAX_WEBHOOK_TOLERANCE_MS`. -/
def maxWebhookToleranceMs : ℤ := 86400000

/-- `HEX_PAIR`. -/
def hexPair (text : Utf16) : Bool := text ≠ [] && text.all isHexLower

/-- `toHex`. -/
def toHex (bytes : List UInt8) : Utf16 := hexText bytes

def timingSafeEqualHex (a b : Utf16) : Bool :=
  if a.length ≠ b.length then false
  else (a.zip b).foldl (fun diff p => diff ||| (p.1 ^^^ p.2)) 0 == 0

/-! ## The header -/

/-- The key and the value of a part, without the blanks around them. -/
def entry? (part : Utf16) : Option (Utf16 × Utf16) :=
  (part.findIdx? (· == 0x3D)).map fun eq => (trim (part.take eq), trim (part.drop (eq + 1)))

def timestampKey : Utf16 := [0x74]

def signatureKey : Utf16 := [0x76, 0x31]

/-- What is collected from the parts of a header. -/
structure HeaderState where
  timestamp : Option Utf16
  signatures : List Utf16

section parse

variable (lower : LowerCase)

/-- One part of the header. -/
def parsePart (state : HeaderState) (part : Utf16) : Option HeaderState :=
  match entry? part with
  | none => none
  | some (key, value) =>
    if key = timestampKey then
      if state.timestamp.isSome then none
      else if value ≠ [] ∧ value.all Number.isDigit = true then
        some { state with timestamp := some value }
      else none
    else if key = signatureKey then
      if value.length = 0 ∨ value.length % 2 ≠ 0 then none
      else if hexPair (lower.toLowerCase value) then
        some { state with signatures := state.signatures ++ [lower.toLowerCase value] }
      else none
    else some state

/-- The parts of a header, one after another. -/
def parseParts (state : HeaderState) : List Utf16 → Option HeaderState
  | [] => some state
  | part :: rest => (parsePart lower state part).bind fun state => parseParts state rest

structure ParsedHeader where
  timestampMs : ℤ
  signatures : List Utf16

def parseSignatureHeader (header : Utf16) : Option ParsedHeader := do
  let state ← parseParts lower ⟨none, []⟩ (header.splitOn 0x2C)
  let timestamp ← state.timestamp
  if state.signatures = [] then none
  else
    let timestampMs ← Number.safeInteger? (Number.ofNat (Number.ofDecimal timestamp))
    some ⟨timestampMs, state.signatures⟩

end parse

/-! ## Verification -/

/-- A natural number in decimal. -/
def naturalText (n : ℕ) : List Char :=
  if n = 0 then ['0'] else (Nat.digits 10 n).reverse.map Nat.digitChar

/-- An integer in a template. -/
def integerText (z : ℤ) : List Char :=
  if z < 0 then '-' :: naturalText z.natAbs else naturalText z.natAbs

/-- The text that is signed. -/
def signedText (timestampMs : ℤ) (rawBody : List Char) : List Char :=
  integerText timestampMs ++ '.' :: rawBody

/-- A number value; `none` is NaN. -/
abbrev NumberValue := Option Number

def safe? (x : NumberValue) : Option ℤ := x.bind Number.safeInteger?

structure VerifyAgencWebhookSignatureInput where
  rawBody : List Char
  signatureHeader : Utf16
  secret : List Char
  toleranceMs : Option NumberValue
  now : NumberValue

/-- The bytes under a delivery's signature. -/
def signedBytes (timestampMs : ℤ) (rawBody : List Char) : List UInt8 :=
  Utf8.encode (signedText timestampMs rawBody)

/-- `verifyAgencWebhookSignature`, with the MAC of a secret and a message. -/
def verifyAgencWebhookSignature (lower : LowerCase)
    (mac : List UInt8 → List UInt8 → List UInt8) (input : VerifyAgencWebhookSignatureInput) :
    Bool :=
  match safe? (input.toleranceMs.getD (some (Number.ofNat 300000))) with
  | none => false
  | some toleranceMs =>
    if toleranceMs < 0 ∨ toleranceMs > maxWebhookToleranceMs then false
    else
      match parseSignatureHeader lower input.signatureHeader with
      | none => false
      | some parsed =>
        match safe? input.now with
        | none => false
        | some nowMs =>
          if nowMs < 0 then false
          else if |nowMs - parsed.timestampMs| > toleranceMs then false
          else
            let expected := toHex (mac (Utf8.encode input.secret)
              (signedBytes parsed.timestampMs input.rawBody))
            parsed.signatures.foldl
              (fun anyMatch candidate =>
                if timingSafeEqualHex candidate expected then true else anyMatch) false

end AgencCoordination.Sdk
