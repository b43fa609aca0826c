import AgencCoordination.Foundations.Guard
import AgencCoordination.Foundations.Utf16
import AgencCoordination.Foundations.Utf8
import Mathlib.Data.FinEnum
import Mathlib.Data.List.SplitOn

/-!
# Listing metadata

The codecs of the SDK for the fixed-width text fields of a service listing: `name`, `category` and
`tags`. A JavaScript string is its UTF-16 code units; `TextEncoder` replaces lone surrogates, and
a fatal `TextDecoder` refuses what is no UTF-8 and drops a leading byte-order mark.
-/

namespace AgencCoordination.Sdk

open Foundations

/-! ## Text and bytes -/

/-- U+FEFF. -/
def byteOrderMark : Char := Char.ofNat 0xFEFF

/-- `TextEncoder.encode`. -/
def utf8Encoder (value : Utf16) : List UInt8 := Utf8.encode (Utf16.toText value)

/-- What a decoder makes of a text: a byte-order mark in front is not part of it. -/
def dropByteOrderMark : List Char → List Char
  | [] => []
  | c :: text => if c = byteOrderMark then text else c :: text

/-- `TextDecoder.decode` with `fatal`, and without `ignoreBOM`. -/
def utf8Decoder (bytes : List UInt8) : Option Utf16 :=
  (Utf8.decode bytes).map fun text => Utf16.ofText (dropByteOrderMark text)

/-! ## Fixed-width fields -/

/-- `LISTING_NAME_BYTES`. -/
def listingNameBytes : ℕ := 32

/-- `LISTING_CATEGORY_BYTES`. -/
def listingCategoryBytes : ℕ := 32

/-- `LISTING_TAGS_BYTES`. -/
def listingTagsBytes : ℕ := 64

/-- The errors of the codecs, with what their messages name. -/
inductive CodecError where
  | embeddedNul (field : String)
  | tooLong (field : String) (length size : ℕ)
  | wrongLength (field : String) (size length : ℕ)
  | nonCanonicalPadding (field : String) (terminator : ℕ)
  | malformedUtf8
  | notLowercaseKebab (field : String) (value : Utf16)
  deriving DecidableEq

/-- `encodeFixedUtf8`. -/
def encodeFixedUtf8 (value : Utf16) (size : ℕ) (field : String) :
    Except CodecError (List UInt8) := do
  require (0 ∉ value) (CodecError.embeddedNul field)
  let bytes := utf8Encoder value
  require (bytes.length ≤ size) (CodecError.tooLong field bytes.length size)
  .ok (bytes ++ List.replicate (size - bytes.length) 0)

/-- `decodeFixedUtf8`: the value ends at the first zero byte, and only zero bytes follow. -/
def decodeFixedUtf8 (bytes : List UInt8) (size : ℕ) (field : String) :
    Except CodecError Utf16 := do
  require (bytes.length = size) (CodecError.wrongLength field size bytes.length)
  let terminator := bytes.idxOf 0
  require (∀ b ∈ bytes.drop terminator, b = 0) (CodecError.nonCanonicalPadding field terminator)
  demand (utf8Decoder (bytes.take terminator)) CodecError.malformedUtf8

/-! ## The codecs -/

/-- `encodeListingName`. -/
def encodeListingName (name : Utf16) : Except CodecError (List UInt8) :=
  encodeFixedUtf8 name listingNameBytes "listing name"

/-- `decodeListingName`. -/
def decodeListingName (bytes : List UInt8) : Except CodecError Utf16 :=
  decodeFixedUtf8 bytes listingNameBytes "listing name"

def hyphen : UInt16 := 0x2D

def comma : UInt16 := 0x2C

/-- `[a-z0-9]`. -/
def isKebabUnit (u : UInt16) : Bool :=
  decide (0x61 ≤ u.toNat ∧ u.toNat ≤ 0x7A) || decide (0x30 ≤ u.toNat ∧ u.toNat ≤ 0x39)

/-- `LISTING_KEBAB_PATTERN.test`: runs of the class, one at least, with single hyphens between
them. -/
def listingKebabPattern (value : Utf16) : Bool :=
  (value.splitOn hyphen).all fun run => !run.isEmpty && run.all isKebabUnit

/-- `encodeListingCategory`. -/
def encodeListingCategory (category : Utf16) : Except CodecError (List UInt8) := do
  require (listingKebabPattern category = true)
    (CodecError.notLowercaseKebab "listing category" category)
  encodeFixedUtf8 category listingCategoryBytes "listing category"

/-- `decodeListingCategory`: an unset category is the empty string. -/
def decodeListingCategory (bytes : List UInt8) : Except CodecError Utf16 := do
  let category ← decodeFixedUtf8 bytes listingCategoryBytes "listing category"
  require (category = [] ∨ listingKebabPattern category = true)
    (CodecError.notLowercaseKebab "listing category" category)
  .ok category

/-- The check of every tag, in order. -/
def validateTags : List Utf16 → Except CodecError Unit
  | [] => .ok ()
  | tag :: tags => do
      require (listingKebabPattern tag = true) (CodecError.notLowercaseKebab "listing tags" tag)
      validateTags tags

/-- `encodeListingTags`. -/
def encodeListingTags (tags : List Utf16) : Except CodecError (List UInt8) := do
  validateTags tags
  encodeFixedUtf8 ([comma].intercalate tags) listingTagsBytes "listing tags"

/-- `decodeListingTags`. -/
def decodeListingTags (bytes : List UInt8) : Except CodecError (List Utf16) := do
  let joined ← decodeFixedUtf8 bytes listingTagsBytes "listing tags"
  if joined = [] then .ok []
  else do
    validateTags (joined.splitOn comma)
    .ok (joined.splitOn comma)

end AgencCoordination.Sdk
