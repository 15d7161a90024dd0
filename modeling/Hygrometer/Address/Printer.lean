import Hygrometer.Address.Parser
import Hygrometer.Text.Basic

/-!
# Writing internet addresses

IPv6 groups are written in small hexadecimal letters without leading zeros. The first of the longest
runs of at least two zero groups becomes `::`, and an address that stands for an IPv4 address ends
in it.

An address is written so that it is read again as what it was, and in no other way than this one, so
two addresses can be compared by their texts. An endpoint is written as the program tells where it
listens: the address and the port, with brackets around an address that has colons of its own.

## Main definitions

* `IpAddress.text` – the text of an address.
* `Endpoint.text` – the text of an endpoint.
-/

namespace Hygrometer.IpAddress

open Text (numeral hexNumeral)

/-- Four octets between points. -/
def fourText (octets : List Nat) : String :=
  ".".intercalate (octets.map numeral)

/-- Groups between colons. -/
def groupsText (groups : List UInt16) : String :=
  ":".intercalate (groups.map fun g ↦ hexNumeral g.toNat)

/-- How many zero groups the list starts with. -/
def zeroRun (groups : List UInt16) : Nat := (groups.takeWhile (· == 0)).length

/-- The place and length of the first of the longest runs of zero groups. -/
def longestZeroRun : List UInt16 → Nat × Nat
  | [] => (0, 0)
  | g :: groups =>
    let here := zeroRun (g :: groups)
    let (place, length) := longestZeroRun groups
    if length ≤ here then (0, here) else (place + 1, length)

/-- The text of eight groups. -/
def eightText (groups : List UInt16) : String :=
  match groups with
  | [0, 0, 0, 0, 0, 0xffff, hi, lo] =>
    "::ffff:" ++
      fourText [hi.toNat / 256, hi.toNat % 256, lo.toNat / 256, lo.toNat % 256]
  | _ =>
    let (place, length) := longestZeroRun groups
    if 1 < length then
      groupsText (groups.take place) ++ "::" ++ groupsText (groups.drop (place + length))
    else
      groupsText groups

/-- The text of an address. -/
def text : IpAddress → String
  | v4 octets => fourText (octets.toList.map UInt8.toNat)
  | v6 groups => eightText groups.toList

end Hygrometer.IpAddress

namespace Hygrometer

/-- The text of an endpoint: an IPv6 address stands in brackets, and a colon precedes the port. -/
def Endpoint.text (e : Endpoint) : String :=
  let address :=
    match e.address with
    | .v4 _ => e.address.text
    | .v6 _ => "[" ++ e.address.text ++ "]"
  address ++ ":" ++ Text.numeral e.port.toNat

end Hygrometer
