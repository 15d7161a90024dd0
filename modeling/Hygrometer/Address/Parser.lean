import Hygrometer.Text.Basic

/-!
# Internet addresses

IPv4 and IPv6 addresses, an address with a port, which a server listens on, and how addresses are
read.

IPv4: four decimal octets between points, none with a leading zero. IPv6: groups of one to four
hexadecimal digits between colons. `::` may stand once for one or more zero groups, and the last two
groups may be written as an IPv4 address. Brackets, scopes, ports and surrounding blanks are
refused.

A reader takes the front of a text and returns what is left of it. It never goes back: an octet or a
group is the longest run of digits that is there, and it is refused whole if that is too long.

## Main definitions

* `IpAddress` – an address, and `Endpoint` – an address with a port.
* `IpAddress.parse?` – the address that a whole text denotes.
-/

namespace Hygrometer

/-- An internet address. -/
inductive IpAddress where
  /-- Four octets. -/
  | v4 (octets : Vector UInt8 4)
  /-- Eight groups of sixteen bits. -/
  | v6 (groups : Vector UInt16 8)
deriving DecidableEq

/-- An address and a port of it. -/
structure Endpoint where
  /-- The address. -/
  address : IpAddress
  /-- The port. -/
  port : UInt16
deriving DecidableEq

end Hygrometer

namespace Hygrometer.IpAddress

/-! ### Reading -/

open Text (digitValue? natOfDigits?)

/-- Read a number of one to `most` digits, the longest run that is there. A run that is longer is
refused whole. -/
def readDigits? (base most : Nat) (cs : List Char) : Option (Nat × List Char) :=
  let digits := cs.takeWhile fun c ↦ (digitValue? base c).isSome
  if digits.length ≤ most then
    (natOfDigits? base digits).map (·, cs.drop digits.length)
  else
    none

/-- Read a decimal octet: at most three digits, at most 255, and no leading zero. -/
def readOctet? (cs : List Char) : Option (UInt8 × List Char) := do
  let (n, rest) ← readDigits? 10 3 cs
  guard (n ≤ 255)
  guard (cs.head? ≠ some '0' ∨ cs.length = rest.length + 1)
  pure (.ofNat n, rest)

/-- Read one given character. -/
def readChar? (c : Char) : List Char → Option (List Char)
  | d :: rest => if d = c then some rest else none
  | [] => none

/-- Read four octets between points. -/
def readFour? (cs : List Char) : Option (Vector UInt8 4 × List Char) := do
  let (a, cs) ← readOctet? cs
  let (b, cs) ← readOctet? (← readChar? '.' cs)
  let (c, cs) ← readOctet? (← readChar? '.' cs)
  let (d, cs) ← readOctet? (← readChar? '.' cs)
  pure (#v[a, b, c, d], cs)

/-- The two groups that four octets fill. -/
def groupPair (octets : Vector UInt8 4) : List UInt16 :=
  let group (hi lo : UInt8) : UInt16 := .ofNat (hi.toNat * 256 + lo.toNat)
  [group octets[0] octets[1], group octets[2] octets[3]]

/-- Skip the colon that stands before every group but the first. -/
def skipColon? (first : Bool) (cs : List Char) : Option (List Char) :=
  if first then some cs else readChar? ':' cs

/-- Read up to `limit` groups. Returns the groups, whether they end in an embedded IPv4 address, and
the text left. An IPv4 address takes the place of two groups and ends the run. -/
def readGroups : Nat → Bool → List Char → List UInt16 × Bool × List Char
  | 0, _, cs => ([], false, cs)
  | limit + 1, first, cs =>
    let four := do
      guard (1 ≤ limit)
      readFour? (← skipColon? first cs)
    match four with
    | some (octets, rest) => (groupPair octets, true, rest)
    | none =>
      match (skipColon? first cs).bind (readDigits? 16 4) with
      | some (g, rest) =>
        let (groups, embedded, rest) := readGroups limit false rest
        (.ofNat g :: groups, embedded, rest)
      | none => ([], false, cs)

/-- Eight groups from those before and after a `::`, or from a full run and nothing after it. -/
def joinGroups? (front back : List UInt16) : Option (Vector UInt16 8) :=
  let groups := front ++ List.replicate (8 - front.length - back.length) 0 ++ back
  if h : groups.length = 8 then some ⟨groups.toArray, by simpa using h⟩ else none

/-- Read eight groups, or fewer around a `::`. The `::` stands for at least one group, and no
embedded IPv4 address may come before it. -/
def readEight? (cs : List Char) : Option (Vector UInt16 8 × List Char) := do
  let (front, embedded, rest) := readGroups 8 true cs
  if front.length = 8 then
    (joinGroups? front []).map (·, rest)
  else
    guard (!embedded)
    let rest ← readChar? ':' (← readChar? ':' rest)
    let (back, _, rest) := readGroups (7 - front.length) true rest
    (joinGroups? front back).map (·, rest)

/-- The address that a whole text denotes. -/
def parse? (s : String) : Option IpAddress :=
  let read :=
    match readFour? s.toList with
    | some (octets, rest) => some (v4 octets, rest)
    | none => (readEight? s.toList).map fun (groups, rest) ↦ (v6 groups, rest)
  match read with
  | some (address, []) => some address
  | _ => none

end Hygrometer.IpAddress
