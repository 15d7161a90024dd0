import Hygrometer.Decimal
import Hygrometer.Text.Quoted
import Hygrometer.Yaml.Event

/-!
# What scalars stand for

A plain scalar may stand for nothing, a truth value, a whole number or another number, by how it is
written; every other scalar is a text. A tag may ask for one of these.

Whole numbers are decimal, or in base sixteen, eight or two behind `0x`, `0o` or `0b`. Digits with a
leading zero are a text, so that codes keep their zeros.

**Two uses.** Whoever expects a number asks for it by `natural?` or `real?`, and nothing else is
tried on the scalar. Only when it is refused, the message tells what the scalar stands for instead
(`Found.ofPlain`), and then all of these are tried in turn, in a fixed order. So a scalar may be
read as a number although the message about it would speak of an integer, and a text may be read
from a scalar that looks like a truth value.

**In messages** numbers are written in full and without an exponent, and a whole number that has
more than 64 bits is named by its width (`wideMark`).
-/

namespace Hygrometer.Yaml

open Text (isDigit natOfDigits? numeral quoted)

/-! ### Whole numbers -/

/-- Whether a text is digits with a leading zero, behind an optional sign. -/
def isPaddedDigits (cs : List Char) : Bool :=
  match (Decimal.takeSign cs).2 with
  | '0' :: c :: rest => (c :: rest).all isDigit
  | _ => false

/-- The base that a text announces, and its digits: two characters announce a base, none the
decimal one. -/
def takeBase : List Char → Nat × List Char
  | '0' :: 'x' :: digits => (16, digits)
  | '0' :: 'o' :: digits => (8, digits)
  | '0' :: 'b' :: digits => (2, digits)
  | digits => (10, digits)

/-- The whole number that a text without a sign stands for. -/
def unsigned? (cs : List Char) : Option Nat :=
  let (base, digits) := takeBase cs
  natOfDigits? base digits

/-- The whole number, zero or more, that a text stands for; a plus sign may come first. -/
def natural? (cs : List Char) : Option Nat :=
  if isPaddedDigits cs then none
  else
    match cs with
    | '+' :: cs => unsigned? cs
    | cs => unsigned? cs

/-- The size of the whole number that a text with a minus sign stands for. -/
def negative? (cs : List Char) : Option Nat :=
  if isPaddedDigits cs then none
  else
    match cs with
    | '-' :: cs => unsigned? cs
    | _ => none

/-- The whole number that a text stands for, of at most 128 bits, a sign bit included for negative
ones. -/
def integer? (cs : List Char) : Option Int :=
  match natural? cs with
  | some n => if n < Nat.pow 2 128 then some n else none
  | none =>
    match negative? cs with
    | some n => if n ≤ Nat.pow 2 127 then some (-n) else none
    | none => none

/-! ### Other values -/

/-- Whether a text stands for nothing. The empty one is not looked at here. -/
def isNull (cs : List Char) : Bool :=
  [['n', 'u', 'l', 'l'], ['N', 'u', 'l', 'l'], ['N', 'U', 'L', 'L'], ['~']].contains cs

/-- The truth value that a text stands for. -/
def boolean? (cs : List Char) : Option Bool :=
  if ["true", "True", "TRUE"].contains (String.ofList cs) then some true
  else if ["false", "False", "FALSE"].contains (String.ofList cs) then some false
  else none

/-- The number that a text stands for: a decimal, unless it is too large, or the word for an
infinity or for not-a-number. A single plus sign may come first. -/
def real? (cs : List Char) : Option Binary64 :=
  let body :=
    match cs with
    | '+' :: rest => rest
    | cs => cs
  let signTwice := cs.head? = some '+' ∧ (body.head? = some '+' ∨ body.head? = some '-')
  if signTwice then none
  else if [".inf", ".Inf", ".INF"].contains (String.ofList body) then some (.infinite false)
  else if ["-.inf", "-.Inf", "-.INF"].contains (String.ofList cs) then some (.infinite true)
  else if [".nan", ".NaN", ".NAN"].contains (String.ofList cs) then some .nan
  else do
    let (negative, d) ← Decimal.read? body
    let x := Binary64.ofDecimal negative d
    guard x.isFinite
    pure x

/-- What a node stands for, where something else was expected. -/
inductive Found where
  /-- Nothing. -/
  | unit
  /-- A truth value. -/
  | boolean (b : Bool)
  /-- A whole number. -/
  | integer (n : Int)
  /-- Another number. -/
  | real (x : Binary64)
  /-- A text. -/
  | text (s : String)
  /-- A sequence. -/
  | sequence
  /-- A mapping. -/
  | map
deriving DecidableEq

/-- Numbers in messages never have an exponent. -/
def messageLayout : DecimalLayout := ⟨none, .up⟩

/-- A number in a message. -/
def realText : Binary64 → String
  | .finite negative m => messageLayout.write negative m
  | .infinite false => "inf"
  | .infinite true => "-inf"
  | .nan => "NaN"

/-- The words behind a whole number that has more than 64 bits. -/
def wideMark (n : Int) : String :=
  if UInt64.size ≤ n then " as u128"
  else if n < -0x8000000000000000 then " as i128"
  else ""

/-- What was found, in words. -/
def Found.describe : Found → String
  | .unit => "unit value"
  | .boolean b => "boolean `" ++ (if b then "true" else "false") ++ "`"
  | .integer n =>
    "integer `" ++ (if n < 0 then "-" else "") ++ numeral n.natAbs ++ "`" ++ wideMark n
  | .real x => "floating point `" ++ realText x ++ "`"
  | .text s => "string " ++ quoted s
  | .sequence => "sequence"
  | .map => "map"

/-- What a plain scalar stands for, by how it is written. -/
def Found.ofPlain (s : String) : Found :=
  let cs := s.toList
  if cs = [] ∨ isNull cs then .unit
  else
    match boolean? cs with
    | some b => .boolean b
    | none =>
      match integer? cs with
      | some n => .integer n
      | none =>
        if isPaddedDigits cs then .text s
        else
          match real? cs with
          | some x => .real x
          | none => .text s

/-! ### Tags -/

/-- The tags that ask for a truth value, a whole number, a number, and nothing. -/
def booleanTag : Tag := octets "tag:yaml.org,2002:bool"

@[inherit_doc booleanTag]
def integerTag : Tag := octets "tag:yaml.org,2002:int"

@[inherit_doc booleanTag]
def realTag : Tag := octets "tag:yaml.org,2002:float"

@[inherit_doc booleanTag]
def nullTag : Tag := octets "tag:yaml.org,2002:null"

/-- Whether a tag is local, so that it says nothing about the kind of a scalar. -/
def isLocal (tag : Tag) : Bool := tag.head? == some 0x21

/-- The name in a local tag: what follows its exclamation mark, or the mark itself. Octets that are
no UTF-8 name nothing. -/
def localName? (tag : Tag) : Option String :=
  if !isLocal tag then none
  else
    let name := if tag.length = 1 then tag else tag.drop 1
    String.fromUTF8? ⟨name.toArray⟩

end Hygrometer.Yaml
