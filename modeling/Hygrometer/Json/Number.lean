import Hygrometer.Binary64.Arithmetic
import Hygrometer.Decimal

/-!
# JSON numbers

Writing gives the shortest decimal, with an exponent from `1e16` up and below `1e-5`, and `null` for
what is no finite number.

Reading keeps whole numbers of 64 bits as they are. Every other number goes through a 64-bit
**significand**: the digits that fit are its digits, later ones only count as places, and it is then
multiplied or divided by a power of ten. This takes two roundings where an exact reading takes one,
so the last bit may differ from the nearest number.
-/

namespace Hygrometer.Json

open Text (isDigit natOfDecimal)

/-- Numbers are positional from `0.00001` to `9999999999999999`. -/
def numberLayout : DecimalLayout := ⟨some (-4, 16), .even⟩

/-- A number as JSON. -/
def writeNumber : Binary64 → String
  | .finite negative m => numberLayout.write negative m
  | _ => "null"

/-! ### Reading -/

/-- A number as it is read. -/
inductive Number where
  /-- A whole number below `2 ^ 64`. -/
  | natural (n : UInt64)
  /-- The negative of a whole number, `1` to `2 ^ 63`. -/
  | negative (n : Nat)
  /-- Any other number. -/
  | real (x : Binary64)
deriving DecidableEq

/-- Append digits to a significand until the next one would take it past 64 bits: the significand
and the digits left. -/
def absorb (significand : Nat) : List Char → Nat × List Char
  | [] => (significand, [])
  | c :: cs =>
    let next := 10 * significand + natOfDecimal [c]
    if next < UInt64.size then absorb next cs else (significand, c :: cs)

/-- Divide by `10 ^ 308`, as often as said or until nothing is left. -/
def shrink : Nat → Binary64 → Binary64
  | 0, x => x
  | times + 1, x => if x = .zero then x else shrink times (x / Binary64.tenTo 308)

/-- The number `significand * 10 ^ exp`; nothing if it is too large. Powers beyond `10 ^ 308` are
divided by in steps. -/
def scaled? (significand : Nat) (exp : Int) : Option Binary64 :=
  let x := Binary64.ofNat significand
  match exp with
  | .ofNat e =>
    if e ≤ 308 then some (x * Binary64.tenTo e) |>.filter (·.isFinite)
    else if significand = 0 then some x
    else none
  | .negSucc e =>
    let steps := e / 308
    some (shrink steps x / Binary64.tenTo (e + 1 - 308 * steps))

/-- The number with a sign. -/
def withSign (negative : Bool) (x : Binary64) : Binary64 := if negative then -x else x

/-- The exponent of a numeral: whether it is negative, and its digits. -/
abbrev ExponentPart := Bool × List Char

/-- The number that the parts of a numeral denote; nothing if it is too large. An exponent past 31
bits is too large for everything but zero, or leaves zero. -/
def evaluate? (negative : Bool) (whole : List Char) (fraction : Option (List Char))
    (exponent : Option ExponentPart) : Option Number :=
  let (significand, left) := absorb 0 whole
  if fraction.isNone ∧ exponent.isNone ∧ left = [] then
    if !negative then some (.natural (.ofNat significand))
    else if 0 < significand ∧ significand ≤ 0x8000000000000000 then some (.negative significand)
    else some (.real (-Binary64.ofNat significand))
  else
    let digits := fraction.getD []
    let (significand, unused) := absorb significand digits
    let places : Int := left.length - (digits.length - unused.length)
    match exponent with
    | none => (scaled? significand places).map (.real ∘ withSign negative)
    | some (down, digits) =>
      let e := natOfDecimal digits
      if e < 0x80000000 then
        (scaled? significand (if down then places - e else places + e)).map
          (.real ∘ withSign negative)
      else if significand ≠ 0 ∧ !down then none
      else some (.real (withSign negative .zero))

/-- Take the fraction from behind the whole digits: absent without a point, and refused without
digits behind the point. -/
def takeFraction? : List Char → Option (Option (List Char) × List Char)
  | '.' :: cs =>
    let digits := cs.takeWhile isDigit
    if digits = [] then none else some (some digits, cs.drop digits.length)
  | cs => some (none, cs)

/-- Take the exponent from behind the digits: absent without its letter, and refused without digits
behind the letter and an optional sign. -/
def takeExponent? : List Char → Option (Option ExponentPart × List Char)
  | [] => some (none, [])
  | c :: cs =>
    if c = 'e' ∨ c = 'E' then
      let (down, cs) := Decimal.takeSign cs
      let digits := cs.takeWhile isDigit
      if digits = [] then none else some (some (down, digits), cs.drop digits.length)
    else
      some (none, c :: cs)

/-- The parts of a numeral at the front of a text: its sign, whole digits, fraction and exponent,
and the text left. Whole digits are needed, and a zero stands alone. -/
def takeNumeral? (cs : List Char) :
    Option ((Bool × List Char × Option (List Char) × Option ExponentPart) × List Char) := do
  let (negative, cs) :=
    match cs with
    | '-' :: cs => (true, cs)
    | cs => (false, cs)
  let whole := cs.takeWhile isDigit
  guard (whole ≠ [] ∧ (whole.head? ≠ some '0' ∨ whole.length = 1))
  let (fraction, cs) ← takeFraction? (cs.drop whole.length)
  let (exponent, cs) ← takeExponent? cs
  pure ((negative, whole, fraction, exponent), cs)

/-- Read a number from the front of a text. -/
def readNumber? (cs : List Char) : Option (Number × List Char) := do
  let ((negative, whole, fraction, exponent), rest) ← takeNumeral? cs
  pure (← evaluate? negative whole fraction exponent, rest)

end Hygrometer.Json
