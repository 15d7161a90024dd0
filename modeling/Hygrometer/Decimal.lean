import Hygrometer.Binary64.Basic
import Hygrometer.Text.Basic

/-!
# Decimals

How binary64 numbers are written in base ten, and how decimals are read.

**Writing.** The shortest decimal of a magnitude is the one with the fewest digits that reads back
as it, and of those the nearest to it. The decimals that read back are those in the **rounding
interval**: they lie between the midpoints to the two neighbouring magnitudes, the midpoints
themselves included exactly when the coefficient is even. A power-of-ten grid that has a point in
the interval has one next to the magnitude itself, so the coarsest such grid is found by looking at
two points of each. Where both are equally near, the format that writes the number says which is
taken. It also says where a decimal is written with its point in place and where with an exponent,
and states both decisions as one `DecimalLayout`.

**Reading.** A decimal numeral with an optional sign, point and exponent denotes the binary64 number
nearest to it.

## Main definitions

* `Decimal.shortest` – the shortest decimal of a magnitude.
* `DecimalLayout.write` – the text of a signed magnitude.
* `Decimal.read?` – the decimal that a numeral denotes.
* `Binary64.ofDecimal` – the number nearest to a decimal.
-/

namespace Hygrometer

open Text (isDigit natOfDecimal numeral)

/-! ### Shortest decimals -/

/-- A decimal `digits * 10 ^ exp`. -/
structure Decimal where
  /-- The digits, read as a natural number. -/
  digits : Nat
  /-- The power of ten that the last digit counts. -/
  exp : Int
deriving DecidableEq, Repr, Inhabited

/-- Which of two neighbouring decimals is taken where both are equally near. -/
inductive DecimalTie where
  /-- The one with the even last digit. -/
  | even
  /-- The greater one. -/
  | up
deriving DecidableEq, Repr

/-- Whether a tie between `d` and `d + 1` goes down to `d`. -/
def DecimalTie.goesDown (tie : DecimalTie) (d : Nat) : Bool :=
  match tie with
  | even => d % 2 = 0
  | up => false

namespace Decimal

/-- The power of ten `10 ^ exp` in units of `2 ^ -1074`, as a numerator and a denominator. -/
def gridStep (exp : Int) : Nat × Nat :=
  match exp with
  | .ofNat e => (Nat.pow 10 e * Binary64.unitsPerOne, 1)
  | .negSucc e => (Binary64.unitsPerOne, Nat.pow 10 (e + 1))

/-- The rounding interval of a magnitude, in quarters of a unit: lower end, upper end, and whether
the ends belong to it. Below a power of two the neighbour is only half as far. -/
def interval (m : Magnitude) : Nat × Nat × Bool :=
  let centre := 4 * m.units
  let half := 2 * Nat.pow 2 m.exp
  let below := if m.exp ≠ 0 ∧ m.coeff = leadingBit then half / 2 else half
  (centre - below, centre + half, m.coeff % 2 = 0)

/-- The points of the grid `10 ^ exp` next to `m` that lie in its rounding interval: the nearer
of the two, if both do. -/
def gridPoint? (tie : DecimalTie) (m : Magnitude) (exp : Int) : Option Nat :=
  let (num, den) := gridStep exp
  let (lo, hi, closed) := interval m
  let inside (d : Nat) : Bool :=
    let x := 4 * d * num
    if closed then lo * den ≤ x ∧ x ≤ hi * den else lo * den < x ∧ x < hi * den
  let target := m.units * den
  let d := target / num
  let below := target - d * num
  let above := (d + 1) * num - target
  let nearer := below < above || (below = above && tie.goesDown d)
  let down := d ≠ 0 && inside d
  let up := inside (d + 1)
  if down && (!up || nearer) then some d
  else if up then some (d + 1)
  else none

/-- Search the grids from `10 ^ exp` downward, at most `fuel` of them. -/
def search (tie : DecimalTie) (m : Magnitude) : Nat → Int → Decimal
  | 0, exp => ⟨0, exp⟩
  | fuel + 1, exp =>
    match gridPoint? tie m exp with
    | some d => ⟨d, exp⟩
    | none => search tie m fuel (exp - 1)

/-- The shortest decimal that reads back as `m`. No magnitude needs a grid coarser than `10 ^ 308`
or finer than `10 ^ -324`. -/
def shortest (tie : DecimalTie) (m : Magnitude) : Decimal :=
  if m = .zero then ⟨0, 0⟩ else search tie m 634 308

end Decimal

/-! ### Layout -/

/-- The decisions of a format that writes numbers. -/
structure DecimalLayout where
  /-- The places of the decimal point, counted from before the first digit, for which the number is
  written without an exponent; all places, if absent. -/
  pointBetween : Option (Int × Int)
  /-- Which of two decimals is written where both are equally near. -/
  tie : DecimalTie
deriving DecidableEq

namespace DecimalLayout

/-- Digits with the point after the first `point` of them; zeros fill the gap to a point that lies
beyond the digits, and one digit at least stands on either side. -/
def positional (digits : List Char) (point : Int) : List Char :=
  if point ≤ 0 then
    ['0', '.'] ++ List.replicate point.natAbs '0' ++ digits
  else if point.toNat < digits.length then
    digits.take point.toNat ++ '.' :: digits.drop point.toNat
  else
    digits ++ List.replicate (point.toNat - digits.length) '0' ++ ['.', '0']

/-- Digits with the point after the first of them, if others follow, and the signed exponent. -/
def withExponent (digits : List Char) (point : Int) : List Char :=
  let exp := point - 1
  let fraction := if digits.length ≤ 1 then [] else '.' :: digits.drop 1
  let sign := if exp < 0 then '-' else '+'
  digits.take 1 ++ fraction ++ 'e' :: sign :: (numeral exp.natAbs).toList

/-- The text of a signed magnitude. -/
def write (layout : DecimalLayout) (negative : Bool) (m : Magnitude) : String :=
  let shortest := Decimal.shortest layout.tie m
  let digits := (numeral shortest.digits).toList
  let point := shortest.exp + digits.length
  let plain :=
    match layout.pointBetween with
    | none => true
    | some (lo, hi) => lo ≤ point && point ≤ hi
  let body := if plain then positional digits point else withExponent digits point
  .ofList (if negative then '-' :: body else body)

end DecimalLayout

/-! ### Reading -/

namespace Binary64

/-- The number nearest to a decimal. The first digit of a magnitude stands between the places
`-330` and `310`, so a decimal beyond them needs no arithmetic. -/
def ofDecimal (negative : Bool) (d : Decimal) : Binary64 :=
  let point := d.exp + (Nat.toDigits 10 d.digits).length
  if d.digits = 0 ∨ point < -330 then .finite negative .zero
  else if 310 < point then .infinite negative
  else
    let (num, den) := Decimal.gridStep d.exp
    ofUnits negative (d.digits * num) den

/-- The number nearest to a power of ten. -/
def tenTo (exp : Nat) : Binary64 := ofDecimal false ⟨1, exp⟩

end Binary64

namespace Decimal

/-- Take a sign from the front of a text: whether it is a minus, and the rest. -/
def takeSign : List Char → Bool × List Char
  | '-' :: cs => (true, cs)
  | '+' :: cs => (false, cs)
  | cs => (false, cs)

/-- The exponent written by the rest of a numeral, from its letter on; zero if nothing is left. -/
def readExponent? : List Char → Option Int
  | [] => some 0
  | c :: cs =>
    let (negative, digits) := takeSign cs
    if (c = 'e' ∨ c = 'E') ∧ digits ≠ [] ∧ digits.all isDigit then
      some (if negative then -natOfDecimal digits else natOfDecimal digits)
    else
      none

/-- Read a whole text as a signed decimal: digits with at most one point among, before or after
them, and an exponent if the letter `e` of either case follows. -/
def read? (cs : List Char) : Option (Bool × Decimal) := do
  let (negative, cs) := takeSign cs
  let whole := cs.takeWhile isDigit
  let rest := cs.drop whole.length
  let (fraction, rest) :=
    match rest with
    | '.' :: after => (after.takeWhile isDigit, after.dropWhile isDigit)
    | _ => ([], rest)
  guard (whole ≠ [] ∨ fraction ≠ [])
  let exp ← readExponent? rest
  pure (negative, ⟨natOfDecimal (whole ++ fraction), exp - fraction.length⟩)

end Decimal
end Hygrometer
