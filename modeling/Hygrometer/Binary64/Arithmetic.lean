import Hygrometer.Binary64.Basic

/-!
# Arithmetic on binary64 numbers

Every operation computes the exact result as a quotient of integers and rounds once, to nearest with
ties to even. An exact zero sum is negative only when both terms are.

A finite number is a whole number of units, the least positive number being one unit, so a sum is one
of integers, and a product and a quotient are fractions of integers. Infinities and not-a-number are
taken care of case by case, and not-a-number is the result where there is no other: of infinities
that cancel or are divided, of zero times an infinity, and of zero by zero.

**Comparisons** are those of the values. Not-a-number is in no order with anything, so that it lies
within no bounds (`within`), and a clamp leaves it as it is (`clamp`). The nearest natural number
(`toNatNearest`) has no such case: not-a-number gives zero, and what is out of range gives an end of
it.
-/

namespace Hygrometer.Binary64

/-- A magnitude under a sign, in units. -/
def signed (negative : Bool) (m : Magnitude) : Int := if negative then -m.units else m.units

/-- The sum, rounded once. -/
def add : Binary64 → Binary64 → Binary64
  | .finite s m, .finite t n =>
    let sum := signed s m + signed t n
    if sum = 0 then .finite (s && t) .zero else ofUnits (decide (sum < 0)) sum.natAbs 1
  | .infinite s, .infinite t => if s = t then .infinite s else .nan
  | .infinite s, .finite _ _ => .infinite s
  | .finite _ _, .infinite t => .infinite t
  | .nan, _ => .nan
  | _, .nan => .nan

/-- The difference, rounded once. -/
def sub (x y : Binary64) : Binary64 := add x (neg y)

/-- The product, rounded once. -/
def mul : Binary64 → Binary64 → Binary64
  | .finite s m, .finite t n => ofUnits (s ^^ t) (m.units * n.units) unitsPerOne
  | .infinite s, .infinite t => .infinite (s ^^ t)
  | .infinite s, .finite t n => if n = .zero then .nan else .infinite (s ^^ t)
  | .finite s m, .infinite t => if m = .zero then .nan else .infinite (s ^^ t)
  | .nan, _ => .nan
  | _, .nan => .nan

/-- The quotient, rounded once. A zero divisor gives infinity, or not-a-number for zero by zero. -/
def div : Binary64 → Binary64 → Binary64
  | .finite s m, .finite t n =>
    if n = .zero then
      if m = .zero then .nan else .infinite (s ^^ t)
    else
      ofUnits (s ^^ t) (m.units * unitsPerOne) n.units
  | .infinite _, .infinite _ => .nan
  | .infinite s, .finite t _ => .infinite (s ^^ t)
  | .finite s _, .infinite t => .finite (s ^^ t) .zero
  | .nan, _ => .nan
  | _, .nan => .nan

instance : Add Binary64 := ⟨add⟩
instance : Sub Binary64 := ⟨sub⟩
instance : Mul Binary64 := ⟨mul⟩
instance : Div Binary64 := ⟨div⟩

/-! ### Order -/

/-- Whether the first number is smaller. Not-a-number is smaller than nothing, and nothing is
smaller than it; the two zeros are equal. -/
def lt : Binary64 → Binary64 → Bool
  | .finite s m, .finite t n => decide (signed s m < signed t n)
  | .infinite s, .infinite t => s && !t
  | .infinite s, .finite _ _ => s
  | .finite _ _, .infinite t => !t
  | .nan, _ => false
  | _, .nan => false

/-- Whether the number lies between the bounds, both included. Not-a-number lies nowhere. -/
def within (x lo hi : Binary64) : Bool :=
  x ≠ .nan && !lt x lo && !lt hi x

/-- The number itself if it lies between the bounds, else the bound that it passes. Not-a-number
passes neither and stays. -/
def clamp (x lo hi : Binary64) : Binary64 :=
  if lt x lo then lo else if lt hi x then hi else x

/-- The nearest natural number, a half going up, but at most `cap`; zero for negative numbers and
for not-a-number. -/
def toNatNearest (cap : Nat) : Binary64 → Nat
  | .finite false m => min cap ((2 * m.units + unitsPerOne) / (2 * unitsPerOne))
  | .infinite false => cap
  | _ => 0

end Hygrometer.Binary64
