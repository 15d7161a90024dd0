/-!
# Binary64 numbers

The number format of the sensor's measurements: IEEE 754 binary64, kept as exact integers so that
every arithmetic fact about it is a fact about `Nat`. The least positive value, `2 ^ -1074`, is the
**unit**; a finite magnitude is a whole number of units.

Not-a-number is one value: its sign and payload are never shown by anything in this library.

## Main definitions

* `Magnitude` – the finite magnitudes, in canonical form.
* `Magnitude.round?` – the magnitude nearest to a quotient of naturals, ties to the even
  coefficient.
* `Binary64` – signed magnitudes, the infinities and not-a-number.
* `Binary64.ofBits`, `Binary64.toBits` – the interchange encoding.
-/

namespace Hygrometer

/-- The natural number nearest to `num / den`, a half going to the even neighbour. -/
def nearestEven (num den : Nat) : Nat :=
  let q := num / den
  let r := num % den
  if 2 * r < den ∨ (2 * r = den ∧ q % 2 = 0) then q else q + 1

/-- The weight of the leading bit of a full coefficient, `2 ^ 52`. -/
def leadingBit : Nat := 0x10000000000000

/-- A finite magnitude: `coeff * 2 ^ exp` units of `2 ^ -1074`. The form is canonical, so equal
magnitudes have equal fields. -/
structure Magnitude where
  /-- The coefficient, at most 53 bits. -/
  coeff : Nat
  /-- The binary exponent, counted in units. -/
  exp : Nat
  /-- A coefficient has at most 53 bits. -/
  coeff_lt : coeff < 2 * leadingBit
  /-- Beyond this exponent lie the infinities. -/
  exp_le : exp ≤ 2045
  /-- Only the least exponent takes short coefficients. -/
  canonical : exp = 0 ∨ leadingBit ≤ coeff
deriving DecidableEq

namespace Magnitude

/-- The magnitude as a whole number of units of `2 ^ -1074`. -/
def units (m : Magnitude) : Nat := m.coeff * Nat.pow 2 m.exp

/-- The magnitude with the given fields, if they are in canonical form and in range. -/
def ofParts? (coeff exp : Nat) : Option Magnitude :=
  if h : coeff < 2 * leadingBit ∧ exp ≤ 2045 ∧ (exp = 0 ∨ leadingBit ≤ coeff) then
    some ⟨coeff, exp, h.1, h.2.1, h.2.2⟩
  else
    none

/-- No units at all. -/
def zero : Magnitude := ⟨0, 0, by decide, by decide, .inl rfl⟩

instance : Inhabited Magnitude := ⟨zero⟩

/-- The magnitude nearest to `num / den` units, ties going to the even coefficient; `none` when that
lies beyond the largest magnitude. The exponent is the least that leaves at most 53 bits, and a
coefficient that rounds up to 54 bits moves to the next one. -/
def round? (num den : Nat) : Option Magnitude :=
  let exp := Nat.log2 (num / den) - 52
  let coeff := nearestEven num (den * Nat.pow 2 exp)
  if coeff = 2 * leadingBit then ofParts? leadingBit (exp + 1) else ofParts? coeff exp

/-- The interchange code of a magnitude: its rank among all magnitudes. -/
def code (m : Magnitude) : Nat := m.exp * leadingBit + m.coeff

/-- The magnitude with a given code, below the code of infinity. -/
def ofCode? (code : Nat) : Option Magnitude :=
  if code < leadingBit then ofParts? code 0
  else ofParts? (leadingBit + code % leadingBit) (code / leadingBit - 1)

end Magnitude

/-- An IEEE 754 binary64 number, with a single not-a-number. -/
inductive Binary64 where
  /-- Not a number. -/
  | nan
  /-- Positive or negative infinity. -/
  | infinite (negative : Bool)
  /-- A signed finite magnitude; zero keeps its sign. -/
  | finite (negative : Bool) (magnitude : Magnitude)
deriving DecidableEq, Inhabited

namespace Binary64

/-- Positive zero. -/
def zero : Binary64 := .finite false .zero

/-- The number nearest to `± num / den` units; beyond the largest magnitude, infinity. -/
def ofUnits (negative : Bool) (num den : Nat) : Binary64 :=
  match Magnitude.round? num den with
  | some m => .finite negative m
  | none => .infinite negative

/-- How many units make one. -/
def unitsPerOne : Nat := Nat.pow 2 1074

/-- The number nearest to a natural number. -/
def ofNat (n : Nat) : Binary64 := ofUnits false (n * unitsPerOne) 1

instance (n : Nat) : OfNat Binary64 n := ⟨ofNat n⟩

/-- The same number with the other sign. -/
def neg : Binary64 → Binary64
  | .nan => .nan
  | .infinite s => .infinite (!s)
  | .finite s m => .finite (!s) m

instance : Neg Binary64 := ⟨neg⟩

/-- Whether the number is neither infinite nor not-a-number. -/
def isFinite : Binary64 → Bool
  | .finite _ _ => true
  | _ => false

/-- The signed number of units of a finite number. -/
def units? : Binary64 → Option Int
  | .finite false m => some m.units
  | .finite true m => some (-m.units)
  | _ => none

/-- The code of infinity: the first that is no magnitude's. -/
def infinityCode : Nat := 2047 * leadingBit

/-- The weight of the sign in the interchange encoding. -/
def signBit : Nat := 0x8000000000000000

/-- Read the interchange encoding. -/
def ofBits (bits : UInt64) : Binary64 :=
  let negative := signBit ≤ bits.toNat
  let code := bits.toNat % signBit
  match Magnitude.ofCode? code with
  | some m => .finite negative m
  | none => if code = infinityCode then .infinite negative else .nan

/-- The interchange encoding; not-a-number has the quiet pattern with an empty payload. -/
def toBits : Binary64 → UInt64
  | .nan => .ofNat (infinityCode + leadingBit / 2)
  | .infinite s => signed s infinityCode
  | .finite s m => signed s m.code
where
  /-- A code with its sign. -/
  signed (negative : Bool) (code : Nat) : UInt64 :=
    .ofNat (if negative then signBit + code else code)

end Binary64
end Hygrometer
