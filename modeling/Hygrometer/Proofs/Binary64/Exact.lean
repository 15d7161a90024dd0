import Mathlib.Algebra.Order.Field.Rat
import Mathlib.Algebra.Order.Floor.Semifield
import Mathlib.Data.Rat.Floor
import Mathlib.Tactic.FieldSimp
import Mathlib.Tactic.Linarith
import Mathlib.Tactic.NormNum
import Mathlib.Tactic.Positivity
import Mathlib.Tactic.Ring
import Hygrometer.Binary64.Arithmetic

/-!
# Exact arithmetic on binary64 numbers

The **value** of a finite number is a rational, and a rational is **representable** when some
magnitude has its absolute value. Rounding only moves what is not representable: an operation whose
exact result is representable returns exactly that result.

The reason is that magnitudes are canonical. A whole number of units that some magnitude has is
rounded by looking at its leading bit, and the leading bit of a canonical magnitude sits where its
exponent says, so rounding finds that very magnitude (`round?_units`).

**One notion for all operations.** The arithmetic operations only compute a quotient of units and
round it, so what they give is what their exact result is rounded to. `IsRounding x q` says so of a
number and a rational, without saying how well `q` is met. Everything that is ever said of an
operation is drawn from it: here that nothing is lost if `q` is representable (`IsRounding.value?`),
and elsewhere how much is lost otherwise, that the order is kept, and which number is the nearest.
There is one lemma of this kind for each operation (`isRounding_mul`, `isRounding_div`,
`isRounding_add`), and no other proof looks into them.

**Signs of zero.** The sign of a zero is no part of its value, so the results here say what number
an operation gives and not which of the two zeros. Where the sign of a number is carried along, it
is a factor of one or minus one (`signFactor`).

**Units.** A value is a number of units over `unitsPerOne`, which is `2 ^ 1074`. Powers of this size
are never computed. A proof that needs the number splits it into two powers with names for their
exponents (`cast_unitsPerOne_eq`), of which the one that does not matter is cancelled.

The **ranges** at the end are those of a measurement. Their two cases differ by constants only, so
that what holds of a number in a range is said of `IsRange` once.
-/

namespace Hygrometer

namespace Magnitude

/-! ### Rounding finds the magnitude that is there -/

/-- The weight of the leading bit is a power of two. -/
theorem leadingBit_eq : leadingBit = Nat.pow 2 52 := rfl

/-- The leading bit of a magnitude, beyond the 52 bits that follow it, is its exponent. -/
theorem log2_units (m : Magnitude) : Nat.log2 m.units - 52 = m.exp := by
  have hlt := m.coeff_lt
  rw [leadingBit_eq] at hlt
  have hpos : 0 < Nat.pow 2 m.exp := Nat.pow_pos (by decide)
  rcases m.canonical with hexp | hfull
  · -- The least exponent: at most 53 bits.
    by_cases hzero : m.units = 0
    · rw [hzero, hexp]
      decide
    · have hlog : Nat.log2 m.units < 53 := by
        rw [Nat.log2_lt hzero, units, hexp]
        calc m.coeff * Nat.pow 2 0 = m.coeff := Nat.mul_one _
          _ < 2 * Nat.pow 2 52 := hlt
          _ = 2 ^ 53 := rfl
      omega
  · -- A full coefficient: exactly 53 bits before those of the exponent.
    rw [leadingBit_eq] at hfull
    have hzero : m.units ≠ 0 := by
      have : 0 < m.coeff * Nat.pow 2 m.exp := Nat.mul_pos (lt_of_lt_of_le (by decide) hfull) hpos
      exact this.ne'
    have hlog : Nat.log2 m.units = 52 + m.exp := by
      rw [Nat.log2_eq_iff hzero, units]
      refine ⟨?_, ?_⟩
      · calc 2 ^ (52 + m.exp) = Nat.pow 2 52 * Nat.pow 2 m.exp := pow_add 2 52 m.exp
          _ ≤ m.coeff * Nat.pow 2 m.exp := Nat.mul_le_mul_right _ hfull
      · calc m.coeff * Nat.pow 2 m.exp < 2 * Nat.pow 2 52 * Nat.pow 2 m.exp :=
              Nat.mul_lt_mul_of_pos_right hlt hpos
          _ = 2 ^ (52 + m.exp + 1) := by
              rw [show 52 + m.exp + 1 = 53 + m.exp by omega, pow_add]
              rfl
    omega

/-- A quotient that is whole is the nearest to itself. -/
theorem nearestEven_of_dvd {num den : ℕ} (q : ℕ) (hden : 0 < den) (h : num = q * den) :
    nearestEven num den = q := by
  have hdiv : num / den = q := by rw [h, Nat.mul_div_cancel q hden]
  have hmod : num % den = 0 := by rw [h, Nat.mul_mod_left]
  simp only [nearestEven, hdiv, hmod, Nat.mul_zero, hden, true_or, if_true]

/-- The fields of a magnitude are in canonical form and in range. -/
theorem ofParts?_self (m : Magnitude) : ofParts? m.coeff m.exp = some m :=
  dif_pos ⟨m.coeff_lt, m.exp_le, m.canonical⟩

/-- **A magnitude rounds to itself**, from any quotient that equals it. -/
theorem round?_units (m : Magnitude) {num den : ℕ} (hden : 0 < den) (h : num = m.units * den) :
    round? num den = some m := by
  have hexp : Nat.log2 (num / den) - 52 = m.exp := by
    rw [h, Nat.mul_div_cancel _ hden, log2_units]
  have hcoeff : nearestEven num (den * Nat.pow 2 m.exp) = m.coeff := by
    refine nearestEven_of_dvd _ (Nat.mul_pos hden (Nat.pow_pos (by decide))) ?_
    rw [h, units]
    ring
  have hne : m.coeff ≠ 2 * leadingBit := m.coeff_lt.ne
  simp only [round?, hexp, hcoeff, hne, if_false]
  exact m.ofParts?_self

/-- Every coefficient of 53 bits, at any exponent in range, is some magnitude: it only has to be
shifted until its leading bit is in place, or the exponent is used up. -/
theorem exists_units_eq {k e : ℕ} (hk : k < 2 * leadingBit) (he : e ≤ 2045) :
    ∃ m : Magnitude, m.units = k * Nat.pow 2 e := by
  induction e generalizing k with
  | zero => exact ⟨⟨k, 0, hk, he, .inl rfl⟩, rfl⟩
  | succ e ih =>
    by_cases hfull : leadingBit ≤ k
    · exact ⟨⟨k, e + 1, hk, he, .inr hfull⟩, rfl⟩
    · obtain ⟨m, hm⟩ := ih (k := 2 * k) (by omega) (by omega)
      refine ⟨m, hm.trans ?_⟩
      calc 2 * k * Nat.pow 2 e = k * (2 ^ e * 2) := by
            rw [mul_comm 2 k, mul_assoc, mul_comm 2]
            rfl
        _ = k * Nat.pow 2 (e + 1) := rfl

end Magnitude

namespace Binary64

/-! ### Values -/

/-- The exact value of a finite number. -/
def value? (x : Binary64) : Option ℚ := x.units?.map fun (u : ℤ) ↦ (u : ℚ) / unitsPerOne

/-- Not-a-number has no value. -/
@[simp] theorem value?_nan : nan.value? = none := rfl

/-- Neither has an infinity. -/
@[simp] theorem value?_infinite (s : Bool) : (infinite s).value? = none := rfl

/-- A rational is representable when some magnitude is its absolute value. -/
def Representable (q : ℚ) : Prop := ∃ m : Magnitude, (m.units : ℚ) = |q| * unitsPerOne

/-- The factor that a sign is. -/
def signFactor (negative : Bool) : ℚ := if negative then -1 else 1

/-- Signed units are the units with the factor of the sign. -/
theorem signed_eq (s : Bool) (m : Magnitude) : (signed s m : ℚ) = signFactor s * m.units := by
  cases s <;> simp [signed, signFactor]

/-- The signs of a product multiply. -/
theorem signFactor_xor (s t : Bool) : signFactor (s ^^ t) = signFactor s * signFactor t := by
  cases s <;> cases t <;> simp [signFactor]

/-- A sign is its own inverse. -/
theorem signFactor_mul_self (s : Bool) : signFactor s * signFactor s = 1 := by
  cases s <;> simp [signFactor]

/-- A sign does not change the size. -/
theorem abs_signFactor (s : Bool) : |signFactor s| = 1 := by
  cases s <;> simp [signFactor]

/-- One, counted in units, is a product of two powers of two, in any split of the exponent. -/
theorem unitsPerOne_eq {j k : ℕ} (h : j + k = 1074) : unitsPerOne = 2 ^ j * 2 ^ k := by
  unfold unitsPerOne
  rw [← h]
  exact Nat.pow_add 2 j k

/-- The same as a rational. -/
theorem cast_unitsPerOne_eq {j k : ℕ} (h : j + k = 1074) :
    (unitsPerOne : ℚ) = 2 ^ j * 2 ^ k := by
  rw [unitsPerOne_eq h, Nat.cast_mul, Nat.cast_pow, Nat.cast_pow, Nat.cast_ofNat]

/-- One has units. -/
theorem unitsPerOne_pos : 0 < unitsPerOne := by
  unfold unitsPerOne
  generalize 1074 = n
  exact Nat.pow_pos Nat.two_pos

/-- The same as a rational. -/
theorem cast_unitsPerOne_pos : (0 : ℚ) < unitsPerOne := Nat.cast_pos.2 unitsPerOne_pos

/-- A number with a value is finite, and its signed units say the value. -/
theorem value?_eq_some_iff {x : Binary64} {q : ℚ} :
    x.value? = some q ↔ ∃ s m, x = .finite s m ∧ signFactor s * m.units = q * unitsPerOne := by
  have hne : (unitsPerOne : ℚ) ≠ 0 := cast_unitsPerOne_pos.ne'
  rcases x with - | s | ⟨s, m⟩
  · simp only [value?_nan, reduceCtorEq, false_and, exists_false]
  · simp only [value?_infinite, reduceCtorEq, false_and, exists_false]
  · have hunits : (Binary64.finite s m).units? = some (signed s m) := by cases s <;> rfl
    rw [value?, hunits, Option.map_some, Option.some_inj, div_eq_iff hne, signed_eq]
    refine ⟨fun h ↦ ⟨s, m, rfl, h⟩, ?_⟩
    rintro ⟨s', m', heq, h⟩
    obtain ⟨rfl, rfl⟩ := Binary64.finite.inj heq
    exact h

/-- A number with a value is finite. -/
theorem isFinite_of_value? {x : Binary64} {q : ℚ} (h : x.value? = some q) : x.isFinite = true := by
  obtain ⟨s, m, rfl, -⟩ := value?_eq_some_iff.1 h
  rfl

/-- A finite number has a value. -/
theorem exists_value_finite (s : Bool) (m : Magnitude) :
    ∃ q, (Binary64.finite s m).value? = some q :=
  ⟨signFactor s * m.units / unitsPerOne, value?_eq_some_iff.2
    ⟨s, m, rfl, (div_mul_cancel₀ _ cast_unitsPerOne_pos.ne').symm⟩⟩

/-- The value of a magnitude without binary places. -/
theorem value?_of_exp_eq {m : Magnitude} {k : ℕ} (h : m.exp = k + 1074) :
    (finite false m).value? = some (m.coeff * 2 ^ k : ℚ) := by
  refine value?_eq_some_iff.2 ⟨_, m, rfl, ?_⟩
  rw [cast_unitsPerOne_eq (j := 0) (k := 1074) rfl, signFactor, if_neg Bool.false_ne_true, one_mul,
    Magnitude.units, Nat.pow_eq, h]
  generalize 1074 = j
  push_cast
  ring

/-- Every fraction with a numerator of 53 bits and a power of two below it is representable. -/
theorem representable_div_two_pow {n : ℤ} {k : ℕ} (hn : n.natAbs < 2 * leadingBit)
    (hk : k ≤ 1074) : Representable ((n : ℚ) / 2 ^ k) := by
  obtain ⟨m, hm⟩ := Magnitude.exists_units_eq hn (show 1074 - k ≤ 2045 by omega)
  refine ⟨m, ?_⟩
  have habs : (n.natAbs : ℚ) = |(n : ℚ)| := by
    rw [← Int.cast_abs, Int.abs_eq_natAbs, Int.cast_natCast]
  have hunits : (m.units : ℚ) = n.natAbs * 2 ^ (1074 - k) := by
    rw [hm, Nat.pow_eq, Nat.cast_mul, Nat.cast_pow, Nat.cast_ofNat]
  rw [hunits, habs, abs_div, abs_of_pos (by positivity : (0 : ℚ) < 2 ^ k),
    cast_unitsPerOne_eq (Nat.sub_add_cancel hk)]
  field_simp

/-- A number is what a rational is rounded to. -/
def IsRounding (x : Binary64) (q : ℚ) : Prop :=
  ∃ (s : Bool) (num den : ℕ), 0 < den ∧ signFactor s * (num / den) = q * unitsPerOne ∧
    x = ofUnits s num den

variable {x y : Binary64} {p q : ℚ}

/-- **What is representable is not rounded.** -/
theorem IsRounding.value? (h : IsRounding x q) (hq : Representable q) : x.value? = some q := by
  obtain ⟨s, num, den, hden, h, rfl⟩ := h
  obtain ⟨m, hm⟩ := hq
  have hden' : (0 : ℚ) < den := Nat.cast_pos.2 hden
  have habs : (num : ℚ) / den = m.units := by
    rw [hm, ← abs_of_pos cast_unitsPerOne_pos, ← abs_mul, ← h, abs_mul, abs_signFactor, one_mul,
      abs_of_nonneg (by positivity)]
  have hnum : num = m.units * den := by
    rw [div_eq_iff hden'.ne', ← Nat.cast_mul] at habs
    exact Nat.cast_injective habs
  refine value?_eq_some_iff.2 ⟨s, m, ?_, ?_⟩
  · have hround := Magnitude.round?_units m hden hnum
    unfold ofUnits
    rw [hround]
  · rw [← habs, h]

/-! ### Operations -/

/-- The operator is the operation. -/
theorem mul_eq (x y : Binary64) : x * y = mul x y := rfl

/-- The operator is the operation. -/
theorem div_eq (x y : Binary64) : x / y = div x y := rfl

/-- The operator is the operation. -/
theorem add_eq (x y : Binary64) : x + y = add x y := rfl

/-- A difference is a sum with the other sign. -/
theorem sub_eq (x y : Binary64) : x - y = x + -y := rfl

/-- The other sign negates the value. -/
theorem value?_neg (hx : x.value? = some p) : (-x).value? = some (-p) := by
  obtain ⟨s, m, rfl, hm⟩ := value?_eq_some_iff.1 hx
  refine value?_eq_some_iff.2 ⟨!s, m, rfl, ?_⟩
  rw [neg_mul, ← hm]
  cases s <;> simp [signFactor]

/-- **A product is what the exact product is rounded to.** -/
theorem isRounding_mul (hx : x.value? = some p) (hy : y.value? = some q) :
    IsRounding (x * y) (p * q) := by
  obtain ⟨s, m, rfl, hm⟩ := value?_eq_some_iff.1 hx
  obtain ⟨t, n, rfl, hn⟩ := value?_eq_some_iff.1 hy
  have hne : (unitsPerOne : ℚ) ≠ 0 := cast_unitsPerOne_pos.ne'
  refine ⟨s ^^ t, m.units * n.units, unitsPerOne, unitsPerOne_pos, ?_, by rw [mul_eq, mul]⟩
  calc signFactor (s ^^ t) * ((m.units * n.units : ℕ) / unitsPerOne)
      = signFactor s * m.units * (signFactor t * n.units) / unitsPerOne := by
        rw [signFactor_xor, Nat.cast_mul]
        ring
    _ = p * q * unitsPerOne := by
        rw [hm, hn]
        field_simp

/-- **So is a quotient**, if it is not one by zero. -/
theorem isRounding_div (hx : x.value? = some p) (hy : y.value? = some q) (hq : q ≠ 0) :
    IsRounding (x / y) (p / q) := by
  obtain ⟨s, m, rfl, hm⟩ := value?_eq_some_iff.1 hx
  obtain ⟨t, n, rfl, hn⟩ := value?_eq_some_iff.1 hy
  have hne : (unitsPerOne : ℚ) ≠ 0 := cast_unitsPerOne_pos.ne'
  have hunits : (n.units : ℚ) ≠ 0 := by
    intro hzero
    rw [hzero, mul_zero] at hn
    exact mul_ne_zero hq hne hn.symm
  have hzero : n ≠ .zero := by
    rintro rfl
    exact hunits rfl
  refine ⟨s ^^ t, m.units * unitsPerOne, n.units, Nat.pos_of_ne_zero (Nat.cast_ne_zero.1 hunits),
    ?_, by rw [div_eq, div, if_neg hzero]⟩
  calc signFactor (s ^^ t) * ((m.units * unitsPerOne : ℕ) / n.units)
      = signFactor s * m.units * (signFactor t * n.units) * unitsPerOne /
          (n.units * n.units) := by
        rw [signFactor_xor, Nat.cast_mul]
        field_simp
    _ = p * unitsPerOne * (q * unitsPerOne) * unitsPerOne /
          ((q * unitsPerOne) * (q * unitsPerOne)) := by
        have hsq : (n.units : ℚ) * n.units =
            (signFactor t * n.units) * (signFactor t * n.units) := by
          rw [mul_mul_mul_comm, signFactor_mul_self, one_mul]
        rw [hsq, hm, hn]
    _ = p / q * unitsPerOne := by field_simp

/-- No units are rounded to zero. -/
theorem ofUnits_zero (s : Bool) : ofUnits s 0 1 = .finite s .zero := by
  have hnone : 0 = Magnitude.zero.units * 1 := rfl
  have hround := Magnitude.round?_units .zero Nat.one_pos hnone
  unfold ofUnits
  rw [hround]

/-- **So is a sum.** Terms that cancel give one of the zeros. -/
theorem isRounding_add (hx : x.value? = some p) (hy : y.value? = some q) :
    IsRounding (x + y) (p + q) := by
  obtain ⟨s, m, rfl, hm⟩ := value?_eq_some_iff.1 hx
  obtain ⟨t, n, rfl, hn⟩ := value?_eq_some_iff.1 hy
  have hsum : ((signed s m + signed t n : ℤ) : ℚ) = (p + q) * unitsPerOne := by
    rw [Int.cast_add, signed_eq, signed_eq, hm, hn, add_mul]
  rw [add_eq, add]
  generalize signed s m + signed t n = sum at hsum
  by_cases hzero : sum = 0
  · -- A zero of either sign is what zero is rounded to.
    refine ⟨s && t, 0, 1, Nat.one_pos, ?_, by rw [if_pos hzero, ofUnits_zero]⟩
    rw [← hsum, hzero, Nat.cast_zero, zero_div, mul_zero, Int.cast_zero]
  · refine ⟨decide (sum < 0), sum.natAbs, 1, Nat.one_pos, ?_, by rw [if_neg hzero]⟩
    rw [← hsum, Nat.cast_one, div_one]
    rcases lt_or_ge sum 0 with hneg | hpos
    · rw [decide_eq_true hneg, ← Int.cast_natCast, Int.ofNat_natAbs_of_nonpos hneg.le]
      simp [signFactor]
    · rw [decide_eq_false (not_lt.2 hpos), ← Int.cast_natCast, Int.natAbs_of_nonneg hpos]
      simp [signFactor]

/-- A natural number is rounded to a number. -/
theorem isRounding_ofNat (n : ℕ) : IsRounding (ofNat n) n := by
  refine ⟨false, n * unitsPerOne, 1, Nat.one_pos, ?_, rfl⟩
  rw [Nat.cast_one, div_one, Nat.cast_mul, signFactor, if_neg Bool.false_ne_true, one_mul]

/-! ### Operations with a representable result -/

/-- A product that is representable is exact. -/
theorem value?_mul (hx : x.value? = some p) (hy : y.value? = some q)
    (h : Representable (p * q)) : (x * y).value? = some (p * q) := (isRounding_mul hx hy).value? h

/-- So is a quotient. -/
theorem value?_div (hx : x.value? = some p) (hy : y.value? = some q) (hq : q ≠ 0)
    (h : Representable (p / q)) : (x / y).value? = some (p / q) :=
  (isRounding_div hx hy hq).value? h

/-- So is a sum. -/
theorem value?_add (hx : x.value? = some p) (hy : y.value? = some q)
    (h : Representable (p + q)) : (x + y).value? = some (p + q) := (isRounding_add hx hy).value? h

/-- So is a difference. -/
theorem value?_sub (hx : x.value? = some p) (hy : y.value? = some q)
    (h : Representable (p - q)) : (x - y).value? = some (p - q) := by
  rw [sub_eq]
  rw [sub_eq_add_neg] at h ⊢
  exact value?_add hx (value?_neg hy) h

/-- A natural number of 53 bits is exact. -/
theorem value?_ofNat {n : ℕ} (hn : n < 2 * leadingBit) : (ofNat n).value? = some (n : ℚ) := by
  have hrep : Representable (n : ℚ) := by
    have := representable_div_two_pow (n := n) (k := 0) (by rwa [Int.natAbs_natCast]) (by omega)
    rwa [pow_zero, div_one, Int.cast_natCast] at this
  exact (isRounding_ofNat n).value? hrep

/-- So is a literal of 53 bits. -/
theorem value?_literal {n : ℕ} (hn : n < 2 * leadingBit) :
    (no_index (OfNat.ofNat n) : Binary64).value? = some (n : ℚ) := value?_ofNat hn

/-! ### Order -/

/-- Finite numbers are ordered as their values are. -/
theorem lt_iff (hx : x.value? = some p) (hy : y.value? = some q) : lt x y = true ↔ p < q := by
  obtain ⟨s, m, rfl, hm⟩ := value?_eq_some_iff.1 hx
  obtain ⟨t, n, rfl, hn⟩ := value?_eq_some_iff.1 hy
  rw [lt, decide_eq_true_iff, ← mul_lt_mul_iff_of_pos_right cast_unitsPerOne_pos, ← hm, ← hn,
    ← signed_eq, ← signed_eq, Int.cast_lt]

variable {lo hi : Binary64} {a b : ℚ}

/-! ### Ranges -/

/-- Two numbers are the ends of a range of rationals. -/
structure IsRange (lo hi : Binary64) (a b : ℚ) : Prop where
  /-- The value of the lower end. -/
  lo : lo.value? = some a
  /-- The value of the upper end. -/
  hi : hi.value? = some b
  /-- The ends are in order. -/
  le : a ≤ b

/-- The range of a percentage. -/
theorem isRange_percent : IsRange 0 100 0 100 where
  lo := by simpa using value?_literal (n := 0) (by decide)
  hi := by simpa using value?_literal (n := 100) (by decide)
  le := by norm_num

/-- The range of the temperatures that the sensor measures. -/
theorem isRange_celsius : IsRange (-50) 150 (-50) 150 where
  lo := by simpa using value?_neg (value?_literal (n := 50) (by decide))
  hi := by simpa using value?_literal (n := 150) (by decide)
  le := by norm_num

/-- **A number lies in a range exactly when it has a value, and that value does.** So
not-a-number and the infinities lie in none. -/
theorem IsRange.within_iff (h : IsRange lo hi a b) :
    x.within lo hi = true ↔ ∃ q, x.value? = some q ∧ a ≤ q ∧ q ≤ b := by
  rcases x with - | s | ⟨s, m⟩
  · simp [within]
  · obtain ⟨s₁, m₁, rfl, -⟩ := value?_eq_some_iff.1 h.lo
    obtain ⟨s₂, m₂, rfl, -⟩ := value?_eq_some_iff.1 h.hi
    cases s <;> simp [within, lt]
  · obtain ⟨q, hq⟩ := exists_value_finite s m
    have hbelow : lt (.finite s m) lo = false ↔ a ≤ q := by
      rw [← not_lt, ← lt_iff hq h.lo, Bool.not_eq_true]
    have habove : lt hi (.finite s m) = false ↔ q ≤ b := by
      rw [← not_lt, ← lt_iff h.hi hq, Bool.not_eq_true]
    simp [within, hq, hbelow, habove]

/-- Clamping leaves what lies in the range. -/
theorem IsRange.clamp_of_value (h : IsRange lo hi a b) (hx : x.value? = some q) (ha : a ≤ q)
    (hb : q ≤ b) : x.clamp lo hi = x := by
  rw [clamp, if_neg, if_neg]
  · rw [lt_iff h.hi hx]
    exact not_lt.2 hb
  · rw [lt_iff hx h.lo]
    exact not_lt.2 ha

/-! ### Nearest natural numbers -/

/-- The cap of a nearest natural number is never passed. -/
theorem toNatNearest_le (cap : ℕ) (x : Binary64) : x.toNatNearest cap ≤ cap := by
  unfold toNatNearest
  split
  · exact Nat.min_le_left _ _
  · exact le_rfl
  · exact Nat.zero_le _

/-- The nearest natural number of a value. -/
theorem toNatNearest_of_value (hx : x.value? = some q) (cap : ℕ) :
    x.toNatNearest cap = min cap ⌊q + 1 / 2⌋₊ := by
  obtain ⟨s, m, rfl, hm⟩ := value?_eq_some_iff.1 hx
  have hU := cast_unitsPerOne_pos
  cases s with
  | false =>
    rw [signFactor, if_neg Bool.false_ne_true, one_mul] at hm
    have hfloor : q + 1 / 2 = ((2 * m.units + unitsPerOne : ℕ) : ℚ) / (2 * unitsPerOne : ℕ) := by
      push_cast
      rw [hm]
      field_simp
    rw [toNatNearest, hfloor, Nat.floor_div_eq_div]
  | true =>
    -- A negative sign leaves at most zero.
    rw [signFactor, if_pos rfl, neg_one_mul] at hm
    have hnonpos : q ≤ 0 := by
      have hunits : (0 : ℚ) ≤ m.units := Nat.cast_nonneg _
      have hmul : q * unitsPerOne ≤ 0 := by linarith
      exact nonpos_of_mul_nonpos_left hmul hU
    have hfloor : ⌊q + 1 / 2⌋₊ = 0 := Nat.floor_eq_zero.2 (by linarith)
    rw [hfloor, Nat.min_zero]
    rfl

/-- A whole number within the cap is its own nearest. -/
theorem toNatNearest_of_natCast {n cap : ℕ} (hx : x.value? = some (n : ℚ)) (hn : n ≤ cap) :
    x.toNatNearest cap = n := by
  have hfloor : ⌊(n : ℚ) + 1 / 2⌋₊ = n := by
    rw [Nat.floor_eq_iff (by positivity)]
    constructor <;> linarith
  rw [toNatNearest_of_value hx, hfloor, min_eq_right hn]

end Binary64
end Hygrometer
