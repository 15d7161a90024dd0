import Mathlib.Algebra.CharP.Two
import Mathlib.Algebra.Field.ZMod
import Mathlib.Algebra.Polynomial.Div
import Mathlib.Data.ZMod.Basic
import Mathlib.Tactic.ComputeDegree
import Mathlib.Tactic.LinearCombination
import Hygrometer.Proofs.Checksum.Linear

/-!
# The checksum is a remainder

Bits are the coefficients of a polynomial over the field of two elements, that of the greatest power
first (`polynomialOf`). A shift of the register multiplies its polynomial by `X` modulo the
generator (`dvd_shift`), so after every bit the register holds the remainder of the bits so far,
each counted eight powers higher (`dvd_residue`). There is no room for more in it, which makes the
remainder the one that division by the generator gives (`octetPolynomial_residue`).

**Why polynomials.** The register is defined by shifts, and nothing about it says that these are a
division. Stated with the polynomials of the library, the checksum is what its name promises, for
texts of any length: the generator is monic of degree eight, and the remainder is unique. The
arithmetic of octets turns into that of polynomials by two facts, that exclusive or is addition
(`octetPolynomial_xor`), and that a shift is multiplication but for the bit that leaves the register
(`X_mul_octetPolynomial`).

A register that starts with ones instead of zeros inverts the first eight bits of a text
(`crc8_eq_residue`). This needs a first octet, so the empty text stands apart: its checksum is the
register as it starts.
-/

namespace Hygrometer.Checksum

open Polynomial

/-! ### Bits as coefficients -/

/-- The polynomial of bits, the first of which belongs to the greatest power. -/
noncomputable def polynomialOf : List Bool → (ZMod 2)[X]
  | [] => 0
  | bit :: bits => C (bit.toNat : ZMod 2) * X ^ bits.length + polynomialOf bits

/-- The polynomial of an octet. -/
noncomputable def octetPolynomial (octet : UInt8) : (ZMod 2)[X] := polynomialOf (octetBits octet)

/-- The generator with its leading term. -/
noncomputable def generatorPolynomial : (ZMod 2)[X] := X ^ 8 + X ^ 5 + X ^ 4 + 1

theorem coeff_polynomialOf (bits : List Bool) (i : ℕ) :
    (polynomialOf bits).coeff i = if bits.reverse[i]? = some true then 1 else 0 := by
  induction bits with
  | nil => simp [polynomialOf]
  | cons bit bits ih =>
    rw [polynomialOf, coeff_add, coeff_C_mul_X_pow, ih, List.reverse_cons, List.getElem?_append,
      List.length_reverse]
    rcases Nat.lt_trichotomy i bits.length with hlt | rfl | hgt
    · rw [if_neg hlt.ne, if_pos hlt, zero_add]
    · cases bit <;> simp
    · have hsome : bits.reverse[i]? = none := by simp [hgt.le]
      have hrest : [bit][i - bits.length]? = none := by simp; omega
      rw [if_neg hgt.ne', if_neg hgt.not_gt, hsome, hrest, zero_add]

theorem degree_polynomialOf_lt (bits : List Bool) : (polynomialOf bits).degree < bits.length := by
  rw [degree_lt_iff_coeff_zero]
  intro i hi
  rw [coeff_polynomialOf, List.getElem?_eq_none (by rwa [List.length_reverse]), if_neg nofun]

/-- Another bit counts for one, and those before it for one power more. -/
theorem polynomialOf_concat (bits : List Bool) (bit : Bool) :
    polynomialOf (bits ++ [bit]) = X * polynomialOf bits + C (bit.toNat : ZMod 2) := by
  induction bits with
  | nil => simp [polynomialOf]
  | cons first bits ih =>
    rw [List.cons_append, polynomialOf, ih, polynomialOf, List.length_append, List.length_singleton]
    ring

/-- Bits are added without carry. -/
theorem polynomialOf_zipWith_xor {xs ys : List Bool} (h : xs.length = ys.length) :
    polynomialOf (List.zipWith (· ^^ ·) xs ys) = polynomialOf xs + polynomialOf ys := by
  induction xs generalizing ys with
  | nil =>
    obtain rfl : ys = [] := List.length_eq_zero_iff.1 h.symm
    exact (add_zero 0).symm
  | cons x xs ih =>
    cases ys with
    | nil => cases h
    | cons y ys =>
      have hlength : xs.length = ys.length := Nat.succ.inj h
      have hbit : ((x ^^ y).toNat : ZMod 2) = x.toNat + y.toNat := by
        cases x <;> cases y <;> decide
      rw [List.zipWith_cons_cons, polynomialOf, ih hlength, List.length_zipWith, hlength,
        Nat.min_self, hbit, C_add, polynomialOf, polynomialOf, hlength]
      ring

/-! ### Octets -/

theorem octetPolynomial_xor (a b : UInt8) :
    octetPolynomial (a ^^^ b) = octetPolynomial a + octetPolynomial b := by
  rw [octetPolynomial, octetBits_xor, polynomialOf_zipWith_xor (by simp)]
  rfl

theorem octetPolynomial_ifSet (bit : Bool) (octet : UInt8) :
    octetPolynomial (ifSet bit octet) = C (bit.toNat : ZMod 2) * octetPolynomial octet := by
  cases bit with
  | false =>
    have hzero : octetBits 0 = List.replicate 8 false := by decide
    rw [ifSet_false, octetPolynomial, hzero]
    simp [polynomialOf]
  | true => simp

/-- Shifting an octet out multiplies it by `X`, but for the bit that leaves it. -/
theorem X_mul_octetPolynomial (octet : UInt8) : X * octetPolynomial octet =
    C ((isTop octet).toNat : ZMod 2) * X ^ 8 + octetPolynomial (shiftOut octet) := by
  obtain ⟨low, hoctet, hshifted⟩ := exists_octetBits_shiftOut octet
  have hlength : low.length = 7 := by
    have hbits := congrArg List.length hoctet
    rw [length_octetBits, List.length_cons] at hbits
    exact (Nat.succ.inj hbits).symm
  rw [octetPolynomial, octetPolynomial, hoctet, hshifted, polynomialOf, polynomialOf_concat,
    hlength, Bool.toNat_false, Nat.cast_zero, C_0, add_zero]
  ring

theorem octetPolynomial_generator : octetPolynomial generator = X ^ 5 + X ^ 4 + 1 := by
  have hbits : octetBits generator = [false, false, true, true, false, false, false, true] := by
    decide
  rw [octetPolynomial, hbits]
  simp [polynomialOf, add_assoc]

theorem octetPolynomial_top : octetPolynomial 0x80 = X ^ 7 := by
  have hbits : octetBits 0x80 = true :: List.replicate 7 false := by decide
  rw [octetPolynomial, hbits]
  simp [polynomialOf]

/-! ### Remainders -/

theorem degree_generatorPolynomial : generatorPolynomial.degree = 8 := by
  rw [generatorPolynomial]
  compute_degree!

theorem monic_generatorPolynomial : generatorPolynomial.Monic := by
  rw [generatorPolynomial]
  monicity!

/-- **A shift multiplies by `X`**, modulo the generator. -/
theorem dvd_shift (register : UInt8) :
    generatorPolynomial ∣ X * octetPolynomial register - octetPolynomial (shift register) := by
  refine ⟨C ((isTop register).toNat : ZMod 2), ?_⟩
  rw [X_mul_octetPolynomial, shift_eq, octetPolynomial_xor, octetPolynomial_ifSet,
    octetPolynomial_generator, generatorPolynomial, shiftOut, CharTwo.sub_eq_add]
  -- Without carries, what is added twice is gone.
  have htwice := CharTwo.add_self_eq_zero (octetPolynomial (register <<< 1))
  linear_combination htwice

/-- **The register holds a remainder** of the bits taken into it, eight powers higher. -/
theorem dvd_residue (bits : List Bool) :
    generatorPolynomial ∣ X ^ 8 * polynomialOf bits - octetPolynomial (residue bits) := by
  induction bits using List.reverseRecOn with
  | nil =>
    have hnone : octetPolynomial (residue []) = 0 := by
      rw [show residue [] = ifSet false 0 from rfl, octetPolynomial_ifSet]
      simp
    rw [hnone, polynomialOf, mul_zero, sub_zero]
    exact dvd_zero _
  | append_singleton bits bit ih =>
    have hshift := dvd_shift (residue bits ^^^ ifSet bit 0x80)
    rw [octetPolynomial_xor, octetPolynomial_ifSet, octetPolynomial_top] at hshift
    have hsum := dvd_add (Dvd.dvd.mul_left ih X) hshift
    rw [residue_concat, push, polynomialOf_concat]
    convert hsum using 1
    ring

/-- It has no room for more, so it is the remainder of division. -/
theorem octetPolynomial_residue (bits : List Bool) :
    octetPolynomial (residue bits) = X ^ 8 * polynomialOf bits %ₘ generatorPolynomial := by
  have hdegree : (octetPolynomial (residue bits)).degree < generatorPolynomial.degree := by
    rw [degree_generatorPolynomial]
    exact (degree_polynomialOf_lt _).trans_eq (by rw [length_octetBits]; rfl)
  rw [modByMonic_eq_of_dvd_sub monic_generatorPolynomial (dvd_residue bits),
    (modByMonic_eq_self_iff monic_generatorPolynomial).2 hdegree]

/-! ### Texts -/

/-- Bits with the first eight of them inverted. -/
def invertFirst (bits : List Bool) : List Bool := (bits.take 8).map (!·) ++ bits.drop 8

theorem octetBits_ones_xor (octet : UInt8) :
    octetBits (0xFF ^^^ octet) = (octetBits octet).map (!·) := by
  have hones : octetBits 0xFF = (octetBits octet).map fun _ ↦ true := by
    rw [List.map_const', length_octetBits]
    decide
  rw [octetBits_xor, hones, List.zipWith_map_left, List.zipWith_self]
  exact List.map_congr_left fun bit _ ↦ Bool.true_xor bit

/-- A register of ones inverts the first octet. -/
theorem crc8_eq_residue {octets : List UInt8} (h : octets ≠ []) :
    crc8 octets = residue (invertFirst (bits octets)) := by
  obtain ⟨octet, octets, rfl⟩ := List.exists_cons_of_ne_nil h
  have hfirst : absorb 0xFF octet = absorb 0 (0xFF ^^^ octet) := by
    rw [absorb, absorb, UInt8.zero_xor]
  rw [crc8, List.foldl_cons, hfirst, ← List.foldl_cons, foldl_absorb_zero, bits_cons, bits_cons,
    octetBits_ones_xor, invertFirst, List.take_left' (length_octetBits octet),
    List.drop_left' (length_octetBits octet)]

/-- **The checksum is a remainder**: that of the text's polynomial, with the first eight bits
inverted, eight powers higher, after division by the generator. A text without octets has no bits to
invert, and its checksum is the register of ones. So an octet behind a text brings the checksum to
zero exactly if it is the checksum of the text. -/
theorem octetPolynomial_crc8 :
    (∀ octets : List UInt8, octets ≠ [] → octetPolynomial (crc8 octets) =
      X ^ 8 * polynomialOf (invertFirst (bits octets)) %ₘ generatorPolynomial) ∧
    crc8 [] = 0xFF ∧
    ∀ (octets : List UInt8) (octet : UInt8),
      crc8 (octets ++ [octet]) = 0 ↔ octet = crc8 octets := by
  refine ⟨fun octets h ↦ ?_, rfl, fun octets octet ↦ crc8_concat_eq_zero_iff⟩
  rw [crc8_eq_residue h, octetPolynomial_residue]

/-- The nine digits, as characters, leave `0xF7`. -/
theorem octetPolynomial_crc8_digits :
    let digits : List UInt8 := [0x31, 0x32, 0x33, 0x34, 0x35, 0x36, 0x37, 0x38, 0x39]
    digits ≠ [] ∧
      octetPolynomial 0xF7 =
        X ^ 8 * polynomialOf (invertFirst (bits digits)) %ₘ generatorPolynomial ∧
      crc8 (digits ++ [0xF7]) = 0 := by
  intro digits
  obtain ⟨hremainder, -, hlast⟩ := octetPolynomial_crc8
  have hne : digits ≠ [] := by decide
  have hcrc : crc8 digits = 0xF7 := by decide +kernel
  refine ⟨hne, ?_, (hlast digits 0xF7).2 hcrc.symm⟩
  rw [← hcrc]
  exact hremainder digits hne

end Hygrometer.Checksum
