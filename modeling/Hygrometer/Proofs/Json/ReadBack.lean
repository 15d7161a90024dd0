import Hygrometer.Proofs.Json.Number

/-!
# How far reading back moves a number

The shortest decimal of a number reads back as the number itself when it is rounded once. Reading
rounds twice or three times, and a number comes back as one of its neighbours, at most two codes
away (`exists_readNumber?`). How many it may be, is the **slack** of its decimal: none for a short
significand and a small power of ten, as whole numbers have it, and one for a small power alone, as
the fractions have it that a sensor counts.

**Distances are counted in codes** (`Binary64.IsClose`), that is in steps from one number to the
next one. They say what is wanted without a size: two numbers at distance zero are the same number
(`IsClose.eq`), and signs and zeros are kept.

**Near the end of the range** a drift of two codes could lead out of it. The decimals of the
greatest numbers are therefore looked at one by one, and all of them are read as the greatest number
itself (`scaled?_readFor_of_le`), which is within the bound.

**Less slack** comes from facts about the number and not about its decimal, which nobody wants to
compute. A number of limited size has a decimal with a small exponent (`exp_shortest_lt`), and one
with few decimal places has a shortest decimal with no more of them (`le_exp_shortest`). With both,
a whole number of 49 bits has no slack at all (`slackOf_eq_zero`). What is known of a number that
was read back is put together in `IsReread`.
-/

namespace Hygrometer

open Binary64 (unitsPerOne infinityCode)
open Magnitude (AreClose IsNearest unitsAt)

/-! ### Close numbers -/

/-- Two finite numbers of the same sign have codes that are at most `n` apart. -/
def Binary64.IsClose (n : ℕ) (x y : Binary64) : Prop :=
  ∃ s m k, x = .finite s m ∧ y = .finite s k ∧ AreClose n m.code k.code

theorem Binary64.IsClose.mono {i j : ℕ} {x y : Binary64} (h : x.IsClose i y) (hij : i ≤ j) :
    x.IsClose j y := by
  obtain ⟨s, m, k, hm, hk, hclose⟩ := h
  exact ⟨s, m, k, hm, hk, hclose.mono hij⟩

/-- What is not apart is the same. -/
theorem Binary64.IsClose.eq {x y : Binary64} (h : x.IsClose 0 y) : y = x := by
  obtain ⟨s, m, k, rfl, rfl, hclose⟩ := h
  rw [Magnitude.code_inj hclose.eq]

namespace Json

variable {m : Magnitude} {x : Binary64} {q : ℚ}

/-- How many codes a number may be moved by reading it back. -/
def slackOf : Binary64 → ℕ
  | .finite _ m => slack (readFor m).digits (readFor m).exp
  | _ => 0

/-! ### Reading back -/

/-- The greatest magnitude. -/
def largest : Magnitude := ⟨2 * leadingBit - 1, 2045, by decide, by decide, .inr (by decide)⟩

/-- **Next to infinity**, the two greatest magnitudes are both read as the greatest. -/
theorem scaled?_readFor_of_le (h : infinityCode ≤ m.code + 2) :
    scaled? (readFor m).digits (readFor m).exp = some (.finite false largest) ∧
      slack (readFor m).digits (readFor m).exp = 2 := by
  have hlt := m.code_lt
  have hcases : m.code = infinityCode - 1 ∨ m.code = infinityCode - 2 := by
    generalize infinityCode = top at *
    omega
  rcases hcases with hm | hm
  · obtain rfl : m = largest := Magnitude.code_inj (hm.trans (by decide))
    decide +kernel
  · obtain rfl : m = ⟨2 * leadingBit - 2, 2045, by decide, by decide, .inr (by decide)⟩ :=
      Magnitude.code_inj (hm.trans (by decide))
    decide +kernel

theorem code_largest : largest.code = infinityCode - 1 := by decide

theorem exists_scaled?_readFor (m : Magnitude) :
    ∃ k, scaled? (readFor m).digits (readFor m).exp = some (.finite false k) ∧
      AreClose (slack (readFor m).digits (readFor m).exp) m.code k.code := by
  by_cases hm : m = .zero
  · subst hm
    exact ⟨.zero, by decide +kernel, .refl _ _⟩
  rcases Nat.lt_or_ge (m.code + 2) infinityCode with hlt | hle
  · have hshort := Decimal.isNearest_shortest .even hm
    rw [← value_reread, Decimal.value] at hshort
    obtain ⟨hlow, hhigh, -⟩ := Decimal.shortest_spec .even hm
    have hpos := digits_reread_pos (Decimal.shortest_digits_pos .even hm)
    have hexp : -324 ≤ (readFor m).exp ∧ (readFor m).exp ≤ 308 := by
      rw [readFor, exp_reread]
      split <;> omega
    exact exists_scaled? hpos (digits_reread_lt (digits_shortest_lt m)) hexp.1 hexp.2 hshort hlt
  · obtain ⟨hscaled, hslack⟩ := scaled?_readFor_of_le hle
    have hcode := m.code_lt
    refine ⟨largest, hscaled, ?_⟩
    rw [hslack, AreClose, code_largest]
    generalize infinityCode = top at *
    omega

/-- **A number is read back as one close to it**, whatever follows it. -/
theorem exists_readNumber? (hx : x.isFinite = true) :
    ∃ y, x.IsClose (slackOf x) y ∧ ∀ rest, Follows rest →
      readNumber? ((writeNumber x).toList ++ rest) = some (.real y, rest) := by
  rcases x with - | s | ⟨s, m⟩
  · cases hx
  · cases hx
  · obtain ⟨k, hscaled, hclose⟩ := exists_scaled?_readFor m
    refine ⟨.finite s k, ⟨s, m, k, rfl, rfl, hclose⟩, fun rest hrest ↦ ?_⟩
    rw [readNumber?_writeNumber s m hrest, hscaled]
    cases s <;> rfl

/-- No number comes back further away than two codes. -/
theorem slackOf_le_two (x : Binary64) : slackOf x ≤ 2 := by
  rcases x with - | s | ⟨s, m⟩
  · exact Nat.zero_le _
  · exact Nat.zero_le _
  · exact slack_le_two _ _

/-- Two codes are reached from `1.1918819131406247e-7`. -/
example : (readNumber? (writeNumber (.finite false
    ⟨9005605117046137, 998, by decide, by decide, .inr (by decide)⟩)).toList).map (·.1) =
    some (.real (.finite false
      ⟨9005605117046139, 998, by decide, by decide, .inr (by decide)⟩)) := by
  decide +kernel

/-! ### Numbers with less slack -/

theorem units_eq_of_value {s : Bool} (h : (Binary64.finite s m).value? = some q) :
    (m.units : ℚ) = |q| * unitsPerOne := by
  obtain ⟨s', m', heq, hunits⟩ := Binary64.value?_eq_some_iff.1 h
  obtain ⟨rfl, rfl⟩ := Binary64.finite.inj heq
  rw [← abs_of_pos Binary64.cast_unitsPerOne_pos, ← abs_mul, ← hunits, abs_mul,
    Binary64.abs_signFactor, one_mul, abs_of_nonneg (Nat.cast_nonneg _)]

/-- A magnitude below a power of two has a shortest decimal below it. -/
theorem value_shortest_lt {k : ℕ} (hm : m ≠ .zero) (h : (m.units : ℚ) < 2 ^ k * unitsPerOne) :
    (Decimal.shortest .even m).value < 2 ^ k := by
  by_contra hle
  rw [not_lt] at hle
  have hcode : (k + 1023) * leadingBit ≤ m.code := by
    refine (Magnitude.isNearest_unitsAt _).le_of_le (Decimal.isNearest_shortest .even hm) ?_
    rw [Binary64.unitsAt_of_two_pow]
    exact mul_le_mul_of_nonneg_right hle Binary64.cast_unitsPerOne_pos.le
  have hunits : (unitsAt ((k + 1023) * leadingBit) : ℚ) ≤ unitsAt m.code :=
    Nat.cast_le.2 (Magnitude.strictMono_unitsAt.monotone hcode)
  rw [Binary64.unitsAt_of_two_pow, Magnitude.unitsAt_code] at hunits
  linarith

/-- The power of ten is no greater than the decimal. -/
theorem exp_shortest_lt {k n : ℕ} (hm : m ≠ .zero) (h : (m.units : ℚ) < 2 ^ k * unitsPerOne)
    (hn : (2 : ℚ) ^ k ≤ 10 ^ n) : (Decimal.shortest .even m).exp < n := by
  by_contra hle
  rw [not_lt] at hle
  have hone : (1 : ℚ) ≤ (Decimal.shortest .even m).digits :=
    Nat.one_le_cast.2 (Decimal.shortest_digits_pos .even hm)
  have hpow : (10 : ℚ) ^ n ≤ 10 ^ (Decimal.shortest .even m).exp := by
    rw [← zpow_natCast]
    exact zpow_le_zpow_right₀ (by norm_num) hle
  have hvalue := value_shortest_lt hm h
  rw [Decimal.value] at hvalue
  have hmul := le_mul_of_one_le_left (zpow_nonneg (by norm_num) _ :
    (0 : ℚ) ≤ 10 ^ (Decimal.shortest .even m).exp) hone
  linarith

/-- A magnitude on a grid has a shortest decimal on one as coarse. -/
theorem le_exp_shortest {n : ℕ} {e : ℤ} (hm : m ≠ .zero) (he : e ≤ 308)
    (h : (m.units : ℚ) = n * 10 ^ e * unitsPerOne) : e ≤ (Decimal.shortest .even m).exp := by
  have hn : 0 < n := by
    refine Nat.pos_of_ne_zero ?_
    rintro rfl
    rw [Nat.cast_zero, zero_mul, zero_mul, Nat.cast_eq_zero, ← Magnitude.unitsAt_code] at h
    exact hm (Magnitude.code_inj (Magnitude.strictMono_unitsAt.injective h))
  refine Decimal.le_shortest_exp .even hm hn he ?_
  rw [← h, ← Magnitude.unitsAt_code]
  exact Magnitude.isNearest_unitsAt _

theorem slackOf_zero (s : Bool) : slackOf (.finite s .zero) = 0 := by
  cases s <;> decide

/-- **A number with at most 22 decimal places** that is not huge comes back as itself or as a
neighbour. -/
theorem slackOf_le_one {n : ℕ} (hx : x.value? = some q) (hq : |q| < 2 ^ 73)
    (hn : |q| = n * 10 ^ (-22 : ℤ)) : slackOf x ≤ 1 := by
  obtain ⟨s, m, rfl, -⟩ := Binary64.value?_eq_some_iff.1 hx
  have hunits := units_eq_of_value hx
  by_cases hm : m = .zero
  · subst hm
    exact (slackOf_zero s).le.trans zero_le_one
  · have hlt : (m.units : ℚ) < 2 ^ 73 * unitsPerOne := by
      rw [hunits]
      exact mul_lt_mul_of_pos_right hq Binary64.cast_unitsPerOne_pos
    have hhigh := exp_shortest_lt (n := 22) hm hlt (by norm_num)
    have hlow : -22 ≤ (Decimal.shortest .even m).exp :=
      le_exp_shortest (n := n) hm (by decide) (by rw [hunits, hn])
    have hexp : (readFor m).exp.natAbs ≤ 22 := by
      rw [readFor, exp_reread]
      split <;> omega
    rw [slackOf, slack, if_pos hexp]
    split <;> decide

/-- **A whole number of 49 bits** comes back as itself. -/
theorem slackOf_eq_zero {n : ℕ} (hx : x.value? = some q) (hq : |q| = n) (hn : n < 2 ^ 49) :
    slackOf x = 0 := by
  obtain ⟨s, m, rfl, -⟩ := Binary64.value?_eq_some_iff.1 hx
  have hunits := units_eq_of_value hx
  rw [hq] at hunits
  by_cases hm : m = .zero
  · subst hm
    exact slackOf_zero s
  · have hlt : (m.units : ℚ) < 2 ^ 49 * unitsPerOne := by
      rw [hunits]
      exact mul_lt_mul_of_pos_right (by exact_mod_cast hn) Binary64.cast_unitsPerOne_pos
    have hhigh := exp_shortest_lt (n := 15) hm hlt (by norm_num)
    have hlow : 0 ≤ (Decimal.shortest .even m).exp :=
      le_exp_shortest (n := n) hm (by decide) (by rw [hunits, zpow_zero, mul_one])
    -- The decimal is a whole number of 49 bits, and one place more leaves it at 53.
    have hvalue := value_shortest_lt hm hlt
    obtain ⟨k, hk⟩ := Int.eq_ofNat_of_zero_le hlow
    rw [Decimal.value, hk, zpow_natCast] at hvalue
    have hwhole : (Decimal.shortest .even m).digits * 10 ^ k < 2 ^ 49 := by exact_mod_cast hvalue
    have hread : (readFor m).digits < 2 * leadingBit ∧ (readFor m).exp.natAbs ≤ 22 := by
      rw [readFor, reread]
      split
      · have hplace : (Decimal.shortest .even m).digits * 10 ^ (k + 1) < 2 * leadingBit := by
          rw [pow_succ, ← mul_assoc, leadingBit]
          omega
        rw [hk]
        exact ⟨hplace, (by decide : (-1 : ℤ).natAbs ≤ 22)⟩
      · refine ⟨?_, by omega⟩
        have hle := Nat.le_mul_of_pos_right (Decimal.shortest .even m).digits
          (Nat.pow_pos (n := k) (by decide : 0 < 10))
        rw [leadingBit]
        omega
    rw [slackOf, slack, if_pos hread.2, if_pos hread.1]

/-- **What a number is read back as**: one at most two codes away; at most one, if it has no more
than 22 decimal places and is not huge; and itself, if it is a whole number of 49 bits. -/
structure IsReread (x y : Binary64) : Prop where
  /-- Two codes at most. -/
  close : x.IsClose 2 y
  /-- One code at most, with few decimal places. -/
  close_of_places : ∀ (q : ℚ) (n : ℕ), x.value? = some q → |q| < 2 ^ 73 →
    |q| = n * 10 ^ (-22 : ℤ) → x.IsClose 1 y
  /-- None, for whole numbers. -/
  eq_of_whole : ∀ (q : ℚ) (n : ℕ), x.value? = some q → |q| = n → n < 2 ^ 49 → y = x

theorem isReread_of_isClose {y : Binary64} (h : x.IsClose (slackOf x) y) : IsReread x y where
  close := h.mono (slackOf_le_two x)
  close_of_places _ _ hx hq hn := h.mono (slackOf_le_one hx hq hn)
  eq_of_whole _ _ hx hq hn := (h.mono (slackOf_eq_zero hx hq hn).le).eq

end Json
end Hygrometer
