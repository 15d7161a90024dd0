import Hygrometer.Proofs.Binary64.Exact

/-!
# The error of rounding

A number that is not representable is moved by rounding, but by no more than half of a unit in the
last place. Which place is the last one, is fixed by the leading bit of the number: at most 53 bits
are left for the coefficient, and no fewer unless the place is the least of all (`le_of_lastPlace`,
`lastPlace_eq_zero_or`). An operation whose exact result is at most `2 ^ k` in size therefore gives
a number that is at most `2 ^ k / 2 ^ 53` away from it (`IsRounding.exists_value?`).

**The steps are those of the definition.** A quotient of naturals is rounded to the nearest natural
(`abs_nearestEven_sub_le`), at the last place (`abs_units_sub_le`), and what comes out is packed
into a magnitude (`exists_round?`). Packing is where a bit may be carried: a coefficient that was
rounded up to the next power of two has its place moved by one, and stays the same number of units.

The bound is stated for a power of two that is at least as large as the result, since this is what
is known of a result before it is computed. With a bound on every intermediate result, the errors of
a formula with several operations are added up. A number that is close to a natural is then not far
from it after it has been rounded to a natural itself (`abs_toNatNearest_sub_le`), which is the last
step of every conversion to a code.
-/

namespace Hygrometer

/-! ### The nearest natural number -/

theorem le_nearestEven {num den k : ℕ} (hden : 0 < den) (h : k * den ≤ num) :
    k ≤ nearestEven num den := by
  have hq : k ≤ num / den := (Nat.le_div_iff_mul_le hden).2 h
  simp only [nearestEven]
  split
  · exact hq
  · exact hq.trans (Nat.le_succ _)

theorem nearestEven_le {num den k : ℕ} (hden : 0 < den) (h : num ≤ k * den) :
    nearestEven num den ≤ k := by
  rcases h.eq_or_lt with heq | hlt
  · exact (Magnitude.nearestEven_of_dvd k hden heq).le
  · have hq : num / den < k := (Nat.div_lt_iff_lt_mul hden).2 hlt
    simp only [nearestEven]
    split
    · exact hq.le
    · exact hq

/-- The nearest natural number is at most one half away. -/
theorem abs_nearestEven_sub_le {num den : ℕ} (hden : 0 < den) :
    |(nearestEven num den : ℚ) - num / den| ≤ 1 / 2 := by
  have hden' : (0 : ℚ) < den := Nat.cast_pos.2 hden
  have hsplit : (num : ℚ) / den = (num / den : ℕ) + ((num % den : ℕ) : ℚ) / den := by
    have hnum : ((den * (num / den) + num % den : ℕ) : ℚ) = num := by rw [Nat.div_add_mod]
    rw [← hnum, Nat.cast_add, Nat.cast_mul, add_div, mul_div_cancel_left₀ _ hden'.ne']
  rw [hsplit, nearestEven]
  have hmod : num % den < den := Nat.mod_lt num hden
  have hlt : ((num % den : ℕ) : ℚ) / den < 1 := (div_lt_one hden').2 (Nat.cast_lt.2 hmod)
  split
  · next hdown =>
    have hle : ((num % den : ℕ) : ℚ) / den ≤ 1 / 2 := by
      rw [div_le_div_iff₀ hden' two_pos]
      exact_mod_cast (by omega : num % den * 2 ≤ 1 * den)
    have hpos : (0 : ℚ) ≤ ((num % den : ℕ) : ℚ) / den := by positivity
    rw [abs_le]
    constructor <;> linarith
  · next hup =>
    have hge : 1 / 2 ≤ ((num % den : ℕ) : ℚ) / den := by
      rw [div_le_div_iff₀ two_pos hden']
      exact_mod_cast (by omega : 1 * den ≤ num % den * 2)
    rw [Nat.cast_succ, abs_le]
    constructor <;> linarith

namespace Magnitude

/-! ### The last place -/

/-- The exponent of the last place that a quotient keeps when it is rounded. -/
def lastPlace (num den : ℕ) : ℕ := Nat.log2 (num / den) - 52

variable {num den : ℕ}

/-- The coefficient has at most 53 bits. -/
theorem le_of_lastPlace (hden : 0 < den) :
    num ≤ 2 * leadingBit * (den * Nat.pow 2 (lastPlace num den)) := by
  have hlog : num / den < 2 ^ (Nat.log2 (num / den) + 1) := Nat.lt_log2_self
  have hpow : 2 ^ (Nat.log2 (num / den) + 1) ≤ 2 * leadingBit * Nat.pow 2 (lastPlace num den) := by
    calc 2 ^ (Nat.log2 (num / den) + 1) ≤ 2 ^ (53 + lastPlace num den) :=
          Nat.pow_le_pow_right (by decide) (by rw [lastPlace]; omega)
      _ = 2 * leadingBit * Nat.pow 2 (lastPlace num den) := by
          rw [pow_add]
          rfl
  calc num ≤ 2 * leadingBit * Nat.pow 2 (lastPlace num den) * den :=
        ((Nat.div_lt_iff_lt_mul hden).1 (hlog.trans_le hpow)).le
    _ = 2 * leadingBit * (den * Nat.pow 2 (lastPlace num den)) := by ring

/-- Unless its place is the least, the coefficient has all its 53 bits. -/
theorem lastPlace_eq_zero_or (hden : 0 < den) :
    lastPlace num den = 0 ∨ leadingBit * (den * Nat.pow 2 (lastPlace num den)) ≤ num := by
  by_cases hplace : lastPlace num den = 0
  · exact .inl hplace
  · have hlog : 52 + lastPlace num den = Nat.log2 (num / den) := by
      rw [lastPlace] at hplace ⊢
      omega
    have hne : num / den ≠ 0 := by
      intro hzero
      rw [lastPlace, hzero] at hplace
      exact hplace rfl
    have hle : leadingBit * Nat.pow 2 (lastPlace num den) ≤ num / den := by
      calc leadingBit * Nat.pow 2 (lastPlace num den) = 2 ^ (52 + lastPlace num den) :=
            (pow_add 2 52 _).symm
        _ = 2 ^ Nat.log2 (num / den) := by rw [hlog]
        _ ≤ num / den := Nat.log2_self_le hne
    refine .inr ?_
    calc leadingBit * (den * Nat.pow 2 (lastPlace num den)) =
          leadingBit * Nat.pow 2 (lastPlace num den) * den := by ring
      _ ≤ num := (Nat.le_div_iff_mul_le hden).1 hle

/-- A quotient of at most `k` bits has its last place 52 before the first of them. -/
theorem lastPlace_le {k : ℕ} (hden : 0 < den) (h : num ≤ 2 ^ k * den) :
    lastPlace num den ≤ k - 52 := by
  have hle : num / den ≤ 2 ^ k := (Nat.div_le_iff_le_mul hden).2 (by omega)
  have hlog : Nat.log2 (num / den) ≤ k := by
    by_cases hzero : num / den = 0
    · rw [hzero]
      exact Nat.zero_le k
    · refine Nat.lt_succ_iff.1 ((Nat.log2_lt hzero).2 (hle.trans_lt ?_))
      exact Nat.pow_lt_pow_right (by decide) (Nat.lt_succ_self k)
  exact Nat.sub_le_sub_right hlog 52

theorem exists_ofParts? {coeff exp : ℕ} (hcoeff : coeff < 2 * leadingBit) (hexp : exp ≤ 2045)
    (h : exp = 0 ∨ leadingBit ≤ coeff) :
    ∃ m, ofParts? coeff exp = some m ∧ m.units = coeff * Nat.pow 2 exp :=
  ⟨⟨coeff, exp, hcoeff, hexp, h⟩, dif_pos ⟨hcoeff, hexp, h⟩, rfl⟩

/-- A quotient whose last place is in range is rounded to the nearest multiple of that place. -/
theorem exists_round? (hden : 0 < den) (h : lastPlace num den ≤ 2044) :
    ∃ m, round? num den = some m ∧
      m.units = nearestEven num (den * Nat.pow 2 (lastPlace num den)) *
        Nat.pow 2 (lastPlace num den) := by
  have hscale : 0 < den * Nat.pow 2 (lastPlace num den) :=
    Nat.mul_pos hden (Nat.pow_pos (by decide))
  have hhigh := nearestEven_le hscale (le_of_lastPlace hden)
  have hlow : lastPlace num den = 0 ∨
      leadingBit ≤ nearestEven num (den * Nat.pow 2 (lastPlace num den)) :=
    (lastPlace_eq_zero_or hden).imp_right (le_nearestEven hscale)
  have hround : round? num den =
      if nearestEven num (den * Nat.pow 2 (lastPlace num den)) = 2 * leadingBit then
        ofParts? leadingBit (lastPlace num den + 1)
      else
        ofParts? (nearestEven num (den * Nat.pow 2 (lastPlace num den))) (lastPlace num den) := rfl
  rw [hround]
  generalize nearestEven num (den * Nat.pow 2 (lastPlace num den)) = coeff at hhigh hlow
  split
  · next hfull =>
    -- The rounding carries out of 53 bits, and the place is one higher.
    obtain ⟨m, hm, hunits⟩ := exists_ofParts? (show leadingBit < 2 * leadingBit by decide)
      (show lastPlace num den + 1 ≤ 2045 by omega) (.inr le_rfl)
    refine ⟨m, hm, hunits.trans ?_⟩
    calc leadingBit * (2 ^ lastPlace num den * 2) = 2 * leadingBit * 2 ^ lastPlace num den := by
          ring
      _ = coeff * 2 ^ lastPlace num den := by rw [hfull]
  · next hfull => exact exists_ofParts? (hhigh.lt_of_ne hfull) (by omega) hlow

/-- **Rounding moves a quotient by at most half of a unit in the last place.** -/
theorem abs_units_sub_le (hden : 0 < den) {m : Magnitude}
    (h : m.units = nearestEven num (den * Nat.pow 2 (lastPlace num den)) *
      Nat.pow 2 (lastPlace num den)) :
    |(m.units : ℚ) - num / den| ≤ 2 ^ lastPlace num den / 2 := by
  have hden' : (den : ℚ) ≠ 0 := (Nat.cast_pos.2 hden).ne'
  have hscale : 0 < den * Nat.pow 2 (lastPlace num den) :=
    Nat.mul_pos hden (Nat.pow_pos (by decide))
  have hnear : |(nearestEven num (den * Nat.pow 2 (lastPlace num den)) : ℚ) -
      num / (den * Nat.pow 2 (lastPlace num den) : ℕ)| ≤ 1 / 2 := abs_nearestEven_sub_le hscale
  rw [h]
  generalize nearestEven num (den * Nat.pow 2 (lastPlace num den)) = coeff at hnear
  have hpow : (0 : ℚ) < 2 ^ lastPlace num den := by positivity
  rw [Nat.pow_eq, Nat.cast_mul, Nat.cast_pow, Nat.cast_two] at hnear ⊢
  calc |(coeff : ℚ) * 2 ^ lastPlace num den - num / den|
      = |((coeff : ℚ) - num / (den * 2 ^ lastPlace num den)) * 2 ^ lastPlace num den| := by
        congr 1
        field_simp
    _ = |(coeff : ℚ) - num / (den * 2 ^ lastPlace num den)| * 2 ^ lastPlace num den := by
        rw [abs_mul, abs_of_pos hpow]
    _ ≤ 1 / 2 * 2 ^ lastPlace num den := by gcongr
    _ = 2 ^ lastPlace num den / 2 := by ring

end Magnitude

namespace Binary64

variable {x : Binary64} {q : ℚ}

/-- **Rounding moves a number of size at most `2 ^ k` by at most `2 ^ k / 2 ^ 53`.** -/
theorem IsRounding.exists_value? {k : ℕ} (h : IsRounding x q) (hq : |q| ≤ 2 ^ k) (hk : k ≤ 970) :
    ∃ r, x.value? = some r ∧ |r - q| ≤ 2 ^ k / 2 ^ 53 := by
  obtain ⟨s, num, den, hden, hexact, rfl⟩ := h
  -- A name for the exponent keeps `2 ^ 1021` from being computed.
  obtain ⟨u, hu⟩ : ∃ u, u = 1021 := ⟨_, rfl⟩
  have hone : (unitsPerOne : ℚ) = 2 ^ 53 * 2 ^ u := cast_unitsPerOne_eq (by omega)
  have hpos := cast_unitsPerOne_pos
  have hden' : (0 : ℚ) < den := Nat.cast_pos.2 hden
  have hsize : (num : ℚ) / den = |q| * unitsPerOne := by
    rw [← abs_of_pos hpos, ← abs_mul, ← hexact, abs_mul, abs_signFactor, one_mul,
      abs_of_nonneg (div_nonneg num.cast_nonneg den.cast_nonneg)]
  have hplace : Magnitude.lastPlace num den ≤ k + 53 + u - 52 := by
    refine Magnitude.lastPlace_le hden ?_
    have hle : (num : ℚ) ≤ 2 ^ (k + 53 + u) * den := by
      rw [← div_le_iff₀ hden', hsize, hone, pow_add, pow_add, mul_assoc]
      gcongr
    exact_mod_cast hle
  obtain ⟨m, hround, hunits⟩ := Magnitude.exists_round? hden (hplace.trans (by omega))
  have herror := Magnitude.abs_units_sub_le hden hunits
  refine ⟨signFactor s * m.units / unitsPerOne, value?_eq_some_iff.2 ⟨s, m, ?_, ?_⟩, ?_⟩
  · unfold ofUnits
    rw [hround]
  · rw [div_mul_cancel₀ _ hpos.ne']
  · -- The error in units is half of the last place.
    have hq : q = signFactor s * (num / den) / unitsPerOne := by
      rw [hexact, mul_div_cancel_right₀ _ hpos.ne']
    have hpow : (2 : ℚ) ^ Magnitude.lastPlace num den ≤ 2 ^ (k + u + 1) :=
      pow_le_pow_right₀ one_le_two (by omega)
    calc |signFactor s * m.units / unitsPerOne - q|
        = |signFactor s * (m.units - num / den) / unitsPerOne| := by
          rw [hq, ← sub_div, mul_sub]
      _ = |(m.units : ℚ) - num / den| / unitsPerOne := by
          rw [abs_div, abs_mul, abs_signFactor, one_mul, abs_of_pos hpos]
      _ ≤ 2 ^ (k + u + 1) / 2 / (2 ^ 53 * 2 ^ u) := by
          rw [hone]
          gcongr
          exact herror.trans (by gcongr)
      _ = 2 ^ k / 2 ^ 53 := by
          rw [pow_succ, pow_add]
          field_simp

/-- The nearest natural number to a value that is at most one half off is at most one off. The cap
may be one short of it. -/
theorem abs_toNatNearest_sub_le {r e : ℚ} {cap : ℕ} (hx : x.value? = some r)
    (hr : |r - e| ≤ 1 / 2) (hpos : 0 ≤ e) (hcap : e ≤ cap + 1) :
    |((x.toNatNearest cap : ℕ) : ℚ) - e| ≤ 1 := by
  rw [abs_le] at hr ⊢
  rw [toNatNearest_of_value hx]
  have hfloor : (⌊r + 1 / 2⌋₊ : ℚ) ≤ r + 1 / 2 := Nat.floor_le (by linarith)
  have hlt : r + 1 / 2 < ⌊r + 1 / 2⌋₊ + 1 := Nat.lt_floor_add_one _
  rcases le_total cap ⌊r + 1 / 2⌋₊ with hle | hle
  · have hcast : (cap : ℚ) ≤ ⌊r + 1 / 2⌋₊ := Nat.cast_le.2 hle
    rw [min_eq_left hle]
    constructor <;> linarith
  · rw [min_eq_right hle]
    constructor <;> linarith

end Binary64
end Hygrometer
