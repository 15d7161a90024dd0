import Hygrometer.Proofs.Decimal.Shortest

/-!
# The number nearest to a decimal

A decimal is read as the binary64 number of its sign that is **nearest to it** (`IsNearestTo`): no
other magnitude is nearer (`IsNearest.abs_unitsAt_sub_le_abs`), and of two that are equally near it
is the even one. Beyond the greatest magnitude the grid is thought to go on, and what is nearest to
a code there is infinite.

Rounding a quotient of naturals gives this number also where it leaves the range
(`isNearestTo_ofUnits`): the place of the last bit is beyond the greatest exponent then, or rounding
carries into it. A decimal is such a quotient, unless its first digit stands so far from the point
that no arithmetic is needed. On the one side lie numbers below half of a unit, which are nearest to
zero, on the other those above the greatest magnitude; `two_mul_unitsPerOne_lt` and
`two_pow_le_ten_pow` compare the powers of two and of ten that this takes (`isNearestTo_ofDecimal`).

So the shortest decimal of a magnitude is read as the magnitude itself (`ofDecimal_shortest`).
-/

namespace Hygrometer.Magnitude

open Binary64 (infinityCode)

variable {num den c : ℕ} {u : ℚ}

/-- **Nothing on the grid is nearer** than the nearest code. -/
theorem IsNearest.abs_unitsAt_sub_le_abs (h : IsNearest c u) (b : ℕ) :
    |(unitsAt c : ℚ) - u| ≤ |(unitsAt b : ℚ) - u| := by
  rcases lt_trichotomy b c with hlt | rfl | hlt
  · obtain ⟨d, rfl⟩ : ∃ d, c = d + 1 := ⟨c - 1, by omega⟩
    have hmid := h.midpoint_le
    have hle : (unitsAt b : ℚ) ≤ unitsAt d := by
      exact_mod_cast strictMono_unitsAt.monotone (Nat.le_of_lt_succ hlt)
    have hgap : (0 : ℚ) ≤ 2 ^ place d := by positivity
    rw [midpoint] at hmid
    rw [abs_sub_comm (unitsAt b : ℚ), le_abs, abs_le, cast_unitsAt_succ]
    exact .inl ⟨by linarith, by linarith⟩
  · exact le_rfl
  · have hmid := h.le_midpoint
    have hle : (unitsAt (c + 1) : ℚ) ≤ unitsAt b := by
      exact_mod_cast strictMono_unitsAt.monotone hlt
    rw [cast_unitsAt_succ] at hle
    rw [midpoint] at hmid
    have hgap : (0 : ℚ) ≤ 2 ^ place c := by positivity
    rw [le_abs, abs_le]
    exact .inl ⟨by linarith, by linarith⟩

/-! ### Beyond the greatest magnitude -/

/-- A quotient has its last place where its leading bit puts it, or behind. -/
theorem le_lastPlace {k : ℕ} (hden : 0 < den) (h : leadingBit * 2 ^ k * den ≤ num) :
    k ≤ lastPlace num den := by
  have hle : 2 ^ (52 + k) ≤ num / den := by
    rw [Nat.le_div_iff_mul_le hden, pow_add]
    exact h
  have hne : num / den ≠ 0 := (lt_of_lt_of_le (Nat.two_pow_pos _) hle).ne'
  have hlog := (Nat.le_log2 hne).2 hle
  rw [lastPlace]
  omega

/-- What has its last place beyond the greatest exponent is out of range. -/
theorem round?_eq_none_of_lastPlace (h : 2045 < lastPlace num den) : round? num den = none := by
  have hparts (coeff : ℕ) {e : ℕ} (he : 2045 < e) : ofParts? coeff e = none :=
    dif_neg fun h ↦ absurd h.2.1 (Nat.not_le.2 he)
  have hround : round? num den =
      if nearestEven num (den * Nat.pow 2 (lastPlace num den)) = 2 * leadingBit then
        ofParts? leadingBit (lastPlace num den + 1)
      else
        ofParts? (nearestEven num (den * Nat.pow 2 (lastPlace num den))) (lastPlace num den) := rfl
  rw [hround, hparts _ (h.trans (Nat.lt_succ_self _)), hparts _ h, ite_self]

/-- The midpoint behind the greatest magnitude. -/
theorem midpoint_pred_infinityCode {k : ℕ} (hk : k = 2045) :
    midpoint (infinityCode - 1) = ((2 * leadingBit : ℕ) - 1 / 2) * 2 ^ k := by
  have hplace : place (infinityCode - 1) = k := hk ▸ by decide
  have hunits : unitsAt (infinityCode - 1) = (2 * leadingBit - 1) * 2 ^ k := by
    have hcoeff : infinityCode - 1 - k * leadingBit = 2 * leadingBit - 1 := hk ▸ by decide
    rw [unitsAt, hplace, hcoeff]
  have hpos : 1 ≤ 2 * leadingBit := by decide
  rw [midpoint, hplace, hunits, Nat.cast_mul, Nat.cast_sub hpos]
  push_cast
  ring

/-- **Rounding finds no magnitude** where the nearest code is none's. -/
theorem round?_of_infinityCode_le (hden : 0 < den) (h : IsNearest c (num / den))
    (hc : infinityCode ≤ c) : round? num den = none := by
  -- A name for the greatest exponent keeps its power from being computed.
  obtain ⟨k, hk⟩ : ∃ k, k = 2045 := ⟨_, rfl⟩
  have hpow : (0 : ℚ) < 2 ^ k := by positivity
  have hden' : (0 : ℚ) < den := Nat.cast_pos.2 hden
  have hle : midpoint (infinityCode - 1) ≤ num / den := by
    obtain ⟨d, rfl⟩ : ∃ d, c = d + 1 := ⟨c - 1, by unfold infinityCode leadingBit at hc; omega⟩
    exact (strictMono_midpoint.monotone (by omega)).trans h.midpoint_le
  rw [midpoint_pred_infinityCode hk] at hle
  rcases le_or_gt (leadingBit * 2 ^ (k + 1) : ℚ) (num / den) with hfar | hnear
  · refine round?_eq_none_of_lastPlace (hk ▸ Nat.lt_of_succ_le (le_lastPlace hden ?_))
    rw [le_div_iff₀ hden'] at hfar
    exact_mod_cast hfar
  · -- The coefficient is rounded to one bit too many.
    have hlow : ((2 * leadingBit : ℕ) - 1 / 2 : ℚ) ≤ num / den / 2 ^ k := (le_div_iff₀ hpow).2 hle
    have hhigh : (num / den / 2 ^ k : ℚ) < (2 * leadingBit : ℕ) := by
      rw [div_lt_iff₀ hpow]
      rw [pow_succ] at hnear
      push_cast
      linarith
    have hfull : (leadingBit : ℚ) ≤ num / den / 2 ^ k := by
      have hone : (1 : ℚ) ≤ leadingBit := by norm_num [leadingBit]
      push_cast at hlow
      linarith
    rw [round?_of_quotient hden (.inr hfull) hhigh
      (hlow.lt_or_eq.imp_right fun h ↦ ⟨h, even_two_mul _⟩) (.inl (by linarith)), if_pos rfl, hk]
    exact dif_neg fun h ↦ absurd h.2.1 (by decide)

end Hygrometer.Magnitude

namespace Hygrometer.Binary64

open Magnitude (IsNearest unitsAt)

/-! ### The nearest number -/

/-- The number with a sign that is nearest to a magnitude. -/
def IsNearestTo (x : Binary64) (negative : Bool) (q : ℚ) : Prop :=
  (∃ m, x = .finite negative m ∧ IsNearest m.code (q * unitsPerOne)) ∨
    x = .infinite negative ∧ ∃ c, infinityCode ≤ c ∧ IsNearest c (q * unitsPerOne)

variable {x y : Binary64} {negative : Bool} {q : ℚ}

/-- There is only one. -/
theorem IsNearestTo.unique (hx : IsNearestTo x negative q) (hy : IsNearestTo y negative q) :
    x = y := by
  rcases hx with ⟨m, rfl, hm⟩ | ⟨rfl, c, hc, hm⟩ <;>
    rcases hy with ⟨n, rfl, hn⟩ | ⟨rfl, d, hd, hn⟩
  · rw [Magnitude.code_inj (hm.unique hn)]
  · exact absurd (hm.unique hn ▸ hd) (Nat.not_le.2 m.code_lt)
  · exact absurd (hm.unique hn ▸ hc) (Nat.not_le.2 n.code_lt)
  · rfl

/-- What is on the grid is nearest to itself. -/
theorem IsNearestTo.value?_eq (h : IsNearestTo x negative q) (h0 : 0 ≤ q)
    (hq : Representable q) : x.value? = some (signFactor negative * q) := by
  obtain ⟨m, hm⟩ := hq
  rw [abs_of_nonneg h0] at hm
  have hself : IsNearest m.code (q * unitsPerOne) := by
    rw [← hm, ← Magnitude.unitsAt_code]
    exact Magnitude.isNearest_unitsAt _
  obtain rfl := h.unique (.inl ⟨m, rfl, hself⟩)
  exact value?_eq_some_iff.2 ⟨negative, m, rfl, by rw [hm, mul_assoc]⟩

/-- **A quotient of naturals is rounded to the nearest number.** -/
theorem isNearestTo_ofUnits {num den : ℕ} (hden : 0 < den)
    (hq : (num / den : ℚ) = q * unitsPerOne) :
    IsNearestTo (ofUnits negative num den) negative q := by
  obtain ⟨c, hc⟩ := Magnitude.exists_isNearest (u := (num / den : ℚ)) (by positivity)
  unfold ofUnits
  rcases Nat.lt_or_ge c infinityCode with hlt | hge
  · obtain ⟨m, rfl⟩ := Magnitude.exists_code_eq hlt
    rw [Magnitude.round?_of_isNearest hden hc]
    exact .inl ⟨m, rfl, hq ▸ hc⟩
  · rw [Magnitude.round?_of_infinityCode_le hden hc hge]
    exact .inr ⟨rfl, c, hge, hq ▸ hc⟩

/-! ### Decimals -/

variable {d : Decimal}

theorem value_nonneg (d : Decimal) : 0 ≤ d.value :=
  mul_nonneg d.digits.cast_nonneg (zpow_nonneg (by norm_num) _)

/-- The place of the first digit, counted from the point. -/
def firstPlace (d : Decimal) : ℤ := d.exp + (Nat.toDigits 10 d.digits).length

/-- A decimal that is not far off is a quotient of naturals. -/
theorem ofDecimal_of_firstPlace (hd : d.digits ≠ 0) (hlow : -330 ≤ firstPlace d)
    (hhigh : firstPlace d ≤ 310) : ofDecimal negative d =
      ofUnits negative (d.digits * (Decimal.gridStep d.exp).1) (Decimal.gridStep d.exp).2 := by
  rw [ofDecimal]
  exact (if_neg (not_or.2 ⟨hd, not_lt.2 hlow⟩)).trans (if_neg (not_lt.2 hhigh))

/-- The first digit bounds a decimal from both sides. -/
theorem value_bounds (hd : d.digits ≠ 0) :
    (10 : ℚ) ^ (firstPlace d - 1) ≤ d.value ∧ d.value < 10 ^ firstPlace d := by
  have hten : (0 : ℚ) < 10 ^ d.exp := zpow_pos (by norm_num) _
  obtain ⟨k, hk⟩ : ∃ k, (Nat.toDigits 10 d.digits).length = k + 1 :=
    ⟨_ - 1, (Nat.sub_add_cancel (List.length_pos_iff.2 Nat.toDigits_ne_nil)).symm⟩
  have hlow : 10 ^ k ≤ d.digits := by
    by_contra hlt
    have hshort : (Nat.toDigits 10 d.digits).length ≤ k := by
      rcases Nat.eq_zero_or_pos k with rfl | hpos
      · omega
      · exact (Nat.length_toDigits_le_iff (by decide) hpos).2 (Nat.lt_of_not_le hlt)
    omega
  have hhigh : d.digits < 10 ^ (k + 1) :=
    (Nat.length_toDigits_le_iff (by decide) (Nat.succ_pos k)).1 hk.le
  have hplace : firstPlace d = d.exp + (k + 1 : ℕ) := by rw [firstPlace, hk]
  have hbefore : firstPlace d - 1 = d.exp + (k : ℕ) := by
    rw [hplace]
    push_cast
    ring
  rw [hbefore, hplace, zpow_add₀ (by norm_num), zpow_add₀ (by norm_num), zpow_natCast,
    zpow_natCast, Decimal.value, mul_comm (d.digits : ℚ)]
  refine ⟨mul_le_mul_of_nonneg_left ?_ hten.le, mul_lt_mul_of_pos_left ?_ hten⟩
  · exact_mod_cast hlow
  · exact_mod_cast hhigh

/-- A number below the finest grid is nearest to zero. -/
theorem isNearest_zero_of_lt (h0 : 0 ≤ q) (hq : q < 10 ^ (-324 : ℤ)) :
    IsNearest 0 (q * unitsPerOne) := by
  refine Magnitude.isNearest_of_lt_midpoint ?_ ?_
  · rw [Magnitude.unitsAt_zero, Nat.cast_zero]
    exact mul_nonneg h0 cast_unitsPerOne_pos.le
  · have hhalf : (10 : ℚ) ^ (-324 : ℤ) * unitsPerOne < 1 / 2 := Decimal.finestStep_lt
    have hmid : Magnitude.midpoint 0 = 1 / 2 := by
      rw [Magnitude.midpoint, Magnitude.unitsAt_zero]
      norm_num [Magnitude.place]
    rw [hmid]
    exact (mul_lt_mul_of_pos_right hq cast_unitsPerOne_pos).trans hhalf

/-- A number above the coarsest grid is nearest to no magnitude. -/
theorem exists_isNearest_of_le (hq : (10 : ℚ) ^ (310 : ℤ) ≤ q) :
    ∃ c, infinityCode ≤ c ∧ IsNearest c (q * unitsPerOne) := by
  have hU := cast_unitsPerOne_pos
  have hbig : (2 : ℚ) ^ 1024 ≤ q := by
    have hten : 2 ^ 1024 ≤ 10 ^ 310 := by
      rw [show 1024 = 1 + 1023 by rfl, show 310 = 2 + 308 by rfl, pow_add, pow_add]
      exact Nat.mul_le_mul (by decide) (Decimal.two_pow_le_ten_pow 11 rfl rfl)
    have hcast : (2 : ℚ) ^ 1024 ≤ 10 ^ 310 := by exact_mod_cast hten
    exact hcast.trans hq
  have hpos : (0 : ℚ) < 2 ^ 1024 := pow_pos two_pos _
  obtain ⟨c, hc⟩ := Magnitude.exists_isNearest
    (mul_nonneg (hpos.le.trans hbig) hU.le)
  refine ⟨c, (Magnitude.isNearest_unitsAt infinityCode).le_of_le hc ?_, hc⟩
  have htop : (unitsAt infinityCode : ℚ) = 2 ^ 1024 * unitsPerOne := unitsAt_of_two_pow
  rw [htop]
  exact mul_le_mul_of_nonneg_right hbig hU.le

/-- **A decimal is read as the number nearest to it.** -/
theorem isNearestTo_ofDecimal (negative : Bool) (d : Decimal) :
    IsNearestTo (ofDecimal negative d) negative d.value := by
  by_cases hd : d.digits = 0
  · have hzero : ofDecimal negative d = .finite negative .zero := by
      rw [ofDecimal]
      exact if_pos (.inl hd)
    rw [hzero, Decimal.value, hd, Nat.cast_zero, zero_mul]
    exact .inl ⟨.zero, rfl, isNearest_zero_of_lt le_rfl (zpow_pos (by norm_num) _)⟩
  obtain ⟨hbelow, habove⟩ := value_bounds hd
  rcases lt_or_ge (firstPlace d) (-330) with hfar | hlow
  · have hzero : ofDecimal negative d = .finite negative .zero := by
      rw [ofDecimal]
      exact if_pos (.inr hfar)
    rw [hzero]
    exact .inl ⟨.zero, rfl, isNearest_zero_of_lt (value_nonneg d)
      (habove.trans_le (zpow_le_zpow_right₀ (by norm_num) (by omega)))⟩
  rcases lt_or_ge 310 (firstPlace d) with hfar | hhigh
  · have hinfinite : ofDecimal negative d = .infinite negative := by
      rw [ofDecimal]
      exact (if_neg (not_or.2 ⟨hd, not_lt.2 hlow⟩)).trans (if_pos hfar)
    rw [hinfinite]
    exact .inr ⟨rfl, exists_isNearest_of_le
      ((zpow_le_zpow_right₀ (by norm_num) (by omega)).trans hbelow)⟩
  · rw [ofDecimal_of_firstPlace hd hlow hhigh]
    refine isNearestTo_ofUnits (Decimal.gridStep_snd_pos _) ?_
    rw [Nat.cast_mul, mul_div_assoc, Decimal.gridStep_eq, Decimal.value, mul_assoc]

/-- **The shortest decimal is read as what it was written for.** -/
theorem ofDecimal_shortest (tie : DecimalTie) (negative : Bool) (m : Magnitude) :
    ofDecimal negative (Decimal.shortest tie m) = .finite negative m := by
  by_cases hm : m = .zero
  · rw [hm]
    rfl
  · exact (isNearestTo_ofDecimal negative _).unique
      (.inl ⟨m, rfl, Decimal.isNearest_shortest tie hm⟩)

end Hygrometer.Binary64
