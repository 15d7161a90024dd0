import Hygrometer.Json.Number
import Hygrometer.Proofs.Binary64.Drift
import Hygrometer.Proofs.Decimal.Nearest

/-!
# Scaled decimals

A decimal of JSON is scaled by one multiplication or division with a power of ten. Its significand
and the power are rounded before that, if they have more than 53 bits, so the number has drifted by
up to two roundings when it is rounded for the last time, and ends that many codes away from the
nearest one at most (`exists_scaled?`). How many they are depends on the decimal, and `slack` counts
them: none for a short significand and a small power, which are both exact, and one for a long
significand and a small power. So a decimal of at most fifteen digits near the point is read as the
nearest number, and others may not be.

**Below the range of the powers**, the greatest of them is divided by first. This is one rounding
more, and the bound would be three if all of them could be as bad at once. They cannot.

* The greatest power is rounded by little, a tenth of what rounding may add (`topPower_bounds`).
* Where the significand loses most, just behind a power of two, the first quotient lies just before
  one, where it loses less (`hasDrifted_div_top`).
* Short significands are exact, so they have a rounding to spare, unless the quotient is tiny; and
  the few that make it tiny are decided one by one (`scaled?_deep_tiny`).

So two roundings bound all of it, and `exists_scaled?` holds with the same slack at every exponent
that a written number can have.

**Powers.** The powers up to `10 ^ 22` are exact, because the power of five in them has at most 53
bits (`value?_tenTo`). The others are what a decimal with one digit is read as, which is the number
nearest to it. Powers of two and ten of this size are kept as they are: a proof gives their
exponents names, so that no step computes them.
-/

namespace Hygrometer.Binary64

open Magnitude (AreClose IsDrift IsNearest retained)

variable {e : ℕ}

/-! ### Powers of ten -/

/-- One has more units than a full coefficient. -/
theorem two_pow_le_unitsPerOne : (2 ^ 52 : ℚ) ≤ unitsPerOne := by
  rw [cast_unitsPerOne_eq (j := 52) (k := 1022) rfl]
  generalize 1022 = k
  exact le_mul_of_one_le_right (by norm_num) (one_le_pow₀ one_le_two)

/-- A power of ten is rounded like a natural number. -/
theorem tenTo_eq (he : e ≤ 308) : tenTo e = ofUnits false (10 ^ e * unitsPerOne) 1 := by
  have hplace : firstPlace ⟨1, e⟩ = e + 1 := by
    have hlength : (Nat.toDigits 10 1).length = 1 := rfl
    rw [firstPlace, hlength, Nat.cast_one]
  have hone : 1 * (10 ^ e * unitsPerOne) = 10 ^ e * unitsPerOne := Nat.one_mul _
  rw [tenTo, ofDecimal_of_firstPlace Nat.one_ne_zero (by omega) (by omega), ← hone]
  rfl

/-- So it is what the exact power is rounded to. -/
theorem isRounding_tenTo (he : e ≤ 308) : IsRounding (tenTo e) (10 ^ e) := by
  refine ⟨false, 10 ^ e * unitsPerOne, 1, Nat.one_pos, ?_, tenTo_eq he⟩
  rw [Nat.cast_one, div_one, Nat.cast_mul, Nat.cast_pow, Nat.cast_ofNat, signFactor,
    if_neg Bool.false_ne_true, one_mul]

/-- Powers up to `10 ^ 22` are exact: the power of five in them has at most 53 bits. -/
theorem value?_tenTo (he : e ≤ 22) : (tenTo e).value? = some (10 ^ e : ℚ) := by
  refine (isRounding_tenTo (he.trans (by decide))).value? ?_
  have hfive : 5 ^ e < 2 * leadingBit :=
    (Nat.pow_le_pow_right (by decide) he).trans_lt (by decide)
  obtain ⟨m, hm⟩ := Magnitude.exists_units_eq hfive (show e + 1074 ≤ 2045 by omega)
  refine ⟨m, ?_⟩
  rw [hm, abs_of_pos (by positivity), cast_unitsPerOne_eq (j := 0) (k := 1074) rfl, Nat.pow_eq]
  generalize 1074 = k
  push_cast
  rw [pow_add, show (10 : ℚ) = 5 * 2 by norm_num, mul_pow]
  ring

/-! ### The greatest power -/

/-- What the greatest power in range is rounded to. -/
def topPower : ℚ := 0x11ccf385ebc8a0 * 2 ^ 971

/-- The greatest power, by evaluation. -/
theorem value?_tenTo_top : (tenTo 308).value? = some topPower := by
  have heq : tenTo 308 = .finite false
      ⟨0x11ccf385ebc8a0, 2045, by decide, by decide, .inr (by decide)⟩ := by decide +kernel
  rw [heq, value?_of_exp_eq (k := 971) rfl, topPower, Nat.cast_ofNat]

/-- It is rounded up, by a tenth of what rounding may add. -/
theorem topPower_bounds :
    (10 : ℚ) ^ 308 ≤ topPower ∧ topPower ≤ 10 ^ 308 * (1 + 1 / 10 / 2 ^ 53) := by
  obtain ⟨hlow, hhigh⟩ : 10 ^ 308 ≤ 0x11ccf385ebc8a0 * 2 ^ 971 ∧
      0x11ccf385ebc8a0 * 2 ^ 971 * (10 * 2 ^ 53) ≤ 10 ^ 308 * (10 * 2 ^ 53 + 1) := by
    decide +kernel
  rw [topPower]
  obtain ⟨j, hj⟩ : ∃ j, j = 971 := ⟨_, rfl⟩
  obtain ⟨k, hk⟩ : ∃ k, k = 308 := ⟨_, rfl⟩
  rw [← hj, ← hk] at hlow hhigh ⊢
  have hlow' : (10 : ℚ) ^ k ≤ 0x11ccf385ebc8a0 * 2 ^ j := by exact_mod_cast hlow
  have hhigh' : (0x11ccf385ebc8a0 * 2 ^ j * (10 * 2 ^ 53) : ℚ) ≤ 10 ^ k * (10 * 2 ^ 53 + 1) := by
    exact_mod_cast hhigh
  refine ⟨hlow', ?_⟩
  linarith

theorem topPower_pos : 0 < topPower :=
  (pow_pos (by norm_num) 308).trans_le topPower_bounds.1

/-- A smaller power is in the lower half of the range. -/
theorem ten_pow_le (he : e < 308) : (10 : ℚ) ^ e ≤ 2 ^ 1023 := by
  have hstep : (10 : ℚ) * 10 ^ e ≤ 10 ^ 308 := by
    rw [← pow_succ']
    exact pow_le_pow_right₀ (by norm_num) he
  have htop := hstep.trans topPower_bounds.1
  have hsplit : (2 : ℚ) ^ 1023 = 2 ^ 52 * 2 ^ 971 := pow_add 2 52 971
  have hpos : (0 : ℚ) < 2 ^ 971 := pow_pos two_pos 971
  rw [topPower] at htop
  rw [hsplit]
  generalize (2 : ℚ) ^ 971 = t at htop hpos ⊢
  linarith

/-- The greatest power and what it is rounded to differ by a tenth of what rounding may add. -/
theorem abs_div_topPower_sub_le : |10 ^ 308 / topPower - 1| ≤ 1 / 10 / 2 ^ 53 := by
  obtain ⟨hlow, hhigh⟩ := topPower_bounds
  have hP := topPower_pos
  have hpos : (0 : ℚ) < 10 ^ 308 := pow_pos (by norm_num) 308
  generalize (10 : ℚ) ^ 308 = t at hlow hhigh hpos ⊢
  rw [abs_le]
  have hle : t / topPower ≤ 1 := (div_le_one hP).2 hlow
  refine ⟨?_, by linarith⟩
  rw [le_sub_iff_add_le, le_div_iff₀ hP]
  calc (-(1 / 10 / 2 ^ 53) + 1) * topPower
      ≤ (-(1 / 10 / 2 ^ 53) + 1) * (t * (1 + 1 / 10 / 2 ^ 53)) :=
        mul_le_mul_of_nonneg_left hhigh (by norm_num)
    _ = t * ((-(1 / 10 / 2 ^ 53) + 1) * (1 + 1 / 10 / 2 ^ 53)) := by ring
    _ ≤ t := mul_le_of_le_one_right hpos.le (by norm_num)

/-! ### Drift before the last rounding -/

variable {d j : ℕ}

/-- **A power of ten drifts by one at most.** -/
theorem hasDrifted_tenTo (he : e ≤ 308) : HasDrifted 1 (tenTo e) (10 ^ e) := by
  rcases he.lt_or_eq with hlt | rfl
  · have h := isRounding_tenTo he
    rw [← mul_one ((10 : ℚ) ^ e)] at h
    have hone : (1 : ℚ) ≤ 10 ^ e := one_le_pow₀ (by norm_num)
    refine h.hasDrifted (.one 0) ?_ ?_
    · rw [mul_one]
      exact two_pow_le_unitsPerOne.trans (le_mul_of_one_le_left cast_unitsPerOne_pos.le hone)
    · rw [mul_one]
      exact ten_pow_le hlt
  · obtain ⟨hlow, hhigh⟩ := topPower_bounds
    have hpos : (0 : ℚ) < 10 ^ 308 := pow_pos (by norm_num) 308
    generalize (10 : ℚ) ^ 308 = t at hlow hhigh hpos ⊢
    refine ⟨topPower / t, .of_abs_sub_le ?_, ?_⟩
    · rw [abs_of_nonneg (sub_nonneg.2 ((one_le_div hpos).2 hlow)), sub_le_iff_le_add',
        div_le_iff₀ hpos]
      linarith
    · rw [value?_tenTo_top, mul_div_cancel₀ _ hpos.ne']

/-- So does a significand of at most twenty digits. -/
theorem hasDrifted_ofNat (hd : 0 < d) (hlt : d < 10 ^ 20) : HasDrifted 1 (ofNat d) d := by
  have h := isRounding_ofNat d
  rw [← mul_one (d : ℚ)] at h
  have hone : (1 : ℚ) ≤ d := Nat.one_le_cast.2 hd
  have hle : (d : ℚ) ≤ 2 ^ 1023 := by
    have hlt' : (d : ℚ) < 10 ^ 20 := by exact_mod_cast hlt
    exact hlt'.le.trans (ten_pow_le (by decide))
  refine h.hasDrifted (.one 0) ?_ (by rwa [mul_one])
  rw [mul_one]
  exact two_pow_le_unitsPerOne.trans (le_mul_of_one_le_left cast_unitsPerOne_pos.le hone)

/-- What a significand is rounded to, by the place of its last bit. -/
theorem exists_value?_ofNat (hlt : d < 10 ^ 18) (hj : (d : ℚ) ≤ 2 ^ 53 * 2 ^ j) :
    ∃ r, (ofNat d).value? = some r ∧ |r - d| ≤ 2 ^ j / 2 := by
  have hU := cast_unitsPerOne_pos
  have hd0 : (0 : ℚ) ≤ d := Nat.cast_nonneg d
  obtain ⟨b, hblt, hb⟩ := exists_isNearest_lt (q := d) (k := 60) hd0
    (by exact_mod_cast hlt.le.trans (by decide)) (by decide)
  obtain ⟨r, hr, hrunits⟩ := (isRounding_ofNat d).exists_value_eq hd0 hb hblt
  refine ⟨r, hr, ?_⟩
  have hunit : (unitsPerOne : ℚ) = 2 ^ 1074 := by
    rw [cast_unitsPerOne_eq (j := 0) (k := 1074) rfl, pow_zero, one_mul]
  have hle := hb.abs_unitsAt_sub_le (p := j + 1074) (mul_nonneg hd0 hU.le) (by
    rw [pow_add, ← mul_assoc, ← hunit]
    exact mul_le_mul_of_nonneg_right hj hU.le)
  rw [← hrunits, ← sub_mul, abs_mul, abs_of_pos hU, pow_add, ← hunit, mul_div_right_comm] at hle
  exact le_of_mul_le_mul_right hle hU

/-! ### Quotients by the greatest power -/

/-- A quotient by the greatest power, in units. -/
theorem div_topPower_mul (r : ℚ) : r / topPower * unitsPerOne = r * 2 ^ 103 / 0x11ccf385ebc8a0 := by
  rw [cast_unitsPerOne_eq (j := 103) (k := 971) rfl, topPower]
  have hpos : (0 : ℚ) < 2 ^ 971 := pow_pos two_pos 971
  generalize (2 : ℚ) ^ 971 = t at hpos ⊢
  field_simp

/-- What a quotient by the greatest power is rounded to. It drifts by one, and by less if it lies
far enough behind a power of two. -/
theorem exists_value?_div_top {x : Binary64} {r : ℚ} (hx : x.value? = some r) (hlow : 2 ^ 52 ≤ r)
    (hhigh : r ≤ 10 ^ 19) : ∃ s, (x / tenTo 308).value? = some s ∧
      IsDrift 1 (s / (r / topPower)) ∧
      ∀ p ε, r * 2 ^ 103 / 0x11ccf385ebc8a0 ≤ (2 ^ 53 * 2 ^ p : ℚ) →
        2 ^ p / 2 ≤ ε * (r * 2 ^ 103 / 0x11ccf385ebc8a0) → |s / (r / topPower) - 1| ≤ ε := by
  have hP := topPower_pos
  have hq0 : 0 < r / topPower := div_pos (by linarith) hP
  have hone : r / topPower ≤ 2 ^ 0 := by
    have hten : (10 : ℚ) ^ 19 ≤ 10 ^ 308 := pow_le_pow_right₀ (by norm_num) (by decide)
    rw [pow_zero, div_le_one hP]
    exact (hhigh.trans hten).trans topPower_bounds.1
  obtain ⟨c, hclt, hc⟩ := exists_isNearest_lt hq0.le hone (by decide)
  obtain ⟨s, hs, hsunits⟩ :=
    (isRounding_div hx value?_tenTo_top hP.ne').exists_value_eq hq0.le hc hclt
  have hfull : 2 ^ 52 ≤ r / topPower * unitsPerOne := by
    rw [div_topPower_mul, le_div_iff₀ (by norm_num)]
    linarith
  have hpos : 0 < r / topPower * unitsPerOne := lt_of_lt_of_le (by norm_num) hfull
  have hunits : s * unitsPerOne / (r / topPower * unitsPerOne) = s / (r / topPower) :=
    mul_div_mul_right _ _ cast_unitsPerOne_pos.ne'
  refine ⟨s, hs, ?_, fun p ε hp hε ↦ ?_⟩
  · rw [← hunits, hsunits]
    exact hc.isDrift_div hfull
  · rw [← div_topPower_mul] at hp hε
    rw [← hunits, hsunits]
    exact Magnitude.abs_div_sub_one_le hpos ((hc.abs_unitsAt_sub_le hpos.le hp).trans hε)

/-- **A long significand that is divided by the greatest power** drifts by two and not by three. Not
all three roundings can be as bad as they may: just behind a power of two, where the significand
loses most, the quotient lies just before one, where it loses least. -/
theorem hasDrifted_div_top (hlow : 2 ^ 53 ≤ d) (hhigh : d < 10 ^ 18) :
    HasDrifted 2 (ofNat d / tenTo 308) (d / 10 ^ 308) := by
  have hd : (2 ^ 53 : ℚ) ≤ d := by exact_mod_cast hlow
  have hd18 : (d : ℚ) < 10 ^ 18 := by exact_mod_cast hhigh
  have hd0 : (0 : ℚ) < d := lt_of_lt_of_le (by norm_num) hd
  obtain ⟨j, hjlow, hjhigh⟩ := Magnitude.exists_place (u := d) (by linarith)
  obtain ⟨r, hr, hrd⟩ := exists_value?_ofNat hhigh hjhigh
  have hrbounds := abs_le.1 hrd
  obtain ⟨s, hs, hdrift, hfine⟩ := exists_value?_div_top hr (by linarith) (by linarith)
  -- The three roundings: of the significand, of the power, and of the quotient.
  have hfactor : (d : ℚ) / 10 ^ 308 * (r / d * (10 ^ 308 / topPower) *
      (s / (r / topPower))) = s := by
    have hr0 : (0 : ℚ) < r := by linarith
    have hten : (0 : ℚ) < 10 ^ 308 := pow_pos (by norm_num) 308
    have hP := topPower_pos
    generalize (10 : ℚ) ^ 308 = t at hten ⊢
    field_simp
  refine ⟨_, ?_, by rw [hfactor, hs]⟩
  rcases le_total (10 / 9 * (2 ^ 52 * 2 ^ j)) (d : ℚ) with hfar | hnear
  · -- The significand is far enough behind a power of two.
    have hrel : |r / d - 1| ≤ 9 / 10 / 2 ^ 53 :=
      Magnitude.abs_div_sub_one_le hd0 (hrd.trans (by linarith))
    exact (IsDrift.mul_of_abs_sub_le hrel abs_div_topPower_sub_le).mul hdrift
  · -- Otherwise the quotient is far enough behind one.
    have hrel : |r / d - 1| ≤ 1 / 2 ^ 53 :=
      Magnitude.abs_div_sub_one_le hd0 (hrd.trans (by linarith))
    have hquotient : |s / (r / topPower) - 1| ≤ 9 / 10 / 2 ^ 53 := by
      refine hfine (j + 50) _ ?_ ?_
      · rw [div_le_iff₀ (by norm_num), pow_add]
        linarith
      · rw [← mul_div_assoc, le_div_iff₀ (by norm_num), pow_add]
        linarith
    rw [mul_assoc, mul_comm (10 ^ 308 / topPower)]
    exact (IsDrift.of_abs_sub_le hrel).mul
      (IsDrift.mul_of_abs_sub_le hquotient abs_div_topPower_sub_le)

/-- So does a short one, unless the quotient is tiny. -/
theorem hasDrifted_div_top_of_short (hlow : 3 ≤ d) (hhigh : d < 2 * leadingBit) :
    HasDrifted 2 (ofNat d / tenTo 308) (d / 10 ^ 308) := by
  have hten : (0 : ℚ) < 10 ^ 308 := pow_pos (by norm_num) 308
  obtain ⟨f, hf, h⟩ := (hasDrifted_of_value (value?_ofNat hhigh)).isRounding_div
    (hasDrifted_tenTo le_rfl) hten.ne'
  have hd : (3 : ℚ) ≤ d := by exact_mod_cast hlow
  have hd53 : (d : ℚ) ≤ 2 ^ 53 := by
    rw [leadingBit] at hhigh
    exact_mod_cast hhigh.le
  refine h.hasDrifted hf ?_ ?_
  -- The quotient has enough units, from a significand of three on.
  · have hU := cast_unitsPerOne_pos
    have hroom : 9 / 4 ≤ d * f := by
      calc (9 / 4 : ℚ) ≤ 3 * retained := by norm_num [retained]
        _ ≤ d * f := mul_le_mul hd hf.retained_le Magnitude.retained_pos.le (by linarith)
    have hcast : (4 * 2 ^ 52 * 10 ^ 308 : ℚ) ≤ 9 * unitsPerOne := by
      have htop := topPower_bounds.1
      have hpos : (0 : ℚ) < 2 ^ 971 := pow_pos two_pos 971
      rw [topPower] at htop
      rw [cast_unitsPerOne_eq (j := 103) (k := 971) rfl]
      generalize (2 : ℚ) ^ 971 = s at htop hpos ⊢
      generalize (10 : ℚ) ^ 308 = t at htop ⊢
      linarith
    generalize (10 : ℚ) ^ 308 = t at hcast hten ⊢
    rw [div_mul_eq_mul_div, div_mul_eq_mul_div, le_div_iff₀ hten]
    calc 2 ^ 52 * t ≤ 9 / 4 * unitsPerOne := by linarith
      _ ≤ d * f * unitsPerOne := mul_le_mul_of_nonneg_right hroom hU.le
  -- And it is far below the greatest number.
  · have hroom : d * f ≤ 10 ^ 308 := by
      calc (d : ℚ) * f ≤ 2 ^ 53 * 2 := mul_le_mul hd53 hf.le_two hf.pos.le (by norm_num)
        _ ≤ 10 ^ 17 := by norm_num
        _ ≤ 10 ^ 308 := pow_le_pow_right₀ (by norm_num) (by decide)
    rw [div_mul_eq_mul_div]
    exact ((div_le_one hten).2 hroom).trans (one_le_pow₀ one_le_two)

end Hygrometer.Binary64

namespace Hygrometer.Json

open Binary64
open Magnitude (AreClose IsDrift IsNearest)

variable {d c i j : ℕ} {e : ℤ}

/-- Powers upward multiply, and may leave the range. -/
theorem scaled?_ofNat {k : ℕ} (hk : k ≤ 308) :
    scaled? d (.ofNat k) = (some (ofNat d * tenTo k)).filter (·.isFinite) := by
  rw [scaled?.eq_def]
  exact if_pos hk

/-- Powers downward divide. -/
theorem scaled?_negSucc {k : ℕ} (hk : k < 308) :
    scaled? d (.negSucc k) = some (ofNat d / tenTo (k + 1)) := by
  have hsteps : k / 308 = 0 := Nat.div_eq_of_lt hk
  rw [scaled?]
  simp only [hsteps, shrink, Nat.mul_zero, Nat.sub_zero]

/-- Beyond the range of one power, the greatest one is divided by first. -/
theorem scaled?_deep {k : ℕ} (hk : k < 308) (hx : ofNat d ≠ .zero) :
    scaled? d (.negSucc (308 + k)) = some (ofNat d / tenTo 308 / tenTo (k + 1)) := by
  have hsteps : (308 + k) / 308 = 1 := by omega
  have hrest : 308 + k + 1 - 308 * 1 = k + 1 := by omega
  rw [scaled?]
  simp only [hsteps, shrink, if_neg hx, hrest]

/-- No significand is rounded to zero. -/
theorem ofNat_ne_zero (hd : 0 < d) (hlt : d < 10 ^ 20) : ofNat d ≠ .zero := by
  obtain ⟨f, hf, hvalue⟩ := hasDrifted_ofNat hd hlt
  intro hzero
  obtain ⟨s, m, hm, hunits⟩ := value?_eq_some_iff.1 hvalue
  obtain ⟨-, rfl⟩ := Binary64.finite.inj (hzero.symm.trans hm)
  have hpos := mul_pos (mul_pos (Nat.cast_pos.2 hd) hf.pos) cast_unitsPerOne_pos
  have hnone : (Magnitude.zero.units : ℚ) = 0 := Nat.cast_zero
  rw [← hunits, hnone, mul_zero] at hpos
  exact hpos.false

/-- **A decimal in the range of one power of ten** is scaled to a number that is as many codes away
from the nearest as there are roundings before the last one. -/
theorem exists_scaled?_of_hasDrifted (hd : 0 < d) (he : e.natAbs ≤ 308)
    (hx : HasDrifted i (ofNat d) d) (hy : HasDrifted j (tenTo e.natAbs) (10 ^ e.natAbs))
    (hc : IsNearest c (d * 10 ^ e * unitsPerOne)) (hlt : c + (i + j) < infinityCode) :
    ∃ m, scaled? d e = some (.finite false m) ∧ AreClose (i + j) c m.code := by
  have hd0 : (0 : ℚ) < d := Nat.cast_pos.2 hd
  have hq : (0 : ℚ) < d * 10 ^ e := mul_pos hd0 (zpow_pos (by norm_num) e)
  cases e with
  | ofNat k =>
    obtain ⟨f, hf, h⟩ := hx.isRounding_mul hy
    obtain ⟨m, hm, hclose⟩ := h.exists_close hf hq hc hlt
    refine ⟨m, ?_, hclose⟩
    have hm' : ofNat d * tenTo k = .finite false m := hm
    rw [scaled?_ofNat (k := k) he, hm']
    rfl
  | negSucc k =>
    obtain ⟨f, hf, h⟩ := hx.isRounding_div hy (pow_pos (by norm_num) _).ne'
    rw [zpow_negSucc, ← div_eq_mul_inv] at hc hq
    obtain ⟨m, hm, hclose⟩ := h.exists_close hf hq hc hlt
    refine ⟨m, ?_, hclose⟩
    rw [scaled?_negSucc he]
    exact congrArg some hm

/-- The significands whose quotient by the greatest power is tiny lose nothing by it. -/
theorem scaled?_deep_tiny : ∀ d < 3, ∀ k < 16, scaled? d (.negSucc (308 + k)) =
    (Magnitude.round? (d * unitsPerOne) (10 ^ (308 + k + 1))).map (.finite false) := by
  decide +kernel

/-- **A decimal beyond the range of one power of ten** is scaled with one rounding more, and still
only two codes away from the nearest. -/
theorem exists_scaled?_deep {k : ℕ} (hk : k < 16) (hd : 0 < d) (hd18 : d < 10 ^ 18)
    (hc : IsNearest c (d * 10 ^ Int.negSucc (308 + k) * unitsPerOne)) (hlt : c + 2 < infinityCode) :
    ∃ m, scaled? d (.negSucc (308 + k)) = some (.finite false m) ∧ AreClose 2 c m.code := by
  have hten (k : ℕ) : (10 : ℚ) ^ k ≠ 0 := (pow_pos (by norm_num) k).ne'
  rcases Nat.lt_or_ge d 3 with htiny | hbig
  · obtain ⟨m, rfl⟩ := Magnitude.exists_code_eq (lt_of_le_of_lt (Nat.le_add_right c 2) hlt)
    refine ⟨m, ?_, .refl 2 _⟩
    rw [scaled?_deep_tiny d htiny k hk, Magnitude.round?_of_isNearest (m := m)]
    · rfl
    · exact Nat.pow_pos (by decide)
    · rwa [Nat.cast_mul, Nat.cast_pow, Nat.cast_ofNat, mul_div_right_comm, div_eq_mul_inv,
        ← zpow_negSucc]
  · have hx : HasDrifted 2 (ofNat d / tenTo 308) (d / 10 ^ 308) := by
      rcases Nat.lt_or_ge d (2 * leadingBit) with hshort | hlong
      · exact hasDrifted_div_top_of_short hbig hshort
      · exact hasDrifted_div_top hlong hd18
    obtain ⟨f, hf, h⟩ := hx.isRounding_div
      (hasDrifted_of_value (value?_tenTo (show k + 1 ≤ 22 by omega))) (hten _)
    have hq : (d : ℚ) * 10 ^ Int.negSucc (308 + k) = d / 10 ^ 308 / 10 ^ (k + 1) := by
      rw [zpow_negSucc, div_div, ← pow_add, div_eq_mul_inv]
      rfl
    have hpos : (0 : ℚ) < d * 10 ^ Int.negSucc (308 + k) :=
      mul_pos (Nat.cast_pos.2 hd) (zpow_pos (by norm_num) _)
    rw [hq] at hc hpos
    obtain ⟨m, hm, hclose⟩ := h.exists_close hf hpos hc hlt
    refine ⟨m, ?_, hclose⟩
    rw [scaled?_deep (hk.trans (by decide)) (ofNat_ne_zero hd (hd18.trans (by decide))), hm]

/-- How far a scaled decimal may be from the nearest number: up to `10 ^ 22` the power of ten is
exact, and up to 53 bits the significand is. -/
def slack (d : ℕ) (e : ℤ) : ℕ :=
  if e.natAbs ≤ 22 then (if d < 2 * leadingBit then 0 else 1) else 2

theorem slack_le_two (d : ℕ) (e : ℤ) : slack d e ≤ 2 := by
  rw [slack]
  split_ifs <;> decide

/-- **A scaled decimal is close to the nearest number.** -/
theorem exists_scaled? (hd : 0 < d) (hd18 : d < 10 ^ 18) (hlow : -324 ≤ e) (hhigh : e ≤ 308)
    (hc : IsNearest c (d * 10 ^ e * unitsPerOne)) (hlt : c + 2 < infinityCode) :
    ∃ m, scaled? d e = some (.finite false m) ∧ AreClose (slack d e) c m.code := by
  have hle := slack_le_two d e
  have hd20 : d < 10 ^ 20 := hd18.trans (by decide)
  rw [slack] at hle ⊢
  split_ifs at hle ⊢ with hexp hshort
  · exact exists_scaled?_of_hasDrifted (i := 0) (j := 0) hd (hexp.trans (by decide))
      (hasDrifted_of_value (value?_ofNat hshort)) (hasDrifted_of_value (value?_tenTo hexp)) hc
      (by omega)
  · exact exists_scaled?_of_hasDrifted (i := 1) (j := 0) hd (hexp.trans (by decide))
      (hasDrifted_ofNat hd hd20) (hasDrifted_of_value (value?_tenTo hexp)) hc (by omega)
  · rcases Nat.lt_or_ge 308 e.natAbs with hdeep | hle
    · obtain ⟨k, hk, rfl⟩ : ∃ k < 16, e = .negSucc (308 + k) :=
        ⟨e.natAbs - 309, by omega, by rw [Int.negSucc_eq]; omega⟩
      exact exists_scaled?_deep hk hd hd18 hc hlt
    · exact exists_scaled?_of_hasDrifted hd hle (hasDrifted_ofNat hd hd20) (hasDrifted_tenTo hle)
        hc hlt

end Hygrometer.Json
