import Hygrometer.Proofs.Json.ReadBack

/-!
# Numerals in range

Which numerals are read as numbers. A numeral of any length is scaled by a power of ten once as many
of its digits are taken as fit the significand, and what is scaled is no more than what the numeral
denotes (`Parts.significand_mul_le`). The roundings may still take it past the greatest number, by
two codes at most, so a numeral is sure to be read if it denotes no more than the greatest number
but two (`Parts.InRange.exists_evaluate?`). Above that it may be too large for the reader, although
there are greater numbers.

**The range is a condition on the parts** (`Parts.InRange`): on the number that they denote, and on
how long they are. The second is there because the reader counts the power of ten in 32 bits; it is
met by every numeral whose fraction is shorter than two thousand million digits, and is not of
interest otherwise. Numbers of `n` digits, with room for the power, are in range by counting
(`inRange_of_digits_lt`).

**Digits beyond the significand** are dropped. A whole digit that is dropped raises the power, and a
digit of the fraction is as if it were not there, so that what is left denotes less than before
(`significand_mul_zpow_le`). Nothing is said about how much less, as only an upper bound is wanted
here.
-/

namespace Hygrometer.Json

open Binary64 (unitsPerOne infinityCode cast_unitsPerOne_pos topPower topPower_bounds value?_ofNat
  hasDrifted_of_value hasDrifted_tenTo hasDrifted_ofNat)
open Magnitude (IsNearest unitsAt)
open Text (natOfDecimal)

/-! ### The greatest number but two -/

/-- The greatest magnitude but two. -/
def largestButTwo : Magnitude :=
  { largest with coeff := 2 * leadingBit - 3, coeff_lt := by decide, canonical := .inr (by decide) }

/-- The value of the greatest number but two. -/
def limit : ℚ := (2 ^ 53 - 3) * 2 ^ 971

theorem code_largestButTwo : largestButTwo.code + 2 < infinityCode := by decide

theorem value?_largestButTwo : (Binary64.finite false largestButTwo).value? = some limit := by
  have hcoeff : (largestButTwo.coeff : ℚ) = 2 ^ 53 - 3 := by
    rw [show largestButTwo.coeff = 9007199254740989 from rfl]
    norm_num
  rw [Binary64.value?_of_exp_eq (k := 971) rfl, hcoeff, limit]

theorem limit_pos : 0 < limit := mul_pos (by norm_num) (pow_pos two_pos 971)

theorem limit_mul_unitsPerOne : limit * unitsPerOne = unitsAt largestButTwo.code := by
  rw [Magnitude.unitsAt_code, units_eq_of_value value?_largestButTwo, abs_of_pos limit_pos]

/-- It has 309 digits before the point. -/
theorem limit_lt : limit < 10 ^ 309 := by
  have hhigh := topPower_bounds.2
  have hpos : (0 : ℚ) < 2 ^ 971 := pow_pos two_pos 971
  have hten : (0 : ℚ) < 10 ^ 308 := pow_pos (by norm_num) 308
  have hsucc : (10 : ℚ) ^ 309 = 10 ^ 308 * 10 := pow_succ 10 308
  rw [limit, hsucc]
  rw [topPower] at hhigh
  generalize (2 : ℚ) ^ 971 = s at hhigh hpos ⊢
  generalize (10 : ℚ) ^ 308 = t at hhigh hten ⊢
  linarith

theorem ten_pow_le_limit : (10 : ℚ) ^ 308 ≤ limit := by
  refine topPower_bounds.1.trans ?_
  rw [limit, topPower]
  exact mul_le_mul_of_nonneg_right (by norm_num) (pow_pos two_pos 971).le

/-! ### Scaling within the range -/

variable {t : ℕ}

theorem isSome_scaled?_zero (e : ℤ) : (scaled? 0 e).isSome := by
  cases e with
  | negSucc k =>
    rw [scaled?]
    rfl
  | ofNat k =>
    rcases Nat.lt_or_ge 308 k with hfar | hk
    · rw [scaled?]
      simp only [if_neg (Nat.not_le.2 hfar), if_true, Option.isSome_some]
    · obtain ⟨f, -, h⟩ := (hasDrifted_of_value (value?_ofNat (n := 0) (by decide))).isRounding_mul
        (hasDrifted_tenTo hk)
      have hnone : IsNearest 0 (0 * unitsPerOne : ℚ) := by
        rw [zero_mul, ← Nat.cast_zero (R := ℚ), ← Magnitude.unitsAt_zero]
        exact Magnitude.isNearest_unitsAt 0
      rw [Nat.cast_zero, zero_mul, zero_mul] at h
      obtain ⟨s, m, hm, -⟩ := h.exists_eq le_rfl hnone (by decide)
      rw [scaled?_ofNat hk, hm]
      rfl

/-- **A significand that is scaled within the range** gives a number. -/
theorem isSome_scaled? (ht : t < UInt64.size) {e : ℤ} (h : t * (10 : ℚ) ^ e ≤ limit) :
    (scaled? t e).isSome := by
  rcases Nat.eq_zero_or_pos t with rfl | hpos
  · exact isSome_scaled?_zero e
  cases e with
  | negSucc k =>
    rw [scaled?]
    rfl
  | ofNat k =>
    have hone : (1 : ℚ) ≤ t := Nat.one_le_cast.2 hpos
    have h0 : (0 : ℚ) ≤ t * 10 ^ Int.ofNat k :=
      mul_nonneg (Nat.cast_nonneg t) (zpow_nonneg (by norm_num) _)
    have hk : k ≤ 308 := by
      by_contra hfar
      have hten : (10 : ℚ) ^ 309 ≤ 10 ^ k := pow_le_pow_right₀ (by norm_num) (by omega)
      have hle : (10 : ℚ) ^ k ≤ t * 10 ^ k := le_mul_of_one_le_left (by positivity) hone
      exact absurd limit_lt (not_lt.2 ((hten.trans hle).trans h))
    obtain ⟨c, hc⟩ := Magnitude.exists_isNearest (mul_nonneg h0 cast_unitsPerOne_pos.le)
    have hle : c ≤ largestButTwo.code := by
      refine hc.le_of_le (Magnitude.isNearest_unitsAt _) ?_
      rw [← limit_mul_unitsPerOne]
      exact mul_le_mul_of_nonneg_right h cast_unitsPerOne_pos.le
    obtain ⟨m, hm, -⟩ := exists_scaled?_of_hasDrifted (i := 1) (j := 1) (e := k) hpos hk
      (hasDrifted_ofNat hpos (ht.trans (by decide))) (hasDrifted_tenTo hk) hc
      ((Nat.add_le_add_right hle 2).trans_lt code_largestButTwo)
    exact Option.isSome_of_eq_some hm

/-! ### Numerals of any length -/

namespace Parts

variable {p : Parts}

/-- The number that the parts denote, but for its sign. -/
def value (p : Parts) : ℚ := p.digits * 10 ^ p.exp

/-- The number is surely in the range of the reader. -/
structure InRange (p : Parts) : Prop where
  /-- It is not above the greatest number but two. -/
  value_le : p.value ≤ limit
  /-- An exponent that makes up for the fraction has 31 bits. -/
  short : (p.fraction.getD []).length + 309 ≤ 0x80000000

/-- Numbers with up to 308 digits before the point are in range. -/
theorem inRange_of_digits_lt {n : ℕ} (hdigits : p.digits < 10 ^ n) (hexp : n + p.exp ≤ 308)
    (hshort : (p.fraction.getD []).length + 309 ≤ 0x80000000) : p.InRange where
  short := hshort
  value_le := by
    have hle : (p.digits : ℚ) ≤ 10 ^ n := by exact_mod_cast hdigits.le
    calc p.value ≤ 10 ^ n * 10 ^ p.exp :=
          mul_le_mul_of_nonneg_right hle (zpow_nonneg (by norm_num) _)
      _ = 10 ^ (n + p.exp) := by rw [zpow_add₀ (by norm_num), zpow_natCast]
      _ ≤ 10 ^ (308 : ℤ) := zpow_le_zpow_right₀ (by norm_num) hexp
      _ ≤ limit := ten_pow_le_limit

theorem mul_le_natOfDecimal_append (cs ds : List Char) :
    natOfDecimal cs * 10 ^ ds.length ≤ natOfDecimal (cs ++ ds) := by
  rw [Text.natOfDecimal_append, Nat.mul_comm]
  exact Nat.le_add_right _ _

/-- **The significand never gains by the digits that are left out.** Once a digit of the whole part
does not fit, at most one of the fraction still does, and it is less than the one left out. -/
theorem significand_mul_le {s : ℕ} {left unused : List Char}
    (hwhole : absorb 0 p.whole = (s, left))
    (hfraction : absorb s (p.fraction.getD []) = (t, unused)) :
    t < UInt64.size ∧ t * 10 ^ (left.length + unused.length) ≤ p.digits := by
  obtain ⟨taken, hw, hs, hlt, hfull⟩ := exists_of_absorb (by decide) hwhole
  obtain ⟨taken', hf, ht, htlt, -⟩ := exists_of_absorb hlt hfraction
  refine ⟨htlt, ?_⟩
  rw [Nat.mul_zero, Nat.zero_add] at hs
  rw [hs, ← Text.natOfDecimal_append] at ht
  rw [digits, hw, hf]
  rcases left with - | ⟨c, cs⟩
  · -- All whole digits fit, and some of the fraction.
    rw [ht, List.append_nil, List.length_nil, Nat.zero_add, ← List.append_assoc]
    exact mul_le_natOfDecimal_append _ _
  rcases taken' with - | ⟨d, ds⟩
  · -- Not all whole digits fit, and none of the fraction.
    rw [ht, List.append_nil, List.nil_append, List.append_assoc, ← List.length_append]
    exact mul_le_natOfDecimal_append _ _
  · -- Not all whole digits fit, but one of the fraction does.
    have hless : t ≤ natOfDecimal (taken ++ [c]) := by
      rw [Text.natOfDecimal_append, ← hs]
      exact htlt.le.trans (hfull c cs rfl)
    have hsplit : taken ++ c :: cs ++ (d :: ds ++ unused) =
        taken ++ [c] ++ (cs ++ d :: ds ++ unused) := by simp
    have hlength : (c :: cs).length + unused.length ≤ (cs ++ d :: ds ++ unused).length := by
      simp only [List.length_append, List.length_cons]
      omega
    rw [hsplit]
    calc t * 10 ^ ((c :: cs).length + unused.length)
        ≤ natOfDecimal (taken ++ [c]) * 10 ^ (cs ++ d :: ds ++ unused).length :=
          Nat.mul_le_mul hless (Nat.pow_le_pow_right (by decide) hlength)
      _ ≤ natOfDecimal (taken ++ [c] ++ (cs ++ d :: ds ++ unused)) :=
          mul_le_natOfDecimal_append _ _

/-- What the significand is scaled to is no more than what the numeral denotes. -/
theorem significand_mul_zpow_le {s : ℕ} {left unused : List Char}
    (hwhole : absorb 0 p.whole = (s, left))
    (hfraction : absorb s (p.fraction.getD []) = (t, unused)) :
    t * (10 : ℚ) ^ (left.length - ((p.fraction.getD []).length - unused.length) + p.power : ℤ) ≤
      p.value := by
  have hle : ((t * 10 ^ (left.length + unused.length) : ℕ) : ℚ) ≤ p.digits :=
    Nat.cast_le.2 (significand_mul_le hwhole hfraction).2
  have hplaces : (left.length - ((p.fraction.getD []).length - unused.length) + p.power : ℤ) =
      ((left.length + unused.length : ℕ) : ℤ) + p.exp := by
    rw [exp]
    push_cast
    ring
  rw [hplaces, zpow_add₀ (by norm_num), zpow_natCast, ← mul_assoc, value]
  push_cast at hle
  exact mul_le_mul_of_nonneg_right hle (zpow_nonneg (by norm_num) _)

/-- An exponent past 31 bits is not in the range, unless it is that of a zero. -/
theorem InRange.power_lt (h : p.InRange) (hdigits : 0 < p.digits) : p.power < 0x80000000 := by
  by_contra hfar
  have hexp : 309 ≤ p.exp := by
    have hshort := h.short
    rw [exp]
    omega
  have hone : (1 : ℚ) ≤ p.digits := Nat.one_le_cast.2 hdigits
  have hten : (10 : ℚ) ^ (309 : ℤ) ≤ 10 ^ p.exp := zpow_le_zpow_right₀ (by norm_num) hexp
  have hle : (10 : ℚ) ^ p.exp ≤ p.value := le_mul_of_one_le_left (zpow_nonneg (by norm_num) _) hone
  exact absurd limit_lt (not_lt.2 (hten.trans (hle.trans h.value_le)))

/-- **A numeral in range is read as a number**, however many digits it has. -/
theorem InRange.exists_evaluate? (h : p.InRange) (negative : Bool) :
    ∃ n, evaluate? negative p.whole p.fraction p.exponent = some n := by
  rcases hwhole : absorb 0 p.whole with ⟨s, left⟩
  rcases hfraction : absorb s (p.fraction.getD []) with ⟨t, unused⟩
  obtain ⟨ht, hdigits⟩ := significand_mul_le hwhole hfraction
  have hscaled := isSome_scaled? ht ((significand_mul_zpow_le hwhole hfraction).trans h.value_le)
  have hpower : 0 < t → p.power < 0x80000000 := fun hpos ↦
    h.power_lt ((Nat.mul_pos hpos (Nat.pow_pos (by decide))).trans_le hdigits)
  rw [← Option.isSome_iff_exists, evaluate?, hwhole]
  dsimp only
  split
  · split_ifs <;> rfl
  · simp only [hfraction]
    rw [power] at hscaled hpower
    generalize p.exponent = x at hscaled hpower ⊢
    rcases x with - | ⟨down, ds⟩
    · rw [add_zero] at hscaled
      rwa [Option.isSome_map]
    rcases Nat.lt_or_ge (natOfDecimal ds) 0x80000000 with hshort | hlong
    · cases down <;> simpa [hshort, ← sub_eq_add_neg] using hscaled
    · -- Such an exponent is that of a zero, or it leaves nothing of the number.
      have hsmall : ¬ (t ≠ 0 ∧ (!down) = true) := by
        rintro ⟨hne, hup⟩
        have hlt := hpower (Nat.pos_of_ne_zero hne)
        cases down with
        | true => cases hup
        | false =>
          simp only [Bool.false_eq_true, if_false] at hlt
          omega
      simp only [if_neg (Nat.not_lt.2 hlong), if_neg hsmall, Option.isSome_some]

end Parts

end Hygrometer.Json
