import Hygrometer.Decimal
import Hygrometer.Proofs.Binary64.Grid

/-!
# Shortest decimals read back

The shortest decimal of a magnitude is found by a search: from the coarsest grid of decimals to the
finest, the first that has a point in the **rounding interval** of the magnitude. On every grid only
the two points beside the magnitude are looked at, and the nearer of them is taken if both are
inside. The model computes with naturals, in quarters of a unit and over a common denominator; here
the same is said of rationals.

**The interval holds the numbers whose nearest code is the magnitude's own**
(`isNearest_iff_interval`). Its ends are the midpoints on the two sides, and they belong to it if
the code is even. With this, everything about the search is about `IsNearest`, and none of the
arithmetic of the interval comes up again.

**Two points are enough.** Numbers with one nearest code form an interval around the magnitude, so
if any point of a grid is in it, so is the one between it and the magnitude, which is one of the two
beside it (`gridPoint?_isSome`). So a grid that is passed over has no point at all in the interval.

What the search gives follows (`shortest_spec`). The shortest decimal

* is in the interval, so that it reads back (`isNearest_shortest`);
* is on the coarsest grid that has a point there (`le_shortest_exp`);
* has at most eighteen digits (`shortest_digits_lt`): the next coarser grid has no point in the
  interval, so its step is not small, and a number is at most `2 ^ 53` gaps large.

The search ends at the finest grid at the latest, whose step is less than half of a unit
(`finestStep_lt`). Powers of this size are compared by comparing powers of three digits
(`two_pow_le_ten_pow`).
-/

namespace Hygrometer.Decimal

open Binary64 (unitsPerOne)
open Magnitude (IsNearest place unitsAt)

/-- The number that a decimal denotes. -/
def value (w : Decimal) : ℚ := w.digits * 10 ^ w.exp

variable {m : Magnitude} {tie : DecimalTie} {e : ℤ} {d : ℕ}

/-! ### Powers of two and of ten -/

/-- Ninety-three powers of two are less than twenty-eight powers of ten, any number of times. -/
theorem two_pow_le_ten_pow {i j : ℕ} (n : ℕ) (hi : i = 93 * n) (hj : j = 28 * n) :
    2 ^ i ≤ 10 ^ j := by
  rw [hi, hj, pow_mul, pow_mul]
  exact Nat.pow_le_pow_left (by decide) n

/-- The finest grid has a step of less than half of a unit. -/
theorem two_mul_unitsPerOne_lt {k : ℕ} (hk : k = 308 + 16) : 2 * unitsPerOne < 10 ^ k := by
  have hle : 2 ^ 1023 ≤ 10 ^ 308 := two_pow_le_ten_pow 11 rfl rfl
  rw [hk, pow_add, Binary64.unitsPerOne_eq (j := 1023) (k := 51) rfl, mul_left_comm]
  exact Nat.mul_lt_mul_of_le_of_lt hle (by decide) ((pow_pos two_pos 1023).trans_le hle)

/-- The step of the finest grid, counted in units. -/
theorem finestStep_lt : (10 : ℚ) ^ (-324 : ℤ) * unitsPerOne < 1 / 2 := by
  obtain ⟨k, hk⟩ : ∃ k, k = 324 := ⟨_, rfl⟩
  have hcast : (2 * unitsPerOne : ℚ) < 10 ^ k := by exact_mod_cast two_mul_unitsPerOne_lt hk
  have hneg : (-324 : ℤ) = -(k : ℤ) := by rw [hk]; rfl
  rw [hneg, zpow_neg, zpow_natCast, inv_mul_lt_iff₀ (by positivity)]
  linarith

/-! ### Grids -/

theorem gridStep_snd_pos (e : ℤ) : 0 < (gridStep e).2 := by
  cases e with
  | ofNat e => exact Nat.one_pos
  | negSucc e => exact Nat.pow_pos (by decide)

theorem gridStep_fst_pos (e : ℤ) : 0 < (gridStep e).1 := by
  cases e with
  | ofNat e =>
    rw [gridStep]
    exact Nat.mul_pos (Nat.pow_pos (by decide)) Binary64.unitsPerOne_pos
  | negSucc e => simpa only [gridStep] using Binary64.unitsPerOne_pos

/-- The step of a grid, in units. -/
theorem gridStep_eq (e : ℤ) : ((gridStep e).1 / (gridStep e).2 : ℚ) = 10 ^ e * unitsPerOne := by
  cases e with
  | ofNat e =>
    rw [gridStep, Nat.cast_one, div_one, Nat.cast_mul, Nat.pow_eq, Nat.cast_pow, Nat.cast_ofNat,
      Int.ofNat_eq_natCast, zpow_natCast]
  | negSucc e =>
    rw [gridStep, Nat.pow_eq, Nat.cast_pow, Nat.cast_ofNat, zpow_negSucc, div_eq_inv_mul]

/-! ### The rounding interval -/

/-- Before any other magnitude than zero there is one. -/
theorem exists_code_eq_succ (hm : m ≠ .zero) : ∃ b, m.code = b + 1 := by
  refine Nat.exists_eq_succ_of_ne_zero fun h ↦ hm (Magnitude.code_inj ?_)
  rw [h]
  rfl

/-- The interval begins at the midpoint before the magnitude, counted in quarters. -/
theorem cast_interval_fst {b : ℕ} (hb : m.code = b + 1) :
    ((interval m).1 : ℚ) = 4 * Magnitude.midpoint b := by
  -- The gap before a magnitude is that behind it, or half of it if the magnitude is a power of two.
  have hplace : 2 * Nat.pow 2 m.exp = 2 * 2 ^ place b ∧ ¬ (m.exp ≠ 0 ∧ m.coeff = leadingBit) ∨
      2 * Nat.pow 2 m.exp = 4 * 2 ^ place b ∧ m.exp ≠ 0 ∧ m.coeff = leadingBit := by
    have hlt := m.coeff_lt
    have hcanonical := m.canonical
    rw [Magnitude.code] at hb
    by_cases hedge : m.exp ≠ 0 ∧ m.coeff = leadingBit
    · have hpred : m.exp = place b + 1 := by
        unfold place leadingBit at *
        omega
      refine .inr ⟨?_, hedge⟩
      rw [hpred, Nat.pow_eq, pow_succ]
      ring
    · have hsame : m.exp = place b := by
        unfold place leadingBit at *
        omega
      exact .inl ⟨by rw [hsame, Nat.pow_eq], hedge⟩
  have hunits : unitsAt b + 2 ^ place b = m.units := by
    rw [← Magnitude.unitsAt_succ, ← hb, Magnitude.unitsAt_code]
  have hcentre : 4 * m.units - 2 * 2 ^ place b = 4 * unitsAt b + 2 * 2 ^ place b := by omega
  have hlow : (interval m).1 = 4 * unitsAt b + 2 * 2 ^ place b := by
    rw [← hcentre, interval]
    obtain ⟨hhalf, hedge⟩ | ⟨hhalf, hedge⟩ := hplace
    · rw [if_neg hedge, hhalf]
    · rw [if_pos hedge, hhalf]
      omega
  rw [hlow, Magnitude.midpoint]
  push_cast
  ring

/-- It ends at the midpoint behind it. -/
theorem cast_interval_snd (m : Magnitude) :
    ((interval m).2.1 : ℚ) = 4 * Magnitude.midpoint m.code := by
  rw [Magnitude.midpoint_code, interval, Magnitude.units, Nat.pow_eq]
  push_cast
  ring

/-- **The rounding interval holds the numbers that are nearest to the magnitude.** -/
theorem isNearest_iff_interval (hm : m ≠ .zero) {u : ℚ} :
    IsNearest m.code u ↔
      if (interval m).2.2 then ((interval m).1 : ℚ) ≤ 4 * u ∧ 4 * u ≤ (interval m).2.1
      else ((interval m).1 : ℚ) < 4 * u ∧ 4 * u < (interval m).2.1 := by
  obtain ⟨b, hb⟩ := exists_code_eq_succ hm
  have hclosed : (interval m).2.2 = true ↔ Even (b + 1) := by
    rw [← hb, Magnitude.even_code, Nat.even_iff]
    exact decide_eq_true_iff
  rw [cast_interval_fst hb, cast_interval_snd, hb]
  have hfour : (0 : ℚ) < 4 := four_pos
  simp only [hclosed, mul_le_mul_iff_right₀ hfour, mul_lt_mul_iff_right₀ hfour]
  split
  · next heven =>
    refine ⟨fun h ↦ ⟨IsNearest.midpoint_le h, h.le_midpoint⟩, fun h ↦ ⟨?_, ?_⟩⟩
    · intro b' hb'
      obtain rfl := Nat.succ.inj hb'
      exact h.1.lt_or_eq.imp_right fun h ↦ ⟨h, heven⟩
    · exact h.2.lt_or_eq.imp_right fun h ↦ ⟨h, heven⟩
  · next hodd =>
    refine ⟨fun h ↦ ⟨?_, ?_⟩, fun h ↦ ⟨?_, .inl h.2⟩⟩
    · exact (h.before b rfl).resolve_right fun h ↦ hodd h.2
    · exact h.behind.resolve_right fun h ↦ hodd h.2
    · intro b' hb'
      obtain rfl := Nat.succ.inj hb'
      exact .inl h.1

/-! ### One grid -/

/-- Whether a point of a grid lies in the rounding interval. -/
def isInside (m : Magnitude) (e : ℤ) (d : ℕ) : Bool :=
  let x := 4 * d * (gridStep e).1
  let lo := (interval m).1 * (gridStep e).2
  let hi := (interval m).2.1 * (gridStep e).2
  if (interval m).2.2 then lo ≤ x ∧ x ≤ hi else lo < x ∧ x < hi

/-- **A point is inside exactly if it reads back.** -/
theorem isInside_iff (hm : m ≠ .zero) :
    isInside m e d = true ↔ IsNearest m.code (d * 10 ^ e * unitsPerOne) := by
  have hden : (0 : ℚ) < (gridStep e).2 := Nat.cast_pos.2 (gridStep_snd_pos e)
  have hpoint : (d * 10 ^ e * unitsPerOne : ℚ) = d * (gridStep e).1 / (gridStep e).2 := by
    rw [mul_assoc, ← gridStep_eq, mul_div_assoc]
  have hcast : ((4 * d * (gridStep e).1 : ℕ) : ℚ) =
      4 * (d * 10 ^ e * unitsPerOne) * (gridStep e).2 := by
    rw [hpoint, ← mul_div_assoc, div_mul_cancel₀ _ hden.ne']
    push_cast
    ring
  rw [isNearest_iff_interval hm]
  simp only [isInside]
  split
  · rw [decide_eq_true_iff, ← Nat.cast_le (α := ℚ), ← Nat.cast_le (α := ℚ), hcast, Nat.cast_mul,
      Nat.cast_mul, mul_le_mul_iff_left₀ hden, mul_le_mul_iff_left₀ hden]
  · rw [decide_eq_true_iff, ← Nat.cast_lt (α := ℚ), ← Nat.cast_lt (α := ℚ), hcast, Nat.cast_mul,
      Nat.cast_mul, mul_lt_mul_iff_left₀ hden, mul_lt_mul_iff_left₀ hden]

/-- The point of a grid before a magnitude. -/
def pointBefore (m : Magnitude) (e : ℤ) : ℕ := m.units * (gridStep e).2 / (gridStep e).1

/-- Only the two points beside the magnitude are looked at. -/
theorem gridPoint?_eq (tie : DecimalTie) (m : Magnitude) (e : ℤ) :
    ∃ nearer : Bool, gridPoint? tie m e =
      if (pointBefore m e ≠ 0 && isInside m e (pointBefore m e)) &&
          (!isInside m e (pointBefore m e + 1) || nearer) then
        some (pointBefore m e)
      else if isInside m e (pointBefore m e + 1) then some (pointBefore m e + 1)
      else none := ⟨_, rfl⟩

/-- The point that is taken is inside, and is not zero. -/
theorem isInside_of_gridPoint? (h : gridPoint? tie m e = some d) :
    0 < d ∧ isInside m e d = true := by
  obtain ⟨nearer, heq⟩ := gridPoint?_eq tie m e
  rw [heq] at h
  split at h
  · next hdown =>
    obtain rfl := Option.some.inj h
    simp only [Bool.and_eq_true, decide_eq_true_iff] at hdown
    exact ⟨Nat.pos_of_ne_zero hdown.1.1, hdown.1.2⟩
  · split at h
    · next hup =>
      obtain rfl := Option.some.inj h
      exact ⟨Nat.succ_pos _, hup⟩
    · cases h

/-- If one of the two points is inside, one is taken. -/
theorem gridPoint?_isSome_of (h : pointBefore m e ≠ 0 ∧ isInside m e (pointBefore m e) = true ∨
    isInside m e (pointBefore m e + 1) = true) : (gridPoint? tie m e).isSome = true := by
  obtain ⟨nearer, heq⟩ := gridPoint?_eq tie m e
  rw [heq]
  split
  · rfl
  · next hdown =>
    split
    · rfl
    · next hup =>
      rcases h with ⟨hne, hbefore⟩ | hbehind
      · simp [hne, hbefore, hup] at hdown
      · exact absurd hbehind hup

theorem gridStep_pos (e : ℤ) : (0 : ℚ) < 10 ^ e * unitsPerOne :=
  mul_pos (zpow_pos (by norm_num) e) Binary64.cast_unitsPerOne_pos

/-- The magnitude lies between the two points beside it. -/
theorem pointBefore_le (m : Magnitude) (e : ℤ) :
    (pointBefore m e * 10 ^ e * unitsPerOne : ℚ) ≤ m.units ∧
      (m.units : ℚ) < (pointBefore m e + 1 : ℕ) * 10 ^ e * unitsPerOne := by
  have hnum := gridStep_fst_pos e
  have hden : (0 : ℚ) < (gridStep e).2 := Nat.cast_pos.2 (gridStep_snd_pos e)
  have hle : pointBefore m e * (gridStep e).1 ≤ m.units * (gridStep e).2 := Nat.div_mul_le_self _ _
  have hlt : m.units * (gridStep e).2 < (pointBefore m e + 1) * (gridStep e).1 :=
    Nat.lt_mul_of_div_lt (Nat.lt_succ_self _) hnum
  rw [mul_assoc, mul_assoc, ← gridStep_eq, ← mul_div_assoc, ← mul_div_assoc, div_le_iff₀ hden,
    lt_div_iff₀ hden]
  exact ⟨by exact_mod_cast hle, by exact_mod_cast hlt⟩

/-- **A grid that has a point in the rounding interval has one beside the magnitude.** -/
theorem gridPoint?_isSome (tie : DecimalTie) (hm : m ≠ .zero) (hd : 0 < d)
    (h : IsNearest m.code (d * 10 ^ e * unitsPerOne)) : (gridPoint? tie m e).isSome = true := by
  have hself : IsNearest m.code m.units := by
    rw [← Magnitude.unitsAt_code]
    exact Magnitude.isNearest_unitsAt _
  have hstep := gridStep_pos e
  obtain ⟨hbefore, hbehind⟩ := pointBefore_le m e
  have hmono {j k : ℕ} (hjk : j ≤ k) :
      (j * 10 ^ e * unitsPerOne : ℚ) ≤ k * 10 ^ e * unitsPerOne := by
    rw [mul_assoc, mul_assoc]
    exact mul_le_mul_of_nonneg_right (Nat.cast_le.2 hjk) hstep.le
  refine gridPoint?_isSome_of ?_
  rw [isInside_iff hm, isInside_iff hm]
  rcases Nat.lt_or_ge (pointBefore m e) d with hlt | hle
  · exact .inr (hself.of_le_of_le h hbehind.le (hmono hlt))
  · exact .inl ⟨(hd.trans_le hle).ne', h.of_le_of_le hself (hmono hle) hbefore⟩

/-- A grid without such a point has its step beyond the midpoint behind the magnitude. -/
theorem midpoint_le_of_gridPoint? (hm : m ≠ .zero) (h : gridPoint? tie m e = none) :
    Magnitude.midpoint m.code ≤ m.units + 10 ^ e * unitsPerOne := by
  obtain ⟨hbefore, hbehind⟩ := pointBefore_le m e
  by_contra hlt
  have hnext : ((pointBefore m e + 1 : ℕ) * 10 ^ e * unitsPerOne : ℚ) =
      pointBefore m e * 10 ^ e * unitsPerOne + 10 ^ e * unitsPerOne := by
    push_cast
    ring
  have hnear : IsNearest m.code ((pointBefore m e + 1 : ℕ) * 10 ^ e * unitsPerOne) := by
    refine Magnitude.isNearest_of_lt_midpoint ?_ ?_
    · rw [Magnitude.unitsAt_code]
      exact hbehind.le
    · rw [hnext]
      linarith
  have hsome := gridPoint?_isSome tie hm (Nat.succ_pos _) hnear
  rw [h] at hsome
  cases hsome

/-! ### The search -/

/-- The search ends at the first grid that has a point in the rounding interval. -/
theorem search_eq {fuel : ℕ} {start : ℤ}
    (h : ∃ k < fuel, (gridPoint? tie m (start - k)).isSome = true) :
    ∃ k < fuel, (search tie m fuel start).exp = start - k ∧
      gridPoint? tie m (start - k) = some (search tie m fuel start).digits ∧
      ∀ j < k, gridPoint? tie m (start - j) = none := by
  induction fuel generalizing start with
  | zero =>
    obtain ⟨k, hk, -⟩ := h
    cases hk
  | succ fuel ih =>
    cases hpoint : gridPoint? tie m start with
    | some d =>
      refine ⟨0, Nat.succ_pos _, ?_, ?_, fun j hj ↦ absurd hj (Nat.not_lt_zero j)⟩
      · rw [search, hpoint]
        simp
      · rw [search, hpoint]
        simpa using hpoint
    | none =>
      have hsearch : search tie m (fuel + 1) start = search tie m fuel (start - 1) := by
        rw [search, hpoint]
      have hshift (k : ℕ) : start - ((k + 1 : ℕ) : ℤ) = start - 1 - k := by
        push_cast
        ring
      obtain ⟨k, hk, hsome⟩ := h
      -- The grid that has a point is not this one, so it is a finer one.
      obtain ⟨k, rfl⟩ : ∃ j, k = j + 1 := by
        refine Nat.exists_eq_succ_of_ne_zero ?_
        rintro rfl
        rw [Nat.cast_zero, sub_zero, hpoint] at hsome
        cases hsome
      rw [hshift] at hsome
      obtain ⟨i, hi, hexp, hdigits, hnone⟩ := ih ⟨k, Nat.lt_of_succ_lt_succ hk, hsome⟩
      rw [hsearch]
      refine ⟨i + 1, Nat.succ_lt_succ hi, ?_, ?_, fun j hj ↦ ?_⟩
      · rw [hshift]
        exact hexp
      · rw [hshift]
        exact hdigits
      · cases j with
        | zero => rwa [Nat.cast_zero, sub_zero]
        | succ j =>
          rw [hshift]
          exact hnone j (Nat.lt_of_succ_lt_succ hj)

/-- The finest grid has a point in every rounding interval. -/
theorem gridPoint?_finest (tie : DecimalTie) (hm : m ≠ .zero) :
    (gridPoint? tie m (-324)).isSome = true := by
  obtain ⟨-, hbehind⟩ := pointBefore_le m (-324)
  by_contra hnone
  have hmid := midpoint_le_of_gridPoint? hm (Option.not_isSome_iff_eq_none.1 hnone)
  have hstep := finestStep_lt
  have hgap : (1 : ℚ) ≤ 2 ^ place m.code := one_le_pow₀ one_le_two
  rw [Magnitude.midpoint, Magnitude.unitsAt_code] at hmid
  linarith

/-- **What the shortest decimal is**: a point of the coarsest grid that has one in the rounding
interval. -/
theorem shortest_spec (tie : DecimalTie) (hm : m ≠ .zero) :
    -324 ≤ (shortest tie m).exp ∧ (shortest tie m).exp ≤ 308 ∧
      gridPoint? tie m (shortest tie m).exp = some (shortest tie m).digits ∧
      ∀ e, (shortest tie m).exp < e → e ≤ 308 → gridPoint? tie m e = none := by
  rw [shortest, if_neg hm]
  -- The search passes grids without a point until it finds one, at the finest grid at the latest.
  have hfinest : (gridPoint? tie m (308 - (632 : ℕ))).isSome = true := gridPoint?_finest tie hm
  have hfound : ∃ k < 634, (gridPoint? tie m (308 - (k : ℕ))).isSome = true :=
    ⟨632, by decide, hfinest⟩
  obtain ⟨k, hk, hexp, hdigits, hnone⟩ := search_eq hfound
  have hle : k ≤ 632 := by
    by_contra hlt
    rw [hnone 632 (Nat.lt_of_not_le hlt)] at hfinest
    cases hfinest
  rw [hexp]
  refine ⟨by omega, by omega, hdigits, fun e hlow hhigh ↦ ?_⟩
  obtain ⟨j, hj⟩ : ∃ j : ℕ, 308 - e = j := Int.eq_ofNat_of_zero_le (by omega)
  rw [show e = 308 - (j : ℤ) by omega]
  exact hnone j (by omega)

/-- **The shortest decimal reads back.** -/
theorem isNearest_shortest (tie : DecimalTie) (hm : m ≠ .zero) :
    IsNearest m.code ((shortest tie m).value * unitsPerOne) := by
  obtain ⟨-, -, hpoint, -⟩ := shortest_spec tie hm
  exact (isInside_iff hm).1 (isInside_of_gridPoint? hpoint).2

/-- The shortest decimal of a magnitude that is not zero is not zero. -/
theorem shortest_digits_pos (tie : DecimalTie) (hm : m ≠ .zero) :
    0 < (shortest tie m).digits := by
  obtain ⟨-, -, hpoint, -⟩ := shortest_spec tie hm
  exact (isInside_of_gridPoint? hpoint).1

/-- **No decimal that reads back has a coarser grid.** -/
theorem le_shortest_exp (tie : DecimalTie) (hm : m ≠ .zero) (hd : 0 < d) (he : e ≤ 308)
    (h : IsNearest m.code (d * 10 ^ e * unitsPerOne)) : e ≤ (shortest tie m).exp := by
  obtain ⟨-, -, -, hnone⟩ := shortest_spec tie hm
  by_contra hlt
  have hsome := gridPoint?_isSome tie hm hd h
  rw [hnone e (Int.lt_of_not_ge hlt) he] at hsome
  cases hsome

/-- **The shortest decimal has at most eighteen digits.** -/
theorem shortest_digits_lt (tie : DecimalTie) (hm : m ≠ .zero) :
    (shortest tie m).digits < 10 ^ 18 := by
  obtain ⟨-, hexp, -, hnone⟩ := shortest_spec tie hm
  have hle := (isNearest_shortest tie hm).le_midpoint
  rw [value] at hle
  generalize (shortest tie m).digits = d at hle
  generalize (shortest tie m).exp = e at hexp hnone hle
  rcases hexp.lt_or_eq with hlt | rfl
  · -- The next coarser grid has no point, so its step is not small.
    have hmid := midpoint_le_of_gridPoint? hm (hnone (e + 1) (Int.lt_succ e) hlt)
    have hstep : (10 : ℚ) ^ (e + 1) * unitsPerOne = 10 * (10 ^ e * unitsPerOne) := by
      rw [zpow_add_one₀ (by norm_num)]
      ring
    have hpos := gridStep_pos e
    rw [hstep] at hmid
    rw [mul_assoc] at hle
    generalize (10 : ℚ) ^ e * unitsPerOne = s at hmid hle hpos
    have hfull := Magnitude.cast_unitsAt_succ_le m.code
    have hunder := Magnitude.midpoint_lt_unitsAt_succ m.code
    rw [← Magnitude.unitsAt_code, Magnitude.midpoint] at hmid
    have hbound : (d : ℚ) * s < 10 ^ 18 * s := by linarith
    exact_mod_cast lt_of_mul_lt_mul_right hbound hpos.le
  · -- On the coarsest grid no number in range has more than one digit.
    have hcode : m.code + 1 ≤ (1024 + 1023) * leadingBit := m.code_lt
    have htop : ((unitsAt (m.code + 1) : ℕ) : ℚ) ≤ 2 ^ 1024 * unitsPerOne := by
      rw [← Binary64.unitsAt_of_two_pow]
      exact Nat.cast_le.2 (Magnitude.strictMono_unitsAt.monotone hcode)
    have hlt : (d : ℚ) * 10 ^ (308 : ℤ) < 2 ^ 1024 :=
      lt_of_mul_lt_mul_right ((hle.trans_lt (Magnitude.midpoint_lt_unitsAt_succ _)).trans_le htop)
        Binary64.cast_unitsPerOne_pos.le
    have hnat : d * 10 ^ 308 < 2 ^ 1024 := by
      exact_mod_cast hlt
    have hone : 2 ^ 1024 ≤ 10 ^ 18 * 10 ^ 308 := by
      rw [show 1024 = 1 + 1023 by rfl, pow_add]
      exact Nat.mul_le_mul (by decide) (two_pow_le_ten_pow 11 rfl rfl)
    exact lt_of_mul_lt_mul_right (hnat.trans_le hone) (Nat.zero_le _)

end Hygrometer.Decimal
