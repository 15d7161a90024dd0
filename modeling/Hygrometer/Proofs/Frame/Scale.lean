import Hygrometer.Proofs.Binary64.Clamp
import Hygrometer.Proofs.Frame.RoundTrip

/-!
# The scales of a measurement

A raw value is a fraction of full scale, and a scale says which part of a range that is: humidity
goes from 0 to 100 percent and temperature from -50 to 150 degrees Celsius. `scaled` is the physical
value as a rational, and `percent` and `celsius` are the two cases of it that a measurement has. The
sample holds exactly these, and twenty bits keep them inside the range, short of its upper end by
one step.

On the way back, a number is clamped to the range, taken as a fraction of it, and rounded to the
nearest step. What a scale has to know of its own fraction is little (`IsScale`): that the
operations in it lose far less than half a step, and that they keep the order. The rest is the same
for both scales, and follows from these two:

* **A raw value is at most one step off** (`IsScale.abs_scaled_sub_le`): one half for the rounding
  to a whole step, and one for the top of the scale, which no raw value reaches.
* **The greater number has the greater raw value** (`IsScale.scaled_le`).
* The raw value is capped, so that it never has more than twenty bits (`IsScale.exists_val_eq`).

That the clamp comes first is what makes all of this hold for any number at all, an infinity
included; not-a-number passes it and ends at the bottom of the scale (`IsScale.ofFraction_nan`).
-/

namespace Hygrometer.RawSample

open Binary64

/-! ### Physical values -/

/-- The physical value of a raw one, on a scale from `a` to `b`. -/
def scaled (a b : ℚ) (n : Fin rawScale) : ℚ := a + (b - a) * (n / 2 ^ 20)

section

variable {a b : ℚ} {m n : Fin rawScale}

/-- No raw value is below the scale. -/
theorem le_scaled (hab : a ≤ b) : a ≤ scaled a b n := by
  have hfraction : 0 ≤ (b - a) * ((n : ℚ) / 2 ^ 20) :=
    mul_nonneg (sub_nonneg.2 hab) (by positivity)
  rw [scaled]
  linarith

/-- A raw value is at least one step short of full scale. -/
theorem cast_val_le (n : Fin rawScale) : ((n : ℕ) : ℚ) ≤ 2 ^ 20 - 1 := by
  have hle : (n : ℕ) + 1 ≤ 2 ^ 20 := n.isLt
  have hcast : ((n : ℕ) : ℚ) + 1 ≤ 2 ^ 20 := by exact_mod_cast hle
  linarith

/-- The physical value is one step short of the top. -/
theorem scaled_le_sub (hab : a ≤ b) : scaled a b n ≤ b - (b - a) / 2 ^ 20 := by
  have hfraction : (n : ℚ) / 2 ^ 20 ≤ (2 ^ 20 - 1) / 2 ^ 20 := by
    gcongr
    exact cast_val_le n
  have hmul := mul_le_mul_of_nonneg_left hfraction (sub_nonneg.2 hab)
  rw [scaled]
  linarith

/-- The greater raw value is the greater physical one. -/
theorem scaled_le_scaled (hab : a ≤ b) (h : (m : ℕ) ≤ n) : scaled a b m ≤ scaled a b n := by
  have hwidth : 0 ≤ b - a := sub_nonneg.2 hab
  rw [scaled, scaled]
  gcongr

end

variable (raw : RawSample)

/-- The relative humidity in percent. -/
def percent : ℚ := raw.humidity * 100 / 2 ^ 20

/-- The temperature in degrees Celsius. -/
def celsius : ℚ := raw.temperature * 200 / 2 ^ 20 - 50

theorem percent_eq_scaled : raw.percent = scaled 0 100 raw.humidity := by
  rw [percent, scaled]
  ring

theorem celsius_eq_scaled : raw.celsius = scaled (-50) 150 raw.temperature := by
  rw [celsius, scaled]
  ring

/-- **The sample has the humidity exactly.** -/
theorem value?_humidity_eq_percent : raw.toSample.humidity.value? = some raw.percent := by
  have hscale : ((rawScale : ℕ) : ℚ) = 2 ^ 20 := by norm_num
  rw [value?_humidity, percent, hscale, div_mul_eq_mul_div]

/-- **The sample has the temperature exactly.** -/
theorem value?_temperatureC_eq_celsius : raw.toSample.temperatureC.value? = some raw.celsius := by
  have hscale : ((rawScale : ℕ) : ℚ) = 2 ^ 20 := by norm_num
  rw [value?_temperatureC, celsius, hscale, div_mul_eq_mul_div]

/-- The humidity is in its range, short of the top. -/
theorem percent_bounds : 0 ≤ raw.percent ∧ raw.percent ≤ 100 - 100 / 2 ^ 20 := by
  rw [percent_eq_scaled]
  exact ⟨le_scaled isRange_percent.le, (scaled_le_sub isRange_percent.le).trans_eq (by norm_num)⟩

/-- So is the temperature. -/
theorem celsius_bounds : -50 ≤ raw.celsius ∧ raw.celsius ≤ 150 - 200 / 2 ^ 20 := by
  rw [celsius_eq_scaled]
  exact ⟨le_scaled isRange_celsius.le, (scaled_le_sub isRange_celsius.le).trans_eq (by norm_num)⟩

/-! ### Fractions of full scale -/

/-- A number is the fraction of a full scale that another one is, up to what the operations on the
way lose. -/
def IsFraction (x : Binary64) (e : ℚ) : Prop := ∃ r, x.value? = some r ∧ |r - e| ≤ 1 / 2 ^ 22

/-- A raw value is the nearest natural number on the scale: the cap keeps it within twenty bits. -/
theorem val_ofFraction (x : Binary64) :
    (ofFraction x : ℕ) = (x * fullScale).toNatNearest (rawScale - 1) := by
  have hle := toNatNearest_le (rawScale - 1) (x * fullScale)
  rw [ofFraction, Fin.val_ofNat, Nat.mod_eq_of_lt (Nat.lt_of_le_sub_one (by decide) hle)]

/-- **A raw value is at most one step off a fraction of full scale that is known well enough.** -/
theorem abs_ofFraction_sub_le {x : Binary64} {e : ℚ} (hx : IsFraction x e) (h0 : 0 ≤ e)
    (h1 : e ≤ 1) : |((ofFraction x : ℕ) : ℚ) - e * 2 ^ 20| ≤ 1 := by
  obtain ⟨r, hr, herror⟩ := hx
  have hscale : fullScale.value? = some (2 ^ 20 : ℚ) := by
    rw [value?_fullScale]
    norm_num
  rw [abs_le] at herror
  have hsize : |r * 2 ^ 20| ≤ 2 ^ 21 := by
    rw [abs_le]
    constructor <;> linarith
  obtain ⟨p, hp, hround⟩ := (isRounding_mul hr hscale).exists_value? hsize (by decide)
  -- A quarter of a step is lost by the fraction, and less than another one by the product.
  have hnear : |p - e * 2 ^ 20| ≤ 1 / 2 := by
    rw [abs_le] at hround ⊢
    constructor <;> linarith
  have htop : ((rawScale - 1 : ℕ) : ℚ) + 1 = 2 ^ 20 := by norm_num
  rw [val_ofFraction]
  exact abs_toNatNearest_sub_le hp hnear (by positivity) (by rw [htop]; linarith)

/-! ### The order -/

/-- Two numbers that are not negative, of which the first is not the greater one. -/
def IsOrdered (k : ℕ) (x y : Binary64) : Prop :=
  ∃ p q, x.value? = some p ∧ y.value? = some q ∧ 0 ≤ p ∧ p ≤ q ∧ q ≤ 2 ^ k

section

variable {x y z : Binary64} {p q : ℚ} {k : ℕ}

/-- What two numbers in order are rounded to. -/
theorem isOrdered_of_isRounding (hx : IsRounding x p) (hy : IsRounding y q) (h0 : 0 ≤ p)
    (h : p ≤ q) (hq : q ≤ 2 ^ k) (hk : k ≤ 52) : IsOrdered k x y := by
  have hpow : 2 ^ k < 2 * leadingBit := (Nat.pow_le_pow_right (by decide) hk).trans_lt (by decide)
  have habs {r : ℚ} (hr0 : 0 ≤ r) (hr : r ≤ 2 ^ k) : |r| ≤ 2 ^ k := by rwa [abs_of_nonneg hr0]
  obtain ⟨r, hr, -⟩ := hx.exists_value? (habs h0 (h.trans hq)) (by omega)
  obtain ⟨s, hs, -⟩ := hy.exists_value? (habs (h0.trans h) hq) (by omega)
  have hlow := (isRounding_ofNat 0).le_of_le hx (Nat.cast_nonneg 0) (by simpa using h0)
    (h.trans hq) (by omega) (value?_ofNat (by decide)) hr
  have hhigh := hy.le_of_le (k := k) (isRounding_ofNat (2 ^ k)) (h0.trans h) (by simpa using hq)
    (by simp) (by omega) hs (value?_ofNat hpow)
  refine ⟨r, s, hr, hs, by simpa using hlow, ?_, by simpa using hhigh⟩
  exact hx.le_of_le hy h0 h hq (by omega) hr hs

/-- Division by a natural number keeps two numbers in order. -/
theorem IsOrdered.div {n : ℕ} (h : IsOrdered k x y) (hz : z.value? = some (n : ℚ)) (hn : 1 ≤ n)
    (hk : k ≤ 52) : IsOrdered k (x / z) (y / z) := by
  obtain ⟨p, q, hp, hq, h0, hle, hlt⟩ := h
  have hn' : (1 : ℚ) ≤ n := by exact_mod_cast hn
  have hne : (n : ℚ) ≠ 0 := by linarith
  refine isOrdered_of_isRounding (isRounding_div hp hz hne) (isRounding_div hq hz hne)
    (by positivity) (by gcongr) ?_ hk
  exact (div_le_self (h0.trans hle) hn').trans hlt

/-- So does counting in steps. -/
theorem IsOrdered.mul_fullScale (h : IsOrdered k x y) (hk : k ≤ 32) :
    IsOrdered (k + 20) (x * fullScale) (y * fullScale) := by
  obtain ⟨p, q, hp, hq, h0, hle, hlt⟩ := h
  have hscale : ((rawScale : ℕ) : ℚ) = 2 ^ 20 := by norm_num
  refine isOrdered_of_isRounding (isRounding_mul hp value?_fullScale)
    (isRounding_mul hq value?_fullScale) (by positivity) (by gcongr) ?_ (by omega)
  rw [hscale, pow_add]
  gcongr

/-- **Greater fractions have greater raw values.** -/
theorem ofFraction_le (h : IsOrdered k x y) (hk : k ≤ 32) :
    (ofFraction x : ℕ) ≤ ofFraction y := by
  obtain ⟨p, q, hp, hq, -, hle, -⟩ := h.mul_fullScale hk
  rw [val_ofFraction, val_ofFraction]
  exact toNatNearest_le_of_le hp hq hle _

end

/-! ### Scales -/

/-- Numbers in a range are taken as fractions of it, with little loss and in order. -/
structure IsScale (lo hi : Binary64) (a b : ℚ) (fraction : Binary64 → Binary64) : Prop extends
    IsRange lo hi a b where
  /-- The range is not a point. -/
  lt : a < b
  /-- A number in the range is taken as the fraction that it is. -/
  isFraction : ∀ {x q}, x.value? = some q → a ≤ q → q ≤ b →
    IsFraction (fraction x) ((q - a) / (b - a))
  /-- Numbers in order stay so. -/
  isOrdered : ∀ {x y p q}, x.value? = some p → y.value? = some q → a ≤ p → p ≤ q → q ≤ b →
    IsOrdered 8 (fraction x) (fraction y)
  /-- Not-a-number stays what it is. -/
  nan : fraction .nan = .nan

/-- **The scale of the humidity**: the quotient is at most 1 in size. -/
theorem isScale_percent : IsScale 0 100 0 100 (· / 100) where
  toIsRange := isRange_percent
  lt := by norm_num
  nan := nan_div 100
  isFraction := by
    intro x q hx h0 h1
    have hdiv := isRounding_div hx isRange_percent.hi (by norm_num)
    obtain ⟨r, hr, herror⟩ := hdiv.exists_value? (k := 0)
      (by rw [abs_le]; constructor <;> linarith) (by decide)
    rw [sub_zero, sub_zero]
    exact ⟨r, hr, herror.trans (by norm_num)⟩
  isOrdered := by
    intro x y p q hx hy h0 hle h1
    have hordered : IsOrdered 8 x y := ⟨p, q, hx, hy, h0, hle, h1.trans (by norm_num)⟩
    exact hordered.div (value?_literal (n := 100) (by decide)) (by decide) (by decide)

/-- **The scale of the temperature**, counted from its bottom: the sum is less than 256 in size, and
the quotient at most 2. -/
theorem isScale_celsius : IsScale (-50) 150 (-50) 150 fun x ↦ (x + 50) / 200 where
  toIsRange := isRange_celsius
  lt := by norm_num
  nan := by rw [nan_add, nan_div]
  isFraction := by
    intro x q hx h0 h1
    have hadd := isRounding_add hx (value?_literal (n := 50) (by decide))
    push_cast at hadd
    obtain ⟨s, hs, hshift⟩ := hadd.exists_value? (k := 8)
      (by rw [abs_le]; constructor <;> linarith) (by decide)
    rw [abs_le] at hshift
    have hdiv := isRounding_div hs (value?_literal (n := 200) (by decide)) (by norm_num)
    push_cast at hdiv
    obtain ⟨r, hr, herror⟩ := hdiv.exists_value? (k := 1)
      (by rw [abs_le]; constructor <;> linarith) (by decide)
    refine ⟨r, hr, ?_⟩
    rw [abs_le] at herror ⊢
    constructor <;> linarith
  isOrdered := by
    intro x y p q hx hy h0 hle h1
    have hfifty : (50 : Binary64).value? = some ((50 : ℕ) : ℚ) := value?_literal (by decide)
    have hordered : IsOrdered 8 (x + 50) (y + 50) := by
      refine isOrdered_of_isRounding (isRounding_add hx hfifty) (isRounding_add hy hfifty) ?_
        (add_le_add_left hle _) ?_ (by decide)
      · push_cast
        linarith
      · push_cast
        linarith
    exact hordered.div (value?_literal (n := 200) (by decide)) (by decide) (by decide)

namespace IsScale

variable {lo hi x y : Binary64} {a b q : ℚ} {fraction : Binary64 → Binary64}

/-- Not-a-number is the bottom of every scale. -/
theorem ofFraction_nan (h : IsScale lo hi a b fraction) :
    ofFraction (fraction (Binary64.nan.clamp lo hi)) = 0 := by
  rw [← Fin.val_inj, nan_clamp, h.nan, val_ofFraction, nan_mul]
  rfl

/-- **A number is kept up to one step**, once it has been clamped. -/
theorem abs_scaled_sub_le (h : IsScale lo hi a b fraction) (hq : x.clamped? a b = some q) :
    |scaled a b (ofFraction (fraction (x.clamp lo hi))) - q| ≤ (b - a) / 2 ^ 20 := by
  have hx : x ≠ .nan := by
    rintro rfl
    cases hq
  obtain ⟨ha, hb⟩ := mem_of_clamped? h.le hq
  have hwidth : 0 < b - a := sub_pos.2 h.lt
  have hstep := abs_ofFraction_sub_le (h.isFraction ((h.value?_clamp hx).trans hq) ha hb)
    (div_nonneg (sub_nonneg.2 ha) hwidth.le) ((div_le_one hwidth).2 (by linarith))
  generalize ofFraction (fraction (x.clamp lo hi)) = n at hstep ⊢
  have hsplit : scaled a b n - q = ((n : ℚ) - (q - a) / (b - a) * 2 ^ 20) * ((b - a) / 2 ^ 20) := by
    have hne := hwidth.ne'
    rw [scaled]
    field_simp
    ring
  rw [hsplit, abs_mul, abs_of_pos (by positivity : 0 < (b - a) / 2 ^ 20)]
  exact mul_le_of_le_one_left (by positivity) hstep

/-- **The greater number has the greater physical value.** -/
theorem scaled_le (h : IsScale lo hi a b fraction) (hx : x ≠ .nan) (hy : y ≠ .nan)
    (hle : Binary64.lt y x = false) :
    scaled a b (ofFraction (fraction (x.clamp lo hi))) ≤
      scaled a b (ofFraction (fraction (y.clamp lo hi))) := by
  obtain ⟨p, q, hp, hq, ha, hpq, hb⟩ := h.exists_clamp_le hx hy hle
  exact scaled_le_scaled h.le (ofFraction_le (h.isOrdered hp hq ha hpq hb) (by decide))

/-- A raw value is the value before it, rounded to the nearest step and capped. -/
theorem exists_val_eq (h : IsScale lo hi a b fraction) (hx : x ≠ .nan) :
    ∃ v, (fraction (x.clamp lo hi) * fullScale).value? = some v ∧
      (ofFraction (fraction (x.clamp lo hi)) : ℕ) = min (2 ^ 20 - 1) ⌊v + 1 / 2⌋₊ := by
  obtain ⟨p, q, hp, hq, ha, hpq, hb⟩ := h.exists_clamp_le hx hx (lt_self x)
  obtain ⟨v, -, hv, -⟩ := (h.isOrdered hp hq ha hpq hb).mul_fullScale (by decide)
  exact ⟨v, hv, by rw [val_ofFraction, toNatNearest_of_value hv]; rfl⟩

end IsScale

end Hygrometer.RawSample
