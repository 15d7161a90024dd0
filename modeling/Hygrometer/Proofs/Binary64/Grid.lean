import Mathlib.Algebra.Group.Even
import Mathlib.Algebra.Ring.Parity
import Mathlib.Order.Monotone.Basic
import Hygrometer.Proofs.Binary64.Rounding

/-!
# The magnitudes as a grid

The code of a magnitude is its rank, so the codes count a grid of numbers from zero on (`unitsAt`).
Neighbours are a **gap** apart, a power of two that never becomes smaller (`unitsAt_succ`); a full
coefficient makes a number at least `2 ^ 52` and at most `2 ^ 53` times as large as the gap behind
it.

Halfway between neighbours lie the **midpoints**. Between two of them are the numbers that a code is
nearest to, and a midpoint belongs to the even one of the codes beside it (`IsNearest`). Every
number has exactly one nearest code, which grows with it (`exists_isNearest`, `IsNearest.unique`,
`IsNearest.le_of_le`), and this is the code that rounding gives (`round?_of_isNearest`).

**Why codes.** A magnitude is a coefficient and an exponent, and its neighbour has either the next
coefficient or the next exponent. Counted by codes there is only one case, so that what holds
between neighbours, that numbers and midpoints alternate and that gaps never shrink, is said by
adding one, and monotonicity is that of sequences. The two cases are met once, where the gap grows
(`place_succ`).

**Why beyond the range.** The grid goes on where the format ends: there are codes for numbers of any
size, and only those from `infinityCode` on are no magnitude's. So every number has a nearest code
without a condition on its size, and leaving the range is a fact about the code.

**Rounding.** The model rounds a quotient in the unit of its last place, which it takes from the
leading bit. For numbers from the leading bit of the nearest magnitude on, that place is the gap
behind it, and rounding is to the nearest coefficient (`round?_of_le`). Just before a power of two
it is the smaller gap before it, and rounding carries (`round?_of_lt`). All that is used of rounding
elsewhere is the last theorem, and with it `IsRounding.exists_eq` for the operations.
-/

namespace Hygrometer.Magnitude

/-! ### The grid -/

/-- The exponent of the gap behind a code. -/
def place (c : ℕ) : ℕ := c / leadingBit - 1

/-- The units of the magnitude with a code. -/
def unitsAt (c : ℕ) : ℕ := (c - place c * leadingBit) * 2 ^ place c

/-- A code counts at least one leading bit for every place of its gap. -/
theorem place_mul_le (c : ℕ) : place c * leadingBit ≤ c := by
  unfold place leadingBit
  omega

/-- The gap behind a magnitude is its own unit. -/
theorem place_code (m : Magnitude) : place m.code = m.exp := by
  have hlt := m.coeff_lt
  have hcanonical := m.canonical
  unfold place code leadingBit at *
  omega

/-- The grid has the magnitudes in it, each at its code. -/
theorem unitsAt_code (m : Magnitude) : unitsAt m.code = m.units := by
  rw [unitsAt, place_code, code, Nat.add_sub_cancel_left]
  rfl

/-- The codes of magnitudes come before that of infinity. -/
theorem code_lt (m : Magnitude) : m.code < Binary64.infinityCode := by
  have hlt := m.coeff_lt
  have hle := m.exp_le
  unfold code Binary64.infinityCode leadingBit at *
  omega

/-- Different magnitudes have different codes. -/
theorem code_inj {m n : Magnitude} (h : m.code = n.code) : m = n := by
  have hexp : m.exp = n.exp := by rw [← place_code, h, place_code]
  have hcoeff : m.coeff = n.coeff := by
    rw [code, code, hexp] at h
    exact Nat.add_left_cancel h
  cases m
  cases n
  simp_all

/-- **Every code before that of infinity is a magnitude's.** -/
theorem exists_code_eq {c : ℕ} (h : c < Binary64.infinityCode) : ∃ m : Magnitude, m.code = c := by
  have hle : place c * leadingBit ≤ c := place_mul_le c
  have hcoeff : c - place c * leadingBit < 2 * leadingBit := by
    unfold place leadingBit
    omega
  have hexp : place c ≤ 2045 := by
    unfold Binary64.infinityCode at h
    unfold place leadingBit at *
    omega
  have hcanonical : place c = 0 ∨ leadingBit ≤ c - place c * leadingBit := by
    unfold place leadingBit
    omega
  exact ⟨⟨_, _, hcoeff, hexp, hcanonical⟩, Nat.add_sub_cancel' hle⟩

/-- Gaps never shrink. -/
theorem place_mono {b c : ℕ} (h : b ≤ c) : place b ≤ place c :=
  Nat.sub_le_sub_right (Nat.div_le_div_right h) 1

/-- The gap grows where the coefficient is full. -/
theorem place_succ (c : ℕ) :
    place (c + 1) = place c ∨
      place (c + 1) = place c + 1 ∧ c + 1 = (place c + 2) * leadingBit := by
  unfold place leadingBit
  omega

/-- **Neighbours are a gap apart.** -/
theorem unitsAt_succ (c : ℕ) : unitsAt (c + 1) = unitsAt c + 2 ^ place c := by
  have hle := place_mul_le c
  obtain h | ⟨h, hfull⟩ := place_succ c
  · rw [unitsAt, unitsAt, h, Nat.sub_add_comm hle, Nat.succ_mul]
  · rw [Nat.add_mul] at hfull
    have hnext : c + 1 - (place c + 1) * leadingBit = leadingBit := by
      rw [Nat.succ_mul]
      omega
    have hlast : c - place c * leadingBit + 1 = 2 * leadingBit := by omega
    calc unitsAt (c + 1) = 2 * leadingBit * 2 ^ place c := by
          rw [unitsAt, h, hnext, pow_succ]
          ring
      _ = unitsAt c + 2 ^ place c := by rw [← hlast, unitsAt, Nat.succ_mul]

/-- The codes count the grid upward. -/
theorem strictMono_unitsAt : StrictMono unitsAt := by
  refine strictMono_nat_of_lt_succ fun c ↦ ?_
  have hpos : 0 < 2 ^ place c := Nat.two_pow_pos _
  rw [unitsAt_succ]
  omega

/-- The grid begins at zero. -/
theorem unitsAt_zero : unitsAt 0 = 0 := rfl

/-- The number with the leading bit only. -/
theorem unitsAt_succ_mul_leadingBit (p : ℕ) :
    unitsAt ((p + 1) * leadingBit) = leadingBit * 2 ^ p := by
  have hplace : place ((p + 1) * leadingBit) = p := by
    unfold place leadingBit
    omega
  rw [unitsAt, hplace, ← Nat.sub_mul, Nat.add_sub_cancel_left, one_mul]

/-- The number behind a gap has at most `2 ^ 53` times its size. -/
theorem unitsAt_succ_le (c : ℕ) : unitsAt (c + 1) ≤ 2 * leadingBit * 2 ^ place c := by
  have hcoeff : c - place c * leadingBit + 1 ≤ 2 * leadingBit := by
    unfold place leadingBit
    omega
  calc unitsAt (c + 1) = (c - place c * leadingBit + 1) * 2 ^ place c := by
        rw [unitsAt_succ, unitsAt, Nat.succ_mul]
    _ ≤ 2 * leadingBit * 2 ^ place c := Nat.mul_le_mul_right _ hcoeff

/-- The same as a rational. -/
theorem cast_unitsAt_succ_le (c : ℕ) : (unitsAt (c + 1) : ℚ) ≤ 2 ^ 53 * 2 ^ place c := by
  have hle : (unitsAt (c + 1) : ℚ) ≤ ((2 * leadingBit * 2 ^ place c : ℕ) : ℚ) :=
    Nat.cast_le.2 (unitsAt_succ_le c)
  push_cast [leadingBit] at hle
  linarith

/-- The number before a gap has at least `2 ^ 52` times its size, unless the gap is the least. -/
theorem le_unitsAt (c : ℕ) : place c = 0 ∨ leadingBit * 2 ^ place c ≤ unitsAt c := by
  by_cases h : place c = 0
  · exact .inl h
  · refine .inr (Nat.mul_le_mul_right _ ?_)
    unfold place leadingBit at *
    omega

/-! ### Midpoints -/

/-- Halfway between a code and the next one. -/
def midpoint (c : ℕ) : ℚ := unitsAt c + 2 ^ place c / 2

/-- The midpoint behind a code lies behind its number. -/
theorem unitsAt_lt_midpoint (c : ℕ) : (unitsAt c : ℚ) < midpoint c := by
  have hpos : (0 : ℚ) < 2 ^ place c / 2 := by positivity
  rw [midpoint]
  linarith

/-- Neighbours are a gap apart, as rationals. -/
theorem cast_unitsAt_succ (c : ℕ) : (unitsAt (c + 1) : ℚ) = unitsAt c + 2 ^ place c := by
  rw [unitsAt_succ, Nat.cast_add, Nat.cast_pow, Nat.cast_two]

/-- It lies before the next number. -/
theorem midpoint_lt_unitsAt_succ (c : ℕ) : midpoint c < (unitsAt (c + 1) : ℚ) := by
  have hpos : (0 : ℚ) < 2 ^ place c := by positivity
  rw [midpoint, cast_unitsAt_succ]
  linarith

/-- So midpoints grow. -/
theorem strictMono_midpoint : StrictMono midpoint :=
  strictMono_nat_of_lt_succ fun c ↦ (midpoint_lt_unitsAt_succ c).trans (unitsAt_lt_midpoint _)

/-! ### The nearest code -/

/-- A code is nearest to a number of units: the number lies between the midpoints on its two sides,
or on one of them if the code is even. -/
structure IsNearest (c : ℕ) (u : ℚ) : Prop where
  /-- The midpoint before the code, which zero has not. -/
  before : ∀ b, c = b + 1 → midpoint b < u ∨ midpoint b = u ∧ Even c
  /-- The midpoint behind the code. -/
  behind : u < midpoint c ∨ u = midpoint c ∧ Even c

variable {b c : ℕ} {u v : ℚ}

/-- What a code is nearest to is not beyond the midpoint behind it. -/
theorem IsNearest.le_midpoint (h : IsNearest c u) : u ≤ midpoint c :=
  h.behind.elim le_of_lt fun h ↦ h.1.le

/-- Nor is it before the one before it. -/
theorem IsNearest.midpoint_le (h : IsNearest (b + 1) u) : midpoint b ≤ u :=
  (h.before b rfl).elim le_of_lt fun h ↦ h.1.le

/-- From a code to the midpoint behind it, the code is nearest. -/
theorem isNearest_of_lt_midpoint (h : (unitsAt c : ℚ) ≤ u) (hlt : u < midpoint c) :
    IsNearest c u where
  before := by
    rintro b rfl
    exact .inl ((midpoint_lt_unitsAt_succ b).trans_le h)
  behind := .inl hlt

/-- A number of the grid is nearest to itself. -/
theorem isNearest_unitsAt (c : ℕ) : IsNearest c (unitsAt c) :=
  isNearest_of_lt_midpoint le_rfl (unitsAt_lt_midpoint c)

/-- **The greater number has the greater nearest code.** -/
theorem IsNearest.le_of_le (hb : IsNearest b u) (hc : IsNearest c v) (h : u ≤ v) : b ≤ c := by
  by_contra hlt
  obtain ⟨d, rfl⟩ : ∃ d, b = d + 1 := ⟨b - 1, by omega⟩
  have hmid : midpoint c ≤ midpoint d := strictMono_midpoint.monotone (by omega)
  -- All the bounds are one midpoint, and the codes on its sides cannot both be even.
  rcases hb.before d rfl with hu | ⟨hu, hd⟩
  · linarith [hc.le_midpoint]
  · rcases hc.behind with hv | ⟨hv, hc⟩
    · linarith
    · obtain rfl : c = d := strictMono_midpoint.injective (by linarith)
      exact Nat.not_even_iff_odd.2 hc.add_one hd

/-- **The nearest code is unique.** -/
theorem IsNearest.unique (hb : IsNearest b u) (hc : IsNearest c u) : b = c :=
  le_antisymm (hb.le_of_le hc le_rfl) (hc.le_of_le hb le_rfl)

/-- What lies between two numbers with one nearest code has it as well. -/
theorem IsNearest.of_le_of_le {w : ℚ} (hu : IsNearest c u) (hv : IsNearest c v) (huw : u ≤ w)
    (hwv : w ≤ v) : IsNearest c w where
  before b hb := by
    rcases hu.before b hb with h | ⟨h, heven⟩
    · exact .inl (h.trans_le huw)
    · exact (h.trans_le huw).lt_or_eq.imp_right fun h ↦ ⟨h, heven⟩
  behind := by
    rcases hv.behind with h | ⟨h, heven⟩
    · exact .inl (hwv.trans_lt h)
    · exact (hwv.trans h.le).lt_or_eq.imp_right fun h ↦ ⟨h, heven⟩

/-- Every number of units lies behind some code and not behind the next one. -/
theorem exists_unitsAt_le (hu : 0 ≤ u) : ∃ c, (unitsAt c : ℚ) ≤ u ∧ u < unitsAt (c + 1) := by
  have hnat (n : ℕ) : ∃ c, unitsAt c ≤ n ∧ n < unitsAt (c + 1) := by
    induction n with
    | zero => exact ⟨0, unitsAt_zero.le, by decide⟩
    | succ n ih =>
      obtain ⟨c, hle, hlt⟩ := ih
      by_cases hnext : n + 1 < unitsAt (c + 1)
      · exact ⟨c, by omega, hnext⟩
      · have hgap : unitsAt (c + 1) < unitsAt (c + 1 + 1) := strictMono_unitsAt (Nat.lt_succ_self _)
        exact ⟨c + 1, by omega, by omega⟩
  obtain ⟨c, hle, hlt⟩ := hnat ⌊u⌋₊
  exact ⟨c, (Nat.le_floor_iff hu).1 hle, (Nat.floor_lt hu).1 hlt⟩

/-- **Every number has a nearest code.** -/
theorem exists_isNearest (hu : 0 ≤ u) : ∃ c, IsNearest c u := by
  obtain ⟨c, hle, hlt⟩ := exists_unitsAt_le hu
  have hbefore : ∀ b, c = b + 1 → midpoint b < u ∨ midpoint b = u ∧ Even c := by
    rintro b rfl
    exact .inl ((midpoint_lt_unitsAt_succ b).trans_le hle)
  have hbehind : u < midpoint (c + 1) := hlt.trans (unitsAt_lt_midpoint _)
  rcases lt_trichotomy u (midpoint c) with h | h | h
  · exact ⟨c, hbefore, .inl h⟩
  · rcases Nat.even_or_odd c with heven | hodd
    · exact ⟨c, hbefore, .inr ⟨h, heven⟩⟩
    · refine ⟨c + 1, fun b hb ↦ ?_, .inl hbehind⟩
      obtain rfl := Nat.succ.inj hb
      exact .inr ⟨h.symm, hodd.add_one⟩
  · refine ⟨c + 1, fun b hb ↦ ?_, .inl hbehind⟩
    obtain rfl := Nat.succ.inj hb
    exact .inl h

/-! ### Rounding finds the nearest code -/

/-- Rounding a quotient to a natural number finds the one that is less than one half away, or the
even one of two at that distance. -/
theorem nearestEven_eq {num den k : ℕ} (hden : 0 < den)
    (hlow : 2 * (k * den) < 2 * num + den ∨ 2 * (k * den) = 2 * num + den ∧ Even k)
    (hhigh : 2 * num < 2 * (k * den) + den ∨ 2 * num = 2 * (k * den) + den ∧ Even k) :
    nearestEven num den = k := by
  have hsplit : den * (num / den) + num % den = num := Nat.div_add_mod num den
  have hmod := Nat.mod_lt num hden
  rw [Nat.mul_comm] at hsplit
  simp only [nearestEven]
  generalize num / den = q at *
  generalize num % den = r at *
  -- The quotient is the number or the one before it.
  rcases lt_trichotomy k q with h | rfl | h
  · have hmul : (k + 1) * den ≤ q * den := Nat.mul_le_mul_right _ h
    rw [Nat.succ_mul] at hmul
    omega
  · rw [if_pos]
    rcases hhigh with hhigh | ⟨hhigh, heven⟩
    · exact .inl (by omega)
    · exact .inr ⟨by omega, Nat.even_iff.1 heven⟩
  · have hmul : (q + 1) * den ≤ k * den := Nat.mul_le_mul_right _ h
    rw [Nat.succ_mul] at hmul
    have hk : k = q + 1 := by
      by_contra hne
      have htwo : (q + 2) * den ≤ k * den := Nat.mul_le_mul_right _ (by omega)
      rw [Nat.add_mul] at htwo
      omega
    subst hk
    rw [if_neg]
    rw [Nat.succ_mul] at hlow
    rintro (hdown | ⟨htie, hq⟩)
    · omega
    · rcases hlow with hlow | ⟨-, heven⟩
      · omega
      · rw [Nat.even_iff] at heven
        omega

/-- The place of the last bit is where the coefficient is full, or the least one. -/
theorem lastPlace_eq {num den k : ℕ} (hden : 0 < den)
    (hlow : k = 0 ∨ leadingBit * 2 ^ k * den ≤ num) (hhigh : num < 2 * leadingBit * 2 ^ k * den) :
    lastPlace num den = k := by
  have hlt : num / den < 2 ^ (53 + k) := by
    rw [Nat.div_lt_iff_lt_mul hden, pow_add]
    exact hhigh
  have hlog : num / den ≠ 0 → Nat.log2 (num / den) < 53 + k := fun h ↦ (Nat.log2_lt h).2 hlt
  rw [lastPlace]
  rcases hlow with rfl | hlow
  · by_cases hzero : num / den = 0
    · rw [hzero]
      rfl
    · have := hlog hzero
      omega
  · have hle : 2 ^ (52 + k) ≤ num / den := by
      rw [Nat.le_div_iff_mul_le hden, pow_add]
      exact hlow
    have hzero : num / den ≠ 0 := (lt_of_lt_of_le (Nat.two_pow_pos _) hle).ne'
    have hge := (Nat.le_log2 hzero).2 hle
    have := hlog hzero
    omega

/-- The nearest natural number, with the even one of two that are equally near. -/
theorem nearestEven_eq_of_near {num den k : ℕ} (hden : 0 < den)
    (hlow : (k : ℚ) - 1 / 2 < num / den ∨ (k : ℚ) - 1 / 2 = num / den ∧ Even k)
    (hhigh : (num / den : ℚ) < k + 1 / 2 ∨ (num / den : ℚ) = k + 1 / 2 ∧ Even k) :
    nearestEven num den = k := by
  have hden' : (0 : ℚ) < den := Nat.cast_pos.2 hden
  refine nearestEven_eq hden (hlow.imp (fun h ↦ ?_) fun h ↦ ⟨?_, h.2⟩)
    (hhigh.imp (fun h ↦ ?_) fun h ↦ ⟨?_, h.2⟩)
  · rw [lt_div_iff₀ hden'] at h
    have hcast : 2 * ((k : ℚ) * den) < 2 * num + den := by linarith
    exact_mod_cast hcast
  · have heq := h.1
    rw [eq_div_iff hden'.ne'] at heq
    have hcast : 2 * ((k : ℚ) * den) = 2 * num + den := by linarith
    exact_mod_cast hcast
  · rw [div_lt_iff₀ hden'] at h
    have hcast : 2 * (num : ℚ) < 2 * (k * den) + den := by linarith
    exact_mod_cast hcast
  · have heq := h.1
    rw [div_eq_iff hden'.ne'] at heq
    have hcast : 2 * (num : ℚ) = 2 * (k * den) + den := by linarith
    exact_mod_cast hcast

/-- A midpoint, seen from the number behind it. -/
theorem midpoint_eq_sub (b : ℕ) : midpoint b = unitsAt (b + 1) - 2 ^ place b / 2 := by
  rw [midpoint, cast_unitsAt_succ]
  ring

/-- The units of a magnitude, as a rational. -/
theorem cast_unitsAt_code (m : Magnitude) : (unitsAt m.code : ℚ) = m.coeff * 2 ^ m.exp := by
  rw [unitsAt_code, units, Nat.pow_eq, Nat.cast_mul, Nat.cast_pow, Nat.cast_two]

/-- The midpoint behind a magnitude is half of its unit away. -/
theorem midpoint_code (m : Magnitude) : midpoint m.code = (m.coeff + 1 / 2) * 2 ^ m.exp := by
  rw [midpoint, place_code, cast_unitsAt_code]
  ring

/-- The midpoint before a magnitude. -/
theorem midpoint_of_code_eq_succ {m : Magnitude} {b : ℕ} (hb : m.code = b + 1) :
    midpoint b = m.coeff * 2 ^ m.exp - 2 ^ place b / 2 := by
  rw [midpoint_eq_sub, ← hb, cast_unitsAt_code]

/-- A code is even exactly if the coefficient is. -/
theorem even_code (m : Magnitude) : Even m.code ↔ Even m.coeff := by
  rw [Nat.even_iff, Nat.even_iff, code, leadingBit]
  omega

/-- Only zero has no code before its own. -/
theorem exists_code_eq_succ {m : Magnitude} (h : m.exp ≠ 0 ∨ m.coeff ≠ 0) :
    ∃ b, m.code = b + 1 := by
  refine Nat.exists_eq_succ_of_ne_zero ?_
  unfold code leadingBit
  omega

section Rounding

variable {m : Magnitude} {num den e : ℕ} {u : ℚ}

/-- What is rounded to, by the quotient in the unit of its last place. -/
theorem round?_of_quotient {k : ℕ} (hden : 0 < den)
    (hplace : e = 0 ∨ (leadingBit : ℚ) ≤ num / den / 2 ^ e)
    (hlt : (num / den / 2 ^ e : ℚ) < (2 * leadingBit : ℕ))
    (hlow : (k : ℚ) - 1 / 2 < num / den / 2 ^ e ∨ (k : ℚ) - 1 / 2 = num / den / 2 ^ e ∧ Even k)
    (hhigh : (num / den / 2 ^ e : ℚ) < k + 1 / 2 ∨
      (num / den / 2 ^ e : ℚ) = k + 1 / 2 ∧ Even k) :
    round? num den =
      if k = 2 * leadingBit then ofParts? leadingBit (e + 1) else ofParts? k e := by
  have hpow : (0 : ℚ) < 2 ^ e := by positivity
  have hden' : (0 : ℚ) < den := Nat.cast_pos.2 hden
  have hlast : lastPlace num den = e := by
    refine lastPlace_eq hden (hplace.imp_right fun hle ↦ ?_) ?_
    · rw [le_div_iff₀ hpow, le_div_iff₀ hden'] at hle
      exact_mod_cast hle
    · rw [div_lt_iff₀ hpow, div_lt_iff₀ hden'] at hlt
      exact_mod_cast hlt
  have hcast : ((num : ℚ) / (den * 2 ^ e : ℕ)) = num / den / 2 ^ e := by
    rw [Nat.cast_mul, Nat.cast_pow, Nat.cast_two, div_div]
  have hnear : nearestEven num (den * 2 ^ e) = k :=
    nearestEven_eq_of_near (Nat.mul_pos hden (Nat.two_pow_pos _)) (by rwa [hcast]) (by rwa [hcast])
  rw [← hlast] at hnear ⊢
  rw [← hnear]
  rfl

/-- Counted in the unit of the nearest magnitude, a number is at most one half above the
coefficient. -/
theorem IsNearest.div_le_coeff_add (h : IsNearest m.code u) :
    u / 2 ^ m.exp < m.coeff + 1 / 2 ∨ u / 2 ^ m.exp = m.coeff + 1 / 2 ∧ Even m.coeff := by
  have hpow : (0 : ℚ) < 2 ^ m.exp := by positivity
  have hm := h.behind
  rw [midpoint_code, even_code] at hm
  exact hm.imp (div_lt_iff₀ hpow).2 (And.imp_left (div_eq_iff hpow.ne').2)

/-- From the leading bit of a magnitude on, the gap before it is the one behind it. -/
theorem IsNearest.coeff_sub_le_div (h : IsNearest m.code u) (h0 : 0 ≤ u)
    (hlow : m.exp = 0 ∨ leadingBit * 2 ^ m.exp ≤ u) :
    (m.coeff - 1 / 2 : ℚ) < u / 2 ^ m.exp ∨
      (m.coeff - 1 / 2 : ℚ) = u / 2 ^ m.exp ∧ Even m.coeff := by
  have hpow : (0 : ℚ) < 2 ^ m.exp := by positivity
  by_cases hcoeff : (m.coeff : ℚ) ≤ u / 2 ^ m.exp
  · exact .inl (by linarith)
  · -- Otherwise the code before has the same exponent.
    rw [not_le, div_lt_iff₀ hpow] at hcoeff
    have hne : m.coeff ≠ 0 := by
      intro hzero
      rw [hzero, Nat.cast_zero, zero_mul] at hcoeff
      linarith
    have hfull : m.exp = 0 ∨ leadingBit < m.coeff := by
      refine hlow.imp_right fun hle ↦ ?_
      have := lt_of_mul_lt_mul_right (hle.trans_lt hcoeff) hpow.le
      exact_mod_cast this
    obtain ⟨b, hb⟩ := exists_code_eq_succ (.inr hne)
    have hplace : place b = m.exp := by
      have hlt := m.coeff_lt
      unfold place code leadingBit at *
      omega
    have hmid : midpoint b = (m.coeff - 1 / 2) * 2 ^ m.exp := by
      rw [midpoint_of_code_eq_succ hb, hplace]
      ring
    have hm := h.before b hb
    rw [hmid, even_code] at hm
    exact hm.imp (lt_div_iff₀ hpow).2 (And.imp_left (eq_div_iff hpow.ne').2)

/-- Only the gap before a leading bit reaches before the unit of it. -/
theorem IsNearest.coeff_eq_leadingBit (h : IsNearest m.code u) (he : m.exp = e + 1)
    (hlt : u < leadingBit * 2 ^ m.exp) : m.coeff = leadingBit := by
  have hcanonical : leadingBit ≤ m.coeff := m.canonical.resolve_left (by omega)
  have hpos : (0 : ℚ) < 2 ^ m.exp := by positivity
  obtain ⟨b, hb⟩ := exists_code_eq_succ (m := m) (.inl (by omega))
  have hle : midpoint b ≤ u := IsNearest.midpoint_le (hb ▸ h)
  by_contra hne
  have hsucc : (leadingBit : ℚ) + 1 ≤ m.coeff := by
    exact_mod_cast lt_of_le_of_ne hcanonical (Ne.symm hne)
  have hgap : (2 : ℚ) ^ place b ≤ 2 ^ m.exp :=
    pow_le_pow_right₀ one_le_two (place_code m ▸ place_mono (by omega))
  have hstep : ((leadingBit : ℚ) + 1) * 2 ^ m.exp ≤ m.coeff * 2 ^ m.exp := by gcongr
  rw [midpoint_of_code_eq_succ hb] at hle
  linarith

/-- The gap before a leading bit is half as wide as the one behind it. -/
theorem IsNearest.two_mul_leadingBit_sub_le_div (h : IsNearest m.code u) (he : m.exp = e + 1)
    (hfull : m.coeff = leadingBit) : ((2 * leadingBit : ℕ) - 1 / 2 : ℚ) ≤ u / 2 ^ e := by
  obtain ⟨b, hb⟩ := exists_code_eq_succ (m := m) (.inl (by omega))
  have hplace : place b = e := by
    unfold place code leadingBit at *
    omega
  have hle : midpoint b ≤ u := IsNearest.midpoint_le (hb ▸ h)
  rw [midpoint_of_code_eq_succ hb, hfull, hplace, he, pow_succ] at hle
  rw [le_div_iff₀ (by positivity)]
  push_cast
  linarith

/-- From the leading bit of a magnitude on, its coefficient is the nearest natural number. -/
theorem round?_of_le (hden : 0 < den) (h : IsNearest m.code (num / den))
    (hlow : m.exp = 0 ∨ (leadingBit * 2 ^ m.exp : ℚ) ≤ num / den) : round? num den = some m := by
  have hpow : (0 : ℚ) < 2 ^ m.exp := by positivity
  have hhigh := h.div_le_coeff_add
  have hlt : (num / den / 2 ^ m.exp : ℚ) < (2 * leadingBit : ℕ) := by
    have hcoeff : (m.coeff : ℚ) + 1 ≤ (2 * leadingBit : ℕ) := by exact_mod_cast m.coeff_lt
    rcases hhigh with hlt | ⟨heq, -⟩ <;> linarith
  have hbefore := h.coeff_sub_le_div (by positivity) hlow
  rw [round?_of_quotient hden (hlow.imp_right (le_div_iff₀ hpow).2) hlt hbefore hhigh,
    if_neg m.coeff_lt.ne, ofParts?_self]

/-- Just before the leading bit of a magnitude, rounding carries into it. -/
theorem round?_of_lt (hden : 0 < den) (h : IsNearest m.code (num / den)) (he : m.exp = e + 1)
    (hlt : (num / den : ℚ) < leadingBit * 2 ^ m.exp) : round? num den = some m := by
  have hfull := h.coeff_eq_leadingBit he hlt
  have hlow := h.two_mul_leadingBit_sub_le_div he hfull
  have hhigh : (num / den / 2 ^ e : ℚ) < (2 * leadingBit : ℕ) := by
    rw [div_lt_iff₀ (by positivity)]
    rw [he, pow_succ] at hlt
    push_cast
    linarith
  have hplace : (leadingBit : ℚ) ≤ num / den / 2 ^ e := by
    have hone : (1 : ℚ) ≤ leadingBit := by norm_num [leadingBit]
    push_cast at hlow
    linarith
  rw [round?_of_quotient hden (.inr hplace) hhigh
    (hlow.lt_or_eq.imp_right fun h ↦ ⟨h, even_two_mul _⟩) (.inl (by linarith)),
    if_pos rfl, ← he, ← hfull, ofParts?_self]

/-- **Rounding gives the nearest code.** -/
theorem round?_of_isNearest (hden : 0 < den) (h : IsNearest m.code (num / den)) :
    round? num den = some m := by
  by_cases hlow : m.exp = 0 ∨ (leadingBit * 2 ^ m.exp : ℚ) ≤ num / den
  · exact round?_of_le hden h hlow
  · rw [not_or, not_le] at hlow
    obtain ⟨e, he⟩ := Nat.exists_eq_succ_of_ne_zero hlow.1
    exact round?_of_lt hden h he hlow.2

end Rounding

end Hygrometer.Magnitude

namespace Hygrometer.Binary64

open Magnitude (IsNearest unitsAt)

variable {x y : Binary64} {p q : ℚ} {c : ℕ}

/-- **What a number that is not negative is rounded to.** -/
theorem IsRounding.exists_eq (h : IsRounding x q) (h0 : 0 ≤ q) (hc : IsNearest c (q * unitsPerOne))
    (hlt : c < infinityCode) :
    ∃ s m, x = .finite s m ∧ m.code = c ∧ (0 < q → s = false) := by
  obtain ⟨s, num, den, hden, hexact, rfl⟩ := h
  obtain ⟨m, rfl⟩ := Magnitude.exists_code_eq hlt
  have hquotient : (0 : ℚ) ≤ num / den := by positivity
  have hU := cast_unitsPerOne_pos
  have hvalue : (num / den : ℚ) = q * unitsPerOne ∧ (0 < q → s = false) := by
    cases s with
    | false => exact ⟨by rw [← hexact, signFactor, if_neg Bool.false_ne_true, one_mul], fun _ ↦ rfl⟩
    | true =>
      -- A negative sign leaves zero.
      rw [signFactor, if_pos rfl] at hexact
      have hmul : 0 ≤ q * unitsPerOne := mul_nonneg h0 hU.le
      have hzero : q * unitsPerOne = 0 := by linarith
      refine ⟨by linarith, fun hpos ↦ ?_⟩
      have := mul_pos hpos hU
      linarith
  rw [← hvalue.1] at hc
  refine ⟨s, m, ?_, rfl, hvalue.2⟩
  unfold ofUnits
  rw [Magnitude.round?_of_isNearest hden hc]

/-- Its value, counted in units, is on the grid. -/
theorem IsRounding.exists_value_eq (h : IsRounding x q) (h0 : 0 ≤ q)
    (hc : IsNearest c (q * unitsPerOne)) (hlt : c < infinityCode) :
    ∃ r, x.value? = some r ∧ r * unitsPerOne = unitsAt c := by
  obtain ⟨s, m, rfl, rfl, hs⟩ := h.exists_eq h0 hc hlt
  have hU := cast_unitsPerOne_pos
  refine ⟨unitsAt m.code / unitsPerOne, value?_eq_some_iff.2 ⟨s, m, rfl, ?_⟩,
    div_mul_cancel₀ _ hU.ne'⟩
  rw [div_mul_cancel₀ _ hU.ne', Magnitude.unitsAt_code]
  rcases h0.lt_or_eq with hpos | rfl
  · rw [hs hpos, signFactor, if_neg Bool.false_ne_true, one_mul]
  · -- Only zero is nearest to zero.
    rw [zero_mul] at hc
    have hnone := Magnitude.isNearest_unitsAt 0
    rw [Magnitude.unitsAt_zero, Nat.cast_zero] at hnone
    have hzero : m.code = 0 := hc.unique hnone
    have hunits : m.units = 0 := by rw [← Magnitude.unitsAt_code, hzero, Magnitude.unitsAt_zero]
    rw [hunits, Nat.cast_zero, mul_zero]

/-- Powers of two, counted in units, are on the grid. -/
theorem unitsAt_of_two_pow {k : ℕ} :
    (unitsAt ((k + 1023) * leadingBit) : ℚ) = 2 ^ k * unitsPerOne := by
  have hunits : unitsAt ((k + 1023) * leadingBit) = leadingBit * 2 ^ (k + 1022) :=
    Magnitude.unitsAt_succ_mul_leadingBit (k + 1022)
  obtain ⟨u, hu⟩ : ∃ u, u = 1022 := ⟨_, rfl⟩
  rw [hunits, ← hu, cast_unitsPerOne_eq (j := 52) (k := u) (by omega), Nat.cast_mul, Nat.cast_pow,
    pow_add, Magnitude.leadingBit_eq, Nat.pow_eq, Nat.cast_pow, Nat.cast_two]
  ring

/-- A number of at most 1023 bits is rounded to one. -/
theorem exists_isNearest_lt {k : ℕ} (h0 : 0 ≤ q) (hq : q ≤ 2 ^ k) (hk : k ≤ 1023) :
    ∃ c < infinityCode, IsNearest c (q * unitsPerOne) := by
  have hU := cast_unitsPerOne_pos
  obtain ⟨c, hc⟩ := Magnitude.exists_isNearest (mul_nonneg h0 hU.le)
  refine ⟨c, ?_, hc⟩
  have hle : c ≤ (k + 1023) * leadingBit := by
    refine hc.le_of_le (Magnitude.isNearest_unitsAt _) ?_
    rw [unitsAt_of_two_pow]
    exact mul_le_mul_of_nonneg_right hq hU.le
  calc c ≤ (k + 1023) * leadingBit := hle
    _ ≤ 2046 * leadingBit := Nat.mul_le_mul_right _ (by omega)
    _ < infinityCode := by decide

/-- **Rounding keeps the order**, here of numbers that are not negative. -/
theorem IsRounding.le_of_le {k : ℕ} {r s : ℚ} (hx : IsRounding x p) (hy : IsRounding y q)
    (h0 : 0 ≤ p) (h : p ≤ q) (hq : q ≤ 2 ^ k) (hk : k ≤ 1023) (hr : x.value? = some r)
    (hs : y.value? = some s) : r ≤ s := by
  have hU := cast_unitsPerOne_pos
  obtain ⟨b, hblt, hb⟩ := exists_isNearest_lt h0 (h.trans hq) hk
  obtain ⟨c, hclt, hc⟩ := exists_isNearest_lt (h0.trans h) hq hk
  obtain ⟨r', hr', hrunits⟩ := hx.exists_value_eq h0 hb hblt
  obtain ⟨s', hs', hsunits⟩ := hy.exists_value_eq (h0.trans h) hc hclt
  obtain rfl : r' = r := Option.some.inj (hr'.symm.trans hr)
  obtain rfl : s' = s := Option.some.inj (hs'.symm.trans hs)
  have hcodes : b ≤ c := hb.le_of_le hc (mul_le_mul_of_nonneg_right h hU.le)
  have hunits : (unitsAt b : ℚ) ≤ unitsAt c :=
    Nat.cast_le.2 (Magnitude.strictMono_unitsAt.monotone hcodes)
  rw [← hrunits, ← hsunits] at hunits
  exact le_of_mul_le_mul_right hunits hU

end Hygrometer.Binary64
