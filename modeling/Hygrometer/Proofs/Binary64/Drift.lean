import Hygrometer.Proofs.Binary64.Grid

/-!
# Drift

Every rounding moves a number that is not tiny by a factor within `1 / 2 ^ 53` of one. Several of
them make a **drift** (`IsDrift`), which multiplication and division of rounded numbers pass on.
Factors are the right measure here. Errors as differences would have to be scaled at every product
and every quotient, while factors are multiplied, so that drifts of `m` and of `n` roundings are one
of `m + n` (`IsDrift.mul`, `IsDrift.div`).

**From factors to codes.** Midpoints lie further apart than one rounding can reach
(`midpoint_lt_mul_retained`): the gap around a number with a full coefficient is more than
`1 / 2 ^ 53` of it, even after what was lost. So a number that has drifted over `n` roundings and is
rounded once more is at most `n` codes away from where it would have been without them
(`IsNearest.close_of_isDrift`), and a number that has not drifted is exactly there.

**Tiny numbers.** Below the least full coefficient the gap does not shrink any more, and the factor
of a rounding has no bound. So every lemma that makes a drift of a rounding asks for a number above
`2 ^ 52` units (`IsNearest.isDrift_div`, `IsRounding.hasDrifted`). The last rounding of all is not
taken for a drift and may give a tiny number.

The bound that is kept is on the side of the loss, `retained` to the power of the number of
roundings; a drift and its inverse both satisfy it, which bounds the other side as well. This makes
products and quotients one argument.
-/

namespace Hygrometer.Magnitude

variable {m n c d : ℕ} {u v f g : ℚ}

/-! ### Factors -/

/-- What a number is moved by, as a part of the number. -/
theorem abs_div_sub_one_le {ε : ℚ} (hu : 0 < u) (h : |v - u| ≤ ε * u) : |v / u - 1| ≤ ε := by
  have hsub : v / u - 1 = (v - u) / u := by rw [sub_div, div_self hu.ne']
  rw [hsub, abs_div, abs_of_pos hu, div_le_iff₀ hu]
  exact h

/-- What one rounding leaves of a number, at least. -/
def retained : ℚ := 1 - 1 / 2 ^ 53

/-- A rounding leaves something. -/
theorem retained_pos : 0 < retained := by norm_num [retained]

/-- It leaves no more than all. -/
theorem retained_le_one : retained ≤ 1 := by norm_num [retained]

/-- A factor by which `n` roundings may have moved a number. -/
structure IsDrift (n : ℕ) (f : ℚ) : Prop where
  /-- The factor does not take more than the roundings may take. -/
  ge : retained ^ n ≤ f
  /-- Nor does it add more. -/
  le : f * retained ^ n ≤ 1

namespace IsDrift

/-- No drift is one of any number of roundings. -/
theorem one (n : ℕ) : IsDrift n 1 where
  ge := pow_le_one₀ retained_pos.le retained_le_one
  le := by
    rw [one_mul]
    exact pow_le_one₀ retained_pos.le retained_le_one

/-- A drift is positive. -/
theorem pos (h : IsDrift n f) : 0 < f := lt_of_lt_of_le (pow_pos retained_pos n) h.ge

/-- No rounding, no drift. -/
theorem eq_one (h : IsDrift 0 f) : f = 1 := by
  have hge := h.ge
  have hle := h.le
  rw [pow_zero] at hge
  rw [pow_zero, mul_one] at hle
  exact le_antisymm hle hge

/-- One rounding retains what it should. -/
theorem retained_le (h : IsDrift 1 f) : retained ≤ f := by
  rw [← pow_one retained]
  exact h.ge

/-- One rounding does not double. -/
theorem le_two (h : IsDrift 1 f) : f ≤ 2 := by
  have hle := h.le
  rw [pow_one] at hle
  have hhalf : f * (1 / 2) ≤ f * retained :=
    mul_le_mul_of_nonneg_left (by norm_num [retained]) h.pos.le
  linarith

/-- **Drifts add up** in a product. -/
theorem mul (hf : IsDrift m f) (hg : IsDrift n g) : IsDrift (m + n) (f * g) where
  ge := by
    rw [pow_add]
    exact mul_le_mul hf.ge hg.ge (pow_pos retained_pos n).le hf.pos.le
  le := by
    calc f * g * retained ^ (m + n) = f * retained ^ m * (g * retained ^ n) := by
          rw [pow_add]
          ring
      _ ≤ 1 := mul_le_one₀ hf.le (mul_nonneg hg.pos.le (pow_pos retained_pos n).le) hg.le

/-- The inverse of a drift is one, of as many roundings. -/
theorem inv (h : IsDrift n f) : IsDrift n f⁻¹ where
  ge := by
    rw [← one_div, le_div_iff₀ h.pos, mul_comm]
    exact h.le
  le := by
    rw [inv_mul_le_iff₀ h.pos, mul_one]
    exact h.ge

/-- Drifts add up in a quotient, too. -/
theorem div (hf : IsDrift m f) (hg : IsDrift n g) : IsDrift (m + n) (f / g) := by
  rw [div_eq_mul_inv]
  exact hf.mul hg.inv

/-- What is as near to one as a rounding may move it. -/
theorem of_abs_sub_le (h : |f - 1| ≤ 1 / 2 ^ 53) : IsDrift 1 f := by
  rw [abs_le] at h
  refine ⟨?_, ?_⟩
  · rw [pow_one, retained]
    linarith
  · rw [pow_one]
    calc f * retained ≤ (1 + 1 / 2 ^ 53) * retained :=
          mul_le_mul_of_nonneg_right (by linarith) retained_pos.le
      _ ≤ 1 := by norm_num [retained]

/-- Two factors may share what one rounding may take or add. -/
theorem mul_of_abs_sub_le (hf : |f - 1| ≤ 9 / 10 / 2 ^ 53) (hg : |g - 1| ≤ 1 / 10 / 2 ^ 53) :
    IsDrift 1 (f * g) := by
  rw [abs_le] at hf hg
  have hg0 : 0 ≤ g := by linarith
  refine ⟨?_, ?_⟩
  · calc retained ^ 1 ≤ (1 - 9 / 10 / 2 ^ 53) * (1 - 1 / 10 / 2 ^ 53) := by norm_num [retained]
      _ ≤ f * g := mul_le_mul (by linarith) (by linarith) (by norm_num) (by linarith)
  · calc f * g * retained ^ 1
        ≤ (1 + 9 / 10 / 2 ^ 53) * (1 + 1 / 10 / 2 ^ 53) * retained ^ 1 :=
          mul_le_mul_of_nonneg_right (mul_le_mul (by linarith) (by linarith) hg0 (by norm_num))
            (pow_pos retained_pos 1).le
      _ ≤ 1 := by norm_num [retained]

end IsDrift

/-! ### Midpoints out of reach -/

/-- **The next midpoint is out of reach of one rounding.** -/
theorem midpoint_lt_mul_retained (c : ℕ) : midpoint c < midpoint (c + 1) * retained := by
  have hnext : midpoint (c + 1) = unitsAt (c + 1) + 2 ^ place (c + 1) / 2 := rfl
  have hstep : midpoint (c + 1) = midpoint c + 2 ^ place c / 2 + 2 ^ place (c + 1) / 2 := by
    rw [hnext, cast_unitsAt_succ, midpoint]
    ring
  -- The step from midpoint to midpoint is more than rounding takes of the next one.
  have hreach : midpoint (c + 1) / 2 ^ 53 < 2 ^ place c / 2 + 2 ^ place (c + 1) / 2 := by
    rw [div_lt_iff₀ (by positivity)]
    have hpow : (0 : ℚ) < 2 ^ place c := by positivity
    obtain h | ⟨h, -⟩ := place_succ c
    · have hbehind := cast_unitsAt_succ_le (c + 1)
      rw [cast_unitsAt_succ (c + 1), h] at hbehind
      rw [hnext, h]
      linarith
    · have hbefore := cast_unitsAt_succ_le c
      rw [hnext, h, pow_succ]
      linarith
  rw [retained, mul_sub, mul_one, mul_one_div]
  linarith

/-- Midpoints are not negative. -/
theorem midpoint_nonneg (c : ℕ) : 0 ≤ midpoint c :=
  (Nat.cast_nonneg _).trans (unitsAt_lt_midpoint c).le

/-- Several roundings reach no further than as many midpoints. -/
theorem midpoint_lt_mul_retained_pow (c n : ℕ) :
    midpoint c < midpoint (c + n + 1) * retained ^ (n + 1) := by
  induction n with
  | zero =>
    rw [Nat.add_zero, pow_one]
    exact midpoint_lt_mul_retained c
  | succ n ih =>
    calc midpoint c < midpoint (c + n + 1) * retained ^ (n + 1) := ih
      _ ≤ midpoint (c + n + 2) * retained * retained ^ (n + 1) :=
          mul_le_mul_of_nonneg_right (midpoint_lt_mul_retained _).le (pow_pos retained_pos _).le
      _ = midpoint (c + (n + 1) + 1) * retained ^ (n + 1 + 1) := by
          rw [mul_assoc, ← pow_succ']
          rfl

/-! ### Close codes -/

/-- Two codes are at most `n` apart. -/
def AreClose (n c d : ℕ) : Prop := c ≤ d + n ∧ d ≤ c + n

instance (n c d : ℕ) : Decidable (AreClose n c d) := inferInstanceAs (Decidable (_ ∧ _))

/-- A code is close to itself. -/
theorem AreClose.refl (n c : ℕ) : AreClose n c c := ⟨Nat.le_add_right _ _, Nat.le_add_right _ _⟩

/-- What is close is so for any greater distance. -/
theorem AreClose.mono {k : ℕ} (h : AreClose n c d) (hk : n ≤ k) : AreClose k c d :=
  ⟨h.1.trans (Nat.add_le_add_left hk d), h.2.trans (Nat.add_le_add_left hk c)⟩

/-- No distance is equality. -/
theorem AreClose.eq (h : AreClose 0 c d) : c = d := le_antisymm h.1 h.2

/-- A drifted number lies before the midpoints out of its reach. -/
theorem IsNearest.mul_lt_midpoint (h : IsNearest c u) (hf : IsDrift (n + 1) f) :
    u * f < midpoint (c + n + 1) := by
  calc u * f ≤ midpoint c * f := mul_le_mul_of_nonneg_right h.le_midpoint hf.pos.le
    _ < midpoint (c + n + 1) * retained ^ (n + 1) * f :=
        mul_lt_mul_of_pos_right (midpoint_lt_mul_retained_pow c n) hf.pos
    _ = midpoint (c + n + 1) * (f * retained ^ (n + 1)) := by ring
    _ ≤ midpoint (c + n + 1) := mul_le_of_le_one_right (midpoint_nonneg _) hf.le

/-- It lies behind those on the other side. -/
theorem IsNearest.midpoint_lt_mul (h : IsNearest (c + n + 2) u) (hf : IsDrift (n + 1) f) :
    midpoint c < u * f := by
  have hle : midpoint (c + n + 1) ≤ u := IsNearest.midpoint_le h
  calc midpoint c < midpoint (c + n + 1) * retained ^ (n + 1) := midpoint_lt_mul_retained_pow c n
    _ ≤ u * f := mul_le_mul hle hf.ge (pow_pos retained_pos _).le ((midpoint_nonneg _).trans hle)

/-- **A drifted number is rounded to a close code.** -/
theorem IsNearest.close_of_isDrift (hc : IsNearest c u) (hf : IsDrift n f)
    (hd : IsNearest d (u * f)) : AreClose n c d := by
  cases n with
  | zero =>
    rw [hf.eq_one, mul_one] at hd
    rw [hc.unique hd]
    exact .refl 0 d
  | succ n =>
    refine ⟨?_, ?_⟩ <;> by_contra hfar
    · obtain ⟨b, rfl⟩ : ∃ b, c = b + n + 2 := ⟨c - n - 2, by omega⟩
      have hle : midpoint d ≤ midpoint b := strictMono_midpoint.monotone (by omega)
      linarith [hc.midpoint_lt_mul hf, hd.le_midpoint]
    · obtain ⟨b, rfl⟩ : ∃ b, d = b + 1 := ⟨d - 1, by omega⟩
      have hle : midpoint (c + n + 1) ≤ midpoint b := strictMono_midpoint.monotone (by omega)
      linarith [hc.mul_lt_midpoint hf, IsNearest.midpoint_le hd]

/-! ### Rounding as a drift -/

/-- A number of at most 53 bits before a place is moved by half of that place at most. -/
theorem IsNearest.abs_unitsAt_sub_le {p : ℕ} (h : IsNearest c u) (h0 : 0 ≤ u)
    (hu : u ≤ 2 ^ 53 * 2 ^ p) : |(unitsAt c : ℚ) - u| ≤ 2 ^ p / 2 := by
  have htop : unitsAt ((p + 2) * leadingBit) = 2 * leadingBit * 2 ^ p := by
    rw [unitsAt_succ_mul_leadingBit (p + 1), pow_succ]
    ring
  have hle : c ≤ (p + 2) * leadingBit := by
    refine h.le_of_le (isNearest_unitsAt _) ?_
    rw [htop]
    push_cast [leadingBit]
    linarith
  have hgap (b : ℕ) (hb : b < (p + 2) * leadingBit) : (2 : ℚ) ^ place b / 2 ≤ 2 ^ p / 2 := by
    have hplace : place b ≤ p := by
      unfold place leadingBit at *
      omega
    have hpow : (2 : ℚ) ^ place b ≤ 2 ^ p := pow_le_pow_right₀ one_le_two hplace
    linarith
  rw [abs_le]
  constructor
  · -- The number may lie behind the code, but not if this is the last one.
    rcases hle.eq_or_lt with rfl | hlt
    · rw [htop]
      push_cast [leadingBit]
      have hpos : (0 : ℚ) < 2 ^ p := by positivity
      linarith
    · have hmid := h.le_midpoint
      rw [midpoint] at hmid
      linarith [hgap c hlt]
  · cases c with
    | zero =>
      rw [unitsAt_zero, Nat.cast_zero]
      have hpos : (0 : ℚ) < 2 ^ p := by positivity
      linarith
    | succ b =>
      have hmid := IsNearest.midpoint_le h
      rw [midpoint_eq_sub] at hmid
      linarith [hgap b hle]

/-- The place of a number with at least 53 bits. -/
theorem exists_place (hu : 2 ^ 52 ≤ u) : ∃ p : ℕ, 2 ^ 52 * 2 ^ p ≤ u ∧ u ≤ 2 ^ 53 * 2 ^ p := by
  obtain ⟨c, hle, hlt⟩ := exists_unitsAt_le ((by norm_num : (0 : ℚ) ≤ 2 ^ 52).trans hu)
  refine ⟨place c, ?_, ?_⟩
  · obtain h | h := le_unitsAt c
    · rwa [h, pow_zero, mul_one]
    · have hcast : ((leadingBit * 2 ^ place c : ℕ) : ℚ) ≤ unitsAt c := Nat.cast_le.2 h
      push_cast [leadingBit] at hcast
      linarith
  · exact hlt.le.trans (cast_unitsAt_succ_le c)

/-- **One rounding drifts by one**, unless the number is tiny. -/
theorem IsNearest.isDrift_div (h : IsNearest c u) (hu : 2 ^ 52 ≤ u) :
    IsDrift 1 (unitsAt c / u) := by
  obtain ⟨p, hlow, hhigh⟩ := exists_place hu
  have hpos : (0 : ℚ) < u := lt_of_lt_of_le (by norm_num) hu
  refine .of_abs_sub_le (abs_div_sub_one_le hpos ?_)
  calc |(unitsAt c : ℚ) - u| ≤ 2 ^ p / 2 := h.abs_unitsAt_sub_le hpos.le hhigh
    _ = 1 / 2 ^ 53 * (2 ^ 52 * 2 ^ p) := by ring
    _ ≤ 1 / 2 ^ 53 * u := mul_le_mul_of_nonneg_left hlow (by norm_num)

end Hygrometer.Magnitude

namespace Hygrometer.Binary64

open Magnitude (AreClose IsDrift IsNearest)

variable {x y : Binary64} {p q f : ℚ} {i j n c : ℕ}

/-! ### Numbers that have drifted -/

/-- A number is what `n` roundings may have left of a rational. -/
def HasDrifted (n : ℕ) (x : Binary64) (q : ℚ) : Prop :=
  ∃ f, IsDrift n f ∧ x.value? = some (q * f)

/-- A number that is what it should be has not drifted. -/
theorem hasDrifted_of_value (h : x.value? = some q) : HasDrifted 0 x q :=
  ⟨1, .one 0, by rw [mul_one, h]⟩

/-- Rounding adds one to the drift. -/
theorem IsRounding.hasDrifted (h : IsRounding x (q * f)) (hf : IsDrift n f)
    (hlow : 2 ^ 52 ≤ q * f * unitsPerOne) (hhigh : q * f ≤ 2 ^ 1023) : HasDrifted (n + 1) x q := by
  have hU := cast_unitsPerOne_pos
  have hpos : 0 < q * f := pos_of_mul_pos_left (lt_of_lt_of_le (by norm_num) hlow) hU.le
  obtain ⟨c, hlt, hc⟩ := exists_isNearest_lt hpos.le hhigh le_rfl
  obtain ⟨r, hr, hunits⟩ := h.exists_value_eq hpos.le hc hlt
  refine ⟨_, hf.mul (hc.isDrift_div hlow), ?_⟩
  rw [hr, ← hunits, mul_div_mul_right _ _ hU.ne', ← mul_assoc, mul_div_cancel₀ _ hpos.ne']

/-- **A product of numbers that have drifted** is what a product that has drifted by as much is
rounded to. -/
theorem HasDrifted.isRounding_mul (hx : HasDrifted i x p) (hy : HasDrifted j y q) :
    ∃ f, IsDrift (i + j) f ∧ IsRounding (x * y) (p * q * f) := by
  obtain ⟨f, hf, hxf⟩ := hx
  obtain ⟨g, hg, hyg⟩ := hy
  refine ⟨f * g, hf.mul hg, ?_⟩
  rw [mul_mul_mul_comm]
  exact Binary64.isRounding_mul hxf hyg

/-- So is a quotient. -/
theorem HasDrifted.isRounding_div (hx : HasDrifted i x p) (hy : HasDrifted j y q) (hq : q ≠ 0) :
    ∃ f, IsDrift (i + j) f ∧ IsRounding (x / y) (p / q * f) := by
  obtain ⟨f, hf, hxf⟩ := hx
  obtain ⟨g, hg, hyg⟩ := hy
  refine ⟨f / g, hf.div hg, ?_⟩
  rw [div_mul_div_comm]
  exact Binary64.isRounding_div hxf hyg (mul_ne_zero hq hg.pos.ne')

/-- **What a drifted number is rounded to** is close to what the number itself is rounded to. -/
theorem IsRounding.exists_close (h : IsRounding x (q * f)) (hf : IsDrift n f) (hq : 0 < q)
    (hc : IsNearest c (q * unitsPerOne)) (hlt : c + n < infinityCode) :
    ∃ m, x = .finite false m ∧ AreClose n c m.code := by
  have hpos : 0 < q * f := mul_pos hq hf.pos
  obtain ⟨d, hd⟩ := Magnitude.exists_isNearest (mul_nonneg hpos.le cast_unitsPerOne_pos.le)
  have hclose : AreClose n c d := by
    refine hc.close_of_isDrift hf ?_
    rwa [mul_right_comm]
  obtain ⟨s, m, rfl, rfl, hs⟩ := h.exists_eq hpos.le hd (hclose.2.trans_lt hlt)
  rw [hs hpos]
  exact ⟨m, rfl, hclose⟩

end Hygrometer.Binary64
