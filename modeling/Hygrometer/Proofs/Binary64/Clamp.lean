import Hygrometer.Proofs.Binary64.Grid

/-!
# Clamping and nearest natural numbers

A number that is clamped between two bounds has a value between them: its own, or that of the bound
it passes, which for an infinity is always one of them (`IsRange.value?_clamp`). Not-a-number passes
neither bound and stays what it is through every operation, until the nearest natural number makes
it zero.

**The value after clamping** is a function of the number and two rationals (`clamped?`), so that it
can be spoken of without the bounds as numbers of the format. It is defined for infinities, which
have no value themselves, and undefined for not-a-number alone (`exists_clamped?_eq`).

Both operations keep the order of numbers (`clamped?_le`, `toNatNearest_le_of_le`). The order is
that of `lt`, and is given as *the second is not less than the first*, so that infinities are in it.
Both have to be numbers then, since nothing is less than not-a-number.
-/

namespace Hygrometer.Binary64

variable {x y lo hi : Binary64} {a b p q : ℚ}

/-! ### Not-a-number -/

theorem nan_add (x : Binary64) : nan + x = nan := by cases x <;> rfl

theorem nan_mul (x : Binary64) : nan * x = nan := by cases x <;> rfl

theorem nan_div (x : Binary64) : nan / x = nan := by cases x <;> rfl

theorem nan_clamp (lo hi : Binary64) : nan.clamp lo hi = nan := by
  cases lo <;> cases hi <;> rfl

/-! ### Clamping -/

/-- What a number is after it was moved between two bounds; nothing for not-a-number. -/
def clamped? (a b : ℚ) : Binary64 → Option ℚ
  | .nan => none
  | .infinite negative => some (if negative then a else b)
  | .finite s m => (Binary64.finite s m).value?.map fun q ↦ max a (min q b)

theorem clamped?_of_value (hx : x.value? = some q) : x.clamped? a b = some (max a (min q b)) := by
  obtain ⟨s, m, rfl, -⟩ := value?_eq_some_iff.1 hx
  rw [clamped?, hx]
  rfl

/-- In a range, a number is clamped to its own value. -/
theorem clamped?_of_mem (hx : x.value? = some q) (ha : a ≤ q) (hb : q ≤ b) :
    x.clamped? a b = some q := by
  rw [clamped?_of_value hx, min_eq_left hb, max_eq_right ha]

/-- Whatever is a number is clamped to one. -/
theorem exists_clamped?_eq (hx : x ≠ .nan) : ∃ q, x.clamped? a b = some q := by
  rcases x with - | s | ⟨s, m⟩
  · exact absurd rfl hx
  · exact ⟨_, rfl⟩
  · obtain ⟨q, hq⟩ := exists_value_finite s m
    exact ⟨_, clamped?_of_value hq⟩

/-- What was moved between two bounds lies between them. -/
theorem mem_of_clamped? (hab : a ≤ b) (h : x.clamped? a b = some q) : a ≤ q ∧ q ≤ b := by
  rcases x with - | s | ⟨s, m⟩
  · cases h
  · obtain rfl := Option.some.inj h
    cases s
    · exact ⟨hab, le_rfl⟩
    · exact ⟨le_rfl, hab⟩
  · obtain ⟨r, hr⟩ := exists_value_finite s m
    obtain rfl := Option.some.inj ((clamped?_of_value hr).symm.trans h)
    exact ⟨le_max_left _ _, max_le hab (min_le_right _ _)⟩

/-- **The value of a clamped number.** -/
theorem IsRange.value?_clamp (h : IsRange lo hi a b) (hx : x ≠ .nan) :
    (x.clamp lo hi).value? = x.clamped? a b := by
  obtain ⟨hlo, hhi, hab⟩ := h
  rcases x with - | s | ⟨s, m⟩
  · exact absurd rfl hx
  · obtain ⟨s₁, m₁, rfl, -⟩ := value?_eq_some_iff.1 hlo
    obtain ⟨s₂, m₂, rfl, -⟩ := value?_eq_some_iff.1 hhi
    cases s
    · exact hhi
    · exact hlo
  · obtain ⟨q, hq⟩ := exists_value_finite s m
    rw [clamped?_of_value hq, clamp]
    split
    · next hbelow =>
      rw [lt_iff hq hlo] at hbelow
      rw [hlo, max_eq_left ((min_le_left _ _).trans hbelow.le)]
    · next hbelow =>
      rw [lt_iff hq hlo, not_lt] at hbelow
      split
      · next habove =>
        rw [lt_iff hhi hq] at habove
        rw [hhi, min_eq_right habove.le, max_eq_right hab]
      · next habove =>
        rw [lt_iff hhi hq, not_lt] at habove
        rw [hq, min_eq_left habove, max_eq_right hbelow]

/-- **Clamping keeps the order.** -/
theorem clamped?_le (hab : a ≤ b) (h : lt y x = false) (hx : x.clamped? a b = some p)
    (hy : y.clamped? a b = some q) : p ≤ q := by
  have hp := mem_of_clamped? hab hx
  have hq := mem_of_clamped? hab hy
  rcases x with - | s | ⟨s, m⟩
  · cases hx
  · cases s with
    | true =>
      obtain rfl := Option.some.inj hx
      exact hq.1
    | false =>
      -- Nothing but itself is as great as positive infinity.
      rcases y with - | t | ⟨t, n⟩
      · cases hy
      · cases t
        · exact (Option.some.inj (hx.symm.trans hy)).le
        · cases h
      · cases h
  · rcases y with - | t | ⟨t, n⟩
    · cases hy
    · cases t with
      | true => cases h
      | false =>
        obtain rfl := Option.some.inj hy
        exact hp.2
    · obtain ⟨p', hp'⟩ := exists_value_finite s m
      obtain ⟨q', hq'⟩ := exists_value_finite t n
      obtain rfl := Option.some.inj ((clamped?_of_value hp').symm.trans hx)
      obtain rfl := Option.some.inj ((clamped?_of_value hq').symm.trans hy)
      have hle : p' ≤ q' := by
        rw [← not_lt, ← lt_iff hq' hp', h]
        exact Bool.false_ne_true
      exact max_le_max le_rfl (min_le_min hle le_rfl)

/-- Two numbers in order, clamped to a range. -/
theorem IsRange.exists_clamp_le (h : IsRange lo hi a b) (hx : x ≠ .nan) (hy : y ≠ .nan)
    (hle : lt y x = false) :
    ∃ p q, (x.clamp lo hi).value? = some p ∧ (y.clamp lo hi).value? = some q ∧
      a ≤ p ∧ p ≤ q ∧ q ≤ b := by
  obtain ⟨p, hp⟩ := exists_clamped?_eq (a := a) (b := b) hx
  obtain ⟨q, hq⟩ := exists_clamped?_eq (a := a) (b := b) hy
  exact ⟨p, q, (h.value?_clamp hx).trans hp, (h.value?_clamp hy).trans hq,
    (mem_of_clamped? h.le hp).1, clamped?_le h.le hle hp hq, (mem_of_clamped? h.le hq).2⟩

/-- No number is smaller than itself. -/
theorem lt_self (x : Binary64) : lt x x = false := by
  rcases x with - | s | ⟨s, m⟩
  · rfl
  · cases s <;> rfl
  · exact decide_eq_false (lt_irrefl _)

/-! ### Nearest natural numbers -/

/-- The greater number has the greater nearest natural number. -/
theorem toNatNearest_le_of_le (hx : x.value? = some p) (hy : y.value? = some q) (h : p ≤ q)
    (cap : ℕ) : x.toNatNearest cap ≤ y.toNatNearest cap := by
  rw [toNatNearest_of_value hx, toNatNearest_of_value hy]
  exact min_le_min le_rfl (Nat.floor_mono (by linarith))

end Hygrometer.Binary64
