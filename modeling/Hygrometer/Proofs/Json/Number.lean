import Hygrometer.Json.Record
import Hygrometer.Proofs.Decimal.Shortest
import Hygrometer.Proofs.Json.Scaling
import Hygrometer.Proofs.Text.Basic

/-!
# Numerals read back

A numeral of JSON has **parts**: whole digits, a fraction and an exponent, the last two of which may
be absent (`Parts`). They are the middle between texts and numbers, and everything is said of them:

* a text is that of parts, up to the spelling of the letter and of the sign in its exponent
  (`Parts.IsNumber`), and reading cuts each text of a numeral into its parts
  (`Parts.IsNumber.takeNumeral?`);
* parts denote a decimal, by their digits and their power of ten (`Parts.digits`, `Parts.exp`), and
  what is read is the scaled decimal of the parts (`evaluate?_eq`).

The first is a matter of where each part ends. Digits are taken as far as they go, so what is behind
a numeral must not go on with it; `Follows` says so, and every part asks for no more than that of
what is behind it.

**The way back.** The shortest decimal of a magnitude is written with its point in place or with an
exponent, and both ways are parts (`Parts.positional`, `Parts.withExponent`) that denote the decimal
that was written (`Parts.ofDecimal_denotes`). There is one exception: a whole number that is written
in place gets a decimal place, so that it is read in tenths, with all its zeros (`reread`). It is
the same number, but has more digits than the decimal, which is why the bounds on digits are proved
again for it.

What is left to say of reading back is how far a scaled decimal is from the nearest number, and that
is a matter of roundings and not of texts. A whole number without point and exponent is not scaled
at all, and is read exactly as long as 64 bits hold it (`readNumber?_toDigits`).
-/

namespace Hygrometer.Json

open Text (NoDigit isDigit natOfDecimal takeWhile_isDigit)

/-! ### What follows a numeral -/

/-- Nothing in the text belongs to a numeral before it. -/
def Follows (cs : List Char) : Prop :=
  ∀ c, cs.head? = some c → c.isDigit = false ∧ c ≠ '.' ∧ c ≠ 'e' ∧ c ≠ 'E'

variable {ds rest : List Char}

/-- What does not go on with a numeral does not go on with a digit. -/
theorem Follows.noDigit (h : Follows rest) : NoDigit rest := fun c hc ↦ (h c hc).1

/-! ### The parts of a numeral -/

/-- The parts of a numeral without its sign. -/
structure Parts where
  /-- The digits before the point. -/
  whole : List Char
  /-- The digits behind the point. -/
  fraction : Option (List Char)
  /-- The exponent. -/
  exponent : Option ExponentPart

namespace Parts

/-- A fraction with its point. -/
def fractionText : Option (List Char) → List Char
  | none => []
  | some ds => '.' :: ds

/-- An exponent with its letter and sign. -/
def exponentText : Option ExponentPart → List Char
  | none => []
  | some (down, ds) => 'e' :: (if down then '-' else '+') :: ds

/-- The text of the parts. -/
def text (p : Parts) : List Char := p.whole ++ (fractionText p.fraction ++ exponentText p.exponent)

/-- The parts are there as a numeral needs them. -/
structure IsNumeral (p : Parts) : Prop where
  /-- There are whole digits. -/
  whole_ne : p.whole ≠ []
  /-- They are nothing else. -/
  whole : ∀ c ∈ p.whole, c.isDigit = true
  /-- A zero stands alone. -/
  head : p.whole.head? ≠ some '0' ∨ p.whole.length = 1
  /-- There are digits behind a point. -/
  fraction : ∀ ds, p.fraction = some ds → ds ≠ [] ∧ ∀ c ∈ ds, c.isDigit = true
  /-- There are digits in an exponent. -/
  exponent : ∀ e, p.exponent = some e → e.2 ≠ [] ∧ ∀ c ∈ e.2, c.isDigit = true

/-- The texts of an exponent: its letter is of either case, and the sign `+` may be left out. -/
def IsExponent : Option ExponentPart → List Char → Prop
  | none, cs => cs = []
  | some (down, ds), cs => ∃ letter sign, (letter = 'e' ∨ letter = 'E') ∧
      (sign = [if down then '-' else '+'] ∨ down = false ∧ sign = []) ∧ cs = letter :: (sign ++ ds)

/-- An exponent as it is written is one of its spellings. -/
theorem isExponent_exponentText (e : Option ExponentPart) : IsExponent e (exponentText e) := by
  rcases e with - | ⟨down, ds⟩
  · rfl
  · exact ⟨'e', _, .inl rfl, .inl rfl, rfl⟩

/-- **Any spelling of an exponent is read.** -/
theorem takeExponent?_append {e : Option ExponentPart} {es : List Char} (hes : IsExponent e es)
    (h : ∀ x, e = some x → x.2 ≠ [] ∧ ∀ c ∈ x.2, c.isDigit = true) (hrest : Follows rest) :
    takeExponent? (es ++ rest) = some (e, rest) := by
  rcases e with - | ⟨down, ds⟩
  · obtain rfl := hes
    rcases rest with - | ⟨c, rest⟩
    · rfl
    · obtain ⟨-, -, he, hE⟩ := hrest c rfl
      rw [List.nil_append, takeExponent?, if_neg]
      rintro (rfl | rfl)
      · exact he rfl
      · exact hE rfl
  · obtain ⟨letter, sign, hletter, hsign, rfl⟩ := hes
    obtain ⟨hne, hds⟩ := h _ rfl
    have htake : Decimal.takeSign (sign ++ ds ++ rest) = (down, ds ++ rest) := by
      rcases hsign with rfl | ⟨rfl, rfl⟩
      · cases down <;> rfl
      -- Without a sign the digits start, and no digit is taken for a sign.
      · obtain ⟨d, ds, rfl⟩ := List.exists_cons_of_ne_nil hne
        have hd : d.isDigit = true := hds d List.mem_cons_self
        rw [List.nil_append, List.cons_append, Decimal.takeSign]
        · rintro cs ⟨⟩
          cases hd
        · rintro cs ⟨⟩
          cases hd
    rw [List.cons_append, takeExponent?, if_pos hletter, htake]
    simp only [takeWhile_isDigit hds hrest.noDigit, if_neg hne, List.drop_left]

/-- What comes behind the fraction does not go on with it, and begins with no point. -/
theorem noDigit_exponent {e : Option ExponentPart} {es : List Char} (hes : IsExponent e es)
    (hrest : Follows rest) : NoDigit (es ++ rest) ∧ (es ++ rest).head? ≠ some '.' := by
  rcases e with - | ⟨down, ds⟩
  · obtain rfl := hes
    exact ⟨hrest.noDigit, fun h ↦ (hrest _ h).2.1 rfl⟩
  · obtain ⟨letter, sign, hletter, -, rfl⟩ := hes
    refine ⟨?_, ?_⟩
    · rintro c ⟨⟩
      rcases hletter with rfl | rfl <;> rfl
    · rcases hletter with rfl | rfl <;> simp

/-- A fraction is read, or found to be absent. -/
theorem takeFraction?_append {f : Option (List Char)}
    (h : ∀ ds, f = some ds → ds ≠ [] ∧ ∀ c ∈ ds, c.isDigit = true) (hrest : NoDigit rest)
    (hpoint : rest.head? ≠ some '.') :
    takeFraction? (fractionText f ++ rest) = some (f, rest) := by
  cases f with
  | none =>
    cases rest with
    | nil => rfl
    | cons c rest =>
      have hc : c ≠ '.' := fun hc ↦ hpoint (hc ▸ rfl)
      rw [fractionText, List.nil_append, takeFraction?]
      rintro cs ⟨⟩
      exact hc rfl
  | some ds =>
    obtain ⟨hne, hds⟩ := h ds rfl
    rw [fractionText, List.cons_append, takeFraction?]
    simp only [takeWhile_isDigit hds hrest, if_neg hne, List.drop_left]

/-- The sign of a numeral. -/
def signText (negative : Bool) : List Char := if negative then ['-'] else []

/-- The texts of a numeral. -/
def IsNumber (negative : Bool) (p : Parts) (cs : List Char) : Prop :=
  p.IsNumeral ∧ ∃ es, IsExponent p.exponent es ∧
    cs = signText negative ++ (p.whole ++ (fractionText p.fraction ++ es))

variable {negative : Bool} {p : Parts} {cs : List Char}

/-- The text of parts is one of their texts. -/
theorem isNumber_text (h : p.IsNumeral) (negative : Bool) :
    IsNumber negative p (signText negative ++ p.text) :=
  ⟨h, _, isExponent_exponentText p.exponent, rfl⟩

/-- **A numeral is cut into its parts**, whichever of its texts it is written as. -/
theorem IsNumber.takeNumeral? (h : IsNumber negative p cs) (hrest : Follows rest) :
    Json.takeNumeral? (cs ++ rest) =
      some ((negative, p.whole, p.fraction, p.exponent), rest) := by
  obtain ⟨h, es, hes, rfl⟩ := h
  obtain ⟨hexponent, hpoint⟩ := noDigit_exponent hes hrest
  have hfraction : NoDigit (fractionText p.fraction ++ (es ++ rest)) := by
    cases p.fraction with
    | none => exact hexponent
    | some ds =>
      rintro c ⟨⟩
      rfl
  have hminus : ∀ cs, p.whole ++ (fractionText p.fraction ++ (es ++ rest)) ≠ '-' :: cs := by
    obtain ⟨c, cs, hwhole⟩ := List.exists_cons_of_ne_nil h.whole_ne
    have hc : c.isDigit = true := h.whole c (hwhole ▸ List.mem_cons_self)
    rw [hwhole, List.cons_append]
    rintro cs ⟨⟩
    cases hc
  cases negative
  all_goals
    simp only [signText, Bool.false_eq_true, if_false, if_true, List.nil_append, List.cons_append,
      List.append_assoc, Json.takeNumeral?]
    simp only [takeWhile_isDigit h.whole hfraction, List.drop_left]
    simp [takeFraction?_append h.fraction hexponent hpoint,
      takeExponent?_append hes h.exponent hrest, h.whole_ne, h.head]

/-- A numeral starts as a number does. -/
theorem IsNumber.startsNumber (h : IsNumber negative p cs) (rest : List Char) :
    Json.startsNumber (cs ++ rest) = true := by
  obtain ⟨h, es, -, rfl⟩ := h
  obtain ⟨c, cs, hwhole⟩ := List.exists_cons_of_ne_nil h.whole_ne
  have hc : c.isDigit = true := h.whole c (hwhole ▸ List.mem_cons_self)
  cases negative with
  | true => rfl
  | false =>
    simp only [signText, Bool.false_eq_true, if_false, List.nil_append, hwhole,
      List.cons_append, Json.startsNumber, Text.isDigit_eq, hc, Bool.or_true]

/-- So it is cut into them again. -/
theorem takeNumeral?_text {p : Parts} (h : p.IsNumeral) (negative : Bool) (hrest : Follows rest) :
    takeNumeral? (signText negative ++ p.text ++ rest) =
      some ((negative, p.whole, p.fraction, p.exponent), rest) :=
  (isNumber_text h negative).takeNumeral? hrest

/-- And it looks like a number. -/
theorem startsNumber_text {p : Parts} (h : p.IsNumeral) (negative : Bool) (rest : List Char) :
    startsNumber (signText negative ++ p.text ++ rest) = true :=
  (isNumber_text h negative).startsNumber rest

/-! ### The decimal that the parts denote -/

/-- The digits of the decimal. -/
def digits (p : Parts) : ℕ := natOfDecimal (p.whole ++ p.fraction.getD [])

/-- The power of ten that the exponent says. -/
def power (p : Parts) : ℤ :=
  match p.exponent with
  | none => 0
  | some (down, ds) => if down then -natOfDecimal ds else natOfDecimal ds

/-- The power of ten that the last digit counts. -/
def exp (p : Parts) : ℤ := p.power - (p.fraction.getD []).length

end Parts

/-- A digit in front of digits counts for as many places. -/
theorem natOfDecimal_cons (s : ℕ) (c : Char) (ds : List Char) :
    10 ^ (c :: ds).length * s + natOfDecimal (c :: ds) =
      10 ^ ds.length * (10 * s + natOfDecimal [c]) + natOfDecimal ds := by
  rw [← List.singleton_append, Text.natOfDecimal_append, List.length_append,
    List.length_singleton, pow_add, pow_one]
  ring

/-- Digits that fit are all absorbed. -/
theorem absorb_eq {s : ℕ} (h : 10 ^ ds.length * s + natOfDecimal ds < UInt64.size) :
    absorb s ds = (10 ^ ds.length * s + natOfDecimal ds, []) := by
  induction ds generalizing s with
  | nil => simp [absorb, natOfDecimal]
  | cons c ds ih =>
    rw [natOfDecimal_cons] at h ⊢
    have hone : 10 * s + natOfDecimal [c] ≤
        10 ^ ds.length * (10 * s + natOfDecimal [c]) + natOfDecimal ds :=
      (Nat.le_mul_of_pos_left _ (Nat.pow_pos (by decide))).trans (Nat.le_add_right _ _)
    rw [absorb, if_pos (hone.trans_lt h), ih h]

/-- **A significand takes the digits at the front**, and stops only before one that takes it past
64 bits. -/
theorem exists_of_absorb {s t : ℕ} {left : List Char} (hs : s < UInt64.size)
    (h : absorb s ds = (t, left)) :
    ∃ taken, ds = taken ++ left ∧ t = 10 ^ taken.length * s + natOfDecimal taken ∧
      t < UInt64.size ∧ ∀ c cs, left = c :: cs → UInt64.size ≤ 10 * t + natOfDecimal [c] := by
  induction ds generalizing s with
  | nil =>
    obtain ⟨rfl, rfl⟩ := Prod.mk.inj h
    exact ⟨[], rfl, by simp [natOfDecimal], hs, fun _ _ hleft ↦ nomatch hleft⟩
  | cons c ds ih =>
    rw [absorb] at h
    split at h
    · next hnext =>
      obtain ⟨taken, rfl, ht, hlt, hfull⟩ := ih hnext h
      exact ⟨c :: taken, rfl, ht.trans (natOfDecimal_cons s c taken).symm, hlt, hfull⟩
    · next hfull =>
      obtain ⟨rfl, rfl⟩ := Prod.mk.inj h
      refine ⟨[], rfl, by simp [natOfDecimal], hs, ?_⟩
      rintro _ _ ⟨⟩
      exact Nat.not_lt.1 hfull

/-- A significand that absorbs all digits is what they denote. -/
theorem of_absorb_eq {s t : ℕ} (hs : s < UInt64.size) (h : absorb s ds = (t, [])) :
    t = 10 ^ ds.length * s + natOfDecimal ds ∧ t < UInt64.size := by
  obtain ⟨taken, rfl, ht, hlt, -⟩ := exists_of_absorb hs h
  rw [List.append_nil]
  exact ⟨ht, hlt⟩

/-- Digits that 64 bits hold are absorbed whole. -/
theorem absorb_zero_eq (h : natOfDecimal ds < UInt64.size) :
    absorb 0 ds = (natOfDecimal ds, []) := by
  have hzero : 10 ^ ds.length * 0 + natOfDecimal ds = natOfDecimal ds := Nat.zero_add _
  rw [absorb_eq (hzero.trans_lt h), hzero]

namespace Parts

variable {p : Parts}

/-- **A numeral with a point or an exponent** denotes the scaled decimal of its parts, if its digits
fit the significand. -/
theorem evaluate?_eq (hdigits : p.digits < UInt64.size) (hpower : p.power.natAbs < 0x80000000)
    (hreal : p.fraction ≠ none ∨ p.exponent ≠ none) (negative : Bool) :
    evaluate? negative p.whole p.fraction p.exponent =
      (scaled? p.digits p.exp).map (.real ∘ withSign negative) := by
  have hsplit := Text.natOfDecimal_append p.whole (p.fraction.getD [])
  rw [digits, hsplit] at hdigits
  -- All digits fit into the significand, so none of either part is left.
  have hwhole : absorb 0 p.whole = (natOfDecimal p.whole, []) := by
    have hle : natOfDecimal p.whole ≤ 10 ^ (p.fraction.getD []).length * natOfDecimal p.whole +
        natOfDecimal (p.fraction.getD []) :=
      (Nat.le_mul_of_pos_left _ (Nat.pow_pos (by decide))).trans (Nat.le_add_right _ _)
    exact absorb_zero_eq (by omega)
  have hinteger : ¬ (p.fraction.isNone ∧ p.exponent.isNone ∧ True) := by
    rw [Option.isNone_iff_eq_none, Option.isNone_iff_eq_none]
    tauto
  rw [evaluate?, hwhole]
  simp only [hinteger, if_false, absorb_eq hdigits, ← hsplit]
  have hplaces : ((([] : List Char).length : ℤ) -
      ((p.fraction.getD []).length - ([] : List Char).length)) = -(p.fraction.getD []).length := by
    simp
  rw [digits, exp, hplaces]
  rw [power] at hpower ⊢
  generalize p.exponent = x at hpower ⊢
  cases x with
  | none => rw [zero_sub]
  | some x =>
    obtain ⟨down, ds⟩ := x
    have hlt : natOfDecimal ds < 0x80000000 := by
      cases down <;> simpa using hpower
    cases down
    · simp only [hlt, if_true, Bool.false_eq_true, if_false, neg_add_eq_sub]
    · simp only [hlt, if_true, neg_sub_comm]

/-! ### The parts of a decimal as it is written -/

/-- The parts of digits with the point after the first `point` of them. -/
def positional (ds : List Char) (point : ℤ) : Parts :=
  if point ≤ 0 then ⟨['0'], some (List.replicate point.natAbs '0' ++ ds), none⟩
  else if point.toNat < ds.length then ⟨ds.take point.toNat, some (ds.drop point.toNat), none⟩
  else ⟨ds ++ List.replicate (point.toNat - ds.length) '0', some ['0'], none⟩

/-- The parts of digits with the point after the first of them, and an exponent. -/
def withExponent (ds : List Char) (point : ℤ) : Parts :=
  ⟨ds.take 1, if ds.length ≤ 1 then none else some (ds.drop 1),
    some (decide (point - 1 < 0), Nat.toDigits 10 (point - 1).natAbs)⟩

/-- The parts that a decimal is written in. -/
def ofDecimal (w : Decimal) : Parts :=
  let ds := Nat.toDigits 10 w.digits
  let point := w.exp + ds.length
  if -4 ≤ point ∧ point ≤ 16 then positional ds point else withExponent ds point

variable {point : ℤ}

/-- The parts with the point in place have the text that the layout gives. -/
theorem text_positional (ds : List Char) (point : ℤ) :
    (positional ds point).text = DecimalLayout.positional ds point := by
  rw [positional, DecimalLayout.positional]
  split_ifs <;> simp [text, fractionText, exponentText]

/-- So have the parts with an exponent. -/
theorem text_withExponent (ds : List Char) (point : ℤ) :
    (withExponent ds point).text = DecimalLayout.withExponent ds point := by
  rw [withExponent, DecimalLayout.withExponent]
  simp only [text, exponentText, decide_eq_true_iff, Text.toList_numeral]
  split_ifs <;> simp [fractionText]

/-- **A number is written as the parts of its shortest decimal**, behind its sign. -/
theorem toList_writeNumber (negative : Bool) (m : Magnitude) :
    (writeNumber (.finite negative m)).toList =
      signText negative ++ (ofDecimal (Decimal.shortest .even m)).text := by
  rw [writeNumber, DecimalLayout.write, ofDecimal]
  simp only [numberLayout, Text.toList_numeral, Bool.and_eq_true, decide_eq_true_iff]
  cases negative <;> split_ifs <;> simp_all [signText, text_positional, text_withExponent]

/-! ### They are those of a numeral -/

section Layout

variable (hne : ds ≠ []) (hds : ∀ c ∈ ds, c.isDigit = true) (hhead : ds.head? ≠ some '0')
include hne hds hhead

/-- A point in place leaves a digit on both of its sides. -/
theorem isNumeral_positional (point : ℤ) : (positional ds point).IsNumeral := by
  have hzeros (n : ℕ) : ∀ c ∈ List.replicate n '0', c.isDigit = true := fun c hc ↦ by
    rw [List.eq_of_mem_replicate hc]
    rfl
  rw [positional]
  split_ifs with hbefore hamong
  · refine ⟨by simp, by simp, .inr rfl, ?_, by simp⟩
    rintro fs ⟨⟩
    refine ⟨by simp [hne], fun c hc ↦ ?_⟩
    exact (List.mem_append.1 hc).elim (hzeros _ c) (hds c)
  · have hpoint : point.toNat ≠ 0 := by omega
    refine ⟨by simp [hne, hpoint], fun c hc ↦ hds c (List.mem_of_mem_take hc), .inl ?_, ?_, by simp⟩
    · rwa [List.head?_take, if_neg hpoint]
    · rintro fs ⟨⟩
      exact ⟨by simpa using hamong, fun c hc ↦ hds c (List.mem_of_mem_drop hc)⟩
  · refine ⟨by simp [hne], fun c hc ↦ ?_, .inl ?_, ?_, by simp⟩
    · exact (List.mem_append.1 hc).elim (hds c) (hzeros _ c)
    · obtain ⟨d, ds, rfl⟩ := List.exists_cons_of_ne_nil hne
      exact hhead
    · rintro fs ⟨⟩
      simp

/-- An exponent leaves a digit before it. -/
theorem isNumeral_withExponent (point : ℤ) : (withExponent ds point).IsNumeral := by
  rw [withExponent]
  refine ⟨by simp [hne], fun c hc ↦ hds c (List.mem_of_mem_take hc), .inl ?_, ?_, ?_⟩
  · rwa [List.head?_take, if_neg one_ne_zero]
  · intro fs hfs
    split at hfs
    · cases hfs
    · next hlong =>
      obtain rfl := Option.some.inj hfs
      exact ⟨fun hnil ↦ hlong (List.drop_eq_nil_iff.1 hnil),
        fun c hc ↦ hds c (List.mem_of_mem_drop hc)⟩
  · rintro e ⟨⟩
    exact ⟨Nat.toDigits_ne_nil, fun c hc ↦ Text.isDigit_of_mem_toDigits hc⟩

end Layout

/-- Either way it is a numeral: only one zero may stand in front, and there it stands alone. -/
theorem isNumeral_ofDecimal {w : Decimal} (hw : 0 < w.digits) : (ofDecimal w).IsNumeral := by
  rw [ofDecimal]
  split_ifs
  · exact isNumeral_positional Nat.toDigits_ne_nil (fun _ ↦ Text.isDigit_of_mem_toDigits)
      (Text.head?_toDigits_ne hw) _
  · exact isNumeral_withExponent Nat.toDigits_ne_nil (fun _ ↦ Text.isDigit_of_mem_toDigits)
      (Text.head?_toDigits_ne hw) _

end Parts

/-! ### They denote the decimal -/

/-- The decimal that is read where one was written: a whole number gains a decimal place. -/
def reread (w : Decimal) : Decimal :=
  if 0 ≤ w.exp ∧ w.exp + (Nat.toDigits 10 w.digits).length ≤ 16 then
    ⟨w.digits * 10 ^ (w.exp.toNat + 1), -1⟩
  else w

namespace Parts

variable {point : ℤ}

/-- A point before or among the digits leaves them as they are. -/
theorem positional_of_lt (h : point < ds.length) :
    (positional ds point).digits = natOfDecimal ds ∧
      (positional ds point).exp = point - ds.length := by
  rw [positional]
  split_ifs with hbefore hamong
  · refine ⟨?_, ?_⟩
    · have hzero : natOfDecimal ['0'] = 0 := rfl
      simp only [digits, Option.getD_some, Text.natOfDecimal_append,
        Text.natOfDecimal_replicate_zero, hzero, Nat.mul_zero, Nat.zero_add]
    · simp only [exp, power, Option.getD_some, List.length_append, List.length_replicate]
      omega
  · refine ⟨?_, ?_⟩
    · simp only [digits, Option.getD_some, List.take_append_drop]
    · simp only [exp, power, Option.getD_some, List.length_drop]
      omega
  · omega

/-- A point behind the digits adds zeros, one of them a decimal place. -/
theorem positional_of_le (h : ds.length ≤ point) (hne : ds ≠ []) :
    (positional ds point).digits = natOfDecimal ds * 10 ^ (point.toNat - ds.length + 1) ∧
      (positional ds point).exp = -1 := by
  have hlength : 0 < ds.length := List.length_pos_iff.2 hne
  rw [positional, if_neg (by omega), if_neg (by omega)]
  refine ⟨?_, rfl⟩
  have hzero : natOfDecimal ['0'] = 0 := rfl
  simp only [digits, Option.getD_some, Text.natOfDecimal_append, Text.natOfDecimal_replicate_zero,
    hzero, List.length_singleton, List.length_replicate, Nat.add_zero, pow_succ]
  ring

/-- The exponent counts from behind the first digit. -/
theorem power_withExponent (ds : List Char) (point : ℤ) :
    (withExponent ds point).power = point - 1 := by
  simp only [withExponent, power, Text.natOfDecimal_toDigits, decide_eq_true_iff]
  split_ifs <;> omega

/-- Digits with an exponent denote the digits, counted from the last of them. -/
theorem withExponent_denotes (hne : ds ≠ []) (point : ℤ) :
    (withExponent ds point).digits = natOfDecimal ds ∧
      (withExponent ds point).exp = point - ds.length := by
  have hlength : 0 < ds.length := List.length_pos_iff.2 hne
  rw [digits, exp, power_withExponent, withExponent]
  split_ifs with hshort
  · have hone : ds.length = 1 := by omega
    refine ⟨?_, ?_⟩
    · rw [Option.getD_none, List.append_nil, List.take_of_length_le hshort]
    · simp [hone]
  · refine ⟨?_, ?_⟩
    · rw [Option.getD_some, List.take_append_drop]
    · simp only [Option.getD_some, List.length_drop]
      omega

/-- **The parts denote the decimal.** -/
theorem ofDecimal_denotes (w : Decimal) :
    (⟨(ofDecimal w).digits, (ofDecimal w).exp⟩ : Decimal) = reread w := by
  have hne : Nat.toDigits 10 w.digits ≠ [] := Nat.toDigits_ne_nil
  have hlength : 0 < (Nat.toDigits 10 w.digits).length := List.length_pos_iff.2 hne
  rw [ofDecimal, reread]
  generalize hds : Nat.toDigits 10 w.digits = ds at hne hlength ⊢
  have hvalue : natOfDecimal ds = w.digits := by rw [← hds, Text.natOfDecimal_toDigits]
  by_cases hwhole : 0 ≤ w.exp ∧ w.exp + ds.length ≤ 16
  · obtain ⟨hdigits, hexp⟩ := 
      positional_of_le (by omega : (ds.length : ℤ) ≤ w.exp + ds.length) hne
    have hplaces : (w.exp + ds.length).toNat - ds.length = w.exp.toNat := by omega
    rw [if_pos (by omega), if_pos hwhole, hdigits, hexp, hvalue, hplaces]
  · have hback {p : Parts} (h : p.digits = natOfDecimal ds ∧
        p.exp = w.exp + ds.length - ds.length) : (⟨p.digits, p.exp⟩ : Decimal) = w := by
      rw [h.1, h.2, hvalue, add_sub_cancel_right]
    rw [if_neg hwhole]
    split
    · exact hback (positional_of_lt (by omega))
    · exact hback (withExponent_denotes hne _)

/-- A decimal is never written as a whole number. -/
theorem ofDecimal_real (w : Decimal) :
    (ofDecimal w).fraction ≠ none ∨ (ofDecimal w).exponent ≠ none := by
  rw [ofDecimal, positional]
  split_ifs
  · exact .inl (Option.some_ne_none _)
  · exact .inl (Option.some_ne_none _)
  · exact .inl (Option.some_ne_none _)
  · exact .inr (Option.some_ne_none _)

/-- Its exponent is one less than the place of its point. -/
theorem natAbs_power_ofDecimal_le (w : Decimal) :
    (ofDecimal w).power.natAbs ≤ w.exp.natAbs + (Nat.toDigits 10 w.digits).length := by
  have hlength : 0 < (Nat.toDigits 10 w.digits).length := Nat.length_toDigits_pos
  rw [ofDecimal]
  split_ifs
  · have hpower : (positional (Nat.toDigits 10 w.digits)
        (w.exp + (Nat.toDigits 10 w.digits).length)).power = 0 := by
      rw [positional]
      split_ifs <;> rfl
    rw [hpower]
    exact Nat.zero_le _
  · rw [power_withExponent]
    omega

end Parts

/-! ### Whole numbers read back -/

/-- The parts of a whole number. -/
def wholeParts (n : ℕ) : Parts := ⟨Nat.toDigits 10 n, none, none⟩

/-- Whole digits are a numeral. -/
theorem isNumeral_wholeParts (n : ℕ) : (wholeParts n).IsNumeral := by
  refine ⟨Nat.toDigits_ne_nil, fun _ ↦ Text.isDigit_of_mem_toDigits, ?_, by simp [wholeParts],
    by simp [wholeParts]⟩
  rcases Nat.eq_zero_or_pos n with rfl | hn
  · exact .inr rfl
  · exact .inl (Text.head?_toDigits_ne hn)

/-- Their text is the digits. -/
theorem text_wholeParts (n : ℕ) : (wholeParts n).text = Nat.toDigits 10 n := List.append_nil _

/-- They are read as the number itself. -/
theorem evaluate?_wholeParts (n : UInt64) :
    evaluate? false (wholeParts n.toNat).whole (wholeParts n.toNat).fraction
      (wholeParts n.toNat).exponent = some (.natural n) := by
  have habsorb : absorb 0 (Nat.toDigits 10 n.toNat) = (n.toNat, []) := by
    have hlt : n.toNat < UInt64.size := n.toNat_lt_size
    have h : natOfDecimal (Nat.toDigits 10 n.toNat) = n.toNat := Text.natOfDecimal_toDigits _
    rw [absorb_zero_eq (h.trans_lt hlt), h]
  simp [wholeParts, evaluate?, habsorb]

/-- **What is read as a whole number of 64 bits** is its digits and nothing else. -/
theorem evaluate?_eq_natural_iff {p : Parts} (h : p.IsNumeral) {negative : Bool} {n : UInt64} :
    evaluate? negative p.whole p.fraction p.exponent = some (.natural n) ↔
      negative = false ∧ p = wholeParts n.toNat := by
  constructor
  · intro heq
    obtain ⟨whole, fraction, exponent⟩ := p
    rcases habsorb : absorb 0 whole with ⟨significand, left⟩
    simp only [evaluate?, habsorb] at heq
    split at heq
    · next hplain =>
      obtain ⟨hfraction, hexponent, rfl⟩ := hplain
      obtain rfl := Option.isNone_iff_eq_none.1 hfraction
      obtain rfl := Option.isNone_iff_eq_none.1 hexponent
      obtain ⟨hvalue, hlt⟩ := of_absorb_eq (by decide) habsorb
      split_ifs at heq with hsign
      · obtain rfl := Number.natural.inj (Option.some.inj heq)
        have hdigits : Nat.toDigits 10 significand = whole := by
          rw [hvalue, Nat.mul_zero, Nat.zero_add, Text.natOfDecimal_eq h.whole,
            Text.toDigits_ofDigitChars h.whole_ne h.whole h.head]
        refine ⟨by simpa using hsign, ?_⟩
        have htoNat : (UInt64.ofNat significand).toNat = significand :=
          UInt64.toNat_ofNat_of_lt' hlt
        rw [wholeParts, htoNat, hdigits]
      · cases heq
      · cases heq
    -- A numeral with more parts or more digits is no whole number.
    · exfalso
      revert heq
      split
      · simp [Option.map_eq_some_iff]
      · split_ifs <;> simp [Option.map_eq_some_iff]
  · rintro ⟨rfl, rfl⟩
    exact evaluate?_wholeParts n

/-- **A whole number of 64 bits is read as it is.** -/
theorem readNumber?_toDigits (n : UInt64) {rest : List Char} (hrest : Follows rest) :
    readNumber? (Nat.toDigits 10 n.toNat ++ rest) = some (.natural n, rest) := by
  have htake := Parts.takeNumeral?_text (isNumeral_wholeParts n.toNat) false hrest
  rw [text_wholeParts, Parts.signText, if_neg Bool.false_ne_true, List.nil_append] at htake
  rw [readNumber?, htake]
  simp only [Option.bind_eq_bind, Option.bind_some, evaluate?_wholeParts, Option.pure_def]

/-! ### Numbers read back -/

/-- The decimal that is read denotes what was written. -/
theorem value_reread (w : Decimal) : (reread w).value = w.value := by
  rw [reread]
  split
  · next hwhole =>
    obtain ⟨k, hk⟩ := Int.eq_ofNat_of_zero_le hwhole.1
    rw [Decimal.value, Decimal.value, hk, Int.toNat_natCast, zpow_natCast, pow_succ, zpow_neg_one]
    push_cast
    ring
  · rfl

/-- The exponent counts tenths for a whole number that is written in place, and is kept
otherwise. -/
theorem exp_reread (w : Decimal) : (reread w).exp = if 0 ≤ w.exp ∧
    w.exp + (Nat.toDigits 10 w.digits).length ≤ 16 then -1 else w.exp := by
  rw [reread]
  split <;> rfl

/-- The decimal place is one of at most sixteen digits then, so eighteen are still enough. -/
theorem digits_reread_lt {w : Decimal} (hw : w.digits < 10 ^ 18) :
    (reread w).digits < 10 ^ 18 := by
  rw [reread]
  split
  · next hwhole =>
    have hdigits : w.digits < 10 ^ (Nat.toDigits 10 w.digits).length :=
      (Nat.length_toDigits_le_iff (by decide) Nat.length_toDigits_pos).1 le_rfl
    calc w.digits * 10 ^ (w.exp.toNat + 1)
        < 10 ^ (Nat.toDigits 10 w.digits).length * 10 ^ (w.exp.toNat + 1) :=
          Nat.mul_lt_mul_of_pos_right hdigits (Nat.pow_pos (by decide))
      _ = 10 ^ ((Nat.toDigits 10 w.digits).length + (w.exp.toNat + 1)) := (pow_add _ _ _).symm
      _ ≤ 10 ^ 18 := Nat.pow_le_pow_right (by decide) (by omega)
  · exact hw

/-- They are not zero, if those of the decimal are not. -/
theorem digits_reread_pos {w : Decimal} (hw : 0 < w.digits) : 0 < (reread w).digits := by
  rw [reread]
  split
  · exact Nat.mul_pos hw (Nat.pow_pos (by decide))
  · exact hw

variable {m : Magnitude}

/-- The decimal that is read for a magnitude. -/
def readFor (m : Magnitude) : Decimal := reread (Decimal.shortest .even m)

/-- Zero is written with no digits but one. -/
theorem shortest_zero : Decimal.shortest .even .zero = ⟨0, 0⟩ := if_pos rfl

/-- The shortest decimal has at most eighteen digits, also that of zero. -/
theorem digits_shortest_lt (m : Magnitude) : (Decimal.shortest .even m).digits < 10 ^ 18 := by
  by_cases hm : m = .zero
  · rw [hm, shortest_zero]
    decide
  · exact Decimal.shortest_digits_lt .even hm

/-- No exponent is farther than that of the finest grid. -/
theorem natAbs_exp_shortest_le (m : Magnitude) : (Decimal.shortest .even m).exp.natAbs ≤ 324 := by
  by_cases hm : m = .zero
  · rw [hm, shortest_zero]
    decide
  · obtain ⟨hlow, hhigh, -⟩ := Decimal.shortest_spec .even hm
    omega

/-- The shortest decimal is written as a numeral, also that of zero. -/
theorem isNumeral_shortest (m : Magnitude) :
    (Parts.ofDecimal (Decimal.shortest .even m)).IsNumeral := by
  by_cases hm : m = .zero
  · rw [hm, shortest_zero, show Parts.ofDecimal ⟨0, 0⟩ = ⟨['0'], some ['0'], none⟩ by rfl]
    exact ⟨by simp, by simp, .inr rfl, by simp, by simp⟩
  · exact Parts.isNumeral_ofDecimal (Decimal.shortest_digits_pos .even hm)

/-- **A number is read as the scaled decimal that was written for it.** -/
theorem readNumber?_writeNumber (negative : Bool) (m : Magnitude) {rest : List Char}
    (hrest : Follows rest) :
    readNumber? ((writeNumber (.finite negative m)).toList ++ rest) =
      (scaled? (readFor m).digits (readFor m).exp).map
        fun x ↦ (.real (withSign negative x), rest) := by
  have hdenotes := Parts.ofDecimal_denotes (Decimal.shortest .even m)
  have hdigits : (Parts.ofDecimal (Decimal.shortest .even m)).digits = (readFor m).digits :=
    congrArg Decimal.digits hdenotes
  have hexp : (Parts.ofDecimal (Decimal.shortest .even m)).exp = (readFor m).exp :=
    congrArg Decimal.exp hdenotes
  have hlt := digits_shortest_lt m
  have hfit : (readFor m).digits < UInt64.size :=
    (digits_reread_lt hlt).trans (by decide)
  have hpower : (Parts.ofDecimal (Decimal.shortest .even m)).power.natAbs < 0x80000000 := by
    have hle := Parts.natAbs_power_ofDecimal_le (Decimal.shortest .even m)
    have hlength := (Nat.length_toDigits_le_iff (b := 10) (by decide) (by decide)).2 hlt
    have hnat := natAbs_exp_shortest_le m
    omega
  rw [readNumber?, Parts.toList_writeNumber,
    Parts.takeNumeral?_text (isNumeral_shortest m) negative hrest]
  simp only [Option.bind_eq_bind, Option.bind_some]
  rw [Parts.evaluate?_eq (hdigits ▸ hfit) hpower (Parts.ofDecimal_real _), hdigits, hexp]
  cases scaled? (readFor m).digits (readFor m).exp <;> rfl

end Hygrometer.Json
