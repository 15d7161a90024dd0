import Hygrometer.Proofs.Decimal.Nearest
import Hygrometer.Proofs.Text.Basic
import Hygrometer.Yaml.Resolve

/-!
# What numbers in a document denote

A number in a document is a decimal numeral: a sign or none, digits with at most one point among,
before or after them, and an exponent or none (`Decimal.IsNumeral`). The grammar says which decimal
it denotes: the digits without the point, counted in a power of ten that the exponent gives and that
every digit behind the point lowers by one. `Decimal.read?` accepts exactly these texts and gives
this decimal (`Decimal.read?_eq_some_iff`); its parts are read from the left, each as far as it
goes, and no part can begin with what the part before it goes on with.

**A numeral stands for the number nearest to its decimal**, unless that is infinite; then it stands
for no number, and only the words for the infinities and for not-a-number stand for these
(`Yaml.real?_eq_some_iff`). The nearest number is unique but for its sign at zero, which is that of
the numeral, so the statement leaves nothing open. A decimal that a number represents is read as
that number (`exists_real?_eq`), and then no nearness needs to be spoken of.

**Signs.** A sign may stand before a numeral once, although the plus sign is taken off before the
numeral is read, and its own sign is looked for again. A text with a plus sign and a second sign is
refused before that (`real?_of_signTwice`), so what is read behind the plus sign is what the numeral
denotes with it (`read?_eq_some_iff_afterPlus`).

The words are looked for first, but no word is a numeral (`read?_word`), so the order does not
matter.
-/

namespace Hygrometer.Decimal

open Text (NoDigit isDigit natOfDecimal)

/-! ### Numerals -/

/-- What a sign denotes: whether it is a minus. -/
inductive IsSign : List Char → Bool → Prop
  /-- There need not be one. -/
  | none : IsSign [] false
  /-- A plus changes nothing. -/
  | plus : IsSign ['+'] false
  /-- A minus. -/
  | minus : IsSign ['-'] true

/-- What an exponent denotes. -/
inductive IsExponent : List Char → ℤ → Prop
  /-- There need not be one. -/
  | none : IsExponent [] 0
  /-- A letter, a sign and digits. -/
  | some {e : Char} {sign ds : List Char} {negative : Bool} (he : e = 'e' ∨ e = 'E')
      (hsign : IsSign sign negative) (hne : ds ≠ []) (hds : ∀ c ∈ ds, c.isDigit = true) :
      IsExponent (e :: (sign ++ ds))
        (if negative then -Nat.ofDigitChars 10 ds 0 else Nat.ofDigitChars 10 ds 0)

/-- What a numeral denotes: whether its sign is a minus, and a decimal. -/
inductive IsNumeral : List Char → Bool → Decimal → Prop
  /-- Digits without a point. -/
  | whole {sign ds exponent : List Char} {negative : Bool} {e : ℤ} (hsign : IsSign sign negative)
      (hne : ds ≠ []) (hds : ∀ c ∈ ds, c.isDigit = true) (hexponent : IsExponent exponent e) :
      IsNumeral (sign ++ (ds ++ exponent)) negative ⟨Nat.ofDigitChars 10 ds 0, e⟩
  /-- Digits with a point, on one side of it at least. -/
  | point {sign ds fs exponent : List Char} {negative : Bool} {e : ℤ} (hsign : IsSign sign negative)
      (hne : ds ≠ [] ∨ fs ≠ []) (hds : ∀ c ∈ ds, c.isDigit = true)
      (hfs : ∀ c ∈ fs, c.isDigit = true) (hexponent : IsExponent exponent e) :
      IsNumeral (sign ++ (ds ++ '.' :: (fs ++ exponent))) negative
        ⟨Nat.ofDigitChars 10 (ds ++ fs) 0, e - fs.length⟩

variable {cs rest : List Char} {negative : Bool} {e : ℤ} {d : Decimal}

/-! ### Signs -/

/-- The text does not begin with a sign. -/
def NoSign (cs : List Char) : Prop := ∀ c ∈ cs.head?, c ≠ '+' ∧ c ≠ '-'

/-- Digits are no sign. -/
theorem noSign_append {ds : List Char} (hds : ∀ c ∈ ds, c.isDigit = true) (hcs : NoSign cs) :
    NoSign (ds ++ cs) := by
  rcases ds with - | ⟨d, ds⟩
  · exact hcs
  · rintro c hc
    obtain rfl : d = c := Option.some.inj hc
    have hd := hds d List.mem_cons_self
    constructor <;> rintro rfl <;> cases hd

/-- A sign is taken off. -/
theorem IsSign.takeSign_append (h : IsSign cs negative) (hrest : NoSign rest) :
    takeSign (cs ++ rest) = (negative, rest) := by
  cases h with
  | none =>
    rw [List.nil_append, takeSign]
    · rintro cs rfl
      exact (hrest '-' rfl).2 rfl
    · rintro cs rfl
      exact (hrest '+' rfl).1 rfl
  | plus => rfl
  | minus => rfl

/-- What is taken off is a sign. -/
theorem exists_of_takeSign (h : takeSign cs = (negative, rest)) :
    ∃ sign, IsSign sign negative ∧ cs = sign ++ rest := by
  rw [takeSign.eq_def] at h
  split at h
  · cases h
    exact ⟨_, .minus, rfl⟩
  · cases h
    exact ⟨_, .plus, rfl⟩
  · cases h
    exact ⟨_, .none, rfl⟩

/-! ### Exponents -/

theorem natOfDecimal_eq_ofDigitChars {ds : List Char} (hds : ∀ c ∈ ds, c.isDigit = true) :
    natOfDecimal ds = Nat.ofDigitChars 10 ds 0 := Text.natOfDecimal_eq hds

/-- An exponent begins with a letter. -/
theorem IsExponent.head? (h : IsExponent cs e) : ∀ c ∈ cs.head?, c = 'e' ∨ c = 'E' := by
  cases h with
  | none => simp
  | some he => simpa using he

theorem IsExponent.noDigit (h : IsExponent cs e) : NoDigit cs := by
  intro c hc
  rcases h.head? c hc with rfl | rfl <;> rfl

theorem IsExponent.noSign (h : IsExponent cs e) : NoSign cs := by
  intro c hc
  rcases h.head? c hc with rfl | rfl <;> decide

/-- **What exponents are read.** -/
theorem readExponent?_eq_some_iff : readExponent? cs = some e ↔ IsExponent cs e := by
  constructor
  · intro h
    rcases cs with - | ⟨c, cs⟩
    · cases h
      exact .none
    · rcases hsign : takeSign cs with ⟨negative, ds⟩
      obtain ⟨sign, hsign', rfl⟩ := exists_of_takeSign hsign
      simp only [readExponent?, hsign] at h
      split at h
      next hds =>
        obtain ⟨he, hne, hds⟩ := hds
        have hds : ∀ c ∈ ds, c.isDigit = true := by
          simpa [Text.isDigit_eq] using hds
        obtain rfl := Option.some.inj h
        rw [natOfDecimal_eq_ofDigitChars hds]
        exact .some he hsign' hne hds
      next => cases h
  · intro h
    cases h with
    | none => rfl
    | @some c sign ds negative he hsign hne hds =>
      have htake : takeSign (sign ++ ds) = (negative, ds) := by
        have hnone : NoSign (ds ++ []) := noSign_append hds (by simp [NoSign])
        exact hsign.takeSign_append (by rwa [List.append_nil] at hnone)
      have hall : ds.all isDigit = true := by
        simpa [Text.isDigit_eq] using hds
      simp only [readExponent?, htake, he, hne, hall, ne_eq, not_false_eq_true, and_self, if_true,
        natOfDecimal_eq_ofDigitChars hds]

/-! ### Whole numerals -/

/-- A numeral is read as the decimal that it denotes. -/
theorem IsNumeral.read?_eq (h : IsNumeral cs negative d) : read? cs = some (negative, d) := by
  cases h with
  | @whole sign ds exponent _ e hsign hne hds hexponent =>
    have htake := hsign.takeSign_append (noSign_append hds hexponent.noSign)
    have hpoint : exponent.head? ≠ some '.' := fun h ↦ by
      rcases hexponent.head? '.' h with h | h <;> cases h
    rw [read?, htake]
    simp only [Text.takeWhile_isDigit hds hexponent.noDigit, List.drop_left]
    split
    next after heq => exact absurd rfl hpoint
    next =>
      simp [guard, hne, readExponent?_eq_some_iff.2 hexponent, natOfDecimal_eq_ofDigitChars hds]
  | @point sign ds fs exponent _ e hsign hne hds hfs hexponent =>
    have hnone : NoSign ('.' :: (fs ++ exponent)) := by simp [NoSign]
    have hdigit : NoDigit ('.' :: (fs ++ exponent)) := by simp [NoDigit]
    have hall : ∀ c ∈ ds ++ fs, c.isDigit = true := by
      simpa [or_imp, forall_and] using And.intro hds hfs
    rw [read?, hsign.takeSign_append (noSign_append hds hnone)]
    simp [Text.takeWhile_isDigit hds hdigit, Text.takeWhile_isDigit hfs hexponent.noDigit,
      Text.dropWhile_isDigit hfs hexponent.noDigit, guard, hne,
      readExponent?_eq_some_iff.2 hexponent, natOfDecimal_eq_ofDigitChars hall]

/-- What is read is a numeral. -/
theorem isNumeral_of_read? (h : read? cs = some (negative, d)) : IsNumeral cs negative d := by
  rcases hsign : takeSign cs with ⟨negative', body⟩
  obtain ⟨sign, hsign', rfl⟩ := exists_of_takeSign hsign
  have hdigits (cs : List Char) : ∀ c ∈ cs.takeWhile isDigit, c.isDigit = true :=
    fun c hc ↦ (Text.isDigit_eq c).symm.trans (List.mem_takeWhile_imp hc)
  have hbody := List.takeWhile_append_dropWhile (p := isDigit) (l := body)
  have hds := hdigits body
  simp only [read?, hsign] at h
  generalize body.takeWhile isDigit = ds at h hbody hds
  generalize body.dropWhile isDigit = rest at hbody
  obtain rfl := hbody
  rw [List.drop_left] at h
  split at h <;>
    simp only [Option.bind_eq_bind, Option.bind_eq_some_iff, Option.guard_eq_some'] at h <;>
    obtain ⟨-, hne, e, hexponent, heq⟩ := h <;>
    obtain ⟨rfl, rfl⟩ := Prod.mk.inj (Option.some.inj heq)
  next after =>
    have hfs := hdigits after
    have hall : ∀ c ∈ ds ++ after.takeWhile isDigit, c.isDigit = true := by
      simpa [or_imp, forall_and] using And.intro hds hfs
    have hpoint := IsNumeral.point hsign' hne hds hfs (readExponent?_eq_some_iff.1 hexponent)
    rw [List.takeWhile_append_dropWhile] at hpoint
    rwa [natOfDecimal_eq_ofDigitChars hall]
  next =>
    simp only [List.append_nil, List.length_nil, Nat.cast_zero, sub_zero]
    rw [natOfDecimal_eq_ofDigitChars hds]
    exact .whole hsign' (by simpa using hne) hds (readExponent?_eq_some_iff.1 hexponent)

/-- **What numerals are read.** -/
theorem read?_eq_some_iff : read? cs = some (negative, d) ↔ IsNumeral cs negative d :=
  ⟨isNumeral_of_read?, IsNumeral.read?_eq⟩

end Hygrometer.Decimal

namespace Hygrometer.Yaml

open Binary64 (IsNearestTo ofDecimal)
open Decimal (IsNumeral NoSign read? takeSign)

/-! ### Numbers -/

/-- The words for what no decimal denotes. -/
inductive IsNumberWord : List Char → Binary64 → Prop
  /-- Infinity. -/
  | infinite {w : String} (h : w ∈ [".inf", ".Inf", ".INF"]) :
      IsNumberWord w.toList (.infinite false)
  /-- Infinity with its sign. -/
  | plus {w : String} (h : w ∈ [".inf", ".Inf", ".INF"]) :
      IsNumberWord ('+' :: w.toList) (.infinite false)
  /-- Negative infinity. -/
  | minus {w : String} (h : w ∈ ["-.inf", "-.Inf", "-.INF"]) :
      IsNumberWord w.toList (.infinite true)
  /-- Not-a-number. -/
  | nan {w : String} (h : w ∈ [".nan", ".NaN", ".NAN"]) : IsNumberWord w.toList .nan

variable {cs : List Char} {x : Binary64} {negative : Bool} {d : Decimal}

/-- The text behind a plus sign. -/
def afterPlus : List Char → List Char
  | '+' :: rest => rest
  | cs => cs

/-- Whether a second sign follows a plus sign. -/
def SignTwice (cs : List Char) : Prop :=
  cs.head? = some '+' ∧ ((afterPlus cs).head? = some '+' ∨ (afterPlus cs).head? = some '-')

theorem eq_afterPlus_or (cs : List Char) : cs = afterPlus cs ∨ cs = '+' :: afterPlus cs := by
  rw [afterPlus.eq_def]
  split
  · exact .inr rfl
  · exact .inl rfl

/-! ### Signs -/

/-- A text is read by what follows its sign. -/
theorem read?_congr {cs' : List Char} (h : takeSign cs = takeSign cs') : read? cs = read? cs' := by
  rw [read?, read?, h]

/-- What begins with two signs is no numeral. -/
theorem read?_eq_none_of_plus {c : Char} (hc : c = '+' ∨ c = '-') (cs : List Char) :
    read? ('+' :: c :: cs) = none := by
  rcases hc with rfl | rfl <;> simp [read?, takeSign, Text.isDigit, guard]

/-- **A plus sign before a numeral changes nothing**, unless the numeral has a sign of its own. -/
theorem read?_eq_some_iff_afterPlus : read? cs = some (negative, d) ↔
    ¬SignTwice cs ∧ read? (afterPlus cs) = some (negative, d) := by
  rcases cs with - | ⟨c, cs⟩
  · simp [SignTwice, afterPlus]
  by_cases hc : c = '+'
  · obtain rfl := hc
    have htwice : SignTwice ('+' :: cs) ↔ cs.head? = some '+' ∨ cs.head? = some '-' := by
      simp [SignTwice, afterPlus]
    rw [htwice, afterPlus]
    by_cases hsign : cs.head? = some '+' ∨ cs.head? = some '-'
    · obtain ⟨c, left, rfl, hc⟩ : ∃ c left, cs = c :: left ∧ (c = '+' ∨ c = '-') := by
        rcases cs with - | ⟨c, left⟩
        · simp at hsign
        · exact ⟨c, left, rfl, by simpa using hsign⟩
      rw [read?_eq_none_of_plus hc]
      exact ⟨fun h ↦ (Option.some_ne_none _ h.symm).elim, fun h ↦ absurd hsign h.1⟩
    · have hnone : NoSign cs := by
        rw [not_or] at hsign
        exact fun c hc ↦ ⟨fun h ↦ hsign.1 (h ▸ hc), fun h ↦ hsign.2 (h ▸ hc)⟩
      have htake : takeSign ('+' :: cs) = takeSign cs :=
        (Decimal.IsSign.none.takeSign_append hnone).symm
      rw [read?_congr htake]
      exact (and_iff_right hsign).symm
  · have hafter : afterPlus (c :: cs) = c :: cs := by
      rw [afterPlus]
      simpa using hc
    simp [SignTwice, hafter, hc]

/-! ### Words and numerals -/

/-- No word is a numeral. -/
theorem read?_word : ∀ w ∈ [".inf", ".Inf", ".INF", "-.inf", "-.Inf", "-.INF", ".nan", ".NaN",
    ".NAN"], read? w.toList = none := by
  decide

theorem real?_of_signTwice (h : SignTwice cs) : real? cs = none := by
  rw [real?.eq_def]
  exact if_pos h

theorem real?_of_not_signTwice (h : ¬SignTwice cs) : real? cs =
    if [".inf", ".Inf", ".INF"].contains (String.ofList (afterPlus cs)) then some (.infinite false)
    else if ["-.inf", "-.Inf", "-.INF"].contains (String.ofList cs) then some (.infinite true)
    else if [".nan", ".NaN", ".NAN"].contains (String.ofList cs) then some .nan
    else (do
      let (negative, d) ← read? (afterPlus cs)
      guard (ofDecimal negative d).isFinite
      pure (ofDecimal negative d)) := by
  rw [real?.eq_def]
  exact if_neg h

/-- A word is read. -/
theorem IsNumberWord.real?_eq (h : IsNumberWord cs x) : real? cs = some x := by
  cases h with
  | _ h =>
    simp only [List.mem_cons, List.not_mem_nil, or_false] at h
    rcases h with rfl | rfl | rfl <;> rfl

/-- A numeral is no word. -/
theorem contains_eq_false {words : List String} (hwords : ∀ w ∈ words, read? w.toList = none)
    (h : read? cs = some (negative, d)) : words.contains (String.ofList cs) = false := by
  rw [List.contains_eq_mem, decide_eq_false_iff_not]
  intro hmem
  have hnone := hwords _ hmem
  rw [String.toList_ofList, h] at hnone
  cases hnone

/-- **What numbers are read.** -/
theorem real?_eq_some_iff : real? cs = some x ↔ IsNumberWord cs x ∨
    ∃ negative d, IsNumeral cs negative d ∧ IsNearestTo x negative d.value ∧ x.isFinite = true := by
  constructor
  · intro h
    by_cases htwice : SignTwice cs
    · rw [real?_of_signTwice htwice] at h
      cases h
    have hword {words : List String} {cs : List Char}
        (h : words.contains (String.ofList cs) = true) : ∃ w ∈ words, cs = w.toList :=
      ⟨_, by simpa using h, String.toList_ofList.symm⟩
    rw [real?_of_not_signTwice htwice] at h
    -- The words for infinities and for not-a-number come first, and then the numerals.
    split_ifs at h with hinfinite hminus hnan
    · obtain rfl := Option.some.inj h
      obtain ⟨w, hw, hafter⟩ := hword hinfinite
      rcases eq_afterPlus_or cs with hcs | hcs
      · exact .inl (hcs ▸ hafter ▸ .infinite hw)
      · exact .inl (hcs ▸ hafter ▸ .plus hw)
    · obtain rfl := Option.some.inj h
      obtain ⟨w, hw, rfl⟩ := hword hminus
      exact .inl (.minus hw)
    · obtain rfl := Option.some.inj h
      obtain ⟨w, hw, rfl⟩ := hword hnan
      exact .inl (.nan hw)
    · simp only [Option.bind_eq_bind, Option.bind_eq_some_iff, Option.guard_eq_some'] at h
      obtain ⟨⟨negative, d⟩, hread, -, hfinite, heq⟩ := h
      obtain rfl := Option.some.inj heq
      exact .inr ⟨negative, d,
        Decimal.read?_eq_some_iff.1 (read?_eq_some_iff_afterPlus.2 ⟨htwice, hread⟩),
        Binary64.isNearestTo_ofDecimal negative d, hfinite⟩
  · rintro (hword | ⟨negative, d, hnumeral, hnearest, hfinite⟩)
    · exact hword.real?_eq
    · have hread := hnumeral.read?_eq
      obtain ⟨htwice, hafter⟩ := read?_eq_some_iff_afterPlus.1 hread
      obtain rfl := hnearest.unique (Binary64.isNearestTo_ofDecimal negative d)
      -- A numeral is none of the words, so it is reached.
      have hnone {words : List String} (hwords : words ⊆ [".inf", ".Inf", ".INF", "-.inf", "-.Inf",
          "-.INF", ".nan", ".NaN", ".NAN"]) : ∀ w ∈ words, read? w.toList = none :=
        fun w hw ↦ read?_word w (hwords hw)
      rw [real?_of_not_signTwice htwice, contains_eq_false (hnone (by simp)) hafter,
        contains_eq_false (hnone (by simp)) hread, contains_eq_false (hnone (by simp)) hread]
      simp [hafter, guard, hfinite]

/-- **A decimal that is representable is read exactly.** -/
theorem exists_real?_eq (h : IsNumeral cs negative d) (hd : Binary64.Representable d.value) :
    ∃ x, real? cs = some x ∧ x.value? = some (Binary64.signFactor negative * d.value) := by
  have hnearest := Binary64.isNearestTo_ofDecimal negative d
  have hvalue := hnearest.value?_eq (Binary64.value_nonneg d) hd
  have hfinite := Binary64.isFinite_of_value? hvalue
  exact ⟨_, real?_eq_some_iff.2 (.inr ⟨negative, d, h, hnearest, hfinite⟩), hvalue⟩

end Hygrometer.Yaml
