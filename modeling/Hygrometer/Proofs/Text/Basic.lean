import Mathlib.Data.List.Induction
import Mathlib.Data.List.TakeWhile
import Mathlib.Tactic.IntervalCases
import Mathlib.Tactic.Ring
import Hygrometer.Text.Basic

/-!
# Reading digits and blanks

**Numerals.** Reading undoes writing: the numeral of a number, in any base from two to sixteen, is a
non-empty run of digits that denotes the number (`natOfDigits?_toDigits`). A run of digits denotes a
number less than the power of the base that it is long (`natOfDigits?_lt`), and it denotes none
exactly if it is empty or has something in it that is no digit (`isSome_natOfDigits?_iff`).

In base ten there are two ways of reading in the model: one that refuses what is no digit, and one
that takes it for a zero. They agree on digits (`natOfDecimal_eq`), and both agree with the reading
of digits in the library (`Nat.ofDigitChars`), which is the one that grammars are stated with. A run
of which a zero stands alone is the numeral of what it denotes (`toDigits_ofDigitChars`), so leading
zeros are all that reading forgets.

**Runs.** A run of characters of one kind that is not gone on with is what is taken off the front of
a text, and what follows it is what is left (`takeWhile_run`, `dropWhile_run`). Readers that take
the longest run they find are described by these two alone; for digits they are stated again with
the condition that readers of numerals hand on to what follows them (`NoDigit`).

**Blanks.** `trim` cuts blank characters off the two ends of a text and nothing else
(`exists_trim_eq`). What has no blank character in it is found again whatever blanks it was put
between (`trim_append`). Blank is what Unicode calls white space, which is more than a blank and a
tab.
-/

namespace Hygrometer.Text

/-! ### Numerals -/

/-- A digit has its place after zero as its value. -/
theorem digitValue?_of_isDigit {c : Char} (h : c.isDigit = true) :
    digitValue? 10 c = some (c.toNat - 48) := by
  rw [Char.isDigit, Bool.and_eq_true, decide_eq_true_iff, decide_eq_true_iff] at h
  obtain ⟨hlow, hhigh⟩ := h
  have hvalue : hexValue? c = some (c.toNat - 48) :=
    if_pos (by simpa [Char.le_def] using And.intro hlow hhigh)
  have hlt : c.toNat - 48 < 10 := by
    have hnat : c.toNat ≤ 57 := UInt32.le_iff_toNat_le.1 hhigh
    omega
  rw [digitValue?, hvalue, Option.filter_some, if_pos (decide_eq_true hlt)]

/-- The digits are the characters with a value in base ten. -/
theorem digitValue?_eq_some_iff {c : Char} {d : ℕ} :
    digitValue? 10 c = some d ↔ c.isDigit = true ∧ d = c.toNat - '0'.toNat := by
  by_cases hdigit : c.isDigit = true
  · rw [digitValue?_of_isDigit hdigit, Option.some_inj]
    exact ⟨fun h ↦ ⟨hdigit, h.symm⟩, fun h ↦ h.2.symm⟩
  · refine ⟨fun h ↦ absurd ?_ hdigit, fun h ↦ absurd h.1 hdigit⟩
    obtain ⟨hvalue, hlt⟩ := Option.filter_eq_some_iff.1 h
    have hlt : d < 10 := of_decide_eq_true hlt
    rw [hexValue?] at hvalue
    split_ifs at hvalue with hten hsmall hcapital
    · simpa [Char.isDigit, Char.le_def] using hten
    -- The letters of base sixteen are ten or more.
    · have hlow : 97 ≤ c.toNat := by
        simp only [Bool.and_eq_true, decide_eq_true_eq] at hsmall
        exact UInt32.le_iff_toNat_le.1 hsmall.1
      obtain rfl := Option.some.inj hvalue
      omega
    · have hlow : 65 ≤ c.toNat := by
        simp only [Bool.and_eq_true, decide_eq_true_eq] at hcapital
        exact UInt32.le_iff_toNat_le.1 hcapital.1
      obtain rfl := Option.some.inj hvalue
      omega

/-- Digits are read as the library reads them. -/
theorem natOfDigitsFrom?_eq {cs : List Char} (h : ∀ c ∈ cs, c.isDigit = true) (start : Nat) :
    natOfDigitsFrom? 10 start cs = some (Nat.ofDigitChars 10 cs start) := by
  induction cs generalizing start with
  | nil => rfl
  | cons c cs ih =>
    have hc : digitValue? 10 c = some (c.toNat - 48) :=
      digitValue?_of_isDigit (h c List.mem_cons_self)
    rw [natOfDigitsFrom?, List.foldlM_cons, hc, Option.map_some, Nat.ofDigitChars]
    exact ih (fun c hc ↦ h c (List.mem_cons_of_mem _ hc)) _

/-- A text denotes a number exactly if it is digits of the base and nothing else. -/
theorem isSome_natOfDigits?_iff {base : Nat} {cs : List Char} :
    (natOfDigits? base cs).isSome ↔ cs ≠ [] ∧ ∀ c ∈ cs, (digitValue? base c).isSome := by
  have hfrom (start : Nat) : (natOfDigitsFrom? base start cs).isSome ↔
      ∀ c ∈ cs, (digitValue? base c).isSome := by
    induction cs generalizing start with
    | nil => simp [natOfDigitsFrom?]
    | cons c cs ih =>
      rw [natOfDigitsFrom?, List.foldlM_cons, List.forall_mem_cons]
      rcases hc : digitValue? base c with - | d
      · simp
      · simpa [natOfDigitsFrom?] using ih (base * start + d)
  rcases cs with - | ⟨c, cs⟩
  · simp [natOfDigits?]
  · simpa [natOfDigits?] using hfrom 0

/-- **What decimal digits denote.** -/
theorem natOfDigits?_eq_some_iff {cs : List Char} {n : Nat} : natOfDigits? 10 cs = some n ↔
    cs ≠ [] ∧ (∀ c ∈ cs, c.isDigit = true) ∧ n = Nat.ofDigitChars 10 cs 0 := by
  have hdigit (c : Char) : (digitValue? 10 c).isSome ↔ c.isDigit = true := by
    simp [Option.isSome_iff_exists, digitValue?_eq_some_iff]
  have hvalue (hne : cs ≠ []) (hcs : ∀ c ∈ cs, c.isDigit = true) :
      natOfDigits? 10 cs = some (Nat.ofDigitChars 10 cs 0) := by
    rw [natOfDigits?, if_neg (by simpa using hne), natOfDigitsFrom?_eq hcs]
  constructor
  · intro h
    obtain ⟨hne, hcs⟩ := isSome_natOfDigits?_iff.1 (Option.isSome_of_eq_some h)
    have hcs : ∀ c ∈ cs, c.isDigit = true := fun c hc ↦ (hdigit c).1 (hcs c hc)
    exact ⟨hne, hcs, Option.some.inj (h.symm.trans (hvalue hne hcs))⟩
  · rintro ⟨hne, hcs, rfl⟩
    exact hvalue hne hcs

/-- The characters of a numeral are its digits. -/
@[simp] theorem toList_numeral (n : Nat) : (numeral n).toList = Nat.toDigits 10 n :=
  String.toList_ofList

/-- The written digit of a value has that value. -/
theorem digitValue?_digitChar {base d : ℕ} (hd : d < base) (hbase : base ≤ 16) :
    digitValue? base d.digitChar = some d := by
  have hvalue : ∀ d < 16, hexValue? d.digitChar = some d := by decide
  rw [digitValue?, hvalue d (hd.trans_le hbase), Option.filter_some, if_pos (decide_eq_true hd)]

/-- Digits are read from the first on. -/
theorem natOfDigitsFrom?_append (base start : ℕ) (cs ds : List Char) :
    natOfDigitsFrom? base start (cs ++ ds) =
      (natOfDigitsFrom? base start cs).bind fun n ↦ natOfDigitsFrom? base n ds :=
  List.foldlM_append

/-- **A numeral denotes its number**, in any base that has digits. -/
theorem natOfDigits?_toDigits {base : ℕ} (hone : 1 < base) (hbase : base ≤ 16) (n : ℕ) :
    natOfDigits? base (Nat.toDigits base n) = some n := by
  have hfrom : natOfDigitsFrom? base 0 (Nat.toDigits base n) = some n := by
    -- Without its last digit, a numeral is that of the quotient.
    induction n using Nat.strongRecOn with
    | ind n ih =>
      rcases Nat.lt_or_ge n base with hlt | hge
      · rw [Nat.toDigits_of_lt_base hlt]
        simp [natOfDigitsFrom?, digitValue?_digitChar hlt hbase]
      · have hfront := ih (n / base) (Nat.div_lt_self (by omega) hone)
        have hlast := digitValue?_digitChar (Nat.mod_lt n (by omega)) hbase
        rw [Nat.toDigits_of_base_le hone hge, natOfDigitsFrom?_append, hfront, Option.bind_some]
        simp [natOfDigitsFrom?, hlast, Nat.div_add_mod]
  rw [natOfDigits?, if_neg (by simp), hfrom]

/-- So many digits denote no greater number. -/
theorem natOfDigits?_lt {base n : ℕ} {cs : List Char} (h : natOfDigits? base cs = some n) :
    n < base ^ cs.length := by
  have hfrom (start : ℕ) (h : natOfDigitsFrom? base start cs = some n) :
      n < (start + 1) * base ^ cs.length := by
    clear * - h
    induction cs generalizing start with
    | nil =>
      obtain rfl := Option.some.inj h
      simp
    | cons c cs ih =>
      obtain ⟨next, hnext, h⟩ := Option.bind_eq_some_iff.1 h
      obtain ⟨d, hd, rfl⟩ := Option.map_eq_some_iff.1 hnext
      have hlt : d < base := of_decide_eq_true (Option.filter_eq_some_iff.1 hd).2
      calc n < (base * start + d + 1) * base ^ cs.length := ih _ h
        _ ≤ (base * (start + 1)) * base ^ cs.length := by
          refine Nat.mul_le_mul_right _ ?_
          rw [Nat.mul_succ]
          omega
        _ = (start + 1) * base ^ (c :: cs).length := by
          rw [List.length_cons, pow_succ]
          ring
  rw [natOfDigits?] at h
  split at h
  · cases h
  · simpa using hfrom 0 h

/-! ### Runs of digits -/

/-- A digit of the model is one of the library. -/
theorem isDigit_eq (c : Char) : isDigit c = c.isDigit := by
  rw [isDigit, Char.isDigit, Bool.eq_iff_iff, Bool.and_eq_true, Bool.and_eq_true]
  simp [Char.le_def]

/-- A numeral is digits and nothing else. -/
theorem isDigit_of_mem_toDigits {n : Nat} {c : Char} (h : c ∈ Nat.toDigits 10 n) :
    c.isDigit = true :=
  Nat.isDigit_of_mem_toDigits (by decide) (by decide) h

/-- A run that goes on puts the digits before it in front. -/
theorem natOfDecimal_append (cs ds : List Char) :
    natOfDecimal (cs ++ ds) = 10 ^ ds.length * natOfDecimal cs + natOfDecimal ds := by
  have hfrom (start : Nat) :
      ds.foldl (fun n c ↦ 10 * n + (digitValue? 10 c).getD 0) start =
        10 ^ ds.length * start + natOfDecimal ds := by
    induction ds using List.reverseRecOn with
    | nil => simp [natOfDecimal]
    | append_singleton ds c ih =>
      have hlast : natOfDecimal (ds ++ [c]) = 10 * natOfDecimal ds + (digitValue? 10 c).getD 0 := by
        rw [natOfDecimal, List.foldl_append]
        rfl
      rw [List.foldl_append, ih, hlast, List.length_append, List.length_singleton, pow_succ]
      simp only [List.foldl_cons, List.foldl_nil]
      ring
  rw [natOfDecimal, List.foldl_append, hfrom]
  rfl

/-- **On digits, both ways of reading agree.** -/
theorem natOfDecimal_eq {cs : List Char} (h : ∀ c ∈ cs, c.isDigit = true) :
    natOfDecimal cs = Nat.ofDigitChars 10 cs 0 := by
  induction cs using List.reverseRecOn with
  | nil => rfl
  | append_singleton cs c ih =>
    have hc : digitValue? 10 c = some (c.toNat - 48) := digitValue?_of_isDigit (h c (by simp))
    rw [natOfDecimal_append, ih fun c hc ↦ h c (by simp [hc]), Nat.ofDigitChars_append]
    simp [natOfDecimal, hc, Nat.ofDigitChars]

/-- A numeral denotes its number, here too. -/
@[simp] theorem natOfDecimal_toDigits (n : Nat) : natOfDecimal (Nat.toDigits 10 n) = n := by
  rw [natOfDecimal_eq fun _ ↦ isDigit_of_mem_toDigits, Nat.ofDigitChars_ten_toDigits]

@[simp] theorem natOfDecimal_replicate_zero (n : Nat) :
    natOfDecimal (List.replicate n '0') = 0 := by
  induction n with
  | zero => rfl
  | succ n ih =>
    rw [List.replicate_succ', natOfDecimal_append, ih]
    rfl

/-- The numeral of a positive number starts with another digit than zero. -/
theorem head?_toDigits_ne {n : Nat} (hn : 0 < n) : (Nat.toDigits 10 n).head? ≠ some '0' := by
  induction n using Nat.strong_induction_on with
  | h n ih =>
    rcases Nat.lt_or_ge n 10 with hlt | hge
    · rw [Nat.toDigits_of_lt_base hlt]
      interval_cases n <;> decide
    · have hne : Nat.toDigits 10 (n / 10) ≠ [] := Nat.toDigits_ne_nil
      obtain ⟨c, cs, hcs⟩ := List.exists_cons_of_ne_nil hne
      have hhead := ih (n / 10) (by omega) (by omega)
      rw [Nat.toDigits_of_base_le (by decide) hge]
      rw [hcs] at hhead ⊢
      exact hhead

/-- Digits of which a zero stands alone are the numeral of what they denote. -/
theorem toDigits_ofDigitChars {cs : List Char} (hne : cs ≠ []) (h : ∀ c ∈ cs, c.isDigit = true)
    (hhead : cs.head? ≠ some '0' ∨ cs.length = 1) :
    Nat.toDigits 10 (Nat.ofDigitChars 10 cs 0) = cs := by
  have hdigit {c : Char} (hc : c.isDigit = true) :
      c.toNat - 48 < 10 ∧ Nat.toDigits 10 (c.toNat - 48) = [c] := by
    have hbounds : 48 ≤ c.toNat ∧ c.toNat ≤ 57 := by
      rw [Char.isDigit, Bool.and_eq_true, decide_eq_true_iff, decide_eq_true_iff] at hc
      exact ⟨UInt32.le_iff_toNat_le.1 hc.1, UInt32.le_iff_toNat_le.1 hc.2⟩
    have hlt : c.toNat - 48 < 10 := by omega
    have hchar : (c.toNat - 48).digitChar = c := by
      rw [← Char.toNat_inj, Nat.toNat_digitChar_of_lt_ten hlt]
      omega
    exact ⟨hlt, by rw [Nat.toDigits_of_lt_base hlt, hchar]⟩
  -- Digits are appended at the end, where the numeral of a number grows.
  induction cs using List.reverseRecOn with
  | nil => exact absurd rfl hne
  | append_singleton cs c ih =>
    obtain ⟨hlt, hlast⟩ := hdigit (h c (by simp))
    have hcs : ∀ c ∈ cs, c.isDigit = true := fun c hc ↦ h c (by simp [hc])
    rw [Nat.ofDigitChars_append]
    rcases cs with - | ⟨d, ds⟩
    · simpa [Nat.ofDigitChars] using hlast
    · have hd : (d :: ds).head? ≠ some '0' := by simpa using hhead
      have hfront := ih (List.cons_ne_nil _ _) hcs (.inl hd)
      -- Without a leading zero the digits before the last are no zero.
      have hpos : 0 < Nat.ofDigitChars 10 (d :: ds) 0 := by
        refine Nat.pos_of_ne_zero fun hzero ↦ hd ?_
        rw [← hfront, hzero]
        rfl
      calc Nat.toDigits 10 (Nat.ofDigitChars 10 [c] (Nat.ofDigitChars 10 (d :: ds) 0))
          = Nat.toDigits 10 (10 * Nat.ofDigitChars 10 (d :: ds) 0 + (c.toNat - 48)) := rfl
        _ = Nat.toDigits 10 (Nat.ofDigitChars 10 (d :: ds) 0) ++ Nat.toDigits 10 (c.toNat - 48) :=
          (Nat.toDigits_append_toDigits (by decide) hpos hlt).symm
        _ = d :: ds ++ [c] := by rw [hfront, hlast]

/-! ### Hexadecimal digits -/

/-- A hexadecimal digit of either case. -/
def IsHexDigit (c : Char) : Prop := '0' ≤ c ∧ c ≤ '9' ∨ 'a' ≤ c ∧ c ≤ 'f' ∨ 'A' ≤ c ∧ c ≤ 'F'

/-- The hexadecimal digits are the characters with a value in base sixteen. -/
theorem isSome_digitValue?_sixteen_iff {c : Char} : (digitValue? 16 c).isSome ↔ IsHexDigit c := by
  have hlt : ∀ d, hexValue? c = some d → d < 16 := by
    intro d hd
    rw [hexValue?] at hd
    simp only [Bool.and_eq_true, decide_eq_true_eq, Char.le_def, UInt32.le_iff_toNat_le] at hd
    split_ifs at hd with hten hsmall hcapital
    · have hhigh : c.toNat ≤ 57 := hten.2
      obtain rfl := Option.some.inj hd
      omega
    · have hhigh : c.toNat ≤ 102 := hsmall.2
      obtain rfl := Option.some.inj hd
      omega
    · have hhigh : c.toNat ≤ 70 := hcapital.2
      obtain rfl := Option.some.inj hd
      omega
  have hsome : (digitValue? 16 c).isSome ↔ (hexValue? c).isSome := by
    rw [digitValue?]
    rcases hvalue : hexValue? c with - | d
    · rfl
    · simp [hlt d hvalue]
  rw [hsome, hexValue?, IsHexDigit]
  simp only [Bool.and_eq_true, decide_eq_true_eq]
  split_ifs with hten hsmall hcapital <;> simp [*]

/-! ### Runs at the front of a text -/

variable {α : Type} {p : α → Bool} {run rest : List α}

/-- The run is taken. -/
theorem takeWhile_run (hrun : ∀ a ∈ run, p a = true) (hrest : ∀ a ∈ rest.head?, p a = false) :
    (run ++ rest).takeWhile p = run := by
  rw [List.takeWhile_append_of_pos hrun]
  rcases rest with - | ⟨a, rest⟩
  · rw [List.takeWhile_nil, List.append_nil]
  · rw [List.takeWhile_cons_of_neg (by simp [hrest a rfl]), List.append_nil]

/-- What follows it is left. -/
theorem dropWhile_run (hrun : ∀ a ∈ run, p a = true) (hrest : ∀ a ∈ rest.head?, p a = false) :
    (run ++ rest).dropWhile p = rest := by
  rw [List.dropWhile_append_of_pos hrun]
  rcases rest with - | ⟨a, rest⟩
  · rfl
  · rw [List.dropWhile_cons_of_neg (by simp [hrest a rfl])]

/-- The text does not go on with a digit. -/
def NoDigit (cs : List Char) : Prop := ∀ c, cs.head? = some c → c.isDigit = false

section Digits

variable {ds cs : List Char}

/-- Digits are taken as far as they go. -/
theorem takeWhile_isDigit (h : ∀ c ∈ ds, c.isDigit = true) (hcs : NoDigit cs) :
    (ds ++ cs).takeWhile isDigit = ds :=
  takeWhile_run (fun c hc ↦ (isDigit_eq c).trans (h c hc))
    fun c hc ↦ (isDigit_eq c).trans (hcs c hc)

/-- What follows digits is left. -/
theorem dropWhile_isDigit (h : ∀ c ∈ ds, c.isDigit = true) (hcs : NoDigit cs) :
    (ds ++ cs).dropWhile isDigit = cs :=
  dropWhile_run (fun c hc ↦ (isDigit_eq c).trans (h c hc))
    fun c hc ↦ (isDigit_eq c).trans (hcs c hc)

end Digits

/-! ### Texts without their blank ends -/

/-- A text of blank characters only. -/
def IsGap (cs : List Char) : Prop := ∀ c ∈ cs, isBlank c = true

instance (cs : List Char) : Decidable (IsGap cs) :=
  decidable_of_iff (cs.all isBlank = true) List.all_eq_true

theorem IsGap.reverse {cs : List Char} (h : IsGap cs) : IsGap cs.reverse :=
  fun c hc ↦ h c (List.mem_reverse.1 hc)

/-- A blank text is a gap. -/
theorem isBlankText_iff {s : String} : isBlankText s = true ↔ IsGap s.toList := List.all_eq_true

/-- What is cut off at the start is a gap. -/
theorem exists_trimStart_eq (cs : List Char) :
    ∃ before, IsGap before ∧ cs = before ++ trimStart cs :=
  ⟨cs.takeWhile isBlank, fun _ hc ↦ List.mem_takeWhile_imp hc, List.takeWhile_append_dropWhile.symm⟩

/-- **Only gaps are cut off.** -/
theorem exists_trim_eq (cs : List Char) :
    ∃ before after, IsGap before ∧ IsGap after ∧ cs = before ++ trim cs ++ after := by
  obtain ⟨before, hbefore, hstart⟩ := exists_trimStart_eq cs
  obtain ⟨after, hafter, hend⟩ := exists_trimStart_eq (trimStart cs).reverse
  have hback : trimStart cs = trim cs ++ after.reverse := by
    rw [trim, ← List.reverse_append, ← hend, List.reverse_reverse]
  refine ⟨before, after.reverse, hbefore, hafter.reverse, ?_⟩
  rw [List.append_assoc, ← hback]
  exact hstart

/-- Behind a gap, what starts with no blank character is found again. -/
theorem trimStart_append {before cs : List Char} (hbefore : IsGap before)
    (hcs : ∀ c ∈ cs.head?, isBlank c = false) : trimStart (before ++ cs) = cs :=
  dropWhile_run hbefore hcs

/-- **Between gaps, what has no blank character is found again.** -/
theorem trim_append {before cs after : List Char} (hbefore : IsGap before) (hafter : IsGap after)
    (hne : cs ≠ []) (hcs : ∀ c ∈ cs, isBlank c = false) : trim (before ++ cs ++ after) = cs := by
  have hstart : trimStart (before ++ (cs ++ after)) = cs ++ after := by
    refine trimStart_append hbefore fun c hc ↦ hcs c ?_
    rw [List.head?_append, List.head?_eq_some_head hne] at hc
    obtain rfl := Option.some.inj hc
    exact List.head_mem hne
  have hend : trimStart (after.reverse ++ cs.reverse) = cs.reverse :=
    trimStart_append hafter.reverse fun c hc ↦ hcs c (List.mem_reverse.1 (List.mem_of_mem_head? hc))
  rw [trim, List.append_assoc, hstart, List.reverse_append, hend, List.reverse_reverse]

end Hygrometer.Text
