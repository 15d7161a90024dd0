import Mathlib.Data.List.Forall2
import Hygrometer.Json.Text
import Hygrometer.Proofs.Text.Basic

/-!
# Strings read back

A character may be spelled in several ways inside a string (`IsSpelling`): as itself, by a letter,
by its code, by two surrogates. However it is spelled, it is read as that character
(`readString?_spelling`) and skipped (`skipString?_spelling`), and so are whole strings
(`IsString.readString?`). What is written for a character is one of its spellings
(`isSpelling_escapeChar`), so a quoted text is read back whatever it holds and whatever follows it
(`readString?_quote`).

**One character at a time.** The reader takes a spelling off the front of a text and goes on, so
each lemma says what it does with one spelling and with anything behind it; a string is then a
matter of induction on its characters. Surrogates are what makes this delicate: a code that is one
is no character of its own, and the reader has to take two codes for one character. No character has
such a code (`isSurrogate_toNat`), so a code that spells a character alone is never taken for half
of one.

**Control characters** may not stand in a string as themselves, and no spelling has one
(`IsSpelling.noControl`). So a text that is put together of strings and of what the format itself
writes has none either, and fits in one line.
-/

namespace Hygrometer.Json

open Text (natOfDigits?)

/-! ### Spellings of a character -/

/-- The letters that stand for a character behind a backslash. -/
def letterEscapes : List (Char × Char) :=
  [('"', '"'), ('\\', '\\'), ('/', '/'), ('b', '\x08'), ('f', '\x0c'), ('n', '\n'), ('r', '\r'),
    ('t', '\t')]

/-- A code behind a backslash: four hexadecimal digits of either case. -/
def IsCode (n : ℕ) (cs : List Char) : Prop :=
  ∃ a b c d, natOfDigits? 16 [a, b, c, d] = some n ∧ cs = ['\\', 'u', a, b, c, d]

/-- How a character may be spelled inside a string. -/
inductive IsSpelling : Char → List Char → Prop
  /-- As itself. -/
  | plain {c : Char} (hquote : c ≠ '"') (hslash : c ≠ '\\') (hcontrol : 32 ≤ c.toNat) :
    IsSpelling c [c]
  /-- By a letter. -/
  | letter {e c : Char} (h : (e, c) ∈ letterEscapes) : IsSpelling c ['\\', e]
  /-- By its code. -/
  | code {c : Char} {cs : List Char} (h : IsCode c.toNat cs) : IsSpelling c cs
  /-- By a pair of surrogates. -/
  | pair {c : Char} {high low : ℕ} {cs ds : List Char} (hcs : IsCode high cs) (hds : IsCode low ds)
    (hhigh : 0xD800 ≤ high ∧ high < 0xDC00) (hlow : 0xDC00 ≤ low ∧ low < 0xE000)
    (h : c.toNat = 0x10000 + (high - 0xD800) * 0x400 + (low - 0xDC00)) : IsSpelling c (cs ++ ds)

/-- A character's own code is no surrogate. -/
theorem isSurrogate_toNat (c : Char) : isSurrogate c.toNat = false := by
  have hvalid : c.toNat < 0xD800 ∨ 0xDFFF < c.toNat ∧ c.toNat < 0x110000 := c.valid
  rw [isSurrogate]
  simp only [Bool.and_eq_false_iff, decide_eq_false_iff_not]
  omega

/-- A character that needs no escape stands for itself. -/
theorem readString?_of_plain {c : Char} (hquote : c ≠ '"') (hslash : c ≠ '\\')
    (hcontrol : 32 ≤ c.toNat) (rest : List Char) :
    readString? (c :: rest) = (readString? rest).map fun (s, rest) ↦ (c :: s, rest) := by
  rw [readString?]
  · exact if_neg (not_or.2 ⟨Nat.not_lt.2 hcontrol, hslash⟩)
  · exact hquote
  · exact fun _ _ _ _ _ h _ ↦ hslash h
  · exact fun _ _ h _ ↦ hslash h

/-- **A character is read however it is spelled.** -/
theorem readString?_spelling {c : Char} {cs : List Char} (h : IsSpelling c cs)
    (rest : List Char) :
    readString? (cs ++ rest) = (readString? rest).map fun (s, rest) ↦ (c :: s, rest) := by
  cases h with
  | plain hquote hslash hcontrol => exact readString?_of_plain hquote hslash hcontrol rest
  | letter h =>
    simp only [letterEscapes, List.mem_cons, Prod.mk.injEq, List.not_mem_nil, or_false] at h
    rcases h with ⟨rfl, rfl⟩ | ⟨rfl, rfl⟩ | ⟨rfl, rfl⟩ | ⟨rfl, rfl⟩ | ⟨rfl, rfl⟩ | ⟨rfl, rfl⟩ |
      ⟨rfl, rfl⟩ | ⟨rfl, rfl⟩ <;> rfl
  | code h =>
    obtain ⟨a, b, d, e, hcode, rfl⟩ := h
    have hcode : fourHex? a b d e = some c.toNat := hcode
    simp only [List.cons_append, List.nil_append]
    rw [readString?, hcode]
    simp only [isSurrogate_toNat, Bool.false_eq_true, if_false, Char.ofNat_toNat]
  | @pair _ high low _ _ hcs hds hhigh hlow h =>
    obtain ⟨a, b, d, e, hfirst, rfl⟩ := hcs
    obtain ⟨a', b', d', e', hsecond, rfl⟩ := hds
    have hfirst : fourHex? a b d e = some high := hfirst
    have hsecond : fourHex? a' b' d' e' = some low := hsecond
    have hsurrogate : isSurrogate high = true :=
      Bool.and_eq_true_iff.2 ⟨decide_eq_true hhigh.1, decide_eq_true (by omega)⟩
    have hchar : surrogatePair? high low = some c := by
      rw [surrogatePair?, if_pos ⟨hhigh.1, hhigh.2, hlow.1, Nat.le_of_lt_succ hlow.2⟩, ← h,
        Char.ofNat_toNat]
    simp only [List.cons_append, List.nil_append]
    rw [readString?, hfirst]
    simp only [hsurrogate, if_true, hsecond, Option.bind_some, hchar]

theorem skipString?_code {n : ℕ} {cs : List Char} (h : IsCode n cs) (rest : List Char) :
    skipString? (cs ++ rest) = skipString? rest := by
  obtain ⟨a, b, d, e, hcode, rfl⟩ := h
  exact if_pos (Option.isSome_of_eq_some hcode)

/-- **A character is skipped however it is spelled.** -/
theorem skipString?_spelling {c : Char} {cs : List Char} (h : IsSpelling c cs)
    (rest : List Char) : skipString? (cs ++ rest) = skipString? rest := by
  cases h with
  | plain hquote hslash hcontrol =>
    rw [List.singleton_append, skipString?]
    · exact if_neg (not_or.2 ⟨Nat.not_lt.2 hcontrol, hslash⟩)
    · exact hquote
    · exact fun _ _ _ _ _ h _ ↦ hslash h
    · exact fun _ _ h _ ↦ hslash h
  | letter h =>
    simp only [letterEscapes, List.mem_cons, Prod.mk.injEq, List.not_mem_nil, or_false] at h
    rcases h with ⟨rfl, rfl⟩ | ⟨rfl, rfl⟩ | ⟨rfl, rfl⟩ | ⟨rfl, rfl⟩ | ⟨rfl, rfl⟩ | ⟨rfl, rfl⟩ |
      ⟨rfl, rfl⟩ | ⟨rfl, rfl⟩ <;> rfl
  | code h => exact skipString?_code h rest
  | pair hcs hds => rw [List.append_assoc, skipString?_code hcs, skipString?_code hds]

/-! ### Strings -/

/-- A text as a string: its characters, each in one of its spellings, between quotes. -/
def IsString (s : String) (cs : List Char) : Prop :=
  ∃ spellings, List.Forall₂ IsSpelling s.toList spellings ∧
    cs = '"' :: (spellings.flatten ++ ['"'])

variable {s : String} {cs : List Char}

/-- **A string is read as its text**, from behind its quote. -/
theorem IsString.readString? (h : IsString s cs) (rest : List Char) :
    ∃ ds, cs = '"' :: ds ∧ Json.readString? (ds ++ rest) = some (s.toList, rest) := by
  obtain ⟨spellings, hspellings, rfl⟩ := h
  refine ⟨_, rfl, ?_⟩
  generalize s.toList = chars at hspellings ⊢
  induction hspellings with
  | nil => rfl
  | cons hchar _ ih =>
    rw [List.flatten_cons, List.append_assoc, List.append_assoc, readString?_spelling hchar,
      ← List.append_assoc, ih]
    rfl

/-- A string is skipped, from behind its quote. -/
theorem IsString.skipString? (h : IsString s cs) (rest : List Char) :
    ∃ ds, cs = '"' :: ds ∧ Json.skipString? (ds ++ rest) = some rest := by
  obtain ⟨spellings, hspellings, rfl⟩ := h
  refine ⟨_, rfl, ?_⟩
  generalize s.toList = chars at hspellings
  induction hspellings with
  | nil => rfl
  | cons hchar _ ih =>
    rw [List.flatten_cons, List.append_assoc, List.append_assoc, skipString?_spelling hchar,
      ← List.append_assoc, ih]

/-! ### Control characters -/

/-- No character of a text is a control character of the format. -/
def NoControl (cs : List Char) : Prop := ∀ c ∈ cs, 32 ≤ c.toNat

theorem IsCode.noControl {n : ℕ} (h : IsCode n cs) : NoControl cs := by
  obtain ⟨a, b, c, d, hcode, rfl⟩ := h
  have hdigits := (Text.isSome_natOfDigits?_iff.1 (Option.isSome_of_eq_some hcode)).2
  intro e he
  rcases List.mem_cons.1 he with rfl | he
  · decide
  rcases List.mem_cons.1 he with rfl | he
  · decide
  have hlow (x : Char) : x ≤ e → x.toNat ≤ e.toNat := fun h ↦ UInt32.le_iff_toNat_le.1 h
  rcases Text.isSome_digitValue?_sixteen_iff.1 (hdigits e he) with ⟨h, -⟩ | ⟨h, -⟩ | ⟨h, -⟩
  · exact le_trans (by decide) (hlow '0' h)
  · exact le_trans (by decide) (hlow 'a' h)
  · exact le_trans (by decide) (hlow 'A' h)

/-- A spelling has no control character in it. -/
theorem IsSpelling.noControl {c : Char} (h : IsSpelling c cs) : NoControl cs := by
  cases h with
  | plain _ _ hcontrol => exact List.forall_mem_singleton.2 hcontrol
  | letter h =>
    simp only [letterEscapes, List.mem_cons, Prod.mk.injEq, List.not_mem_nil, or_false] at h
    rcases h with ⟨rfl, -⟩ | ⟨rfl, -⟩ | ⟨rfl, -⟩ | ⟨rfl, -⟩ | ⟨rfl, -⟩ | ⟨rfl, -⟩ | ⟨rfl, -⟩ |
      ⟨rfl, -⟩ <;> simp [NoControl]
  | code h => exact h.noControl
  | pair hcs hds => exact List.forall_mem_append.2 ⟨hcs.noControl, hds.noControl⟩

/-- **A string has no control character in it**, whatever its text has. -/
theorem IsString.noControl (h : IsString s cs) : NoControl cs := by
  obtain ⟨spellings, hspellings, rfl⟩ := h
  have hflatten : NoControl spellings.flatten := by
    generalize s.toList = chars at hspellings
    induction hspellings with
    | nil => exact fun _ h ↦ nomatch h
    | cons hchar _ ih => exact List.forall_mem_append.2 ⟨hchar.noControl, ih⟩
  rw [NoControl, List.forall_mem_cons, List.forall_mem_append]
  exact ⟨by decide, hflatten, List.forall_mem_singleton.2 (by decide)⟩

/-! ### What is written -/

/-- A control character is written as an escape that says its code. -/
theorem fourHex?_fourHex :
    ∀ n < 32, (match fourHex n with | [a, b, c, d] => fourHex? a b c d | _ => none) = some n := by
  decide

/-- **What is written for a character spells it.** -/
theorem isSpelling_escapeChar (c : Char) : IsSpelling c (escapeChar c) := by
  rw [escapeChar]
  -- The seven short escapes.
  iterate 7
    split
    · next h =>
      subst h
      exact .letter (by simp [letterEscapes])
  split
  · next hcontrol => exact .code ⟨_, _, _, _, fourHex?_fourHex c.toNat hcontrol, rfl⟩
  · next hprintable => exact .plain ‹_› ‹_› (Nat.not_lt.1 hprintable)

/-- **A text is a string once it is quoted.** -/
theorem isString_quote (s : String) : IsString s (quote s).toList := by
  refine ⟨s.toList.map escapeChar, ?_, by simp [quote, List.flatMap]⟩
  rw [List.forall₂_map_right_iff, List.forall₂_same]
  exact fun c _ ↦ isSpelling_escapeChar c

/-- **A quoted text is read back.** -/
theorem readString?_quote (s : String) (rest : List Char) :
    ∃ cs, (quote s).toList = '"' :: cs ∧ readString? (cs ++ rest) = some (s.toList, rest) :=
  (isString_quote s).readString? rest

end Hygrometer.Json
