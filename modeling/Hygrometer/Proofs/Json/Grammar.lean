import Mathlib.Data.List.DropRight
import Hygrometer.Proofs.Json.Record

/-!
# The grammar of JSON

The values that a JSON text may hold, and the texts that hold them (`IsTextOf`). A value of any
shape is one **phrase** of the grammar, the elements left of an array are another, and so are the
members left of an object; `Spells` says which texts spell a phrase. Blanks may stand before every
phrase and around every key. Characters and exponents may be spelled in several ways, members may
come in any order, and a name may come more than once.

The grammar is independent of every reader. It is what statements about texts are made of: a text
that the service sends spells some value, and a text that it is sent is read if it spells one that
fits. A number is kept as its parts, since two numerals of one number are not read alike everywhere:
a whole number with a point is none for a field that counts.

**Why phrases.** A value holds lists of values, and induction over such a nesting needs a second
statement about lists. With what is left of an array or an object as phrases of their own, the
grammar is one relation over one type, and a proof about it is one induction with a case for each
rule.

**What a reader needs to know.** A text behind a value never goes on with it (`Spells.follows`), so
a value ends where the grammar says it does. A value shows what it is by its first character that is
not blank (`Spells.exists_token`), and a member shows its key, its colon and its value
(`Spells.exists_member`). In the other direction, what is written for an object spells the members
that it was written from (`isTextOf_object`).
-/

namespace Hygrometer.Json

/-- A value. A number is kept as its sign and parts. -/
inductive Value where
  /-- The word `null`. -/
  | null
  /-- A truth value. -/
  | boolean (b : Bool)
  /-- A number. -/
  | number (negative : Bool) (parts : Parts)
  /-- A text. -/
  | text (s : String)
  /-- An array. -/
  | array (elements : List Value)
  /-- An object. -/
  | object (members : List (String × Value))

/-- A phrase of the grammar. -/
inductive Phrase where
  /-- A value. -/
  | value (v : Value)
  /-- The elements left of an array, up to its end. -/
  | elements (first : Bool) (vs : List Value)
  /-- The members left of an object, up to its end. -/
  | members (first : Bool) (ms : List (String × Value))

/-- A character that may stand between tokens. -/
def IsBlank (c : Char) : Prop := c = ' ' ∨ c = '\n' ∨ c = '\t' ∨ c = '\r'

/-- What stands before an element or a member: a comma, unless it is the first. -/
def separator (first : Bool) : List Char := if first then [] else [',']

/-- A name as a key, with its colon. -/
def IsKey (name : String) (cs : List Char) : Prop :=
  ∃ before key behind, (∀ c ∈ before, IsBlank c) ∧ IsString name key ∧ (∀ c ∈ behind, IsBlank c) ∧
    cs = before ++ (key ++ (behind ++ [':']))

/-- **The texts that spell a phrase.** -/
inductive Spells : Phrase → List Char → Prop
  /-- A blank before it. -/
  | blank {p : Phrase} {c : Char} {cs : List Char} (hc : IsBlank c) (h : Spells p cs) :
    Spells p (c :: cs)
  /-- The word `null`. -/
  | null : Spells (.value .null) ['n', 'u', 'l', 'l']
  /-- The word `true` or `false`. -/
  | boolean (b : Bool) : Spells (.value (.boolean b))
    (if b then ['t', 'r', 'u', 'e'] else ['f', 'a', 'l', 's', 'e'])
  /-- A numeral. -/
  | number {negative : Bool} {parts : Parts} {cs : List Char}
    (h : Parts.IsNumber negative parts cs) : Spells (.value (.number negative parts)) cs
  /-- A string. -/
  | text {s : String} {cs : List Char} (h : IsString s cs) : Spells (.value (.text s)) cs
  /-- A bracket and elements. -/
  | array {vs : List Value} {cs : List Char} (h : Spells (.elements true vs) cs) :
    Spells (.value (.array vs)) ('[' :: cs)
  /-- A brace and members. -/
  | object {ms : List (String × Value)} {cs : List Char} (h : Spells (.members true ms) cs) :
    Spells (.value (.object ms)) ('\x7b' :: cs)
  /-- The end of an array. -/
  | arrayEnd (first : Bool) : Spells (.elements first []) [']']
  /-- An element and those behind it. -/
  | element (first : Bool) {v : Value} {vs : List Value} {cs ds : List Char}
    (hv : Spells (.value v) cs) (hvs : Spells (.elements false vs) ds) :
    Spells (.elements first (v :: vs)) (separator first ++ (cs ++ ds))
  /-- The end of an object. -/
  | objectEnd (first : Bool) : Spells (.members first []) ['\x7d']
  /-- A member and those behind it. -/
  | member (first : Bool) {name : String} {v : Value} {ms : List (String × Value)}
    {key cs ds : List Char} (hkey : IsKey name key) (hv : Spells (.value v) cs)
    (hms : Spells (.members false ms) ds) :
    Spells (.members first ((name, v) :: ms)) (separator first ++ (key ++ (cs ++ ds)))

/-- **The texts of a value**: it is spelled, and only blanks are left. -/
def IsTextOf (v : Value) (s : String) : Prop :=
  ∃ cs blanks, Spells (.value v) cs ∧ (∀ c ∈ blanks, IsBlank c) ∧ s.toList = cs ++ blanks

variable {p : Phrase} {v : Value} {ms : List (String × Value)} {name : String} {first : Bool}
  {c : Char} {cs rest : List Char}

/-! ### Blanks -/

theorem skipBlanks_blank (hc : IsBlank c) (cs : List Char) :
    skipBlanks (c :: cs) = skipBlanks cs := by
  rw [skipBlanks, List.dropWhile_cons_of_pos, skipBlanks]
  rcases hc with rfl | rfl | rfl | rfl <;> rfl

theorem skipBlanks_append {blanks : List Char} (h : ∀ c ∈ blanks, IsBlank c) (cs : List Char) :
    skipBlanks (blanks ++ cs) = skipBlanks cs := by
  induction blanks with
  | nil => rfl
  | cons c blanks ih =>
    rw [List.forall_mem_cons] at h
    rw [List.cons_append, skipBlanks_blank h.1, ih h.2]

@[simp] theorem skipBlanks_skipBlanks (cs : List Char) :
    skipBlanks (skipBlanks cs) = skipBlanks cs :=
  List.dropWhile_idempotent _ _

/-! ### What follows a phrase -/

theorem follows_of_isBlank (hc : IsBlank c) (cs : List Char) : Follows (c :: cs) := by
  rintro _ ⟨⟩
  rcases hc with rfl | rfl | rfl | rfl <;> decide

theorem follows_blanks {blanks : List Char} (h : ∀ c ∈ blanks, IsBlank c) : Follows blanks := by
  rcases blanks with - | ⟨c, blanks⟩
  · rintro c ⟨⟩
  · exact follows_of_isBlank (h c List.mem_cons_self) blanks

/-- A phrase that comes behind a value. -/
def Phrase.IsTail : Phrase → Prop
  | .value _ => False
  | .elements first _ => first = false
  | .members first _ => first = false

/-- **Nothing behind a value belongs to it.** -/
theorem Spells.follows (h : Spells p cs) (hp : p.IsTail) (rest : List Char) :
    Follows (cs ++ rest) := by
  have hmark {c : Char} (hc : c = ',' ∨ c = ']' ∨ c = '\x7d') (cs : List Char) :
      Follows (c :: cs) := by
    rintro _ ⟨⟩
    rcases hc with rfl | rfl | rfl <;> decide
  cases h with
  | blank hc => exact follows_of_isBlank hc _
  | null | boolean | number | text | array | object => exact hp.elim
  | arrayEnd => exact hmark (.inr (.inl rfl)) _
  | objectEnd => exact hmark (.inr (.inr rfl)) _
  | element first =>
    obtain rfl : first = false := hp
    exact hmark (.inl rfl) _
  | member first =>
    obtain rfl : first = false := hp
    exact hmark (.inl rfl) _

/-! ### What a phrase starts with -/

/-- The texts of a value without blanks before it. -/
def Value.IsToken : Value → List Char → Prop
  | .null, cs => cs = ['n', 'u', 'l', 'l']
  | .boolean b, cs => cs = if b then ['t', 'r', 'u', 'e'] else ['f', 'a', 'l', 's', 'e']
  | .number negative parts, cs => Parts.IsNumber negative parts cs
  | .text s, cs => IsString s cs
  | .array vs, cs => ∃ ds, Spells (.elements true vs) ds ∧ cs = '[' :: ds
  | .object ms, cs => ∃ ds, Spells (.members true ms) ds ∧ cs = '\x7b' :: ds

theorem skipBlanks_of_isToken (h : v.IsToken cs) (rest : List Char) :
    skipBlanks (cs ++ rest) = cs ++ rest := by
  cases v with
  | null =>
    obtain rfl := h
    rfl
  | boolean b =>
    obtain rfl := h
    cases b <;> rfl
  | number => exact skipBlanks_of_startsNumber (h.startsNumber rest)
  | text =>
    obtain ⟨spellings, -, rfl⟩ := h
    rfl
  | array =>
    obtain ⟨ds, -, rfl⟩ := h
    rfl
  | object =>
    obtain ⟨ds, -, rfl⟩ := h
    rfl

/-- **A value is a token behind blanks.** -/
theorem Spells.exists_token (h : Spells (.value v) cs) :
    ∃ blanks token, (∀ c ∈ blanks, IsBlank c) ∧ v.IsToken token ∧ cs = blanks ++ token := by
  generalize hp : Phrase.value v = p at h
  induction h generalizing v with
  | blank hc _ ih =>
    obtain ⟨blanks, token, hblanks, htoken, rfl⟩ := ih hp
    exact ⟨_ :: blanks, token, List.forall_mem_cons.2 ⟨hc, hblanks⟩, htoken, rfl⟩
  | null | boolean =>
    obtain rfl := Phrase.value.inj hp
    exact ⟨[], _, by simp, rfl, rfl⟩
  | number h | text h =>
    obtain rfl := Phrase.value.inj hp
    exact ⟨[], _, by simp, h, rfl⟩
  | array h | object h =>
    obtain rfl := Phrase.value.inj hp
    exact ⟨[], _, by simp, ⟨_, h, rfl⟩, rfl⟩
  | arrayEnd | element | objectEnd | member => cases hp

/-- A value does not start as the end of an array does. -/
theorem Spells.skipBlanks_ne (h : Spells (.value v) cs) (rest ds : List Char) :
    skipBlanks (cs ++ rest) ≠ ']' :: ds := by
  obtain ⟨blanks, token, hblanks, htoken, rfl⟩ := h.exists_token
  rw [List.append_assoc, skipBlanks_append hblanks, skipBlanks_of_isToken htoken]
  intro heq
  cases v with
  | null =>
    obtain rfl := htoken
    cases heq
  | boolean b =>
    obtain rfl := htoken
    cases b <;> cases heq
  | number =>
    have hstart := htoken.startsNumber rest
    rw [heq] at hstart
    cases hstart
  | text =>
    obtain ⟨spellings, -, rfl⟩ := htoken
    cases heq
  | array | object =>
    obtain ⟨ds, -, rfl⟩ := htoken
    cases heq

/-- **A key is a string behind blanks**, and a colon behind more of them. -/
theorem IsKey.exists_string (h : IsKey name cs) (rest : List Char) :
    ∃ ds tail, skipBlanks (cs ++ rest) = '"' :: ds ∧ readString? ds = some (name.toList, tail) ∧
      skipString? ds = some tail ∧ skipBlanks tail = ':' :: rest := by
  obtain ⟨before, key, behind, hbefore, hkey, hbehind, rfl⟩ := h
  obtain ⟨ds, rfl, hread⟩ := hkey.readString? (behind ++ ':' :: rest)
  obtain ⟨_, ⟨⟩, hskip⟩ := hkey.skipString? (behind ++ ':' :: rest)
  refine ⟨ds ++ (behind ++ ':' :: rest), behind ++ ':' :: rest, ?_, hread, hskip, ?_⟩
  · rw [List.append_assoc, skipBlanks_append hbefore]
    simp [skipBlanks]
  · rw [skipBlanks_append hbehind]
    rfl

/-- The end of an object, behind blanks. -/
theorem Spells.exists_objectEnd (h : Spells (.members first []) cs) :
    ∃ blanks, (∀ c ∈ blanks, IsBlank c) ∧ cs = blanks ++ ['\x7d'] := by
  generalize hp : Phrase.members first [] = p at h
  induction h with
  | blank hc _ ih =>
    obtain ⟨blanks, hblanks, rfl⟩ := ih hp
    exact ⟨_ :: blanks, List.forall_mem_cons.2 ⟨hc, hblanks⟩, rfl⟩
  | objectEnd => exact ⟨[], by simp, rfl⟩
  | null | boolean | number | text | array | object | arrayEnd | element | member => cases hp

/-- A member, behind blanks. -/
theorem Spells.exists_member (h : Spells (.members first ((name, v) :: ms)) cs) :
    ∃ blanks key text tail, (∀ c ∈ blanks, IsBlank c) ∧ IsKey name key ∧ Spells (.value v) text ∧
      Spells (.members false ms) tail ∧
      cs = blanks ++ (separator first ++ (key ++ (text ++ tail))) := by
  generalize hp : Phrase.members first ((name, v) :: ms) = p at h
  induction h with
  | blank hc _ ih =>
    obtain ⟨blanks, key, text, tail, hblanks, hkey, htext, htail, rfl⟩ := ih hp
    exact ⟨_ :: blanks, key, text, tail, List.forall_mem_cons.2 ⟨hc, hblanks⟩, hkey, htext, htail,
      rfl⟩
  | member first hkey hv hms =>
    cases hp
    exact ⟨[], _, _, _, by simp, hkey, hv, hms, rfl⟩
  | null | boolean | number | text | array | object | arrayEnd | element | objectEnd =>
    cases hp

/-- No phrase is spelled by nothing. -/
theorem Spells.length_pos (h : Spells p cs) : 0 < cs.length := by
  induction h with
  | blank | null | array | object | arrayEnd | objectEnd => exact Nat.succ_pos _
  | boolean b => cases b <;> exact Nat.succ_pos _
  | number h =>
    have hne := h.1.whole_ne
    obtain ⟨es, -, rfl⟩ := h.2
    have hlength := List.length_pos_iff.2 hne
    simp only [List.length_append]
    omega
  | text h =>
    obtain ⟨spellings, -, rfl⟩ := h
    exact Nat.succ_pos _
  | element first hv hvs ihv =>
    simp only [List.length_append]
    omega
  | member first hkey hv hms ihv =>
    simp only [List.length_append]
    omega

/-! ### What is written -/

/-- **The texts of members spell them**, if each of them spells a value. -/
theorem spells_membersText {members : List (String × String)} (first : Bool)
    (h : List.Forall₂ (fun m w ↦ w.1 = m.1 ∧ Spells (.value w.2) m.2.toList) members ms) :
    Spells (.members first ms) (membersText first members ++ ['\x7d']) := by
  induction h generalizing first with
  | nil => exact .objectEnd first
  | @cons m w members ms hm _ ih =>
    obtain ⟨name, text⟩ := m
    obtain ⟨name', v⟩ := w
    obtain ⟨rfl, hv⟩ := hm
    have hkey : IsKey name' ((quote name').toList ++ [':']) :=
      ⟨[], _, [], by simp, isString_quote name', by simp, (List.nil_append _).symm⟩
    have hmember := Spells.member first hkey hv (ih false)
    simpa [membersText, memberText, separator] using hmember

/-- **What is written for an object is one of its texts.** -/
theorem isTextOf_object {members : List (String × String)}
    (h : List.Forall₂ (fun m w ↦ w.1 = m.1 ∧ Spells (.value w.2) m.2.toList) members ms) :
    IsTextOf (.object ms) (object members) := by
  have hspelled : Spells (.value (.object ms)) (object members).toList := by
    rw [toList_object]
    exact .object (spells_membersText true h)
  exact ⟨_, [], hspelled, fun _ h ↦ (List.not_mem_nil h).elim, (List.append_nil _).symm⟩

theorem noControl_membersText {members : List (String × String)} (first : Bool)
    (h : ∀ m ∈ members, NoControl m.2.toList) : NoControl (membersText first members) := by
  induction members generalizing first with
  | nil => exact fun _ h ↦ nomatch h
  | cons m members ih =>
    obtain ⟨name, text⟩ := m
    rw [List.forall_mem_cons] at h
    have hcomma : NoControl (if first then [] else [',']) := by cases first <;> simp [NoControl]
    have hcolon : NoControl (':' :: text.toList) := List.forall_mem_cons.2 ⟨by decide, h.1⟩
    have hquote := (isString_quote name).noControl
    exact List.forall_mem_append.2 ⟨List.forall_mem_append.2
      ⟨List.forall_mem_append.2 ⟨hcomma, hquote⟩, hcolon⟩, ih false h.2⟩

/-- What is written for an object has no control character in it, if its values have none. -/
theorem noControl_object {members : List (String × String)}
    (h : ∀ m ∈ members, NoControl m.2.toList) : NoControl (object members).toList := by
  rw [toList_object, NoControl, List.forall_mem_cons, List.forall_mem_append]
  exact ⟨by decide, noControl_membersText true h, List.forall_mem_singleton.2 (by decide)⟩

/-- A quoted text spells it. -/
theorem spells_quote (s : String) : Spells (.value (.text s)) (quote s).toList :=
  .text (isString_quote s)

/-- A whole number as a value. -/
def Value.whole (n : ℕ) : Value := .number false (wholeParts n)

theorem spells_numeral (n : ℕ) : Spells (.value (.whole n)) (Text.numeral n).toList := by
  have hnumber := Parts.isNumber_text (isNumeral_wholeParts n) false
  rw [text_wholeParts] at hnumber
  rw [Text.toList_numeral]
  exact .number hnumber

end Hygrometer.Json
