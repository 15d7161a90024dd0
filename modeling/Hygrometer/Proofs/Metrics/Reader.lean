import Hygrometer.Proofs.Metrics.Exposition
import Hygrometer.Proofs.Text.Basic

/-!
# Reading the exposition format

A reader of the format by its own rules, which knows nothing of the writer. A text is cut into lines
before anything else, so that a line end inside a value would end the line. A line gives the kind of
a family or one sample; a sample is a name, labels in braces and a whole number. Names are those of
the format (`isName`). A label value ends at the first quote that no backslash escapes, and there
are three escapes. It refuses everything else, also what other readers skip: blank lines, comments,
blanks between the parts, and samples without braces.

**Reading undoes writing** (`readText?_linesText`) wherever names are names. It is proved part by
part, each with any rest behind it, since a part of a line does not know what follows:

* a name ends at what is no character of names (`readName?_append`);
* an escaped character is one step of the reader of values, whatever stands behind it
  (`readValue?_escapeChar`), and so a written value is read to its closing quote
  (`readValue?_flatMap_escapeChar`);
* labels are read one by one, with a comma or the closing brace behind each;
* the cut into lines finds no line end in a written line (`newline_not_mem_body`), because escaping
  leaves none in a value and no name has one.

That lines with the same text are the same follows (`Line.text_inj`), so whatever is said of the
text of the metrics can be said of lines. The bounds on lengths are there for the reader's own
recursion: a label that was read is shorter than the text it was read from.
-/

namespace Hygrometer.Metrics

open Text (natOfDigits? numeral)

/-! ### The reader -/

/-- Whether a character may start a name. -/
def isNameStart (c : Char) : Bool := c.isAlpha || c = '_'

/-- Whether a character may stand in a name. -/
def isNameChar (c : Char) : Bool := isNameStart c || c.isDigit

/-- Whether a text is a name: ASCII letters, digits and underscores, and no digit in front. -/
def isName (s : String) : Bool :=
  match s.toList with
  | [] => false
  | c :: cs => isNameStart c && cs.all isNameChar

/-- Read a name: the name and what follows it. -/
def readName? (cs : List Char) : Option (String × List Char) :=
  let name := String.ofList (cs.takeWhile isNameChar)
  if isName name then some (name, cs.dropWhile isNameChar) else none

/-- The character that an escape stands for. -/
def unescape? (c : Char) : Option Char :=
  if c = '\\' then some '\\'
  else if c = '"' then some '"'
  else if c = 'n' then some '\n'
  else none

/-- Read a label value from behind its opening quote: its characters and what follows its closing
quote. -/
def readValue? : List Char → Option (List Char × List Char)
  | [] => none
  | '"' :: rest => some ([], rest)
  | '\\' :: e :: rest =>
    match unescape? e with
    | none => none
    | some c => (readValue? rest).map fun (s, rest) ↦ (c :: s, rest)
  | c :: rest =>
    if c = '\\' ∨ c = '\n' then none
    else (readValue? rest).map fun (s, rest) ↦ (c :: s, rest)

/-- Read a label: the label and what follows it. -/
def readLabel? (cs : List Char) : Option (Label × List Char) :=
  match readName? cs with
  | some (name, '=' :: '"' :: rest) =>
    (readValue? rest).map fun (value, rest) ↦ ((name, .ofList value), rest)
  | _ => none

/-- A value that was read leaves less than there was: its closing quote is gone. -/
theorem length_readValue?_lt {cs value rest : List Char}
    (h : readValue? cs = some (value, rest)) : rest.length < cs.length := by
  fun_induction readValue? cs generalizing value with
  | case1 => cases h
  | case2 rest' =>
    cases h
    exact Nat.lt_succ_self _
  | case3 => cases h
  | case4 e rest' c _ ih =>
    obtain ⟨⟨value', _⟩, hread, heq⟩ := Option.map_eq_some_iff.1 h
    cases heq
    have := ih hread
    simp only [List.length_cons]
    omega
  | case5 => cases h
  | case6 c rest' _ _ _ ih =>
    obtain ⟨⟨value', _⟩, hread, heq⟩ := Option.map_eq_some_iff.1 h
    cases heq
    have := ih hread
    simp only [List.length_cons]
    omega

/-- So does a label. -/
theorem length_readLabel?_lt {cs rest : List Char} {label : Label}
    (h : readLabel? cs = some (label, rest)) : rest.length < cs.length := by
  rw [readLabel?] at h
  split at h
  · next name rest' hname =>
    obtain ⟨⟨value, _⟩, hread, heq⟩ := Option.map_eq_some_iff.1 h
    cases heq
    have hvalue := length_readValue?_lt hread
    have hrest : ('=' :: '"' :: rest').length ≤ cs.length := by
      rw [readName?] at hname
      split at hname
      · rw [← (Prod.mk.inj (Option.some.inj hname)).2]
        exact (List.dropWhile_suffix _).length_le
      · cases hname
    simp only [List.length_cons] at hrest
    omega
  · cases h

/-- Read labels with commas between them up to a closing brace: the labels and what follows it. -/
def readLabels? (cs : List Char) : Option (List Label × List Char) :=
  match _h : readLabel? cs with
  | some (label, '}' :: rest) => some ([label], rest)
  | some (label, ',' :: rest) => (readLabels? rest).map fun (labels, rest) ↦ (label :: labels, rest)
  | _ => none
termination_by cs.length
decreasing_by
  have := length_readLabel?_lt _h
  simp only [List.length_cons] at this
  omega

/-- Read what stands behind an opening brace: the labels, if any, and what follows them. -/
def readBraced? : List Char → Option (List Label × List Char)
  | '}' :: rest => some ([], rest)
  | cs => readLabels? cs

/-- Read a number of 64 bits, to the end of its line. -/
def readNumber? (cs : List Char) : Option UInt64 :=
  (natOfDigits? 10 cs).bind fun n ↦ if n < UInt64.size then some (.ofNat n) else none

/-- Read a sample: a name, labels between braces, a blank and a number. -/
def readSample? (cs : List Char) : Option Line :=
  match readName? cs with
  | some (name, '{' :: rest) =>
    match readBraced? rest with
    | some (labels, ' ' :: rest) => (readNumber? rest).map (.sample name labels)
    | _ => none
  | _ => none

/-- Read a kind, to the end of its line. -/
def readKind? (cs : List Char) : Option FamilyKind :=
  [FamilyKind.counter, .histogram].find? (·.name.toList = cs)

/-- Read what stands behind the mark of a family: its name, a blank and its kind. -/
def readFamily? (cs : List Char) : Option Line :=
  match readName? cs with
  | some (name, ' ' :: rest) => (readKind? rest).map (.family name)
  | _ => none

/-- Read a line without its end. -/
def readLine? : List Char → Option Line
  | '#' :: ' ' :: 'T' :: 'Y' :: 'P' :: 'E' :: ' ' :: rest => readFamily? rest
  | cs => readSample? cs

/-- The lines of a text, each without its end; the last needs its end as well. -/
def cutLines? : List Char → Option (List (List Char))
  | [] => some []
  | '\n' :: cs => (cutLines? cs).map ([] :: ·)
  | c :: cs =>
    match cutLines? cs with
    | some (line :: lines) => some ((c :: line) :: lines)
    | _ => none

/-- Read a text, line by line. -/
def readText? (text : String) : Option (List Line) :=
  (cutLines? text.toList).bind fun lines ↦ lines.mapM readLine?

/-! ### Reading names and values -/

/-- A name has a first character, and goes on with those of names. -/
theorem exists_cons_of_isName {name : String} (h : isName name = true) :
    ∃ c cs, name.toList = c :: cs ∧ isNameStart c = true ∧ ∀ c ∈ cs, isNameChar c = true := by
  rw [isName] at h
  split at h
  · cases h
  · next c cs hname =>
    rw [Bool.and_eq_true, List.all_eq_true] at h
    exact ⟨c, cs, hname, h⟩

/-- Every character of a name is one of names. -/
theorem isNameChar_of_mem {name : String} (h : isName name = true) {c : Char}
    (hc : c ∈ name.toList) : isNameChar c = true := by
  obtain ⟨first, cs, hname, hfirst, hcs⟩ := exists_cons_of_isName h
  rw [hname, List.mem_cons] at hc
  rcases hc with rfl | hc
  · rw [isNameChar, hfirst, Bool.true_or]
  · exact hcs c hc

/-- A name is read up to the first character that no name has. -/
theorem readName?_append {name : String} (h : isName name = true) {c : Char}
    (hc : isNameChar c = false) (rest : List Char) :
    readName? (name.toList ++ c :: rest) = some (name, c :: rest) := by
  have hchars : ∀ c ∈ name.toList, isNameChar c = true := fun c ↦ isNameChar_of_mem h
  rw [readName?, List.takeWhile_append_of_pos hchars, List.dropWhile_append_of_pos hchars]
  simp [hc, h]

/-- A character of a value is read back from what is written for it. -/
theorem readValue?_escapeChar (c : Char) (rest : List Char) :
    readValue? (escapeChar c ++ rest) =
      (readValue? rest).map fun (s, rest) ↦ (c :: s, rest) := by
  rw [escapeChar]
  split
  · next h =>
    subst h
    rfl
  split
  · next h =>
    subst h
    rfl
  split
  · next h =>
    subst h
    rfl
  · next hslash hquote hline =>
    rw [List.singleton_append, readValue?.eq_def]
    split <;> simp_all

/-- **A value is read back**, whatever it is and whatever follows its closing quote. -/
theorem readValue?_flatMap_escapeChar (value rest : List Char) :
    readValue? (value.flatMap escapeChar ++ '"' :: rest) = some (value, rest) := by
  induction value with
  | nil => rfl
  | cons c value ih =>
    rw [List.flatMap_cons, List.append_assoc, readValue?_escapeChar, ih]
    rfl

/-- The characters of a label: its name, and its value in quotes and with escapes. -/
theorem toList_text_label (l : Label) :
    l.text.toList = l.1.toList ++ '=' :: '"' :: (l.2.toList.flatMap escapeChar ++ ['"']) := by
  simp [Label.text, escape]

/-- **A label is read back**, whatever stands behind it. -/
theorem readLabel?_text {l : Label} (h : isName l.1 = true) (rest : List Char) :
    readLabel? (l.text.toList ++ rest) = some (l, rest) := by
  rw [toList_text_label, List.append_assoc, readLabel?]
  simp only [List.cons_append, List.append_assoc, List.nil_append]
  rw [readName?_append h (by decide)]
  show (readValue? _).map _ = _
  rw [readValue?_flatMap_escapeChar, Option.map_some, String.ofList_toList]

/-! ### Reading lines -/

/-- The last label has the closing brace behind it. -/
theorem readLabels?_of_last {cs rest : List Char} {l : Label}
    (h : readLabel? cs = some (l, '}' :: rest)) : readLabels? cs = some ([l], rest) := by
  rw [readLabels?]
  split <;> simp_all

/-- Any other has a comma behind it, and the rest of the labels. -/
theorem readLabels?_of_comma {cs rest : List Char} {l : Label}
    (h : readLabel? cs = some (l, ',' :: rest)) :
    readLabels? cs = (readLabels? rest).map fun (labels, rest) ↦ (l :: labels, rest) := by
  rw [readLabels?]
  split <;> simp_all

/-- Labels between commas are read back. -/
theorem readLabels?_text {l : Label} {labels : List Label}
    (h : ∀ l' ∈ l :: labels, isName l'.1 = true) (rest : List Char) :
    readLabels? ([','].intercalate ((l :: labels).map fun l ↦ l.text.toList) ++ '}' :: rest) =
      some (l :: labels, rest) := by
  have hl : isName l.1 = true := h l List.mem_cons_self
  induction labels generalizing l with
  | nil =>
    simp only [List.map_cons, List.map_nil, List.intercalate_singleton]
    exact readLabels?_of_last (readLabel?_text hl _)
  | cons l' labels ih =>
    have hl' : ∀ l'' ∈ l' :: labels, isName l''.1 = true :=
      fun l'' hmem ↦ h l'' (List.mem_cons_of_mem _ hmem)
    have hrest := ih hl' (hl' l' List.mem_cons_self)
    rw [List.map_cons] at hrest
    rw [List.map_cons, List.map_cons, List.intercalate_cons_cons, List.append_assoc,
      List.append_assoc, List.singleton_append, readLabels?_of_comma (readLabel?_text hl _), hrest]
    rfl

/-- The characters of labels in braces. -/
theorem toList_labelsText (labels : List Label) :
    (labelsText labels).toList =
      '{' :: ([','].intercalate (labels.map fun l ↦ l.text.toList) ++ ['}']) := by
  simp [labelsText, String.toList_intercalate, Function.comp_def]

/-- **Labels are read back**, whatever their values are. -/
theorem readBraced?_text {labels : List Label} (h : ∀ l ∈ labels, isName l.1 = true)
    (rest : List Char) :
    readBraced? ([','].intercalate (labels.map fun l ↦ l.text.toList) ++ '}' :: rest) =
      some (labels, rest) := by
  rcases labels with - | ⟨l, labels⟩
  · rfl
  · have hread := readLabels?_text h rest
    obtain ⟨c, cs, hname, hc, -⟩ := exists_cons_of_isName (h l List.mem_cons_self)
    have hhead : ∃ tail,
        [','].intercalate ((l :: labels).map fun l ↦ l.text.toList) ++ '}' :: rest = c :: tail := by
      rcases labels with - | ⟨l', labels⟩ <;>
        simp [toList_text_label, hname, List.intercalate_cons_cons]
    -- What starts a name is not the closing brace.
    obtain ⟨tail, htail⟩ := hhead
    rw [htail] at hread ⊢
    rw [← hread, readBraced?]
    rintro _ ⟨rfl, -⟩
    cases hc

/-- A number is read back from its digits. -/
theorem readNumber?_toDigits (value : UInt64) :
    readNumber? (Nat.toDigits 10 value.toNat) = some value := by
  have hlt : value.toNat < UInt64.size := value.toNat_lt_size
  have hread := Text.natOfDigits?_toDigits (by decide : 1 < 10) (by decide) value.toNat
  simp only [readNumber?, hread, Option.bind_some, hlt, if_true, UInt64.ofNat_toNat]

/-- A line that does not begin with the sign of a comment is a sample. -/
theorem readLine?_of_ne {c : Char} (h : c ≠ '#') (cs : List Char) :
    readLine? (c :: cs) = readSample? (c :: cs) := by
  rw [readLine?]
  rintro _ heq
  exact h (List.cons.inj heq).1

namespace Line

/-- A line has names for names. -/
def IsNamed : Line → Prop
  | family name _ => isName name = true
  | sample name labels _ => isName name = true ∧ ∀ l ∈ labels, isName l.1 = true

/-- The text of a line without its end. -/
def body : Line → String
  | family name kind => "# TYPE " ++ name ++ " " ++ kind.name
  | sample name labels value => name ++ labelsText labels ++ " " ++ numeral value.toNat

/-- A line is its characters and a line end. -/
theorem text_eq (line : Line) : line.text = line.body ++ "\n" := by
  cases line <;> rfl

/-- The characters of the line of a kind. -/
theorem toList_body_family (name : String) (kind : FamilyKind) :
    (family name kind).body.toList =
      '#' :: ' ' :: 'T' :: 'Y' :: 'P' :: 'E' :: ' ' ::
        (name.toList ++ ' ' :: kind.name.toList) := by
  simp [body]

/-- The characters of the line of a sample. -/
theorem toList_body_sample (name : String) (labels : List Label) (value : UInt64) :
    (sample name labels value).body.toList =
      name.toList ++ '{' :: ([','].intercalate (labels.map fun l ↦ l.text.toList) ++
        '}' :: ' ' :: Nat.toDigits 10 value.toNat) := by
  simp [body, toList_labelsText]

/-- **A line is read back.** -/
theorem readLine?_body {line : Line} (h : line.IsNamed) :
    readLine? line.body.toList = some line := by
  cases line with
  | family name kind =>
    have hkind : readKind? kind.name.toList = some kind := by
      cases kind <;> decide
    rw [toList_body_family, readLine?, readFamily?, readName?_append h (by decide)]
    show (readKind? _).map _ = _
    rw [hkind, Option.map_some]
  | sample name labels value =>
    obtain ⟨hname, hlabels⟩ := h
    obtain ⟨c, cs, hchars, hc, -⟩ := exists_cons_of_isName hname
    have hne : c ≠ '#' := by
      rintro rfl
      cases hc
    rw [toList_body_sample, hchars, List.cons_append, readLine?_of_ne hne, ← List.cons_append,
      ← hchars, readSample?, readName?_append hname (by decide)]
    simp only [readBraced?_text hlabels, readNumber?_toDigits, Option.map_some]

end Line

/-! ### Reading texts -/

/-- No name has a line end in it. -/
theorem newline_not_mem_of_isName {name : String} (h : isName name = true) :
    '\n' ∉ name.toList := by
  intro hmem
  have hchar := isNameChar_of_mem h hmem
  cases hchar

/-- Escaping leaves no line end. -/
theorem newline_not_mem_escapeChar (c : Char) : '\n' ∉ escapeChar c := by
  rw [escapeChar]
  split
  · decide
  split
  · decide
  split
  · decide
  · next hline => simpa [eq_comm] using hline

/-- So no label has one in its text. -/
theorem newline_not_mem_text {l : Label} (h : isName l.1 = true) : '\n' ∉ l.text.toList := by
  rw [toList_text_label]
  simp [newline_not_mem_of_isName h, newline_not_mem_escapeChar]

/-- What joined texts do not have comes neither from a text nor from what joins them. -/
theorem newline_not_mem_intercalate {sep : List Char} (hsep : '\n' ∉ sep)
    {texts : List (List Char)} (h : ∀ text ∈ texts, '\n' ∉ text) :
    '\n' ∉ sep.intercalate texts := by
  induction texts with
  | nil => exact List.not_mem_nil
  | cons text texts ih =>
    rw [List.forall_mem_cons] at h
    rcases texts with - | ⟨text', texts⟩
    · rw [List.intercalate_singleton]
      exact h.1
    · rw [List.intercalate_cons_cons]
      simp only [List.mem_append, not_or]
      exact ⟨⟨h.1, hsep⟩, ih h.2⟩

namespace Line

/-- A line is one line, whatever its values are. -/
theorem newline_not_mem_body {line : Line} (h : line.IsNamed) : '\n' ∉ line.body.toList := by
  cases line with
  | family name kind =>
    rw [toList_body_family]
    have hkind : '\n' ∉ kind.name.toList := by
      cases kind <;> decide
    simp [newline_not_mem_of_isName h, hkind]
  | sample name labels value =>
    obtain ⟨hname, hlabels⟩ := h
    rw [toList_body_sample]
    have hdigits : '\n' ∉ Nat.toDigits 10 value.toNat := by
      intro hmem
      have hdigit := Nat.isDigit_of_mem_toDigits (by decide) (by decide) hmem
      cases hdigit
    have htexts : '\n' ∉ [','].intercalate (labels.map fun l ↦ l.text.toList) := by
      refine newline_not_mem_intercalate (by decide) ?_
      intro text htext
      obtain ⟨l, hl, rfl⟩ := List.mem_map.1 htext
      exact newline_not_mem_text (hlabels l hl)
    simp [newline_not_mem_of_isName hname, htexts, hdigits]

end Line

/-- The first line of a text is what stands before the first line end. -/
theorem cutLines?_append {line : List Char} (h : '\n' ∉ line) (rest : List Char) :
    cutLines? (line ++ '\n' :: rest) = (cutLines? rest).map (line :: ·) := by
  induction line with
  | nil => rfl
  | cons c line ih =>
    rw [List.mem_cons, not_or] at h
    obtain ⟨hc, hline⟩ := h
    rw [List.cons_append, cutLines?, ih hline]
    · rcases cutLines? rest with - | lines <;> rfl
    · exact fun heq ↦ hc heq.symm

/-- **The cut finds the lines that were written.** -/
theorem cutLines?_linesText {lines : List Line} (h : ∀ line ∈ lines, line.IsNamed) :
    cutLines? (linesText lines).toList = some (lines.map fun line ↦ line.body.toList) := by
  induction lines with
  | nil => rfl
  | cons line lines ih =>
    rw [List.forall_mem_cons] at h
    obtain ⟨hline, hlines⟩ := h
    have htext : (linesText (line :: lines)).toList =
        line.body.toList ++ '\n' :: (linesText lines).toList := by
      simp [line.text_eq]
    rw [htext, cutLines?_append (Line.newline_not_mem_body hline), ih hlines, Option.map_some,
      List.map_cons]

/-- **A text is read back** line by line, if its names are names. -/
theorem readText?_linesText {lines : List Line} (h : ∀ line ∈ lines, line.IsNamed) :
    readText? (linesText lines) = some lines := by
  rw [readText?, cutLines?_linesText h, Option.bind_some]
  induction lines with
  | nil => rfl
  | cons line lines ih =>
    rw [List.forall_mem_cons] at h
    rw [List.map_cons, List.mapM_cons, Line.readLine?_body h.1, ih h.2]
    rfl

/-- **The text of a line determines the line**, if its names are names. -/
theorem Line.text_inj {line line' : Line} (h : line.IsNamed) (h' : line'.IsNamed) :
    line.text = line'.text ↔ line = line' := by
  refine ⟨fun htext ↦ ?_, fun heq ↦ heq ▸ rfl⟩
  have hread : readText? line.text = readText? line'.text := congrArg _ htext
  have hsingle : ∀ {line : Line}, line.IsNamed → readText? line.text = some [line] := by
    intro line h
    have htext : linesText [line] = line.text := by simp [linesText]
    rw [← htext]
    exact readText?_linesText (by simpa using h)
  rw [hsingle h, hsingle h'] at hread
  exact List.head_eq_of_cons_eq (Option.some.inj hread)

end Hygrometer.Metrics
