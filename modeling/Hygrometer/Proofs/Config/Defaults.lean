import Hygrometer.Proofs.Config.Reading
import Hygrometer.Proofs.Yaml.Scan
import Hygrometer.Yaml.Node

/-!
# Texts without content

A line without content has spaces, and behind them a comment if it has one. A text of such lines has
no document in it (`Document.ofText_emptyText`), whatever stands in the comments: one may read like
a key, an anchor or the mark of a document, and the scanner passes it all the same.

**Lines are passed where they stand.** The scanner passes such a line wherever it stands, up to what
comes behind it, so the whole text is passed by induction on its lines
(`Scan.exists_toNextToken_lines`). A comment goes on to the end of its line, and a line feed ends
it, so that the next line is met in the state that the first one was met in. All characters of these
lines may stand in a text, which is why the text is scanned as a whole (`all_isAllowed_emptyText`).

**Two ways lead to the defaults.** A blank text describes the defaults without being read. One with
a comment is read, and its document leaves out the root (`ofDocument_emptyText`), so that it
describes the defaults too. The two ways meet in the defaults and nowhere else: which one a text
takes depends on its comments alone (`isBlankText_emptyText_iff`). An empty document is no scalar
that someone wrote; it is what stands for a root that was left out, and a section that is left out
has its defaults.
-/

namespace Hygrometer.Yaml

/-- Whether a character is one of the printable ones of ASCII. -/
def isPrintable (c : Char) : Bool := 0x20 ≤ c.toNat && c.toNat ≤ 0x7E

/-- A line without content. -/
structure EmptyLine where
  /-- How many spaces stand at its start. -/
  indent : ℕ
  /-- What stands behind the sign of its comment, if there is one. -/
  comment? : Option { comment : List Char // comment.all isPrintable = true }

/-- The line as it is written. -/
def EmptyLine.text (line : EmptyLine) : List Char :=
  List.replicate line.indent ' ' ++
    match line.comment? with
    | none => []
    | some comment => '#' :: comment

/-- Lines without content, with line feeds between them. -/
def emptyText (lines : List EmptyLine) : List Char := ['\n'].intercalate (lines.map (·.text))

theorem emptyText_cons_cons (line next : EmptyLine) (lines : List EmptyLine) :
    emptyText (line :: next :: lines) = line.text ++ '\n' :: emptyText (next :: lines) := by
  rw [emptyText, List.map_cons, List.map_cons, List.intercalate_cons_cons, ← List.map_cons,
    List.append_assoc]
  rfl

/-! ### Characters -/

theorem isBreak_of_isPrintable {c : Char} (h : isPrintable c = true) : isBreak c = false := by
  have hne (d : Char) (hd : isPrintable d = false) : c ≠ d := by
    rintro rfl
    rw [h] at hd
    cases hd
  simp [isBreak, hne '\r' rfl, hne '\n' rfl, hne '\u0085' rfl, hne '\u2028' rfl, hne '\u2029' rfl]

theorem isAllowed_of_isPrintable {c : Char} (h : isPrintable c = true) : isAllowed c = true := by
  rw [isPrintable] at h
  simp [isAllowed, h]

theorem EmptyLine.isPrintable_of_mem {line : EmptyLine} {c : Char} (h : c ∈ line.text) :
    isPrintable c = true := by
  obtain ⟨indent, comment?⟩ := line
  obtain hspace | hcomment := List.mem_append.1 h
  · rw [List.eq_of_mem_replicate hspace]
    rfl
  · rcases comment? with - | ⟨comment, hprintable⟩
    · cases hcomment
    · obtain rfl | hc := List.mem_cons.1 hcomment
      · rfl
      · exact List.all_eq_true.1 hprintable c hc

/-- The characters of the text are those of its lines, and line feeds between them. -/
theorem mem_emptyText {lines : List EmptyLine} {c : Char} (h : c ∈ emptyText lines) :
    c = '\n' ∨ ∃ line ∈ lines, c ∈ line.text := by
  induction lines with
  | nil => cases h
  | cons line lines ih =>
    rcases lines with - | ⟨next, lines⟩
    · exact .inr ⟨line, List.mem_cons_self, by simpa [emptyText] using h⟩
    · rw [emptyText_cons_cons, List.mem_append, List.mem_cons] at h
      obtain hline | rfl | hlines := h
      · exact .inr ⟨line, List.mem_cons_self, hline⟩
      · exact .inl rfl
      · obtain hbreak | ⟨line', hline', hc⟩ := ih hlines
        · exact .inl hbreak
        · exact .inr ⟨line', List.mem_cons_of_mem _ hline', hc⟩

theorem mem_emptyText_of_mem {lines : List EmptyLine} {line : EmptyLine} (hline : line ∈ lines)
    {c : Char} (hc : c ∈ line.text) : c ∈ emptyText lines := by
  induction lines with
  | nil => cases hline
  | cons first lines ih =>
    rcases lines with - | ⟨next, lines⟩
    · obtain rfl := List.mem_singleton.1 hline
      simpa [emptyText] using hc
    · rw [emptyText_cons_cons, List.mem_append, List.mem_cons]
      obtain rfl | hlines := List.mem_cons.1 hline
      · exact .inl hc
      · exact .inr (.inr (ih hlines))

theorem all_isAllowed_emptyText (lines : List EmptyLine) :
    (emptyText lines).all isAllowed = true := by
  refine List.all_eq_true.2 fun c hc ↦ ?_
  obtain rfl | ⟨line, -, hline⟩ := mem_emptyText hc
  · rfl
  · exact isAllowed_of_isPrintable (EmptyLine.isPrintable_of_mem hline)

/-! ### Tokens -/

namespace Scan

/-- A line without content is passed, up to its end. -/
theorem exists_toNextToken_line (line : EmptyLine) (keyAllowed : Bool) (m : Mark)
    (rest : List Char) : ∃ comment m',
      toNextToken false false keyAllowed m (line.text ++ rest) =
        toNextToken false comment keyAllowed m' rest := by
  obtain ⟨indent, comment?⟩ := line
  rcases comment? with - | ⟨comment, hprintable⟩
  · obtain ⟨m', -, hspaces⟩ := exists_toNextToken_spaces false keyAllowed indent m rest
    exact ⟨false, m', by simpa [EmptyLine.text] using hspaces⟩
  · obtain ⟨m₁, -, hspaces⟩ :=
      exists_toNextToken_spaces false keyAllowed indent m ('#' :: (comment ++ rest))
    have hsign : toNextToken false false keyAllowed m₁ ('#' :: (comment ++ rest)) =
        toNextToken false true keyAllowed (m₁.past '#') (comment ++ rest) :=
      toNextToken_comment rfl rfl false keyAllowed
    have hbody : ∀ c ∈ comment, isBreak c = false := fun c hc ↦
      isBreak_of_isPrintable (List.all_eq_true.1 hprintable c hc)
    obtain ⟨m₂, hcomment⟩ := exists_toNextToken_comment hbody false keyAllowed (m₁.past '#') rest
    refine ⟨true, m₂, ?_⟩
    rw [EmptyLine.text, List.append_assoc]
    exact hspaces.trans (hsign.trans hcomment)

/-- **Lines without content are passed**, up to the end of the text. -/
theorem exists_toNextToken_lines (lines : List EmptyLine) (m : Mark) :
    ∃ m', toNextToken false false true m (emptyText lines) = (true, ⟨m', []⟩) := by
  induction lines generalizing m with
  | nil => exact ⟨m, by rw [emptyText, List.map_nil, List.intercalate_nil, toNextToken]⟩
  | cons line lines ih =>
    rcases lines with - | ⟨next, lines⟩
    · obtain ⟨comment, m', hline⟩ := exists_toNextToken_line line true m []
      refine ⟨m', ?_⟩
      rw [emptyText, List.map_singleton, List.intercalate_singleton, ← List.append_nil line.text,
        hline, toNextToken]
    · obtain ⟨comment, m₁, hline⟩ :=
        exists_toNextToken_line line true m ('\n' :: emptyText (next :: lines))
      obtain ⟨m', hlines⟩ := ih (m₁.nextLine 1)
      refine ⟨m', ?_⟩
      rw [emptyText_cons_cons, hline, toNextToken_break, hlines]

end Scan

/-- Lines without content give no token. -/
theorem Token.exists_ofText_emptyText (lines : List EmptyLine) : ∃ tokens : List Token,
    tokens.map (·.kind) = [.streamStart, .streamEnd] ∧
      Token.ofText (emptyText lines) = (tokens, none) := by
  obtain ⟨m, hpass⟩ := Scan.exists_toNextToken_lines lines .start
  exact Token.exists_ofText_of_gives (all_isAllowed_emptyText lines) (.refl _) hpass (by simp)

/-! ### The document -/

/-- Lines without content give no event. -/
theorem Event.exists_ofText_emptyText (lines : List EmptyLine) : ∃ started ended,
    Event.ofText (emptyText lines) = ([⟨.streamStart, started⟩, ⟨.streamEnd, ended⟩], none) := by
  obtain ⟨tokens, htokens, htext⟩ := Token.exists_ofText_emptyText lines
  obtain ⟨⟨_, started, _⟩, _, rfl, rfl, hlast⟩ := List.map_eq_cons_iff.1 htokens
  obtain ⟨⟨_, ended, _⟩, rfl, rfl⟩ := List.map_eq_singleton_iff.1 hlast
  refine ⟨started, ended, ?_⟩
  rw [Event.ofText, htext]
  rfl

/-- **Lines without content hold no document**: its root is left out, and the text ends there. -/
theorem Document.ofText_emptyText (lines : List EmptyLine) :
    ofText (.ofList (emptyText lines)) = ⟨.scalar .start .empty, [], true⟩ := by
  obtain ⟨started, ended, htext⟩ := Event.exists_ofText_emptyText lines
  rw [ofText, String.toList_ofList, htext]
  rfl

end Hygrometer.Yaml

namespace Hygrometer

open Yaml (EmptyLine emptyText)

namespace Config

/-- Lines without content are a blank text as long as none has a comment. -/
theorem isBlankText_emptyText_iff {lines : List EmptyLine} :
    Text.isBlankText (.ofList (emptyText lines)) = true ↔ ∀ line ∈ lines, line.comment? = none := by
  rw [Text.isBlankText, String.toList_ofList, List.all_eq_true]
  constructor
  · intro hblank line hline
    rcases hcomment : line.comment? with - | comment
    · rfl
    · have hsign : '#' ∈ line.text := by simp [EmptyLine.text, hcomment]
      exact absurd (hblank '#' (Yaml.mem_emptyText_of_mem hline hsign)) (by decide)
  · intro hnone c hc
    obtain rfl | ⟨line, hline, hc⟩ := Yaml.mem_emptyText hc
    · rfl
    · rw [EmptyLine.text, hnone line hline, List.append_nil] at hc
      rw [List.eq_of_mem_replicate hc]
      rfl

/-- A document whose root is left out is read as the defaults. -/
theorem ofDocument_emptyText (lines : List EmptyLine) :
    ofDocument (.ofText (.ofList (emptyText lines))) = .ok {} := by
  rw [Yaml.Document.ofText_emptyText]
  rfl

/-- **A text without content is the defaults**, whether it is blank and not read, or has a comment
and is read. -/
theorem parse_emptyText (lines : List EmptyLine) :
    (Text.isBlankText (.ofList (emptyText lines)) = true ↔
      ∀ line ∈ lines, line.comment? = none) ∧
    ofDocument (.ofText (.ofList (emptyText lines))) = .ok {} ∧
    parse (.ofList (emptyText lines)) = .ok {} := by
  refine ⟨isBlankText_emptyText_iff, ofDocument_emptyText lines, ?_⟩
  cases hblank : Text.isBlankText (.ofList (emptyText lines)) with
  | true => exact parse_of_isBlankText hblank
  | false =>
    exact (parse_eq_ok_iff hblank).2
      ⟨ofDocument_emptyText lines, validate_eq_ok_iff.2 isValid_default⟩

end Config
end Hygrometer
