import Hygrometer.Text.Basic
import Hygrometer.Yaml.Token

/-!
# YAML scalars

How scalars are read, in each of the three ways they may be written.

* A **plain** scalar runs until a colon with a space behind it, a comment, the mark of a document, a
  line that is indented too little or, in a flow collection, an indicator of the collection.
* A **quoted** scalar ends with its quote. Between single quotes, a quote is written twice. Between
  double quotes, a backslash starts an escape, and joins lines at the end of one.
* A **block** scalar has a header, and then the lines that are indented enough. A literal one keeps
  its lines. A folded one joins two of them by a space, unless one starts with a blank or empty
  lines lie between. The header says what happens to the line breaks at the end, and may fix the
  indentation.

Plain and quoted scalars may span lines. The blanks and breaks between two of their words are a
**gap**: blanks within a line count as they are; around a line break they do not count, a single
break counts as a space, and of several breaks all but the first count.
-/

namespace Hygrometer.Yaml

/-! ### Gaps -/

/-- The blanks and breaks since the last word. -/
inductive Gap where
  /-- Blanks within the line. -/
  | blanks (cs : List Char)
  /-- A first break, and the breaks after it. -/
  | breaks (lead more : List Char)
deriving DecidableEq

namespace Gap

/-- No gap. -/
def none : Gap := blanks []

/-- Whether there is nothing in the gap. -/
def isNone : Gap → Bool
  | blanks cs => cs.isEmpty
  | breaks _ _ => false

/-- Whether the gap reaches another line. -/
def isBroken : Gap → Bool
  | blanks _ => false
  | breaks _ _ => true

/-- Add a blank; behind a break it does not count. -/
def addBlank (gap : Gap) (c : Char) : Gap :=
  match gap with
  | blanks cs => blanks (cs ++ [c])
  | breaks lead more => breaks lead more

/-- Add a line break, given as what it counts as. -/
def addBreak (gap : Gap) (text : List Char) : Gap :=
  match gap with
  | blanks _ => breaks text []
  | breaks lead more => breaks lead (more ++ text)

/-- What the gap counts as between two words. A first break other than a line feed counts itself,
and one that was escaped is empty and counts nothing. -/
def text : Gap → List Char
  | blanks cs => cs
  | breaks lead more =>
    if lead = ['\n'] then (if more.isEmpty then [' '] else more) else lead ++ more

end Gap

/-! ### Plain scalars -/

/-- What a plain scalar was found to be. -/
structure PlainScalar where
  /-- Its text, lines folded. -/
  text : List Char
  /-- Where its last word ends. -/
  stop : Mark
  /-- Whether line breaks follow it. -/
  broken : Bool
  /-- The cursor behind the gap that follows it. -/
  next : Cursor

namespace PlainScalar

/-- Whether the character is an indicator of flow collections. -/
def isFlowIndicator (c : Char) : Bool :=
  c == ',' || c == '[' || c == ']' || c == '\x7b' || c == '\x7d'

/-- The scalar with more text in front. -/
def prepend (front : List Char) (s : PlainScalar) : PlainScalar :=
  { s with text := front ++ s.text }

/-- Read the rest of a plain scalar, behind a gap and with its last word ended at `stop`. Its lines
are indented by `indent` at least, unless it stands in a flow collection. -/
def read (flow : Bool) (indent : Nat) :
    Gap → Mark → Mark → List Char → Except Fault PlainScalar
  | gap, stop, m, [] => .ok ⟨[], stop, gap.isBroken, ⟨m, []⟩⟩
  | gap, stop, m, '\r' :: '\n' :: cs =>
    read flow indent (gap.addBreak ['\n']) stop (m.nextLine 2) cs
  | gap, stop, m, c :: cs =>
    let finish : Except Fault PlainScalar := .ok ⟨[], stop, gap.isBroken, ⟨m, c :: cs⟩⟩
    if isBlank c then
      if gap.isBroken ∧ m.column < indent ∧ c = '\t' then .error .tabIndentation
      else read flow indent (gap.addBlank c) stop (m.past c) cs
    else if isBreak c then
      read flow indent (gap.addBreak (breakText c)) stop (m.nextLine c.utf8Size) cs
    else if !gap.isNone ∧ (!flow ∧ m.column < indent ∨
        m.column = 0 ∧ startsDocumentMark (c :: cs) ∨ c = '#') then
      finish
    else if flow ∧ c = ':' ∧ (cs.head?.any fun d ↦ isFlowIndicator d || d == '?') then
      .error .tightColon
    else if c = ':' ∧ atWordEnd cs ∨ flow ∧ isFlowIndicator c then
      finish
    else
      (read flow indent .none (m.past c) (m.past c) cs).map (prepend (gap.text ++ [c]))

end PlainScalar
end Hygrometer.Yaml

namespace Hygrometer.Yaml.QuotedScalar

/-! ### Quoted scalars -/

open Text (natOfDigits?)

/-- The character that a one-letter escape stands for. -/
def escape? (c : Char) : Option Char :=
  match c with
  | '0' => some '\x00'
  | 'a' => some '\x07'
  | 'b' => some '\x08'
  | 't' => some '\t'
  | '\t' => some '\t'
  | 'n' => some '\n'
  | 'v' => some '\x0b'
  | 'f' => some '\x0c'
  | 'r' => some '\r'
  | 'e' => some '\x1b'
  | ' ' => some ' '
  | '"' => some '"'
  | '/' => some '/'
  | '\\' => some '\\'
  | 'N' => some '\u0085'
  | '_' => some '\u00a0'
  | 'L' => some '\u2028'
  | 'P' => some '\u2029'
  | _ => none

/-- The character with a code in hexadecimal digits, if there is one. -/
def coded? (digits : List Char) : Option Char := do
  let n ← natOfDigits? 16 digits
  if n.isValidChar then some (.ofNat n) else none

/-- What a quoted scalar was found to be: its text and the cursor behind its closing quote. -/
abbrev Found := List Char × Cursor

/-- The scalar with more text in front. -/
def prepend (front : List Char) (found : Found) : Found := (front ++ found.1, found.2)

/-- Read the rest of a scalar between single quotes, behind a gap. -/
def readSingle : Gap → Mark → List Char → Except Fault Found
  | _, _, [] => .error .unclosedQuote
  | gap, m, '\r' :: '\n' :: cs => readSingle (gap.addBreak ['\n']) (m.nextLine 2) cs
  | gap, m, '\'' :: '\'' :: cs =>
    (readSingle .none (m.advance 2) cs).map (prepend (gap.text ++ ['\'']))
  | gap, m, c :: cs =>
    if isBlank c then readSingle (gap.addBlank c) (m.past c) cs
    else if isBreak c then readSingle (gap.addBreak (breakText c)) (m.nextLine c.utf8Size) cs
    else if m.column = 0 ∧ startsDocumentMark (c :: cs) then .error .unclosedQuote
    else if c = '\'' then .ok (gap.text, ⟨m.past c, cs⟩)
    else (readSingle .none (m.past c) cs).map (prepend (gap.text ++ [c]))

/-- Read the rest of a scalar between double quotes, behind a gap. -/
def readDouble : Gap → Mark → List Char → Except Fault Found
  | _, _, [] => .error .unclosedQuote
  | gap, m, '\r' :: '\n' :: cs => readDouble (gap.addBreak ['\n']) (m.nextLine 2) cs
  | gap, m, '\\' :: '\r' :: '\n' :: cs =>
    (readDouble (.breaks [] []) (m.advance.nextLine 2) cs).map (prepend gap.text)
  | gap, m, '\\' :: 'x' :: a :: b :: cs =>
    match coded? [a, b] with
    | some c => (readDouble .none (m.advance 4) cs).map (prepend (gap.text ++ [c]))
    | none => .error .badEscape
  | gap, m, '\\' :: 'u' :: a :: b :: c :: d :: cs =>
    match coded? [a, b, c, d] with
    | some c => (readDouble .none (m.advance 6) cs).map (prepend (gap.text ++ [c]))
    | none => .error .badEscape
  | gap, m, '\\' :: 'U' :: a :: b :: c :: d :: e :: f :: g :: h :: cs =>
    match coded? [a, b, c, d, e, f, g, h] with
    | some c => (readDouble .none (m.advance 10) cs).map (prepend (gap.text ++ [c]))
    | none => .error .badEscape
  | gap, m, '\\' :: c :: cs =>
    if isBreak c then
      (readDouble (.breaks [] []) (m.advance.nextLine c.utf8Size) cs).map (prepend gap.text)
    else
      match escape? c with
      | some c => (readDouble .none (m.advance 2) cs).map (prepend (gap.text ++ [c]))
      | none => .error .badEscape
  | gap, m, c :: cs =>
    if isBlank c then readDouble (gap.addBlank c) (m.past c) cs
    else if isBreak c then readDouble (gap.addBreak (breakText c)) (m.nextLine c.utf8Size) cs
    else if m.column = 0 ∧ startsDocumentMark (c :: cs) then .error .unclosedQuote
    else if c = '"' then .ok (gap.text, ⟨m.past c, cs⟩)
    else if c = '\\' then .error .unclosedQuote
    else (readDouble .none (m.past c) cs).map (prepend (gap.text ++ [c]))

end Hygrometer.Yaml.QuotedScalar

namespace Hygrometer.Yaml.BlockScalar

/-! ### Block scalars -/

open Text (natOfDecimal)

/-- What becomes of the line breaks at the end. -/
inductive Chomping where
  /-- All go. -/
  | strip
  /-- One stays. -/
  | clip
  /-- All stay. -/
  | keep
deriving DecidableEq

/-- The header of a block scalar. -/
structure Header where
  /-- What becomes of the line breaks at the end. -/
  chomping : Chomping
  /-- The indentation beyond that of the surroundings, if it is given. -/
  increment : Option Nat
deriving DecidableEq

/-- The chomping that an indicator stands for. -/
def chomping? : Char → Option Chomping
  | '+' => some .keep
  | '-' => some .strip
  | _ => none

/-- Take an indentation digit, which must not be zero. -/
def takeIncrement (c : Cursor) : Except Fault (Option Nat × Cursor) :=
  match c.rest with
  | d :: _ =>
    if d = '0' then .error .badBlockHeader
    else if Text.isDigit d then .ok (some (natOfDecimal [d]), c.skip)
    else .ok (none, c)
  | [] => .ok (none, c)

/-- Take a chomping indicator. -/
def takeChomping (c : Cursor) : Option Chomping × Cursor :=
  match c.rest.head?.bind chomping? with
  | some chomping => (some chomping, c.skip)
  | none => (none, c)

/-- Take both indicators, in either order. -/
def takeIndicators (c : Cursor) : Except Fault (Header × Cursor) := do
  let (chomping, c) := takeChomping c
  let (increment, c) ← takeIncrement c
  let (chomping, c) :=
    match chomping, increment with
    | none, some _ => takeChomping c
    | _, _ => (chomping, c)
  pure (⟨chomping.getD .clip, increment⟩, c)

/-- Read a header from behind its indicator to the end of its line. -/
def readHeader (c : Cursor) : Except Fault (Header × Cursor) := do
  let (header, c) ← takeIndicators c
  let c := c.skipBlanks
  let c := if c.rest.head? = some '#' then c.skipToLineEnd else c
  if atLineEnd c.rest then pure (header, c.takeBreak.2) else throw .badBlockHeader

/-- The empty lines before a line of the scalar. -/
structure Breaks where
  /-- What their line breaks count as. -/
  text : List Char
  /-- The widest indentation seen. -/
  widest : Nat
  /-- The cursor behind them and behind the indentation of the next line. -/
  next : Cursor

/-- Pass empty lines, and the indentation of the line after them. Without a known indentation all
spaces are passed; with one, so many at most. No tab may stand in the indentation. -/
def readBreaks (indent : Option Nat) : Nat → Mark → List Char → Except Fault Breaks
  | widest, m, [] => .ok ⟨[], max widest m.column, ⟨m, []⟩⟩
  | widest, m, '\r' :: '\n' :: cs => do
    let breaks ← readBreaks indent (max widest m.column) (m.nextLine 2) cs
    pure { breaks with text := '\n' :: breaks.text }
  | widest, m, c :: cs =>
    let indenting := indent.all (m.column < ·)
    if indenting ∧ c = ' ' then readBreaks indent widest (m.past c) cs
    else if indenting ∧ c = '\t' then .error .tabIndentation
    else if isBreak c then do
      let breaks ← readBreaks indent (max widest m.column) (m.nextLine c.utf8Size) cs
      pure { breaks with text := breakText c ++ breaks.text }
    else .ok ⟨[], max widest m.column, ⟨m, c :: cs⟩⟩

/-- The text of the lines, the line break behind the last of them, and the empty lines at the
end. -/
structure Lines where
  /-- The text of the lines, without the breaks at the end. -/
  text : List Char
  /-- The line break behind the last line. -/
  lead : List Char
  /-- The empty lines that follow. -/
  trailing : List Char
  /-- The cursor behind them. -/
  next : Cursor

/-- What stands between two lines: the break behind the first and the empty lines after it. -/
def join (literal : Bool) (lead trailing : List Char) (blankBefore blankAfter : Bool) : List Char :=
  if !literal ∧ lead = ['\n'] ∧ !blankBefore ∧ !blankAfter then
    if trailing.isEmpty then [' '] else trailing
  else
    lead ++ trailing

/-- Read the lines that are indented by `indent`, behind one that ended in `lead` and started with a
blank or not, and behind empty lines. Every line passes a character, so as many rounds are
enough. -/
def readLines (literal : Bool) (indent : Nat) :
    Nat → List Char → Bool → Breaks → Except Fault Lines
  | 0, lead, _, before => .ok ⟨[], lead, before.text, before.next⟩
  | fuel + 1, lead, blankBefore, before =>
    match before.next.rest with
    | [] => .ok ⟨[], lead, before.text, before.next⟩
    | c :: _ =>
      if before.next.mark.column = indent then do
        let blankAfter := isBlank c
        let front := join literal lead before.text blankBefore blankAfter
        let (line, cursor) := before.next.takeWhile (!isBreak ·)
        let (newLead, cursor) := cursor.takeBreak
        let breaks ← readBreaks (some indent) 0 cursor.mark cursor.rest
        let lines ← readLines literal indent fuel newLead blankAfter breaks
        pure { lines with text := front ++ line ++ lines.text }
      else
        .ok ⟨[], lead, before.text, before.next⟩

/-- Read a block scalar from behind its indicator, in surroundings that are indented by `parent`,
which is negative at the top. Without a given indentation, the widest of the leading empty lines and
the first line counts, but at least one more than the surroundings. -/
def read (literal : Bool) (parent : Int) (c : Cursor) : Except Fault (List Char × Cursor) := do
  let (header, c) ← readHeader c
  let given := header.increment.map (parent.toNat + ·)
  let before ← readBreaks given 0 c.mark c.rest
  let indent := given.getD (max before.widest (max (parent + 1).toNat 1))
  let lines ← readLines literal indent (before.next.rest.length + 1) [] false before
  let ending :=
    match header.chomping with
    | .strip => []
    | .clip => lines.lead
    | .keep => lines.lead ++ lines.trailing
  pure (lines.text ++ ending, lines.next)

end Hygrometer.Yaml.BlockScalar
