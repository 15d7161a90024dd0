import Hygrometer.Text.Basic
import Hygrometer.Yaml.Token

/-!
# Anchors, tags and directives

The tokens that say something about a node or about a whole document. Each reader starts behind the
character that announces it.

**Tags are octets.** A tag may escape any octet by a percent sign and two hexadecimal digits, and
the escaped octets of a character have to follow each other in full (`readTagText`). What is put
together from a handle and the rest of a tag is a list of octets, and need not be UTF-8.

**Handles.** A tag starts with a handle, which a directive may declare: `!`, `!!`, or a word between
two of these marks. A first word that no second mark follows is no handle but belongs to the tag,
and its handle is the single mark (`readShorthand`). A verbatim tag has no handle at all.

**Directives** fill a line. The version is two numbers, and a handle is declared with the text that
it stands for. There are no others: any other name is refused.
-/

namespace Hygrometer.Yaml.Property

open Text (hexValue? isDigit natOfDecimal)

/-! ### Anchors -/

/-- Whether the name of an anchor may end here: a blank, a line break, an indicator that cannot
belong to it, or the end of the text. -/
def endsAnchor (cs : List Char) : Bool :=
  atWordEnd cs || cs.head?.any (['?', ':', ',', ']', '\x7d', '%', '@', '\x60'].contains ·)

/-- Read the name of an anchor or an alias. -/
def readAnchor (c : Cursor) : Except Fault (String × Cursor) :=
  let (name, c) := c.takeWhile isWordChar
  if name ≠ [] ∧ endsAnchor c.rest then .ok (.ofList name, c) else .error .badAnchor

/-! ### Tags -/

/-- Read the rest of a handle from behind its first `!`: word characters and, if it is there, a
second `!`. -/
def readHandle (c : Cursor) : List Char × Cursor :=
  let (word, c) := c.takeWhile isWordChar
  match c.rest with
  | '!' :: _ => ('!' :: word ++ ['!'], c.skip)
  | _ => ('!' :: word, c)

/-- Whether a tag may hold the character as it is. The verbatim form, and the expansion of a handle,
may hold flow indicators too. -/
def isTagChar (verbatim : Bool) (c : Char) : Bool :=
  isWordChar c || [';', '/', '?', ':', '@', '&', '=', '+', '$', '.', '!', '~', '*', '\'', '(',
    ')'].contains c || (verbatim && [',', '[', ']'].contains c)

/-- The octet that two hexadecimal digits denote. -/
def octet? (a b : Char) : Option Nat := do pure (16 * (← hexValue? a) + (← hexValue? b))

/-- How many octets a character has in UTF-8 whose first is this one. -/
def octetCount? (octet : Nat) : Option Nat :=
  if octet < 0x80 then some 1
  else if octet / 32 = 6 then some 2
  else if octet / 16 = 14 then some 3
  else if octet / 8 = 30 then some 4
  else none

/-- Read the characters of a tag, `pending` octets of a character being due. An octet that is
escaped follows a percent sign, and the octets of a character follow each other. -/
def readTagText (verbatim : Bool) : Nat → Mark → List Char → Except Fault (Tag × Cursor)
  | pending, m, '%' :: a :: b :: cs =>
    match octet? a b with
    | none => .error .badTag
    | some octet =>
      let left :=
        if pending = 0 then (octetCount? octet).map (· - 1)
        else if octet / 64 = 2 then some (pending - 1)
        else none
      match left with
      | none => .error .badTag
      | some left => (readTagText verbatim left (m.advance 3) cs).map fun (tag, c) ↦
          (.ofNat octet :: tag, c)
  | pending, m, c :: cs =>
    if c = '%' then .error .badTag
    else if pending ≠ 0 then .error .badTag
    else if isTagChar verbatim c then
      (readTagText verbatim 0 (m.past c) cs).map fun (tag, cursor) ↦
        (.ofNat c.toNat :: tag, cursor)
    else .ok ([], ⟨m, c :: cs⟩)
  | pending, m, [] => if pending = 0 then .ok ([], ⟨m, []⟩) else .error .badTag

/-- What counts of a tag: an escaped NUL ends it. -/
def untilNul (tag : Tag) : Tag := tag.takeWhile (· != 0)

/-- A handle and the rest of a tag. -/
structure TagParts where
  /-- The handle, empty for a verbatim tag. -/
  handle : String
  /-- What follows the handle. -/
  suffix : Tag

/-- Read a verbatim tag from behind `!<`. -/
def readVerbatim (c : Cursor) : Except Fault (TagParts × Cursor) := do
  let (tag, c) ← readTagText true 0 c.mark c.rest
  match tag, c.rest with
  | _ :: _, '>' :: _ => pure (⟨"", untilNul tag⟩, c.skip)
  | _, _ => throw .badTag

/-- Read a tag that starts with a handle. A first word without a second `!` is no handle but belongs
to a tag with the handle `!`; with nothing behind it, the tag is `!` itself. -/
def readShorthand (c : Cursor) : Except Fault (TagParts × Cursor) := do
  let (handle, c) := readHandle c
  if 1 < handle.length ∧ handle.getLast? = some '!' then
    let (suffix, c) ← readTagText false 0 c.mark c.rest
    if suffix.isEmpty then throw .badTag
    pure (⟨.ofList handle, untilNul suffix⟩, c)
  else
    let (rest, c) ← readTagText false 0 c.mark c.rest
    let suffix := untilNul (octets (.ofList (handle.drop 1)) ++ rest)
    pure (if suffix.isEmpty then ⟨"", octets "!"⟩ else ⟨"!", suffix⟩, c)

/-- Read a tag from behind its `!`. A blank or line break ends it, and in a flow collection a comma
does too. -/
def readTag (flow : Bool) (c : Cursor) : Except Fault (TagParts × Cursor) := do
  let (parts, c) ←
    match c.rest with
    | '<' :: _ => readVerbatim c.skip
    | _ => readShorthand c
  if atWordEnd c.rest ∨ flow ∧ c.rest.head? = some ',' then pure (parts, c) else throw .badTag

/-! ### Directives -/

/-- Read a number of at most nine digits. -/
def readVersionNumber (c : Cursor) : Except Fault (Nat × Cursor) :=
  let (digits, c) := c.takeWhile isDigit
  if digits ≠ [] ∧ digits.length ≤ 9 then .ok (natOfDecimal digits, c) else .error .badDirective

/-- Read the value of a version directive. -/
def readVersion (c : Cursor) : Except Fault (TokenKind × Cursor) := do
  let (major, c) ← readVersionNumber c.skipBlanks
  if c.rest.head? ≠ some '.' then throw .badDirective
  let (minor, c) ← readVersionNumber c.skip
  pure (.version major minor, c)

/-- Read the value of a directive that declares a handle. -/
def readHandleDirective (c : Cursor) : Except Fault (TokenKind × Cursor) := do
  let c := c.skipBlanks
  if c.rest.head? ≠ some '!' then throw .badDirective
  let (handle, c) := readHandle c.skip
  if handle ≠ ['!'] ∧ handle.getLast? ≠ some '!' then throw .badDirective
  if !c.rest.head?.any isBlank then throw .badDirective
  let c := c.skipBlanks
  let (expansion, c) ← readTagText true 0 c.mark c.rest
  if expansion.isEmpty ∨ !atWordEnd c.rest then throw .badDirective
  pure (.handle (.ofList handle) (untilNul expansion), c)

/-- Read a directive from behind its percent sign to the end of its line. -/
def readDirective (c : Cursor) : Except Fault (TokenKind × Mark × Cursor) := do
  let (name, c) := c.takeWhile isWordChar
  if !atWordEnd c.rest then throw .badDirective
  let (kind, c) ←
    match String.ofList name with
    | "YAML" => readVersion c
    | "TAG" => readHandleDirective c
    | _ => throw .badDirective
  let stop := c.mark
  let c := c.skipBlanks
  let c := if c.rest.head? = some '#' then c.skipToLineEnd else c
  if atLineEnd c.rest then pure (kind, stop, c.takeBreak.2) else throw .badDirective

end Hygrometer.Yaml.Property
