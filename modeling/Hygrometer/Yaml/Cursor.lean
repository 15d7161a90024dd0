/-!
# Places in a YAML text

A **mark** is a place in the text. Columns are counted in characters, and the distance from the
start in octets of UTF-8, since a key's length is limited in octets. A **cursor** is a mark with the
text that is left there. Five characters break a line; a carriage return and a line feed together
break it once.

A text is taken piece by piece. A forbidden character spoils the whole piece that it stands in, so
that nothing of that piece can be read; the pieces before it can. A text of one piece is readable
only if all of it is.

## Main definitions

* `Mark` and `Cursor` – a place, and a place with the text left there.
* `pieces`, `readable` – a text in pieces, and what of it can be read.

## Main statements

* `readable_isPrefix` – what can be read is a front part.
* `readable_of_all` – a text without forbidden characters can be read whole.
-/

namespace Hygrometer.Yaml

/-- A place in a text: the octets before it, the lines before it, and the characters before it in
its line. -/
structure Mark where
  /-- How many octets come before. -/
  index : Nat
  /-- How many lines come before. -/
  line : Nat
  /-- How many characters of the line come before. -/
  column : Nat
deriving DecidableEq, Repr, Inhabited

namespace Mark

/-- The start of a text. -/
def start : Mark := ⟨0, 0, 0⟩

/-- The mark behind a character of the line. -/
def past (m : Mark) (c : Char) : Mark := ⟨m.index + c.utf8Size, m.line, m.column + 1⟩

/-- The mark behind so many ASCII characters of the line. -/
def advance (m : Mark) (n : Nat := 1) : Mark := ⟨m.index + n, m.line, m.column + n⟩

/-- The mark behind a line break of so many octets. -/
def nextLine (m : Mark) (octets : Nat) : Mark := ⟨m.index + octets, m.line + 1, 0⟩

end Mark

/-! ### Classes of characters -/

/-- Whether a text may hold the character at all: controls but tab and line breaks are out, and so
are the code points that are no characters at the end of the basic plane. -/
def isAllowed (c : Char) : Bool :=
  let n := c.toNat
  n == 0x09 || n == 0x0A || n == 0x0D || (0x20 ≤ n && n ≤ 0x7E) || n == 0x85 ||
    (0xA0 ≤ n && n ≤ 0xFFFD) || 0x10000 ≤ n

/-- Whether the character breaks a line. -/
def isBreak (c : Char) : Bool :=
  c == '\r' || c == '\n' || c == '\u0085' || c == '\u2028' || c == '\u2029'

/-- Whether the character is a space or a tab. -/
def isBlank (c : Char) : Bool := c == ' ' || c == '\t'

/-- Whether the character may stand in the name of an anchor, a handle or a directive. -/
def isWordChar (c : Char) : Bool :=
  ('0' ≤ c && c ≤ '9') || ('A' ≤ c && c ≤ 'Z') || ('a' ≤ c && c ≤ 'z') || c == '_' || c == '-'

/-- Whether a line break or the end of the text comes next. -/
def atLineEnd : List Char → Bool
  | [] => true
  | c :: _ => isBreak c

/-- Whether a blank, a line break or the end of the text comes next. -/
def atWordEnd : List Char → Bool
  | [] => true
  | c :: _ => isBlank c || isBreak c

/-- What a character that breaks a line counts as in a scalar: the usual breaks count as a line
feed, and the two separators as themselves. -/
def breakText (c : Char) : List Char :=
  if c = '\u2028' ∨ c = '\u2029' then [c] else ['\n']

/-- Whether a text starts with three times the given character and a word ends there: the mark of a
document's start or end. -/
def startsTriple (c : Char) : List Char → Bool
  | a :: b :: d :: rest => a == c && b == c && d == c && atWordEnd rest
  | _ => false

/-- Whether a text starts with the mark of a document's start or end. -/
def startsDocumentMark (cs : List Char) : Bool := startsTriple '-' cs || startsTriple '.' cs

/-! ### Cursors -/

/-- A place in a text and the text left there. -/
structure Cursor where
  /-- The place. -/
  mark : Mark
  /-- The text left. -/
  rest : List Char
deriving Repr, Inhabited

namespace Cursor

/-- Pass characters of one line. -/
def skip (c : Cursor) (n : Nat := 1) : Cursor :=
  ⟨(c.rest.take n).foldl Mark.past c.mark, c.rest.drop n⟩

/-- Pass the characters of one line that have a property: those, and the cursor behind them. -/
def takeWhile (c : Cursor) (p : Char → Bool) : List Char × Cursor :=
  let taken := c.rest.takeWhile p
  (taken, c.skip taken.length)

/-- Pass the blanks that come next. -/
def skipBlanks (c : Cursor) : Cursor := (c.takeWhile isBlank).2

/-- Pass everything up to the end of the line. -/
def skipToLineEnd (c : Cursor) : Cursor := (c.takeWhile (!isBreak ·)).2

/-- Pass a line break, if one comes next: what it counts as in a scalar, and the cursor behind. -/
def takeBreak (c : Cursor) : List Char × Cursor :=
  match c.rest with
  | '\r' :: '\n' :: cs => (['\n'], ⟨c.mark.nextLine 2, cs⟩)
  | b :: cs => if isBreak b then (breakText b, ⟨c.mark.nextLine b.utf8Size, cs⟩) else ([], c)
  | [] => ([], c)

end Cursor

/-! ### Pieces -/

/-- How many octets a piece may have. -/
def pieceSize : Nat := 16384

/-- A text in pieces of whole characters, each as long as its octets allow. The first piece has
`room` octets left. -/
def pieces : Nat → List Char → List (List Char)
  | _, [] => []
  | room, c :: cs =>
    if c.utf8Size ≤ room then
      match pieces (room - c.utf8Size) cs with
      | piece :: later => (c :: piece) :: later
      | [] => [[c]]
    else
      match pieces (pieceSize - c.utf8Size) cs with
      | piece :: later => [] :: (c :: piece) :: later
      | [] => [[], [c]]

/-- Cutting a text into pieces loses nothing. -/
theorem flatten_pieces (room : Nat) (text : List Char) : (pieces room text).flatten = text := by
  induction text generalizing room with
  | nil => simp [pieces]
  | cons c cs ih =>
    have whole (n : Nat) : (pieces n cs).flatten = cs := ih n
    unfold pieces
    split
    · have h := whole (room - c.utf8Size)
      split <;> simp_all
    · have h := whole (pieceSize - c.utf8Size)
      split <;> simp_all

/-- The pieces of a text in front of the first spoiled one. -/
def readable (text : List Char) : List Char :=
  ((pieces pieceSize text).takeWhile (·.all isAllowed)).flatten

/-- What can be read of a text is a front part of it. -/
theorem readable_isPrefix (text : List Char) : readable text <+: text := by
  refine ⟨((pieces pieceSize text).dropWhile (·.all isAllowed)).flatten, ?_⟩
  rw [readable, ← List.flatten_append, List.takeWhile_append_dropWhile, flatten_pieces]

/-- A text without forbidden characters can be read whole. -/
theorem readable_of_all {text : List Char} (h : text.all isAllowed) : readable text = text := by
  have whole : (pieces pieceSize text).all (·.all isAllowed) := by
    rw [← List.all_flatten, flatten_pieces, h]
  rw [readable, ← List.append_nil (pieces pieceSize text),
    List.takeWhile_append_of_pos (List.all_eq_true.1 whole), List.takeWhile_nil, List.append_nil,
    flatten_pieces]

end Hygrometer.Yaml
