import Hygrometer.Yaml.Cursor
import Hygrometer.Yaml.Property
import Hygrometer.Yaml.Scalar

/-!
# Scanning a text into tokens

Finding a token passes the blanks and comments before it, closes the block collections that its
column ends, and adds it to those found. What it is shows in its first characters (`Scan.addToken`),
and there is one function for each kind.

A node that may turn out to be a key without an indicator before it is kept as a **candidate**: the
colon behind it, if it comes on the same line and within 1024 octets, inserts the key token in front
of it. So the tokens found wait in a **queue**. They are handed over one by one: the first of the
queue, unless it is a candidate's, and no further token is found before the queue calls for it. When
the text breaks off at a fault, the tokens handed over until then count.

**Columns.** A block collection has no bracket. It opens with a node that stands further to the
right than those around it, and ends with the first token that does not (`Scan.roll`,
`Scan.unroll`). The columns of the open ones are kept, the innermost first. Inside of flow
collections, columns do not matter.

**What may be looked at.** A forbidden character spoils the piece of the text that it stands in, and
only the pieces before it can be read. Where a token starts, four characters are looked at, even if
fewer would decide, and none of them may be in a spoiled piece (`Scan.look`). So such a text is
refused a little before the piece, when a token close to it is found, and not for what stands in it.

## Main definitions

* `Scan` – where the scanning has come to, `Candidate` – a node that may be a key.
* `Scan.find` – find a token, `Scan.handOver` – hand one over, `Scan.round` – one or the other.
* `Token.ofText` – the tokens of a text, and the fault that ended them.
-/

namespace Hygrometer.Yaml

/-- A node that may turn out to be a key. -/
structure Candidate where
  /-- Whether nothing but a key may stand there. -/
  required : Bool
  /-- How many tokens come before it. -/
  number : Nat
  /-- Where it starts. -/
  mark : Mark
deriving DecidableEq, Repr

/-- Where the scanning of a text has come to. -/
structure Scan where
  /-- The text left. -/
  cursor : Cursor
  /-- Whether a spoiled piece of text follows. -/
  spoiled : Bool
  /-- How many tokens were handed over. -/
  given : Nat
  /-- The tokens that were found and not yet handed over. -/
  queue : List Token
  /-- The columns of the open block collections, the innermost first. -/
  columns : List Nat
  /-- The candidate on each level, first that of the innermost open flow collection and last that of
  the block structure. -/
  candidates : List (Option Candidate)
  /-- Whether a key may start here without an indicator. -/
  keyAllowed : Bool
deriving Repr

namespace Scan

/-- The scan at the start of a text that a spoiled piece may follow. -/
def start (text : List Char) (spoiled : Bool) : Scan where
  cursor := ⟨.start, text⟩
  spoiled
  given := 0
  queue := [⟨.streamStart, .start, .start⟩]
  columns := []
  candidates := [none]
  keyAllowed := true

/-- The place reached. -/
def mark (s : Scan) : Mark := s.cursor.mark

/-- Whether a flow collection is open. -/
def inFlow (s : Scan) : Bool := 1 < s.candidates.length

/-- The column of the innermost block collection; negative outside of all. -/
def indent (s : Scan) : Int :=
  match s.columns with
  | [] => -1
  | column :: _ => column

/-! ### Tokens -/

/-- How many tokens were found. -/
def found (s : Scan) : Nat := s.given + s.queue.length

/-- Add a token. -/
def add (s : Scan) (kind : TokenKind) (start stop : Mark) : Scan :=
  { s with queue := s.queue ++ [⟨kind, start, stop⟩] }

/-- Add a token of the next so many characters, and pass them. -/
def addNext (s : Scan) (kind : TokenKind) (length : Nat := 1) : Scan :=
  let cursor := s.cursor.skip length
  { s.add kind s.mark cursor.mark with cursor }

/-- Insert a token without extent behind the first so many found, those handed over among them. -/
def insert (s : Scan) (number : Nat) (kind : TokenKind) (mark : Mark) : Scan :=
  let waiting := number - s.given
  { s with queue := s.queue.take waiting ++ ⟨kind, mark, mark⟩ :: s.queue.drop waiting }

/-! ### Candidates for keys -/

/-- Whether the candidate is too far back to be a key: on an earlier line, or more than 1024 octets
away. -/
def isStale (here : Mark) (c : Candidate) : Bool :=
  c.mark.line < here.line || c.mark.index + 1024 < here.index

/-- Drop the candidates that are too far back. One that had to be a key is a fault. -/
def dropStale (s : Scan) : Except Fault Scan :=
  let stale (c : Option Candidate) : Bool := c.any (isStale s.mark)
  if s.candidates.any fun c ↦ stale c && c.any (·.required) then
    .error .missingColon
  else
    .ok { s with candidates := s.candidates.map fun c ↦ if stale c then none else c }

/-- Drop the innermost candidate. One that had to be a key is a fault. -/
def dropCandidate (s : Scan) : Except Fault Scan :=
  match s.candidates with
  | some ⟨true, _, _⟩ :: _ => .error .missingColon
  | _ :: outer => .ok { s with candidates := none :: outer }
  | [] => .ok s

/-- Make the node that comes next a candidate, if a key may start here. At the column of the block
mapping it stands in, it has to be one. -/
def addCandidate (s : Scan) : Except Fault Scan :=
  if s.keyAllowed then do
    let required := !s.inFlow && s.indent == s.mark.column
    let s ← s.dropCandidate
    pure { s with candidates := some ⟨required, s.found, s.mark⟩ :: s.candidates.drop 1 }
  else
    .ok s

/-- Whether the first token of the queue is a candidate's. -/
def isPending (s : Scan) : Bool := s.candidates.any fun c ↦ c.any (·.number == s.given)

/-! ### Indentation -/

/-- Close the block collections that are further right than a column. -/
def closeDownTo (column : Int) : List Nat → Scan → Scan
  | [], s => { s with columns := [] }
  | c :: outer, s =>
    if column < c then closeDownTo column outer (s.add .blockEnd s.mark s.mark)
    else { s with columns := c :: outer }

/-- Close the block collections that a column ends. Inside of flow collections, no column does. -/
def unroll (s : Scan) (column : Int) : Scan :=
  if s.inFlow then s else closeDownTo column s.columns s

/-- Open a block collection at a column that is further right than the innermost one's, with a token
behind the first `number` tokens. -/
def roll (s : Scan) (column : Nat) (number : Nat) (kind : TokenKind) (mark : Mark) : Scan :=
  if !s.inFlow && s.indent < column then
    { s.insert number kind mark with columns := column :: s.columns }
  else s

/-! ### Blanks and comments -/

/-- Pass blanks, comments and line breaks. A tab may stand only where it does not indent. After a
line break a key may start again, except inside of flow collections. A byte order mark at the start
of a line is passed too. -/
def toNextToken (flow : Bool) : Bool → Bool → Mark → List Char → Bool × Cursor
  | _, keyAllowed, m, [] => (keyAllowed, ⟨m, []⟩)
  | _, keyAllowed, m, '\r' :: '\n' :: cs =>
    toNextToken flow false (keyAllowed || !flow) (m.nextLine 2) cs
  | comment, keyAllowed, m, c :: cs =>
    if isBreak c then toNextToken flow false (keyAllowed || !flow) (m.nextLine c.utf8Size) cs
    else if comment || c == '#' then toNextToken flow true keyAllowed (m.past c) cs
    else if c = ' ' ∨ c = '\t' ∧ (flow ∨ !keyAllowed) ∨ c = '\ufeff' ∧ m.column = 0 then
      toNextToken flow false keyAllowed (m.past c) cs
    else (keyAllowed, ⟨m, c :: cs⟩)

/-- Pass what may stand before a token, drop the candidates that are too far back by then, and close
the block collections that the token's column ends. -/
def approach (s : Scan) : Except Fault Scan := do
  let (keyAllowed, cursor) := toNextToken s.inFlow false s.keyAllowed s.mark s.cursor.rest
  let s ← { s with cursor, keyAllowed }.dropStale
  pure (s.unroll s.mark.column)

/-! ### The kinds of token -/

/-- The end of the text, which starts a line of its own. -/
def addStreamEnd (s : Scan) : Except Fault Scan := do
  let mark := if s.mark.column = 0 then s.mark else s.mark.nextLine 0
  let s := { s with cursor := ⟨mark, []⟩ }.unroll (-1)
  let s ← s.dropCandidate
  pure { s.add .streamEnd mark mark with keyAllowed := false }

/-- A directive. -/
def addDirective (s : Scan) : Except Fault Scan := do
  let s ← (s.unroll (-1)).dropCandidate
  let (kind, stop, cursor) ← Property.readDirective s.cursor.skip
  pure { s.add kind s.mark stop with cursor, keyAllowed := false }

/-- The mark of a document's start or end. -/
def addDocumentMark (s : Scan) (kind : TokenKind) : Except Fault Scan := do
  let s ← (s.unroll (-1)).dropCandidate
  pure ({ s with keyAllowed := false }.addNext kind 3)

/-- The bracket that opens a flow collection. -/
def addFlowStart (s : Scan) (kind : TokenKind) : Except Fault Scan := do
  let s ← s.addCandidate
  pure ({ s with candidates := none :: s.candidates, keyAllowed := true }.addNext kind)

/-- The bracket that closes a flow collection. -/
def addFlowEnd (s : Scan) (kind : TokenKind) : Except Fault Scan := do
  let s ← s.dropCandidate
  let candidates := if s.inFlow then s.candidates.drop 1 else s.candidates
  pure ({ s with candidates, keyAllowed := false }.addNext kind)

/-- A comma. -/
def addFlowEntry (s : Scan) : Except Fault Scan := do
  let s ← s.dropCandidate
  pure ({ s with keyAllowed := true }.addNext .flowEntry)

/-- Open a block collection where its first entry starts, if a key could start there too. -/
def rollHere (s : Scan) (kind : TokenKind) : Except Fault Scan :=
  if s.inFlow then .ok s
  else if s.keyAllowed then .ok (s.roll s.mark.column s.found kind s.mark)
  else .error .misplacedIndicator

/-- A dash. -/
def addBlockEntry (s : Scan) : Except Fault Scan := do
  let s ← (← s.rollHere .blockSequenceStart).dropCandidate
  pure ({ s with keyAllowed := true }.addNext .blockEntry)

/-- A question mark. -/
def addKey (s : Scan) : Except Fault Scan := do
  let s ← (← s.rollHere .blockMappingStart).dropCandidate
  pure ({ s with keyAllowed := !s.inFlow }.addNext .key)

/-- A colon. It makes the candidate, if there is one, a key. -/
def addValue (s : Scan) : Except Fault Scan := do
  match s.candidates with
  | some c :: outer =>
    let s := (s.insert c.number .key c.mark).roll c.mark.column c.number .blockMappingStart c.mark
    pure ({ s with candidates := none :: outer, keyAllowed := false }.addNext .value)
  | _ =>
    let s ← s.rollHere .blockMappingStart
    pure ({ s with keyAllowed := !s.inFlow }.addNext .value)

/-- An alias or an anchor. -/
def addAnchor (s : Scan) (kind : String → TokenKind) : Except Fault Scan := do
  let s ← s.addCandidate
  let (name, cursor) ← Property.readAnchor s.cursor.skip
  pure { s.add (kind name) s.mark cursor.mark with cursor, keyAllowed := false }

/-- A tag. -/
def addTag (s : Scan) : Except Fault Scan := do
  let s ← s.addCandidate
  let (parts, cursor) ← Property.readTag s.inFlow s.cursor.skip
  pure { s.add (.tag parts.handle parts.suffix) s.mark cursor.mark with
    cursor, keyAllowed := false }

/-- A block scalar. -/
def addBlockScalar (s : Scan) (style : Style) : Except Fault Scan := do
  let s ← s.dropCandidate
  let (text, cursor) ← BlockScalar.read (style = .literal) s.indent s.cursor.skip
  pure { s.add (.scalar (.ofList text) style) s.mark cursor.mark with
    cursor, keyAllowed := true }

/-- A quoted scalar. -/
def addQuoted (s : Scan) (style : Style) : Except Fault Scan := do
  let s ← s.addCandidate
  let inside := s.cursor.skip
  let (text, cursor) ←
    if style = .singleQuoted then QuotedScalar.readSingle .none inside.mark inside.rest
    else QuotedScalar.readDouble .none inside.mark inside.rest
  pure { s.add (.scalar (.ofList text) style) s.mark cursor.mark with
    cursor, keyAllowed := false }

/-- A plain scalar. -/
def addPlain (s : Scan) : Except Fault Scan := do
  let s ← s.addCandidate
  let plain ← PlainScalar.read s.inFlow (s.indent + 1).toNat .none s.mark s.mark s.cursor.rest
  pure { s.add (.scalar (.ofList plain.text) .plain) s.mark plain.stop with
    cursor := plain.next, keyAllowed := plain.broken }

/-! ### Rounds -/

/-- Whether the character announces something else than a plain scalar. -/
def isIndicator (c : Char) : Bool :=
  ['-', '?', ':', ',', '[', ']', '\x7b', '\x7d', '#', '&', '*', '!', '|', '>', '\'', '"', '%', '@',
    '\x60'].contains c

/-- Whether a plain scalar starts here. A dash may start one, unless a blank follows; so may,
outside of flow collections, a question mark or a colon, unless the word ends. -/
def startsPlain (flow : Bool) : List Char → Bool
  | c :: cs =>
    !(isIndicator c || atWordEnd (c :: cs)) || (c == '-' && !cs.head?.any isBlank) ||
      (!flow && (c == '?' || c == ':') && !atWordEnd cs)
  | [] => false

/-- Add the token that starts here. -/
def addToken (s : Scan) : Except Fault Scan :=
  match s.cursor.rest with
  | [] => s.addStreamEnd
  | c :: cs =>
    let lineStart := s.mark.column = 0
    if lineStart ∧ c = '%' then s.addDirective
    else if lineStart ∧ startsTriple '-' (c :: cs) then s.addDocumentMark .documentStart
    else if lineStart ∧ startsTriple '.' (c :: cs) then s.addDocumentMark .documentEnd
    else if c = '[' then s.addFlowStart .flowSequenceStart
    else if c = '\x7b' then s.addFlowStart .flowMappingStart
    else if c = ']' then s.addFlowEnd .flowSequenceEnd
    else if c = '\x7d' then s.addFlowEnd .flowMappingEnd
    else if c = ',' then s.addFlowEntry
    else if c = '-' ∧ atWordEnd cs then s.addBlockEntry
    else if c = '?' ∧ (s.inFlow ∨ atWordEnd cs) then s.addKey
    else if c = ':' ∧ (s.inFlow ∨ atWordEnd cs) then s.addValue
    else if c = '*' then s.addAnchor .alias
    else if c = '&' then s.addAnchor .anchor
    else if c = '!' then s.addTag
    else if c = '|' ∧ !s.inFlow then s.addBlockScalar .literal
    else if c = '>' ∧ !s.inFlow then s.addBlockScalar .folded
    else if c = '\'' then s.addQuoted .singleQuoted
    else if c = '"' then s.addQuoted .doubleQuoted
    else if startsPlain s.inFlow (c :: cs) then s.addPlain
    else .error .unknownToken

/-- Whether so many characters can be looked at. Behind the last character the end of the text is
seen, but not a spoiled piece. -/
def look (s : Scan) (n : Nat) : Except Fault Unit :=
  if s.spoiled ∧ (s.cursor.rest.take n).length < n then .error .forbiddenCharacter else .ok ()

/-- Find a token. Where it starts, four characters are looked at, and one where it ends. -/
def find (s : Scan) : Except Fault Scan := do
  let s ← s.approach
  s.look 4
  let s ← s.addToken
  s.look 1
  pure s

/-! ### Handing over -/

/-- Hand over the first token of the queue, unless it is a candidate's. -/
def handOver (s : Scan) : Except Fault (Option Token × Scan) :=
  match s.queue with
  | [] => .ok (none, s)
  | token :: queue => do
    let s ← s.dropStale
    pure (if s.isPending then (none, s) else (some token, { s with given := s.given + 1, queue }))

/-- A round: hand over a token, or find one if none can be handed over. -/
def round (s : Scan) : Except Fault (Option Token × Scan) := do
  match ← s.handOver with
  | (some token, s) => pure (some token, s)
  | (none, s) => pure (none, ← s.find)

/-- The tokens handed over up to the end of the text or to a fault, and the fault if there was
one. -/
def finish : Nat → Scan → List Token × Option Fault
  | 0, _ => ([], none)
  | fuel + 1, s =>
    match s.round with
    | .error fault => ([], some fault)
    | .ok (none, s) => finish fuel s
    | .ok (some token, s) =>
      if token.kind = .streamEnd then ([token], none)
      else
        let (tokens, fault) := finish fuel s
        (token :: tokens, fault)

end Scan

/-- The tokens of a text, and the fault that ended them if there was one. Finding a token passes a
character, or ends the text, and adds four tokens at most, so six rounds a character are enough. -/
def Token.ofText (text : List Char) : List Token × Option Fault :=
  let front := readable text
  (Scan.start front (front.length < text.length)).finish (6 * front.length + 12)

end Hygrometer.Yaml
