import Hygrometer.Yaml.Cursor

/-!
# YAML tokens

The words that a YAML text is made of, each with its place, and the faults for which a text has
none. Indentation shows as tokens too: a block collection starts and ends with one.

A fault says why a text cannot be read as YAML, whatever it is read for.

## Main definitions

* `Fault` – why a text is no YAML.
* `TokenKind` – the kinds of token, and `Token` – a token at its place.
-/

namespace Hygrometer.Yaml

/-! ### Faults -/

/-- Why a text is no YAML. -/
inductive Fault where
  /-- The text holds a character that no YAML text may hold. -/
  | forbiddenCharacter
  /-- A directive is unknown, malformed or repeated. -/
  | badDirective
  /-- The text is for another version of YAML. -/
  | otherVersion
  /-- The name of an anchor or alias is malformed. -/
  | badAnchor
  /-- A tag is malformed. -/
  | badTag
  /-- A tag's handle is not declared. -/
  | unknownHandle
  /-- An escape in a quoted scalar is unknown or denotes no character. -/
  | badEscape
  /-- A quoted scalar is not closed before the text or the document ends. -/
  | unclosedQuote
  /-- The header of a block scalar is malformed. -/
  | badBlockHeader
  /-- A tab stands where only spaces may indent. -/
  | tabIndentation
  /-- A colon in a flow collection has no space behind it. -/
  | tightColon
  /-- A key has no colon behind it. -/
  | missingColon
  /-- An indicator of block structure stands where none may. -/
  | misplacedIndicator
  /-- No token starts with this character. -/
  | unknownToken
  /-- A token stands where the grammar has no place for it. -/
  | unexpectedToken
  /-- An alias refers to no anchor before it. -/
  | unknownAnchor
  /-- The tokens ran out. -/
  | outOfTokens
deriving DecidableEq, Repr

/-! ### Tokens -/

/-- How a scalar is written. -/
inductive Style where
  /-- Without quotes. -/
  | plain
  /-- Between single quotes. -/
  | singleQuoted
  /-- Between double quotes. -/
  | doubleQuoted
  /-- As a block that keeps its lines. -/
  | literal
  /-- As a block that folds its lines. -/
  | folded
deriving DecidableEq, Repr

/-- A tag, as octets: its escapes can spell any. -/
abbrev Tag := List UInt8

/-- The octets of an ASCII text. -/
def octets (s : String) : Tag := s.toList.map fun c ↦ .ofNat c.toNat

/-- The kinds of token. -/
inductive TokenKind where
  /-- The start of the text. -/
  | streamStart
  /-- The end of the text. -/
  | streamEnd
  /-- A version directive. -/
  | version (major minor : Nat)
  /-- A directive that declares a tag handle. -/
  | handle (name : String) (expansion : Tag)
  /-- The mark of a document's start. -/
  | documentStart
  /-- The mark of a document's end. -/
  | documentEnd
  /-- The start of a block sequence. -/
  | blockSequenceStart
  /-- The start of a block mapping. -/
  | blockMappingStart
  /-- The end of a block collection. -/
  | blockEnd
  /-- An opening bracket. -/
  | flowSequenceStart
  /-- A closing bracket. -/
  | flowSequenceEnd
  /-- An opening brace. -/
  | flowMappingStart
  /-- A closing brace. -/
  | flowMappingEnd
  /-- A dash before an entry of a block sequence. -/
  | blockEntry
  /-- A comma between entries of a flow collection. -/
  | flowEntry
  /-- The start of a key. -/
  | key
  /-- The colon before a value. -/
  | value
  /-- A reference to an anchor. -/
  | alias (name : String)
  /-- The anchor of the node that follows. -/
  | anchor (name : String)
  /-- The tag of the node that follows: a handle and the rest. -/
  | tag (handle : String) (suffix : Tag)
  /-- A scalar. -/
  | scalar (text : String) (style : Style)
deriving DecidableEq, Repr

/-- A token and its place. -/
structure Token where
  /-- What it is. -/
  kind : TokenKind
  /-- Where it starts. -/
  start : Mark
  /-- Where it ends. -/
  stop : Mark
deriving DecidableEq, Repr

end Hygrometer.Yaml
