import Hygrometer.Yaml.Token
import Hygrometer.Yaml.Token.Scan

/-!
# YAML events

What a document says, node by node: scalars, the starts and ends of collections, and references. The
type of anchors is a parameter: a text names them, and a document numbers them.

The grammar of YAML makes events of tokens. It is a machine with a stack: a state says what the
grammar expects next, and the stack holds the states to go on with when the node at hand is
complete. Every step gives one event, and looks at the token that comes next to decide which.

**Nodes that are left out.** A key without a value, a value without a key and an entry without
either have a node all the same, an empty scalar, at the place where it is missed. So a collection
has as many nodes as its form promises, and whoever builds a tree need not know what was left out.

**Faults** end the events. Those before the fault have been given by then, and whether a fault in
the text matters depends on what was made of them.

## Main definitions

* `Event` – the events, and `Located` – an event at its place.
* `Expecting`, `Parse` – the states of the machine.
* `Parse.step` – the next event, by one function for each state.
* `Event.ofText` – the events of a text, and the fault that they end with, if they do.
-/

namespace Hygrometer.Yaml

/-- A scalar: its text, how it is written, and its tag if it has one. -/
structure Scalar where
  /-- The text. -/
  text : String
  /-- How it is written. -/
  style : Style
  /-- The tag. -/
  tag : Option Tag
deriving DecidableEq, Repr

/-- The scalar that stands where a node is left out. -/
def Scalar.empty : Scalar := ⟨"", .plain, none⟩

/-- An event, with anchors of type `α`. -/
inductive Event (α : Type) where
  /-- The start of the text. -/
  | streamStart
  /-- The end of the text. -/
  | streamEnd
  /-- The start of a document. -/
  | documentStart
  /-- The end of a document. -/
  | documentEnd
  /-- A reference to an anchored node. -/
  | alias (target : α)
  /-- A scalar. -/
  | scalar (anchor : Option α) (scalar : Scalar)
  /-- The start of a sequence. -/
  | sequenceStart (anchor : Option α) (tag : Option Tag)
  /-- The end of a sequence. -/
  | sequenceEnd
  /-- The start of a mapping. -/
  | mappingStart (anchor : Option α) (tag : Option Tag)
  /-- The end of a mapping. -/
  | mappingEnd
deriving DecidableEq, Repr

/-- An event and where it starts. -/
structure Located (α : Type) where
  /-- The event. -/
  event : Event α
  /-- Where it starts. -/
  mark : Mark
deriving DecidableEq, Repr

/-! ### From tokens to events -/

/-- What the grammar expects next. -/
inductive Expecting where
  /-- The start of the text. -/
  | stream
  /-- A first document, whose start need not be marked. -/
  | firstDocument
  /-- A document whose start is marked, or the end of the text. -/
  | document
  /-- The content of a document whose start was marked. -/
  | content
  /-- The end of a document. -/
  | documentEnd
  /-- A node of block structure. -/
  | blockNode
  /-- An entry of a block sequence, or its end. -/
  | blockEntry
  /-- An entry of a block sequence that is not indented, or its end. -/
  | bareEntry
  /-- A key of a block mapping, or its end. -/
  | blockKey
  /-- The value of a block mapping. -/
  | blockValue
  /-- An entry of a flow sequence, or its end; whether it is the first. -/
  | flowEntry (first : Bool)
  /-- The key of a single pair in a flow sequence. -/
  | pairKey
  /-- The value of that pair. -/
  | pairValue
  /-- The end of that pair. -/
  | pairEnd
  /-- A key of a flow mapping, or its end; whether it is the first. -/
  | flowKey (first : Bool)
  /-- The value of a flow mapping. -/
  | flowValue
  /-- The value of a key without a colon. -/
  | flowNoValue
  /-- Nothing. -/
  | done
deriving DecidableEq, Repr

/-- Where the reading of tokens has come to. -/
structure Parse where
  /-- The tokens left. -/
  tokens : List Token
  /-- What comes next. -/
  state : Expecting
  /-- What comes after the node at hand, the innermost first. -/
  stack : List Expecting
  /-- The tag handles of the document. -/
  handles : List (String × Tag)
deriving Repr

namespace Parse

/-- The result of a step: an event, and where the reading has come to. -/
abbrev Step := Except Fault (Located String × Parse)

/-- The token that comes next. -/
def peek (p : Parse) : Except Fault Token :=
  match p.tokens with
  | token :: _ => .ok token
  | [] => .error .outOfTokens

/-- Pass a token. -/
def skip (p : Parse) : Parse := { p with tokens := p.tokens.drop 1 }

/-- Expect something else next. -/
def goto (p : Parse) (state : Expecting) : Parse := { p with state }

/-- Remember what to go on with. -/
def push (p : Parse) (state : Expecting) : Parse := { p with stack := state :: p.stack }

/-- Go on with what was remembered last. -/
def pop (p : Parse) : Parse :=
  match p.stack with
  | state :: stack => { p with state, stack }
  | [] => p.goto .done

/-- Give an event. -/
def emit (p : Parse) (event : Event String) (mark : Mark) : Step := .ok (⟨event, mark⟩, p)

/-- Give the scalar of a node that is left out. -/
def emitEmpty (p : Parse) (mark : Mark) : Step := p.emit (.scalar none .empty) mark

/-! ### Nodes -/

/-- The anchor and the tag before a node. -/
structure Properties where
  /-- The anchor. -/
  anchor : Option String
  /-- The tag: its handle and the rest. -/
  tag : Option (String × Tag)
  /-- Where the first of them starts. -/
  start : Option Mark

/-- Take an anchor and a tag, in either order and each at most once. -/
def takeProperties (p : Parse) : Properties × Parse :=
  match p.tokens with
  | ⟨.anchor a, start, _⟩ :: ⟨.tag h s, _, _⟩ :: _ =>
    (⟨some a, some (h, s), some start⟩, p.skip.skip)
  | ⟨.tag h s, start, _⟩ :: ⟨.anchor a, _, _⟩ :: _ =>
    (⟨some a, some (h, s), some start⟩, p.skip.skip)
  | ⟨.anchor a, start, _⟩ :: _ => (⟨some a, none, some start⟩, p.skip)
  | ⟨.tag h s, start, _⟩ :: _ => (⟨none, some (h, s), some start⟩, p.skip)
  | _ => (⟨none, none, none⟩, p)

/-- A tag with its handle expanded. -/
def resolveTag (p : Parse) : Option (String × Tag) → Except Fault (Option Tag)
  | none => .ok none
  | some ("", suffix) => .ok (some suffix)
  | some (handle, suffix) =>
    match p.handles.lookup handle with
    | some expansion => .ok (some (expansion ++ suffix))
    | none => .error .unknownHandle

/-- Start a node: a scalar whole, or a collection. Block collections may start only in block
structure, and a block sequence that is not indented only as the value of a block mapping. An anchor
or a tag without a node stands for an empty scalar. -/
def node (p : Parse) (block bare : Bool) : Step := do
  let token ← p.peek
  match token.kind with
  | .alias name => p.skip.pop.emit (.alias name) token.start
  | _ =>
    let (properties, p) := p.takeProperties
    let token ← p.peek
    let start := properties.start.getD token.start
    let anchor := properties.anchor
    let tag ← p.resolveTag properties.tag
    match token.kind with
    | .scalar text style => p.skip.pop.emit (.scalar anchor ⟨text, style, tag⟩) start
    | .flowSequenceStart => (p.skip.goto (.flowEntry true)).emit (.sequenceStart anchor tag) start
    | .flowMappingStart => (p.skip.goto (.flowKey true)).emit (.mappingStart anchor tag) start
    | kind =>
      if bare ∧ kind = .blockEntry then
        (p.goto .bareEntry).emit (.sequenceStart anchor tag) start
      else if block ∧ kind = .blockSequenceStart then
        (p.skip.goto .blockEntry).emit (.sequenceStart anchor tag) start
      else if block ∧ kind = .blockMappingStart then
        (p.skip.goto .blockKey).emit (.mappingStart anchor tag) start
      else if properties.start.isSome then
        p.pop.emit (.scalar anchor { Scalar.empty with tag }) start
      else
        .error .unexpectedToken

/-- A node, or an empty scalar at `mark` if one of the given tokens comes instead, and then the
state `next`. -/
def nodeUnless (p : Parse) (absent : List TokenKind) (block bare : Bool) (next : Expecting)
    (mark : Token → Mark) : Step := do
  let token ← p.peek
  if absent.contains token.kind then (p.goto next).emitEmpty (mark token)
  else (p.push next).node block bare

/-! ### Documents -/

/-- The handles of a document that declares none. -/
def defaultHandles : List (String × Tag) :=
  [("!", octets "!"), ("!!", octets "tag:yaml.org,2002:")]

/-- Take the directives before a document: the handles they declare, in front of those found so far,
and whether a version was among them. A version other than 1.1 or 1.2, a second version, and a
second declaration of a handle are faults. -/
def takeDirectives : Bool → List (String × Tag) → List Token →
    Except Fault (List (String × Tag) × List Token)
  | versioned, found, ⟨.version major minor, _, _⟩ :: tokens =>
    if versioned then .error .badDirective
    else if major = 1 ∧ (minor = 1 ∨ minor = 2) then takeDirectives true found tokens
    else .error .otherVersion
  | versioned, found, ⟨.handle name expansion, _, _⟩ :: tokens =>
    if (found.lookup name).isSome then .error .badDirective
    else takeDirectives versioned ((name, expansion) :: found) tokens
  | _, found, tokens => .ok (found, tokens)

/-- Whether the token announces a document: a directive, or the mark of a document's start. -/
def announces : TokenKind → Bool
  | .version _ _ | .handle _ _ | .documentStart => true
  | _ => false

/-- Start a document, or end the text. Only the first document may start without being announced. -/
def startDocument (p : Parse) (first : Bool) : Step := do
  let p := if first then p else { p with tokens := p.tokens.dropWhile (·.kind == .documentEnd) }
  let token ← p.peek
  if token.kind = .streamEnd then
    (p.skip.goto .done).emit .streamEnd token.start
  else if first ∧ !announces token.kind then
    let p := { p with handles := defaultHandles }
    ((p.push .documentEnd).goto .blockNode).emit .documentStart token.start
  else
    let (found, tokens) ← takeDirectives false [] p.tokens
    let p := { p with tokens, handles := found ++ defaultHandles }
    if (← p.peek).kind = .documentStart then
      ((p.skip.push .documentEnd).goto .content).emit .documentStart token.start
    else
      throw .unexpectedToken

/-- The content of a document whose start was marked; it may be left out. -/
def startContent (p : Parse) : Step := do
  let token ← p.peek
  match token.kind with
  | .version _ _ | .handle _ _ | .documentStart | .documentEnd | .streamEnd =>
    p.pop.emitEmpty token.start
  | _ => p.node true false

/-- End a document, at its mark if there is one. -/
def endDocument (p : Parse) : Step := do
  let token ← p.peek
  let p := if token.kind = .documentEnd then p.skip else p
  (p.goto .document).emit .documentEnd token.start

/-! ### Block collections -/

/-- An entry of a block sequence, or its end. -/
def blockEntry (p : Parse) : Step := do
  let token ← p.peek
  match token.kind with
  | .blockEntry =>
    p.skip.nodeUnless [.blockEntry, .blockEnd] true false .blockEntry fun _ ↦ token.stop
  | .blockEnd => p.skip.pop.emit .sequenceEnd token.start
  | _ => .error .unexpectedToken

/-- An entry of a block sequence that is not indented, or its end, which has no token. -/
def bareEntry (p : Parse) : Step := do
  let token ← p.peek
  match token.kind with
  | .blockEntry =>
    p.skip.nodeUnless [.blockEntry, .key, .value, .blockEnd] true false .bareEntry
      fun _ ↦ token.stop
  | _ => p.pop.emit .sequenceEnd token.start

/-- A key of a block mapping, or its end. -/
def blockKey (p : Parse) : Step := do
  let token ← p.peek
  match token.kind with
  | .key => p.skip.nodeUnless [.key, .value, .blockEnd] true true .blockValue fun _ ↦ token.stop
  | .blockEnd => p.skip.pop.emit .mappingEnd token.start
  | _ => .error .unexpectedToken

/-- The value of a block mapping. -/
def blockValue (p : Parse) : Step := do
  let token ← p.peek
  match token.kind with
  | .value => p.skip.nodeUnless [.key, .value, .blockEnd] true true .blockKey fun _ ↦ token.stop
  | _ => (p.goto .blockKey).emitEmpty token.start

/-! ### Flow collections -/

/-- Pass the comma that must stand before every entry but the first, unless the collection ends. -/
def passComma (p : Parse) (first : Bool) (closing : TokenKind) : Except Fault Parse := do
  let token ← p.peek
  if first ∨ token.kind = closing then pure p
  else if token.kind = .flowEntry then pure p.skip
  else throw .unexpectedToken

/-- An entry of a flow sequence, or its end. An entry with a key is a mapping of one pair. -/
def flowEntry (p : Parse) (first : Bool) : Step := do
  let p ← p.passComma first .flowSequenceEnd
  let token ← p.peek
  match token.kind with
  | .flowSequenceEnd => p.skip.pop.emit .sequenceEnd token.start
  | .key => (p.skip.goto .pairKey).emit (.mappingStart none none) token.start
  | _ => (p.push (.flowEntry false)).node false false

/-- The key of a single pair. One that is left out takes the place of the token that follows. -/
def pairKey (p : Parse) : Step := do
  let token ← p.peek
  match token.kind with
  | .value | .flowEntry | .flowSequenceEnd => (p.skip.goto .pairValue).emitEmpty token.stop
  | _ => (p.push .pairValue).node false false

/-- The value of a single pair. -/
def pairValue (p : Parse) : Step := do
  let token ← p.peek
  match token.kind with
  | .value => p.skip.nodeUnless [.flowEntry, .flowSequenceEnd] false false .pairEnd (·.start)
  | _ => (p.goto .pairEnd).emitEmpty token.start

/-- The end of a single pair, which has no token. -/
def pairEnd (p : Parse) : Step := do
  let token ← p.peek
  (p.goto (.flowEntry false)).emit .mappingEnd token.start

/-- A key of a flow mapping, or its end. -/
def flowKey (p : Parse) (first : Bool) : Step := do
  let p ← p.passComma first .flowMappingEnd
  let token ← p.peek
  match token.kind with
  | .flowMappingEnd => p.skip.pop.emit .mappingEnd token.start
  | .key =>
    p.skip.nodeUnless [.value, .flowEntry, .flowMappingEnd] false false .flowValue (·.start)
  | _ => (p.push .flowNoValue).node false false

/-- The value of a flow mapping. -/
def flowValue (p : Parse) : Step := do
  let token ← p.peek
  match token.kind with
  | .value => p.skip.nodeUnless [.flowEntry, .flowMappingEnd] false false (.flowKey false) (·.start)
  | _ => (p.goto (.flowKey false)).emitEmpty token.start

/-- The value of a key without a colon. -/
def flowNoValue (p : Parse) : Step := do
  let token ← p.peek
  (p.goto (.flowKey false)).emitEmpty token.start

/-! ### Runs -/

/-- Pass the start of the text. -/
def startStream (p : Parse) : Step := do
  let token ← p.peek
  (p.skip.goto .firstDocument).emit .streamStart token.start

/-- The next event. -/
def step (p : Parse) : Step :=
  match p.state with
  | .stream => p.startStream
  | .firstDocument => p.startDocument true
  | .document => p.startDocument false
  | .content => p.startContent
  | .documentEnd => p.endDocument
  | .blockNode => p.node true false
  | .blockEntry => p.blockEntry
  | .bareEntry => p.bareEntry
  | .blockKey => p.blockKey
  | .blockValue => p.blockValue
  | .flowEntry first => p.flowEntry first
  | .pairKey => p.pairKey
  | .pairValue => p.pairValue
  | .pairEnd => p.pairEnd
  | .flowKey first => p.flowKey first
  | .flowValue => p.flowValue
  | .flowNoValue => p.flowNoValue
  | .done => .error .outOfTokens

/-- The events up to the end of the text or to a fault, and the fault if there was one. -/
def run : Nat → Parse → List (Located String) × Option Fault
  | 0, _ => ([], some .outOfTokens)
  | fuel + 1, p =>
    if p.state = .done then ([], none)
    else
      match p.step with
      | .error fault => ([], some fault)
      | .ok (event, next) =>
        let (events, fault) := run fuel next
        (event :: events, fault)

end Parse

/-- The events of a text, up to its end or to a fault. A token gives four events at most. -/
def Event.ofText (text : List Char) : List (Located String) × Option Fault :=
  let (tokens, _) := Token.ofText text
  Parse.run (4 * tokens.length + 8) ⟨tokens, .stream, [], Parse.defaultHandles⟩

end Hygrometer.Yaml
