import Hygrometer.Yaml.Event

/-!
# YAML documents as trees

A document is a tree of nodes, some of which refer to anchored ones. A text that stops being
readable inside its first document still gives the tree of what was read until then: the places that
were not reached are **torn**. Whoever reads the tree from its root thus notices first what stands
first in the text.

**Anchors** are numbered by how many names are known when they are set. Setting a known name again
adds none, so the next new name gets the same number; a number refers to the node that got it last.
An alias stands for a number, and is followed only when its node is looked at (`Document.follow`),
so a tree is finite although a node may refer to one that it is inside of.

**A text has one document** for a configuration. A second one, or a fault behind the first, makes
the document not whole (`Document.whole`), and this is looked at last, when everything in the tree
has been found to fit.

## Main definitions

* `Node` – the nodes, and `Node.ofEvents` – the node that events start with.
* `numberAnchors` – the events with numbers for the names of anchors.
* `Document`, `Document.ofText` – a document, and the one that a text starts with.
-/

namespace Hygrometer.Yaml

/-- A node of a document. -/
inductive Node where
  /-- A scalar. -/
  | scalar (mark : Mark) (scalar : Scalar)
  /-- A sequence. -/
  | sequence (mark : Mark) (tag : Option Tag) (items : List Node)
  /-- A mapping, its keys and values in turn. -/
  | mapping (mark : Mark) (tag : Option Tag) (entries : List (Node × Node))
  /-- A reference to the anchor with a number. -/
  | alias (mark : Mark) (target : Nat)
  /-- A place that was not reached. -/
  | torn
deriving Repr, Inhabited

/-! ### Numbering anchors -/

/-- The names of anchors with the numbers they refer to now, each name once. -/
abbrev AnchorNames := List (String × Nat)

/-- Set an anchor, if there is a name for it: its number, and the names then. -/
def AnchorNames.set (names : AnchorNames) : Option String → Option Nat × AnchorNames
  | none => (none, names)
  | some name => (some names.length, (name, names.length) :: names.filter (·.1 ≠ name))

/-- Number the anchors of a document's events. An alias without an anchor before it is a fault, and
the events before it are kept. -/
def numberAnchors : AnchorNames → List (Located String) → List (Located Nat) × Option Fault
  | _, [] => ([], none)
  | names, ⟨event, mark⟩ :: rest =>
    let followedBy (names : AnchorNames) (event : Event Nat) :=
      let (events, fault) := numberAnchors names rest
      (⟨event, mark⟩ :: events, fault)
    match event with
    | .alias name =>
      match names.lookup name with
      | some number => followedBy names (.alias number)
      | none => ([], some .unknownAnchor)
    | .scalar anchor scalar =>
      let (number, names) := names.set anchor
      followedBy names (.scalar number scalar)
    | .sequenceStart anchor tag =>
      let (number, names) := names.set anchor
      followedBy names (.sequenceStart number tag)
    | .mappingStart anchor tag =>
      let (number, names) := names.set anchor
      followedBy names (.mappingStart number tag)
    | .sequenceEnd => followedBy names .sequenceEnd
    | .mappingEnd => followedBy names .mappingEnd
    | .streamStart => followedBy names .streamStart
    | .streamEnd => followedBy names .streamEnd
    | .documentStart => followedBy names .documentStart
    | .documentEnd => followedBy names .documentEnd

/-! ### Trees -/

mutual

/-- The node that events start with, and the events left. -/
def readNode : Nat → List (Located Nat) → Node × List (Located Nat)
  | 0, events => (.torn, events)
  | _ + 1, [] => (.torn, [])
  | fuel + 1, ⟨event, mark⟩ :: rest =>
    match event with
    | .scalar _ s => (.scalar mark s, rest)
    | .alias target => (.alias mark target, rest)
    | .sequenceStart _ tag =>
      let (items, rest) := readItems fuel rest
      (.sequence mark tag items, rest)
    | .mappingStart _ tag =>
      let (entries, rest) := readEntries fuel rest
      (.mapping mark tag entries, rest)
    | _ => (.torn, rest)

/-- The items of a sequence up to its end. -/
def readItems : Nat → List (Located Nat) → List Node × List (Located Nat)
  | _, ⟨.sequenceEnd, _⟩ :: rest => ([], rest)
  | _, [] => ([.torn], [])
  | 0, events => ([.torn], events)
  | fuel + 1, events =>
    let (item, rest) := readNode fuel events
    let (items, rest) := readItems fuel rest
    (item :: items, rest)

/-- The entries of a mapping up to its end. -/
def readEntries : Nat → List (Located Nat) → List (Node × Node) × List (Located Nat)
  | _, ⟨.mappingEnd, _⟩ :: rest => ([], rest)
  | _, [] => ([(.torn, .torn)], [])
  | 0, events => ([(.torn, .torn)], events)
  | fuel + 1, events =>
    let (key, rest) := readNode fuel events
    let (value, rest) := readNode fuel rest
    let (entries, rest) := readEntries fuel rest
    ((key, value) :: entries, rest)

end

/-- The node that events start with. Every round passes an event, or an end after one. -/
def Node.ofEvents (events : List (Located Nat)) : Node :=
  (readNode (2 * events.length + 1) events).1

/-- The number of the anchor that an event sets. -/
def Event.anchor? {α : Type} : Event α → Option α
  | .scalar anchor _ => anchor
  | .sequenceStart anchor _ => anchor
  | .mappingStart anchor _ => anchor
  | _ => none

/-- The anchored nodes of a document by the numbers of their anchors, later ones first. -/
def anchoredNodes : List (Located Nat) → List (Nat × Node)
  | [] => []
  | event :: rest =>
    let later := anchoredNodes rest
    match event.event.anchor? with
    | some number => later ++ [(number, Node.ofEvents (event :: rest))]
    | none => later

/-! ### Documents -/

/-- A document: its tree, the nodes that references lead to, and whether the text was read to its
end and holds no second document. -/
structure Document where
  /-- The root of the tree. -/
  root : Node
  /-- The anchored nodes by number; of several with a number, the first here counts. -/
  anchored : List (Nat × Node)
  /-- Whether the whole text is this document. -/
  whole : Bool
deriving Inhabited

namespace Document

/-- The node that a reference leads to; any other node leads to itself. -/
def follow (d : Document) : Node → Node
  | .alias _ target => (d.anchored.lookup target).getD .torn
  | node => node

/-- The document that a text starts with. A text without any is a document whose root is left
out. -/
def ofText (s : String) : Document :=
  let (events, _) := Event.ofText s.toList
  let inDocument (e : Located String) : Bool :=
    e.event ≠ .streamStart && e.event ≠ .documentStart
  let events := events.filter inDocument
  let body := events.takeWhile fun e ↦ e.event ≠ .documentEnd && e.event ≠ .streamEnd
  let ending := (events.drop body.length).map (·.event)
  let (numbered, fault) := numberAnchors [] body
  { root :=
      if ending = [.streamEnd] then .scalar .start .empty else .ofEvents numbered
    anchored := anchoredNodes numbered
    whole := fault.isNone && (ending = [.streamEnd] || ending = [.documentEnd, .streamEnd]) }

end Document
end Hygrometer.Yaml
