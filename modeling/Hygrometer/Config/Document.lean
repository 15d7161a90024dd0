import Hygrometer.Config.Basic
import Hygrometer.Yaml.Node
import Hygrometer.Yaml.Resolve

/-!
# Configuration documents

A configuration is written as a YAML mapping of sections, and a section as a mapping of settings.
What a document leaves out keeps its default; a key that is unknown or comes twice is refused.

A section is described by its settings: each has a name and says how its node changes the section.
Sections are settings of the section around them, so that one reader serves all (`takeSection`).

**Leaves** are decoded from nodes by a few decoders: any scalar is a text, a plain scalar may be a
number, and a choice is named by a scalar or by a local tag. They follow aliases, and what they
refuse is worded in one way (`Misfit.describe`), with the name of the type that was expected.

**The place of a refusal** is a path of keys and a mark in the text. The path is known where a
decoder is called, the mark where its node is, and the place is set only if it is not known yet
(`Refusal.located`): the innermost node that knows its place is the one that is named. The choice
with an unknown tag is the one refusal that has no place of its own.

**What is refused first** is what stands first. The keys of a mapping are taken in their order, and
the value of a key before the next key. A text that is no YAML is read as far as it goes, and what
is found up to there counts first (`Config.ofDocument`). So the outcome is that of a reader that
goes through the text once.
-/

namespace Hygrometer

open Text (numeral)

namespace Yaml

/-! ### Refusals -/

/-- Why a node does not fit. -/
inductive Misfit where
  /-- A node of another type. -/
  | wrongType (found : Found) (expected : String)
  /-- A node of the type but with a value out of its range. -/
  | wrongValue (found : Found) (expected : String)
  /-- A key that the section does not have. -/
  | unknownKey (key : String) (known : List String)
  /-- A key that comes twice. -/
  | duplicateKey (key : String)
  /-- A name that the choice does not have. -/
  | unknownChoice (name : String) (known : List String)

/-- Names in a message, with commas between them. -/
def nameList (names : List String) : String :=
  ", ".intercalate (names.map fun n ↦ "`" ++ n ++ "`")

/-- What is wrong, in words. -/
def Misfit.describe : Misfit → String
  | wrongType found expected => "invalid type: " ++ found.describe ++ ", expected " ++ expected
  | wrongValue found expected => "invalid value: " ++ found.describe ++ ", expected " ++ expected
  | unknownKey key known => "unknown field `" ++ key ++ "`, expected one of " ++ nameList known
  | duplicateKey key => "duplicate field `" ++ key ++ "`"
  | unknownChoice name known =>
    "unknown variant `" ++ name ++ "`, expected " ++ " or ".intercalate (known.map fun n ↦
      "`" ++ n ++ "`")

/-- The place of a misfit: the keys that lead to it, and its mark in the text. -/
structure Place where
  /-- The keys from the root. -/
  path : List String
  /-- The mark. -/
  mark : Mark

/-- Why a document is refused. -/
inductive Refusal where
  /-- The text is no YAML, or more than one document. -/
  | unreadable
  /-- A node does not fit. Its place is known once a node around it has set it. -/
  | misfit (problem : Misfit) (place : Option Place)

namespace Refusal

/-- Set the place, unless it is known. -/
def located (place : Place) : Refusal → Refusal
  | misfit problem none => misfit problem (some place)
  | refusal => refusal

/-- What is wrong, in words: the path, unless it is the root, the problem, and the line and the
column, unless the place is the very start of the text. -/
def describe : Refusal → String
  | unreadable => "invalid yaml"
  | misfit problem none => "invalid yaml: " ++ problem.describe
  | misfit problem (some ⟨path, mark⟩) =>
    let pathText := if path.isEmpty then "" else ".".intercalate path ++ ": "
    let markText :=
      if mark.line = 0 ∧ mark.column = 0 then ""
      else " at line " ++ numeral (mark.line + 1) ++ " column " ++ numeral (mark.column + 1)
    "invalid yaml: " ++ pathText ++ problem.describe ++ markText

/-- The failure that a client sees. -/
def toFailure (r : Refusal) : Failure := ⟨.badRequest, r.describe⟩

end Refusal

/-! ### Leaves -/

/-- A value out of a node of a document, at a path. -/
abbrev Decoder (α : Type) := Document → List String → Node → Except Refusal α

/-- The misfit of a scalar that stands where something else was expected. A tag of the core schema
must keep its own promise first. -/
def scalarMisfit (s : Scalar) (expected : String) : Misfit :=
  let cs := s.text.toList
  let orText (found : Option Found) (promised : String) : Misfit :=
    match found with
    | some found => .wrongType found expected
    | none => .wrongValue (.text s.text) promised
  let byStyle : Misfit :=
    .wrongType (if s.style = .plain then .ofPlain s.text else .text s.text) expected
  match s.tag with
  | none => byStyle
  | some tag =>
    if tag = booleanTag then orText ((boolean? cs).map .boolean) "a boolean"
    else if tag = integerTag then orText ((integer? cs).map .integer) "an integer"
    else if tag = realTag then orText ((real? cs).map .real) "a float"
    else if tag = nullTag then orText (if isNull cs then some .unit else none) "null"
    else if isLocal tag then byStyle
    else .wrongType (.text s.text) expected

/-- The refusal of a node that stands where something else was expected. -/
def refuse (path : List String) (expected : String) : Node → Refusal
  | .scalar mark s => .misfit (scalarMisfit s expected) (some ⟨path, mark⟩)
  | .sequence mark _ _ => .misfit (.wrongType .sequence expected) (some ⟨path, mark⟩)
  | .mapping mark _ _ => .misfit (.wrongType .map expected) (some ⟨path, mark⟩)
  | .alias _ _ => .unreadable
  | .torn => .unreadable

/-- A text: any scalar, however it is written. -/
def text : Decoder String := fun d path node ↦
  match d.follow node with
  | .scalar _ s => .ok s.text
  | node => .error (refuse path "a string" node)

/-- Whether a scalar may stand for a number: a plain one may, and a literal block with the tag that
asks for it. -/
def mayBeNumber (tag : Tag) (s : Scalar) : Bool :=
  s.style = .plain || (s.style = .literal && s.tag = some tag)

/-- A whole number below a bound, and the name of its type in messages. -/
def natural (bound : Nat) (type : String) : Decoder Nat := fun d path node ↦
  match d.follow node with
  | .scalar mark s =>
    let value := if mayBeNumber integerTag s then natural? s.text.toList else none
    match value with
    | some n =>
      if n < bound then .ok n
      else if n < UInt64.size then
        .error (.misfit (.wrongValue (.integer n) type) (some ⟨path, mark⟩))
      else .error (refuse path type (.scalar mark s))
    | none => .error (refuse path type (.scalar mark s))
  | node => .error (refuse path type node)

/-- A number. -/
def real : Decoder Binary64 := fun d path node ↦
  match d.follow node with
  | .scalar mark s =>
    match if mayBeNumber realTag s then real? s.text.toList else none with
    | some x => .ok x
    | none => .error (refuse path "f64" (.scalar mark s))
  | node => .error (refuse path "f64" node)

/-- A named choice, by the name of a scalar. -/
def choose {α : Type} (choices : List (String × α)) (name : String) : Except Misfit α :=
  match choices.lookup name with
  | some a => .ok a
  | none => .error (.unknownChoice name (choices.map (·.1)))

/-- The local tag of a node, which names a choice. -/
def choiceTag? : Node → Option String
  | .scalar _ s => s.tag.bind localName?
  | .sequence _ tag _ => tag.bind localName?
  | .mapping _ tag _ => tag.bind localName?
  | _ => none

/-- The content of a choice that was named by a tag: there must be none. -/
def noContent (path : List String) : Node → Except Refusal Unit
  | .scalar mark s =>
    if s.style = .plain ∧ (s.text.isEmpty ∨ isNull s.text.toList) then .ok ()
    else .error (.misfit (.wrongValue (.text s.text) "null") (some ⟨path, mark⟩))
  | node => .error (refuse path "unit" node)

/-- A named choice at the node that stands for it. The refusal of an unknown tag has no place. -/
def choiceAt {α : Type} (choices : List (String × α)) (path : List String) (node : Node) :
    Except Refusal α :=
  match choiceTag? node, node with
  | some name, node => do
    let a ← (choose choices name).mapError (.misfit · none)
    noContent path node
    pure a
  | none, .scalar mark s => (choose choices s.text).mapError (.misfit · (some ⟨path, mark⟩))
  | none, node => .error (refuse path "a YAML tag starting with '!'" node)

/-- One of several named choices: a scalar that is its name, or a local tag that is its name on a
node without content. The refusal of an unknown tag has the place of the alias that led to it, or
else leaves its place to the section. -/
def choice {α : Type} (choices : List (String × α)) : Decoder α := fun d path node ↦
  match node with
  | .alias mark _ => (choiceAt choices path (d.follow node)).mapError (·.located ⟨path, mark⟩)
  | node => choiceAt choices path node

/-! ### Sections -/

/-- A setting of a section `σ`: its name, and how its node changes the section. -/
structure Setting (σ : Type) where
  /-- The name, which is its key. -/
  name : String
  /-- The section with the setting taken from a node. -/
  update : Document → List String → Node → σ → Except Refusal σ

/-- A setting of a decoded value. -/
def Setting.of {σ α : Type} (name : String) (decode : Decoder α) (set : α → σ → σ) : Setting σ where
  name
  update d path node section_ := (decode d path node).map (set · section_)

/-- The key of an entry: any scalar will do. -/
def keyText (d : Document) (path : List String) (key : Node) : Except Refusal (String × Mark) :=
  match d.follow key with
  | .scalar mark s => .ok (s.text, mark)
  | node => .error (refuse path "field identifier" node)

/-- The key that a path shows for an entry; a key that is a reference is not shown. -/
def shownKey : Node → String
  | .scalar _ s => s.text
  | _ => "?"

/-- Take the entries of a mapping into a section, in their order. A key is looked at before its
value: it must be known, and must not be among those seen. -/
def takeEntries {σ : Type} (settings : List (Setting σ)) (d : Document) (path : List String) :
    List String → List (Node × Node) → σ → Except Refusal σ
  | _, [], section_ => .ok section_
  | seen, (key, value) :: rest, section_ => do
    let (name, mark) ← keyText d path key
    match settings.find? (·.name == name) with
    | none =>
      throw (.misfit (.unknownKey name (settings.map (·.name))) (some ⟨path, mark⟩))
    | some setting =>
      if seen.contains name then throw (.misfit (.duplicateKey name) none)
      let section_ ← setting.update d (path ++ [shownKey key]) value section_
      takeEntries settings d path (name :: seen) rest section_

/-- Change a section as its node says: a mapping of settings, or nothing at all. -/
def takeSection {σ : Type} (title : String) (settings : List (Setting σ)) (d : Document)
    (path : List String) (node : Node) (section_ : σ) : Except Refusal σ :=
  match d.follow node with
  | .mapping mark _ entries =>
    (takeEntries settings d path [] entries section_).mapError (·.located ⟨path, mark⟩)
  | .scalar mark s =>
    if s.style = .plain ∧ s.text.isEmpty then .ok section_
    else .error (refuse path ("struct " ++ title) (.scalar mark s))
  | node => .error (refuse path ("struct " ++ title) node)

/-- A setting that is a section itself. What it leaves out takes the default, also where a section
around it was given. -/
def Setting.section {σ τ : Type} (name title : String) (settings : List (Setting τ)) (default : τ)
    (set : τ → σ → σ) : Setting σ where
  name
  update d path node outer :=
    (takeSection title settings d path node default).map (set · outer)

end Yaml

/-! ### The configuration's sections -/

open Yaml (Setting)

/-- The settings of the server. -/
def ServerConfig.settings : List (Setting ServerConfig) :=
  [.of "host" Yaml.text fun host c ↦ { c with host },
    .of "port" (Yaml.natural UInt16.size "u16") fun n c ↦ { c with port := .ofNat n },
    .of "service_name" Yaml.text fun serviceName c ↦ { c with serviceName }]

/-- The settings of the simulated conditions. -/
def Ambient.settings : List (Setting Ambient) :=
  [.of "humidity" Yaml.real fun humidity c ↦ { c with humidity },
    .of "temperature_c" Yaml.real fun temperatureC c ↦ { c with temperatureC },
    .of "light_raw" (Yaml.natural UInt16.size "u16") fun n c ↦ { c with lightRaw := .ofNat n }]

/-- The kinds of source by name. -/
def SourceKind.choices : List (String × SourceKind) :=
  [SourceKind.stub, SourceKind.simulated].map fun kind ↦ (kind.name, kind)

/-- The settings of the source. -/
def SourceConfig.settings : List (Setting SourceConfig) :=
  [.of "kind" (Yaml.choice SourceKind.choices) fun kind c ↦ { c with kind },
    .of "dht20_addr" (Yaml.natural UInt8.size "u8") fun n c ↦ { c with address := .ofNat n },
    .of "photores_gpio" (Yaml.natural UInt8.size "u8") fun n c ↦ { c with lightPin := .ofNat n },
    .section "simulated" "SimulatedSection" Ambient.settings {} fun ambient c ↦ { c with ambient }]

/-- The settings of the page. -/
def PageTexts.settings : List (Setting PageTexts) :=
  [.of "title" Yaml.text fun title c ↦ { c with title },
    .of "caption" Yaml.text fun caption c ↦ { c with caption },
    .of "button_label" Yaml.text fun buttonLabel c ↦ { c with buttonLabel }]

/-- The settings at the root. -/
def Config.settings : List (Setting Config) :=
  [.of "version" (Yaml.natural UInt32.size "u32") fun n c ↦ { c with version := .ofNat n },
    .section "server" "ServerSection" ServerConfig.settings {} fun server c ↦ { c with server },
    .section "source" "SourceSection" SourceConfig.settings {} fun source c ↦ { c with source },
    .section "ui" "UiSection" PageTexts.settings {} fun page c ↦ { c with page }]

/-- The configuration in a document. What stands first in the text is refused first, so a text that
is no YAML is refused as such only if nothing before that place is. -/
def Config.ofDocument (d : Yaml.Document) : Except Yaml.Refusal Config := do
  let config ← Yaml.takeSection "BackendConfig" Config.settings d [] d.root {}
  if d.whole then pure config else throw .unreadable

end Hygrometer
