import Hygrometer.Proofs.Config.Value

/-!
# Sections and leaves

A configuration by its parts: five sections, each with its path and its keys, and thirteen leaves,
each with its section, its key, and what scalars stand for in it. `Document.IsConfig` says from
these tables alone which documents are configurations, and `Document.setting?` what they say about a
leaf.

**The tables are the specification.** They name the paths as they are written in a document, and
know nothing of settings, decoders or the order in which a mapping is gone through. What is read is
proved to be what they say, so a key that were misspelled, left out or taken into the wrong place
would show there.

**The leaves are all there is** (`ofLeaves_get`), so a configuration can be given leaf by leaf, and
what a document says over the defaults is one (`overlay`). A leaf has a type of its own, so that a
port and a text are both values of leaves; the tables are functions on an enumeration, and a
statement about all leaves is one statement with the leaf as a variable.

**The sections are a tree.** Each but the whole has a section around it and a key there
(`Section.outer?`), and paths are what follows these keys (`path_eq`). Facts about sections are
proved down the tree, from the whole to its parts (`Section.downward`), or up, from the parts to
what they are parts of (`Section.upward`).
-/

namespace Hygrometer

open Yaml (Scalar Setting)

namespace Config

/-! ### Sections -/

/-- The sections of a configuration, the whole among them. -/
inductive Section where
  /-- The configuration itself. -/
  | root
  /-- Where the service listens. -/
  | server
  /-- Where readings come from. -/
  | source
  /-- The simulated conditions. -/
  | ambient
  /-- The texts of the page. -/
  | page
deriving DecidableEq

namespace Section

/-- The keys that lead to the section. -/
def path : Section → List String
  | root => []
  | server => ["server"]
  | source => ["source"]
  | ambient => ["source", "simulated"]
  | page => ["ui"]

/-- The keys that the section has. -/
def keys : Section → List String
  | root => ["version", "server", "source", "ui"]
  | server => ["host", "port", "service_name"]
  | source => ["kind", "dht20_addr", "photores_gpio", "simulated"]
  | ambient => ["humidity", "temperature_c", "light_raw"]
  | page => ["title", "caption", "button_label"]

/-- The section around it, and the key that it has there. -/
def outer? : Section → Option (Section × String)
  | root => none
  | server => some (root, "server")
  | source => some (root, "source")
  | ambient => some (source, "simulated")
  | page => some (root, "ui")

/-- What the section is called in messages. -/
def title : Section → String
  | root => "BackendConfig"
  | server => "ServerSection"
  | source => "SourceSection"
  | ambient => "SimulatedSection"
  | page => "UiSection"

/-- What the section configures. -/
abbrev Value : Section → Type
  | root => Config
  | server => ServerConfig
  | source => SourceConfig
  | ambient => Ambient
  | page => PageTexts

/-- The section of a configuration. -/
def get : (sec : Section) → Config → sec.Value
  | root, c => c
  | server, c => c.server
  | source, c => c.source
  | ambient, c => c.source.ambient
  | page, c => c.page

/-- The section where nothing is set. -/
def default : (sec : Section) → sec.Value
  | root => ({} : Config)
  | server => ({} : ServerConfig)
  | source => ({} : SourceConfig)
  | ambient => ({} : Ambient)
  | page => ({} : PageTexts)

/-- The settings of the section. -/
def settings : (sec : Section) → List (Setting sec.Value)
  | root => Config.settings
  | server => ServerConfig.settings
  | source => SourceConfig.settings
  | ambient => Ambient.settings
  | page => PageTexts.settings

theorem map_name_settings (sec : Section) : sec.settings.map (·.name) = sec.keys := by
  cases sec <;> rfl

/-- No two settings of a section have the same name. -/
theorem nodup_names (sec : Section) : (sec.settings.map (·.name)).Nodup := by
  cases sec <;> decide

/-- The defaults of a section are those of the whole. -/
theorem get_default (sec : Section) : sec.get {} = sec.default := by
  cases sec <;> rfl

theorem path_eq {sec outer : Section} {key : String} (h : sec.outer? = some (outer, key)) :
    sec.path = outer.path ++ [key] := by
  cases sec <;> cases h <;> rfl

/-- Down the tree of sections: from the root, and from each section to those in it. -/
@[elab_as_elim]
theorem downward {P : Section → Prop} (sec : Section) (root : P .root)
    (inner : ∀ (sec outer : Section) (key : String), sec.outer? = some (outer, key) →
      P outer → P sec) : P sec := by
  have hsource : P .source := inner .source .root _ rfl root
  cases sec with
  | root => exact root
  | server => exact inner .server .root _ rfl root
  | source => exact hsource
  | ambient => exact inner .ambient .source _ rfl hsource
  | page => exact inner .page .root _ rfl root

/-- Up the tree of sections: to each section from those in it. -/
@[elab_as_elim]
theorem upward {P : Section → Prop} (sec : Section)
    (outer : ∀ sec : Section,
      (∀ (inner : Section) (key : String), inner.outer? = some (sec, key) → P inner) → P sec) :
    P sec := by
  have hserver : P .server := outer .server (by rintro (_ | _ | _ | _ | _) key h <;> cases h)
  have hambient : P .ambient := outer .ambient (by rintro (_ | _ | _ | _ | _) key h <;> cases h)
  have hpage : P .page := outer .page (by rintro (_ | _ | _ | _ | _) key h <;> cases h)
  have hsource : P .source := outer .source (by
    rintro (_ | _ | _ | _ | _) key h <;> cases h
    exact hambient)
  cases sec with
  | root =>
    refine outer .root ?_
    rintro (_ | _ | _ | _ | _) key h <;> cases h
    · exact hserver
    · exact hsource
    · exact hpage
  | server => exact hserver
  | source => exact hsource
  | ambient => exact hambient
  | page => exact hpage

end Section

/-! ### Leaves -/

/-- The settings that are values. -/
inductive Leaf where
  /-- The version of the format. -/
  | version
  /-- The address to listen on. -/
  | host
  /-- The port to listen on. -/
  | port
  /-- The name of the service. -/
  | serviceName
  /-- The kind of source. -/
  | kind
  /-- The bus address of the climate sensor. -/
  | address
  /-- The pin of the light sensor. -/
  | lightPin
  /-- The simulated humidity. -/
  | humidity
  /-- The simulated temperature. -/
  | temperatureC
  /-- The simulated light sample. -/
  | lightRaw
  /-- The title of the page. -/
  | title
  /-- The caption of the page. -/
  | caption
  /-- The label of the button. -/
  | buttonLabel
deriving DecidableEq

namespace Leaf

/-- The section that has the leaf. -/
abbrev home : Leaf → Section
  | version => .root
  | host | port | serviceName => .server
  | kind | address | lightPin => .source
  | humidity | temperatureC | lightRaw => .ambient
  | title | caption | buttonLabel => .page

/-- The key of the leaf. -/
def key : Leaf → String
  | version => "version"
  | host => "host"
  | port => "port"
  | serviceName => "service_name"
  | kind => "kind"
  | address => "dht20_addr"
  | lightPin => "photores_gpio"
  | humidity => "humidity"
  | temperatureC => "temperature_c"
  | lightRaw => "light_raw"
  | title => "title"
  | caption => "caption"
  | buttonLabel => "button_label"

/-- The keys that lead to the leaf. -/
def path (leaf : Leaf) : List String := leaf.home.path ++ [leaf.key]

/-- The values that the leaf may have. -/
abbrev Value : Leaf → Type
  | version => UInt32
  | port | lightRaw => UInt16
  | address | lightPin => UInt8
  | kind => SourceKind
  | humidity | temperatureC => Binary64
  | host | serviceName | title | caption | buttonLabel => String

/-- The value of the leaf in its section. -/
def getIn : (leaf : Leaf) → leaf.home.Value → leaf.Value
  | version, (c : Config) => c.version
  | host, (c : ServerConfig) => c.host
  | port, (c : ServerConfig) => c.port
  | serviceName, (c : ServerConfig) => c.serviceName
  | kind, (c : SourceConfig) => c.kind
  | address, (c : SourceConfig) => c.address
  | lightPin, (c : SourceConfig) => c.lightPin
  | humidity, (c : Ambient) => c.humidity
  | temperatureC, (c : Ambient) => c.temperatureC
  | lightRaw, (c : Ambient) => c.lightRaw
  | title, (c : PageTexts) => c.title
  | caption, (c : PageTexts) => c.caption
  | buttonLabel, (c : PageTexts) => c.buttonLabel

/-- The value of the leaf. -/
def get (leaf : Leaf) (c : Config) : leaf.Value := leaf.getIn (leaf.home.get c)

/-- The value that a scalar stands for in the leaf. -/
def read? : (leaf : Leaf) → Scalar → Option leaf.Value
  | version, s => (s.natural? UInt32.size).map .ofNat
  | port, s | lightRaw, s => (s.natural? UInt16.size).map .ofNat
  | address, s | lightPin, s => (s.natural? UInt8.size).map .ofNat
  | kind, s => s.choice? SourceKind.choices
  | humidity, s | temperatureC, s => s.real?
  | host, s | serviceName, s | title, s | caption, s | buttonLabel, s => some s.text

end Leaf

/-- The configuration with the given values. -/
def ofLeaves (value : (leaf : Leaf) → leaf.Value) : Config where
  version := value .version
  server := ⟨value .host, value .port, value .serviceName⟩
  source := ⟨value .kind, value .address, value .lightPin,
    ⟨value .humidity, value .temperatureC, value .lightRaw⟩⟩
  page := ⟨value .title, value .caption, value .buttonLabel⟩

@[simp] theorem get_ofLeaves (value : (leaf : Leaf) → leaf.Value) (leaf : Leaf) :
    leaf.get (ofLeaves value) = value leaf := by
  cases leaf <;> rfl

/-- The leaves are all there is. -/
theorem ofLeaves_get (c : Config) : ofLeaves (fun leaf ↦ leaf.get c) = c := rfl

/-- The configuration that has the given values, and the defaults for the rest. -/
def overlay (value? : (leaf : Leaf) → Option leaf.Value) : Config :=
  ofLeaves fun leaf ↦ (value? leaf).getD (leaf.get {})

end Config

/-! ### Configurations in documents -/

namespace Yaml.Document

open Config (Section Leaf)

variable (d : Document)

/-- The value that a document has for a leaf. -/
def setting? (leaf : Leaf) : Option leaf.Value :=
  ((d.nodeAt? leaf.path).bind d.scalar?).bind leaf.read?

/-- A document that is a configuration. -/
structure IsConfig : Prop where
  /-- There is nothing else in the text. -/
  whole : d.whole = true
  /-- Every section that is there is a mapping of keys that it has, each at most once. -/
  sections : ∀ (sec : Section) node, d.nodeAt? sec.path = some node → d.IsSection sec.keys node
  /-- Every value that is there is of the type of its leaf. -/
  leaves : ∀ (leaf : Leaf) node, d.nodeAt? leaf.path = some node →
    ((d.scalar? node).bind leaf.read?).isSome

end Yaml.Document

end Hygrometer
