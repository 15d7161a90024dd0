import Hygrometer.Proofs.Config.Leaf
import Hygrometer.Proofs.Config.Validity
import Hygrometer.Proofs.Yaml.BlankText

/-!
# Reading a configuration

Two facts about a section carry everything: when it can be taken (`Section.exists_reads_iff`), and
what a part of it is then (`Leaf.isField`, `Section.isField`). Going down the tree of sections turns
them into facts about paths from the root, and with them a document is read exactly if it is a
configuration, as what it says over the defaults (`ofDocument_eq_ok_iff`).

**The first fact is about acceptance alone.** It asks that the node is a section, with keys that are
known and come once, and that every value in it can be taken by its own setting. What the values are
does not matter for it, as no setting looks at the part that another one has changed.

**The second is about values alone**, and assumes that the section was taken. A part is then what
its own key says, or the default if the key is not there. The part of an inner section is the
section that is read at its key, so that the two facts go on from there.

**The tree has two levels** below the root, and every leaf and every section is reached by a path
(`Leaf.nodeAt?_path`, `Section.nodeAt?_path`). The statements are about any leaf and any section, so
they are proved by a case for each, with the same lemmas in all of them. A setting that is added
needs a case and no other proof.

**Texts.** A text is read like its document. The texts that are blank take another way, but their
documents say nothing (`entries?_root_of_isBlankText`), so that the outcome is the same
(`overlay_of_isBlankText`). A configuration that was read is checked before it is returned, so
reading succeeds exactly if it was valid as well (`parse_eq_ok_iff`).
-/

namespace Hygrometer

open Yaml (Document Node Scalar Setting IsField takeSection exists_takeSection_iff text_reads
  natural_reads real_reads choice_reads)

namespace Config

variable {d : Document}

/-- The section that a node is taken as. -/
def Section.Reads (sec : Section) (d : Document) (node : Node) (x : sec.Value) : Prop :=
  ∃ path, takeSection sec.title sec.settings d path node sec.default = .ok x

/-! ### Parts of a section -/

/-- A leaf is decided by what the node of its key stands for. -/
theorem Leaf.isField (leaf : Leaf) : IsField leaf.home.settings d leaf.key leaf.getIn fun node x ↦
    (d.scalar? node).bind leaf.read? = some x := by
  have hnatural (bound : Nat) (type : String) {α : Type} (ofNat : Nat → α) {path : List String}
      {node : Node} {n : Nat} (hn : Yaml.natural bound type d path node = .ok n) :
      ((d.scalar? node).bind fun s ↦ (s.natural? bound).map ofNat) = some (ofNat n) := by
    refine Option.map_bind.symm.trans ?_
    rw [(natural_reads _ _ d path node n).1 hn, Option.map_some]
  cases leaf with
  | version => exact .own (.other (.other (.other .nil))) fun _ _ _ _ ↦ hnatural _ _ _
  | host => exact .own (.other (.other .nil)) fun _ _ s _ ↦ (text_reads d _ _ s).1
  | port => exact .other (.own (.other .nil) fun _ _ _ _ ↦ hnatural _ _ _)
  | serviceName => exact .other (.other (.own .nil fun _ _ s _ ↦ (text_reads d _ _ s).1))
  | kind =>
    exact .own (.other (.other (.other .nil))) fun _ _ kind _ ↦ (choice_reads _ d _ _ kind).1
  | address => exact .other (.own (.other (.other .nil)) fun _ _ _ _ ↦ hnatural _ _ _)
  | lightPin => exact .other (.other (.own (.other .nil) fun _ _ _ _ ↦ hnatural _ _ _))
  | humidity => exact .own (.other (.other .nil)) fun _ _ x _ ↦ (real_reads d _ _ x).1
  | temperatureC => exact .other (.own (.other .nil) fun _ _ x _ ↦ (real_reads d _ _ x).1)
  | lightRaw => exact .other (.other (.own .nil fun _ _ _ _ ↦ hnatural _ _ _))
  | title => exact .own (.other (.other .nil)) fun _ _ s _ ↦ (text_reads d _ _ s).1
  | caption => exact .other (.own (.other .nil) fun _ _ s _ ↦ (text_reads d _ _ s).1)
  | buttonLabel => exact .other (.other (.own .nil fun _ _ s _ ↦ (text_reads d _ _ s).1))

/-- A section is decided by what the node of its key is taken as. -/
theorem Section.isField {sec outer : Section} {key : String} (h : sec.outer? = some (outer, key)) :
    ∃ getIn : outer.Value → sec.Value, IsField outer.settings d key getIn (sec.Reads d) ∧
      ∀ c, getIn (outer.get c) = sec.get c := by
  cases sec <;> cases h
  case server =>
    refine ⟨Config.server, ?_, fun _ ↦ rfl⟩
    exact .other (.own (.other (.other .nil)) fun path _ _ _ hx ↦ ⟨path, hx⟩)
  case source =>
    refine ⟨Config.source, ?_, fun _ ↦ rfl⟩
    exact .other (.other (.own (.other .nil) fun path _ _ _ hx ↦ ⟨path, hx⟩))
  case ambient =>
    refine ⟨SourceConfig.ambient, ?_, fun _ ↦ rfl⟩
    exact .other (.other (.other (.own .nil fun path _ _ _ hx ↦ ⟨path, hx⟩)))
  case page =>
    refine ⟨Config.page, ?_, fun _ ↦ rfl⟩
    exact .other (.other (.other (.own .nil fun path _ _ _ hx ↦ ⟨path, hx⟩)))

/-! ### Settings of a section -/

/-- Whether a setting takes a node depends on the node alone. -/
theorem Section.isUniform (sec : Section) : ∀ setting ∈ sec.settings, setting.IsUniform d := by
  induction sec using Section.upward with
  | outer sec ih =>
    cases sec <;>
      simp only [Section.settings, Config.settings, ServerConfig.settings, SourceConfig.settings,
        Ambient.settings, PageTexts.settings, List.mem_cons, forall_eq_or_imp, List.not_mem_nil,
        or_false, forall_eq]
    case root =>
      exact ⟨(natural_reads _ _).isUniform,
        Yaml.isUniform_section server.nodup_names (ih server _ rfl),
        Yaml.isUniform_section source.nodup_names (ih source _ rfl),
        Yaml.isUniform_section page.nodup_names (ih page _ rfl)⟩
    case server => exact ⟨text_reads.isUniform, (natural_reads _ _).isUniform, text_reads.isUniform⟩
    case source =>
      exact ⟨(choice_reads _).isUniform, (natural_reads _ _).isUniform,
        (natural_reads _ _).isUniform,
        Yaml.isUniform_section ambient.nodup_names (ih ambient _ rfl)⟩
    case ambient =>
      exact ⟨real_reads.isUniform, real_reads.isUniform, (natural_reads _ _).isUniform⟩
    case page => exact ⟨text_reads.isUniform, text_reads.isUniform, text_reads.isUniform⟩

/-- The setting of a leaf takes what the leaf reads. -/
theorem Leaf.exists_setting (leaf : Leaf) (d : Document) : ∃ setting ∈ leaf.home.settings,
    setting.name = leaf.key ∧
      ∀ node, setting.Fits d node ↔ ((d.scalar? node).bind leaf.read?).isSome := by
  have hnatural {σ α : Type} {name type : String} (bound : Nat) (set : Nat → σ → σ)
      (ofNat : Nat → α) (c : σ) (node : Node) :
      (Setting.of name (Yaml.natural bound type) set).Fits d node ↔
        ((d.scalar? node).bind fun s ↦ (s.natural? bound).map ofNat).isSome := by
    rw [(natural_reads _ _).fits_iff c, ← Option.isSome_map (f := ofNat), Option.map_bind]
    rfl
  cases leaf
  case version => exact ⟨_, .head _, rfl, hnatural _ _ _ {}⟩
  case host => exact ⟨_, .head _, rfl, fun _ ↦ text_reads.fits_iff {}⟩
  case port => exact ⟨_, .tail _ (.head _), rfl, hnatural _ _ _ {}⟩
  case serviceName => exact ⟨_, .tail _ (.tail _ (.head _)), rfl, fun _ ↦ text_reads.fits_iff {}⟩
  case kind => exact ⟨_, .head _, rfl, fun _ ↦ (choice_reads _).fits_iff {}⟩
  case address => exact ⟨_, .tail _ (.head _), rfl, hnatural _ _ _ {}⟩
  case lightPin => exact ⟨_, .tail _ (.tail _ (.head _)), rfl, hnatural _ _ _ {}⟩
  case humidity => exact ⟨_, .head _, rfl, fun _ ↦ real_reads.fits_iff {}⟩
  case temperatureC => exact ⟨_, .tail _ (.head _), rfl, fun _ ↦ real_reads.fits_iff {}⟩
  case lightRaw => exact ⟨_, .tail _ (.tail _ (.head _)), rfl, hnatural _ _ _ {}⟩
  case title => exact ⟨_, .head _, rfl, fun _ ↦ text_reads.fits_iff {}⟩
  case caption => exact ⟨_, .tail _ (.head _), rfl, fun _ ↦ text_reads.fits_iff {}⟩
  case buttonLabel => exact ⟨_, .tail _ (.tail _ (.head _)), rfl, fun _ ↦ text_reads.fits_iff {}⟩

/-- The setting of a section takes what can be taken as the section. -/
theorem Section.exists_setting {sec outer : Section} {key : String}
    (h : sec.outer? = some (outer, key)) (d : Document) : ∃ setting ∈ outer.settings,
      setting.name = key ∧ ∀ node, setting.Fits d node ↔ ∃ x, sec.Reads d node x := by
  cases sec <;> cases h
  case server =>
    exact ⟨_, .tail _ (.head _), rfl, fun _ ↦ (Setting.fits_of_iff {}).trans exists_comm⟩
  case source =>
    exact ⟨_, .tail _ (.tail _ (.head _)), rfl, fun _ ↦ (Setting.fits_of_iff {}).trans exists_comm⟩
  case ambient =>
    exact ⟨_, .tail _ (.tail _ (.tail _ (.head _))), rfl,
      fun _ ↦ (Setting.fits_of_iff {}).trans exists_comm⟩
  case page =>
    exact ⟨_, .tail _ (.tail _ (.tail _ (.head _))), rfl,
      fun _ ↦ (Setting.fits_of_iff {}).trans exists_comm⟩

/-- A key of a section is that of a leaf or of a section inside it. -/
theorem Section.key_cases (sec : Section) : ∀ key ∈ sec.keys,
    (∃ leaf : Leaf, leaf.home = sec ∧ leaf.key = key) ∨
      ∃ inner : Section, inner.outer? = some (sec, key) := by
  cases sec <;>
    simp only [Section.keys, List.mem_cons, forall_eq_or_imp, List.not_mem_nil, or_false, forall_eq]
  case root =>
    exact ⟨.inl ⟨.version, rfl, rfl⟩, .inr ⟨.server, rfl⟩, .inr ⟨.source, rfl⟩, .inr ⟨.page, rfl⟩⟩
  case server =>
    exact ⟨.inl ⟨.host, rfl, rfl⟩, .inl ⟨.port, rfl, rfl⟩, .inl ⟨.serviceName, rfl, rfl⟩⟩
  case source =>
    exact ⟨.inl ⟨.kind, rfl, rfl⟩, .inl ⟨.address, rfl, rfl⟩, .inl ⟨.lightPin, rfl, rfl⟩,
      .inr ⟨.ambient, rfl⟩⟩
  case ambient =>
    exact ⟨.inl ⟨.humidity, rfl, rfl⟩, .inl ⟨.temperatureC, rfl, rfl⟩, .inl ⟨.lightRaw, rfl, rfl⟩⟩
  case page =>
    exact ⟨.inl ⟨.title, rfl, rfl⟩, .inl ⟨.caption, rfl, rfl⟩, .inl ⟨.buttonLabel, rfl, rfl⟩⟩

/-- Whether a section can be taken does not depend on the path. -/
theorem Section.exists_take_iff (sec : Section) (path : List String) {node : Node} :
    (∃ x, takeSection sec.title sec.settings d path node sec.default = .ok x) ↔
      ∃ x, sec.Reads d node x := by
  constructor
  · rintro ⟨x, hx⟩
    exact ⟨x, path, hx⟩
  · rintro ⟨x, path₀, hx⟩
    exact (exists_takeSection_iff sec.nodup_names sec.isUniform).2
      ((exists_takeSection_iff sec.nodup_names sec.isUniform).1 ⟨x, hx⟩)

/-- **When a section can be taken.** -/
theorem Section.exists_reads_iff (sec : Section) {node : Node} :
    (∃ x, sec.Reads d node x) ↔ d.IsSection sec.keys node ∧
      (∀ leaf : Leaf, leaf.home = sec → ∀ value, d.valueAt? node leaf.key = some value →
        ((d.scalar? value).bind leaf.read?).isSome) ∧
      ∀ (inner : Section) key, inner.outer? = some (sec, key) →
        ∀ value, d.valueAt? node key = some value → ∃ x, inner.Reads d value x := by
  rw [← sec.exists_take_iff [], exists_takeSection_iff sec.nodup_names sec.isUniform,
    sec.map_name_settings]
  refine and_congr_right fun _ ↦ ⟨fun h ↦ ⟨?_, ?_⟩, ?_⟩
  · rintro leaf rfl value hvalue
    obtain ⟨setting, hmem, hname, hfits⟩ := leaf.exists_setting d
    exact (hfits value).1 (h setting hmem value (hname ▸ hvalue))
  · intro inner key houter value hvalue
    obtain ⟨setting, hmem, hname, hfits⟩ := Section.exists_setting houter d
    exact (hfits value).1 (h setting hmem value (hname ▸ hvalue))
  · rintro ⟨hleaf, hinner⟩ setting hmem value hvalue
    have hkey : setting.name ∈ sec.keys := sec.map_name_settings ▸ List.mem_map_of_mem hmem
    rcases sec.key_cases _ hkey with ⟨leaf, rfl, hname⟩ | ⟨inner, houter⟩
    · obtain ⟨setting', hmem', hname', hfits⟩ := leaf.exists_setting d
      obtain rfl := List.inj_on_of_nodup_map (Section.nodup_names _) hmem' hmem (hname'.trans hname)
      exact (hfits value).2 (hleaf leaf rfl value (hname ▸ hvalue))
    · obtain ⟨setting', hmem', hname', hfits⟩ := Section.exists_setting houter d
      obtain rfl := List.inj_on_of_nodup_map (Section.nodup_names _) hmem' hmem hname'
      exact (hfits value).2 (hinner inner _ houter value hvalue)

/-! ### Down the tree of sections -/

theorem Section.nodeAt?_path {sec outer : Section} {key : String}
    (h : sec.outer? = some (outer, key)) (d : Document) :
    d.nodeAt? sec.path = (d.nodeAt? outer.path).bind (d.valueAt? · key) := by
  rw [Section.path_eq h, d.nodeAt?_concat]

theorem Leaf.nodeAt?_path (leaf : Leaf) (d : Document) :
    d.nodeAt? leaf.path = (d.nodeAt? leaf.home.path).bind (d.valueAt? · leaf.key) :=
  d.nodeAt?_concat _ _

/-- What is taken at the root is taken all the way down, and a section that is not there is the
default. -/
theorem Section.reads_get {c : Config} (h : root.Reads d d.root c) (sec : Section) :
    (∀ node, d.nodeAt? sec.path = some node → sec.Reads d node (sec.get c)) ∧
      (d.nodeAt? sec.path = none → sec.get c = sec.default) := by
  induction sec using Section.downward with
  | root => exact ⟨fun node hnode ↦ by cases hnode; exact h, fun hnone ↦ (by cases hnone)⟩
  | inner sec outer key houter ih =>
    obtain ⟨getIn, hfield, hget⟩ := Section.isField houter (d := d)
    have hdefault : getIn outer.default = sec.default := by
      rw [← outer.get_default, hget, sec.get_default]
    rw [Section.nodeAt?_path houter, ← hget]
    cases hnode : d.nodeAt? outer.path with
    | none => exact ⟨fun _ h ↦ (by cases h), fun _ ↦ by rw [ih.2 hnode, hdefault]⟩
    | some node =>
      obtain ⟨path, htake⟩ := ih.1 node hnode
      obtain ⟨hreads, hkeeps⟩ := hfield.of_takeSection htake
      exact ⟨hreads, fun hnone ↦ (hkeeps hnone).trans hdefault⟩

/-- **What a leaf is.** -/
theorem Leaf.get_eq {c : Config} (h : Section.root.Reads d d.root c) (leaf : Leaf) :
    leaf.get c = (d.setting? leaf).getD (leaf.get {}) := by
  obtain ⟨hreads, hdefault⟩ := leaf.home.reads_get h
  rw [Document.setting?, leaf.nodeAt?_path, Leaf.get, Leaf.get, leaf.home.get_default]
  cases hnode : d.nodeAt? leaf.home.path with
  | none => rw [hdefault hnode]; rfl
  | some node =>
    obtain ⟨path, htake⟩ := hreads node hnode
    obtain ⟨hreads, hkeeps⟩ := leaf.isField.of_takeSection htake
    rw [Option.bind_some]
    cases hvalue : d.valueAt? node leaf.key with
    | none => exact hkeeps hvalue
    | some value =>
      rw [Option.bind_some, hreads value hvalue]
      rfl

/-- **Which documents can be taken.** -/
theorem exists_reads_root_iff : (∃ c, Section.root.Reads d d.root c) ↔
    (∀ (sec : Section) node, d.nodeAt? sec.path = some node → d.IsSection sec.keys node) ∧
      ∀ (leaf : Leaf) node, d.nodeAt? leaf.path = some node →
        ((d.scalar? node).bind leaf.read?).isSome := by
  constructor
  · rintro ⟨c, h⟩
    refine ⟨fun sec node hnode ↦ ?_, fun leaf node hnode ↦ ?_⟩
    · exact (sec.exists_reads_iff.1 ⟨_, (sec.reads_get h).1 node hnode⟩).1
    · rw [leaf.nodeAt?_path] at hnode
      obtain ⟨outer, houter, hvalue⟩ := Option.bind_eq_some_iff.1 hnode
      exact (leaf.home.exists_reads_iff.1 ⟨_, (leaf.home.reads_get h).1 outer houter⟩).2.1 leaf rfl
        node hvalue
  · rintro ⟨hsections, hleaves⟩
    have htaken (sec : Section) : ∀ node, d.nodeAt? sec.path = some node →
        ∃ x, sec.Reads d node x := by
      induction sec using Section.upward with
      | outer sec ih =>
        intro node hnode
        refine sec.exists_reads_iff.2 ⟨hsections sec node hnode, ?_, ?_⟩
        · rintro leaf rfl value hvalue
          exact hleaves leaf value (by rw [leaf.nodeAt?_path, hnode, Option.bind_some, hvalue])
        · intro inner key houter value hvalue
          exact ih inner key houter value
            (by rw [Section.nodeAt?_path houter, hnode, Option.bind_some, hvalue])
    exact htaken .root d.root rfl

/-- **A document is read exactly if it is a configuration**, as what it says over the defaults. -/
theorem ofDocument_eq_ok_iff {c : Config} :
    ofDocument d = .ok c ↔ d.IsConfig ∧ c = overlay d.setting? := by
  have heq {c : Config} (h : Section.root.Reads d d.root c) : c = overlay d.setting? :=
    congrArg ofLeaves (funext fun leaf ↦ leaf.get_eq h)
  rw [ofDocument, Except.bind_eq_ok_iff]
  constructor
  · rintro ⟨c', htake, hwhole⟩
    have hroot : Section.root.Reads d d.root c' := ⟨[], htake⟩
    obtain ⟨hsections, hleaves⟩ := exists_reads_root_iff.1 ⟨c', hroot⟩
    split at hwhole
    next hd =>
      cases hwhole
      exact ⟨⟨hd, hsections, hleaves⟩, heq hroot⟩
    next => cases hwhole
  · rintro ⟨hd, rfl⟩
    obtain ⟨c₀, hroot⟩ := exists_reads_root_iff.2 ⟨hd.sections, hd.leaves⟩
    obtain ⟨c, htake⟩ := (Section.root.exists_take_iff []).2 ⟨c₀, hroot⟩
    have hc : c = overlay d.setting? := heq ⟨[], htake⟩
    exact ⟨c, htake, by rw [if_pos hd.whole, hc]; rfl⟩

/-! ### Texts -/

/-- **A blank text says nothing.** -/
theorem entries?_root_of_isBlankText {s : String} (h : Text.isBlankText s = true) :
    (Document.ofText s).entries? (Document.ofText s).root = none := by
  rw [Document.entries?]
  split
  next mark tag entries heq => exact absurd heq (Document.follow_root_ne_mapping h mark tag entries)
  next => rfl

theorem setting?_of_entries?_root (h : d.entries? d.root = none) (leaf : Leaf) :
    d.setting? leaf = none := by
  obtain ⟨name, path, hpath⟩ : ∃ name path, leaf.path = name :: path :=
    List.exists_cons_of_ne_nil (by simp [Leaf.path])
  have hnode : d.nodeAt? leaf.path = none := by
    rw [hpath, Document.nodeAt?, List.foldlM_cons, Document.valueAt?, h]
    rfl
  rw [Document.setting?, hnode]
  rfl

theorem parse_of_isBlankText {s : String} (h : Text.isBlankText s = true) : parse s = .ok {} := by
  rw [parse, if_pos h, Except.bind_eq_ok_iff]
  have hvalid := validate_eq_ok_iff.2 isValid_default
  exact ⟨{}, rfl, Except.andThen_eq_ok_iff.2 ⟨Except.mapError_eq_ok_iff.2 hvalid, rfl⟩⟩

theorem parse_eq_ok_iff {s : String} {c : Config} (h : Text.isBlankText s = false) :
    parse s = .ok c ↔ ofDocument (.ofText s) = .ok c ∧ c.validate = .ok () := by
  rw [parse, if_neg (by simp [h]), Except.bind_eq_ok_iff]
  simp only [Except.mapError_eq_ok_iff, Except.andThen_eq_ok_iff]
  constructor
  · rintro ⟨c', hc, hvalid, heq⟩
    cases heq
    exact ⟨hc, hvalid⟩
  · rintro ⟨hc, hvalid⟩
    exact ⟨c, hc, hvalid, rfl⟩

theorem overlay_of_isBlankText {s : String} (h : Text.isBlankText s = true) :
    overlay (Document.ofText s).setting? = {} := by
  simp only [overlay, setting?_of_entries?_root (entries?_root_of_isBlankText h), Option.getD_none]
  rfl

/-- **A configuration in a text is read**, if what it says is valid. -/
theorem parse_of_isConfig {s : String} (hd : (Document.ofText s).IsConfig)
    (hvalid : (overlay (Document.ofText s).setting?).validate = .ok ()) :
    parse s = .ok (overlay (Document.ofText s).setting?) := by
  cases hblank : Text.isBlankText s with
  | true => rw [parse_of_isBlankText hblank, overlay_of_isBlankText hblank]
  | false => exact (parse_eq_ok_iff hblank).2 ⟨ofDocument_eq_ok_iff.2 ⟨hd, rfl⟩, hvalid⟩

/-- What is read is what the text says, over the defaults. -/
theorem eq_overlay_of_parse {s : String} {c : Config} (h : parse s = .ok c) :
    c = overlay (Document.ofText s).setting? := by
  cases hblank : Text.isBlankText s with
  | true =>
    rw [overlay_of_isBlankText hblank]
    exact Except.ok.inj (h.symm.trans (parse_of_isBlankText hblank))
  | false => exact (ofDocument_eq_ok_iff.1 ((parse_eq_ok_iff hblank).1 h).1).2

/-- **What is read is a configuration**, unless the text holds no mapping. -/
theorem isConfig_of_parse {s : String} {c : Config} (h : parse s = .ok c)
    (hroot : ((Document.ofText s).entries? (Document.ofText s).root).isSome) :
    (Document.ofText s).IsConfig := by
  have hblank : Text.isBlankText s = false := by
    by_contra hblank
    rw [entries?_root_of_isBlankText (by simpa using hblank)] at hroot
    cases hroot
  exact (ofDocument_eq_ok_iff.1 ((parse_eq_ok_iff hblank).1 h).1).1

end Config
end Hygrometer
