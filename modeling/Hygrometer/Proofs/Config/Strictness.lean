import Hygrometer.Proofs.Config.Reading

/-!
# Strict reading

In a configuration every mapping is a table of the keys of its section, so a path from the root has
one value at most (`nodeAt?_of_leadsTo`). A mapping with a key that is unknown or comes twice thus
stands in no configuration, wherever in the text it is and whatever stands beside it, and what is no
configuration is not read.

**A path may have several values** in a document that is none. A key that comes twice has two, and
either of them may hold the mapping that is wrong. So the statement is about any mapping that a path
leads to (`Document.LeadsTo`), and not about the one that looking up a key would find: no repetition
can hide what is behind it.

A key that belongs to another section is unknown here like any other, as no two sections share a key
(`Section.disjoint_keys`). And whatever is refused is refused as a bad request, since nothing else
can go wrong with a text that could be read (`kind_of_parse_error`).
-/

namespace Hygrometer.Config

open Yaml (Document Node)

variable {d : Document}

/-- In a configuration a path to a section leads to one node. -/
theorem nodeAt?_of_leadsTo (hd : d.IsConfig) {sec : Section} {node : Node}
    (h : d.LeadsTo sec.path node) : d.nodeAt? sec.path = some node := by
  induction sec using Section.downward generalizing node with
  | root => exact congrArg some h.eq_root.symm
  | inner sec outer key houter ih =>
    rw [Section.path_eq houter] at h
    obtain ⟨around, entries, name, haround, hentries, hmem, hname⟩ := h.exists_of_concat
    have htable := (hd.sections outer around (ih haround)).isTable hentries
    rw [Section.nodeAt?_path houter, ih haround, Option.bind_some,
      d.valueAt?_of_entries? hentries]
    exact d.valueOf?_of_mem htable.nodup hmem hname

/-- In what was read, every mapping of a section is a table of its keys. -/
theorem isTable_of_parse {s : String} {c : Config} (h : parse s = .ok c) {sec : Section}
    {node : Node} {entries : List (Node × Node)} (hpath : (Document.ofText s).LeadsTo sec.path node)
    (hentries : (Document.ofText s).entries? node = some entries) :
    (Document.ofText s).IsTable sec.keys entries := by
  have hd := isConfig_of_parse h (hpath.isSome_entries?_root (by rw [hentries]; rfl))
  exact (hd.sections sec node (nodeAt?_of_leadsTo hd hpath)).isTable hentries

/-- No two sections have a key in common. -/
theorem Section.disjoint_keys {sec sec' : Section} (h : sec ≠ sec') {key : String}
    (hkey : key ∈ sec.keys) : key ∉ sec'.keys := by
  revert key
  cases sec <;> cases sec' <;> simp [Section.keys] at h ⊢

/-- Whatever is wrong with a text, it is the operator's mistake. -/
theorem kind_of_parse_error {s : String} {failure : Failure} (h : parse s = .error failure) :
    failure.kind = .badRequest := by
  have hchecked (c : Config)
      (h : (c.validate.mapError (·.toFailure) >>= fun _ ↦ pure c) = .error failure) :
      failure.kind = .badRequest := by
    obtain hinvalid | ⟨-, -, hpure⟩ := Except.bind_eq_error_iff.1 h
    · obtain ⟨invalid, -, rfl⟩ := Except.mapError_eq_error_iff.1 hinvalid
      rfl
    · cases hpure
  rw [parse] at h
  split at h
  · obtain hread | ⟨c, -, h⟩ := Except.bind_eq_error_iff.1 h
    · cases hread
    · exact hchecked c h
  · obtain hread | ⟨c, -, h⟩ := Except.bind_eq_error_iff.1 h
    · obtain ⟨refusal, -, rfl⟩ := Except.mapError_eq_error_iff.1 hread
      rfl
    · exact hchecked c h

/-- **Strict reading.** -/
theorem parse_strict (s : String) :
    (∀ (sec : Section) node entries, (Document.ofText s).LeadsTo sec.path node →
      (Document.ofText s).entries? node = some entries →
      ((∃ name? ∈ (Document.ofText s).keyNames entries, ∀ key ∈ sec.keys, name? ≠ some key) ∨
        ∃ key ∈ sec.keys, 2 ≤ ((Document.ofText s).keyNames entries).count (some key)) →
      ∃ failure, parse s = .error failure) ∧
    (∀ failure, parse s = .error failure → failure.kind = .badRequest) ∧
    ∀ home sec : Section, home ≠ sec → ∀ key ∈ home.keys,
      ∀ node entries, (Document.ofText s).LeadsTo sec.path node →
      (Document.ofText s).entries? node = some entries →
      some key ∈ (Document.ofText s).keyNames entries → ∃ failure, parse s = .error failure := by
  -- What was parsed has a table at every path, so it is enough that this mapping is none.
  have hrefused (sec : Section) (node : Node) (entries : List (Node × Node))
      (hpath : (Document.ofText s).LeadsTo sec.path node)
      (hentries : (Document.ofText s).entries? node = some entries)
      (hbroken : ¬(Document.ofText s).IsTable sec.keys entries) :
      ∃ failure, parse s = .error failure := by
    cases hparse : parse s with
    | error failure => exact ⟨failure, rfl⟩
    | ok c => exact absurd (isTable_of_parse hparse hpath hentries) hbroken
  refine ⟨fun sec node entries hpath hentries hfaulty ↦ ?_, fun _ ↦ kind_of_parse_error,
    fun home sec hne key hkey node entries hpath hentries hmem ↦ ?_⟩
  · refine hrefused sec node entries hpath hentries fun htable ↦ ?_
    obtain ⟨name?, hmem, hunknown⟩ | ⟨key, -, htwice⟩ := hfaulty
    · obtain ⟨name, hname, heq⟩ := htable.known name? hmem
      exact hunknown name hname heq
    · have hcount := List.nodup_iff_count_le_one.1 htable.nodup (some key)
      omega
  · refine hrefused sec node entries hpath hentries fun htable ↦ ?_
    obtain ⟨name, hname, heq⟩ := htable.known _ hmem
    exact Section.disjoint_keys hne hkey (Option.some_inj.1 heq ▸ hname)

/-- A port among the simulated conditions, and a title that is given twice. -/
theorem parse_strict_misplaced :
    let s := "source:\n  simulated: {port: 1}\nui: {title: a, caption: b, title: c}\n"
    let d := Document.ofText s
    (∃ node entries, d.LeadsTo Section.ambient.path node ∧ d.entries? node = some entries ∧
      some "port" ∈ d.keyNames entries) ∧
    (∃ node entries, d.LeadsTo Section.page.path node ∧ d.entries? node = some entries ∧
      2 ≤ (d.keyNames entries).count (some "title")) ∧
    ∃ failure, parse s = .error failure ∧ failure.kind = .badRequest := by
  intro s d
  have hambient : ((d.nodeAt? Section.ambient.path).bind d.entries?).map d.keyNames =
      some [some "port"] := by decide +kernel
  have hpage : ((d.nodeAt? Section.page.path).bind d.entries?).map d.keyNames =
      some [some "title", some "caption", some "title"] := by decide +kernel
  obtain ⟨entries, hnode, hnames⟩ := Option.map_eq_some_iff.1 hambient
  obtain ⟨node, hpath, hentries⟩ := Option.bind_eq_some_iff.1 hnode
  obtain ⟨entries', hnode', hnames'⟩ := Option.map_eq_some_iff.1 hpage
  obtain ⟨node', hpath', hentries'⟩ := Option.bind_eq_some_iff.1 hnode'
  have hlead := Document.leadsTo_of_nodeAt? hpath
  have hlead' := Document.leadsTo_of_nodeAt? hpath'
  have hport : some "port" ∈ d.keyNames entries := by rw [hnames]; decide
  have htitle : 2 ≤ (d.keyNames entries').count (some "title") := by rw [hnames']; decide
  obtain ⟨hfaulty, hkind, hmisplaced⟩ := parse_strict s
  have htwice : ∃ failure, parse s = .error failure :=
    hfaulty .page node' entries' hlead' hentries' (.inr ⟨"title", by decide, htitle⟩)
  obtain ⟨failure, hfailure⟩ :=
    hmisplaced .server .ambient (by decide) "port" (by decide) node entries hlead hentries hport
  exact ⟨⟨node, entries, hlead, hentries, hport⟩, ⟨node', entries', hlead', hentries', htitle⟩,
    failure, hfailure, hkind failure hfailure⟩

end Hygrometer.Config
