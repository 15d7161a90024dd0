import Hygrometer.Yaml.Node
import Mathlib.Data.List.Induction

/-!
# Keys and paths in a document

A document is seen by its keys from here on. The **names** of a mapping are the texts of its keys,
and a path of names leads from the root to a value. References are followed everywhere, so that a
mapping behind one counts like a mapping in its place. A section may be left out, with nothing
behind its key (`IsLeftOut`), and has no entries then; anything else that is no mapping is no
section (`IsSection`).

There are two ways to follow a path, since a name may come twice.

* `nodeAt?` takes the first entry of each name. It is a function, so it says what the value of a
  setting is, and in a mapping whose names are all different it is the whole truth
  (`valueOf?_of_mem`).
* `LeadsTo` takes any of them. It is a relation, so whatever must hold of every entry is said of it:
  that a key is one of those that are known, and that none comes again. A path that comes twice has
  two values for it, of which `nodeAt?` would show only one.

The function is a case of the relation (`leadsTo_of_nodeAt?`). The converse needs that names are
different, and this is what a document that is read as a configuration is found to be, section by
section, from the root down.

A path grows at its end: the root has the empty path, and one more name leads on from the value that
the path before it has (`nodeAt?_concat`, `LeadsTo.exists_of_concat`). So facts about settings are
proved by going down the sections as they lie in each other, and never by taking a whole path apart.
-/

namespace Hygrometer.Yaml.Document

variable (d : Document)

/-- The scalar that a node stands for. -/
def scalar? (node : Node) : Option Scalar :=
  match d.follow node with
  | .scalar _ s => some s
  | _ => none

/-- The name that a key spells, if it is a scalar. -/
def keyName? (key : Node) : Option String := (d.scalar? key).map (·.text)

/-- The names of entries, in their order. -/
def keyNames (entries : List (Node × Node)) : List (Option String) :=
  entries.map (d.keyName? ·.1)

/-- The entries of the mapping that a node stands for. -/
def entries? (node : Node) : Option (List (Node × Node)) :=
  match d.follow node with
  | .mapping _ _ entries => some entries
  | _ => none

/-- The node is only the place where one was left out. -/
def IsLeftOut (node : Node) : Prop :=
  ∃ s, d.scalar? node = some s ∧ s.style = .plain ∧ s.text = ""

variable {d} in
/-- A scalar is no mapping. -/
theorem entries?_of_scalar? {node : Node} {s : Scalar} (h : d.scalar? node = some s) :
    d.entries? node = none := by
  rw [scalar?] at h
  rw [entries?]
  cases hfollow : d.follow node with
  | mapping mark tag entries =>
    rw [hfollow] at h
    cases h
  | _ => rfl

/-- Each of the entries has one of these names, and no two have the same. -/
structure IsTable (names : List String) (entries : List (Node × Node)) : Prop where
  /-- Every name is one of these. -/
  known : ∀ name? ∈ d.keyNames entries, ∃ name ∈ names, name? = some name
  /-- No name comes twice. -/
  nodup : (d.keyNames entries).Nodup

/-- The node is left out, or stands for a mapping with some of these names. -/
def IsSection (names : List String) (node : Node) : Prop :=
  d.IsLeftOut node ∨ ∃ entries, d.entries? node = some entries ∧ d.IsTable names entries

variable {d} in
/-- A section that is a mapping is a table. -/
theorem IsSection.isTable {names : List String} {node : Node} {entries : List (Node × Node)}
    (h : d.IsSection names node) (hentries : d.entries? node = some entries) :
    d.IsTable names entries := by
  obtain ⟨s, hs, -⟩ | ⟨entries', hentries', htable⟩ := h
  · cases (entries?_of_scalar? hs).symm.trans hentries
  · cases hentries.symm.trans hentries'
    exact htable

/-! ### Values -/

/-- The value of the first entry with a name. -/
def valueOf? (entries : List (Node × Node)) (name : String) : Option Node :=
  (entries.find? fun entry ↦ d.keyName? entry.1 = some name).map (·.2)

/-- The value that a node has for a name, if it stands for a mapping. -/
def valueAt? (node : Node) (name : String) : Option Node :=
  (d.entries? node).bind (d.valueOf? · name)

/-- The node at the end of a path from the root. -/
def nodeAt? (path : List String) : Option Node := path.foldlM d.valueAt? d.root

/-- The first entry of a name has its value. -/
theorem valueOf?_cons_of_eq {key value : Node} {name : String} (h : d.keyName? key = some name)
    (entries : List (Node × Node)) : d.valueOf? ((key, value) :: entries) name = some value := by
  rw [valueOf?, List.find?_cons_of_pos (by simpa using h), Option.map_some]

/-- An entry of another name is passed. -/
theorem valueOf?_cons_of_ne {key value : Node} {name : String} (h : d.keyName? key ≠ some name)
    (entries : List (Node × Node)) :
    d.valueOf? ((key, value) :: entries) name = d.valueOf? entries name := by
  rw [valueOf?, List.find?_cons_of_neg (by simpa using h), valueOf?]

/-- There is no value exactly for what is no name. -/
theorem valueOf?_eq_none_iff {entries : List (Node × Node)} {name : String} :
    d.valueOf? entries name = none ↔ some name ∉ d.keyNames entries := by
  simp [valueOf?, keyNames]

/-- A value belongs to an entry of its name. -/
theorem exists_mem_of_valueOf? {entries : List (Node × Node)} {name : String} {value : Node}
    (h : d.valueOf? entries name = some value) :
    ∃ key, (key, value) ∈ entries ∧ d.keyName? key = some name := by
  obtain ⟨⟨key, _⟩, hfind, rfl⟩ := Option.map_eq_some_iff.1 h
  exact ⟨key, List.mem_of_find?_eq_some hfind, by simpa using List.find?_some hfind⟩

/-- If no name comes twice, every entry is the first with its name. -/
theorem valueOf?_of_mem {entries : List (Node × Node)} (hnodup : (d.keyNames entries).Nodup)
    {key value : Node} {name : String} (hmem : (key, value) ∈ entries)
    (hkey : d.keyName? key = some name) : d.valueOf? entries name = some value := by
  induction entries with
  | nil => cases hmem
  | cons entry rest ih =>
    obtain ⟨hnew, hnodup⟩ := List.nodup_cons.1 hnodup
    rcases List.mem_cons.1 hmem with rfl | hmem
    · exact d.valueOf?_cons_of_eq hkey rest
    · have hne : d.keyName? entry.1 ≠ some name := fun heq ↦
        hnew (List.mem_map.2 ⟨_, hmem, hkey.trans heq.symm⟩)
      rw [d.valueOf?_cons_of_ne hne]
      exact ih hnodup hmem

/-- In a mapping, a name has the value of its first entry. -/
theorem valueAt?_of_entries? {node : Node} {entries : List (Node × Node)}
    (h : d.entries? node = some entries) (name : String) :
    d.valueAt? node name = d.valueOf? entries name := by
  rw [valueAt?, h, Option.bind_some]

/-- What is left out has no entries. -/
theorem valueAt?_of_isLeftOut {node : Node} (h : d.IsLeftOut node) (name : String) :
    d.valueAt? node name = none := by
  obtain ⟨s, hs, -⟩ := h
  rw [valueAt?, entries?_of_scalar? hs, Option.bind_none]

/-- **A path goes on from the value that it has led to.** -/
theorem nodeAt?_concat (path : List String) (name : String) :
    d.nodeAt? (path ++ [name]) = (d.nodeAt? path).bind (d.valueAt? · name) := by
  rw [nodeAt?, List.foldlM_append]
  simp [nodeAt?, bind]

/-! ### All values -/

/-- A path of names leads from the root to a node. -/
inductive LeadsTo : List String → Node → Prop where
  /-- The empty path leads to the root. -/
  | root : LeadsTo [] d.root
  /-- A path to a mapping goes on with the name of any entry to its value. -/
  | entry {path : List String} {node key value : Node} {entries : List (Node × Node)}
    {name : String} (hnode : LeadsTo path node) (hentries : d.entries? node = some entries)
    (hmem : (key, value) ∈ entries) (hname : d.keyName? key = some name) :
    LeadsTo (path ++ [name]) value

variable {d}

/-- The first entries are entries. -/
theorem leadsTo_of_nodeAt? {path : List String} {node : Node} (h : d.nodeAt? path = some node) :
    d.LeadsTo path node := by
  induction path using List.reverseRecOn generalizing node with
  | nil =>
    cases h
    exact .root
  | append_singleton path name ih =>
    rw [nodeAt?_concat] at h
    obtain ⟨outer, houter, hvalue⟩ := Option.bind_eq_some_iff.1 h
    obtain ⟨entries, hentries, hvalue⟩ := Option.bind_eq_some_iff.1 hvalue
    obtain ⟨key, hmem, hname⟩ := d.exists_mem_of_valueOf? hvalue
    exact .entry (ih houter) hentries hmem hname

/-- The empty path leads nowhere else than to the root. -/
theorem LeadsTo.eq_root {node : Node} (h : d.LeadsTo [] node) : node = d.root := by
  generalize hpath : ([] : List String) = path at h
  cases h with
  | root => rfl
  | entry => simp at hpath

/-- The last step of a path is an entry of what the path before it leads to. -/
theorem LeadsTo.exists_of_concat {path : List String} {name : String} {value : Node}
    (h : d.LeadsTo (path ++ [name]) value) :
    ∃ node entries key, d.LeadsTo path node ∧ d.entries? node = some entries ∧
      (key, value) ∈ entries ∧ d.keyName? key = some name := by
  generalize hpath : path ++ [name] = path' at h
  cases h with
  | root => simp at hpath
  | entry hnode hentries hmem hname =>
    obtain ⟨rfl, hsingle⟩ := List.append_inj' hpath rfl
    cases hsingle
    exact ⟨_, _, _, hnode, hentries, hmem, hname⟩

/-- A path to a mapping leads through a mapping at the root. -/
theorem LeadsTo.isSome_entries?_root {path : List String} {node : Node} (h : d.LeadsTo path node)
    (hnode : (d.entries? node).isSome) : (d.entries? d.root).isSome := by
  induction h with
  | root => exact hnode
  | entry _ hentries _ _ ih => exact ih (by rw [hentries]; rfl)

end Hygrometer.Yaml.Document
