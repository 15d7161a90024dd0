import Hygrometer.Proofs.Yaml.Path
import Mathlib.Data.List.Forall2

/-!
# Documents up to the order of keys

Two nodes, each in its own document, are the same up to the order of keys if they stand for the same
scalar, or for mappings whose entries have the same names with such values in some order. Neither
the places in the text nor what is behind a reference or written out makes a difference.

Where names come once, a name then leads to values that are the same again
(`Reordered.rel_valueAt?`), so that whatever is read by following names is read alike.

**The relation is inductive** and says nothing of sequences, which no configuration has. An order of
entries is a list that both mappings have the same names with, once one of them was put in order;
names that come twice would have to be told apart by their values, and the lemmas ask that there are
none (`valueOf?_eq_of_perm`).

**Along a path** the relation is carried on by `Option.Rel`: either both documents have a node at
the path, and the two are related, or neither has one (`rel_bind`).
-/

namespace Hygrometer.Yaml.Document

/-- The nodes of two documents are the same up to the order of keys. -/
inductive Reordered (d d' : Document) : Node → Node → Prop where
  /-- The same scalar. -/
  | scalar {node node' : Node} {s : Scalar} (h : d.scalar? node = some s)
    (h' : d'.scalar? node' = some s) : Reordered d d' node node'
  /-- The same names with the same values, in the order that is between and then in another. -/
  | mapping {node node' : Node} {entries between entries' : List (Node × Node)}
    (h : d.entries? node = some entries) (h' : d'.entries? node' = some entries')
    (hnames : d.keyNames entries = d'.keyNames between)
    (hvalues : List.Forall₂ (Reordered d d') (entries.map (·.2)) (between.map (·.2)))
    (hperm : between.Perm entries') : Reordered d d' node node'

variable {d d' : Document} {node node' : Node}

/-- Two entries that are scalars, in either order. -/
theorem reordered_swap {name name' : String} {s s' : Scalar}
    (h : (d.entries? node).map (·.map fun entry ↦ (d.keyName? entry.1, d.scalar? entry.2)) =
      some [(some name, some s), (some name', some s')])
    (h' : (d'.entries? node').map (·.map fun entry ↦ (d'.keyName? entry.1, d'.scalar? entry.2)) =
      some [(some name', some s'), (some name, some s)]) : Reordered d d' node node' := by
  obtain ⟨entries, hentries, hmap⟩ := Option.map_eq_some_iff.1 h
  obtain ⟨entries', hentries', hmap'⟩ := Option.map_eq_some_iff.1 h'
  simp only [List.map_eq_cons_iff, List.map_eq_nil_iff, Prod.mk.injEq] at hmap hmap'
  obtain ⟨one, rest, rfl, ⟨hone, hs⟩, two, rest, rfl, ⟨htwo, hs'⟩, rfl⟩ := hmap
  obtain ⟨two', rest, rfl, ⟨htwo', ht'⟩, one', rest, rfl, ⟨hone', ht⟩, rfl⟩ := hmap'
  refine .mapping hentries hentries' ?_ ?_ (.swap two' one' [])
  · simp [keyNames, hone, hone', htwo, htwo']
  · exact .cons (.scalar hs ht) (.cons (.scalar hs' ht') .nil)

/-- Steps that keep a relation may follow one another. -/
theorem rel_bind {α β γ δ : Type} {R : α → β → Prop} {S : γ → δ → Prop} {x : Option α}
    {y : Option β} {f : α → Option γ} {g : β → Option δ} (h : Option.Rel R x y)
    (hstep : ∀ a b, x = some a → R a b → Option.Rel S (f a) (g b)) :
    Option.Rel S (x.bind f) (y.bind g) := by
  cases h with
  | none => exact .none
  | some h => exact hstep _ _ rfl h

theorem exists_of_rel {α β : Type} {R : α → β → Prop} {x : Option α} {b : β}
    (h : Option.Rel R x (some b)) : ∃ a, x = some a ∧ R a b := by
  cases h with
  | some h => exact ⟨_, rfl, h⟩

theorem scalar?_of_entries? {entries : List (Node × Node)} (h : d.entries? node = some entries) :
    d.scalar? node = none := by
  rw [Option.eq_none_iff_forall_ne_some]
  intro s hs
  cases (entries?_of_scalar? hs).symm.trans h

theorem perm_keyNames {entries entries' : List (Node × Node)} (h : entries.Perm entries') :
    (d.keyNames entries).Perm (d.keyNames entries') := h.map _

/-- The order of entries does not matter if no name comes twice. -/
theorem valueOf?_eq_of_perm {entries entries' : List (Node × Node)}
    (hnodup : (d.keyNames entries).Nodup) (hperm : entries.Perm entries') (name : String) :
    d.valueOf? entries name = d.valueOf? entries' name := by
  have hnodup' : (d.keyNames entries').Nodup := (perm_keyNames hperm).nodup_iff.1 hnodup
  cases hvalue : d.valueOf? entries name with
  | none =>
    rw [valueOf?_eq_none_iff] at hvalue
    exact ((d.valueOf?_eq_none_iff).2 fun h ↦ hvalue ((perm_keyNames hperm).mem_iff.2 h)).symm
  | some value =>
    obtain ⟨key, hmem, hname⟩ := d.exists_mem_of_valueOf? hvalue
    exact (d.valueOf?_of_mem hnodup' (hperm.mem_iff.1 hmem) hname).symm

/-- In the same order, a name has the same value. -/
theorem rel_valueOf? {R : Node → Node → Prop} {entries entries' : List (Node × Node)}
    (hnames : d.keyNames entries = d'.keyNames entries')
    (hvalues : List.Forall₂ R (entries.map (·.2)) (entries'.map (·.2))) (name : String) :
    Option.Rel R (d.valueOf? entries name) (d'.valueOf? entries' name) := by
  induction entries generalizing entries' with
  | nil =>
    cases entries' with
    | nil => exact .none
    | cons entry' rest' => cases hnames
  | cons entry rest ih =>
    cases entries' with
    | nil => cases hnames
    | cons entry' rest' =>
      obtain ⟨hname, hnames⟩ := List.cons.inj hnames
      obtain ⟨hvalue, hvalues⟩ := List.forall₂_cons.1 hvalues
      by_cases h : d.keyName? entry.1 = some name
      · rw [d.valueOf?_cons_of_eq h, d'.valueOf?_cons_of_eq (hname.symm.trans h)]
        exact .some hvalue
      · rw [d.valueOf?_cons_of_ne h, d'.valueOf?_cons_of_ne fun h' ↦ h (hname.trans h')]
        exact ih hnames hvalues

theorem Reordered.scalar?_eq (h : Reordered d d' node node') :
    d.scalar? node = d'.scalar? node' := by
  cases h with
  | scalar h h' => rw [h, h']
  | mapping h h' => rw [scalar?_of_entries? h, scalar?_of_entries? h']

theorem bind_scalar?_eq {node? node?' : Option Node}
    (h : Option.Rel (Reordered d d') node? node?') :
    node?.bind d.scalar? = node?'.bind d'.scalar? := by
  cases h with
  | none => rfl
  | some h => exact h.scalar?_eq

theorem Reordered.rel_valueAt? (h : Reordered d d' node node') {names : List String}
    (hsection : d.IsSection names node) (name : String) :
    Option.Rel (Reordered d d') (d.valueAt? node name) (d'.valueAt? node' name) := by
  cases h with
  | scalar h h' =>
    rw [valueAt?, entries?_of_scalar? h, valueAt?, entries?_of_scalar? h']
    exact .none
  | mapping h h' hnames hvalues hperm =>
    rw [d.valueAt?_of_entries? h, d'.valueAt?_of_entries? h',
      ← valueOf?_eq_of_perm (hnames ▸ (hsection.isTable h).nodup) hperm]
    exact rel_valueOf? hnames hvalues name

theorem Reordered.isSection (h : Reordered d d' node node') {names : List String}
    (hsection : d.IsSection names node) : d'.IsSection names node' := by
  cases h with
  | scalar h h' =>
    obtain ⟨s, hs, hempty⟩ | ⟨entries, hentries, -⟩ := hsection
    · cases h.symm.trans hs
      exact .inl ⟨_, h', hempty⟩
    · cases (entries?_of_scalar? h).symm.trans hentries
  | mapping h h' hnames hvalues hperm =>
    have htable := hsection.isTable h
    have hperm' := perm_keyNames hperm (d := d')
    refine .inr ⟨_, h', fun name? hmem ↦ ?_, ?_⟩
    · exact htable.known name? (hnames ▸ hperm'.mem_iff.2 hmem)
    · exact hperm'.nodup_iff.1 (hnames ▸ htable.nodup)

end Hygrometer.Yaml.Document
