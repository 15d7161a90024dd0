import Hygrometer.Proofs.Config.Reading
import Hygrometer.Proofs.Yaml.Number
import Hygrometer.Proofs.Yaml.Reordered

/-!
# Configurations over the defaults

A configuration in a text is read as what it says about each leaf, over the defaults
(`parse_of_isConfig`). Both ways in which the text may change without touching a leaf follow: in
another order the keys lead to the same values (`setting?_of_reordered`), and a change elsewhere
does not show, because a leaf is what the document says about it and nothing else
(`eq_overlay_of_parse`).

**Another order** is one of the keys in any of the mappings, at once. The documents are compared
along the paths of sections and leaves (`rel_nodeAt?_section`, `rel_nodeAt?_leaf`), down the tree. A
document in another order is a configuration if the first one is, and if its text is whole; the
second has to be asked for, as what follows a document in its text is no matter of its keys.
-/

namespace Hygrometer.Config

open Yaml (Document Node)

variable {d d' : Document}

/-! ### Another order -/

/-- In another order, the same keys lead to a section. -/
theorem rel_nodeAt?_section (hd : d.IsConfig) (h : d.Reordered d' d.root d'.root) (sec : Section) :
    Option.Rel (d.Reordered d') (d.nodeAt? sec.path) (d'.nodeAt? sec.path) := by
  induction sec using Section.downward with
  | root => exact .some h
  | inner sec outer key houter ih =>
    rw [Section.nodeAt?_path houter, Section.nodeAt?_path houter]
    exact Document.rel_bind ih fun node _ hnode hrel ↦
      hrel.rel_valueAt? (hd.sections outer node hnode) key

/-- In another order, the same keys lead to a leaf. -/
theorem rel_nodeAt?_leaf (hd : d.IsConfig) (h : d.Reordered d' d.root d'.root) (leaf : Leaf) :
    Option.Rel (d.Reordered d') (d.nodeAt? leaf.path) (d'.nodeAt? leaf.path) := by
  rw [leaf.nodeAt?_path, leaf.nodeAt?_path]
  exact Document.rel_bind (rel_nodeAt?_section hd h leaf.home) fun node _ hnode hrel ↦
    hrel.rel_valueAt? (hd.sections leaf.home node hnode) leaf.key

theorem setting?_of_reordered (hd : d.IsConfig) (h : d.Reordered d' d.root d'.root) :
    d'.setting? = d.setting? := by
  funext leaf
  rw [Document.setting?, Document.setting?,
    Document.bind_scalar?_eq (rel_nodeAt?_leaf hd h leaf)]

theorem isConfig_of_reordered (hd : d.IsConfig) (h : d.Reordered d' d.root d'.root)
    (hwhole : d'.whole = true) : d'.IsConfig where
  whole := hwhole
  sections sec node' hnode' := by
    obtain ⟨node, hnode, hrel⟩ :=
      Document.exists_of_rel (hnode' ▸ rel_nodeAt?_section hd h sec)
    exact hrel.isSection (hd.sections sec node hnode)
  leaves leaf node' hnode' := by
    obtain ⟨node, hnode, hrel⟩ := Document.exists_of_rel (hnode' ▸ rel_nodeAt?_leaf hd h leaf)
    exact hrel.scalar?_eq ▸ hd.leaves leaf node hnode

/-! ### Texts -/

/-- **A document overlays the defaults**, leaf by leaf and in whatever order its keys come, and a
leaf changes with what the document says about it and with nothing else. -/
theorem parse_overlays {s : String} (hd : (Document.ofText s).IsConfig)
    (hvalid : (overlay (Document.ofText s).setting?).validate = .ok ()) :
    ∃ c, parse s = .ok c ∧
      (∀ leaf : Leaf, leaf.get c = ((Document.ofText s).setting? leaf).getD (leaf.get {})) ∧
      (∀ t, (Document.ofText t).whole = true →
        (Document.ofText s).Reordered (Document.ofText t) (Document.ofText s).root
          (Document.ofText t).root → parse t = .ok c) ∧
      ∀ t c', parse t = .ok c' → ∀ leaf : Leaf,
        (Document.ofText t).setting? leaf = (Document.ofText s).setting? leaf →
          leaf.get c' = leaf.get c := by
  refine ⟨_, parse_of_isConfig hd hvalid, fun leaf ↦ get_ofLeaves _ leaf, ?_, ?_⟩
  · intro t hwhole h
    have hsetting := setting?_of_reordered hd h
    rw [← hsetting] at hvalid ⊢
    exact parse_of_isConfig (isConfig_of_reordered hd h hwhole) hvalid
  · intro t c' h leaf hleaf
    rw [eq_overlay_of_parse h, overlay, overlay, get_ofLeaves, get_ofLeaves, hleaf]

/-- One key of a section with a section inside, which is read as the number that its decimal
denotes, and one key of another section; and two keys of the root in either order. -/
theorem parse_overlays_partial :
    (∃ c, parse "source: {simulated: {humidity: 70.5}, kind: simulated}\nserver: {port: 8081}\n" =
        .ok c ∧ c.server.port = 8081 ∧ c.server.host = "0.0.0.0" ∧ c.source.kind = .simulated ∧
      c.source.ambient.humidity.value? = some (141 / 2) ∧ c.source.ambient.temperatureC = 22) ∧
    ∃ c, parse "{version: 1, ui: }" = .ok c ∧ parse "{ui: , version: 1}" = .ok c := by
  have hconfig {s : String} (h : (parse s).toOption.isSome)
      (hroot : ((Document.ofText s).entries? (Document.ofText s).root).isSome) :
      (Document.ofText s).IsConfig := by
    cases hparse : parse s with
    | error failure =>
      rw [hparse] at h
      cases h
    | ok c => exact isConfig_of_parse hparse hroot
  constructor
  · generalize hs :
      "source: {simulated: {humidity: 70.5}, kind: simulated}\nserver: {port: 8081}\n" = s
    have hsettings : (Document.ofText s).setting? .port = some 8081 ∧
        (Document.ofText s).setting? .host = none ∧
        (Document.ofText s).setting? .kind = some .simulated ∧
        (Document.ofText s).setting? .humidity = Yaml.real? "70.5".toList ∧
        (Document.ofText s).setting? .temperatureC = none := by
      rw [← hs]
      decide +kernel
    obtain ⟨hport, hhost, hkind, hhumidity, htemperature⟩ := hsettings
    have hnumeral : Decimal.IsNumeral "70.5".toList false ⟨705, -1⟩ :=
      Decimal.read?_eq_some_iff.1 (by decide)
    have hdecimal : Decimal.value ⟨705, -1⟩ = (141 : ℤ) / 2 ^ 1 := by norm_num [Decimal.value]
    obtain ⟨x, hx, hvalue⟩ := Yaml.exists_real?_eq hnumeral
      (hdecimal ▸ Binary64.representable_div_two_pow (by decide) (by decide))
    rw [hdecimal] at hvalue
    have hd : (Document.ofText s).IsConfig := by
      rw [← hs]
      exact hconfig (by decide +kernel) (by decide +kernel)
    have hvalid : (overlay (Document.ofText s).setting?).validate = .ok () := by
      rw [← hs]
      decide +kernel
    obtain ⟨c, hparse, hleaf, -⟩ := parse_overlays hd hvalid
    refine ⟨c, hparse, ?_, ?_, ?_, ?_, ?_⟩
    · exact (hleaf .port).trans (by rw [hport]; rfl)
    · exact (hleaf .host).trans (by rw [hhost]; rfl)
    · exact (hleaf .kind).trans (by rw [hkind]; rfl)
    · have hget : c.source.ambient.humidity = x :=
        (hleaf .humidity).trans (by rw [hhumidity, hx]; rfl)
      rw [hget, hvalue]
      norm_num [Binary64.signFactor]
    · exact (hleaf .temperatureC).trans (by rw [htemperature]; rfl)
  · have hreordered := @Document.reordered_swap (.ofText "{version: 1, ui: }")
      (.ofText "{ui: , version: 1}") (Document.ofText "{version: 1, ui: }").root
      (Document.ofText "{ui: , version: 1}").root "version" "ui" ⟨"1", .plain, none⟩
      ⟨"", .plain, none⟩ (by decide +kernel) (by decide +kernel)
    have hd : (Document.ofText "{version: 1, ui: }").IsConfig :=
      hconfig (by decide +kernel) (by decide +kernel)
    obtain ⟨c, hparse, -, hperm, -⟩ := parse_overlays hd (by decide +kernel)
    exact ⟨c, hparse, hperm _ (by decide +kernel) hreordered⟩

end Hygrometer.Config
