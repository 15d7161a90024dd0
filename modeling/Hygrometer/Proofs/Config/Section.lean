import Hygrometer.Config.Document
import Hygrometer.Proofs.Except
import Hygrometer.Proofs.Yaml.Path
import Mathlib.Data.List.Nodup

/-!
# Taking a section

What `takeEntries` does with an entry is said once (`takeEntries_cons_eq_ok_iff`): its key names a
setting that none before it named, the setting takes the value, and the rest goes on. Two facts
about whole sections follow by induction on the entries, and nothing else opens the loop:

* a section is taken exactly if its keys are known and different and every value fits the setting of
  its name (`exists_takeSection_iff`);
* a part of the section that one setting decides is what that setting made of its value, and
  unchanged where the key is missing (`IsField.of_takeSection`).

**The settings are any list.** Nothing in this file knows the sections of the configuration, and a
setting may be a value or a section inside. What is asked of them are two things: that their names
are different, so that a key names one of them, and that they are uniform, so that a setting fits a
value whatever was taken before it. The loop carries the section that was changed so far and the
keys that were seen, and both facts are about any such state.

**A part** of a section is a function out of it (`IsField`). One setting decides it, by what that
setting reads, and the others keep it. A list of settings has this property setting by setting
(`IsField.cons`), so it is proved for a section of the configuration by going through its list.
-/

namespace Hygrometer.Yaml

variable {σ α : Type} {settings : List (Setting σ)} {d : Document}

/-! ### Entries -/

/-- The setting that a key names. -/
def Document.settingOf? (d : Document) (settings : List (Setting σ)) (key : Node) :
    Option (Setting σ) :=
  (d.keyName? key).bind fun name ↦ settings.find? (·.name == name)

theorem Document.mem_of_settingOf? {key : Node} {setting : Setting σ}
    (h : d.settingOf? settings key = some setting) :
    setting ∈ settings ∧ d.keyName? key = some setting.name := by
  obtain ⟨name, hname, hfind⟩ := Option.bind_eq_some_iff.1 h
  have heq : setting.name = name := by simpa using List.find?_some hfind
  exact ⟨List.mem_of_find?_eq_some hfind, by rw [hname, heq]⟩

theorem Document.exists_settingOf? {key : Node} {name : String}
    (hmem : name ∈ settings.map (·.name)) (hname : d.keyName? key = some name) :
    ∃ setting, d.settingOf? settings key = some setting ∧ setting.name = name := by
  obtain ⟨setting₀, hmem₀, rfl⟩ := List.mem_map.1 hmem
  have hsome : (d.settingOf? settings key).isSome := by
    rw [settingOf?, hname, Option.bind_some, List.find?_isSome]
    exact ⟨setting₀, hmem₀, beq_self_eq_true _⟩
  obtain ⟨setting, hsetting⟩ := Option.isSome_iff_exists.1 hsome
  have hname' := (d.mem_of_settingOf? hsetting).2
  exact ⟨setting, hsetting, Option.some_inj.1 (hname'.symm.trans hname)⟩

/-- A key can be read exactly if it spells a name. -/
theorem keyText_cases (d : Document) (path : List String) (key : Node) :
    (∃ name mark, d.keyName? key = some name ∧ keyText d path key = .ok (name, mark)) ∨
      (d.keyName? key = none ∧ ∃ refusal, keyText d path key = .error refusal) := by
  rw [keyText, Document.keyName?, Document.scalar?]
  cases d.follow key with
  | scalar mark s => exact .inl ⟨s.text, mark, rfl, rfl⟩
  | _ => exact .inr ⟨rfl, _, rfl⟩

/-- **What is done with an entry.** -/
theorem takeEntries_cons_eq_ok_iff {path seen : List String} {key value : Node}
    {rest : List (Node × Node)} {c c' : σ} :
    takeEntries settings d path seen ((key, value) :: rest) c = .ok c' ↔
      ∃ setting c₁, d.settingOf? settings key = some setting ∧ setting.name ∉ seen ∧
        setting.update d (path ++ [shownKey key]) value c = .ok c₁ ∧
        takeEntries settings d path (setting.name :: seen) rest c₁ = .ok c' := by
  rw [takeEntries]
  obtain ⟨name, mark, hname, hkey⟩ | ⟨hname, refusal, hkey⟩ := keyText_cases d path key
  · rw [hkey, Document.settingOf?, hname, Option.bind_some]
    rcases hfind : settings.find? (·.name == name) with - | setting
    · simp [bind, Except.bind, hfind]
    · have heq : setting.name = name := by simpa using List.find?_some hfind
      subst heq
      by_cases hseen : setting.name ∈ seen
      · simp [bind, Except.bind, hfind, hseen]
      · rcases hupdate : setting.update d (path ++ [shownKey key]) value c with refusal | c₁ <;>
          simp [bind, Except.bind, hfind, hseen, hupdate]
  · simp [hkey, Document.settingOf?, hname, bind, Except.bind]

/-! ### What is taken -/

/-- A setting takes a node, at some place into some section. -/
def Setting.Fits (setting : Setting σ) (d : Document) (node : Node) : Prop :=
  ∃ path c c', setting.update d path node c = .ok c'

/-- What a setting takes, it takes anywhere and into any section. -/
def Setting.IsUniform (setting : Setting σ) (d : Document) : Prop :=
  ∀ node, setting.Fits d node → ∀ path c, ∃ c', setting.update d path node c = .ok c'

/-- The setting that an entry names takes its value. -/
def Document.EntryFits (d : Document) (settings : List (Setting σ)) (entry : Node × Node) : Prop :=
  ∃ setting, d.settingOf? settings entry.1 = some setting ∧ setting.Fits d entry.2

theorem entryFits_of_takeEntries {path seen : List String} {entries : List (Node × Node)}
    {c c' : σ} (h : takeEntries settings d path seen entries c = .ok c') :
    (∀ entry ∈ entries, d.EntryFits settings entry) ∧ (d.keyNames entries).Nodup ∧
      ∀ name ∈ seen, some name ∉ d.keyNames entries := by
  induction entries generalizing seen c with
  | nil => simp [Document.keyNames]
  | cons entry rest ih =>
    obtain ⟨setting, c₁, hsetting, hseen, hupdate, hrest⟩ := takeEntries_cons_eq_ok_iff.1 h
    obtain ⟨hfits, hnodup, hnew⟩ := ih hrest
    have hname : d.keyNames (entry :: rest) = some setting.name :: d.keyNames rest := by
      rw [Document.keyNames, List.map_cons, (d.mem_of_settingOf? hsetting).2, Document.keyNames]
    refine ⟨?_, ?_, ?_⟩
    · rintro _ (- | ⟨_, hmem⟩)
      · exact ⟨setting, hsetting, _, _, _, hupdate⟩
      · exact hfits _ hmem
    · rw [hname, List.nodup_cons]
      exact ⟨hnew _ List.mem_cons_self, hnodup⟩
    · intro name hmem
      rw [hname, List.mem_cons, not_or, Option.some_inj]
      exact ⟨fun heq ↦ hseen (heq ▸ hmem), hnew _ (List.mem_cons_of_mem _ hmem)⟩

theorem exists_takeEntries {path seen : List String} {entries : List (Node × Node)}
    (huniform : ∀ setting ∈ settings, setting.IsUniform d)
    (hfits : ∀ entry ∈ entries, d.EntryFits settings entry) (hnodup : (d.keyNames entries).Nodup)
    (hseen : ∀ name ∈ seen, some name ∉ d.keyNames entries) (c : σ) :
    ∃ c', takeEntries settings d path seen entries c = .ok c' := by
  induction entries generalizing seen c with
  | nil => exact ⟨c, rfl⟩
  | cons entry rest ih =>
    obtain ⟨setting, hsetting, hvalue⟩ := hfits _ List.mem_cons_self
    obtain ⟨hmem, hname⟩ := d.mem_of_settingOf? hsetting
    rw [Document.keyNames, List.map_cons, hname, ← Document.keyNames] at hnodup hseen
    obtain ⟨hnew, hnodup⟩ := List.nodup_cons.1 hnodup
    obtain ⟨c₁, hupdate⟩ := huniform _ hmem _ hvalue (path ++ [shownKey entry.1]) c
    have hseen' : ∀ name ∈ setting.name :: seen, some name ∉ d.keyNames rest := by
      rintro _ (- | ⟨_, hmem⟩)
      · exact hnew
      · exact fun h ↦ hseen _ hmem (List.mem_cons_of_mem _ h)
    obtain ⟨c', hrest⟩ := ih (fun e he ↦ hfits e (List.mem_cons_of_mem _ he)) hnodup hseen' c₁
    have hfresh : setting.name ∉ seen := fun h ↦ hseen _ h List.mem_cons_self
    exact ⟨c', takeEntries_cons_eq_ok_iff.2 ⟨setting, c₁, hsetting, hfresh, hupdate, hrest⟩⟩

/-! ### Sections -/

/-- **What is done with a section.** -/
theorem takeSection_eq_ok_iff {title : String} {path : List String} {node : Node} {c c' : σ} :
    takeSection title settings d path node c = .ok c' ↔
      (d.IsLeftOut node ∧ c' = c) ∨
        ∃ entries, d.entries? node = some entries ∧
          takeEntries settings d path [] entries c = .ok c' := by
  rw [takeSection, Document.IsLeftOut, Document.scalar?, Document.entries?]
  cases d.follow node with
  | scalar mark s =>
    by_cases h : s.style = .plain ∧ s.text = ""
    · simpa [h] using eq_comm
    · simp [h]
  | mapping mark tag entries => simp [Except.mapError_eq_ok_iff]
  | _ => simp

/-- **What is taken.** -/
theorem exists_takeSection_iff {title : String} {path : List String} {node : Node} {c : σ}
    (hnames : (settings.map (·.name)).Nodup)
    (huniform : ∀ setting ∈ settings, setting.IsUniform d) :
    (∃ c', takeSection title settings d path node c = .ok c') ↔
      d.IsSection (settings.map (·.name)) node ∧
        ∀ setting ∈ settings, ∀ value, d.valueAt? node setting.name = some value →
          setting.Fits d value := by
  constructor
  · rintro ⟨c', h⟩
    rcases takeSection_eq_ok_iff.1 h with ⟨hleft, -⟩ | ⟨entries, hentries, htake⟩
    · refine ⟨.inl hleft, fun setting _ value hvalue ↦ ?_⟩
      rw [d.valueAt?_of_isLeftOut hleft] at hvalue
      cases hvalue
    · obtain ⟨hfits, hnodup, -⟩ := entryFits_of_takeEntries htake
      refine ⟨.inr ⟨entries, hentries, ?_, hnodup⟩, fun setting hmem value hvalue ↦ ?_⟩
      · intro name? hname
        obtain ⟨entry, hentry, rfl⟩ := List.mem_map.1 hname
        obtain ⟨setting, hsetting, -⟩ := hfits entry hentry
        obtain ⟨hmem, hkey⟩ := d.mem_of_settingOf? hsetting
        exact ⟨setting.name, List.mem_map_of_mem hmem, hkey⟩
      · rw [d.valueAt?_of_entries? hentries] at hvalue
        obtain ⟨key, hentry, hkey⟩ := d.exists_mem_of_valueOf? hvalue
        obtain ⟨setting', hsetting', hvalue⟩ := hfits _ hentry
        obtain ⟨hmem', hkey'⟩ := d.mem_of_settingOf? hsetting'
        -- Both have the name of the key, and no two settings have one name.
        have heq : setting' = setting := List.inj_on_of_nodup_map hnames hmem' hmem
          (Option.some_inj.1 (hkey'.symm.trans hkey))
        exact heq ▸ hvalue
  · rintro ⟨hleft | ⟨entries, hentries, htable⟩, hfits⟩
    · exact ⟨c, takeSection_eq_ok_iff.2 (.inl ⟨hleft, rfl⟩)⟩
    · have hentry : ∀ entry ∈ entries, d.EntryFits settings entry := by
        intro entry hmem
        obtain ⟨name, hname, hkey⟩ := htable.known _ (List.mem_map_of_mem hmem)
        obtain ⟨setting, hsetting, rfl⟩ := d.exists_settingOf? hname hkey
        refine ⟨setting, hsetting, hfits _ (d.mem_of_settingOf? hsetting).1 _ ?_⟩
        rw [d.valueAt?_of_entries? hentries]
        exact d.valueOf?_of_mem htable.nodup hmem hkey
      have htaken : ∃ c', takeEntries settings d path [] entries c = .ok c' :=
        exists_takeEntries huniform hentry htable.nodup (by simp) c
      obtain ⟨c', htake⟩ := htaken
      exact ⟨c', takeSection_eq_ok_iff.2 (.inr ⟨entries, hentries, htake⟩)⟩

/-! ### Parts of a section -/

/-- A part of a section is decided by the setting of a name, and by no other. -/
structure IsField (settings : List (Setting σ)) (d : Document) (name : String) (get : σ → α)
    (Reads : Node → α → Prop) : Prop where
  /-- The setting of the name makes it what the node reads as. -/
  reads : ∀ setting ∈ settings, setting.name = name → ∀ {path node c c'},
    setting.update d path node c = .ok c' → Reads node (get c')
  /-- Every other setting leaves it alone. -/
  keeps : ∀ setting ∈ settings, setting.name ≠ name → ∀ {path node c c'},
    setting.update d path node c = .ok c' → get c' = get c

variable {name : String} {get : σ → α} {Reads : Node → α → Prop}

theorem IsField.nil : IsField ([] : List (Setting σ)) d name get Reads :=
  ⟨List.forall_mem_nil _, List.forall_mem_nil _⟩

theorem IsField.cons {setting : Setting σ} (h : IsField settings d name get Reads)
    (hreads : setting.name = name → ∀ {path node c c'},
      setting.update d path node c = .ok c' → Reads node (get c'))
    (hkeeps : setting.name ≠ name → ∀ {path node c c'},
      setting.update d path node c = .ok c' → get c' = get c) :
    IsField (setting :: settings) d name get Reads :=
  ⟨List.forall_mem_cons.2 ⟨hreads, h.reads⟩, List.forall_mem_cons.2 ⟨hkeeps, h.keeps⟩⟩

theorem IsField.of_takeEntries (h : IsField settings d name get Reads) {path seen : List String}
    {entries : List (Node × Node)} {c c' : σ}
    (htake : takeEntries settings d path seen entries c = .ok c') :
    (∀ value, d.valueOf? entries name = some value → Reads value (get c')) ∧
      (d.valueOf? entries name = none → get c' = get c) := by
  induction entries generalizing seen c with
  | nil =>
    cases htake
    exact ⟨fun value hvalue ↦ (by cases hvalue), fun _ ↦ rfl⟩
  | cons entry rest ih =>
    obtain ⟨setting, c₁, hsetting, -, hupdate, hrest⟩ := takeEntries_cons_eq_ok_iff.1 htake
    obtain ⟨hmem, hkey⟩ := d.mem_of_settingOf? hsetting
    obtain ⟨hreads, hkeeps⟩ := ih hrest
    by_cases hname : setting.name = name
    · -- No later entry has the name, so what this one made of the part stays.
      have hnone : d.valueOf? rest name = none :=
        d.valueOf?_eq_none_iff.2
          ((entryFits_of_takeEntries hrest).2.2 _ (hname ▸ List.mem_cons_self))
      rw [d.valueOf?_cons_of_eq (hname ▸ hkey)]
      refine ⟨?_, fun h ↦ by cases h⟩
      rintro _ ⟨⟩
      rw [hkeeps hnone]
      exact h.reads setting hmem hname hupdate
    · rw [d.valueOf?_cons_of_ne (by rwa [hkey, ne_eq, Option.some_inj])]
      exact ⟨hreads, fun hnone ↦ (hkeeps hnone).trans (h.keeps setting hmem hname hupdate)⟩

/-- **A part of a section is what its setting made of its value.** -/
theorem IsField.of_takeSection (h : IsField settings d name get Reads) {title : String}
    {path : List String} {node : Node} {c c' : σ}
    (htake : takeSection title settings d path node c = .ok c') :
    (∀ value, d.valueAt? node name = some value → Reads value (get c')) ∧
      (d.valueAt? node name = none → get c' = get c) := by
  rcases takeSection_eq_ok_iff.1 htake with ⟨hleft, rfl⟩ | ⟨entries, hentries, htake⟩
  · rw [d.valueAt?_of_isLeftOut hleft]
    exact ⟨fun value hvalue ↦ (by cases hvalue), fun _ ↦ rfl⟩
  · rw [d.valueAt?_of_entries? hentries]
    exact h.of_takeEntries htake

end Hygrometer.Yaml
