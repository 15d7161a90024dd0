import Hygrometer.Proofs.Config.Section

/-!
# Values out of scalars

Every value of a configuration is written as a scalar, and a decoder takes it from the node that
stands there. `Decoder.Reads` says what a decoder does by the function from scalars that it stands
for: it accepts a node exactly if a scalar is there that the function gives a value for. How a node
leads to its scalar, through references, and how a refusal is worded, with its path and what was
expected, is settled here and does not come up again. There is one lemma for each decoder
(`text_reads`, `natural_reads`, `real_reads`, `choice_reads`).

The functions of scalars are those of the document language: whole numbers and other numbers are
looked for in a scalar only where its style and tag let it be one, and a choice is named by a text
or, if there is no text, by a local tag.

**Settings.** A section is a setting like any other, whose value is taken key by key
(`Setting.section_eq`). So what is said of settings, when they take a node and which part they
decide, is said once for both. A setting is *uniform* if whether it takes a node depends neither on
the value that it changes nor on the path that a refusal would name (`Setting.IsUniform`), and all
settings of the configuration are: those that decode by `Decoder.Reads.isUniform`, and sections by
`isUniform_section`, if the names of their keys are different. A setting decides its own part and
leaves the others as they were (`IsField.own`, `IsField.other`).
-/

namespace Hygrometer.Yaml

variable {σ τ α : Type} {d : Document}

/-! ### Scalars -/

/-- The whole number below a bound that a scalar stands for. -/
def Scalar.natural? (bound : Nat) (s : Scalar) : Option Nat :=
  (if mayBeNumber integerTag s then Yaml.natural? s.text.toList else none).filter (· < bound)

/-- The number that a scalar stands for. -/
def Scalar.real? (s : Scalar) : Option Binary64 :=
  if mayBeNumber realTag s then Yaml.real? s.text.toList else none

/-- The choice that a scalar names, with its text or, if there is no text, with a local tag. -/
def Scalar.choice? (choices : List (String × α)) (s : Scalar) : Option α :=
  match s.tag.bind localName? with
  | some name =>
    if s.style = .plain ∧ (s.text = "" ∨ isNull s.text.toList) then choices.lookup name else none
  | none => choices.lookup s.text

/-! ### Decoders -/

/-- A decoder accepts the scalars that stand for a value, and nothing else. -/
def Decoder.Reads (decode : Decoder α) (read? : Scalar → Option α) : Prop :=
  ∀ d path node a, decode d path node = .ok a ↔ (d.scalar? node).bind read? = some a

/-- A text is any scalar, whatever it looks like. -/
theorem text_reads : Decoder.Reads text fun s ↦ some s.text := by
  intro d path node a
  rw [text, Document.scalar?]
  cases d.follow node with
  | _ => simp

/-- A whole number is one below the bound of its type. -/
theorem natural_reads (bound : Nat) (type : String) :
    Decoder.Reads (natural bound type) (Scalar.natural? bound) := by
  intro d path node n
  rw [natural, Document.scalar?]
  cases d.follow node with
  | scalar mark s =>
    simp only [Option.bind_some, Scalar.natural?, Option.filter_eq_some_iff, decide_eq_true_eq]
    cases (if mayBeNumber integerTag s then Yaml.natural? s.text.toList else none) with
    | none => simp
    | some m => by_cases hbound : m < bound <;> grind
  | _ => simp

/-- A number is one that the scalar stands for. -/
theorem real_reads : Decoder.Reads real Scalar.real? := by
  intro d path node x
  rw [real, Document.scalar?]
  cases d.follow node with
  | scalar mark s =>
    simp only [Option.bind_some, Scalar.real?]
    cases (if mayBeNumber realTag s then Yaml.real? s.text.toList else none) <;> simp
  | _ => simp

/-- A choice is one of those that have a name. -/
theorem choose_eq_ok_iff {choices : List (String × α)} {name : String} {a : α} :
    choose choices name = .ok a ↔ choices.lookup name = some a := by
  rw [choose]
  cases choices.lookup name <;> simp

theorem noContent_eq_ok_iff {path : List String} {node : Node} :
    noContent path node = .ok () ↔ ∃ mark s, node = .scalar mark s ∧ s.style = .plain ∧
      (s.text = "" ∨ isNull s.text.toList = true) := by
  cases node with
  | scalar mark s =>
    rw [noContent]
    split <;> simp_all
  | _ => simp [noContent]

/-- A choice that a tag names is taken if there is no content beside it. -/
theorem choiceAt_of_tag {choices : List (String × α)} {path : List String} {node : Node}
    {name : String} (h : choiceTag? node = some name) {a : α} :
    choiceAt choices path node = .ok a ↔
      choices.lookup name = some a ∧ noContent path node = .ok () := by
  simp only [choiceAt, h, Except.bind_eq_ok_iff, Except.mapError_eq_ok_iff, choose_eq_ok_iff]
  constructor
  · rintro ⟨a', hlookup, ⟨⟩, hcontent, heq⟩
    cases heq
    exact ⟨hlookup, hcontent⟩
  · rintro ⟨hlookup, hcontent⟩
    exact ⟨a, hlookup, (), hcontent, rfl⟩

theorem choiceAt_eq_ok_iff {choices : List (String × α)} {path : List String} {node : Node}
    {a : α} : choiceAt choices path node = .ok a ↔
      ∃ mark s, node = .scalar mark s ∧ s.choice? choices = some a := by
  cases hname : choiceTag? node with
  | some name =>
    rw [choiceAt_of_tag hname, noContent_eq_ok_iff]
    cases node with
    | scalar mark s =>
      have htag : s.tag.bind localName? = some name := hname
      simp [Scalar.choice?, htag, and_comm]
    | _ => simp
  | none =>
    cases node with
    | scalar mark s =>
      have htag : s.tag.bind localName? = none := hname
      simp [choiceAt, Scalar.choice?, htag, hname, Except.mapError_eq_ok_iff, choose_eq_ok_iff]
    | _ => simp [choiceAt, hname]

/-- A choice is the one that the scalar names. -/
theorem choice_reads (choices : List (String × α)) :
    Decoder.Reads (choice choices) (Scalar.choice? choices) := by
  intro d path node a
  have hscalar : (∃ mark s, d.follow node = .scalar mark s ∧ s.choice? choices = some a) ↔
      (d.scalar? node).bind (Scalar.choice? choices) = some a := by
    rw [Document.scalar?]
    cases d.follow node <;> simp
  rw [← hscalar]
  cases node with
  | «alias» mark target => exact Except.mapError_eq_ok_iff.trans choiceAt_eq_ok_iff
  | _ =>
    rw [choice, Document.follow]
    · exact choiceAt_eq_ok_iff
    all_goals simp

/-! ### Settings -/

/-- A section is a setting like any other, with the section as its value. -/
theorem Setting.section_eq (name title : String) (settings : List (Setting τ)) (default : τ)
    (set : τ → σ → σ) :
    Setting.section name title settings default set =
      .of name (fun d path node ↦ takeSection title settings d path node default) set := rfl

variable {name name' : String} {decode : Decoder α} {read? : Scalar → Option α} {set : α → σ → σ}

theorem Setting.of_update_eq_ok_iff {path : List String} {node : Node} {c c' : σ} :
    (Setting.of name decode set).update d path node c = .ok c' ↔
      ∃ a, decode d path node = .ok a ∧ set a c = c' :=
  Except.map_eq_ok_iff

theorem Setting.fits_of_iff {node : Node} (c : σ) :
    (Setting.of name decode set).Fits d node ↔ ∃ path a, decode d path node = .ok a := by
  constructor
  · rintro ⟨path, c, c', hupdate⟩
    obtain ⟨a, ha, -⟩ := Setting.of_update_eq_ok_iff.1 hupdate
    exact ⟨path, a, ha⟩
  · rintro ⟨path, a, ha⟩
    exact ⟨path, c, _, Setting.of_update_eq_ok_iff.2 ⟨a, ha, rfl⟩⟩

/-- A setting takes a node anywhere if its value can be read anywhere. -/
theorem Setting.IsUniform.of (h : ∀ node path₀ a₀, decode d path₀ node = .ok a₀ →
    ∀ path, ∃ a, decode d path node = .ok a) : (Setting.of name decode set).IsUniform d := by
  rintro node ⟨path₀, c₀, c₀', hupdate⟩ path c
  obtain ⟨a₀, ha₀, -⟩ := Setting.of_update_eq_ok_iff.1 hupdate
  obtain ⟨a, ha⟩ := h node path₀ a₀ ha₀ path
  exact ⟨_, Setting.of_update_eq_ok_iff.2 ⟨a, ha, rfl⟩⟩

/-- What decodes a scalar is uniform. -/
theorem Decoder.Reads.isUniform (h : decode.Reads read?) :
    (Setting.of name decode set).IsUniform d :=
  .of fun node path₀ a₀ ha₀ path ↦ ⟨a₀, (h d path node a₀).2 ((h d path₀ node a₀).1 ha₀)⟩

/-- **A section of uniform settings is uniform.** -/
theorem isUniform_section {title : String} {settings : List (Setting τ)} {default : τ}
    {set : τ → σ → σ} (hnames : (settings.map (·.name)).Nodup)
    (huniform : ∀ setting ∈ settings, setting.IsUniform d) :
    (Setting.section name title settings default set).IsUniform d := by
  rw [Setting.section_eq]
  exact .of fun _ _ a₀ ha₀ _ ↦ (exists_takeSection_iff hnames huniform).2
    ((exists_takeSection_iff hnames huniform).1 ⟨a₀, ha₀⟩)

/-- A setting of a value takes what its decoder reads. -/
theorem Decoder.Reads.fits_iff (h : decode.Reads read?) {node : Node} (c : σ) :
    (Setting.of name decode set).Fits d node ↔ ((d.scalar? node).bind read?).isSome := by
  rw [Setting.fits_of_iff c, Option.isSome_iff_exists]
  constructor
  · rintro ⟨path, a, ha⟩
    exact ⟨a, (h d path node a).1 ha⟩
  · rintro ⟨a, ha⟩
    exact ⟨[], a, (h d [] node a).2 ha⟩

section

variable {settings : List (Setting σ)} {β : Type} {get : σ → β} {Part : Node → β → Prop}

/-- The setting of a name decides the part that it sets. -/
theorem IsField.own (h : IsField settings d name get Part)
    (hset : ∀ path node a c, decode d path node = .ok a → Part node (get (set a c))) :
    IsField (.of name decode set :: settings) d name get Part := by
  refine h.cons (fun _ path node c c' hupdate ↦ ?_) fun hne ↦ absurd rfl hne
  obtain ⟨a, ha, rfl⟩ := Setting.of_update_eq_ok_iff.1 hupdate
  exact hset path node a c ha

/-- A setting of another name decides nothing that it does not set. -/
theorem IsField.other (h : IsField settings d name get Part)
    (hname : name' ≠ name := by decide) (hset : ∀ a c, get (set a c) = get c := by intros; rfl) :
    IsField (.of name' decode set :: settings) d name get Part := by
  refine h.cons (fun heq ↦ absurd heq hname) fun _ path node c c' hupdate ↦ ?_
  obtain ⟨a, -, rfl⟩ := Setting.of_update_eq_ok_iff.1 hupdate
  exact hset a c

end

end Hygrometer.Yaml
