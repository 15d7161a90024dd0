import Hygrometer.Proofs.Except
import Hygrometer.Proofs.Json.Skip

/-!
# Records are read by name

What a record is read as depends on the members of the object and on nothing else of its text: each
member in turn is taken for its field, or passed over if it has none (`Shape.take?`). Reading a text
of an object is taking its members (`Shape.toOption_parse`). After that nothing is about characters
any more.

**One field at a time.** Members are taken one after another, and what they have filled so far is a
list of fields. For a given field only the members of its name count, so the state is projected:
what taking members does to one field is what filling it with the values of its name does
(`Shape.foldlM_fill?_of_take?`). A field is filled once, so filling it with a list of values goes
well exactly if there is one, and it is of the field's type (`Value.foldlM_fill?_eq_some_iff`).
Conversely, if every field can be filled, so can the whole shape (`Shape.exists_foldlM_take?`).

So **an object is a record exactly if each field has one member, which holds a value of its type**
(`Shape.parse_eq_ok_iff`), wherever in the object the members stand, and whatever other members
stand between them. Objects that agree on the values of the fields are read alike
(`Shape.parse_eq_ok_congr`), which is what independence of the order amounts to.

**Values.** A value in the tree of a text is what the grammar says, and `Value.field?` is the value
of a field that it is, if it is one of the type. `Spells.toOption_readField` connects the two: a
text of the value is read as it, or refused. Numbers need care, as their type decides whether a
numeral is taken for a natural number or for a measurement, and whether the numeral has parts that a
natural number has not.
-/

namespace Hygrometer.Json

variable {shape : Shape} {v : Value} {cs rest : List Char} {type : FieldType}

/-! ### Values of fields -/

/-- What a field of a type takes from a value. -/
def Value.field? : FieldType → Value → Option FieldValue
  | .number, .number negative p =>
    (evaluate? negative p.whole p.fraction p.exponent).map numberValue
  | .natural, .number negative p =>
    (evaluate? negative p.whole p.fraction p.exponent).bind fun n ↦ (naturalValue n).toOption
  | .boolean, .boolean b => some (.boolean b)
  | .text, .text s => some (.text s)
  | _, _ => none

/-- A field of truth values takes truth values. -/
theorem Value.field?_boolean_iff {b : Bool} :
    v.field? .boolean = some (.boolean b) ↔ v = .boolean b := by
  cases v <;> simp [field?]

/-- A field of texts takes texts. -/
theorem Value.field?_text_iff {s : String} : v.field? .text = some (.text s) ↔ v = .text s := by
  cases v <;> simp [field?]

/-- A natural number is one that was read as such. -/
theorem naturalValue_eq_ok_iff {n : Number} {t : UInt64} :
    naturalValue n = .ok (.natural t) ↔ n = .natural t := by
  cases n <;> simp [naturalValue]

/-- A field of whole numbers takes plain digits and nothing else. -/
theorem Spells.field?_natural_iff (h : Spells (.value v) cs) {t : UInt64} :
    v.field? .natural = some (.natural t) ↔ v = .whole t.toNat := by
  obtain ⟨blanks, token, -, htoken, rfl⟩ := h.exists_token
  cases v with
  | number negative p =>
    simp only [Value.field?, Option.bind_eq_some_iff, Except.toOption_eq_some_iff,
      naturalValue_eq_ok_iff, exists_eq_right, evaluate?_eq_natural_iff htoken.1, Value.whole,
      Value.number.injEq]
  | null | boolean | text | array | object => simp [Value.field?, Value.whole]

/-- A number is read from any of its texts, whatever follows it. -/
theorem readNumber?_append {negative : Bool} {p : Parts} (h : Parts.IsNumber negative p cs)
    (hrest : Follows rest) :
    readNumber? (cs ++ rest) =
      (evaluate? negative p.whole p.fraction p.exponent).map (·, rest) := by
  rcases hvalue : evaluate? negative p.whole p.fraction p.exponent with - | n <;>
    simp [readNumber?, h.takeNumeral? hrest, hvalue]

/-- Blanks before the value of a field do not matter. -/
theorem readField_congr {ds : List Char} (h : skipBlanks cs = skipBlanks ds) (type : FieldType) :
    readField type cs = readField type ds := by
  cases type <;> simp only [readField, h]

theorem toOption_readField_number {negative : Bool} {p : Parts}
    (h : Parts.IsNumber negative p cs) (hrest : Follows rest) (type : FieldType) :
    (readField type (cs ++ rest)).toOption =
      ((Value.number negative p).field? type).map (·, rest) := by
  have hstart := h.startsNumber rest
  have hread := readNumber?_append h hrest
  have hblanks := skipBlanks_of_startsNumber hstart
  generalize cs ++ rest = ds at hstart hread hblanks ⊢
  cases type with
  | number =>
    simp only [readField, hblanks, hstart, if_true, hread, Value.field?]
    cases evaluate? negative p.whole p.fraction p.exponent <;> rfl
  | natural =>
    simp only [readField, hblanks, hstart, if_true, hread, Value.field?]
    rcases evaluate? negative p.whole p.fraction p.exponent with - | n
    · rfl
    · cases n <;> rfl
  -- A numeral starts as neither of the other types does.
  | boolean =>
    simp only [readField, hblanks]
    split
    · cases hstart
    · cases hstart
    · rfl
  | text =>
    simp only [readField, hblanks]
    split
    · cases hstart
    · rfl

/-- **A field reads the value that stands there**, and takes it or not. -/
theorem Spells.toOption_readField (h : Spells (.value v) cs) (hrest : Follows rest)
    (type : FieldType) :
    (readField type (cs ++ rest)).toOption = (v.field? type).map (·, rest) := by
  obtain ⟨blanks, token, hblanks, htoken, rfl⟩ := h.exists_token
  have hskip : skipBlanks (blanks ++ token ++ rest) = skipBlanks (token ++ rest) := by
    rw [List.append_assoc, skipBlanks_append hblanks]
  rw [readField_congr hskip]
  cases v with
  | null =>
    obtain rfl := htoken
    cases type <;> rfl
  | boolean b =>
    obtain rfl := htoken
    cases b <;> cases type <;> rfl
  | number negative p => exact toOption_readField_number htoken hrest type
  | text s =>
    obtain ⟨ds, rfl, hread⟩ := IsString.readString? htoken rest
    cases type with
    | text =>
      show (orMalformed ((readString? (ds ++ rest)).map _)).toOption =
        some (FieldValue.text s, rest)
      simp only [hread, Option.map_some, String.ofList_toList]
      rfl
    | number | natural | boolean => rfl
  | array | object =>
    obtain ⟨ds, -, rfl⟩ := htoken
    cases type <;> rfl

/-! ### Members -/

/-- The values of the members of a name. -/
def valuesOf (name : String) (ms : List (String × Value)) : List Value :=
  (ms.filter (·.1 = name)).map (·.2)

/-- Take a member for its field, beside the fields found before it. It must be the first of its
field; a member of no field is passed over. -/
def Shape.take? (shape : Shape) (found : Fields) (m : String × Value) : Option Fields :=
  match shape.fields.lookup m.1 with
  | none => some found
  | some type =>
    if (found.lookup m.1).isSome then none
    else (m.2.field? type).map fun v ↦ (m.1, v) :: found

/-- Each member holds a value that is spelled somewhere. -/
theorem Spells.exists_of_mem {first : Bool} {ms : List (String × Value)} {m : String × Value}
    (h : Spells (.members first ms) cs) (hm : m ∈ ms) : ∃ text, Spells (.value m.2) text := by
  induction ms generalizing first cs with
  | nil => cases hm
  | cons next ms ih =>
    obtain ⟨-, -, text, tail, -, -, hv, htail, -⟩ := h.exists_member
    rcases List.mem_cons.1 hm with rfl | hmem
    · exact ⟨text, hv⟩
    · exact ih htail hmem

/-- The key of a member is found behind its separator. -/
theorem exists_nextKey {name : String} {key blanks : List Char} (first : Bool)
    (hblanks : ∀ c ∈ blanks, IsBlank c) (hkey : IsKey name key) (rest : List Char) :
    ∃ ds tail, nextKey first (blanks ++ (separator first ++ (key ++ rest))) = .ok (some ds) ∧
      readString? ds = some (name.toList, tail) ∧ afterColon tail = .ok rest := by
  obtain ⟨ds, tail, hquote, hread, -, hcolon⟩ := hkey.exists_string rest
  refine ⟨ds, tail, ?_, hread, by simp only [afterColon, hcolon]⟩
  cases first with
  | true =>
    have hfirst : skipBlanks (blanks ++ (separator true ++ (key ++ rest))) = '"' :: ds := by
      rw [skipBlanks_append hblanks]
      exact hquote
    simp only [nextKey, hfirst, if_true]
  | false =>
    have hcomma : skipBlanks (blanks ++ (separator false ++ (key ++ rest))) =
        ',' :: (key ++ rest) := by
      rw [skipBlanks_append hblanks]
      rfl
    simp only [nextKey, hcomma, hquote]

variable {name : String} {ms : List (String × Value)} {found : Fields} {first : Bool} {fuel : ℕ}

/-- **A member is a step**: it is taken, and those behind it are left. -/
theorem toOption_readMembers_member {key blanks text tail : List Char}
    (hblanks : ∀ c ∈ blanks, IsBlank c) (hkey : IsKey name key) (hv : Spells (.value v) text)
    (htail : Follows tail) :
    (readMembers shape (fuel + 1) first found
        (blanks ++ (separator first ++ (key ++ (text ++ tail))))).toOption =
      (shape.take? found (name, v)).bind fun found ↦
        (readMembers shape fuel false found tail).toOption := by
  obtain ⟨ds, behind, hnext, hread, hcolon⟩ := exists_nextKey first hblanks hkey (text ++ tail)
  rw [readMembers, hnext]
  simp only [Except.bind, bind, hread, orMalformed, String.ofList_toList, Shape.take?]
  rcases shape.fields.lookup name with - | type
  · simp only [hcolon, hv.skipValue? htail, Option.bind_some]
  by_cases hfound : (found.lookup name).isSome = true
  · simp only [hfound, if_true, Option.bind_none]
    rfl
  · have hfield := hv.toOption_readField htail type
    simp only [hfound, Bool.false_eq_true, if_false, hcolon]
    rcases hw : v.field? type with - | w
    · rw [hw, Option.map_none, Except.toOption_eq_none_iff] at hfield
      obtain ⟨e, he⟩ := hfield
      simp only [he]
      rfl
    · rw [hw, Option.map_some, Except.toOption_eq_some_iff] at hfield
      simp only [hfield, Option.map_some, Option.bind_some]

/-- **Reading the members of an object is taking them**, one after another. What is left is the text
behind the object once its brace is passed. -/
theorem Spells.exists_toOption_readMembers (h : Spells (.members first ms) cs)
    (shape : Shape) (rest : List Char) :
    ∃ left, passBrace left = rest ∧ ∀ fuel found, cs.length ≤ fuel →
      (readMembers shape fuel first found (cs ++ rest)).toOption =
        (ms.foldlM shape.take? found).map (·, left) := by
  induction ms generalizing first cs with
  | nil =>
    obtain ⟨blanks, hblanks, rfl⟩ := h.exists_objectEnd
    have hbrace : skipBlanks (blanks ++ ['\x7d'] ++ rest) = '\x7d' :: rest := by
      rw [List.append_assoc, skipBlanks_append hblanks]
      rfl
    refine ⟨blanks ++ ['\x7d'] ++ rest, by simp only [passBrace, hbrace],
      fun fuel found hfuel ↦ ?_⟩
    rw [List.length_append, List.length_singleton] at hfuel
    obtain ⟨fuel, rfl⟩ : ∃ k, fuel = k + 1 := ⟨fuel - 1, by omega⟩
    simp only [readMembers, nextKey, hbrace]
    rfl
  | cons m ms ih =>
    obtain ⟨name, v⟩ := m
    obtain ⟨blanks, key, text, tail, hblanks, hkey, hv, htail, rfl⟩ := h.exists_member
    obtain ⟨left, hleft, hrun⟩ := ih htail
    refine ⟨left, hleft, fun fuel found hfuel ↦ ?_⟩
    have hlength := hv.length_pos
    simp only [List.length_append] at hfuel
    obtain ⟨fuel, rfl⟩ : ∃ k, fuel = k + 1 := ⟨fuel - 1, by omega⟩
    have htext : blanks ++ (separator first ++ (key ++ (text ++ tail))) ++ rest =
        blanks ++ (separator first ++ (key ++ (text ++ (tail ++ rest)))) := by
      simp only [List.append_assoc]
    rw [htext, toOption_readMembers_member hblanks hkey hv (htail.follows rfl rest),
      List.foldlM_cons]
    -- A member that cannot be taken ends both sides.
    rcases shape.take? found (name, v) with - | found
    · rfl
    · exact hrun fuel found (by omega)

/-- The field values that the members of an object give. -/
def Shape.ofMembers? (shape : Shape) (ms : List (String × Value)) : Option (List FieldValue) :=
  (ms.foldlM shape.take? []).bind fun found ↦ (inOrder shape found).toOption

/-- **Reading a text of an object is taking its members.** -/
theorem Shape.toOption_parse (shape : Shape) {s : String} (h : IsTextOf (.object ms) s) :
    (shape.parse s).toOption = shape.ofMembers? ms := by
  obtain ⟨cs, after, hcs, hafter, hs⟩ := h
  obtain ⟨before, _, hbefore, ⟨ds, hds, rfl⟩, rfl⟩ := hcs.exists_token
  obtain ⟨left, hleft, hrun⟩ := hds.exists_toOption_readMembers shape after
  have hstart : skipBlanks s.toList = '\x7b' :: (ds ++ after) := by
    rw [hs, List.append_assoc, skipBlanks_append hbefore]
    rfl
  have hend : (skipBlanks after).isEmpty = true := by
    have hskip := skipBlanks_append hafter []
    rw [List.append_nil] at hskip
    rw [hskip]
    rfl
  have hread := hrun ((ds ++ after).length + 1) [] (by rw [List.length_append]; omega)
  rw [Shape.parse, readRecord, hstart, Shape.ofMembers?]
  simp only [readObject]
  rcases htaken : ms.foldlM shape.take? [] with - | found
  · rw [htaken, Option.map_none, Except.toOption_eq_none_iff] at hread
    obtain ⟨e, he⟩ := hread
    rw [he]
    rfl
  · rw [htaken, Option.map_some, Except.toOption_eq_some_iff] at hread
    rw [hread, Option.bind_some]
    rcases hvalues : inOrder shape found with name | vs
    · simp only [bind, Except.bind, hvalues]
      rfl
    · simp only [bind, Except.bind, hvalues, pure, Except.pure, hleft, hend, if_true]
      rfl

/-- The only value of a name belongs to a member. -/
theorem mem_of_valuesOf_eq (h : valuesOf name ms = [v]) : (name, v) ∈ ms := by
  have hv : v ∈ valuesOf name ms := by rw [h]; exact List.mem_singleton_self v
  obtain ⟨m, hm, rfl⟩ := List.mem_map.1 hv
  obtain ⟨hmem, hkey⟩ := List.mem_filter.1 hm
  rwa [← of_decide_eq_true hkey]

/-- There are as many values of a name as members. -/
theorem length_valuesOf (name : String) (ms : List (String × Value)) :
    (valuesOf name ms).length = (ms.map Prod.fst).count name := by
  rw [valuesOf, List.length_map, ← List.countP_eq_length_filter, List.count, List.countP_map]
  exact List.countP_congr fun m _ ↦ by simp

/-! ### Fields -/

/-- What a member does to the field of its name, beside what the field held before it. -/
def Value.fill? (type : FieldType) (before : Option FieldValue) (v : Value) :
    Option (Option FieldValue) :=
  if before.isSome then none else (v.field? type).map some

theorem valuesOf_cons (name : String) (m : String × Value) (ms : List (String × Value)) :
    valuesOf name (m :: ms) = (if m.1 = name then [m.2] else []) ++ valuesOf name ms := by
  rw [valuesOf, List.filter_cons]
  by_cases h : m.1 = name <;> simp [h, valuesOf]

/-- **A member does to a field what its name says**: it fills its own field and no other. -/
theorem Shape.fill?_of_take? {m : String × Value} {found found' : Fields}
    (h : shape.take? found m = some found') (hfield : shape.fields.lookup name = some type) :
    (if m.1 = name then [m.2] else []).foldlM (Value.fill? type) (found.lookup name) =
      some (found'.lookup name) := by
  obtain ⟨key, v⟩ := m
  rw [take?] at h
  by_cases hname : key = name
  · subst hname
    simp only [hfield] at h
    split_ifs at h with hfound
    obtain ⟨w, hw, rfl⟩ := Option.map_eq_some_iff.1 h
    simp [Value.fill?, hfound, hw]
  · have hne : (name == key) = false := beq_eq_false_iff_ne.2 (Ne.symm hname)
    rw [if_neg hname]
    split at h
    · obtain rfl := Option.some.inj h
      rfl
    · split_ifs at h with hfound
      obtain ⟨w, hw, rfl⟩ := Option.map_eq_some_iff.1 h
      rw [List.lookup_cons, hne]
      rfl

/-- **All members together fill a field with the values of its name.** -/
theorem Shape.foldlM_fill?_of_take? {found' : Fields}
    (h : ms.foldlM shape.take? found = some found')
    (hfield : shape.fields.lookup name = some type) :
    (valuesOf name ms).foldlM (Value.fill? type) (found.lookup name) =
      some (found'.lookup name) := by
  induction ms generalizing found with
  | nil =>
    obtain rfl := Option.some.inj h
    rfl
  | cons m ms ih =>
    obtain ⟨next, hnext, hrest⟩ := Option.bind_eq_some_iff.1 h
    rw [valuesOf_cons, List.foldlM_append, fill?_of_take? hnext hfield]
    exact ih hrest

/-- A member is taken if its field, should it have one, can be filled. -/
theorem Shape.exists_take? {m : String × Value}
    (h : ∀ type, shape.fields.lookup m.1 = some type →
      (Value.fill? type (found.lookup m.1) m.2).isSome) :
    ∃ found', shape.take? found m = some found' := by
  rw [take?]
  rcases hfield : shape.fields.lookup m.1 with - | type
  · exact ⟨_, rfl⟩
  · have hfill := h type hfield
    rw [Value.fill?] at hfill
    split_ifs at hfill with hfound
    · cases hfill
    · obtain ⟨w, hw⟩ := Option.isSome_iff_exists.1 (Option.isSome_map.symm.trans hfill)
      refine ⟨(m.1, w) :: found, ?_⟩
      simp only [hfound, Bool.false_eq_true, if_false, hw, Option.map_some]

/-- Members are taken if they can fill each field. -/
theorem Shape.exists_foldlM_take?
    (h : ∀ name type, shape.fields.lookup name = some type →
      ((valuesOf name ms).foldlM (Value.fill? type) (found.lookup name)).isSome) :
    ∃ found', ms.foldlM shape.take? found = some found' := by
  induction ms generalizing found with
  | nil => exact ⟨found, rfl⟩
  | cons m ms ih =>
    obtain ⟨next, hnext⟩ : ∃ next, shape.take? found m = some next := by
      refine exists_take? fun type hfield ↦ ?_
      have hfill := h m.1 type hfield
      rw [valuesOf_cons, if_pos rfl] at hfill
      exact Option.isSome_of_isSome_bind hfill
    obtain ⟨found', hfound'⟩ : ∃ found', ms.foldlM shape.take? next = some found' := by
      refine ih fun name type hfield ↦ ?_
      have hfill := h name type hfield
      rwa [valuesOf_cons, List.foldlM_append, fill?_of_take? hnext hfield] at hfill
    exact ⟨found', by rw [List.foldlM_cons, hnext]; exact hfound'⟩

/-- **A field is filled by exactly one member.** -/
theorem Value.foldlM_fill?_eq_some_iff {vs : List Value} {w : FieldValue} :
    vs.foldlM (Value.fill? type) none = some (some w) ↔ ∃ v, vs = [v] ∧ v.field? type = some w := by
  rcases vs with - | ⟨v, - | ⟨v', vs⟩⟩
  · simp
  · simp [Value.fill?]
  · rcases hv : v.field? type with - | w <;> simp [Value.fill?, hv]

variable {vs : List FieldValue} {s : String}

/-- Each element of one list has a partner in the other. -/
theorem exists_of_forall₂ {α β : Type} {R : α → β → Prop} {as : List α} {bs : List β}
    (h : List.Forall₂ R as bs) {a : α} (ha : a ∈ as) : ∃ b, R a b := by
  induction h with
  | nil => cases ha
  | cons hab _ ih =>
    rcases List.mem_cons.1 ha with rfl | hmem
    · exact ⟨_, hab⟩
    · exact ih hmem

/-- The fields are given in the order of the shape, if all of them were found. -/
theorem inOrder_eq_ok_iff : inOrder shape found = .ok vs ↔
    List.Forall₂ (fun field w ↦ found.lookup field.1 = some w) shape.fields vs := by
  rw [inOrder, Except.mapM_eq_ok_iff]
  refine iff_of_eq (congrArg (List.Forall₂ · shape.fields vs) ?_)
  funext ⟨name, type⟩ w
  rcases hlookup : found.lookup name with - | v <;> simp [hlookup]

/-- The fields of a record have different names. -/
def Shape.IsNodup (shape : Shape) : Prop := (shape.fields.map Prod.fst).Nodup

theorem lookup_of_mem {fields : List (String × FieldType)} (h : (fields.map Prod.fst).Nodup)
    {field : String × FieldType} (hfield : field ∈ fields) :
    fields.lookup field.1 = some field.2 := by
  induction fields with
  | nil => cases hfield
  | cons next fields ih =>
    rw [List.map_cons, List.nodup_cons] at h
    rcases List.mem_cons.1 hfield with rfl | hmem
    · rw [List.lookup_cons, BEq.rfl]
    · have hne : (field.1 == next.1) = false :=
        beq_eq_false_iff_ne.2 fun heq ↦ h.1 (heq ▸ List.mem_map_of_mem hmem)
      rw [List.lookup_cons, hne]
      exact ih h.2 hmem

/-- **An object is a record** exactly if each field has one member, which holds a value of its
type. -/
theorem Shape.ofMembers?_eq_some_iff (hshape : shape.IsNodup) :
    shape.ofMembers? ms = some vs ↔
      List.Forall₂ (fun field w ↦ ∃ v, valuesOf field.1 ms = [v] ∧ v.field? field.2 = some w)
        shape.fields vs := by
  have hfields : ∀ field ∈ shape.fields, shape.fields.lookup field.1 = some field.2 :=
    fun _ ↦ lookup_of_mem hshape
  rw [ofMembers?, Option.bind_eq_some_iff]
  simp only [← Value.foldlM_fill?_eq_some_iff, Except.toOption_eq_some_iff, inOrder_eq_ok_iff]
  constructor
  · rintro ⟨found, hfound, hvalues⟩
    refine ((List.forall₂_and_left _ _).2 ⟨hfields, hvalues⟩).imp ?_
    rintro field w ⟨hfield, hw⟩
    rw [← hw]
    exact foldlM_fill?_of_take? hfound hfield
  · intro h
    obtain ⟨found, hfound⟩ : ∃ found, ms.foldlM shape.take? [] = some found := by
      refine exists_foldlM_take? fun name type hfield ↦ ?_
      obtain ⟨front, back, hmem, -⟩ := List.lookup_eq_some_iff.1 hfield
      obtain ⟨w, hw⟩ := exists_of_forall₂ h (show (name, type) ∈ shape.fields by rw [hmem]; simp)
      exact Option.isSome_of_eq_some hw
    refine ⟨found, hfound, ((List.forall₂_and_left _ _).2 ⟨hfields, h⟩).imp ?_⟩
    rintro field w ⟨hfield, hw⟩
    exact Option.some.inj ((foldlM_fill?_of_take? hfound hfield).symm.trans hw)

/-- **A text of an object is read as a record** exactly if each field has one member, which holds a
value of its type. -/
theorem Shape.parse_eq_ok_iff (hshape : shape.IsNodup) (h : IsTextOf (.object ms) s) :
    shape.parse s = .ok vs ↔
      List.Forall₂ (fun field w ↦ ∃ v, valuesOf field.1 ms = [v] ∧ v.field? field.2 = some w)
        shape.fields vs := by
  rw [← Except.toOption_eq_some_iff, shape.toOption_parse h, ofMembers?_eq_some_iff hshape]

/-- An object in which a name does not come exactly once is no record with a field of that name. -/
theorem Shape.exists_parse_eq_error (hshape : shape.IsNodup) (h : IsTextOf (.object ms) s)
    (hname : name ∈ shape.fields.map Prod.fst) (hcount : (ms.map Prod.fst).count name ≠ 1) :
    ∃ e, shape.parse s = .error e := by
  rcases hparse : shape.parse s with e | vs
  · exact ⟨e, rfl⟩
  · rw [parse_eq_ok_iff hshape h] at hparse
    obtain ⟨field, hfield, rfl⟩ := List.mem_map.1 hname
    obtain ⟨w, v, hv, -⟩ := exists_of_forall₂ hparse hfield
    rw [← length_valuesOf, hv] at hcount
    exact absurd rfl hcount

/-- Whether a member is that of a field. -/
def Shape.hasField (shape : Shape) (m : String × Value) : Bool := (shape.fields.lookup m.1).isSome

/-- Members that are the same but for their order and for those of other names say the same of a
field, if it comes once. -/
theorem Shape.valuesOf_eq_singleton_iff {ms' : List (String × Value)}
    (hperm : (ms.filter shape.hasField).Perm (ms'.filter shape.hasField))
    (hfield : shape.fields.lookup name = some type) :
    valuesOf name ms = [v] ↔ valuesOf name ms' = [v] := by
  have hknown (ms : List (String × Value)) :
      valuesOf name (ms.filter shape.hasField) = valuesOf name ms := by
    rw [valuesOf, valuesOf, List.filter_filter]
    refine congrArg _ (List.filter_congr fun m _ ↦ ?_)
    by_cases hname : m.1 = name <;> simp [hasField, hname, hfield]
  have hvalues : (valuesOf name ms).Perm (valuesOf name ms') := by
    rw [← hknown ms, ← hknown ms']
    exact (hperm.filter _).map _
  constructor
  · intro h
    exact List.perm_singleton.1 (h ▸ hvalues.symm)
  · intro h
    exact List.perm_singleton.1 (h ▸ hvalues)

/-- **What an object is read as depends on its fields alone**: not on their order, nor on members of
other names. -/
theorem Shape.parse_eq_ok_congr (hshape : shape.IsNodup) {ms' : List (String × Value)} {s' : String}
    (h : IsTextOf (.object ms) s) (h' : IsTextOf (.object ms') s')
    (hperm : (ms.filter shape.hasField).Perm (ms'.filter shape.hasField)) :
    shape.parse s = .ok vs ↔ shape.parse s' = .ok vs := by
  have himp {ms ms' : List (String × Value)}
      (hperm : (ms.filter shape.hasField).Perm (ms'.filter shape.hasField))
      (hvs : List.Forall₂
        (fun field w ↦ ∃ v, valuesOf field.1 ms = [v] ∧ v.field? field.2 = some w)
        shape.fields vs) :
      List.Forall₂ (fun field w ↦ ∃ v, valuesOf field.1 ms' = [v] ∧ v.field? field.2 = some w)
        shape.fields vs := by
    refine ((List.forall₂_and_left _ _).2 ⟨fun _ ↦ lookup_of_mem hshape, hvs⟩).imp ?_
    rintro field w ⟨hfield, v, hv, hw⟩
    exact ⟨v, (valuesOf_eq_singleton_iff hperm hfield).1 hv, hw⟩
  rw [parse_eq_ok_iff hshape h, parse_eq_ok_iff hshape h']
  exact ⟨himp hperm, himp hperm.symm⟩

/-- What a text holds for a field of whole numbers is plain digits. -/
theorem IsTextOf.field?_natural_iff (h : IsTextOf (.object ms) s) (hv : valuesOf name ms = [v])
    {t : UInt64} : v.field? .natural = some (.natural t) ↔ v = .whole t.toNat := by
  obtain ⟨cs, -, hcs, -⟩ := h
  obtain ⟨-, -, -, ⟨ds, hds, -⟩, -⟩ := hcs.exists_token
  obtain ⟨text, htext⟩ := hds.exists_of_mem (mem_of_valuesOf_eq hv)
  exact htext.field?_natural_iff

end Hygrometer.Json
