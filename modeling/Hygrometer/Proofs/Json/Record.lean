import Hygrometer.Json.Record
import Hygrometer.Proofs.Json.ReadBack
import Hygrometer.Proofs.Json.Text

/-!
# Records read back

An object is read member by member. A member of a field whose text the field accepts is a step that
leaves the rest of the object (`readMembers_member`), so a run of such members is passed as a whole
(`readMembers_append`), and what ends it decides: the closing brace gives the record
(`parse_object`), a field that refuses its text gives the refusal (`exists_parse_object_eq_error`).

**Fields.** Reading back what was written for a field is a fact about its type and not about the
record. A finite number comes back close to what it was (`exists_readField_number`), a number that
is not finite is refused, since it is written as `null` (`readField_number_of_not_isFinite`), and a
natural comes back as it is (`readField_natural`). What reads a record needs of a member is only
that its field accepts the text, whatever follows the member (`IsAccepted`). So records of other
shapes are read back by the same lemmas, with a field accepted for each member.

**Texts of members** are laid out from the front, each with the comma that stands before it
(`membersText`), because this is how they are read. That an object is written with commas between
its members comes to the same (`toList_object`), and is needed once.

**Fuel** is the length of the text, and every member takes one of it. It is no limit, as a member is
longer than that (`length_le_membersText`).
-/

namespace Hygrometer.Json

variable {shape : Shape} {rest : List Char}

/-! ### Fields -/

theorem skipBlanks_cons {c : Char} (h : c ≠ ' ' ∧ c ≠ '\n' ∧ c ≠ '\t' ∧ c ≠ '\r') (cs : List Char) :
    skipBlanks (c :: cs) = c :: cs := by
  rw [skipBlanks, List.dropWhile_cons_of_neg]
  simp [h]

/-- A text that starts as a number does. -/
theorem skipBlanks_of_startsNumber {cs : List Char} (h : startsNumber cs = true) :
    skipBlanks cs = cs := by
  cases cs with
  | nil => cases h
  | cons c cs =>
    refine skipBlanks_cons ⟨?_, ?_, ?_, ?_⟩ cs <;>
    · rintro rfl
      cases h

/-- **A finite number is accepted** as one close to it. -/
theorem exists_readField_number {x : Binary64} (hx : x.isFinite = true) :
    ∃ y, IsReread x y ∧ ∀ rest, Follows rest →
      readField .number ((writeNumber x).toList ++ rest) = .ok (.number y, rest) := by
  obtain ⟨y, hclose, hread⟩ := exists_readNumber? hx
  refine ⟨y, isReread_of_isClose hclose, fun rest hrest ↦ ?_⟩
  have hstart : startsNumber ((writeNumber x).toList ++ rest) = true := by
    rcases x with - | s | ⟨s, m⟩
    · cases hx
    · cases hx
    · rw [Parts.toList_writeNumber]
      exact Parts.startsNumber_text (isNumeral_shortest m) s rest
  rw [readField, skipBlanks_of_startsNumber hstart]
  simp only [hstart, if_true, hread rest hrest, orMalformed]
  rfl

/-- **What is no finite number is refused.** -/
theorem readField_number_of_not_isFinite {x : Binary64} (hx : x.isFinite = false)
    (rest : List Char) : readField .number ((writeNumber x).toList ++ rest) =
      .error (.mismatch (.wrongType .null FieldType.number.expected) rest) := by
  rcases x with - | s | ⟨s, m⟩
  · rfl
  · cases s <;> rfl
  · cases hx

/-- **A whole number of 64 bits is accepted.** -/
theorem readField_natural (n : UInt64) (hrest : Follows rest) :
    readField .natural ((Text.numeral n.toNat).toList ++ rest) = .ok (.natural n, rest) := by
  have hstart : startsNumber (Nat.toDigits 10 n.toNat ++ rest) = true := by
    rw [← text_wholeParts]
    exact Parts.startsNumber_text (isNumeral_wholeParts n.toNat) false rest
  rw [Text.toList_numeral, readField, skipBlanks_of_startsNumber hstart]
  simp only [hstart, if_true, readNumber?_toDigits n hrest, orMalformed]
  rfl

/-! ### Members -/

/-- The text of a member, with the comma before it unless it is the first. -/
def memberText (first : Bool) (name text : String) : List Char :=
  (if first then [] else [',']) ++ (quote name).toList ++ ':' :: text.toList

/-- The text of members. -/
def membersText : Bool → List (String × String) → List Char
  | _, [] => []
  | first, (name, text) :: members => memberText first name text ++ membersText false members

theorem intercalate_members (member : String × String) (members : List (String × String)) :
    [','].intercalate ((member :: members).map fun (name, text) ↦
      (quote name).toList ++ ':' :: text.toList) = membersText true (member :: members) := by
  induction members generalizing member with
  | nil => simp [membersText, memberText]
  | cons next members ih =>
    have hrest := ih next
    rw [List.map_cons] at hrest
    rw [List.map_cons, List.map_cons, List.intercalate_cons_cons, hrest]
    simp [membersText, memberText]

theorem toList_object (members : List (String × String)) :
    (object members).toList = '\x7b' :: (membersText true members ++ ['\x7d']) := by
  have htext : [','].intercalate (members.map fun (name, text) ↦
      (quote name).toList ++ ':' :: text.toList) = membersText true members := by
    cases members with
    | nil => rfl
    | cons member members => exact intercalate_members member members
  rw [← htext]
  simp [object, String.toList_intercalate, Function.comp_def]

variable {fuel : ℕ} {first : Bool} {found : Fields} {name text : String} {type : FieldType}

/-- **A member of a new field is a step**: its value is read, and the rest of the object is left. -/
theorem readMembers_member (hfield : shape.fields.lookup name = some type)
    (hnew : found.lookup name = none) :
    readMembers shape (fuel + 1) first found (memberText first name text ++ rest) =
      (readField type (text.toList ++ rest)).bind fun (v, cs) ↦
        readMembers shape fuel false ((name, v) :: found) cs := by
  obtain ⟨cs, hquote, hread⟩ := readString?_quote name (':' :: (text.toList ++ rest))
  have hkey : nextKey first (memberText first name text ++ rest) =
      .ok (some (cs ++ ':' :: (text.toList ++ rest))) := by
    rw [memberText, hquote]
    cases first <;> simp [nextKey, skipBlanks]
  have hcolon : afterColon (':' :: (text.toList ++ rest)) = .ok (text.toList ++ rest) := rfl
  rw [readMembers, hkey]
  simp only [bind, Except.bind, hread, orMalformed, String.ofList_toList, hfield, hnew,
    Option.isSome_none, Bool.false_eq_true, if_false, hcolon]

/-- What a reader needs to know of a member: its field accepts its text. -/
def IsAccepted (shape : Shape) (name text : String) (v : FieldValue) : Prop :=
  ∃ type, shape.fields.lookup name = some type ∧
    ∀ rest, Follows rest → readField type (text.toList ++ rest) = .ok (v, rest)

/-- A member with the value that is read of it. -/
abbrev Entry := String × String × FieldValue

/-- The names and texts of entries. -/
def texts (entries : List Entry) : List (String × String) := entries.map fun e ↦ (e.1, e.2.1)

/-- The names and values of entries, the last one first. -/
def values (entries : List Entry) : Fields := (entries.map fun e ↦ (e.1, e.2.2)).reverse

theorem follows_of_head {c : Char} (h : c = ',' ∨ c = '\x7d') (cs : List Char) :
    Follows (c :: cs) := by
  rintro _ ⟨⟩
  rcases h with rfl | rfl <;> decide

/-- What follows members: a comma or a closing brace. -/
def EndsMember (cs : List Char) : Prop := ∃ c cs', cs = c :: cs' ∧ (c = ',' ∨ c = '\x7d')

theorem EndsMember.follows {cs : List Char} (h : EndsMember cs) : Follows cs := by
  obtain ⟨c, cs, rfl, hc⟩ := h
  exact follows_of_head hc cs

theorem endsMember_membersText (members : List (String × String)) (h : EndsMember rest) :
    EndsMember (membersText false members ++ rest) := by
  cases members with
  | nil => exact h
  | cons member members => exact ⟨',', _, rfl, .inl rfl⟩

/-- **Accepted members are passed**, each of them once. -/
theorem readMembers_append {entries : List Entry} (hrest : entries ≠ [] → EndsMember rest)
    (haccepted : ∀ e ∈ entries, IsAccepted shape e.1 e.2.1 e.2.2)
    (hnodup : (entries.map Prod.fst).Nodup) (hnew : ∀ e ∈ entries, found.lookup e.1 = none) :
    readMembers shape (fuel + entries.length) first found
        (membersText first (texts entries) ++ rest) =
      readMembers shape fuel (first && entries.isEmpty) (values entries ++ found) rest := by
  induction entries generalizing first found with
  | nil => simp [texts, values, membersText]
  | cons e entries ih =>
    obtain ⟨name, text, v⟩ := e
    obtain ⟨type, hfield, hread⟩ := haccepted _ List.mem_cons_self
    rw [List.map_cons, List.nodup_cons] at hnodup
    have hend : EndsMember rest := hrest (List.cons_ne_nil _ _)
    have htail := (endsMember_membersText (texts entries) hend).follows
    -- The field that is filled now is not one of those to come.
    have hfresh : ∀ e ∈ entries, List.lookup e.1 ((name, v) :: found) = none := by
      intro e he
      have hne : (e.1 == name) = false := by
        exact beq_eq_false_iff_ne.2 fun heq ↦ hnodup.1 (List.mem_map.2 ⟨e, he, heq⟩)
      rw [List.lookup_cons, hne]
      exact hnew e (List.mem_cons_of_mem _ he)
    calc readMembers shape (fuel + entries.length + 1) first found
          (membersText first ((name, text) :: texts entries) ++ rest)
        = (readField type (text.toList ++ (membersText false (texts entries) ++ rest))).bind
            fun (v, cs) ↦
              readMembers shape (fuel + entries.length) false ((name, v) :: found) cs := by
          rw [membersText, List.append_assoc,
            readMembers_member hfield (hnew _ List.mem_cons_self)]
      _ = readMembers shape (fuel + entries.length) false ((name, v) :: found)
            (membersText false (texts entries) ++ rest) := by
          rw [hread _ htail]
          rfl
      _ = readMembers shape fuel false (values entries ++ (name, v) :: found) rest := by
          rw [ih (fun _ ↦ hend) (fun e he ↦ haccepted e (List.mem_cons_of_mem _ he)) hnodup.2
            hfresh, Bool.false_and]
      _ = _ := by simp [values]

/-! ### Objects -/

/-- Every member takes a step at most. -/
theorem length_le_membersText (first : Bool) (members : List (String × String)) :
    members.length ≤ (membersText first members).length := by
  induction members generalizing first with
  | nil => exact Nat.zero_le _
  | cons member members ih =>
    have hle := ih false
    simp only [membersText, memberText, List.length_cons, List.length_append]
    omega

theorem membersText_append (first : Bool) (members others : List (String × String)) :
    membersText first (members ++ others) =
      membersText first members ++ membersText (first && members.isEmpty) others := by
  induction members generalizing first with
  | nil => simp [membersText]
  | cons member members ih => simp [membersText, ih]

/-- What is left to do at the end of an object. -/
def closeObject (shape : Shape) : Fields × List Char → Except Fault (List FieldValue × List Char)
  | (found, cs) =>
    match inOrder shape found with
    | .ok values => .ok (values, passBrace cs)
    | .error name => .error (.mismatch (.missing name) (passBrace cs))

/-- **Reading an object comes to the members behind the accepted ones.** -/
theorem exists_readRecord_object {entries : List Entry}
    (haccepted : ∀ e ∈ entries, IsAccepted shape e.1 e.2.1 e.2.2)
    (hnodup : (entries.map Prod.fst).Nodup) (members : List (String × String)) :
    ∃ fuel, readRecord shape (object (texts entries ++ members)).toList =
      (readMembers shape (fuel + 1) entries.isEmpty (values entries)
        (membersText entries.isEmpty members ++ ['\x7d'])).bind (closeObject shape) := by
  have htext : membersText true (texts entries ++ members) ++ ['\x7d'] =
      membersText true (texts entries) ++ (membersText entries.isEmpty members ++ ['\x7d']) := by
    rw [membersText_append, Bool.true_and, texts, List.isEmpty_map, List.append_assoc]
  have hend : entries ≠ [] → EndsMember (membersText entries.isEmpty members ++ ['\x7d']) := by
    intro hne
    rw [List.isEmpty_eq_false_iff.2 hne]
    exact endsMember_membersText members ⟨_, _, rfl, .inr rfl⟩
  obtain ⟨fuel, hfuel⟩ : ∃ fuel,
      (membersText true (texts entries) ++ (membersText entries.isEmpty members ++
        ['\x7d'])).length + 1 = fuel + 1 + entries.length := by
    have hlength := length_le_membersText true (texts entries)
    rw [texts, List.length_map] at hlength
    refine ⟨(membersText true (texts entries)).length +
      (membersText entries.isEmpty members ++ ['\x7d']).length - entries.length, ?_⟩
    rw [List.length_append, texts]
    omega
  refine ⟨fuel, ?_⟩
  have hread : readMembers shape (fuel + 1 + entries.length) true []
        (membersText true (texts entries) ++ (membersText entries.isEmpty members ++ ['\x7d'])) =
      readMembers shape (fuel + 1) (true && entries.isEmpty) (values entries ++ [])
        (membersText entries.isEmpty members ++ ['\x7d']) :=
    readMembers_append hend haccepted hnodup fun _ _ ↦ rfl
  rw [List.append_nil, Bool.true_and, ← hfuel, ← htext] at hread
  rw [← hread, toList_object]
  rfl

/-- **An object of accepted members is read** as their values, in the order of the fields. -/
theorem parse_object {entries : List Entry} {vs : List FieldValue}
    (haccepted : ∀ e ∈ entries, IsAccepted shape e.1 e.2.1 e.2.2)
    (hnodup : (entries.map Prod.fst).Nodup) (hvalues : inOrder shape (values entries) = .ok vs) :
    shape.parse (object (texts entries)) = .ok vs := by
  obtain ⟨fuel, hread⟩ := exists_readRecord_object haccepted hnodup []
  have hclose : readMembers shape (fuel + 1) entries.isEmpty (values entries) ['\x7d'] =
      .ok (values entries, ['\x7d']) := by
    rw [readMembers]
    cases entries.isEmpty <;> rfl
  rw [List.append_nil, membersText, List.nil_append, hclose] at hread
  rw [Shape.parse, hread]
  simp only [Except.bind, closeObject, hvalues]
  rfl

/-- **An object is refused** for the first of its fields that refuses its text. -/
theorem exists_parse_object_eq_error {entries : List Entry} {name text : String}
    {type : FieldType} {problem : Mismatch}
    (haccepted : ∀ e ∈ entries, IsAccepted shape e.1 e.2.1 e.2.2)
    (hnodup : (entries.map Prod.fst).Nodup) (hname : name ∉ entries.map Prod.fst)
    (hfield : shape.fields.lookup name = some type)
    (hrefused : ∀ rest, readField type (text.toList ++ rest) = .error (.mismatch problem rest))
    (members : List (String × String)) :
    ∃ line column, shape.parse (object (texts entries ++ (name, text) :: members)) =
      .error (.mismatch problem line column) := by
  have hnew : (values entries).lookup name = none := by
    rw [List.lookup_eq_none_iff]
    intro entry hentry
    rw [values, List.mem_reverse, List.mem_map] at hentry
    obtain ⟨e, he, rfl⟩ := hentry
    exact bne_iff_ne.2 fun heq ↦ hname (List.mem_map.2 ⟨e, he, heq.symm⟩)
  obtain ⟨fuel, hread⟩ := exists_readRecord_object haccepted hnodup ((name, text) :: members)
  rw [membersText, List.append_assoc, readMembers_member hfield hnew, hrefused] at hread
  rw [Shape.parse, hread]
  exact ⟨_, _, rfl⟩

end Hygrometer.Json
