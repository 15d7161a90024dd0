import Hygrometer.Json.Skip
import Hygrometer.Text.Quoted

/-!
# JSON records

A record is a list of named, typed fields. Its text is an object with every field once, in any order
and among members of other names, or an array with the fields in their order. All records of the
program are read by one reader, `Shape.parse`, which is given the name and the fields (`Shape`), and
returns the values of the fields in their order.

A text is refused in one of two ways. It is **malformed** where it leaves the grammar, stops short
or holds a number out of range. It has a **mismatch** where it keeps to the grammar and still does
not fit the record; the refusal then says what and where.

**Where a mismatch is noticed** is part of its message, as a line and a column. A reader keeps the
text that is left at that moment, and the place is counted from the part before it at the end
(`Fault.inText`). What is left differs from case to case:

* a plain value of another type is read first, while the brackets of a value that has some are left
  unopened (`unexpected`);
* a field that comes again is noticed behind its name, before its value is read, and the brace of
  the object is passed if it happens to stand there (`passBrace`);
* a field that is missing is noticed behind the object.

**The order of refusals** is that of the text: the first thing in it that does not fit is the one
that is reported. So a value is never looked at before its name is known to be that of a field, and
a member of another name only has to be well-formed.
-/

namespace Hygrometer.Json

open Text (numeral quoted)

/-- The type of a field. -/
inductive FieldType where
  /-- Any finite number. -/
  | number
  /-- A whole number of 64 bits. -/
  | natural
  /-- A truth value. -/
  | boolean
  /-- A text. -/
  | text
deriving DecidableEq

/-- What a field of each type must hold, in words. -/
def FieldType.expected : FieldType → String
  | .number => "f64"
  | .natural => "u64"
  | .boolean => "a boolean"
  | .text => "a string"

/-- The value of a field. -/
inductive FieldValue where
  /-- A number. -/
  | number (x : Binary64)
  /-- A whole number. -/
  | natural (n : UInt64)
  /-- A truth value. -/
  | boolean (b : Bool)
  /-- A text. -/
  | text (s : String)
deriving DecidableEq

/-- The name and fields of a record. -/
structure Shape where
  /-- What the record is called. -/
  name : String
  /-- Its fields, in their order. -/
  fields : List (String × FieldType)

/-- The record, in words. -/
def Shape.expected (shape : Shape) : String := "struct " ++ shape.name

/-! ### Refusals -/

/-- A value that stands where another was expected. -/
inductive Found where
  /-- The word `null`. -/
  | null
  /-- A truth value. -/
  | boolean (b : Bool)
  /-- A whole number. -/
  | integer (n : Int)
  /-- Another number. -/
  | real (x : Binary64)
  /-- A text. -/
  | text (s : String)
  /-- An array. -/
  | sequence
  /-- An object. -/
  | map
deriving DecidableEq

/-- What was found, in words. -/
def Found.describe : Found → String
  | .null => "null"
  | .boolean b => "boolean `" ++ (if b then "true" else "false") ++ "`"
  | .integer n => "integer `" ++ (if n < 0 then "-" else "") ++ numeral n.natAbs ++ "`"
  | .real x => "floating point `" ++ writeNumber x ++ "`"
  | .text s => "string " ++ quoted s
  | .sequence => "sequence"
  | .map => "map"

/-- Why a well-formed text does not fit a record. -/
inductive Mismatch where
  /-- A value of another type. -/
  | wrongType (found : Found) (expected : String)
  /-- A value of the type but out of its range. -/
  | wrongValue (found : Found) (expected : String)
  /-- A field that is not there. -/
  | missing (field : String)
  /-- A field that is there twice. -/
  | duplicate (field : String)
  /-- An array with too few values. -/
  | tooShort (length : Nat) (shape : Shape)

/-- The mismatch, in words. -/
def Mismatch.describe : Mismatch → String
  | .wrongType found expected => "invalid type: " ++ found.describe ++ ", expected " ++ expected
  | .wrongValue found expected => "invalid value: " ++ found.describe ++ ", expected " ++ expected
  | .missing field => "missing field `" ++ field ++ "`"
  | .duplicate field => "duplicate field `" ++ field ++ "`"
  | .tooShort length shape =>
    "invalid length " ++ numeral length ++ ", expected " ++ shape.expected ++ " with " ++
      numeral shape.fields.length ++ " elements"

/-- Why a text was refused while it was read. A mismatch keeps the text left where it was
noticed. -/
inductive Fault where
  /-- The text leaves the grammar. -/
  | malformed
  /-- The text does not fit. -/
  | mismatch (problem : Mismatch) (left : List Char)

/-- Why a whole text was refused. -/
inductive Refusal where
  /-- The text leaves the grammar. -/
  | malformed
  /-- The text does not fit, noticed at a line and a column, which counts octets. -/
  | mismatch (problem : Mismatch) (line column : Nat)

/-- The message of a mismatch, with its place. -/
def Refusal.message? : Refusal → Option String
  | .malformed => none
  | .mismatch problem line column =>
    some (problem.describe ++ " at line " ++ numeral line ++ " column " ++ numeral column)

/-- The line and column that a text reaches, both from one; the column counts the octets since the
line's start. -/
def placeAfter (cs : List Char) : Nat × Nat :=
  cs.foldl (fun (line, column) c ↦ if c = '\n' then (line + 1, 0) else (line, column + c.utf8Size))
    (1, 0)

/-- The refusal of a text for a fault in it. -/
def Fault.inText (text : List Char) : Fault → Refusal
  | .malformed => .malformed
  | .mismatch problem left =>
    let (line, column) := placeAfter (text.take (text.length - left.length))
    .mismatch problem line column

/-! ### Reading -/

/-- Read a part of a text from its front. -/
abbrev Reader (α : Type) := List Char → Except Fault (α × List Char)

/-- A result that may be malformed. -/
def orMalformed {α : Type} : Option α → Except Fault α
  | some a => .ok a
  | none => .error .malformed

/-- The fault of a value that stands where another was expected. A plain value is read, brackets are
left unopened. -/
def unexpected (expected : String) (cs : List Char) : Fault :=
  let fault (found : Found) (left : List Char) : Fault :=
    .mismatch (.wrongType found expected) left
  let orElse (found : Option (Found × List Char)) : Fault :=
    found.elim .malformed fun (found, left) ↦ fault found left
  match cs with
  | 'n' :: cs => orElse ((afterWord? ['u', 'l', 'l'] cs).map (.null, ·))
  | 't' :: cs => orElse ((afterWord? ['r', 'u', 'e'] cs).map (.boolean true, ·))
  | 'f' :: cs => orElse ((afterWord? ['a', 'l', 's', 'e'] cs).map (.boolean false, ·))
  | '"' :: cs => orElse ((readString? cs).map fun (s, left) ↦ (.text (.ofList s), left))
  | '[' :: _ => fault .sequence cs
  | '\x7b' :: _ => fault .map cs
  | _ =>
    orElse <| (readNumber? cs).map fun
      | (.natural n, left) => (.integer n.toNat, left)
      | (.negative n, left) => (.integer (-n), left)
      | (.real x, left) => (.real x, left)

/-- The value of a field that holds a number; whole numbers are rounded to the nearest. -/
def numberValue : Number → FieldValue
  | .natural n => .number (.ofNat n.toNat)
  | .negative n => .number (-Binary64.ofNat n)
  | .real x => .number x

/-- The value of a field that holds a whole number, or what is wrong with it. -/
def naturalValue : Number → Except Mismatch FieldValue
  | .natural n => .ok (.natural n)
  | .negative n => .error (.wrongValue (.integer (-n)) FieldType.natural.expected)
  | .real x => .error (.wrongType (.real x) FieldType.natural.expected)

/-- Whether a number starts here. -/
def startsNumber : List Char → Bool
  | c :: _ => c = '-' || Text.isDigit c
  | [] => false

/-- Read a value of a field, and the blanks before it. -/
def readField (type : FieldType) : Reader FieldValue := fun cs ↦
  let cs := skipBlanks cs
  match type with
  | .number => do
    if startsNumber cs then
      let (n, left) ← orMalformed (readNumber? cs)
      pure (numberValue n, left)
    else
      throw (unexpected type.expected cs)
  | .natural => do
    if startsNumber cs then
      let (n, left) ← orMalformed (readNumber? cs)
      match naturalValue n with
      | .ok v => pure (v, left)
      | .error problem => throw (.mismatch problem left)
    else
      throw (unexpected type.expected cs)
  | .boolean =>
    match cs with
    | 't' :: cs => orMalformed ((afterWord? ['r', 'u', 'e'] cs).map (.boolean true, ·))
    | 'f' :: cs => orMalformed ((afterWord? ['a', 'l', 's', 'e'] cs).map (.boolean false, ·))
    | _ => throw (unexpected type.expected cs)
  | .text =>
    match cs with
    | '"' :: cs => orMalformed ((readString? cs).map fun (s, left) ↦ (.text (.ofList s), left))
    | _ => throw (unexpected type.expected cs)

/-- The fields found so far, by name. -/
abbrev Fields := List (String × FieldValue)

/-- The values of a record's fields in their order, or the first field that is missing. -/
def inOrder (shape : Shape) (found : Fields) : Except String (List FieldValue) :=
  shape.fields.mapM fun (name, _) ↦
    match found.lookup name with
    | some v => .ok v
    | none => .error name

/-- The text left once the object's end has been looked for: a closing brace that comes next, and
blanks before it, are passed. -/
def passBrace (cs : List Char) : List Char :=
  match skipBlanks cs with
  | '\x7d' :: cs => cs
  | cs => cs

/-- The text behind a colon, and the blanks before it. -/
def afterColon (cs : List Char) : Except Fault (List Char) :=
  match skipBlanks cs with
  | ':' :: cs => .ok cs
  | _ => .error .malformed

/-- Where the next key of an object starts, behind its quote; nothing at the object's end. Every
member but the first has a comma before it. -/
def nextKey (first : Bool) (cs : List Char) : Except Fault (Option (List Char)) :=
  match skipBlanks cs with
  | '\x7d' :: _ => .ok none
  | '"' :: cs => if first then .ok (some cs) else .error .malformed
  | ',' :: cs =>
    match first, skipBlanks cs with
    | false, '"' :: cs => .ok (some cs)
    | _, _ => .error .malformed
  | _ => .error .malformed

/-- Read the members of an object until its end, which is left to be passed. A field that comes
again is refused before its value is read; a member of another name is skipped. -/
def readMembers (shape : Shape) : Nat → Bool → Fields → Reader Fields
  | 0, _, _, _ => .error .malformed
  | fuel + 1, first, found, cs => do
    match ← nextKey first cs with
    | none => pure (found, cs)
    | some cs =>
      let (key, cs) ← orMalformed (readString? cs)
      let name := String.ofList key
      match shape.fields.lookup name with
      | some type =>
        if (found.lookup name).isSome then
          throw (.mismatch (.duplicate name) (passBrace cs))
        let (v, cs) ← readField type (← afterColon cs)
        readMembers shape fuel false ((name, v) :: found) cs
      | none =>
        let cs ← orMalformed (skipValue? (← afterColon cs))
        readMembers shape fuel false found cs

/-- Read an object from behind its brace. -/
def readObject (shape : Shape) : Reader (List FieldValue) := fun cs ↦ do
  let (found, cs) ← readMembers shape (cs.length + 1) true [] cs
  match inOrder shape found with
  | .ok values => pure (values, passBrace cs)
  | .error name => throw (.mismatch (.missing name) (passBrace cs))

/-- Where the next value of an array starts; nothing at the array's end. Every value but the first
has a comma before it. -/
def nextElement (first : Bool) (cs : List Char) : Except Fault (Option (List Char)) :=
  match skipBlanks cs with
  | [] => .error .malformed
  | ']' :: _ => .ok none
  | ',' :: cs =>
    match first, skipBlanks cs with
    | false, c :: cs => if c = ']' then .error .malformed else .ok (some (c :: cs))
    | _, _ => .error .malformed
  | cs => if first then .ok (some cs) else .error .malformed

/-- The text behind the bracket of an array, and the blanks before it. -/
def afterBracket (cs : List Char) : Except Fault (List Char) :=
  match skipBlanks cs with
  | ']' :: cs => .ok cs
  | _ => .error .malformed

/-- Read the values of an array, for the fields in their order. -/
def readElements (shape : Shape) : List (String × FieldType) → Nat → Reader (List FieldValue)
  | [], _, cs => do pure ([], ← afterBracket cs)
  | (_, type) :: fields, count, cs => do
    match ← nextElement (count = 0) cs with
    | none => throw (.mismatch (.tooShort count shape) (← afterBracket cs))
    | some cs =>
      let (v, cs) ← readField type cs
      let (vs, cs) ← readElements shape fields (count + 1) cs
      pure (v :: vs, cs)

/-- Read a record from the front of a text. -/
def readRecord (shape : Shape) : Reader (List FieldValue) := fun cs ↦
  match skipBlanks cs with
  | [] => .error .malformed
  | '\x7b' :: cs => readObject shape cs
  | '[' :: cs => readElements shape shape.fields 0 cs
  | cs => .error (unexpected shape.expected cs)

/-- The field values of the record that a whole text holds, in the order of the fields. -/
def Shape.parse (shape : Shape) (s : String) : Except Refusal (List FieldValue) :=
  match readRecord shape s.toList with
  | .ok (values, left) => if (skipBlanks left).isEmpty then .ok values else .error .malformed
  | .error fault => .error (fault.inText s.toList)

/-! ### Writing -/

/-- An object from the names and texts of its members. -/
def object (members : List (String × String)) : String :=
  "\x7b" ++ ",".intercalate (members.map fun (name, value) ↦ quote name ++ ":" ++ value) ++ "\x7d"

end Hygrometer.Json
