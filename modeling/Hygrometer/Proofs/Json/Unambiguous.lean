import Hygrometer.Json.Skip
import Hygrometer.Proofs.Json.Grammar

/-!
# A text holds one value

The grammar says which texts a value has, and it is an inductive relation: nothing in it keeps one
text from being that of two values. That it is none is seen by reading. `Value.read?` reads a value
of any shape, it takes every text that spells a value, and it comes to that value (`Spells.isRead`).
So a text holds one value at most (`IsTextOf.unique`).

**The reader is not the one that runs.** Records are read by their shape, with the members of other
names skipped, so no reader of the model builds a value. This one follows the phrases of the grammar
and shares with the model what is below them: strings, numerals and words. It serves this one
purpose, so only one direction is proved of it, and it may well read other texts too.

**The proof** is by induction on the spelling, with one case for each rule of the grammar, and says
for every phrase what reading it comes to (`Phrase.IsRead`). Two things do not follow the grammar.

* Blanks are a rule of their own there, and may stand before every phrase. A reader drops all of
  them at once, so what it reads depends on the text without its blanks only (`read?_congr`).
* Fuel is the length of the text and one more. It grows with the text that a rule puts together, so
  that the phrases of a rule have enough.
-/

namespace Hygrometer.Json

/-! ### Reading a value -/

/-- The text behind what separates an element or a member from those before it. -/
def afterSeparator? : Bool → List Char → Option (List Char)
  | true, cs => some cs
  | false, ',' :: cs => some cs
  | false, _ => none

/-- Read a key and its colon. -/
def readKey? (cs : List Char) : Option (String × List Char) :=
  match skipBlanks cs with
  | '"' :: cs => do
    let (name, cs) ← readString? cs
    match skipBlanks cs with
    | ':' :: cs => some (.ofList name, cs)
    | _ => none
  | _ => none

/-- What separates is passed, and blanks with it. -/
theorem exists_afterSeparator? (first : Bool) (cs : List Char) :
    ∃ text, afterSeparator? first (skipBlanks (separator first ++ cs)) = some text ∧
      skipBlanks text = skipBlanks cs := by
  cases first with
  | true => exact ⟨_, rfl, skipBlanks_skipBlanks cs⟩
  | false => exact ⟨cs, rfl, rfl⟩

theorem readKey?_congr {cs ds : List Char} (h : skipBlanks cs = skipBlanks ds) :
    readKey? cs = readKey? ds := by
  rw [readKey?, readKey?, h]

theorem readKey?_append {name : String} {key : List Char} (h : IsKey name key)
    (rest : List Char) : readKey? (key ++ rest) = some (name, rest) := by
  obtain ⟨ds, tail, hkey, hread, -, hcolon⟩ := h.exists_string rest
  rw [readKey?, hkey]
  simp [hread, hcolon]

namespace Value

mutual

/-- Read a value, and the blanks before it. -/
def read? : ℕ → List Char → Option (Value × List Char)
  | 0, _ => none
  | fuel + 1, cs =>
    match skipBlanks cs with
    | 'n' :: cs => (afterWord? ['u', 'l', 'l'] cs).map (.null, ·)
    | 't' :: cs => (afterWord? ['r', 'u', 'e'] cs).map (.boolean true, ·)
    | 'f' :: cs => (afterWord? ['a', 'l', 's', 'e'] cs).map (.boolean false, ·)
    | '"' :: cs => (readString? cs).map fun (s, cs) ↦ (.text (.ofList s), cs)
    | '[' :: cs => (readElements? fuel true cs).map fun (vs, cs) ↦ (.array vs, cs)
    | '\x7b' :: cs => (readMembers? fuel true cs).map fun (ms, cs) ↦ (.object ms, cs)
    | cs => (takeNumeral? cs).map fun ((negative, whole, fraction, exponent), cs) ↦
        (.number negative ⟨whole, fraction, exponent⟩, cs)

/-- Read the elements left of an array, and its end. -/
def readElements? : ℕ → Bool → List Char → Option (List Value × List Char)
  | 0, _, _ => none
  | fuel + 1, first, cs =>
    match skipBlanks cs with
    | ']' :: cs => some ([], cs)
    | cs => do
      let cs ← afterSeparator? first cs
      let (v, cs) ← read? fuel cs
      let (vs, cs) ← readElements? fuel false cs
      pure (v :: vs, cs)

/-- Read the members left of an object, and its end. -/
def readMembers? : ℕ → Bool → List Char → Option (List (String × Value) × List Char)
  | 0, _, _ => none
  | fuel + 1, first, cs =>
    match skipBlanks cs with
    | '\x7d' :: cs => some ([], cs)
    | cs => do
      let cs ← afterSeparator? first cs
      let (name, cs) ← readKey? cs
      let (v, cs) ← read? fuel cs
      let (ms, cs) ← readMembers? fuel false cs
      pure ((name, v) :: ms, cs)

end

end Value

variable {fuel : ℕ} {first : Bool} {v : Value} {cs ds key text tail rest : List Char}

namespace Value

/-- Blanks before a value do not matter. -/
theorem read?_congr (fuel : ℕ) (h : skipBlanks cs = skipBlanks ds) :
    read? fuel cs = read? fuel ds := by
  cases fuel with
  | zero => rfl
  | succ fuel => rw [read?, read?, h]

theorem read?_number {negative : Bool} {p : Parts} (h : Parts.IsNumber negative p cs)
    (hrest : Follows rest) :
    read? (fuel + 1) (cs ++ rest) = some (.number negative p, rest) := by
  have hstart := h.startsNumber rest
  rw [read?, skipBlanks_of_startsNumber hstart]
  split
  case h_7 => rw [h.takeNumeral? hrest, Option.map_some]
  -- A numeral starts with none of the other characters.
  all_goals
    next heq =>
      rw [heq] at hstart
      cases hstart

/-- An element is a step. -/
theorem readElements?_cons {vs : List Value} (hend : ∀ ds, skipBlanks cs ≠ ']' :: ds)
    (hseparator : afterSeparator? first (skipBlanks cs) = some text)
    (hv : read? fuel text = some (v, tail))
    (hvs : readElements? fuel false tail = some (vs, rest)) :
    readElements? (fuel + 1) first cs = some (v :: vs, rest) := by
  rw [readElements?]
  split
  · next heq => exact absurd heq (hend _)
  · simp [hseparator, hv, hvs]

/-- A member is a step. -/
theorem readMembers?_cons {ms : List (String × Value)} {name : String}
    (hend : ∀ ds, skipBlanks cs ≠ '\x7d' :: ds)
    (hseparator : afterSeparator? first (skipBlanks cs) = some key)
    (hkey : readKey? key = some (name, text)) (hv : read? fuel text = some (v, tail))
    (hms : readMembers? fuel false tail = some (ms, rest)) :
    readMembers? (fuel + 1) first cs = some ((name, v) :: ms, rest) := by
  rw [readMembers?]
  split
  · next heq => exact absurd heq (hend _)
  · simp [hseparator, hkey, hv, hms]

end Value

open Value (read? readElements? readMembers?)

/-- A phrase is read from a text, and some text is left. -/
def Phrase.IsRead (fuel : ℕ) (cs rest : List Char) : Phrase → Prop
  | .value v => read? fuel cs = some (v, rest)
  | .elements first vs => readElements? fuel first cs = some (vs, rest)
  | .members first ms => readMembers? fuel first cs = some (ms, rest)

variable {p : Phrase} {w : Value} {c : Char} {rest' : List Char}

theorem Phrase.isRead_blank (hc : IsBlank c) (h : p.IsRead fuel cs rest) :
    p.IsRead fuel (c :: cs) rest := by
  rcases fuel with - | fuel
  · cases p <;> cases h
  · cases p with
    | value v => rwa [IsRead, read?, skipBlanks_blank hc, ← read?]
    | elements first vs => rwa [IsRead, readElements?, skipBlanks_blank hc, ← readElements?]
    | members first ms => rwa [IsRead, readMembers?, skipBlanks_blank hc, ← readMembers?]

/-- **A spelled phrase is read as itself**, if what follows a value does not go on with it. -/
theorem Spells.isRead (h : Spells p cs) (hrest : ∀ v, p = .value v → Follows rest)
    (hfuel : cs.length ≤ fuel) : p.IsRead (fuel + 1) (cs ++ rest) rest := by
  induction h generalizing fuel rest with
  | blank hc _ ih => exact Phrase.isRead_blank hc (ih hrest (Nat.le_of_succ_le hfuel))
  | null => rfl
  | boolean b => cases b <;> rfl
  | number h => exact Value.read?_number h (hrest _ rfl)
  | @text s _ h =>
    obtain ⟨ds, rfl, hread⟩ := h.readString? rest
    show (readString? (ds ++ rest)).map _ = some (Value.text s, rest)
    simp only [hread, Option.map_some, String.ofList_toList]
  | @array vs cs _ ih =>
    obtain ⟨fuel, rfl⟩ := Nat.exists_eq_succ_of_ne_zero (Nat.ne_zero_of_lt hfuel)
    have hvs : readElements? (fuel + 1) true (cs ++ rest) = some (vs, rest) :=
      ih (fun _ h ↦ nomatch h) (Nat.le_of_succ_le_succ hfuel)
    show (readElements? (fuel + 1) true (cs ++ rest)).map _ = some (Value.array vs, rest)
    rw [hvs, Option.map_some]
  | @object ms cs _ ih =>
    obtain ⟨fuel, rfl⟩ := Nat.exists_eq_succ_of_ne_zero (Nat.ne_zero_of_lt hfuel)
    have hms : readMembers? (fuel + 1) true (cs ++ rest) = some (ms, rest) :=
      ih (fun _ h ↦ nomatch h) (Nat.le_of_succ_le_succ hfuel)
    show (readMembers? (fuel + 1) true (cs ++ rest)).map _ = some (Value.object ms, rest)
    rw [hms, Option.map_some]
  | arrayEnd first | objectEnd first => rfl
  | @element first v vs cs ds hv hvs ihv ihvs =>
    -- Both phrases have a character, so that there is fuel for either.
    have hcs := hv.length_pos
    have hds := hvs.length_pos
    simp only [List.length_append] at hfuel
    obtain ⟨fuel, rfl⟩ : ∃ k, fuel = k + 1 := ⟨fuel - 1, by omega⟩
    have hfirst : read? (fuel + 1) (cs ++ (ds ++ rest)) = some (v, ds ++ rest) :=
      ihv (fun _ _ ↦ hvs.follows rfl rest) (by omega)
    have hlater : readElements? (fuel + 1) false (ds ++ rest) = some (vs, rest) :=
      ihvs (fun _ h ↦ nomatch h) (by omega)
    obtain ⟨text, hseparator, htext⟩ := exists_afterSeparator? first (cs ++ (ds ++ rest))
    rw [← Value.read?_congr (fuel + 1) htext] at hfirst
    rw [List.append_assoc, List.append_assoc]
    refine Value.readElements?_cons ?_ hseparator hfirst hlater
    cases first with
    | true => exact hv.skipBlanks_ne _
    | false => exact fun _ h ↦ nomatch h
  | @member first name v ms key cs ds hkey hv hms ihv ihms =>
    have hcs := hv.length_pos
    have hds := hms.length_pos
    simp only [List.length_append] at hfuel
    obtain ⟨fuel, rfl⟩ : ∃ k, fuel = k + 1 := ⟨fuel - 1, by omega⟩
    have hfirst : read? (fuel + 1) (cs ++ (ds ++ rest)) = some (v, ds ++ rest) :=
      ihv (fun _ _ ↦ hms.follows rfl rest) (by omega)
    have hlater : readMembers? (fuel + 1) false (ds ++ rest) = some (ms, rest) :=
      ihms (fun _ h ↦ nomatch h) (by omega)
    have hname := readKey?_append hkey (cs ++ (ds ++ rest))
    obtain ⟨text, hseparator, htext⟩ := exists_afterSeparator? first (key ++ (cs ++ (ds ++ rest)))
    rw [← readKey?_congr htext] at hname
    rw [List.append_assoc, List.append_assoc, List.append_assoc]
    refine Value.readMembers?_cons ?_ hseparator hname hfirst hlater
    cases first with
    | true =>
      obtain ⟨_, _, hquote, -⟩ := hkey.exists_string (cs ++ (ds ++ rest))
      intro _ heq
      cases hquote.symm.trans heq
    | false => exact fun _ h ↦ nomatch h

/-! ### One value -/

/-- **A text spells one value**, and where the value ends is in the text. -/
theorem Spells.unique (hv : Spells (.value v) cs) (hw : Spells (.value w) ds)
    (hrest : Follows rest) (hrest' : Follows rest') (heq : cs ++ rest = ds ++ rest') :
    v = w ∧ rest = rest' := by
  have hreadv : read? (cs.length + ds.length + 1) (cs ++ rest) = some (v, rest) :=
    hv.isRead (fun _ _ ↦ hrest) (by omega)
  have hreadw : read? (cs.length + ds.length + 1) (ds ++ rest') = some (w, rest') :=
    hw.isRead (fun _ _ ↦ hrest') (by omega)
  rw [heq, hreadw] at hreadv
  cases hreadv
  exact ⟨rfl, rfl⟩

/-- **A text holds one value at most.** -/
theorem IsTextOf.unique {s : String} (hv : IsTextOf v s) (hw : IsTextOf w s) : v = w := by
  obtain ⟨cs, blanks, hcs, hblanks, hs⟩ := hv
  obtain ⟨ds, blanks', hds, hblanks', hs'⟩ := hw
  exact (hcs.unique hds (follows_blanks hblanks) (follows_blanks hblanks') (hs.symm.trans hs')).1

end Hygrometer.Json
