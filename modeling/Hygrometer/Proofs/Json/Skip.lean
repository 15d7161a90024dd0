import Hygrometer.Json.Skip
import Hygrometer.Proofs.Json.Grammar

/-!
# Values are skipped

Skipping passes over exactly one value, whatever its shape (`Spells.skipValue?`). So a member that
no field has the name of is passed without a trace, and a record is read from its own members.

The machine that skips has a stack of open brackets and a word for what it awaits; a phrase of the
grammar stands where one of these words does (`Phrase.awaited`), inside one more bracket if it is
what is left of one (`Phrase.brackets`). It takes each phrase off the text in a number of steps that
its length bounds, whatever brackets are open around it (`Spells.exists_steps`, by induction on the
spelling). So what it does inside a bracket is the same as outside, and the stack is the one that it
had before when the phrase is over.

**It never runs out of steps.** There are two for each character and two more. The first value of an
array takes one step more than the others, as it is awaited as the first and then as a value. But a
value leaves one of its own steps over (`Phrase.spare`), and this is the one that is taken before
it. So two for each character are enough for every phrase.
-/

namespace Hygrometer.Json

variable {p : Phrase} {v : Value} {name : String} {c : Char} {cs key rest : List Char} {fuel : ℕ}
  {stack : List Bracket}

/-- What the machine awaits where a phrase stands. -/
def Phrase.awaited : Phrase → Awaited
  | .value _ => .value
  | .elements first _ => if first then .first else .more
  | .members first _ => if first then .first else .more

/-- The brackets that are open where a phrase stands. -/
def Phrase.brackets (stack : List Bracket) : Phrase → List Bracket
  | .value _ => stack
  | .elements _ _ => .square :: stack
  | .members _ _ => .curly :: stack

/-- How many of two steps for each character a phrase leaves over at least. -/
def Phrase.spare : Phrase → ℕ
  | .value _ => 1
  | .elements _ _ => 0
  | .members _ _ => 0

/-! ### Single steps -/

theorem skipKey?_append (h : IsKey name key) (rest : List Char) :
    skipKey? (key ++ rest) = some rest := by
  obtain ⟨ds, tail, hkey, -, hskip, hcolon⟩ := h.exists_string rest
  rw [skipKey?, hkey]
  simp [hskip, hcolon]

theorem skipKey?_skipBlanks (cs : List Char) : skipKey? (skipBlanks cs) = skipKey? cs := by
  rw [skipKey?, skipBlanks_skipBlanks, ← skipKey?]

/-- Blanks before a value do not matter. -/
theorem skipAwaited?_skipBlanks (fuel : ℕ) (stack : List Bracket) (cs : List Char) :
    skipAwaited? fuel .value stack (skipBlanks cs) = skipAwaited? fuel .value stack cs := by
  cases fuel with
  | zero => rfl
  | succ fuel => rw [skipAwaited?, skipBlanks_skipBlanks, ← skipAwaited?]

theorem skipAwaited?_blank (hc : IsBlank c) (fuel : ℕ) (p : Phrase) (stack : List Bracket)
    (cs : List Char) : skipAwaited? fuel p.awaited (p.brackets stack) (c :: cs) =
      skipAwaited? fuel p.awaited (p.brackets stack) cs := by
  cases fuel with
  | zero => rfl
  | succ fuel =>
    rcases p with v | ⟨- | -, vs⟩ | ⟨- | -, ms⟩ <;>
      simp only [Phrase.awaited, Phrase.brackets, Bool.false_eq_true, if_false, if_true,
        skipAwaited?, skipBlanks_blank hc]

theorem skipAwaited?_number {negative : Bool} {p : Parts} (h : Parts.IsNumber negative p cs)
    (hrest : Follows rest) (fuel : ℕ) (stack : List Bracket) :
    skipAwaited? (fuel + 1) .value stack (cs ++ rest) = skipAwaited? fuel .more stack rest := by
  have hstart := h.startsNumber rest
  have htake := h.takeNumeral? hrest
  have hblanks := skipBlanks_of_startsNumber hstart
  generalize cs ++ rest = ds at hstart htake hblanks
  have hplain : skipPlain? ds = some rest := by
    rw [skipPlain?.eq_def]
    split
    case h_5 => rw [htake, Option.map_some]
    -- A numeral starts with none of the other characters.
    all_goals cases hstart
  rw [skipAwaited?, hblanks]
  split
  case h_3 => rw [hplain, Option.bind_some]
  all_goals cases hstart

/-- The first element is awaited as a value is. -/
theorem skipAwaited?_first (h : ∀ ds, skipBlanks cs ≠ ']' :: ds) (fuel : ℕ)
    (stack : List Bracket) :
    skipAwaited? (fuel + 1) .first (.square :: stack) cs =
      skipAwaited? fuel .value (.square :: stack) cs := by
  rw [skipAwaited?]
  split
  · next heq => exact absurd heq (h _)
  · rw [skipAwaited?_skipBlanks]

/-- The first member is awaited as its value is, behind its key. -/
theorem skipAwaited?_firstKey (h : IsKey name key) (fuel : ℕ) (stack : List Bracket)
    (rest : List Char) :
    skipAwaited? (fuel + 1) .first (.curly :: stack) (key ++ rest) =
      skipAwaited? fuel .value (.curly :: stack) rest := by
  obtain ⟨ds, -, hkey, -⟩ := h.exists_string rest
  rw [skipAwaited?]
  split
  · next heq => cases hkey.symm.trans heq
  · rw [skipKey?_skipBlanks, skipKey?_append h, Option.bind_some]

/-! ### Phrases -/

/-- **Each phrase is taken off in a bounded number of steps.** -/
theorem Spells.exists_steps (h : Spells p cs) (rest : List Char)
    (hrest : ∀ v, p = .value v → Follows rest) :
    ∃ steps, steps + p.spare ≤ 2 * cs.length ∧ ∀ fuel stack,
      skipAwaited? (fuel + steps) p.awaited (p.brackets stack) (cs ++ rest) =
        skipAwaited? fuel .more stack rest := by
  induction h generalizing rest with
  | @blank p c cs hc _ ih =>
    obtain ⟨steps, hle, hsteps⟩ := ih rest hrest
    refine ⟨steps, hle.trans (by simp), fun fuel stack ↦ ?_⟩
    rw [List.cons_append, skipAwaited?_blank hc, hsteps]
  | null => exact ⟨1, by simp [Phrase.spare], fun _ _ ↦ rfl⟩
  | boolean b =>
    refine ⟨1, by cases b <;> simp [Phrase.spare], fun _ _ ↦ ?_⟩
    cases b <;> rfl
  | number h =>
    refine ⟨1, ?_, fun fuel stack ↦ skipAwaited?_number h (hrest _ rfl) fuel stack⟩
    have hlength := (Spells.number h).length_pos
    simp only [Phrase.spare]
    omega
  | @text s cs h =>
    have hlength := (Spells.text h).length_pos
    obtain ⟨ds, rfl, hskip⟩ := h.skipString? rest
    refine ⟨1, ?_, fun fuel stack ↦ ?_⟩
    · simp only [Phrase.spare]
      omega
    · show (skipString? (ds ++ rest)).bind (skipAwaited? fuel .more stack) = _
      rw [hskip, Option.bind_some]
  | array _ ih | object _ ih =>
    obtain ⟨steps, hle, hsteps⟩ := ih rest fun _ h ↦ nomatch h
    refine ⟨steps + 1, ?_, fun fuel stack ↦ hsteps fuel stack⟩
    simp only [Phrase.spare, List.length_cons] at hle ⊢
    omega
  | arrayEnd first | objectEnd first =>
    refine ⟨1, by simp [Phrase.spare], fun _ _ ↦ ?_⟩
    cases first <;> rfl
  | @element first v vs cs ds hv hvs ihv ihvs =>
    obtain ⟨steps, hle, hsteps⟩ := ihv (ds ++ rest) fun _ _ ↦ hvs.follows rfl rest
    obtain ⟨later, hlater, hsteps'⟩ := ihvs rest fun _ h ↦ nomatch h
    -- One step more than the two phrases take: the first value is awaited as the first, too.
    refine ⟨later + steps + 1, ?_, fun fuel stack ↦ ?_⟩
    · simp only [Phrase.spare, List.length_append] at hle hlater ⊢
      omega
    · have hrun : skipAwaited? (fuel + (later + steps)) .value (.square :: stack)
          (cs ++ (ds ++ rest)) = skipAwaited? fuel .more stack rest := by
        rw [← Nat.add_assoc]
        exact (hsteps _ _).trans (hsteps' fuel stack)
      rw [← hrun, List.append_assoc, List.append_assoc]
      cases first with
      | true => exact skipAwaited?_first (hv.skipBlanks_ne _) _ stack
      | false => rfl
  | @member first name v ms key cs ds hkey hv hms ihv ihms =>
    obtain ⟨steps, hle, hsteps⟩ := ihv (ds ++ rest) fun _ _ ↦ hms.follows rfl rest
    obtain ⟨later, hlater, hsteps'⟩ := ihms rest fun _ h ↦ nomatch h
    refine ⟨later + steps + 1, ?_, fun fuel stack ↦ ?_⟩
    · simp only [Phrase.spare, List.length_append] at hle hlater ⊢
      omega
    · have hrun : skipAwaited? (fuel + (later + steps)) .value (.curly :: stack)
          (cs ++ (ds ++ rest)) = skipAwaited? fuel .more stack rest := by
        rw [← Nat.add_assoc]
        exact (hsteps _ _).trans (hsteps' fuel stack)
      rw [← hrun, List.append_assoc, List.append_assoc, List.append_assoc]
      cases first with
      | true => exact skipAwaited?_firstKey hkey _ stack _
      | false =>
        show (skipKey? (key ++ (cs ++ (ds ++ rest)))).bind _ = _
        rw [skipKey?_append hkey, Option.bind_some]
        rfl

/-- **A value is skipped**, whatever its shape, and nothing behind it. -/
theorem Spells.skipValue? (h : Spells (.value v) cs) (hrest : Follows rest) :
    Json.skipValue? (cs ++ rest) = some rest := by
  obtain ⟨steps, hle, hsteps⟩ := h.exists_steps rest fun _ _ ↦ hrest
  obtain ⟨fuel, hfuel⟩ : ∃ fuel, 2 * (cs ++ rest).length + 2 = fuel + 1 + steps := by
    refine ⟨2 * (cs ++ rest).length + 1 - steps, ?_⟩
    simp only [List.length_append]
    omega
  rw [Json.skipValue?, hfuel]
  exact hsteps (fuel + 1) []

end Hygrometer.Json
