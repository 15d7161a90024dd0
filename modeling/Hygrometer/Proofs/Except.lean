import Mathlib.Data.List.Forall2

/-!
# Steps that may fail

What a computation that succeeded tells about its steps, and what one that failed tells. A function
of the model that may fail is a chain of such steps, so these lemmas take it apart: a result of the
whole is a result of the first step and one of the rest (`bind_eq_ok_iff`), and an error of the
whole is that of the first step, or of the rest behind a first step that went well
(`bind_eq_error_iff`).

Where the reason of a refusal does not matter, it is forgotten (`toOption_eq_some_iff`). Readers are
then compared by what they read.
-/

namespace Except

variable {ε δ α β : Type}

/-- Two steps succeed exactly if each does. -/
theorem bind_eq_ok_iff {x : Except ε α} {f : α → Except ε β} {b : β} :
    x >>= f = .ok b ↔ ∃ a, x = .ok a ∧ f a = .ok b := by
  rcases x with e | a <;> simp [bind, Except.bind]

/-- A step that failed, or one that failed after it. -/
theorem bind_eq_error_iff {x : Except ε α} {f : α → Except ε β} {e : ε} :
    x >>= f = .error e ↔ x = .error e ∨ ∃ a, x = .ok a ∧ f a = .error e := by
  rcases x with e' | a <;> simp [bind, Except.bind]

/-- A check and a step succeed exactly if both do. -/
theorem andThen_eq_ok_iff {x : Except ε Unit} {y : Except ε α} {a : α} :
    (x >>= fun _ ↦ y) = .ok a ↔ x = .ok () ∧ y = .ok a := by
  rcases x with e | - <;> simp [bind, Except.bind]

theorem map_eq_ok_iff {x : Except ε α} {f : α → β} {b : β} :
    x.map f = .ok b ↔ ∃ a, x = .ok a ∧ f a = b := by
  rcases x with e | a <;> simp [Except.map]

theorem mapError_eq_ok_iff {x : Except ε α} {f : ε → δ} {a : α} :
    x.mapError f = .ok a ↔ x = .ok a := by
  rcases x with e | a
  · constructor <;> (intro h; cases h)
  · constructor <;> (intro h; cases h; rfl)

theorem mapError_eq_error_iff {x : Except ε α} {f : ε → δ} {e : δ} :
    x.mapError f = .error e ↔ ∃ e', x = .error e' ∧ f e' = e := by
  rcases x with e' | a
  · constructor
    · intro h
      cases h
      exact ⟨e', rfl, rfl⟩
    · rintro ⟨_, ⟨⟩, rfl⟩
      rfl
  · constructor
    · intro h
      cases h
    · rintro ⟨_, h, -⟩
      cases h

/-- A step for each element succeeds exactly if all of them do. -/
theorem mapM_eq_ok_iff {f : α → Except ε β} {as : List α} {bs : List β} :
    as.mapM f = .ok bs ↔ List.Forall₂ (fun a b ↦ f a = .ok b) as bs := by
  induction as generalizing bs with
  | nil =>
    rw [List.mapM_nil, List.forall₂_nil_left_iff]
    exact ⟨fun h ↦ (Except.ok.inj h).symm, fun h ↦ h ▸ rfl⟩
  | cons a as ih =>
    simp only [List.mapM_cons, bind_eq_ok_iff, ih, List.forall₂_cons_left_iff]
    constructor
    · rintro ⟨b, hb, bs', hbs, heq⟩
      exact ⟨b, bs', hb, hbs, (Except.ok.inj heq).symm⟩
    · rintro ⟨b, bs', hb, hbs, rfl⟩
      exact ⟨b, hb, bs', hbs, rfl⟩

/-! ### Forgetting the error -/

theorem toOption_eq_some_iff {x : Except ε α} {a : α} : x.toOption = some a ↔ x = .ok a := by
  rcases x with e | b <;> simp [Except.toOption]

theorem toOption_eq_none_iff {x : Except ε α} : x.toOption = none ↔ ∃ e, x = .error e := by
  rcases x with e | a <;> simp [Except.toOption]

end Except
