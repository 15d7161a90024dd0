import Hygrometer.Page

/-!
# Texts inside markup

A text that is written character by character can be read back, because the only character that
starts more than itself is the ampersand, and an ampersand of the text is written as an entity too.
So a text that already holds entities, or pieces of them, comes out as it went in
(`unescape_escape`): reading once undoes writing once, and nothing is read twice.

What is written is **inert** (`isInert_escape`): it has none of the characters that could end a slot
of the page or start a tag in it, and no ampersand but at the start of an entity.
-/

namespace Hygrometer.Page

/-- The five entities. -/
def entities : List (List Char) :=
  ["&amp;".toList, "&lt;".toList, "&gt;".toList, "&quot;".toList, "&#39;".toList]

/-- A text with each entity replaced by the character that it stands for. -/
def unescape : List Char → List Char
  | '&' :: 'a' :: 'm' :: 'p' :: ';' :: cs => '&' :: unescape cs
  | '&' :: 'l' :: 't' :: ';' :: cs => '<' :: unescape cs
  | '&' :: 'g' :: 't' :: ';' :: cs => '>' :: unescape cs
  | '&' :: 'q' :: 'u' :: 'o' :: 't' :: ';' :: cs => '"' :: unescape cs
  | '&' :: '#' :: '3' :: '9' :: ';' :: cs => '\'' :: unescape cs
  | c :: cs => c :: unescape cs
  | [] => []

/-- A text that stands for nothing but characters of text, wherever markup allows text. -/
structure IsInert (cs : List Char) : Prop where
  /-- No character of it opens or closes a tag, or a quoted value inside of one. -/
  forall_not_mem : ∀ c ∈ ['<', '>', '"', '\''], c ∉ cs
  /-- Every ampersand starts an entity. -/
  exists_entity : ∀ rest, '&' :: rest <:+ cs → ∃ entity ∈ entities, entity <+: '&' :: rest

theorem escapeChar_of_not_mem {c : Char} (h : c ∉ ['&', '<', '>', '"', '\'']) :
    escapeChar c = [c] := by
  simp only [List.mem_cons, List.not_mem_nil, or_false, not_or] at h
  obtain ⟨hamp, hlt, hgt, hquote, happ⟩ := h
  rw [escapeChar, if_neg hamp, if_neg hlt, if_neg hgt, if_neg hquote, if_neg happ]

/-- A character that is no ampersand stands for itself. -/
theorem unescape_cons {c : Char} (h : c ≠ '&') (cs : List Char) :
    unescape (c :: cs) = c :: unescape cs := by
  rw [unescape] <;>
  · intros
    exact absurd ‹_› h

/-- A written character is read back, and what follows it is left alone. -/
theorem unescape_escapeChar_append (c : Char) (cs : List Char) :
    unescape (escapeChar c ++ cs) = c :: unescape cs := by
  by_cases h : c ∈ ['&', '<', '>', '"', '\'']
  · simp only [List.mem_cons, List.not_mem_nil, or_false] at h
    rcases h with rfl | rfl | rfl | rfl | rfl <;> rfl
  · rw [escapeChar_of_not_mem h, List.singleton_append,
      unescape_cons fun hamp ↦ h (hamp ▸ List.mem_cons_self)]

theorem unescape_flatMap_escapeChar (cs : List Char) :
    unescape (cs.flatMap escapeChar) = cs := by
  induction cs with
  | nil => rfl
  | cons c cs ih => rw [List.flatMap_cons, unescape_escapeChar_append, ih]

/-- **A text that is written is read back.** -/
theorem unescape_escape (s : String) : unescape (escape s).toList = s.toList := by
  rw [escape, String.toList_ofList, unescape_flatMap_escapeChar]

/-- Texts that are written alike are the same. -/
theorem escape_inj {s t : String} (h : escape s = escape t) : s = t := by
  rw [← String.toList_inj, ← unescape_escape s, ← unescape_escape t, h]

/-! ### What is written -/

/-- Inert texts side by side are inert: an entity that the first one starts, it also ends. -/
theorem IsInert.append {cs ds : List Char} (hcs : IsInert cs) (hds : IsInert ds) :
    IsInert (cs ++ ds) where
  forall_not_mem c hc hmem := by
    rcases List.mem_append.1 hmem with hmem | hmem
    · exact hcs.forall_not_mem c hc hmem
    · exact hds.forall_not_mem c hc hmem
  exists_entity rest hsuffix := by
    obtain ⟨front, heq⟩ := hsuffix
    rcases List.append_eq_append_iff.1 heq with ⟨between, hcs', hrest⟩ | ⟨between, -, hds'⟩
    · rcases between with - | ⟨c, between⟩
      · exact hds.exists_entity rest ⟨[], hrest⟩
      · obtain ⟨rfl, rfl⟩ := List.cons.inj hrest
        obtain ⟨entity, hmem, hprefix⟩ := hcs.exists_entity between ⟨front, hcs'.symm⟩
        exact ⟨entity, hmem, hprefix.trans (List.prefix_append ('&' :: between) ds)⟩
    · exact hds.exists_entity rest ⟨between, hds'.symm⟩

theorem isInert_escapeChar (c : Char) : IsInert (escapeChar c) := by
  by_cases hc : c ∈ ['&', '<', '>', '"', '\'']
  · have hentity : escapeChar c ∈ entities := by
      simp only [List.mem_cons, List.not_mem_nil, or_false] at hc
      rcases hc with rfl | rfl | rfl | rfl | rfl <;> decide
    constructor
    · have hnot : ∀ entity ∈ entities, ∀ d ∈ ['<', '>', '"', '\''], d ∉ entity := by simp [entities]
      exact hnot _ hentity
    · -- An entity has one ampersand, which is its first character.
      intro rest hsuffix
      have hwhole : '&' :: rest = escapeChar c := by
        simp only [List.mem_cons, List.not_mem_nil, or_false] at hc
        rcases hc with rfl | rfl | rfl | rfl | rfl <;>
          simpa [escapeChar, List.suffix_cons_iff] using hsuffix
      exact ⟨_, hentity, hwhole ▸ List.prefix_rfl⟩
  · rw [escapeChar_of_not_mem hc]
    constructor
    · intro d hd hmem
      rw [List.mem_singleton.1 hmem] at hd
      exact hc (List.mem_cons_of_mem _ hd)
    · intro rest hsuffix
      exact absurd (hsuffix.subset List.mem_cons_self) fun hamp ↦
        hc (List.mem_singleton.1 hamp ▸ List.mem_cons_self)

/-- **What is written is inert.** -/
theorem isInert_escape (s : String) : IsInert (escape s).toList := by
  rw [escape, String.toList_ofList]
  induction s.toList with
  | nil => exact ⟨by simp, by simp⟩
  | cons c cs ih => exact (isInert_escapeChar c).append ih

end Hygrometer.Page
