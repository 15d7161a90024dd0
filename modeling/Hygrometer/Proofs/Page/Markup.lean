import Hygrometer.Proofs.Page.Escaping
import Hygrometer.Proofs.Text.Basic

/-!
# The markup of the page

The page is a fixed template with four slots, of which two show the title (`render_eq_fill`). A slot
is filled by an inert text, and an inert text has no bracket. So the reader of tags passes every
slot as it came (`readTags_of_not_mem`) and finds the tags of the template and no others, and the
first opening bracket behind a slot is the template's, which makes the slots of a page known
(`fill_inj`).

**Two statements are meant by a page that shows its texts.** What is in its slots is the text that
was configured, once its references are resolved; and nothing of the text is taken for markup. The
first is a matter of escaping one text. The second is about the whole page, and is said by a reader
that looks for nothing but brackets (`readTags`): however a browser reads the page, a text without
brackets starts no tag.

**The template has brackets where they are needed.** Each of its pieces behind a slot begins with
one (`exists_toList_eq_cons`), and no slot is inside of a tag, since the tags are all closed where a
slot begins (`readTags_fill`). The style sheet is the one long piece. It is read as text, and it has
no bracket either (`bracket_not_mem_style`).
-/

namespace Hygrometer.Page

/-! ### The template -/

/-- The template with its slots filled by texts as they are. -/
def fill (slots : PageTexts) : String :=
  beforeTitle ++ slots.title ++ beforeHeading ++ slots.title ++
    beforeCaption ++ slots.caption ++ beforeLabel ++ slots.buttonLabel ++ afterLabel

/-- The texts of a page as they stand in its slots. -/
def escapeTexts (t : PageTexts) : PageTexts where
  title := escape t.title
  caption := escape t.caption
  buttonLabel := escape t.buttonLabel

theorem render_eq_fill (t : PageTexts) : render t = fill (escapeTexts t) := rfl

/-- The piece of the template that holds the style. -/
theorem toList_beforeHeading :
    beforeHeading.toList =
      "</title>\n<style>\n".toList ++ style.toList ++
        "</style>\n</head>\n<body>\n<div class=\"panel\">\n<h1>".toList := by
  unfold beforeHeading
  simp only [String.toList_append]

/-- Every piece of the template that follows a slot starts with a bracket. -/
theorem exists_toList_eq_cons :
    ∀ piece ∈ [beforeHeading, beforeCaption, beforeLabel, afterLabel],
      ∃ rest, piece.toList = '<' :: rest := by
  have hlead : "</title>\n<style>\n".toList = '<' :: "</title>\n<style>\n".toList.drop 1 := by
    decide +kernel
  simp only [List.forall_mem_cons, List.not_mem_nil, false_imp_iff, implies_true, and_true]
  refine ⟨?_, ?_, ?_, ?_⟩
  · rw [toList_beforeHeading, hlead]
    exact ⟨_, rfl⟩
  · exact ⟨beforeCaption.toList.drop 1, by decide +kernel⟩
  · exact ⟨beforeLabel.toList.drop 1, by decide +kernel⟩
  · exact ⟨afterLabel.toList.drop 1, by decide +kernel⟩

/-- A text up to the first opening bracket is known from the text around it. -/
theorem append_inj_of_not_mem {cs cs' ds ds' : List Char} (hcs : '<' ∉ cs) (hcs' : '<' ∉ cs')
    (h : cs ++ '<' :: ds = cs' ++ '<' :: ds') : cs = cs' ∧ ds = ds' := by
  have hfront (as bs : List Char) (has : '<' ∉ as) :
      (as ++ '<' :: bs).takeWhile (· ≠ '<') = as := by
    refine Text.takeWhile_run (fun c hc ↦ decide_eq_true (ne_of_mem_of_not_mem hc has)) ?_
    simp
  have heq : cs = cs' := by rw [← hfront cs ds hcs, h, hfront cs' ds' hcs']
  subst heq
  exact ⟨rfl, (List.cons.inj (List.append_cancel_left h)).2⟩

/-- No text in a slot has an opening bracket. -/
def HasNoBracket (slots : PageTexts) : Prop :=
  ∀ slot ∈ [slots.title, slots.caption, slots.buttonLabel], '<' ∉ slot.toList

/-- **The slots of a page are known**, if they have no brackets. -/
theorem fill_inj {slots slots' : PageTexts} (hslots : HasNoBracket slots)
    (hslots' : HasNoBracket slots') (h : fill slots = fill slots') : slots = slots' := by
  obtain ⟨title, caption, label⟩ := slots
  obtain ⟨title', caption', label'⟩ := slots'
  simp only [HasNoBracket, List.forall_mem_cons, List.not_mem_nil, false_imp_iff, implies_true,
    and_true] at hslots hslots'
  obtain ⟨htitle, hcaption, hlabel⟩ := hslots
  obtain ⟨htitle', hcaption', hlabel'⟩ := hslots'
  obtain ⟨_, hheading⟩ := exists_toList_eq_cons beforeHeading (by simp)
  obtain ⟨_, hbeforeCaption⟩ := exists_toList_eq_cons beforeCaption (by simp)
  obtain ⟨_, hbeforeLabel⟩ := exists_toList_eq_cons beforeLabel (by simp)
  obtain ⟨_, hend⟩ := exists_toList_eq_cons afterLabel (by simp)
  have hpage := congrArg String.toList h
  simp only [fill, String.toList_append, List.append_assoc, hheading, hbeforeCaption, hbeforeLabel,
    hend, List.cons_append, List.append_cancel_left_eq] at hpage
  -- The template gives way piece by piece, and each slot with it.
  obtain ⟨heq, hpage⟩ := append_inj_of_not_mem htitle htitle' hpage
  obtain ⟨-, hpage⟩ := append_inj_of_not_mem htitle htitle' (List.append_cancel_left hpage)
  obtain ⟨heq', hpage⟩ := append_inj_of_not_mem hcaption hcaption' (List.append_cancel_left hpage)
  obtain ⟨heq'', -⟩ := append_inj_of_not_mem hlabel hlabel' (List.append_cancel_left hpage)
  rw [String.toList_inj] at heq heq' heq''
  rw [heq, heq', heq'']

/-! ### Tags -/

/-- The tags in a text, and the tag that is open at its end, where `tag?` is open at its start. A
tag is what stands between an opening bracket and the next closing one. -/
def readTags : Option (List Char) → List Char → List (List Char) × Option (List Char)
  | tag?, [] => ([], tag?)
  | none, c :: cs => if c = '<' then readTags (some []) cs else readTags none cs
  | some tag, c :: cs =>
    if c = '>' then
      let (tags, tag?) := readTags none cs
      (tag :: tags, tag?)
    else readTags (some (tag ++ [c])) cs

/-- The tags of a text side by side with another are those of the one and then those of the
other. -/
theorem readTags_append (tag? : Option (List Char)) (cs ds : List Char) :
    readTags tag? (cs ++ ds) =
      ((readTags tag? cs).1 ++ (readTags (readTags tag? cs).2 ds).1,
        (readTags (readTags tag? cs).2 ds).2) := by
  fun_induction readTags tag? cs with
  | case1 => simp
  | case2 cs ih => simpa [readTags] using ih
  | case3 c cs hc ih => simpa [readTags, hc] using ih
  | case4 tag cs tags tag? heq ih => simp_all [readTags]
  | case5 tag c cs hc ih => simpa [readTags, hc] using ih

/-- A text without an opening bracket has no tags. -/
theorem readTags_of_not_mem {cs : List Char} (h : '<' ∉ cs) : readTags none cs = ([], none) := by
  induction cs with
  | nil => rfl
  | cons c cs ih =>
    rw [List.mem_cons, not_or] at h
    rw [readTags, if_neg (Ne.symm h.1), ih h.2]

/-- The tags of the page, in order. -/
def pageTags : List String :=
  ["!doctype html", "html lang=\"en\"", "head", "meta charset=\"utf-8\"", "title", "/title",
    "style", "/style", "/head", "body", "div class=\"panel\"", "h1", "/h1", "p", "/p",
    "button type=\"button\"", "/button", "/div", "/body", "/html"]

theorem not_mem_toList_ofList {c : Char} {cs : List Char} (h : c ∉ cs) :
    c ∉ (String.ofList cs).toList := by
  rwa [String.toList_ofList]

/-- The style has no tag in it. -/
theorem bracket_not_mem_style : '<' ∉ style.toList := by
  -- Literal by literal, each as the list of characters that it is made of.
  unfold style
  simp only [String.toList_append, List.mem_append, not_or, and_assoc]
  refine ⟨?_, ?_, ?_, ?_, ?_, ?_, ?_, ?_, ?_, ?_⟩ <;>
    exact not_mem_toList_ofList (by decide)

/-- Whatever stands in the slots without an opening bracket, the tags are those of the page, and all
of them are closed. -/
theorem readTags_fill {slots : PageTexts} (hslots : HasNoBracket slots) :
    readTags none (fill slots).toList = (pageTags.map String.toList, none) := by
  simp only [HasNoBracket, List.forall_mem_cons, List.not_mem_nil, false_imp_iff, implies_true,
    and_true] at hslots
  obtain ⟨htitle, hcaption, hlabel⟩ := hslots
  have hbeforeTitle : readTags none beforeTitle.toList =
      (["!doctype html", "html lang=\"en\"", "head", "meta charset=\"utf-8\"",
        "title"].map String.toList, none) := by decide +kernel
  have hheading : readTags none beforeHeading.toList =
      (["/title", "style", "/style", "/head", "body", "div class=\"panel\"",
        "h1"].map String.toList, none) := by
    rw [toList_beforeHeading, readTags_append]
    have hopen : readTags none "</title>\n<style>\n".toList =
        (["/title", "style"].map String.toList, none) := by decide +kernel
    rw [readTags_append, hopen, readTags_of_not_mem bracket_not_mem_style]
    decide +kernel
  have hbeforeCaption : readTags none beforeCaption.toList =
      (["/h1", "p"].map String.toList, none) := by decide +kernel
  have hbeforeLabel : readTags none beforeLabel.toList =
      (["/p", "button type=\"button\""].map String.toList, none) := by decide +kernel
  have hend : readTags none afterLabel.toList =
      (["/button", "/div", "/body", "/html"].map String.toList, none) := by decide +kernel
  simp only [fill, String.toList_append, readTags_append, readTags_of_not_mem htitle,
    readTags_of_not_mem hcaption, readTags_of_not_mem hlabel, hbeforeTitle, hheading,
    hbeforeCaption, hbeforeLabel, hend, List.append_nil, ← List.map_append]
  rfl

/-! ### The page -/

theorem hasNoBracket_escapeTexts (t : PageTexts) : HasNoBracket (escapeTexts t) := by
  simp only [HasNoBracket, escapeTexts, List.forall_mem_cons, List.not_mem_nil, false_imp_iff,
    implies_true, and_true]
  have hbracket (s : String) : '<' ∉ (escape s).toList :=
    (isInert_escape s).forall_not_mem '<' List.mem_cons_self
  exact ⟨hbracket _, hbracket _, hbracket _⟩

/-- **Texts are shown exactly and change no markup.** Whatever the texts are,

* the page is the template with each slot filled by an inert text, and reading that text's entities
  gives back the text that was to be shown;
* no other texts have the same page;
* the tags of the page are the same ones, each of them closed. -/
theorem render_shows_exactly (t : PageTexts) :
    (∃ slots : PageTexts, render t = fill slots ∧
      ∀ slot shown, (slot, shown) ∈ [(slots.title, t.title), (slots.caption, t.caption),
          (slots.buttonLabel, t.buttonLabel)] →
        IsInert slot.toList ∧ unescape slot.toList = shown.toList) ∧
    (∀ t', render t = render t' → t = t') ∧
    readTags none (render t).toList = (pageTags.map String.toList, none) := by
  refine ⟨⟨escapeTexts t, render_eq_fill t, ?_⟩, ?_, ?_⟩
  · intro slot shown hmem
    obtain ⟨s, hs⟩ : ∃ s, (slot, shown) = (escape s, s) := by
      simp only [List.mem_cons, List.not_mem_nil, or_false] at hmem
      rcases hmem with h | h | h <;> exact ⟨_, h⟩
    rw [(Prod.mk.inj hs).1, (Prod.mk.inj hs).2]
    exact ⟨isInert_escape s, unescape_escape s⟩
  · intro t' h
    rw [render_eq_fill, render_eq_fill] at h
    have hslots := fill_inj (hasNoBracket_escapeTexts t) (hasNoBracket_escapeTexts t') h
    obtain ⟨htitle, hcaption, hlabel⟩ := PageTexts.mk.inj hslots
    cases t
    cases t'
    rw [PageTexts.mk.injEq]
    exact ⟨escape_inj htitle, escape_inj hcaption, escape_inj hlabel⟩
  · rw [render_eq_fill, readTags_fill (hasNoBracket_escapeTexts t)]

/-- A caption that ends the paragraph and starts a script, with an entity that is to be seen. -/
example : (readTags none (escape "</p><script>&lt;").toList, unescape (escape "&lt;").toList) =
    (([], none), ['&', 'l', 't', ';']) := by decide +kernel

end Hygrometer.Page
