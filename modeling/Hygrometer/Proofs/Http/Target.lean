import Hygrometer.Http
import Hygrometer.Proofs.Text.Basic

/-!
# The forms of a target

A target is put together from its parts in one of four forms (`Target`), and `targetPath` finds the
path that it was put together from (`targetPath_text`). So a query and a fragment do not count, and
the path comes out character by character: nothing in it is decoded, and a slash at its end stays.

**The parts must be such that the text shows where each ends** (`Target.IsWritable`). A path ends
where a query or a fragment starts, and an authority ends before a path as well. The conditions are
on single characters and are the only ones, so the parts may hold anything else, in any script.

The form of a target shows in its first character. With a slash there, the text is a path, and
nothing else is looked for in it. Otherwise what stands behind the first `://` is an authority
(`afterScheme?_append`), which is passed to come to the path (`afterAuthority_append`). A text
without slashes is an authority on its own, and has no path (`afterScheme?_eq_none`).
-/

namespace Hygrometer.Http

/-- A target in its parts. -/
inductive Target where
  /-- A path on the server that is asked. -/
  | origin (path : String) (query? fragment? : Option String)
  /-- A whole address. -/
  | absolute (scheme server path : String) (query? fragment? : Option String)
  /-- The server itself. -/
  | asterisk
  /-- A server and its port. -/
  | authority (name : String)

namespace Target

/-- A query and a fragment, each behind the character that announces it. -/
def tail (query? fragment? : Option String) : String :=
  query?.elim "" ("?" ++ ·) ++ fragment?.elim "" ("#" ++ ·)

/-- The target as it is sent. -/
def text : Target → String
  | origin path query? fragment? => path ++ tail query? fragment?
  | absolute scheme server path query? fragment? =>
    scheme ++ "://" ++ server ++ path ++ tail query? fragment?
  | asterisk => "*"
  | authority name => name

/-- The path of the target. An address without one means the server's root. -/
def path : Target → String
  | origin path _ _ => path
  | absolute _ _ path _ _ => if path = "" then "/" else path
  | asterisk => "*"
  | authority _ => ""

/-- A path ends where a query or a fragment starts. -/
def IsPath (path : String) : Prop := ∀ c ∈ path.toList, endsPath c = false

/-- An authority ends where a path, a query or a fragment starts. -/
def IsAuthority (name : String) : Prop := ∀ c ∈ name.toList, c ≠ '/' ∧ endsPath c = false

/-- The parts are such that the text shows where each of them ends. -/
def IsWritable : Target → Prop
  | origin path _ _ => path.toList.head? = some '/' ∧ IsPath path
  | absolute scheme server path _ _ =>
    (∀ c ∈ scheme.toList, c ≠ ':' ∧ c ≠ '/') ∧ IsAuthority server ∧
      (path = "" ∨ path.toList.head? = some '/') ∧ IsPath path
  | asterisk => True
  | authority name => IsAuthority name ∧ name ≠ "*"

/-- Behind a path there is nothing, or a character that ends it. -/
theorem endsPath_head_tail (query? fragment? : Option String) :
    ∀ c ∈ (tail query? fragment?).toList.head?, endsPath c = true := by
  rcases query? with - | query
  · rcases fragment? with - | fragment <;> simp [tail, endsPath]
  · simp [tail, endsPath]

theorem pathOf_append_tail {path : String} (hpath : IsPath path)
    (query? fragment? : Option String) :
    pathOf (path.toList ++ (tail query? fragment?).toList) = path := by
  have hends := endsPath_head_tail query? fragment?
  rw [pathOf, Text.takeWhile_run (by simpa [IsPath] using hpath) fun c hc ↦ by simp [hends c hc],
    String.ofList_toList]

theorem afterScheme?_append {scheme : List Char} (h : ∀ c ∈ scheme, c ≠ ':' ∧ c ≠ '/')
    (cs : List Char) : afterScheme? (scheme ++ ':' :: '/' :: '/' :: cs) = some cs := by
  induction scheme with
  | nil => rfl
  | cons c scheme ih =>
    obtain ⟨⟨hcolon, -⟩, hscheme⟩ := List.forall_mem_cons.1 h
    rw [List.cons_append, afterScheme?]
    · exact ih hscheme
    · intro _ heq
      exact absurd heq hcolon

theorem afterScheme?_eq_none {cs : List Char} (h : '/' ∉ cs) : afterScheme? cs = none := by
  fun_induction afterScheme? cs with
  | case1 => simp at h
  | case2 c cs _ ih => exact ih fun hmem ↦ h (List.mem_cons_of_mem _ hmem)
  | case3 => rfl

theorem afterAuthority_append {name : String} (hname : IsAuthority name) {cs : List Char}
    (hcs : ∀ c ∈ cs.head?, c = '/' ∨ endsPath c = true) :
    afterAuthority (name.toList ++ cs) = cs := by
  refine Text.dropWhile_run (by simpa [IsAuthority] using hname) fun c hc ↦ ?_
  rcases hcs c hc with hslash | hends
  · simp [hslash]
  · simp [hends]

/-- A target that is no path on the server and no asterisk is looked through for an authority. -/
theorem targetPath_of_ne {target : String} (hslash : target.toList.head? ≠ some '/')
    (hasterisk : target ≠ "*") :
    targetPath target =
      match afterScheme? target.toList with
      | none => ""
      | some cs =>
        let path := pathOf (afterAuthority cs)
        if path.isEmpty then "/" else path := by
  rw [targetPath]
  split
  · next heq => simp [heq] at hslash
  · next heq => exact absurd (String.toList_inj.1 heq) hasterisk
  · rfl

/-- **The path is found.** -/
theorem targetPath_text {target : Target} (h : target.IsWritable) :
    targetPath target.text = target.path := by
  cases target with
  | origin path query? fragment? =>
    obtain ⟨hslash, hpath⟩ := h
    have hfound := pathOf_append_tail hpath query? fragment?
    obtain ⟨cs, hcs⟩ := List.head?_eq_some_iff.1 hslash
    rw [text, targetPath, String.toList_append]
    rw [hcs] at hfound ⊢
    exact hfound
  | absolute scheme server path query? fragment? =>
    obtain ⟨hscheme, hserver, hslash, hpath⟩ := h
    have htext : (absolute scheme server path query? fragment?).text.toList =
        scheme.toList ++ ':' :: '/' :: '/' ::
          (server.toList ++ (path.toList ++ (tail query? fragment?).toList)) := by
      simp [text]
    have hfront : ∀ c ∈ (path.toList ++ (tail query? fragment?).toList).head?,
        c = '/' ∨ endsPath c = true := by
      intro c hc
      rcases hslash with rfl | hslash
      · exact .inr (endsPath_head_tail query? fragment? c hc)
      · rw [List.head?_append, hslash] at hc
        exact .inl (Option.some.inj hc).symm
    rw [targetPath_of_ne, htext, afterScheme?_append hscheme]
    · dsimp only
      rw [afterAuthority_append hserver hfront, pathOf_append_tail hpath, Target.path]
      simp only [String.isEmpty_iff]
    -- A scheme has no slash in it, so the target does not begin with one.
    · rw [htext]
      rcases hs : scheme.toList with - | ⟨c, cs⟩
      · simp
      · rw [hs] at hscheme
        simpa using (hscheme c List.mem_cons_self).2
    -- Nor is it the asterisk, which is shorter.
    · intro heq
      rw [← String.toList_inj, htext] at heq
      have hlength := congrArg List.length heq
      simp at hlength
      omega
  | asterisk => decide +kernel
  | authority name =>
    obtain ⟨hname, hasterisk⟩ := h
    have hslash : '/' ∉ name.toList := fun hmem ↦ (hname '/' hmem).1 rfl
    rw [text, targetPath_of_ne _ hasterisk, afterScheme?_eq_none hslash]
    · rfl
    · exact fun hhead ↦ hslash (List.mem_of_mem_head? hhead)

end Target
end Hygrometer.Http
