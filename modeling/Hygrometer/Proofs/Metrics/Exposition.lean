import Hygrometer.Metrics.Registry
import Hygrometer.Proofs.Metrics.Family

/-!
# The text of a family

Label values are written character by character, which is what replacing the three special
characters one after another comes to (`flatMap_escapeChar_eq`). The bound of a bucket is written
behind the other labels (`intercalate_map_text_concat`).

The text of a family sorts its series by their own texts. So it depends on which series there are
and not on the order in which they came up (`linesText_sortSeries_congr`), even where two label sets
should have the same text.
-/

namespace Hygrometer.Metrics

/-! ### The text of labels -/

/-- Write a text in the place of a character, wherever it stands. -/
def replaceChar (c : Char) (text : List Char) (s : List Char) : List Char :=
  s.flatMap fun d ↦ if d = c then text else [d]

/-- A label value is written by three replacements. The one of backslashes comes first, as the other
two write some. -/
theorem flatMap_escapeChar_eq (s : List Char) :
    s.flatMap escapeChar =
      replaceChar '\n' ['\\', 'n']
        (replaceChar '"' ['\\', '"'] (replaceChar '\\' ['\\', '\\'] s)) := by
  rw [replaceChar, replaceChar, replaceChar, List.flatMap_assoc, List.flatMap_assoc]
  refine congrArg s.flatMap (funext fun c ↦ ?_)
  by_cases hslash : c = '\\'
  · subst hslash
    rfl
  by_cases hquote : c = '"'
  · subst hquote
    rfl
  simp [escapeChar, hslash, hquote]

theorem intercalate_map_text_ne_empty (l : Label) (labels : List Label) :
    ",".intercalate ((l :: labels).map Label.text) ≠ "" := by
  have hl : l.text ≠ "" := by simp [Label.text]
  rcases labels with - | ⟨l', labels⟩
  · simpa using hl
  · simp [String.intercalate_cons_cons, hl]

/-- A last label stands behind the others and a comma, and alone if there are no others. -/
theorem intercalate_map_text_concat (labels : List Label) (l : Label) :
    ",".intercalate ((labels ++ [l]).map Label.text) =
      let front := ",".intercalate (labels.map Label.text)
      (if front = "" then "" else front ++ ",") ++ l.text := by
  dsimp only
  induction labels with
  | nil => simp
  | cons first labels ih =>
    rw [if_neg (intercalate_map_text_ne_empty first labels)]
    rcases labels with - | ⟨second, labels⟩
    · simp [String.intercalate_cons_cons]
    · rw [if_neg (intercalate_map_text_ne_empty second labels)] at ih
      simp only [List.cons_append, List.map_cons, String.intercalate_cons_cons] at ih ⊢
      rw [ih]
      simp only [String.append_assoc]

/-! ### The text of series -/

@[simp] theorem toList_linesText (lines : List Line) :
    (linesText lines).toList = lines.flatMap fun line ↦ line.text.toList := by
  rw [linesText, String.toList_join, List.flatMap_map]

theorem linesText_append (lines lines' : List Line) :
    linesText (lines ++ lines') = linesText lines ++ linesText lines' := by
  rw [← String.toList_inj]
  simp

theorem linesText_flatten (blocks : List (List Line)) :
    linesText blocks.flatten = String.join (blocks.map linesText) := by
  induction blocks with
  | nil => rfl
  | cons block blocks ih =>
    rw [List.flatten_cons, linesText_append, ih, List.map_cons, String.join_cons]

/-- Sorting blocks that are made of entries sorts the entries. -/
theorem exists_sortSeries_map_eq {α : Type} (block : α → List Line) (series : List α) :
    ∃ sorted : List α, sorted.Perm series ∧
      sortSeries (series.map block) = sorted.flatMap block := by
  refine ⟨series.mergeSort fun a b ↦ linesText (block a) ≤ linesText (block b),
    List.mergeSort_perm series _, ?_⟩
  rw [sortSeries, ← List.map_mergeSort (f := block) fun _ _ _ _ ↦ rfl, List.flatMap_def]

/-- **The sorted text of series** does not depend on their order. -/
theorem linesText_sortSeries_congr {blocks blocks' : List (List Line)} (h : blocks.Perm blocks') :
    linesText (sortSeries blocks) = linesText (sortSeries blocks') := by
  have hsorted : ∀ blocks : List (List Line),
      linesText (sortSeries blocks) =
        String.join ((blocks.map linesText).mergeSort fun s t ↦ decide (id s ≤ id t)) := by
    intro blocks
    rw [sortSeries, linesText_flatten, List.map_mergeSort]
    exact fun _ _ _ _ ↦ rfl
  rw [hsorted, hsorted, (mergeSort_eq_iff_perm Function.injective_id).2 (h.map linesText)]

theorem Counters.linesText_lines_congr {c c' : Counters} (h : c.series.Perm c'.series)
    (name : String) : linesText (c.lines name) = linesText (c'.lines name) := by
  rw [lines, lines, ← List.singleton_append, linesText_append,
    linesText_sortSeries_congr (h.map _), ← linesText_append]
  rfl

theorem Histograms.linesText_lines_congr {h h' : Histograms} (hseries : h.series.Perm h'.series)
    (name : String) : linesText (h.lines name) = linesText (h'.lines name) := by
  rw [lines, lines, ← List.singleton_append, linesText_append,
    linesText_sortSeries_congr (hseries.map _), ← linesText_append]
  rfl

/-! ### The lines of one histogram -/

/-- The bounds of the buckets as they are written, the last of which everything keeps to. -/
def boundTexts : List String :=
  ["100", "500", "1000", "5000", "10000", "50000", "100000", "500000", "1000000", "+Inf"]

/-- The lines of a histogram that has values in its buckets, the last of them among the bounds, a
sum and a count. -/
def bucketLines (name : String) (labels : List Label) (values : List UInt64)
    (sum count : UInt64) : List Line :=
  boundTexts.zipWith
      (fun bound value ↦ .sample (name ++ "_bucket") (labels ++ [("le", bound)]) value) values ++
    [.sample (name ++ "_sum") labels sum, .sample (name ++ "_count") labels count]

/-- A histogram shows its count twice: as the bucket of everything, and by its name. -/
theorem Histogram.lines_eq (name : String) (labels : List Label) (h : Histogram) :
    h.lines name labels =
      bucketLines name labels (h.buckets.toList ++ [h.count]) h.sum h.count := by
  have hbounds : boundTexts = bounds.toList.map (fun b ↦ Text.numeral b.toNat) ++ ["+Inf"] := by
    decide +kernel
  have hlength : (bounds.toList.map fun b ↦ Text.numeral b.toNat).length =
      h.buckets.toList.length := by simp
  rw [lines, bucketLines, hbounds, List.zipWith_append hlength, List.zipWith_map_left,
    Vector.toList_zipWith, List.append_assoc]
  rfl

/-- The lines of a histogram tell its labels: the bound of a bucket is the last of its labels, and
nothing else is added to them. -/
theorem mem_bucketLines {name : String} {labels : List Label} {values : List UInt64}
    {sum count : UInt64} {line : Line} (h : line ∈ bucketLines name labels values sum count) :
    (∃ bound value, line = .sample (name ++ "_bucket") (labels ++ [("le", bound)]) value) ∨
      ∃ suffix ∈ ["_sum", "_count"], ∃ value, line = .sample (name ++ suffix) labels value := by
  rw [bucketLines, List.mem_append, ← List.map_uncurry_zip_eq_zipWith] at h
  rcases h with hbucket | hrest
  · obtain ⟨⟨bound, value⟩, -, rfl⟩ := List.mem_map.1 hbucket
    exact .inl ⟨bound, value, rfl⟩
  · rw [List.mem_pair] at hrest
    rcases hrest with rfl | rfl
    · exact .inr ⟨"_sum", by simp, sum, rfl⟩
    · exact .inr ⟨"_count", by simp, count, rfl⟩

end Hygrometer.Metrics
