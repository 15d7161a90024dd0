import Mathlib.Algebra.GroupWithZero.Nat
import Mathlib.Data.List.Induction
import Hygrometer.Proofs.Metrics.Exposition

/-!
# Histograms count what was observed under their labels

The numbers of a histogram are one count for each of its nine bounds, one for no bound, and a sum.
Observing a duration changes each of them by itself. So after any observations each says what it is
about (`Histogram.Records`): a bucket, how many durations keep to its bound; the count, how many
there were; the sum, their microseconds. This holds modulo `2 ^ 64`, since the numbers wrap around,
and it is kept by one observation (`Histogram.Records.observe`) and so by all of them
(`Histogram.records_foldl`).

**Lines.** A histogram is shown by its buckets with growing bounds, the bucket without one, the sum
and the count. `recordLines` writes these lines from the durations alone, without a histogram, so
that what a text says can be compared with what was observed (`Histogram.Records.lines_eq`).

**Buckets are cumulative**: as long as nothing wraps around, a duration that keeps to a bound keeps
to the larger ones, so that the numbers grow from bucket to bucket up to the count
(`isCumulative_recordLines`). This is a statement about all lines of a block, and the only one that
needs that there were less than `2 ^ 64` observations.

**Families.** Observations with the same labels, in whatever order these are given, go to the same
histogram, and other observations do not touch it (`get?_observe_of_not_perm`). Families are tables
of histograms as counters are tables of numbers, and what is true of such tables whatever they hold
is taken from there (`ofObservations_eq`). So a histogram is there exactly for the label sets that
were observed, and records the durations that were observed under its own
(`ofObservations_records`).
-/

namespace Hygrometer.Metrics

/-- The whole microseconds of a duration, rounded down, modulo `2 ^ 64`. -/
def Duration.microseconds (d : Duration) : ℕ := d.nanoseconds / 1000 % UInt64.size

theorem Duration.toNat_micros (d : Duration) : d.micros.toNat = d.microseconds :=
  UInt64.toNat_ofNat'

/-! ### One histogram -/

/-- A histogram is that of some durations: it has their number, their sum, and for each bound the
number of those that do not exceed it, all modulo `2 ^ 64`. -/
structure Histogram.Records (h : Histogram) (durations : List Duration) : Prop where
  count : h.count.toNat = durations.length % UInt64.size
  sum : h.sum.toNat = (durations.map Duration.microseconds).sum % UInt64.size
  buckets : ∀ (i : ℕ) (hi : i < 9), h.buckets[i].toNat =
    (durations.countP fun d ↦ d.microseconds ≤ bounds[i].toNat) % UInt64.size

namespace Histogram

/-- A duration is counted in the buckets whose bounds it keeps to. -/
theorem getElem_buckets_observe (micros : UInt64) (h : Histogram) {i : ℕ} (hi : i < 9) :
    (h.observe micros).buckets[i] =
      if micros ≤ bounds[i] then h.buckets[i] + 1 else h.buckets[i] :=
  Vector.getElem_zipWith hi

/-- An empty histogram records no duration. -/
theorem records_empty : empty.Records [] where
  count := rfl
  sum := rfl
  buckets i hi := by
    rw [empty, Vector.getElem_replicate]
    rfl

/-- Observing a duration adds it to the durations of a histogram. -/
theorem Records.observe {h : Histogram} {durations : List Duration} (hrecords : h.Records durations)
    (d : Duration) : (h.observe d.micros).Records (durations ++ [d]) where
  count := by
    rw [Histogram.observe, UInt64.toNat_add, hrecords.count, List.length_append]
    exact Nat.mod_add_mod ..
  sum := by
    rw [Histogram.observe, UInt64.toNat_add, hrecords.sum, d.toNat_micros, List.map_append,
      List.sum_append, List.map_singleton, List.sum_singleton]
    exact Nat.mod_add_mod ..
  buckets i hi := by
    rw [getElem_buckets_observe _ _ hi, List.countP_append, List.countP_singleton]
    simp only [UInt64.le_iff_toNat_le, d.toNat_micros, decide_eq_true_eq]
    split
    · rw [UInt64.toNat_add, hrecords.buckets]
      exact Nat.mod_add_mod ..
    · exact hrecords.buckets i hi

/-- **A histogram of durations** is what observing them one after another makes of the empty
histogram. -/
theorem records_foldl (durations : List Duration) :
    (durations.foldl (fun h d ↦ h.observe d.micros) empty).Records durations := by
  induction durations using List.reverseRecOn with
  | nil => exact records_empty
  | append_singleton durations d ih =>
    rw [List.foldl_append]
    exact ih.observe d

theorem observe_comm (micros micros' : UInt64) (h : Histogram) :
    (h.observe micros').observe micros = (h.observe micros).observe micros' := by
  have hbuckets : ((h.observe micros').observe micros).buckets =
      ((h.observe micros).observe micros').buckets := by
    refine Vector.ext fun i hi ↦ ?_
    simp only [getElem_buckets_observe _ _ hi]
    split <;> split <;> rfl
  have hsum : h.sum + micros' + micros = h.sum + micros + micros' := by
    rw [UInt64.add_assoc, UInt64.add_comm micros', ← UInt64.add_assoc]
  rw [Histogram.mk.injEq]
  exact ⟨rfl, hsum, hbuckets⟩

end Histogram

/-! ### The lines of one histogram -/

/-- The lines of the histogram of some durations. -/
def recordLines (name : String) (labels : List Label) (durations : List Duration) : List Line :=
  let within (bound : UInt64) : UInt64 :=
    .ofNat (durations.countP fun d ↦ d.microseconds ≤ bound.toNat)
  bucketLines name labels (Histogram.bounds.toList.map within ++ [.ofNat durations.length])
    (.ofNat (durations.map Duration.microseconds).sum) (.ofNat durations.length)

/-- **A histogram is shown by what it records.** -/
theorem Histogram.Records.lines_eq {h : Histogram} {durations : List Duration}
    (hrecords : h.Records durations) (name : String) (labels : List Label) :
    h.lines name labels = recordLines name labels durations := by
  have hcount : h.count = .ofNat durations.length := by
    rw [← UInt64.toNat_inj, hrecords.count, UInt64.toNat_ofNat']
  have hsum : h.sum = .ofNat (durations.map Duration.microseconds).sum := by
    rw [← UInt64.toNat_inj, hrecords.sum, UInt64.toNat_ofNat']
  have hbuckets : h.buckets.toList = bounds.toList.map fun bound ↦
      .ofNat (durations.countP fun d ↦ d.microseconds ≤ bound.toNat) := by
    refine List.ext_getElem (by simp) fun i hi _ ↦ ?_
    rw [Vector.length_toList] at hi
    rw [Vector.getElem_toList, List.getElem_map, Vector.getElem_toList, ← UInt64.toNat_inj,
      hrecords.buckets i hi, UInt64.toNat_ofNat']
  rw [h.lines_eq, hcount, hsum, hbuckets]
  rfl

/-- A block of lines is cumulative: its buckets are in the order of their bounds, their values do
not decrease, and the last of them, for no bound, is the count. -/
def IsCumulative (name : String) (block : List Line) : Prop :=
  ∃ labels values sum count, values.length = 9 ∧ (values ++ [count]).Pairwise (· ≤ ·) ∧
    block = bucketLines name labels (values ++ [count]) sum count

theorem pairwise_bounds : Histogram.bounds.toList.Pairwise fun a b ↦ a.toNat ≤ b.toNat := by
  decide

/-- The buckets of a histogram are cumulative as long as nothing wraps around. -/
theorem isCumulative_recordLines {durations : List Duration}
    (hlength : durations.length < UInt64.size) (name : String) (labels : List Label) :
    IsCumulative name (recordLines name labels durations) := by
  have hle : ∀ {m n : ℕ}, m ≤ n → n ≤ durations.length → UInt64.ofNat m ≤ UInt64.ofNat n := by
    intro m n hmn hn
    rw [UInt64.le_iff_toNat_le, UInt64.toNat_ofNat_of_lt' ((hmn.trans hn).trans_lt hlength),
      UInt64.toNat_ofNat_of_lt' (hn.trans_lt hlength)]
    exact hmn
  refine ⟨labels, _, _, _, by simp, ?_, rfl⟩
  rw [List.pairwise_append, List.pairwise_map]
  refine ⟨pairwise_bounds.imp fun hbounds ↦ hle (List.countP_mono_left fun d _ hd ↦ ?_)
    List.countP_le_length, List.pairwise_singleton _ _, ?_⟩
  · rw [decide_eq_true_iff] at hd ⊢
    exact hd.trans hbounds
  · intro value hvalue count hcount
    obtain ⟨bound, -, rfl⟩ := List.mem_map.1 hvalue
    rw [List.mem_singleton.1 hcount]
    exact hle List.countP_le_length le_rfl

/-! ### Families of histograms -/

namespace Histograms

/-- What observing durations, each under labels in any order, makes of an empty family. -/
def ofObservations (observations : List (List Label × Duration)) : Histograms :=
  observations.foldl (fun h (labels, d) ↦ h.observe (.ofList labels) d) {}

/-- Families of histograms are tables that calls have filled. -/
theorem ofObservations_eq (observations : List (List Label × Duration)) :
    ofObservations observations =
      .ofCalls .empty (fun d h ↦ h.observe d.micros) observations := by
  rw [ofObservations, Family.ofCalls, Family.replay, keyed, List.foldl_map]
  rfl

/-- An observation leaves all other label sets as they are. -/
theorem get?_observe_of_not_perm (h : Histograms) {labels labels' : List Label}
    (hne : ¬ labels'.Perm labels) (d : Duration) :
    (h.observe (.ofList labels') d).get? (.ofList labels) = h.get? (.ofList labels) := by
  refine Family.get?_update_of_ne h (fun heq ↦ hne ?_) _ _
  exact (Labels.ofList_eq_iff.1 heq).symm

/-- A histogram that is found is that of the durations observed under its labels. -/
theorem records_of_get? {observations : List (List Label × Duration)} {labels : List Label}
    {h : Histogram} (hfound : (ofObservations observations).get? (.ofList labels) = some h) :
    h.Records (callsAt observations labels) := by
  rw [ofObservations_eq, Family.get?_ofCalls] at hfound
  split at hfound
  · cases hfound
  · rw [← Option.some.inj hfound]
    exact Histogram.records_foldl _

/-- There is a histogram exactly for the label sets that were observed. -/
theorem isSome_get?_iff (observations : List (List Label × Duration)) (labels : List Label) :
    ((ofObservations observations).get? (.ofList labels)).isSome ↔
      ∃ o ∈ observations, o.1.Perm labels := by
  rw [ofObservations_eq, Family.get?_ofCalls]
  split
  · next hnone =>
    rw [callsAt_eq_nil_iff] at hnone
    simpa using fun o ho ↦ hnone o ho
  · next hsome =>
    rw [callsAt_eq_nil_iff] at hsome
    simpa using hsome

/-- The order of observations under different labels does not matter. -/
theorem get?_ofObservations_congr {observations observations' : List (List Label × Duration)}
    (h : Reordered observations observations') (labels : Labels) :
    (ofObservations observations).get? labels = (ofObservations observations').get? labels := by
  rw [ofObservations_eq, ofObservations_eq]
  exact Family.get?_ofCalls_congr _ _ (fun d d' ↦ Histogram.observe_comm d.micros d'.micros)
    h.perm_keyed labels

theorem perm_series_ofObservations {observations observations' : List (List Label × Duration)}
    (h : Reordered observations observations') :
    (ofObservations observations).series.Perm (ofObservations observations').series := by
  rw [ofObservations_eq, ofObservations_eq]
  exact Family.perm_series_ofCalls_congr _ _
    (fun d d' ↦ Histogram.observe_comm d.micros d'.micros) h.perm_keyed

/-- With few enough observations every histogram of the family is shown cumulatively. -/
theorem isCumulative_of_mem_series {observations : List (List Label × Duration)}
    (hlength : observations.length < UInt64.size) {labels : Labels} {h : Histogram}
    (hmem : (labels, h) ∈ (ofObservations observations).series) (name : String) :
    IsCumulative name (h.lines name labels.toList) := by
  rw [ofObservations_eq] at hmem
  have hkey : labels ∈ labelSets observations :=
    (Family.perm_keys_ofCalls ..).mem_iff.1 (List.mem_map_of_mem hmem)
  obtain ⟨o, -, rfl⟩ := mem_labelSets.1 hkey
  rw [Family.mem_series_iff (Family.nodup_keys_ofCalls ..), ← ofObservations_eq] at hmem
  rw [(records_of_get? hmem).lines_eq]
  exact isCumulative_recordLines ((length_callsAt_le observations o.1).trans_lt hlength) name _

theorem exists_blocks {observations : List (List Label × Duration)}
    (hlength : observations.length < UInt64.size) (name : String) :
    ∃ blocks : List (List Line),
      (ofObservations observations).lines name = .family name .histogram :: blocks.flatten ∧
      ∀ block ∈ blocks, IsCumulative name block := by
  obtain ⟨sorted, hperm, hsorted⟩ := exists_sortSeries_map_eq
    (fun entry : Labels × Histogram ↦ entry.2.lines name entry.1.toList)
    (ofObservations observations).series
  rw [List.flatMap_def] at hsorted
  refine ⟨_, congrArg (List.cons _) hsorted, fun block hblock ↦ ?_⟩
  obtain ⟨⟨labels, h⟩, hmem, rfl⟩ := List.mem_map.1 hblock
  exact isCumulative_of_mem_series hlength (hperm.mem_iff.1 hmem) name

/-- **Histograms count what was observed.** After any observations of an empty family, each under
labels in any order,

* the labels have a histogram exactly if a duration was observed under a reordering of them, and it
  is that of the durations observed so;
* the order of the observations and of their labels does not matter, neither for the histograms nor
  for their sorted text, and an observation under other labels leaves a histogram as it is;
* with fewer than `2 ^ 64` observations, every block of the text is cumulative. -/
theorem ofObservations_records (observations : List (List Label × Duration)) :
    let histograms := ofObservations observations
    (∀ labels, (histograms.get? (.ofList labels)).isSome ↔ ∃ o ∈ observations, o.1.Perm labels) ∧
    (∀ labels h, histograms.get? (.ofList labels) = some h →
      h.Records (callsAt observations labels)) ∧
    (∀ observations', Reordered observations observations' →
      (∀ labels, (ofObservations observations').get? labels = histograms.get? labels) ∧
      ∀ name, linesText ((ofObservations observations').lines name) =
        linesText (histograms.lines name)) ∧
    (∀ labels labels' d, ¬ labels'.Perm labels →
      (ofObservations (observations ++ [(labels', d)])).get? (.ofList labels) =
        histograms.get? (.ofList labels)) ∧
    (observations.length < UInt64.size → ∀ name, ∃ blocks : List (List Line),
      histograms.lines name = .family name .histogram :: blocks.flatten ∧
      ∀ block ∈ blocks, IsCumulative name block) := by
  intro histograms
  refine ⟨isSome_get?_iff observations, fun labels h ↦ records_of_get?, fun observations' h ↦
    ⟨fun labels ↦ (get?_ofObservations_congr h labels).symm, fun name ↦ ?_⟩,
    fun labels labels' d hne ↦ ?_, exists_blocks⟩
  · exact (linesText_lines_congr (perm_series_ofObservations h) name).symm
  · rw [ofObservations, List.foldl_append]
    exact get?_observe_of_not_perm histograms hne d

/-- Durations at the border of the second bound, one that wraps around to 99 microseconds, and one
under other labels. -/
def borderObservations : List (List Label × Duration) :=
  [([("a", "y"), ("b", "x")], ⟨500_000⟩), ([("b", "x"), ("a", "y")], ⟨500_999⟩),
    ([("b", "x"), ("a", "y")], ⟨(2 ^ 64 + 99) * 1000⟩), ([], ⟨501_000⟩)]

/-- Durations that are equal to a bound, below the least and beyond the greatest. -/
theorem ofObservations_records_borders :
    let histograms := ofObservations borderObservations
    let labels := [("b", "x"), ("a", "y")]
    (∃ h, histograms.get? (.ofList labels) = some h ∧ h.count.toNat = 3 ∧ h.sum.toNat = 1099 ∧
      h.buckets[0].toNat = 1 ∧ h.buckets[1].toNat = 3) ∧
    Reordered borderObservations borderObservations.reverse ∧
    (ofObservations borderObservations.reverse).get? (.ofList labels) =
      histograms.get? (.ofList labels) ∧
    ¬ [("a", "y")].Perm labels ∧
    (ofObservations (borderObservations ++ [([("a", "y")], ⟨0⟩)])).get? (.ofList labels) =
      histograms.get? (.ofList labels) ∧
    borderObservations.length < UInt64.size ∧
    ∃ blocks : List (List Line), histograms.lines "n" = .family "n" .histogram :: blocks.flatten ∧
      ∀ block ∈ blocks, IsCumulative "n" block := by
  intro histograms labels
  obtain ⟨hexists, hrecords, hreordered, hframe, hcumulative⟩ :=
    ofObservations_records borderObservations
  have hreverse : Reordered borderObservations borderObservations.reverse :=
    ⟨borderObservations.reverse, (List.reverse_perm borderObservations).symm,
      List.forall₂_same.2 fun _ _ ↦ ⟨.refl _, rfl⟩⟩
  have hother : ¬ [("a", "y")].Perm labels := by decide +kernel
  have hlength : borderObservations.length < UInt64.size := by decide
  refine ⟨?_, hreverse, (hreordered _ hreverse).1 _, hother, hframe labels _ ⟨0⟩ hother, hlength,
    hcumulative hlength "n"⟩
  have hseen : ∃ o ∈ borderObservations, o.1.Perm labels :=
    ⟨([("b", "x"), ("a", "y")], ⟨500_999⟩), by decide +kernel, .refl _⟩
  obtain ⟨h, hfound⟩ := Option.isSome_iff_exists.1 ((hexists labels).2 hseen)
  have hrecord : h.Records (callsAt borderObservations labels) := hrecords labels h hfound
  refine ⟨h, hfound, ?_, ?_, ?_, ?_⟩
  · rw [hrecord.count]
    decide +kernel
  · rw [hrecord.sum]
    decide +kernel
  · rw [hrecord.buckets]
    decide +kernel
  · rw [hrecord.buckets]
    decide +kernel

end Histograms

end Hygrometer.Metrics
