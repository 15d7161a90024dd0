import Hygrometer.Metrics.Registry
import Hygrometer.Proofs.Metrics.Counters
import Hygrometer.Proofs.Metrics.Histograms
import Hygrometer.Proofs.Metrics.Reader

/-!
# The metrics are read back from their text

Three families are shown one after another: the requests and the errors of the source, which are
counters, and the durations, which are histograms. Whatever the calls on them were, and whatever
their label values are, **reading such a text gives the three families in their order and behind
each what its calls come to** (`text_reads_back`): a sample for each label set that something was
added under, and a block for each label set that was observed. So a label value can neither end its
line nor pass for another label, and no line is lost or belongs to two label sets.

**Order.** The series of a family are kept in a table without an order, and a text may show them in
any. `IsShownBy` says which texts show a family: the line of its kind, and then the lines of its
series, permuted. The order of the lines of one series is fixed, since a histogram is a block whose
buckets grow. What is read is therefore compared up to a permutation of samples and of blocks.

**What the calls come to** is said without the tables. The samples are those of the label sets that
occur in the calls, with the sum of what was added under each; a block is that of the durations that
were observed under its label set (`samplesOf`, `blocksOf`). That the tables hold just this is what
`Counters` and `Histograms` prove, so that here only the families are put together.

**Names.** The names of labels are assumed to be names, as the format asks for. Nothing is assumed
of values. A histogram's own label `le` does no harm, as the bound of a bucket is the last of its
labels: the label set of a line is found by taking the last label off (`Line.owner`), and a block is
found again from its lines (`perm_of_text_recordLines_eq`).
-/

namespace Hygrometer.Metrics

/-! ### Texts in any order -/

/-- Lines that show a family of counters: its kind and its series in any order. -/
def Counters.IsShownBy (c : Counters) (name : String) (lines : List Line) : Prop :=
  ∃ series : List (Labels × UInt64), series.Perm c.series ∧
    lines = .family name .counter ::
      series.map fun (labels, value) ↦ .sample name labels.toList value

/-- Lines that show a family of histograms: its kind and its series in any order. -/
def Histograms.IsShownBy (h : Histograms) (name : String) (lines : List Line) : Prop :=
  ∃ series : List (Labels × Histogram), series.Perm h.series ∧
    lines = .family name .histogram ::
      series.flatMap fun (labels, histogram) ↦ histogram.lines name labels.toList

/-- The lines of a family of counters show it. -/
theorem Counters.isShownBy_lines (c : Counters) (name : String) :
    c.IsShownBy name (c.lines name) := by
  obtain ⟨sorted, hperm, hsorted⟩ := exists_sortSeries_map_eq
    (fun entry : Labels × UInt64 ↦ [Line.sample name entry.1.toList entry.2]) c.series
  exact ⟨sorted, hperm, congrArg _ (hsorted.trans (List.map_eq_flatMap ..).symm)⟩

/-- The lines of a family of histograms show it. -/
theorem Histograms.isShownBy_lines (h : Histograms) (name : String) :
    h.IsShownBy name (h.lines name) := by
  obtain ⟨sorted, hperm, hsorted⟩ := exists_sortSeries_map_eq
    (fun entry : Labels × Histogram ↦ entry.2.lines name entry.1.toList) h.series
  exact ⟨sorted, hperm, congrArg _ hsorted⟩

/-- A text that shows the metrics, each family in any order of its series. -/
def IsShownBy (m : Metrics) (text : String) : Prop :=
  ∃ requests durations sourceErrors,
    m.requests.IsShownBy "humisense_http_requests_total" requests ∧
    m.durations.IsShownBy "humisense_http_duration_micros" durations ∧
    m.sourceErrors.IsShownBy "humisense_source_errors_total" sourceErrors ∧
    text = linesText (requests ++ durations ++ sourceErrors)

/-- The text of the metrics is one that shows them. -/
theorem isShownBy_text (m : Metrics) : m.IsShownBy m.text :=
  ⟨_, _, _, m.requests.isShownBy_lines _, m.durations.isShownBy_lines _,
    m.sourceErrors.isShownBy_lines _, rfl⟩

/-! ### What a family's lines come to -/

/-- The label sets of calls are in order, so that putting them in order again changes nothing. -/
theorem ofList_toList_of_mem {α : Type} {calls : List (List Label × α)} {labels : Labels}
    (h : labels ∈ labelSets calls) : .ofList labels.toList = labels := by
  obtain ⟨call, -, rfl⟩ := mem_labelSets.1 h
  exact Labels.ofList_toList_ofList call.1

/-- The samples that calls come to: for each label set that something was added under its sorted
labels and the sum. -/
def Counters.samplesOf (name : String) (calls : List (List Label × CounterCall)) : List Line :=
  (labelSets (additions calls)).map fun labels ↦
    .sample name labels.toList (.ofNat (total calls labels.toList))

/-- The blocks that observations come to: for each label set that was observed the lines of the
durations observed under it. -/
def Histograms.blocksOf (name : String) (observations : List (List Label × Duration)) :
    List (List Line) :=
  (labelSets observations).map fun labels ↦
    recordLines name labels.toList (callsAt observations labels.toList)

/-- **Whatever shows counters after calls** has the samples of the calls behind the line of its
kind. -/
theorem Counters.exists_samples_of_isShownBy {calls : List (List Label × CounterCall)}
    {name : String} {lines : List Line} (h : (run {} calls).2.IsShownBy name lines) :
    ∃ samples, lines = .family name .counter :: samples ∧ samples.Perm (samplesOf name calls) := by
  obtain ⟨series, hperm, rfl⟩ := h
  refine ⟨_, rfl, (hperm.map _).trans ?_⟩
  rw [run_empty_snd]
  refine ((Family.perm_series_ofCalls ..).map _).trans (.of_eq ?_)
  rw [List.map_map, samplesOf]
  refine List.map_congr_left fun labels hlabels ↦ ?_
  have hvalue := get_run calls labels.toList
  rw [ofList_toList_of_mem hlabels, run_empty_snd, get] at hvalue
  simp only [Function.comp_apply, hvalue]

/-- **Whatever shows histograms of observations** has their blocks behind the line of its kind. -/
theorem Histograms.exists_blocks_of_isShownBy {observations : List (List Label × Duration)}
    {name : String} {lines : List Line} (h : (ofObservations observations).IsShownBy name lines) :
    ∃ blocks : List (List Line), lines = .family name .histogram :: blocks.flatten ∧
      blocks.Perm (blocksOf name observations) := by
  obtain ⟨series, hperm, rfl⟩ := h
  refine ⟨_, by rw [List.flatMap_def], (hperm.map _).trans ?_⟩
  rw [ofObservations_eq]
  refine ((Family.perm_series_ofCalls ..).map _).trans (.of_eq ?_)
  rw [List.map_map, blocksOf]
  refine List.map_congr_left fun labels hlabels ↦ ?_
  have hseen : ((ofObservations observations).get? labels).isSome := by
    obtain ⟨o, ho, rfl⟩ := mem_labelSets.1 hlabels
    exact (isSome_get?_iff observations o.1).2 ⟨o, ho, .refl _⟩
  obtain ⟨histogram, hfound⟩ := Option.isSome_iff_exists.1 hseen
  have hrecords : histogram.Records (callsAt observations labels.toList) := by
    rw [← ofList_toList_of_mem hlabels] at hfound
    exact records_of_get? hfound
  rw [← ofObservations_eq, Function.comp_apply, hfound]
  exact hrecords.lines_eq name labels.toList

/-! ### Names -/

/-- A name with a suffix is a name. -/
theorem isName_append {name suffix : String} (h : isName name = true)
    (hsuffix : suffix.toList.all isNameChar = true) : isName (name ++ suffix) = true := by
  obtain ⟨c, cs, hname, hc, hcs⟩ := exists_cons_of_isName h
  have happend : (name ++ suffix).toList = c :: (cs ++ suffix.toList) := by
    rw [String.toList_append, hname, List.cons_append]
  rw [isName, happend]
  simp only [Bool.and_eq_true, List.all_append]
  exact ⟨hc, List.all_eq_true.2 hcs, hsuffix⟩

/-- The lines of counters have names, if the labels of the calls have. -/
theorem isNamed_of_mem_samplesOf {name : String} (hname : isName name = true)
    {calls : List (List Label × CounterCall)}
    (h : ∀ call ∈ calls, ∀ l ∈ call.1, isName l.1 = true) {line : Line}
    (hline : line ∈ Counters.samplesOf name calls) : line.IsNamed := by
  obtain ⟨labels, hlabels, rfl⟩ := List.mem_map.1 hline
  obtain ⟨addition, haddition, rfl⟩ := mem_labelSets.1 hlabels
  obtain ⟨call, hcall, hadds⟩ := List.mem_filterMap.1 haddition
  obtain ⟨amount, -, rfl⟩ := Option.map_eq_some_iff.1 hadds
  exact ⟨hname, Labels.forall_mem_toList_ofList.2 (h call hcall)⟩

/-- So have the lines of one block, whose own names are suffixes and the bound of a bucket. -/
theorem isNamed_of_mem_recordLines {name : String} (hname : isName name = true)
    {labels : List Label} (h : ∀ l ∈ labels, isName l.1 = true) {durations : List Duration}
    {line : Line} (hline : line ∈ recordLines name labels durations) : line.IsNamed := by
  rcases mem_bucketLines hline with ⟨bound, value, rfl⟩ | ⟨suffix, hsuffix, value, rfl⟩
  · refine ⟨isName_append hname (by decide), fun l hl ↦ ?_⟩
    rcases List.mem_append.1 hl with hl | hl
    · exact h l hl
    · rw [List.mem_singleton.1 hl]
      show isName "le" = true
      decide
  · refine ⟨isName_append hname ?_, h⟩
    rw [List.mem_pair] at hsuffix
    rcases hsuffix with rfl | rfl <;> decide

/-- So have those of all blocks. -/
theorem isNamed_of_mem_blocksOf {name : String} (hname : isName name = true)
    {observations : List (List Label × Duration)}
    (h : ∀ o ∈ observations, ∀ l ∈ o.1, isName l.1 = true) {line : Line}
    (hline : line ∈ (Histograms.blocksOf name observations).flatten) : line.IsNamed := by
  obtain ⟨block, hblock, hline⟩ := List.mem_flatten.1 hline
  obtain ⟨labels, hlabels, rfl⟩ := List.mem_map.1 hblock
  obtain ⟨o, ho, rfl⟩ := mem_labelSets.1 hlabels
  exact isNamed_of_mem_recordLines hname (Labels.forall_mem_toList_ofList.2 (h o ho)) hline

/-! ### Lines of different label sets -/

/-- Samples with the same text are of the same labels. -/
theorem perm_of_text_sample_eq {name name' : String} (hname : isName name = true)
    (hname' : isName name' = true) {labels labels' : List Label}
    (h : ∀ l ∈ labels, isName l.1 = true) (h' : ∀ l ∈ labels', isName l.1 = true)
    {value value' : UInt64}
    (htext : (Line.sample name (Labels.ofList labels).toList value).text =
      (Line.sample name' (Labels.ofList labels').toList value').text) :
    labels.Perm labels' := by
  have hnamed : (Line.sample name (Labels.ofList labels).toList value).IsNamed :=
    ⟨hname, Labels.forall_mem_toList_ofList.2 h⟩
  have hnamed' : (Line.sample name' (Labels.ofList labels').toList value').IsNamed :=
    ⟨hname', Labels.forall_mem_toList_ofList.2 h'⟩
  have hline := (Line.text_inj hnamed hnamed').1 htext
  exact Labels.ofList_eq_iff.1 (congrArg Labels.mk (Line.sample.inj hline).2.1)

/-- The label set that a line of a histogram belongs to. -/
def Line.owner (name : String) : Line → List Label
  | sample sampleName labels _ =>
    if sampleName = name ++ "_bucket" then labels.dropLast else labels
  | family _ _ => []

/-- The lines of a block belong to its label set: a bucket has one label more, which is taken off.
-/
theorem owner_of_mem_recordLines {name : String} {labels : List Label} {durations : List Duration}
    {line : Line} (h : line ∈ recordLines name labels durations) : line.owner name = labels := by
  rcases mem_bucketLines h with ⟨bound, value, rfl⟩ | ⟨suffix, hsuffix, value, rfl⟩
  · rw [Line.owner, if_pos rfl, List.dropLast_concat]
  · have hne : suffix ≠ "_bucket" := by
      rw [List.mem_pair] at hsuffix
      rcases hsuffix with rfl | rfl <;> decide
    rw [Line.owner, if_neg fun heq ↦ hne ((String.append_right_inj name).1 heq)]

/-- Lines of histograms with the same text are of the same labels. -/
theorem perm_of_text_recordLines_eq {name : String} (hname : isName name = true)
    {labels labels' : List Label} (h : ∀ l ∈ labels, isName l.1 = true)
    (h' : ∀ l ∈ labels', isName l.1 = true) {durations durations' : List Duration}
    {line line' : Line}
    (hline : line ∈ recordLines name (Labels.ofList labels).toList durations)
    (hline' : line' ∈ recordLines name (Labels.ofList labels').toList durations')
    (htext : line.text = line'.text) : labels.Perm labels' := by
  have hnamed : line.IsNamed :=
    isNamed_of_mem_recordLines hname (Labels.forall_mem_toList_ofList.2 h) hline
  have hnamed' : line'.IsNamed :=
    isNamed_of_mem_recordLines hname (Labels.forall_mem_toList_ofList.2 h') hline'
  have hsame : line = line' := (Line.text_inj hnamed hnamed').1 htext
  have howner : (Labels.ofList labels).toList = (Labels.ofList labels').toList := by
    rw [← owner_of_mem_recordLines hline, hsame, owner_of_mem_recordLines hline']
  exact Labels.ofList_eq_iff.1 (congrArg Labels.mk howner)

/-! ### Metrics after calls -/

/-- A call on the metrics, under labels in any order. -/
inductive Call where
  /-- A call on the counter of requests. -/
  | requests (labels : List Label) (call : CounterCall)
  /-- An observation of how long a request took. -/
  | durations (labels : List Label) (elapsed : Duration)
  /-- A call on the counter of the source's failures. -/
  | sourceErrors (labels : List Label) (call : CounterCall)

namespace Call

/-- The labels of a call. -/
def labels : Call → List Label
  | requests labels _ => labels
  | durations labels _ => labels
  | sourceErrors labels _ => labels

/-- The call on the counter of requests, if it is one. -/
def toRequests? : Call → Option (List Label × CounterCall)
  | requests labels call => some (labels, call)
  | _ => none

/-- The observation, if it is one. -/
def toDurations? : Call → Option (List Label × Duration)
  | durations labels elapsed => some (labels, elapsed)
  | _ => none

/-- The call on the counter of the source's failures, if it is one. -/
def toSourceErrors? : Call → Option (List Label × CounterCall)
  | sourceErrors labels call => some (labels, call)
  | _ => none

/-- A call is passed on with its labels, here to the requests. -/
theorem fst_of_toRequests? {call : Call} {picked : List Label × CounterCall}
    (h : call.toRequests? = some picked) : picked.1 = call.labels := by
  cases call <;> cases h
  rfl

/-- Likewise to the durations. -/
theorem fst_of_toDurations? {call : Call} {picked : List Label × Duration}
    (h : call.toDurations? = some picked) : picked.1 = call.labels := by
  cases call <;> cases h
  rfl

/-- Likewise to the errors of the source. -/
theorem fst_of_toSourceErrors? {call : Call} {picked : List Label × CounterCall}
    (h : call.toSourceErrors? = some picked) : picked.1 = call.labels := by
  cases call <;> cases h
  rfl

end Call

/-- The metrics after a call. -/
def after (m : Metrics) : Call → Metrics
  | .requests labels call => { m with requests := (m.requests.call labels call).2 }
  | .durations labels elapsed =>
    { m with durations := m.durations.observe (.ofList labels) elapsed }
  | .sourceErrors labels call => { m with sourceErrors := (m.sourceErrors.call labels call).2 }

/-- The metrics that calls make of none. -/
def ofCalls (calls : List Call) : Metrics := calls.foldl after {}

/-- The requests are what the calls on them have made them. -/
theorem requests_foldl_after (m : Metrics) (calls : List Call) :
    (calls.foldl after m).requests = (m.requests.run (calls.filterMap Call.toRequests?)).2 := by
  induction calls generalizing m with
  | nil => rfl
  | cons call calls ih => cases call <;> exact ih _

/-- The durations are what the observations have made them. -/
theorem durations_foldl_after (m : Metrics) (calls : List Call) :
    (calls.foldl after m).durations =
      (calls.filterMap Call.toDurations?).foldl
        (fun h (labels, d) ↦ h.observe (.ofList labels) d) m.durations := by
  induction calls generalizing m with
  | nil => rfl
  | cons call calls ih => cases call <;> exact ih _

/-- The errors of the source are what the calls on them have made them. -/
theorem sourceErrors_foldl_after (m : Metrics) (calls : List Call) :
    (calls.foldl after m).sourceErrors =
      (m.sourceErrors.run (calls.filterMap Call.toSourceErrors?)).2 := by
  induction calls generalizing m with
  | nil => rfl
  | cons call calls ih => cases call <;> exact ih _

/-- What is picked out of calls has their labels. -/
theorem forall_mem_filterMap {α : Type} {pick : Call → Option (List Label × α)}
    (hpick : ∀ {call picked}, pick call = some picked → picked.1 = call.labels) {calls : List Call}
    {p : Label → Prop} (h : ∀ call ∈ calls, ∀ l ∈ call.labels, p l) :
    ∀ picked ∈ calls.filterMap pick, ∀ l ∈ picked.1, p l := by
  intro picked hpicked l hl
  obtain ⟨call, hcall, hsome⟩ := List.mem_filterMap.1 hpicked
  rw [hpick hsome] at hl
  exact h call hcall l hl

/-- The requests have a name of the format. -/
theorem isName_requests : isName "humisense_http_requests_total" = true := by decide

/-- So have the durations. -/
theorem isName_durations : isName "humisense_http_duration_micros" = true := by decide

/-- So have the errors of the source. -/
theorem isName_sourceErrors : isName "humisense_source_errors_total" = true := by decide

/-- **The metrics are read back.** After any calls whose labels have names for names, and whatever
their values are,

* the text of the metrics shows them, and a text that shows them, in any order of its series, reads
  as the three kinds in their order with nothing else than what the calls come to behind each;
* the sums in the samples are the current values of their labels, and a label set shows the labels
  it was called with, sorted;
* different label sets have no line in common, neither as counters nor as histograms. -/
theorem text_reads_back (calls : List Call)
    (h : ∀ call ∈ calls, ∀ l ∈ call.labels, isName l.1 = true) :
    (ofCalls calls).IsShownBy (ofCalls calls).text ∧
    (∀ text, (ofCalls calls).IsShownBy text → ∃ requests durations sourceErrors,
      readText? text = some (
        .family "humisense_http_requests_total" .counter :: requests ++
        .family "humisense_http_duration_micros" .histogram :: List.flatten durations ++
        .family "humisense_source_errors_total" .counter :: sourceErrors) ∧
      requests.Perm (Counters.samplesOf "humisense_http_requests_total"
        (calls.filterMap Call.toRequests?)) ∧
      durations.Perm (Histograms.blocksOf "humisense_http_duration_micros"
        (calls.filterMap Call.toDurations?)) ∧
      sourceErrors.Perm (Counters.samplesOf "humisense_source_errors_total"
        (calls.filterMap Call.toSourceErrors?))) ∧
    (∀ labels,
      (ofCalls calls).requests.get (.ofList labels) =
        .ofNat (Counters.total (calls.filterMap Call.toRequests?) labels) ∧
      (ofCalls calls).sourceErrors.get (.ofList labels) =
        .ofNat (Counters.total (calls.filterMap Call.toSourceErrors?) labels) ∧
      (Labels.ofList labels).toList.Perm labels ∧
      (Labels.ofList labels).toList.Pairwise fun a b ↦ a.le b = true) ∧
    (∀ labels labels', (∀ l ∈ labels, isName l.1 = true) → (∀ l ∈ labels', isName l.1 = true) →
      ¬ labels.Perm labels' → ∀ name, isName name = true →
      (∀ value value', (Line.sample name (Labels.ofList labels).toList value).text ≠
        (Line.sample name (Labels.ofList labels').toList value').text) ∧
      ∀ durations durations', ∀ line ∈ recordLines name (Labels.ofList labels).toList durations,
        ∀ line' ∈ recordLines name (Labels.ofList labels').toList durations',
          line.text ≠ line'.text) := by
  refine ⟨isShownBy_text _, fun text htext ↦ ?_, fun labels ↦ ⟨?_, ?_,
    Labels.perm_toList_ofList labels, Labels.pairwise_toList_ofList labels⟩,
    fun labels labels' hnames hnames' hne name hname ↦ ⟨?_, ?_⟩⟩
  · obtain ⟨_, _, _, hrequests, hdurations, hsourceErrors, rfl⟩ := htext
    rw [ofCalls, requests_foldl_after] at hrequests
    rw [ofCalls, durations_foldl_after] at hdurations
    rw [ofCalls, sourceErrors_foldl_after] at hsourceErrors
    -- Each family is shown in some order, and its lines are those of its samples in that order.
    obtain ⟨requests, rfl, hsamples⟩ := Counters.exists_samples_of_isShownBy hrequests
    obtain ⟨durations, rfl, hblocks⟩ := Histograms.exists_blocks_of_isShownBy hdurations
    obtain ⟨sourceErrors, rfl, herrors⟩ := Counters.exists_samples_of_isShownBy hsourceErrors
    refine ⟨requests, durations, sourceErrors, readText?_linesText fun line hline ↦ ?_, hsamples,
      hblocks, herrors⟩
    -- A line is the head of a family or one of its samples, and has names for names.
    simp only [List.mem_append, List.mem_cons] at hline
    rcases hline with ((rfl | hline) | rfl | hline) | rfl | hline
    · exact isName_requests
    · exact isNamed_of_mem_samplesOf isName_requests
        (forall_mem_filterMap Call.fst_of_toRequests? h) (hsamples.mem_iff.1 hline)
    · exact isName_durations
    · exact isNamed_of_mem_blocksOf isName_durations
        (forall_mem_filterMap Call.fst_of_toDurations? h) (hblocks.flatten.mem_iff.1 hline)
    · exact isName_sourceErrors
    · exact isNamed_of_mem_samplesOf isName_sourceErrors
        (forall_mem_filterMap Call.fst_of_toSourceErrors? h) (herrors.mem_iff.1 hline)
  · rw [ofCalls, requests_foldl_after]
    exact Counters.get_run _ labels
  · rw [ofCalls, sourceErrors_foldl_after]
    exact Counters.get_run _ labels
  · intro value value' htext
    exact hne (perm_of_text_sample_eq hname hname hnames hnames' htext)
  · intro durations durations' line hline line' hline' htext
    exact hne (perm_of_text_recordLines_eq hname hnames hnames' hline hline' htext)

/-- Calls whose values look like the end of a label, of a line and of a family, one that adds
nothing, and one under no label. -/
def forgedCalls : List Call :=
  [.requests [("route", "/,\"\x7d 1\n# TYPE forged counter\nforged\x7ba=\"\\")] (.add 0),
    .durations [] ⟨700_000⟩, .sourceErrors [("source", "b\",c=\"d")] .inc,
    .sourceErrors [("source", "e")] .get]

/-- A label value that looks like the end of its line, another family and a sample of it is read as
the value that it is. -/
theorem text_reads_back_forged :
    (∀ call ∈ forgedCalls, ∀ l ∈ call.labels, isName l.1 = true) ∧
    readText? (ofCalls forgedCalls).text = some (
      [.family "humisense_http_requests_total" .counter,
        .sample "humisense_http_requests_total"
          [("route", "/,\"\x7d 1\n# TYPE forged counter\nforged\x7ba=\"\\")] 0,
        .family "humisense_http_duration_micros" .histogram] ++
      recordLines "humisense_http_duration_micros" [] [⟨700_000⟩] ++
      [.family "humisense_source_errors_total" .counter,
        .sample "humisense_source_errors_total" [("source", "b\",c=\"d")] 1]) := by
  have hnames : ∀ call ∈ forgedCalls, ∀ l ∈ call.labels, isName l.1 = true := by decide +kernel
  obtain ⟨hshown, hreads, -⟩ := text_reads_back forgedCalls hnames
  obtain ⟨requests, durations, sourceErrors, hread, hrequests, hdurations, hsourceErrors⟩ :=
    hreads _ hshown
  have hrequest : requests = [.sample "humisense_http_requests_total"
      [("route", "/,\"\x7d 1\n# TYPE forged counter\nforged\x7ba=\"\\")] 0] := by
    refine List.perm_singleton.1 (hrequests.trans (.of_eq ?_))
    decide +kernel
  have hduration : durations = [recordLines "humisense_http_duration_micros" [] [⟨700_000⟩]] := by
    refine List.perm_singleton.1 (hdurations.trans (.of_eq ?_))
    decide +kernel
  have hsourceError : sourceErrors =
      [.sample "humisense_source_errors_total" [("source", "b\",c=\"d")] 1] := by
    refine List.perm_singleton.1 (hsourceErrors.trans (.of_eq ?_))
    decide +kernel
  refine ⟨hnames, ?_⟩
  rw [hread, hrequest, hduration, hsourceError]
  rfl

end Hygrometer.Metrics
