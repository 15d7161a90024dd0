import Hygrometer.Metrics.Family
import Hygrometer.Text.Basic

/-!
# The service's metrics

What the service counts about itself: the requests it answered, how long they took, and the failures
of its source.

They are shown as lines of text: a line that gives a family's kind, then a line for each sample,
with its name, its labels between braces and its value. Label values are written so that no value
can end its quotes or its line. A family's series are ordered by their text, so that the whole text
depends on the values alone.

## Main definitions

* `Metrics.Line` – a line, and `Metrics.Line.text` – its text.
* `Metrics.sortSeries` – the lines of series, in the order of their texts.
* `Metrics` – what is counted, and `Metrics.text` – all of it as text.
-/

namespace Hygrometer.Metrics

/-! ### The exposition format -/

/-- The kinds of families. -/
inductive FamilyKind where
  /-- A counter. -/
  | counter
  /-- A histogram. -/
  | histogram
deriving DecidableEq, Repr

/-- The name of a kind. -/
def FamilyKind.name : FamilyKind → String
  | counter => "counter"
  | histogram => "histogram"

/-- A line. -/
inductive Line where
  /-- The kind of a family. -/
  | family (name : String) (kind : FamilyKind)
  /-- A sample. -/
  | sample (name : String) (labels : List Label) (value : UInt64)
deriving DecidableEq

/-- A character of a label value. -/
def escapeChar (c : Char) : List Char :=
  if c = '\\' then ['\\', '\\']
  else if c = '"' then ['\\', '"']
  else if c = '\n' then ['\\', 'n']
  else [c]

/-- A label value, without its quotes. -/
def escape (s : String) : String := .ofList (s.toList.flatMap escapeChar)

/-- A label. -/
def Label.text (l : Label) : String := l.1 ++ "=\"" ++ escape l.2 ++ "\""

/-- Labels between braces. -/
def labelsText (labels : List Label) : String :=
  "\x7b" ++ ",".intercalate (labels.map Label.text) ++ "\x7d"

/-- The text of a line, which its end belongs to. -/
def Line.text : Line → String
  | family name kind => "# TYPE " ++ name ++ " " ++ kind.name ++ "\n"
  | sample name labels value =>
    name ++ labelsText labels ++ " " ++ Text.numeral value.toNat ++ "\n"

/-- The text of lines. -/
def linesText (lines : List Line) : String := String.join (lines.map Line.text)

/-- The lines of series, in the order of their texts. -/
def sortSeries (series : List (List Line)) : List Line :=
  (series.mergeSort fun a b ↦ linesText a ≤ linesText b).flatten

/-- The lines of a family of counters. -/
def Counters.lines (name : String) (c : Counters) : List Line :=
  .family name .counter :: sortSeries (c.series.map fun (labels, value) ↦
    [.sample name labels.toList value])

/-- The lines of one histogram: its buckets with their bounds in a label of their own, the bucket of
everything, the sum and the count. -/
def Histogram.lines (name : String) (labels : List Label) (h : Histogram) : List Line :=
  let bucket (bound : String) (n : UInt64) : Line :=
    .sample (name ++ "_bucket") (labels ++ [("le", bound)]) n
  (Histogram.bounds.zipWith (fun bound n ↦ bucket (Text.numeral bound.toNat) n) h.buckets).toList ++
    [bucket "+Inf" h.count, .sample (name ++ "_sum") labels h.sum,
      .sample (name ++ "_count") labels h.count]

/-- The lines of a family of histograms. -/
def Histograms.lines (name : String) (h : Histograms) : List Line :=
  .family name .histogram :: sortSeries (h.series.map fun (labels, histogram) ↦
    histogram.lines name labels.toList)

end Hygrometer.Metrics

namespace Hygrometer

/-! ### What is counted -/

/-- The metrics of the service. -/
structure Metrics where
  /-- Requests, by route and status. -/
  requests : Metrics.Counters := {}
  /-- How long requests took, by route. -/
  durations : Metrics.Histograms := {}
  /-- Failures of the source, by its label and the failure's code. -/
  sourceErrors : Metrics.Counters := {}

namespace Metrics

/-- Count a request that was answered. -/
def countRequest (m : Metrics) (route status : String) (elapsed : Duration) : Metrics :=
  { m with
    requests := m.requests.inc (.ofList [("route", route), ("status", status)])
    durations := m.durations.observe (.ofList [("route", route)]) elapsed }

/-- Count a failure of the source. -/
def countSourceError (m : Metrics) (source code : String) : Metrics :=
  { m with sourceErrors := m.sourceErrors.inc (.ofList [("source", source), ("code", code)]) }

/-- The lines of all metrics. -/
def lines (m : Metrics) : List Line :=
  m.requests.lines "humisense_http_requests_total" ++
    m.durations.lines "humisense_http_duration_micros" ++
    m.sourceErrors.lines "humisense_source_errors_total"

/-- The text of all metrics. -/
def text (m : Metrics) : String := linesText m.lines

end Metrics
end Hygrometer
