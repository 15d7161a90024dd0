/-!
# Families of series

A family holds one value for each label set that was ever used with it. A label set is there from
its first use on. The labels of a series are names with values; their order does not matter, so a
label set keeps them sorted, and a label that is given twice is kept twice.

There are two kinds of values. A counter is a number. A histogram counts the durations it observes:
all of them, their sum in whole microseconds, and for each of nine bounds those that do not exceed
it. Every number wraps around at 64 bits.

## Main definitions

* `Labels.ofList` – the label set of labels in any order.
* `Family.get?` – the value of a label set, if it was used.
* `Family.update` – change the value of a label set.
* `Counters` – families of numbers, and `Histograms` – families of histograms.

## Main statements

* `Family.get?_update_self`, `Family.get?_update_of_ne` – an update changes one label set.
* `Counters.get_add_self`, `Counters.get_add_of_ne` – so does an addition.
-/

namespace Hygrometer.Metrics

/-! ### Label sets -/

/-- A label: its name and its value. -/
abbrev Label := String × String

/-- Whether a label comes before another or is the same: by name, then by value. -/
def Label.le (a b : Label) : Bool := a.1 < b.1 || (a.1 == b.1 && a.2 ≤ b.2)

/-- The labels of a series. -/
structure Labels where
  /-- The labels, sorted. -/
  toList : List Label
deriving DecidableEq

/-- The label set with the given labels, in any order. -/
def Labels.ofList (labels : List Label) : Labels := ⟨labels.mergeSort Label.le⟩

/-- A label set has the labels that it was made of. -/
@[simp] theorem Labels.mem_ofList {labels : List Label} {l : Label} :
    l ∈ (Labels.ofList labels).toList ↔ l ∈ labels := List.mem_mergeSort

/-! ### Families -/

/-- The values of label sets, in the order of first use. -/
structure Family (α : Type) where
  /-- The series. -/
  series : List (Labels × α) := []

namespace Family

variable {α : Type}

/-- The value of a label set, if it was used. -/
def get? (f : Family α) (labels : Labels) : Option α := f.series.lookup labels

/-- The series in which a label set has its value changed; a new one starts from `fresh`. -/
def updateSeries (labels : Labels) (fresh : α) (change : α → α) :
    List (Labels × α) → List (Labels × α)
  | [] => [(labels, change fresh)]
  | (key, a) :: rest =>
    if key = labels then (key, change a) :: rest
    else (key, a) :: updateSeries labels fresh change rest

/-- Change the value of a label set, which starts from `fresh` if it is new. -/
def update (f : Family α) (labels : Labels) (fresh : α) (change : α → α) : Family α :=
  ⟨updateSeries labels fresh change f.series⟩

/-- What is found in the series after a change. -/
theorem lookup_updateSeries (labels key : Labels) (fresh : α) (change : α → α)
    (series : List (Labels × α)) :
    (updateSeries labels fresh change series).lookup key =
      if key = labels then some (change ((series.lookup labels).getD fresh))
      else series.lookup key := by
  induction series with
  | nil =>
    by_cases h : key = labels
    · simp [updateSeries, h]
    · simp [updateSeries, List.lookup_cons, beq_false_of_ne h, h]
  | cons entry rest ih =>
    obtain ⟨k, a⟩ := entry
    by_cases hk : k = labels
    · subst hk
      by_cases h : key = k
      · simp [updateSeries, h]
      · simp [updateSeries, List.lookup_cons, beq_false_of_ne h, h]
    · have hl : (labels == k) = false := beq_false_of_ne (Ne.symm hk)
      by_cases h : key = k
      · subst h
        simp [updateSeries, hk]
      · simp [updateSeries, List.lookup_cons, beq_false_of_ne h, hk, hl, ih]

/-- An update changes the value of its label set. -/
@[simp] theorem get?_update_self (f : Family α) (labels : Labels) (fresh : α) (change : α → α) :
    (f.update labels fresh change).get? labels =
      some (change ((f.get? labels).getD fresh)) := by
  simp [get?, update, lookup_updateSeries]

/-- An update leaves all other label sets as they are. -/
theorem get?_update_of_ne (f : Family α) {labels key : Labels} (h : key ≠ labels) (fresh : α)
    (change : α → α) : (f.update labels fresh change).get? key = f.get? key := by
  simp [get?, update, lookup_updateSeries, h]

end Family

/-- A family of counters. -/
abbrev Counters := Family UInt64

namespace Counters

/-- Add to a counter. Zero adds nothing, but the counter is there from then on. -/
def add (c : Counters) (labels : Labels) (amount : UInt64) : Counters :=
  c.update labels 0 (· + amount)

/-- Add one to a counter. -/
def inc (c : Counters) (labels : Labels) : Counters := c.add labels 1

/-- The value of a counter, zero if it was never used. -/
def get (c : Counters) (labels : Labels) : UInt64 := (c.get? labels).getD 0

/-- Adding to a counter adds to its value. -/
@[simp] theorem get_add_self (c : Counters) (labels : Labels) (amount : UInt64) :
    (c.add labels amount).get labels = c.get labels + amount := by
  simp [get, add]

/-- Adding to a counter leaves all others as they are. -/
theorem get_add_of_ne (c : Counters) {labels key : Labels} (h : key ≠ labels)
    (amount : UInt64) : (c.add labels amount).get key = c.get key := by
  simp [get, add, Family.get?_update_of_ne c h]

end Counters

/-! ### Histograms -/

/-- A duration. -/
structure Duration where
  /-- Its length in nanoseconds. -/
  nanoseconds : Nat
deriving DecidableEq

/-- The duration of so many seconds and nanoseconds. -/
def Duration.ofSeconds (seconds nanoseconds : Nat) : Duration :=
  ⟨seconds * 1_000_000_000 + nanoseconds⟩

/-- The whole microseconds of a duration, the last 64 bits of their number. -/
def Duration.micros (d : Duration) : UInt64 := .ofNat (d.nanoseconds / 1000)

/-- A histogram. -/
structure Histogram where
  /-- How many durations were observed. -/
  count : UInt64
  /-- The sum of their microseconds. -/
  sum : UInt64
  /-- For each bound, how many did not exceed it. -/
  buckets : Vector UInt64 9
deriving DecidableEq

namespace Histogram

/-- The bounds in microseconds, from a tenth of a millisecond to a second. -/
def bounds : Vector UInt64 9 :=
  #v[100, 500, 1_000, 5_000, 10_000, 50_000, 100_000, 500_000, 1_000_000]

/-- The histogram of nothing. -/
def empty : Histogram := ⟨0, 0, .replicate 9 0⟩

/-- Observe a duration of so many microseconds. -/
def observe (micros : UInt64) (h : Histogram) : Histogram where
  count := h.count + 1
  sum := h.sum + micros
  buckets := bounds.zipWith (fun bound n ↦ if micros ≤ bound then n + 1 else n) h.buckets

end Histogram

/-- A family of histograms. -/
abbrev Histograms := Family Histogram

/-- Observe a duration. -/
def Histograms.observe (h : Histograms) (labels : Labels) (d : Duration) : Histograms :=
  h.update labels .empty (Histogram.observe d.micros)

end Hygrometer.Metrics
