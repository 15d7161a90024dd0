import Mathlib.Algebra.GroupWithZero.Nat
import Hygrometer.Proofs.Metrics.Exposition

/-!
# Counters are maps from label multisets to sums

A family of counters that is only ever called holds, under any labels, the sum of what was added
under a reordering of these labels (`get_run`). It has one series for each set of labels that was
added to, in whatever order its labels were given (`perm_keys_run`).

**Calls** are increments, additions and looks (`CounterCall`), each under a list of labels as a
caller writes it. Looking at a counter is a call like the others, but leaves no trace: the counters
are those of the additions alone (`run_snd`). An addition of zero is no look, since it makes a
series. The rest follows from what a run of updates makes of a family.

**Sums** are those of natural numbers, taken modulo `2 ^ 64` once at the end. Adding up wraps around
at each step, which comes to the same (`foldl_add_eq`).

**The order of calls** does not matter to what they leave (`get_run_congr`, `perm_series_run`), also
if labels are reordered inside of single calls. It does matter to the answers of looks: a look
answers with the sum of what was added before it, so that is stated for each place of a run
(`getElem?_run`).
-/

namespace Hygrometer.Metrics

/-! ### Calls -/

/-- What a call wants of a counter. -/
inductive CounterCall where
  /-- Add one. -/
  | inc
  /-- Add an amount. -/
  | add (amount : UInt64)
  /-- Look at the value. -/
  | get
deriving DecidableEq

/-- What a call adds. A look adds nothing, which is less than adding zero. -/
def CounterCall.amount? : CounterCall → Option UInt64
  | inc => some 1
  | add amount => some amount
  | get => none

namespace Counters

/-- A call under some labels: the answer to a look, and the counters afterwards. -/
def call (c : Counters) (labels : List Label) : CounterCall → Option UInt64 × Counters
  | .inc => (none, c.inc (.ofList labels))
  | .add amount => (none, c.add (.ofList labels) amount)
  | .get => (some (c.get (.ofList labels)), c)

/-- The answers to calls, and the counters afterwards. -/
def run (c : Counters) : List (List Label × CounterCall) → List (Option UInt64) × Counters
  | [] => ([], c)
  | (labels, call) :: rest =>
    let (answer, c) := c.call labels call
    let (answers, c) := c.run rest
    (answer :: answers, c)

/-- The additions among calls. -/
def additions (calls : List (List Label × CounterCall)) : List (List Label × UInt64) :=
  calls.filterMap fun (labels, call) ↦ call.amount?.map (labels, ·)

/-- What was added under given labels, in any order. -/
def amountsAt (calls : List (List Label × CounterCall)) (labels : List Label) : List UInt64 :=
  (callsAt calls labels).filterMap CounterCall.amount?

/-- The sum of what was added under given labels. -/
def total (calls : List (List Label × CounterCall)) (labels : List Label) : ℕ :=
  ((amountsAt calls labels).map UInt64.toNat).sum

/-! ### What calls leave -/

theorem callsAt_additions (calls : List (List Label × CounterCall)) (labels : List Label) :
    callsAt (additions calls) labels = amountsAt calls labels := by
  induction calls with
  | nil => rfl
  | cons entry rest ih =>
    obtain ⟨key, call⟩ := entry
    rw [amountsAt, callsAt_cons]
    rcases hadds : call.amount? with - | amount
    · rw [additions, List.filterMap_cons_none (by simp [hadds])]
      split
      · rw [List.filterMap_cons_none hadds]
        exact ih
      · exact ih
    · rw [additions, List.filterMap_cons_some (b := (key, amount)) (by simp [hadds]), callsAt_cons]
      split
      · rw [List.filterMap_cons_some hadds]
        exact congrArg _ ih
      · exact ih

/-- Counters are what the additions made of them. -/
theorem run_snd (c : Counters) (calls : List (List Label × CounterCall)) :
    (c.run calls).2 = c.replay 0 (fun amount n ↦ n + amount) (keyed (additions calls)) := by
  induction calls generalizing c with
  | nil => rfl
  | cons entry rest ih =>
    obtain ⟨labels, call⟩ := entry
    rcases call with - | amount | - <;> exact ih _

theorem run_empty_snd (calls : List (List Label × CounterCall)) :
    (run {} calls).2 = .ofCalls 0 (fun amount n ↦ n + amount) (additions calls) :=
  run_snd {} calls

theorem foldl_add_eq (n : UInt64) (amounts : List UInt64) :
    amounts.foldl (fun n amount ↦ n + amount) n =
      n + .ofNat (amounts.map UInt64.toNat).sum := by
  induction amounts generalizing n with
  | nil => exact (UInt64.add_zero n).symm
  | cons amount amounts ih =>
    rw [List.foldl_cons, ih, List.map_cons, List.sum_cons, UInt64.ofNat_add, UInt64.ofNat_toNat,
      UInt64.add_assoc]

/-- **The value under labels** is the sum of what was added under them. -/
theorem get_run (calls : List (List Label × CounterCall)) (labels : List Label) :
    (run {} calls).2.get (.ofList labels) = .ofNat (total calls labels) := by
  rw [get, run_empty_snd, Family.get?_ofCalls, callsAt_additions, total]
  split
  · next hnone =>
    rw [hnone]
    rfl
  · rw [Option.getD_some, foldl_add_eq, UInt64.zero_add]

/-- There is a series for each label set that something was added under, also if it was zero. -/
theorem perm_keys_run (calls : List (List Label × CounterCall)) :
    (run {} calls).2.keys.Perm (labelSets (additions calls)) := by
  rw [run_empty_snd]
  exact Family.perm_keys_ofCalls 0 _ (additions calls)

/-! ### Looks -/

theorem run_append_snd (c : Counters) (front back : List (List Label × CounterCall)) :
    (c.run (front ++ back)).2 = ((c.run front).2.run back).2 := by
  induction front generalizing c with
  | nil => rfl
  | cons entry front ih => exact ih _

/-- A look is answered by the counters that the calls before it left. -/
theorem getElem?_run (c : Counters) (calls : List (List Label × CounterCall)) (k : ℕ) :
    (c.run calls).1[k]? =
      calls[k]?.map fun entry ↦ ((c.run (calls.take k)).2.call entry.1 entry.2).1 := by
  induction calls generalizing c k with
  | nil => rfl
  | cons entry rest ih =>
    cases k with
    | zero => rfl
    | succ k => exact ih _ k

/-- Without the looks the counters are the same. -/
theorem additions_filter (calls : List (List Label × CounterCall)) :
    additions (calls.filter (·.2 ≠ .get)) = additions calls := by
  rw [additions, List.filterMap_filter]
  refine List.filterMap_congr fun entry _ ↦ ?_
  obtain ⟨labels, call⟩ := entry
  rcases call with - | amount | - <;> rfl

/-- A look changes nothing. -/
theorem run_take_succ_of_get {calls : List (List Label × CounterCall)} {k : ℕ}
    {labels : List Label} (h : calls[k]? = some (labels, .get)) :
    (run {} (calls.take (k + 1))).2 = (run {} (calls.take k)).2 := by
  rw [List.take_add_one, h, run_append_snd]
  rfl

/-! ### Calls in another order -/

theorem perm_keyed_additions {calls calls' : List (List Label × CounterCall)}
    (h : Reordered calls calls') :
    (keyed (additions calls)).Perm (keyed (additions calls')) := by
  have hkeyed : ∀ calls : List (List Label × CounterCall),
      keyed (additions calls) =
        (keyed calls).filterMap fun (labels, call) ↦ call.amount?.map (labels, ·) := by
    intro calls
    rw [keyed, additions, List.map_filterMap, keyed, List.filterMap_map]
    refine List.filterMap_congr fun entry _ ↦ ?_
    obtain ⟨labels, call⟩ := entry
    rcases call with - | amount | - <;> rfl
  rw [hkeyed, hkeyed]
  exact h.perm_keyed.filterMap _

theorem add_right_comm (amount amount' n : UInt64) :
    n + amount' + amount = n + amount + amount' := by
  rw [UInt64.add_assoc, UInt64.add_comm amount', ← UInt64.add_assoc]

theorem get_run_congr {calls calls' : List (List Label × CounterCall)}
    (h : Reordered calls calls') (labels : Labels) :
    (run {} calls).2.get labels = (run {} calls').2.get labels := by
  rw [run_empty_snd, run_empty_snd, get, get,
    Family.get?_ofCalls_congr 0 _ add_right_comm (perm_keyed_additions h)]

theorem perm_series_run {calls calls' : List (List Label × CounterCall)}
    (h : Reordered calls calls') :
    (run {} calls).2.series.Perm (run {} calls').2.series := by
  rw [run_empty_snd, run_empty_snd]
  exact Family.perm_series_ofCalls_congr 0 _ add_right_comm (perm_keyed_additions h)

/-- **Counters are a map from label multisets to sums.** After any calls on fresh counters, with
labels in any order, with or without repetitions,

* the value under any labels is, modulo `2 ^ 64`, the sum of what was added under a reordering of
  them, and the series are those of the label sets that something was added under;
* a look shows that sum for the calls before it and changes nothing, and without all looks the
  counters are the same;
* the same calls in another order, each with its labels in another order, leave the same values and
  the same sorted text. -/
theorem run_sums_additions (calls : List (List Label × CounterCall)) :
    let counters := (run {} calls).2
    (∀ labels, (counters.get (.ofList labels)).toNat = total calls labels % UInt64.size) ∧
    (counters.series.map (·.1)).Perm (labelSets (additions calls)) ∧
    (∀ (k : ℕ) labels, calls[k]? = some (labels, .get) →
      (run {} calls).1[k]? = some (some (.ofNat (total (calls.take k) labels))) ∧
      (run {} (calls.take (k + 1))).2 = (run {} (calls.take k)).2) ∧
    (run {} (calls.filter (·.2 ≠ .get))).2 = counters ∧
    (∀ calls', Reordered calls calls' →
      (∀ labels, (run {} calls').2.get labels = counters.get labels) ∧
      ∀ name, linesText ((run {} calls').2.lines name) = linesText (counters.lines name)) := by
  intro counters
  refine ⟨fun labels ↦ ?_, perm_keys_run calls, fun k labels hk ↦ ⟨?_, run_take_succ_of_get hk⟩,
    ?_, fun calls' h ↦ ⟨fun labels ↦ (get_run_congr h labels).symm, fun name ↦ ?_⟩⟩
  · rw [get_run, UInt64.toNat_ofNat']
  · rw [getElem?_run, hk, Option.map_some, call, get_run]
  · rw [run_empty_snd, additions_filter]
    exact (run_empty_snd calls).symm
  · exact (linesText_lines_congr (perm_series_run h) name).symm

/-- Calls that wrap around, that repeat a label, that add zero under no label, and a look. -/
def mixedCalls : List (List Label × CounterCall) :=
  [([("b", "x"), ("a", "y")], .add 0xFFFF_FFFF_FFFF_FFFF), ([], .add 0),
    ([("a", "y"), ("b", "x")], .get), ([("a", "y"), ("a", "y")], .inc),
    ([("a", "y"), ("b", "x")], .add 2)]

theorem run_sums_additions_mixed :
    let backwards := mixedCalls.reverse.map fun (labels, call) ↦ (labels.reverse, call)
    ((run {} mixedCalls).2.get (.ofList [("a", "y"), ("b", "x")])).toNat = 1 ∧
    (run {} mixedCalls).1[2]? = some (some 0xFFFF_FFFF_FFFF_FFFF) ∧
    Reordered mixedCalls backwards ∧
    linesText ((run {} backwards).2.lines "n") = linesText ((run {} mixedCalls).2.lines "n") := by
  intro backwards
  obtain ⟨hvalue, -, hlook, -, hreordered⟩ := run_sums_additions mixedCalls
  have hbackwards : Reordered mixedCalls backwards := by
    refine ⟨mixedCalls.reverse, (List.reverse_perm mixedCalls).symm, ?_⟩
    rw [List.forall₂_map_right_iff, List.forall₂_same]
    exact fun call _ ↦ ⟨(List.reverse_perm call.1).symm, rfl⟩
  refine ⟨?_, ?_, hbackwards, (hreordered _ hbackwards).2 "n"⟩
  · rw [hvalue]
    decide +kernel
  · rw [(hlook 2 [("a", "y"), ("b", "x")] rfl).1]
    decide +kernel

end Counters

end Hygrometer.Metrics
