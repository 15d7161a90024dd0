import Hygrometer.Metrics.Registry

/-!
# What booking an event does to the metrics

A request and a failure of the source are booked under label sets of fixed names. So two bookings
meet in one series exactly when their values agree, and each booking adds one to that series and
leaves every other series, and every other family, as it was.

These are the **step lemmas** of the metrics. Runs of the service are counted with them, one booking
at a time, and nothing in such a count looks into a family again. A histogram is followed by how
many durations it has observed (`Histograms.count?`), which is nothing at all before the first.
-/

namespace Hygrometer.Metrics

/-! ### Label sets of one and of two names -/

theorem Labels.ofList_single_inj {name value value' : String} :
    Labels.ofList [(name, value)] = .ofList [(name, value')] ↔ value = value' := by
  refine ⟨fun h ↦ ?_, fun h ↦ h ▸ rfl⟩
  have hmem : (name, value) ∈ (Labels.ofList [(name, value')]).toList := by
    rw [← h, Labels.mem_ofList]
    exact List.mem_singleton_self _
  simpa using hmem

/-- Label sets with the same two names are the same when both values are: the names keep the values
apart, whatever the values are. -/
theorem Labels.ofList_pair_inj {name name' v w v' w' : String} (hne : name ≠ name') :
    Labels.ofList [(name, v), (name', w)] = .ofList [(name, v'), (name', w')] ↔
      v = v' ∧ w = w' := by
  refine ⟨fun h ↦ ?_, fun ⟨hv, hw⟩ ↦ hv ▸ hw ▸ rfl⟩
  have hmem : ∀ l ∈ [(name, v), (name', w)], l ∈ [(name, v'), (name', w')] := by
    intro l hl
    rw [← Labels.mem_ofList, ← h, Labels.mem_ofList]
    exact hl
  have hfst := hmem (name, v) (by simp)
  have hsnd := hmem (name', w) (by simp)
  simp only [List.mem_cons, Prod.mk.injEq, List.not_mem_nil, or_false, true_and, hne,
    Ne.symm hne, false_and, or_false, false_or] at hfst hsnd
  exact ⟨hfst, hsnd⟩

/-! ### Counters and histograms -/

/-- Adding one changes the counter of its label set and no other. -/
theorem Counters.get_inc (c : Counters) (labels key : Labels) :
    (c.inc labels).get key = c.get key + if labels = key then 1 else 0 := by
  by_cases h : labels = key
  · rw [if_pos h, inc, h, get_add_self]
  · rw [if_neg h, inc, get_add_of_ne c (Ne.symm h), UInt64.add_zero]

/-- How many durations the histogram of a label set has observed, if there is one. -/
def Histograms.count? (h : Histograms) (labels : Labels) : Option UInt64 :=
  (h.get? labels).map (·.count)

/-- An observation counts in the histogram of its label set, which starts from nothing, and in no
other. -/
theorem Histograms.count?_observe (h : Histograms) (labels key : Labels) (d : Duration) :
    (h.observe labels d).count? key =
      if labels = key then some ((h.count? key).getD 0 + 1) else h.count? key := by
  by_cases hkey : labels = key
  · subst hkey
    rw [if_pos rfl, count?, count?, observe, Family.get?_update_self]
    rcases h.get? labels with - | histogram <;> rfl
  · rw [if_neg hkey, count?, count?, observe, Family.get?_update_of_ne h (Ne.symm hkey)]

/-! ### Bookings -/

variable (m : Metrics)

theorem requests_countRequest (route status route' status' : String) (elapsed : Duration) :
    (m.countRequest route status elapsed).requests.get
        (.ofList [("route", route'), ("status", status')]) =
      m.requests.get (.ofList [("route", route'), ("status", status')]) +
        if route = route' ∧ status = status' then 1 else 0 := by
  rw [countRequest, Counters.get_inc]
  simp only [Labels.ofList_pair_inj (show "route" ≠ "status" by decide)]

theorem durations_countRequest (route status route' : String) (elapsed : Duration) :
    (m.countRequest route status elapsed).durations.count? (.ofList [("route", route')]) =
      if route = route' then
        some ((m.durations.count? (.ofList [("route", route')])).getD 0 + 1)
      else m.durations.count? (.ofList [("route", route')]) := by
  rw [countRequest, Histograms.count?_observe]
  simp only [Labels.ofList_single_inj]

@[simp] theorem sourceErrors_countRequest (route status : String) (elapsed : Duration) :
    (m.countRequest route status elapsed).sourceErrors = m.sourceErrors := rfl

theorem sourceErrors_countSourceError (source code source' code' : String) :
    (m.countSourceError source code).sourceErrors.get
        (.ofList [("source", source'), ("code", code')]) =
      m.sourceErrors.get (.ofList [("source", source'), ("code", code')]) +
        if source = source' ∧ code = code' then 1 else 0 := by
  rw [countSourceError, Counters.get_inc]
  simp only [Labels.ofList_pair_inj (show "source" ≠ "code" by decide)]

@[simp] theorem requests_countSourceError (source code : String) :
    (m.countSourceError source code).requests = m.requests := rfl

@[simp] theorem durations_countSourceError (source code : String) :
    (m.countSourceError source code).durations = m.durations := rfl

end Hygrometer.Metrics
