import Mathlib.Data.List.Dedup
import Mathlib.Data.List.Sort
import Mathlib.Data.Prod.Lex
import Mathlib.Data.String.Basic
import Hygrometer.Metrics.Family

/-!
# Label sets are multisets of labels

A label set is made by sorting, and sorting labels is canonical: their order is linear, so two lists
of labels have the same sorted form exactly when each is a reordering of the other
(`Labels.ofList_eq_iff`). That is all that the metrics need to know of the order.

Calls on metrics come with lists of labels. The two ways in which a list of calls is looked at here
are **the calls at a label set** (`callsAt`) and **the label sets that are called** (`labelSets`).
Neither depends on the order in which a call gives its labels, and a reordering of the calls
(`Reordered`) only reorders them.
-/

namespace Hygrometer.Metrics

/-! ### Sorting is canonical -/

/-- Sorting by a key in a linear order forgets the order of a list, and nothing else if the key
tells the members apart. -/
theorem mergeSort_eq_iff_perm {α γ : Type} [LinearOrder γ] {key : α → γ}
    (hkey : Function.Injective key) {l l' : List α} :
    l.mergeSort (key · ≤ key ·) = l'.mergeSort (key · ≤ key ·) ↔ l.Perm l' := by
  refine ⟨fun h ↦ ?_, fun h ↦ ?_⟩
  · exact (List.mergeSort_perm l _).symm.trans (h ▸ List.mergeSort_perm l' _)
  · have : Std.Antisymm fun a b : α ↦ key a ≤ key b := ⟨fun _ _ h h' ↦ hkey (le_antisymm h h')⟩
    have hsorted : (l.mergeSort (key · ≤ key ·)).Perm (l'.mergeSort (key · ≤ key ·)) :=
      (List.mergeSort_perm l _).trans (h.trans (List.mergeSort_perm l' _).symm)
    exact hsorted.eq_of_pairwise' (List.pairwise_mergeSort' _ l) (List.pairwise_mergeSort' _ l')

/-- Labels are ordered by their names, and those of one name by their values. -/
theorem Label.le_eq (a b : Label) : a.le b = decide (toLex a ≤ toLex b) := by
  rw [Bool.eq_iff_iff]
  simp [Label.le, Prod.Lex.toLex_le_toLex]

namespace Labels

/-- A label set is the multiset of its labels. -/
theorem ofList_eq_iff {labels labels' : List Label} :
    ofList labels = ofList labels' ↔ labels.Perm labels' := by
  have hle : Label.le = fun a b ↦ decide (toLex a ≤ toLex b) :=
    funext fun a ↦ funext (Label.le_eq a)
  rw [ofList, ofList, Labels.mk.injEq, hle]
  exact mergeSort_eq_iff_perm toLex.injective

theorem perm_toList_ofList (labels : List Label) : (ofList labels).toList.Perm labels :=
  List.mergeSort_perm labels _

theorem forall_mem_toList_ofList {labels : List Label} {p : Label → Prop} :
    (∀ l ∈ (ofList labels).toList, p l) ↔ ∀ l ∈ labels, p l := by
  simp only [mem_ofList]

@[simp] theorem ofList_toList_ofList (labels : List Label) :
    ofList (ofList labels).toList = ofList labels :=
  ofList_eq_iff.2 (perm_toList_ofList labels)

/-- The labels of a label set are sorted. -/
theorem pairwise_toList_ofList (labels : List Label) :
    (ofList labels).toList.Pairwise fun a b ↦ a.le b = true := by
  refine List.pairwise_mergeSort ?_ ?_ labels
  · intro a b c hab hbc
    rw [Label.le_eq, decide_eq_true_iff] at *
    exact hab.trans hbc
  · intro a b
    rw [Label.le_eq, Label.le_eq, Bool.or_eq_true, decide_eq_true_iff, decide_eq_true_iff]
    exact le_total _ _

end Labels

/-! ### Calls under labels -/

variable {α : Type} {calls calls' : List (List Label × α)}

/-- What the calls under given labels, in any order, were about. -/
def callsAt (calls : List (List Label × α)) (labels : List Label) : List α :=
  (calls.filter fun call ↦ call.1.Perm labels).map (·.2)

/-- The calls under their label sets. -/
def keyed (calls : List (List Label × α)) : List (Labels × α) :=
  calls.map fun call ↦ (.ofList call.1, call.2)

/-- The label sets of calls, each once. -/
def labelSets (calls : List (List Label × α)) : List Labels := ((keyed calls).map (·.1)).dedup

/-- The same calls in another order, each with its labels in another order. -/
def Reordered (calls calls' : List (List Label × α)) : Prop :=
  ∃ middle, calls.Perm middle ∧
    middle.Forall₂ (fun call call' ↦ call.1.Perm call'.1 ∧ call.2 = call'.2) calls'

theorem callsAt_eq (calls : List (List Label × α)) (labels : List Label) :
    callsAt calls labels = ((keyed calls).filter (·.1 = .ofList labels)).map (·.2) := by
  simp only [callsAt, keyed, List.filter_map, List.map_map, Function.comp_def,
    Labels.ofList_eq_iff]

theorem callsAt_eq_nil_iff {labels : List Label} :
    callsAt calls labels = [] ↔ ∀ call ∈ calls, ¬ call.1.Perm labels := by
  simp [callsAt]

theorem length_callsAt_le (calls : List (List Label × α)) (labels : List Label) :
    (callsAt calls labels).length ≤ calls.length := by
  rw [callsAt, List.length_map]
  exact List.length_filter_le ..

theorem mem_labelSets {labels : Labels} :
    labels ∈ labelSets calls ↔ ∃ call ∈ calls, .ofList call.1 = labels := by
  rw [labelSets, List.mem_dedup, keyed, List.map_map, List.mem_map]
  rfl

theorem callsAt_cons (call : List Label × α) (calls : List (List Label × α))
    (labels : List Label) :
    callsAt (call :: calls) labels =
      if call.1.Perm labels then call.2 :: callsAt calls labels else callsAt calls labels := by
  by_cases h : call.1.Perm labels <;> simp [callsAt, h]

/-- Reordered calls have the same label sets, as often. -/
theorem Reordered.perm_keyed (h : Reordered calls calls') :
    (keyed calls).Perm (keyed calls') := by
  obtain ⟨middle, hperm, halike⟩ := h
  have hsame : keyed middle = keyed calls' := by
    clear hperm
    induction halike with
    | nil => rfl
    | cons halike _ ih =>
      obtain ⟨hlabels, habout⟩ := halike
      rw [keyed, List.map_cons, Labels.ofList_eq_iff.2 hlabels, habout]
      exact congrArg _ ih
  exact hsame ▸ hperm.map _

end Hygrometer.Metrics
