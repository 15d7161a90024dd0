import Hygrometer.Metrics.Family
import Hygrometer.Proofs.Metrics.Labels

/-!
# Families after a run of updates

A family that is only ever updated has one series for each label set, those of the updates
(`perm_keys_ofCalls`), and the value of a label set is what the updates of that label set made of
the fresh value, in their order (`get?_ofCalls`). So the values determine the series up to their
order (`perm_series`), which is why a text that sorts the series depends on the values alone.

**Keys come once.** An update changes the series of its label set if there is one, and appends a
series otherwise (`keys_update`). So the label sets stay different (`nodup_keys_update`), and the
series are then the graph of a map (`mem_series_iff`). That is all that is needed of how a family is
stored.

**Runs of updates.** A run is a fold over its calls (`replay`), and for one label set it is the fold
over the calls with these labels (`get?_replay`), since the others leave its value alone. Everything
is stated for any type of values and any change, so counters and histograms are two cases of it. The
one assumption that is ever made of a change is that two of them may change places, and it gives
that the order of calls does not matter (`get?_ofCalls_congr`, `perm_series_ofCalls_congr`).
-/

namespace Hygrometer.Metrics.Family

variable {α β : Type}

/-! ### Label sets of a family -/

/-- The label sets of a family, in the order of first use. -/
def keys (f : Family α) : List Labels := f.series.map (·.1)

theorem map_fst_updateSeries (labels : Labels) (fresh : α) (change : α → α)
    (series : List (Labels × α)) :
    (updateSeries labels fresh change series).map (·.1) =
      if labels ∈ series.map (·.1) then series.map (·.1) else series.map (·.1) ++ [labels] := by
  induction series with
  | nil => rfl
  | cons entry rest ih =>
    obtain ⟨key, a⟩ := entry
    by_cases hkey : key = labels
    · simp [updateSeries, hkey]
    · rw [updateSeries, if_neg hkey, List.map_cons, ih]
      simp only [List.map_cons, List.mem_cons, Ne.symm hkey, false_or]
      split <;> rfl

/-- An update adds its label set behind the others, unless it is there. -/
theorem keys_update (f : Family α) (labels : Labels) (fresh : α) (change : α → α) :
    (f.update labels fresh change).keys =
      if labels ∈ f.keys then f.keys else f.keys ++ [labels] :=
  map_fst_updateSeries labels fresh change f.series

theorem nodup_keys_update {f : Family α} (h : f.keys.Nodup) (labels : Labels) (fresh : α)
    (change : α → α) : (f.update labels fresh change).keys.Nodup := by
  rw [keys_update]
  split
  · exact h
  · next hmem =>
    rw [List.nodup_append]
    refine ⟨h, List.nodup_singleton labels, ?_⟩
    intro key hkey other hother heq
    rw [List.mem_singleton] at hother
    exact hmem (hother ▸ heq ▸ hkey)

/-- In a family without repetitions the series are the values that are found. -/
theorem mem_series_iff {f : Family α} (h : f.keys.Nodup) {labels : Labels} {a : α} :
    (labels, a) ∈ f.series ↔ f.get? labels = some a := by
  obtain ⟨series⟩ := f
  simp only [keys, get?] at h ⊢
  induction series with
  | nil => simp
  | cons entry rest ih =>
    obtain ⟨key, b⟩ := entry
    rw [List.map_cons, List.nodup_cons] at h
    obtain ⟨hfresh, hrest⟩ := h
    rw [List.mem_cons, List.lookup_cons, ih hrest]
    by_cases hkey : labels = key
    · subst hkey
      have hnone : rest.lookup labels = none := by
        rw [List.lookup_eq_none_iff]
        intro entry hentry
        have hne : labels ≠ entry.1 := fun heq ↦ hfresh (List.mem_map.2 ⟨entry, hentry, heq.symm⟩)
        simpa using hne
      simp [hnone, eq_comm]
    · rw [beq_false_of_ne hkey]
      simp [hkey]

/-- Families without repetitions that have the same values have the same series, in some order. -/
theorem perm_series {f g : Family α} (hf : f.keys.Nodup) (hg : g.keys.Nodup)
    (h : ∀ labels, f.get? labels = g.get? labels) : f.series.Perm g.series := by
  rw [List.perm_ext_iff_of_nodup hf.of_map hg.of_map]
  intro (labels, a)
  rw [mem_series_iff hf, mem_series_iff hg, h]

/-- The series of a family are its label sets with what is found there. -/
theorem series_eq {f : Family α} (h : f.keys.Nodup) (fresh : α) :
    f.series = f.keys.map fun labels ↦ (labels, (f.get? labels).getD fresh) := by
  rw [keys, List.map_map]
  conv_lhs => rw [← List.map_id f.series]
  refine List.map_congr_left fun entry hentry ↦ ?_
  have hfound : f.get? entry.1 = some entry.2 := (mem_series_iff h).1 hentry
  simp [hfound]

/-! ### Runs of updates -/

/-- The family after updates, each of a label set and with something to change the value by. -/
def replay (f : Family α) (fresh : α) (change : β → α → α) (calls : List (Labels × β)) :
    Family α :=
  calls.foldl (fun f call ↦ f.update call.1 fresh (change call.2)) f

theorem replay_cons (f : Family α) (fresh : α) (change : β → α → α) (call : Labels × β)
    (calls : List (Labels × β)) :
    f.replay fresh change (call :: calls) =
      (f.update call.1 fresh (change call.2)).replay fresh change calls := rfl

/-- **The value of a label set** after updates comes from the updates of that label set alone. -/
theorem get?_replay (f : Family α) (fresh : α) (change : β → α → α) (calls : List (Labels × β))
    (labels : Labels) :
    (f.replay fresh change calls).get? labels =
      ((calls.filter (·.1 = labels)).map (·.2)).foldl
        (fun a? b ↦ some (change b (a?.getD fresh))) (f.get? labels) := by
  induction calls generalizing f with
  | nil => rfl
  | cons call calls ih =>
    rw [replay_cons, ih]
    by_cases hkey : call.1 = labels
    · subst hkey
      rw [get?_update_self, List.filter_cons_of_pos (by simp), List.map_cons, List.foldl_cons]
    · rw [get?_update_of_ne f (Ne.symm hkey), List.filter_cons_of_neg (by simpa using hkey)]

theorem nodup_keys_replay {f : Family α} (h : f.keys.Nodup) (fresh : α) (change : β → α → α)
    (calls : List (Labels × β)) : (f.replay fresh change calls).keys.Nodup := by
  induction calls generalizing f with
  | nil => exact h
  | cons call calls ih => exact ih (nodup_keys_update h call.1 fresh (change call.2))

theorem mem_keys_replay (f : Family α) (fresh : α) (change : β → α → α)
    (calls : List (Labels × β)) (labels : Labels) :
    labels ∈ (f.replay fresh change calls).keys ↔
      labels ∈ f.keys ∨ labels ∈ calls.map (·.1) := by
  induction calls generalizing f with
  | nil => simp [replay]
  | cons call calls ih =>
    have hkeys : labels ∈ (f.update call.1 fresh (change call.2)).keys ↔
        labels ∈ f.keys ∨ labels = call.1 := by
      rw [keys_update]
      split
      · next hmem => exact ⟨.inl, fun h ↦ h.elim id (· ▸ hmem)⟩
      · rw [List.mem_append, List.mem_singleton]
    rw [replay_cons, ih, hkeys, List.map_cons, List.mem_cons, or_assoc]

/-! ### Families that calls make -/

/-- What calls under labels in any order make of an empty family. -/
def ofCalls (fresh : α) (change : β → α → α) (calls : List (List Label × β)) : Family α :=
  replay {} fresh change (keyed calls)

variable (fresh : α) (change : β → α → α) {calls calls' : List (List Label × β)}

theorem nodup_keys_ofCalls (calls : List (List Label × β)) :
    (ofCalls fresh change calls).keys.Nodup :=
  nodup_keys_replay (f := {}) List.nodup_nil fresh change (keyed calls)

/-- The label sets of the family are those of the calls. -/
theorem perm_keys_ofCalls (calls : List (List Label × β)) :
    (ofCalls fresh change calls).keys.Perm (labelSets calls) := by
  have hsets : (labelSets calls).Nodup := List.nodup_dedup _
  rw [List.perm_ext_iff_of_nodup (nodup_keys_ofCalls fresh change calls) hsets]
  intro labels
  rw [ofCalls, mem_keys_replay, labelSets, List.mem_dedup]
  exact or_iff_right List.not_mem_nil

/-- The series of the family, one for each label set of the calls. -/
theorem perm_series_ofCalls (calls : List (List Label × β)) :
    (ofCalls fresh change calls).series.Perm ((labelSets calls).map fun labels ↦
      (labels, ((ofCalls fresh change calls).get? labels).getD fresh)) := by
  conv_lhs => rw [series_eq (nodup_keys_ofCalls fresh change calls) fresh]
  exact (perm_keys_ofCalls fresh change calls).map _

/-- Once there is a value, calls change it one after another. -/
theorem foldl_some (bs : List β) (a : α) :
    bs.foldl (fun a? b ↦ some (change b (a?.getD fresh))) (some a) =
      some (bs.foldl (fun a b ↦ change b a) a) := by
  induction bs generalizing a with
  | nil => rfl
  | cons b bs ih => exact ih (change b a)

/-- **The value under labels** is what the calls under them made of the fresh value, and there is
none before the first call. -/
theorem get?_ofCalls (calls : List (List Label × β)) (labels : List Label) :
    (ofCalls fresh change calls).get? (.ofList labels) =
      if callsAt calls labels = [] then none
      else some ((callsAt calls labels).foldl (fun a b ↦ change b a) fresh) := by
  rw [ofCalls, get?_replay, ← callsAt_eq]
  rcases callsAt calls labels with - | ⟨b, bs⟩
  · rfl
  · rw [if_neg (List.cons_ne_nil b bs)]
    exact foldl_some fresh change bs (change b fresh)

/-- Where changes commute, calls in another order make a family with the same values. -/
theorem get?_ofCalls_congr
    (hcomm : ∀ b b' a, change b (change b' a) = change b' (change b a))
    (h : (keyed calls).Perm (keyed calls')) (labels : Labels) :
    (ofCalls fresh change calls).get? labels = (ofCalls fresh change calls').get? labels := by
  rw [ofCalls, ofCalls, get?_replay, get?_replay]
  refine List.Perm.foldl_eq' ((h.filter _).map _) ?_ _
  intro b _ b' _ a?
  rw [Option.getD_some, Option.getD_some, hcomm]

theorem perm_series_ofCalls_congr
    (hcomm : ∀ b b' a, change b (change b' a) = change b' (change b a))
    (h : (keyed calls).Perm (keyed calls')) :
    (ofCalls fresh change calls).series.Perm (ofCalls fresh change calls').series :=
  perm_series (nodup_keys_ofCalls fresh change calls) (nodup_keys_ofCalls fresh change calls')
    (get?_ofCalls_congr fresh change hcomm h)

end Hygrometer.Metrics.Family
