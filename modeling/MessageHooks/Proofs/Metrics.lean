import MessageHooks.Metrics.Dispatch

/-!
# Rows of metrics

A row is named by its labels in any order. The labels that dispatching uses tell phases, kinds,
outcomes and stages apart, whatever the kind is, and one more count shows in exactly one row.

* `Counter.get_increment`, `Histogram.count_observe`: what counting once adds to each row.
* `Metrics.sort_invocationLabels_eq_iff` and its like: rows are the same only for the same values.
-/

namespace MessageHooks

/-! ## Counting once -/

theorem Counter.get_increment (c : Counter) (labels labels' : Labels) :
    (c.increment labels).get labels' =
      c.get labels' + UInt64.ofNat (if labels.sort = labels'.sort then 1 else 0) := by
  by_cases h : labels.sort = labels'.sort
  · rw [if_pos h, c.get_increment_of_sort_eq h.symm]
    rfl
  · rw [if_neg h, c.get_increment_of_sort_ne (Ne.symm h)]
    exact (UInt64.add_zero _).symm

theorem Histogram.count_observe (h : Histogram) (labels labels' : Labels) (took : Duration) :
    (h.observe labels took).count labels' =
      h.count labels' + UInt64.ofNat (if labels.sort = labels'.sort then 1 else 0) := by
  unfold count
  by_cases e : labels.sort = labels'.sort
  · rw [if_pos e, h.row_observe_of_sort_eq took e.symm]
    rfl
  · rw [if_neg e, h.row_observe_of_sort_ne took (Ne.symm e)]
    exact (UInt64.add_zero _).symm

/-! ## Labels -/

/-- Labels in one order are the same labels. -/
theorem Labels.mem_of_sort_eq {l l' : Labels} (h : l.sort = l'.sort) {p : String × String}
    (hp : p ∈ l) : p ∈ l' := by
  rw [← (sort_perm l').mem_iff, ← h, (sort_perm l).mem_iff]
  exact hp

theorem CallOutcome.text_injective {o u : CallOutcome} (h : o.text = u.text) : o = u := by
  cases o <;> cases u <;> simp_all [text]

theorem FailureStage.text_injective {s t : FailureStage} (h : s.text = t.text) : s = t := by
  cases s <;> cases t <;> simp_all [text]

namespace Metrics

theorem sort_invocationLabels_eq_iff {p q : Phase} {k l : String} {o u : CallOutcome} :
    (invocationLabels p k o).sort = (invocationLabels q l u).sort ↔ p = q ∧ k = l ∧ o = u := by
  constructor
  · intro h
    have hmem {x : String × String} := Labels.mem_of_sort_eq h (p := x)
    have hphase : p.text = q.text := by
      simpa [invocationLabels] using hmem (x := ("phase", p.text))
    have hkind : k = l := by simpa [invocationLabels] using hmem (x := ("kind", k))
    have houtcome : o.text = u.text := by
      simpa [invocationLabels] using hmem (x := ("outcome", o.text))
    exact ⟨Phase.text_injective hphase, hkind, CallOutcome.text_injective houtcome⟩
  · rintro ⟨rfl, rfl, rfl⟩
    rfl

theorem sort_durationLabels_eq_iff {p q : Phase} {k l : String} :
    (durationLabels p k).sort = (durationLabels q l).sort ↔ p = q ∧ k = l := by
  constructor
  · intro h
    have hmem {x : String × String} := Labels.mem_of_sort_eq h (p := x)
    have hphase : p.text = q.text := by
      simpa [durationLabels] using hmem (x := ("phase", p.text))
    have hkind : k = l := by simpa [durationLabels] using hmem (x := ("kind", k))
    exact ⟨Phase.text_injective hphase, hkind⟩
  · rintro ⟨rfl, rfl⟩
    rfl

theorem sort_failureLabels_eq_iff {k l : String} {s t : FailureStage} :
    (failureLabels k s).sort = (failureLabels l t).sort ↔ k = l ∧ s = t := by
  constructor
  · intro h
    have hmem {x : String × String} := Labels.mem_of_sort_eq h (p := x)
    have hkind : k = l := by simpa [failureLabels] using hmem (x := ("kind", k))
    have hstage : s.text = t.text := by
      simpa [failureLabels] using hmem (x := ("stage", s.text))
    exact ⟨hkind, FailureStage.text_injective hstage⟩
  · rintro ⟨rfl, rfl⟩
    rfl

end Metrics

end MessageHooks
