import MessageHooks.Proofs.Exposition
import Mathlib.Algebra.GroupWithZero.Nat

/-!
# What a histogram counts

A row of a histogram has eleven numbers, and each is changed on its own by every observation. They
tell the same history: how many times were observed under the row's labels, their sum, and how many
of them are within each bound. So the buckets that are shown ascend with their bounds up to the
count, as long as the count has not wrapped.

* `Histogram.timesUnder`: the times that a history has under some labels, given in any order.
* `HistogramRow.ofTimes`: the row that such times make.
* `Histogram.row_observeAll`: after any history, each row is that of its times.
* `Exposition.groupLines`: the lines of a row, by the numbers that they show.
* `HistogramRow.TellsOf`: a row's numbers and lines are those of some times.
* `Histogram.rows_tell_of_history`: every row tells of the times observed under its labels.
-/

namespace MessageHooks

/-! ## Rows -/

namespace HistogramRow

/-- The row of some times: how many they are, their sum, and how many are within each bound. Its
numbers have 64 bits and wrap. -/
def ofTimes (times : List Nat) : HistogramRow where
  count := UInt64.ofNat times.length
  sum := UInt64.ofNat times.sum
  buckets := bounds.map fun b => (b, UInt64.ofNat (times.countP fun t => t ≤ b))

theorem observe_ofTimes (times : List Nat) (t : Nat) :
    (ofTimes times).observe t = ofTimes (times ++ [t]) := by
  have hbucket : ∀ b : Nat,
      (if t ≤ b then UInt64.ofNat (times.countP fun t => t ≤ b) + 1
        else UInt64.ofNat (times.countP fun t => t ≤ b)) =
      UInt64.ofNat ((times ++ [t]).countP fun t => t ≤ b) := by
    intro b
    by_cases h : t ≤ b
    · simp [h, UInt64.ofNat_add]
    · simp [h]
  simp only [observe, ofTimes, List.map_map, Function.comp_def, hbucket, List.length_append,
    List.length_singleton, List.sum_append, List.sum_singleton, UInt64.ofNat_add]
  rfl

/-- Times that are observed one after the other are added to those that were. -/
theorem foldl_observe_ofTimes (times later : List Nat) :
    later.foldl observe (ofTimes times) = ofTimes (times ++ later) := by
  induction later generalizing times with
  | nil => rw [List.append_nil, List.foldl_nil]
  | cons t later ih => rw [List.foldl_cons, observe_ofTimes, ih, List.append_assoc,
      List.singleton_append]

end HistogramRow

/-! ## Histories -/

namespace Histogram

/-- Observe durations one after the other, each under its labels. -/
def observeAll (h : Histogram) (history : List (Labels × Duration)) : Histogram :=
  history.foldl (fun h o => h.observe o.1 o.2) h

/-- The times, in microseconds, of the observations that have some labels, in whatever order. -/
def timesUnder (labels : Labels) (history : List (Labels × Duration)) : List Nat :=
  (history.filter fun o => o.1.Perm labels).map fun o => o.2.microseconds

theorem row_observe_of_not_perm (h : Histogram) {labels labels' : Labels} (d : Duration)
    (hne : ¬ labels'.Perm labels) : (h.observe labels' d).row labels = h.row labels :=
  h.row_observe_of_sort_ne d fun e => hne (Labels.sort_eq_iff_perm.1 e).symm

theorem row_observe (h : Histogram) (labels : Labels) (o : Labels × Duration) :
    (h.observe o.1 o.2).row labels =
      (timesUnder labels [o]).foldl HistogramRow.observe (h.row labels) := by
  by_cases hperm : o.1.Perm labels
  · have htimes : timesUnder labels [o] = [o.2.microseconds] := by simp [timesUnder, hperm]
    rw [htimes, h.row_observe_of_sort_eq o.2 (Labels.sort_eq_of_perm hperm.symm)]
    rfl
  · have htimes : timesUnder labels [o] = [] := by simp [timesUnder, hperm]
    rw [htimes, h.row_observe_of_not_perm o.2 hperm]
    rfl

theorem row_observeAll (h : Histogram) (history : List (Labels × Duration)) (labels : Labels) :
    (h.observeAll history).row labels =
      (timesUnder labels history).foldl HistogramRow.observe (h.row labels) := by
  induction history generalizing h with
  | nil => rfl
  | cons o history ih =>
    have htimes : timesUnder labels (o :: history) =
        timesUnder labels [o] ++ timesUnder labels history := by
      rw [timesUnder, timesUnder, timesUnder, ← List.map_append, ← List.filter_append,
        List.singleton_append]
    show ((h.observe o.1 o.2).observeAll history).row labels = _
    rw [ih, row_observe, htimes, List.foldl_append]

/-- After any history a row is that of its times. -/
theorem row_observeAll_empty (history : List (Labels × Duration)) (labels : Labels) :
    (empty.observeAll history).row labels = .ofTimes (timesUnder labels history) := by
  have hempty : empty.row labels = .ofTimes [] := rfl
  rw [row_observeAll, hempty, HistogramRow.foldl_observe_ofTimes, List.nil_append]

theorem keysOf_observeAll (history : List (Labels × Duration)) :
    KeysOf (history.map Prod.fst) (empty.observeAll history).rows.keys := by
  have hstep : ∀ (h : Histogram) (o : Labels × Duration) (key : Labels),
      key ∈ (h.observe o.1 o.2).rows.keys ↔
        (∃ l, some o.1 = some l ∧ key = l.sort) ∨ key ∈ h.rows.keys := by
    intro h o key
    simp [observe, SortedMap.mem_keys_adjust_iff]
  have hkeys : KeysOf (history.filterMap fun o => some o.1) (empty.observeAll history).rows.keys :=
    keysOf_foldl (fun h : Histogram => h.rows) rfl hstep history
  rwa [List.filterMap_eq_map'] at hkeys

end Histogram

/-! ## Shown rows -/

/-- The lines of a row with labels in order: the numbers within each bound, the number of all as
that of the bucket without bound, the sum, and the number of all once more. -/
def Exposition.groupLines (name : String) (key : Labels) (within : List UInt64)
    (sum all : UInt64) : List String :=
  List.zipWith (fun (b : Nat) n => sample (name ++ "_bucket")
      (bucketLabels (labelList key) (toString b)) n) HistogramRow.bounds within ++
    [sample (name ++ "_bucket") (bucketLabels (labelList key) "+Inf") all,
      sample (name ++ "_sum") (labelList key) sum,
      sample (name ++ "_count") (labelList key) all]

namespace HistogramRow

/-- The numbers within the bounds, in the order of these. -/
def within (row : HistogramRow) : List UInt64 := row.buckets.map Prod.snd

theorem within_ofTimes (times : List Nat) :
    (ofTimes times).within = bounds.map fun b => UInt64.ofNat (times.countP fun t => t ≤ b) := by
  simp [within, ofTimes, Function.comp_def]

theorem ofNat_le_ofNat {a b : Nat} (hle : a ≤ b) (hb : b < 2 ^ 64) :
    UInt64.ofNat a ≤ UInt64.ofNat b := by
  rw [UInt64.le_iff_toNat_le, UInt64.toNat_ofNat_of_lt' (Nat.lt_of_le_of_lt hle hb),
    UInt64.toNat_ofNat_of_lt' hb]
  exact hle

/-- A row tells of some times: how many they are, their sum, and how many are within each bound,
modulo `2 ^ 64`; and this is what its lines show, from the lowest bound to the count. -/
structure TellsOf (row : HistogramRow) (times : List Nat) : Prop where
  count : row.count = UInt64.ofNat times.length
  sum : row.sum = UInt64.ofNat times.sum
  buckets : row.buckets =
    bounds.map fun b => (b, UInt64.ofNat (times.countP fun t => t ≤ b))
  shown : ∀ name key, Exposition.histogramRowLines name key row =
    Exposition.groupLines name key row.within row.sum row.count
  /-- The numbers within the bounds ascend with these, as long as no number wraps. -/
  ascending : times.length < 2 ^ 64 → row.within.Pairwise (· ≤ ·)
  /-- The number within the last bound, as that within any other, is at most the number of all. -/
  le_count : times.length < 2 ^ 64 → ∀ n ∈ row.within, n ≤ row.count

theorem tellsOf_ofTimes (times : List Nat) : (ofTimes times).TellsOf times where
  count := rfl
  sum := rfl
  buckets := rfl
  shown name key := by
    rw [Exposition.groupLines, within_ofTimes, List.zipWith_map_right, List.zipWith_self]
    simp only [Exposition.histogramRowLines, ofTimes, List.map_map, Function.comp_def]
  ascending hlt := by
    have hbounds : bounds.Pairwise (· < ·) := by decide
    rw [within_ofTimes, List.pairwise_map]
    refine hbounds.imp fun {b c} hbc => ofNat_le_ofNat ?_
      (Nat.lt_of_le_of_lt List.countP_le_length hlt)
    refine List.countP_mono_left fun t _ ht => ?_
    simp only [decide_eq_true_eq] at ht ⊢
    omega
  le_count hlt n hn := by
    rw [within_ofTimes] at hn
    obtain ⟨b, -, rfl⟩ := List.mem_map.1 hn
    exact ofNat_le_ofNat List.countP_le_length hlt

end HistogramRow

namespace Histogram

/-- **A histogram counts its history.** Whatever is observed under whatever labels, the row of some
labels tells of the times observed under them, given in whatever order. The section that is shown
has one group of lines for each set of labels in the history, and so one row. An observation under
other labels changes nothing of a row. -/
theorem rows_tell_of_history (history : List (Labels × Duration)) :
    let h := empty.observeAll history
    (∀ labels, (h.row labels).TellsOf (timesUnder labels history)) ∧
    (KeysOf (history.map Prod.fst) h.rows.keys ∧
      ∀ name, Exposition.histogramLines name h =
        Exposition.histogramSection name h.rows.keys h) ∧
    ∀ (v : Histogram) (labels labels' : Labels) (d : Duration), ¬ labels'.Perm labels →
      (v.observe labels' d).row labels = v.row labels := by
  refine ⟨fun labels => ?_, ⟨keysOf_observeAll history, fun name =>
    Exposition.histogramLines_eq name (keysOf_observeAll history)⟩,
    fun v labels labels' d hne => v.row_observe_of_not_perm d hne⟩
  rw [row_observeAll_empty]
  exact HistogramRow.tellsOf_ofTimes _

/-- Two times with their labels either way round, one of which is beyond every bound; a third, under
other labels, is told of elsewhere. -/
theorem slow_run_is_beyond_all_bounds :
    let labels : Labels := [("kind", "Rpc"), ("phase", "before")]
    let history : List (Labels × Duration) :=
      [(labels, ⟨250999⟩), (labels.reverse, ⟨3000000000⟩)]
    let h := empty.observeAll history
    (h.row labels).count = 2 ∧ (h.row labels).sum = 3000250 ∧
      (h.row labels).within = [0, 1, 1, 1, 1, 1, 1, 1, 1] ∧
      (∀ n ∈ (h.row labels).within, n ≤ (h.row labels).count) ∧
      (h.observe [] ⟨1000⟩).row labels = h.row labels := by
  intro labels history h
  have htimes : timesUnder labels history = [250, 3000000] := by decide
  obtain ⟨hrows, -, hother⟩ := rows_tell_of_history history
  have htells := hrows labels
  rw [htimes] at htells
  refine ⟨htells.count, htells.sum, ?_, htells.le_count (by decide),
    hother h labels [] ⟨1000⟩ (by decide)⟩
  rw [HistogramRow.within, htells.buckets]
  rfl

end Histogram

end MessageHooks
