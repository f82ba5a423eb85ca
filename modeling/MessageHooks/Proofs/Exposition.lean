import MessageHooks.Proofs.Metrics
import Mathlib.Data.List.Sort

/-!
# What the exposition shows

Hooks finish in any order, and their measurements reach the metrics as they finish. The text that is
scraped does not tell that order, nor the order in which labels were given, nor any order in which a
table might keep its rows: it shows which measurements were taken, each section by its rows, each
row once.

* `Measurement`: everything that is put into the metrics. `Measurement.Reordered` says that one
  history of measurements has those of another, in any order, with labels in any order.
* `RowChange`: a measurement changes one row, or two; changes of rows commute
  (`Metrics.change_comm`), so histories do (`Metrics.measureAll_of_reordered`).
* `KeysOf`: the keys that a section must show for the labels it was given.
* `Metrics.Listing`: the rows in no order; putting them in order gives back the exposition
  (`Metrics.Listing.lines_eq`).
* `Metrics.exposition_shows_measurements`: all of it.
-/

namespace MessageHooks

/-! ## Labels in order -/

namespace Labels

theorem pairwise_sort (l : Labels) : (sort l).Pairwise fun p q => le p q = true :=
  List.pairwise_mergeSort KeyOrder.le_trans KeyOrder.le_total l

/-- Labels in order are the only ones of their permutations that are. -/
theorem eq_of_perm {l l' : Labels} (h : l.Perm l') (hl : l.Pairwise fun p q => le p q = true)
    (hl' : l'.Pairwise fun p q => le p q = true) : l = l' :=
  h.eq_of_pairwise (fun _ _ _ _ => KeyOrder.le_antisymm) hl hl'

theorem sort_eq_of_perm {l l' : Labels} (h : l.Perm l') : l.sort = l'.sort :=
  eq_of_perm ((sort_perm l).trans (h.trans (sort_perm l').symm)) l.pairwise_sort l'.pairwise_sort

theorem sort_eq_iff_perm {l l' : Labels} : l.sort = l'.sort ↔ l.Perm l' :=
  ⟨fun h => (sort_perm l).symm.trans (h ▸ sort_perm l'), sort_eq_of_perm⟩

theorem sort_eq_self {l : Labels} (h : l.Pairwise fun p q => le p q = true) : l.sort = l :=
  eq_of_perm (sort_perm l) l.pairwise_sort h

end Labels

/-! ## Measurements -/

/-- One measurement, as it is taken: of a run, of a message that could not be handed to a hook, or
of a single count or time under labels of the caller's choice. -/
inductive Measurement where
  | invocation (phase : Phase) (kind : String) (outcome : CallOutcome) (took : Duration)
  | encodeFailure (phase : Phase) (kind : String)
  | countInvocation (labels : Labels)
  | countAfterFailure (labels : Labels)
  | time (labels : Labels) (took : Duration)
  deriving DecidableEq

namespace Measurement

/-- The labels under which a measurement counts a run. -/
def invocationLabels? : Measurement → Option Labels
  | .invocation phase kind outcome _ => some (Metrics.invocationLabels phase kind outcome)
  | .encodeFailure phase kind => some (Metrics.invocationLabels phase kind .failed)
  | .countInvocation labels => some labels
  | .countAfterFailure _ | .time _ _ => none

/-- The labels under which a measurement observes a time. -/
def durationLabels? : Measurement → Option Labels
  | .invocation phase kind _ _ => some (Metrics.durationLabels phase kind)
  | .time labels _ => some labels
  | .encodeFailure _ _ | .countInvocation _ | .countAfterFailure _ => none

/-- The labels under which a measurement counts the failure of an after hook. -/
def failureLabels? : Measurement → Option Labels
  | .countAfterFailure labels => some labels
  | .invocation .. | .encodeFailure _ _ | .countInvocation _ | .time _ _ => none

/-- The same measurement, up to the order in which its labels are given. -/
inductive Alike : Measurement → Measurement → Prop
  | invocation (phase : Phase) (kind : String) (outcome : CallOutcome) (took : Duration) :
    Alike (.invocation phase kind outcome took) (.invocation phase kind outcome took)
  | encodeFailure (phase : Phase) (kind : String) :
    Alike (.encodeFailure phase kind) (.encodeFailure phase kind)
  | countInvocation {labels labels' : Labels} (h : labels.Perm labels') :
    Alike (.countInvocation labels) (.countInvocation labels')
  | countAfterFailure {labels labels' : Labels} (h : labels.Perm labels') :
    Alike (.countAfterFailure labels) (.countAfterFailure labels')
  | time {labels labels' : Labels} (took : Duration) (h : labels.Perm labels') :
    Alike (.time labels took) (.time labels' took)

/-- The same measurements, in any order and with the labels of each in any order. -/
def Reordered (xs xs' : List Measurement) : Prop :=
  ∃ ys, xs.Perm ys ∧ List.Forall₂ Alike ys xs'

end Measurement

namespace Metrics

def measure (m : Metrics) : Measurement → Metrics
  | .invocation phase kind outcome took => m.recordInvocation phase kind outcome took
  | .encodeFailure phase kind => m.recordEncodeFailure phase kind
  | .countInvocation labels => { m with invocations := m.invocations.increment labels }
  | .countAfterFailure labels => { m with afterFailures := m.afterFailures.increment labels }
  | .time labels took => { m with durations := m.durations.observe labels took }

def measureAll (m : Metrics) (xs : List Measurement) : Metrics := xs.foldl measure m

end Metrics

/-! ## Changes of rows -/

/-- One more in a row of a counter, or one more time in a row of the histogram. Rows are named by
labels in order. -/
inductive RowChange where
  | invocation (key : Labels)
  | duration (key : Labels) (micros : Nat)
  | afterFailure (key : Labels)

/-- The rows that a measurement changes. -/
def Measurement.changes : Measurement → List RowChange
  | .invocation phase kind outcome took =>
    [.invocation (Metrics.invocationLabels phase kind outcome).sort,
      .duration (Metrics.durationLabels phase kind).sort took.microseconds]
  | .encodeFailure phase kind => [.invocation (Metrics.invocationLabels phase kind .failed).sort]
  | .countInvocation labels => [.invocation labels.sort]
  | .countAfterFailure labels => [.afterFailure labels.sort]
  | .time labels took => [.duration labels.sort took.microseconds]

theorem Measurement.Alike.changes_eq {x x' : Measurement} (h : Alike x x') :
    x.changes = x'.changes := by
  cases h with
  | invocation | encodeFailure => rfl
  | countInvocation h | countAfterFailure h | time _ h =>
    simp only [changes, Labels.sort_eq_of_perm h]

theorem HistogramRow.observe_observe_comm (row : HistogramRow) (a b : Nat) :
    (row.observe a).observe b = (row.observe b).observe a := by
  have hsum : row.sum + UInt64.ofNat a + UInt64.ofNat b =
      row.sum + UInt64.ofNat b + UInt64.ofNat a := by
    rw [UInt64.add_assoc, UInt64.add_comm (UInt64.ofNat a), ← UInt64.add_assoc]
  -- A bucket takes each time on its own, and counts them alike.
  have hbucket : ∀ bucket : Nat × UInt64,
      (if b ≤ bucket.1 then (if a ≤ bucket.1 then bucket.2 + 1 else bucket.2) + 1
        else if a ≤ bucket.1 then bucket.2 + 1 else bucket.2) =
      if a ≤ bucket.1 then (if b ≤ bucket.1 then bucket.2 + 1 else bucket.2) + 1
        else if b ≤ bucket.1 then bucket.2 + 1 else bucket.2 := by
    intro bucket
    by_cases ha : a ≤ bucket.1 <;> by_cases hb : b ≤ bucket.1 <;> simp [ha, hb]
  simp only [observe, List.map_map, Function.comp_def, hsum, hbucket]

namespace Metrics

variable (m : Metrics)

def change (m : Metrics) : RowChange → Metrics
  | .invocation key => { m with invocations := ⟨m.invocations.rows.adjust key 0 (· + 1)⟩ }
  | .duration key micros =>
    { m with durations := ⟨m.durations.rows.adjust key .empty (·.observe micros)⟩ }
  | .afterFailure key => { m with afterFailures := ⟨m.afterFailures.rows.adjust key 0 (· + 1)⟩ }

theorem measure_eq (x : Measurement) : m.measure x = x.changes.foldl change m := by
  cases x <;> rfl

theorem measureAll_eq (xs : List Measurement) :
    m.measureAll xs = (xs.flatMap Measurement.changes).foldl change m := by
  rw [List.foldl_flatMap, measureAll, funext₂ measure_eq]

/-- **Changes of rows commute.** Numbers that wrap are added in any order, and a time falls into its
buckets whatever was there before. -/
theorem change_comm (a b : RowChange) : (m.change a).change b = (m.change b).change a := by
  cases a with
  | invocation key =>
    cases b with
    | invocation key' =>
      have hrows := m.invocations.rows.adjust_adjust_comm key key' 0
        (f := (· + 1)) (g := (· + 1)) fun _ => rfl
      simp only [change, hrows]
    | duration | afterFailure => rfl
  | duration key micros =>
    cases b with
    | duration key' micros' =>
      have hrows := m.durations.rows.adjust_adjust_comm key key' .empty
        (f := (·.observe micros)) (g := (·.observe micros'))
        fun row => row.observe_observe_comm micros' micros
      simp only [change, hrows]
    | invocation | afterFailure => rfl
  | afterFailure key =>
    cases b with
    | afterFailure key' =>
      have hrows := m.afterFailures.rows.adjust_adjust_comm key key' 0
        (f := (· + 1)) (g := (· + 1)) fun _ => rfl
      simp only [change, hrows]
    | invocation | duration => rfl

/-- **The metrics do not tell the order of measurements**, nor that of their labels. -/
theorem measureAll_of_reordered {xs xs' : List Measurement}
    (h : Measurement.Reordered xs xs') : m.measureAll xs = m.measureAll xs' := by
  obtain ⟨ys, hperm, halike⟩ := h
  have hchanges : ys.flatMap Measurement.changes = xs'.flatMap Measurement.changes := by
    induction halike generalizing xs with
    | nil => rfl
    | cons hx _ ih => rw [List.flatMap_cons, List.flatMap_cons, hx.changes_eq, ih (.refl _)]
  rw [measureAll_eq, measureAll_eq, ← hchanges]
  exact (hperm.flatMap_right _).foldl_eq' (fun a _ b _ m => m.change_comm a b) m

end Metrics

/-! ## Keys of rows -/

/-- The keys of the rows for some labels: each is a set of these labels in order, each set of them
has one key, and the keys ascend. -/
structure KeysOf (labels keys : List Labels) : Prop where
  ascending : keys.Pairwise fun k l => KeyOrder.lt k l = true
  ordered : ∀ key ∈ keys, key.Pairwise fun p q => Labels.le p q = true
  taken : ∀ key ∈ keys, ∃ l ∈ labels, key.Perm l
  complete : ∀ l ∈ labels, ∃! key, key ∈ keys ∧ key.Perm l

theorem keysOf_of_mem_iff {labels keys : List Labels}
    (hkeys : keys.Pairwise fun k l => KeyOrder.lt k l = true)
    (hmem : ∀ key, key ∈ keys ↔ ∃ l ∈ labels, key = l.sort) : KeysOf labels keys where
  ascending := hkeys
  ordered key hkey := by
    obtain ⟨l, -, rfl⟩ := (hmem key).1 hkey
    exact l.pairwise_sort
  taken key hkey := by
    obtain ⟨l, hl, rfl⟩ := (hmem key).1 hkey
    exact ⟨l, hl, Labels.sort_perm l⟩
  complete l hl := by
    refine ⟨l.sort, ⟨(hmem _).2 ⟨l, hl, rfl⟩, Labels.sort_perm l⟩, ?_⟩
    rintro key ⟨hkey, hperm⟩
    obtain ⟨l', -, rfl⟩ := (hmem key).1 hkey
    rw [← Labels.sort_eq_of_perm hperm, Labels.sort_eq_self l'.pairwise_sort]

section

variable {σ α ν : Type} (rows : σ → SortedMap Labels ν) {step : σ → α → σ}
  {labels? : α → Option Labels}

/-- A store that gets its rows one step at a time has the rows of all steps. -/
theorem mem_keys_foldl
    (hstep : ∀ s x key, key ∈ (rows (step s x)).keys ↔
      (∃ l, labels? x = some l ∧ key = l.sort) ∨ key ∈ (rows s).keys)
    (s : σ) (xs : List α) (key : Labels) :
    key ∈ (rows (xs.foldl step s)).keys ↔
      (∃ l ∈ xs.filterMap labels?, key = l.sort) ∨ key ∈ (rows s).keys := by
  induction xs generalizing s with
  | nil => simp
  | cons x xs ih =>
    rw [List.foldl_cons, ih, hstep, ← or_assoc, or_comm (a := ∃ l ∈ xs.filterMap labels?, _)]
    simp only [List.mem_filterMap, List.mem_cons, or_and_right, exists_or,
      exists_eq_left]

theorem keysOf_foldl {s : σ} (hempty : (rows s).keys = [])
    (hstep : ∀ s x key, key ∈ (rows (step s x)).keys ↔
      (∃ l, labels? x = some l ∧ key = l.sort) ∨ key ∈ (rows s).keys)
    (xs : List α) : KeysOf (xs.filterMap labels?) (rows (xs.foldl step s)).keys := by
  refine keysOf_of_mem_iff (SortedMap.keys_ascending _) fun key => ?_
  rw [mem_keys_foldl rows hstep, hempty]
  simp

end

namespace Metrics

theorem mem_invocation_keys_measure (m : Metrics) (x : Measurement) (key : Labels) :
    key ∈ (m.measure x).invocations.rows.keys ↔
      (∃ l, x.invocationLabels? = some l ∧ key = l.sort) ∨ key ∈ m.invocations.rows.keys := by
  cases x with
  | invocation | encodeFailure | countInvocation =>
    simp [measure, recordInvocation, recordEncodeFailure, Counter.increment,
      SortedMap.mem_keys_adjust_iff, Measurement.invocationLabels?]
  | countAfterFailure | time => simp [measure, Measurement.invocationLabels?]

theorem mem_duration_keys_measure (m : Metrics) (x : Measurement) (key : Labels) :
    key ∈ (m.measure x).durations.rows.keys ↔
      (∃ l, x.durationLabels? = some l ∧ key = l.sort) ∨ key ∈ m.durations.rows.keys := by
  cases x with
  | invocation | time =>
    simp [measure, recordInvocation, Histogram.observe, SortedMap.mem_keys_adjust_iff,
      Measurement.durationLabels?]
  | encodeFailure | countInvocation | countAfterFailure =>
    simp [measure, recordEncodeFailure, Measurement.durationLabels?]

theorem mem_failure_keys_measure (m : Metrics) (x : Measurement) (key : Labels) :
    key ∈ (m.measure x).afterFailures.rows.keys ↔
      (∃ l, x.failureLabels? = some l ∧ key = l.sort) ∨ key ∈ m.afterFailures.rows.keys := by
  cases x with
  | countAfterFailure =>
    simp [measure, Counter.increment, SortedMap.mem_keys_adjust_iff, Measurement.failureLabels?]
  | invocation | encodeFailure | countInvocation | time =>
    simp [measure, recordInvocation, recordEncodeFailure, Measurement.failureLabels?]

end Metrics

/-! ## Sections -/

namespace Exposition

/-- A counter's section with the rows of the given keys. -/
def counterSection (name : String) (keys : List Labels) (c : Counter) : List String :=
  announce name "counter" :: keys.map fun key => sample name (labelList key) (c.get key)

/-- A histogram's section with the rows of the given keys. -/
def histogramSection (name : String) (keys : List Labels) (h : Histogram) : List String :=
  announce name "histogram" :: keys.flatMap fun key => histogramRowLines name key (h.row key)

theorem counterLines_eq (name : String) {labels : List Labels} {c : Counter}
    (h : KeysOf labels c.rows.keys) :
    counterLines name c = counterSection name c.rows.keys c := by
  rw [counterLines, counterSection, SortedMap.keys, List.map_map]
  refine congrArg _ (List.map_congr_left fun row hrow => ?_)
  have hsort := Labels.sort_eq_self (h.ordered row.1 (List.mem_map_of_mem hrow))
  have hget : c.rows.get? row.1 = some row.2 := c.rows.get?_eq_some_iff.2 hrow
  simp [Counter.get, hsort, hget]

theorem histogramLines_eq (name : String) {labels : List Labels} {h : Histogram}
    (hkeys : KeysOf labels h.rows.keys) :
    histogramLines name h = histogramSection name h.rows.keys h := by
  rw [histogramLines, histogramSection, SortedMap.keys, List.flatMap_map]
  refine congrArg _ (List.flatMap_congr fun row hrow => ?_)
  have hsort := Labels.sort_eq_self (hkeys.ordered row.1 (List.mem_map_of_mem hrow))
  have hget : h.rows.get? row.1 = some row.2 := h.rows.get?_eq_some_iff.2 hrow
  simp [Histogram.row, hsort, hget]

end Exposition

/-- Each section of the text has one group of lines for every set of labels that it was given, in
ascending order of their keys. -/
def Metrics.Exposes (m : Metrics) (xs : List Measurement) : Prop :=
  ∃ runs times failures : List Labels,
    KeysOf (xs.filterMap Measurement.invocationLabels?) runs ∧
    KeysOf (xs.filterMap Measurement.durationLabels?) times ∧
    KeysOf (xs.filterMap Measurement.failureLabels?) failures ∧
    m.render = Exposition.ofLines (
      Exposition.counterSection Metrics.invocationsName runs m.invocations ++
        Exposition.histogramSection Metrics.durationsName times m.durations ++
        Exposition.counterSection Metrics.afterFailuresName failures m.afterFailures)

theorem Metrics.exposes_measureAll (xs : List Measurement) :
    (Metrics.empty.measureAll xs).Exposes xs := by
  let m := Metrics.empty.measureAll xs
  have hruns : KeysOf (xs.filterMap Measurement.invocationLabels?) m.invocations.rows.keys :=
    keysOf_foldl (fun m : Metrics => m.invocations.rows) rfl mem_invocation_keys_measure xs
  have htimes : KeysOf (xs.filterMap Measurement.durationLabels?) m.durations.rows.keys :=
    keysOf_foldl (fun m : Metrics => m.durations.rows) rfl mem_duration_keys_measure xs
  have hfailures : KeysOf (xs.filterMap Measurement.failureLabels?) m.afterFailures.rows.keys :=
    keysOf_foldl (fun m : Metrics => m.afterFailures.rows) rfl mem_failure_keys_measure xs
  refine ⟨_, _, _, hruns, htimes, hfailures, ?_⟩
  rw [render, lines, Exposition.counterLines_eq _ hruns, Exposition.histogramLines_eq _ htimes,
    Exposition.counterLines_eq _ hfailures]

/-! ## Rows in no order -/

section

variable {ν : Type}

theorem lookup_eq_some_iff_mem {rows : List (Labels × ν)} (h : (rows.map Prod.fst).Nodup)
    {key : Labels} {v : ν} : rows.lookup key = some v ↔ (key, v) ∈ rows := by
  induction rows with
  | nil => simp
  | cons row rows ih =>
    obtain ⟨hrow, hrows⟩ := List.nodup_cons.1 h
    rw [List.lookup_cons, List.mem_cons]
    cases hkey : key == row.1 with
    | true =>
      obtain rfl := beq_iff_eq.1 hkey
      have hother : (row.1, v) ∉ rows := fun hmem => hrow (List.mem_map.2 ⟨_, hmem, rfl⟩)
      simp [hother, Prod.ext_iff, eq_comm]
    | false =>
      have hne : (key, v) ≠ row := fun e => (beq_eq_false_iff_ne.1 hkey) (congrArg Prod.fst e)
      simp [hne, ih hrows]

/-- Rows put in order: their keys are sorted, and the row of each is looked up. -/
def inOrder (rows : List (Labels × ν)) : List (Labels × ν) :=
  ((rows.map Prod.fst).mergeSort KeyOrder.le).filterMap fun key =>
    (rows.lookup key).map fun v => (key, v)

/-- Whatever the order in which a table lists its rows, in order they are the same. -/
theorem inOrder_of_perm {rows : List (Labels × ν)} {m : SortedMap Labels ν}
    (h : rows.Perm m.toList) : inOrder rows = m.toList := by
  have hkeys : (rows.map Prod.fst).mergeSort KeyOrder.le = m.keys := by
    have hperm := (List.mergeSort_perm (rows.map Prod.fst) KeyOrder.le).trans (h.map Prod.fst)
    refine hperm.eq_of_pairwise (fun _ _ _ _ => KeyOrder.le_antisymm)
      (List.pairwise_mergeSort KeyOrder.le_trans KeyOrder.le_total _) ?_
    exact m.keys_ascending.imp KeyOrder.le_of_lt
  have hnodup : (rows.map Prod.fst).Nodup :=
    (h.map Prod.fst).nodup_iff.2 (m.keys_ascending.imp KeyOrder.ne_of_lt)
  have hlookup : ∀ row ∈ m.toList, rows.lookup row.1 = some row.2 := fun row hrow =>
    (lookup_eq_some_iff_mem hnodup).2 (h.mem_iff.2 hrow)
  rw [inOrder, hkeys, SortedMap.keys, List.filterMap_map]
  refine (List.filterMap_congr fun row hrow => ?_).trans List.filterMap_some
  simp [hlookup row hrow]

end

namespace Metrics

/-- The rows of the metrics as tables without an order may list them. -/
structure Listing (m : Metrics) where
  invocations : List (Labels × UInt64)
  durations : List (Labels × HistogramRow)
  afterFailures : List (Labels × UInt64)
  invocations_perm : invocations.Perm m.invocations.rows.toList
  durations_perm : durations.Perm m.durations.rows.toList
  afterFailures_perm : afterFailures.Perm m.afterFailures.rows.toList

namespace Listing

open Exposition

/-- The lines of the exposition, from rows in no order. -/
def lines {m : Metrics} (l : m.Listing) : List String :=
  (announce invocationsName "counter" ::
      (inOrder l.invocations).map fun row => sample invocationsName (labelList row.1) row.2) ++
    (announce durationsName "histogram" ::
      (inOrder l.durations).flatMap fun row => histogramRowLines durationsName row.1 row.2) ++
    (announce afterFailuresName "counter" ::
      (inOrder l.afterFailures).map fun row => sample afterFailuresName (labelList row.1) row.2)

theorem lines_eq {m : Metrics} (l : m.Listing) : l.lines = m.lines := by
  rw [lines, inOrder_of_perm l.invocations_perm, inOrder_of_perm l.durations_perm,
    inOrder_of_perm l.afterFailures_perm]
  rfl

end Listing

/-! ## The exposition -/

/-- **The exposition shows which measurements were taken, and nothing of their order.** It is the
same text when they are taken in another order, with labels in another order, and from whatever
order of its rows it is made. Beginning from no measurements, each section shows one group of lines
for every set of labels that was measured in it, in ascending order. -/
theorem exposition_shows_measurements :
    (∀ (m : Metrics) (xs xs' : List Measurement), Measurement.Reordered xs xs' →
      (m.measureAll xs).render = (m.measureAll xs').render) ∧
    (∀ (m : Metrics) (l : m.Listing), Exposition.ofLines l.lines = m.render) ∧
    ∀ xs, (Metrics.empty.measureAll xs).Exposes xs := by
  refine ⟨fun m xs xs' h => ?_, fun m l => ?_, exposes_measureAll⟩
  · rw [m.measureAll_of_reordered h]
  · rw [l.lines_eq, render]

/-- The failures of one hook, counted with their labels either way round and at different times,
are shown in one row. -/
theorem failures_with_labels_either_way_are_one_row :
    let login : Labels := [("kind", "Login"), ("stage", "callback")]
    let run : Measurement := .invocation .after "Login" .failed ⟨250000⟩
    let xs : List Measurement :=
      [.countAfterFailure login, run, .countAfterFailure login.reverse, .time [] ⟨2000⟩]
    let xs' : List Measurement :=
      [.time [] ⟨2000⟩, .countAfterFailure login, run, .countAfterFailure login]
    Measurement.Reordered xs xs' ∧
      (Metrics.empty.measureAll xs).render = (Metrics.empty.measureAll xs').render ∧
      (Metrics.empty.measureAll xs').afterFailures.rows.toList = [(login, 2)] := by
  intro login run xs xs'
  have hreordered : Measurement.Reordered xs xs' := by
    refine ⟨[.time [] ⟨2000⟩, .countAfterFailure login, run, .countAfterFailure login.reverse],
      by decide, ?_⟩
    exact .cons (.time _ (.refl _)) <| .cons (.countAfterFailure (.refl _)) <|
      .cons (.invocation ..) <| .cons (.countAfterFailure (List.reverse_perm _)) .nil
  have hlogin : login.sort = login := Labels.sort_eq_self (by decide)
  have hrows : (Metrics.empty.measureAll xs').afterFailures.rows.toList = [(login, 2)] := by
    change (((SortedMap.empty : SortedMap Labels UInt64).adjust login.sort 0 (· + 1)).adjust
      login.sort 0 (· + 1)).toList = _
    rw [hlogin]
    rfl
  exact ⟨hreordered, exposition_shows_measurements.1 .empty xs xs' hreordered, hrows⟩

end Metrics

end MessageHooks
