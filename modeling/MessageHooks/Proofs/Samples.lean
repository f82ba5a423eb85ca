import MessageHooks.Proofs.Exposition
import MessageHooks.Proofs.Scrape

/-!
# The exposition tells the metrics

What the metrics show is a sample for each of their numbers. Whatever kinds are called, each sample
stands in one line, from which it is read again, and the numbers are told by their samples. So two
states of the metrics with the same text are the same.

* `Metrics.samples`: what the metrics show, as data.
* `Metrics.Report`: what dispatching reports. `Metrics.Legible` says that labels have plain names
  and that rows of times have the fixed bounds; every report keeps this (`Metrics.Legible.record`).
* `Metrics.Legible.scrape_render`: the text is read as the samples.
* `Metrics.Legible.nodup_samples`, `Metrics.Legible.samples_inj`: no two samples are about the same
  number, and the samples tell the metrics.
* `Metrics.exposition_is_unambiguous`: all of it, for the reports of any dispatching.
-/

namespace MessageHooks

namespace Exposition

/-! ## Sections as data -/

/-- The samples of a counter, row by row. -/
def counterSamples (name : String) (c : Counter) : List Sample :=
  c.rows.toList.map fun row => ⟨name, row.1, row.2.toNat⟩

/-- The samples of a histogram's row. A bucket's bound is one more label. -/
def rowSamples (name : String) (key : Labels) (row : HistogramRow) : List Sample :=
  row.buckets.map (fun b => ⟨name ++ "_bucket", key ++ [("le", toString b.1)], b.2.toNat⟩) ++
    [⟨name ++ "_bucket", key ++ [("le", "+Inf")], row.count.toNat⟩,
      ⟨name ++ "_sum", key, row.sum.toNat⟩,
      ⟨name ++ "_count", key, row.count.toNat⟩]

def histogramSamples (name : String) (h : Histogram) : List Sample :=
  h.rows.toList.flatMap fun row => rowSamples name row.1 row.2

theorem escape_eq_self {s : String} (h : ∀ c ∈ s.toList, c ≠ '\\' ∧ c ≠ '"' ∧ c ≠ '\n') :
    escape s = s := by
  have hchars : s.toList.flatMap escapeChar = s.toList.flatMap fun c => [c] :=
    List.flatMap_congr fun c hc => by simp [escapeChar, h c hc]
  rw [← String.toList_inj, toList_escape, hchars, List.flatMap_singleton']

theorem escape_toString (n : Nat) : escape (toString n) = toString n := by
  refine escape_eq_self fun c hc => ?_
  have hdigit : c ∈ Nat.toDigits 10 n := by
    simpa [Nat.repr_eq_ofList_toDigits] using hc
  have hdecimal := Digits.isDecimal_of_mem_toDigits hdigit
  refine ⟨?_, ?_, ?_⟩ <;> rintro rfl <;> exact absurd hdecimal (by decide)

theorem labelList_concat {key : Labels} (h : key ≠ []) (p : String × String) :
    labelList (key ++ [p]) = labelList key ++ "," ++ label p := by
  induction key with
  | nil => exact absurd rfl h
  | cons q key ih =>
    cases key with
    | nil => simp [labelList, String.intercalate_cons_cons]
    | cons r key =>
      have hrest := ih (List.cons_ne_nil r key)
      rw [List.cons_append] at hrest ⊢
      rw [List.cons_append, labelList_cons_cons, hrest, labelList_cons_cons]
      simp only [String.append_assoc]

theorem labelList_ne_empty {key : Labels} (h : key ≠ []) : labelList key ≠ "" := by
  obtain ⟨p, key, rfl⟩ := List.exists_cons_of_ne_nil h
  intro e
  have hchars := congrArg String.toList e
  cases key with
  | nil => simp [labelList, toList_label] at hchars
  | cons q key => simp [labelList_cons_cons, toList_label] at hchars

/-- A bucket's bound stands beside the labels of its row as the last of them. -/
theorem bucketLabels_labelList (key : Labels) {bound : String} (h : escape bound = bound) :
    bucketLabels (labelList key) bound = labelList (key ++ [("le", bound)]) := by
  have hname : "le" ++ "=\"" = "le=\"" := by decide
  have hle : "le=\"" ++ bound ++ "\"" = label ("le", bound) := by
    rw [label, h, hname]
  unfold bucketLabels
  simp only [hle]
  by_cases hkey : key = []
  · subst hkey
    simp [labelList]
  · have hempty : (labelList key).isEmpty = false := by
      rw [Bool.eq_false_iff]
      exact fun e => labelList_ne_empty hkey (String.isEmpty_iff.1 e)
    rw [labelList_concat hkey, hempty]
    rfl

theorem counterLines_eq_map (name : String) (c : Counter) :
    counterLines name c = announce name "counter" :: (counterSamples name c).map Sample.line := by
  rw [counterLines, counterSamples, List.map_map]
  rfl

theorem histogramLines_eq_map (name : String) (h : Histogram) :
    histogramLines name h =
      announce name "histogram" :: (histogramSamples name h).map Sample.line := by
  rw [histogramLines, histogramSamples, List.map_flatMap]
  refine congrArg _ (List.flatMap_congr fun row _ => ?_)
  have hbeyond : escape "+Inf" = "+Inf" := rfl
  simp only [histogramRowLines, rowSamples, List.map_append, List.map_map, List.map_cons,
    List.map_nil, bucketLabels_labelList row.1 (escape_toString _),
    bucketLabels_labelList row.1 hbeyond]
  rfl

end Exposition

/-! ## What the metrics show -/

namespace Metrics

open Exposition

/-- All samples, in the order in which they are shown. -/
def samples (m : Metrics) : List Sample :=
  counterSamples invocationsName m.invocations ++
    histogramSamples durationsName m.durations ++
    counterSamples afterFailuresName m.afterFailures

/-- Every row has labels with plain names, and every row of times has the fixed bounds. -/
structure Legible (m : Metrics) : Prop where
  invocations : ∀ row ∈ m.invocations.rows.toList, PlainNames row.1
  durations : ∀ row ∈ m.durations.rows.toList,
    PlainNames row.1 ∧ row.2.buckets.map Prod.fst = HistogramRow.bounds
  afterFailures : ∀ row ∈ m.afterFailures.rows.toList, PlainNames row.1

/-! ## Reports -/

/-- What dispatching reports to the metrics: a run, a message that could not be handed to a hook, or
the failure of an after hook. Kinds are any texts. -/
inductive Report where
  | ran (phase : Phase) (kind : String) (outcome : CallOutcome) (took : Duration)
  | unwritten (phase : Phase) (kind : String)
  | afterFailed (kind : String) (stage : FailureStage)

def record (m : Metrics) : Report → Metrics
  | .ran phase kind outcome took => m.recordInvocation phase kind outcome took
  | .unwritten phase kind => m.recordEncodeFailure phase kind
  | .afterFailed kind stage => m.recordAfterFailure kind stage

def ofReports (reports : List Report) : Metrics := reports.foldl record .empty

theorem plainNames_sort {labels : Labels} (h : ∀ name ∈ labels.map Prod.fst, IsPlain name) :
    PlainNames labels.sort := fun _ hp =>
  h _ (List.mem_map_of_mem ((Labels.sort_perm labels).mem_iff.1 hp))

theorem plainNames_invocationLabels (phase : Phase) (kind : String) (outcome : CallOutcome) :
    PlainNames (invocationLabels phase kind outcome).sort :=
  plainNames_sort (show ∀ name ∈ ["phase", "kind", "outcome"], IsPlain name by decide)

theorem plainNames_durationLabels (phase : Phase) (kind : String) :
    PlainNames (durationLabels phase kind).sort :=
  plainNames_sort (show ∀ name ∈ ["phase", "kind"], IsPlain name by decide)

theorem plainNames_failureLabels (kind : String) (stage : FailureStage) :
    PlainNames (failureLabels kind stage).sort :=
  plainNames_sort (show ∀ name ∈ ["kind", "stage"], IsPlain name by decide)

theorem legible_empty : Legible .empty := ⟨nofun, nofun, nofun⟩

theorem plainNames_adjust {c : Counter} (h : ∀ row ∈ c.rows.toList, PlainNames row.1)
    {labels : Labels} (hlabels : PlainNames labels.sort) :
    ∀ row ∈ (c.increment labels).rows.toList, PlainNames row.1 :=
  c.rows.forall_mem_adjust (P := fun key _ => PlainNames key) h hlabels fun _ _ => hlabels

/-- No report makes the metrics illegible, whatever its kind. -/
theorem Legible.record {m : Metrics} (h : m.Legible) (r : Report) : (m.record r).Legible := by
  cases r with
  | ran phase kind outcome took =>
    have hkey := plainNames_durationLabels phase kind
    refine ⟨plainNames_adjust h.invocations (plainNames_invocationLabels phase kind outcome), ?_,
      h.afterFailures⟩
    refine m.durations.rows.forall_mem_adjust (P := fun key row => PlainNames key ∧
      row.buckets.map Prod.fst = HistogramRow.bounds) h.durations ⟨hkey, rfl⟩ fun row hrow =>
        ⟨hkey, ?_⟩
    simpa [HistogramRow.observe, Function.comp_def] using hrow.2
  | unwritten phase kind =>
    exact ⟨plainNames_adjust h.invocations (plainNames_invocationLabels phase kind .failed),
      h.durations, h.afterFailures⟩
  | afterFailed kind stage =>
    exact ⟨h.invocations, h.durations,
      plainNames_adjust h.afterFailures (plainNames_failureLabels kind stage)⟩

theorem legible_ofReports (reports : List Report) : (ofReports reports).Legible := by
  unfold ofReports
  generalize hm : Metrics.empty = m
  have h : m.Legible := hm ▸ legible_empty
  clear hm
  induction reports generalizing m with
  | nil => exact h
  | cons r reports ih => exact ih _ (h.record r)

end Metrics

/-! ## Samples tell which they are -/

namespace Exposition

/-- What tells a sample from others: its metric and its labels. -/
def Sample.id (s : Sample) : String × Labels := (s.name, s.labels)

theorem nodup_counterSamples (name : String) (c : Counter) :
    ((counterSamples name c).map Sample.id).Nodup := by
  have hids : (counterSamples name c).map Sample.id = c.rows.keys.map fun key => (name, key) := by
    rw [counterSamples, SortedMap.keys, List.map_map, List.map_map]
    rfl
  rw [hids]
  refine List.Nodup.map (fun _ _ e => (Prod.ext_iff.1 e).2) ?_
  exact c.rows.keys_ascending.imp KeyOrder.ne_of_lt

/-- The upper bounds of a row's buckets, as they are shown. -/
def bucketTexts : List String := HistogramRow.bounds.map toString ++ ["+Inf"]

/-- What tells the samples of a histogram's row from others. -/
def rowIds (name : String) (key : Labels) : List (String × Labels) :=
  bucketTexts.map (fun bound => (name ++ "_bucket", key ++ [("le", bound)])) ++
    [(name ++ "_sum", key), (name ++ "_count", key)]

theorem map_id_rowSamples (name : String) (key : Labels) {row : HistogramRow}
    (h : row.buckets.map Prod.fst = HistogramRow.bounds) :
    (rowSamples name key row).map Sample.id = rowIds name key := by
  simp [rowSamples, rowIds, bucketTexts, ← h, Sample.id, Function.comp_def]

/-- The labels of a row, from what tells one of its samples from others. -/
def rowKey (name : String) (id : String × Labels) : Labels :=
  if id.1 = name ++ "_bucket" then id.2.dropLast else id.2

theorem suffixes_ne (name : String) :
    name ++ "_sum" ≠ name ++ "_bucket" ∧ name ++ "_count" ≠ name ++ "_bucket" := by
  simp

theorem rowKey_of_mem {name : String} {key : Labels} {id : String × Labels}
    (h : id ∈ rowIds name key) : rowKey name id = key := by
  obtain ⟨hsum, hcount⟩ := suffixes_ne name
  rcases List.mem_append.1 h with hbucket | hrest
  · obtain ⟨bound, -, rfl⟩ := List.mem_map.1 hbucket
    simp [rowKey]
  · rcases List.mem_pair.1 hrest with rfl | rfl
    · exact if_neg hsum
    · exact if_neg hcount

theorem nodup_rowIds (name : String) (key : Labels) : (rowIds name key).Nodup := by
  obtain ⟨hsum, hcount⟩ := suffixes_ne name
  refine List.nodup_append'.2 ⟨?_, ?_, ?_⟩
  · exact List.Nodup.map (fun bound bound' e => by simpa using e) (by decide)
  · simp
  · refine List.disjoint_left.2 fun id hbucket hrest => ?_
    obtain ⟨bound, -, rfl⟩ := List.mem_map.1 hbucket
    rcases List.mem_pair.1 hrest with e | e
    · exact hsum (Prod.ext_iff.1 e).1.symm
    · exact hcount (Prod.ext_iff.1 e).1.symm

theorem nodup_histogramSamples (name : String) {h : Histogram}
    (hrows : ∀ row ∈ h.rows.toList, row.2.buckets.map Prod.fst = HistogramRow.bounds) :
    ((histogramSamples name h).map Sample.id).Nodup := by
  have hids : (histogramSamples name h).map Sample.id = h.rows.keys.flatMap (rowIds name) := by
    rw [histogramSamples, SortedMap.keys, List.map_flatMap, List.flatMap_map]
    exact List.flatMap_congr fun row hrow => map_id_rowSamples name row.1 (hrows row hrow)
  rw [hids, List.nodup_flatMap]
  refine ⟨fun key _ => nodup_rowIds name key, h.rows.keys_ascending.imp fun {k l} hkl => ?_⟩
  -- What tells a sample from others names the row it belongs to.
  refine List.disjoint_left.2 fun id hk hl => KeyOrder.ne_of_lt hkl ?_
  rw [← rowKey_of_mem hk, rowKey_of_mem hl]

theorem name_of_mem_counterSamples {name : String} {c : Counter} {s : Sample}
    (h : s ∈ counterSamples name c) : s.name = name := by
  obtain ⟨row, -, rfl⟩ := List.mem_map.1 h
  rfl

/-- The names under which a histogram's samples are shown. -/
def histogramNames (name : String) : List String :=
  [name ++ "_bucket", name ++ "_sum", name ++ "_count"]

theorem name_of_mem_histogramSamples {name : String} {h : Histogram} {s : Sample}
    (hs : s ∈ histogramSamples name h) : s.name ∈ histogramNames name := by
  obtain ⟨row, -, hrow⟩ := List.mem_flatMap.1 hs
  rcases List.mem_append.1 hrow with hbucket | hrest
  · obtain ⟨bucket, -, rfl⟩ := List.mem_map.1 hbucket
    exact List.mem_cons_self
  · simp only [List.mem_cons, List.not_mem_nil, or_false] at hrest
    rcases hrest with rfl | rfl | rfl <;> simp [histogramNames]

theorem counterSamples_inj {name : String} {c c' : Counter}
    (h : counterSamples name c = counterSamples name c') : c = c' := by
  have hrows : c.rows.toList = c'.rows.toList := by
    refine (List.map_inj_right fun row row' e => ?_).1 h
    simp only [Sample.mk.injEq, true_and, UInt64.toNat_inj] at e
    exact Prod.ext e.1 e.2
  exact congrArg Counter.mk (SortedMap.ext_toList hrows)

theorem rowSamples_inj {name : String} {row row' : Labels × HistogramRow}
    (h : row.2.buckets.map Prod.fst = HistogramRow.bounds)
    (h' : row'.2.buckets.map Prod.fst = HistogramRow.bounds)
    (e : rowSamples name row.1 row.2 = rowSamples name row'.1 row'.2) : row = row' := by
  obtain ⟨key, count, sum, buckets⟩ := row
  obtain ⟨key', count', sum', buckets'⟩ := row'
  obtain ⟨hbuckets, hrest⟩ := List.append_inj' e rfl
  simp only [List.cons.injEq, Sample.mk.injEq, true_and, UInt64.toNat_inj, and_true] at hrest
  obtain ⟨⟨-, rfl⟩, ⟨-, rfl⟩, rfl, -⟩ := hrest
  have hcounts : buckets.map Prod.snd = buckets'.map Prod.snd := by
    have hvalues := congrArg (List.map Sample.value) hbuckets
    rw [List.map_map, List.map_map] at hvalues
    refine (List.map_inj_right fun _ _ => UInt64.toNat_inj.1).1 ?_
    simpa [Function.comp_def] using hvalues
  have hsame : buckets = buckets' :=
    (List.zip_of_prod h hcounts).trans (List.zip_of_prod h' rfl).symm
  rw [hsame]

theorem length_rowSamples (name : String) (key : Labels) {row : HistogramRow}
    (h : row.buckets.map Prod.fst = HistogramRow.bounds) :
    (rowSamples name key row).length = HistogramRow.bounds.length + 3 := by
  simp [rowSamples, ← h]

theorem histogramSamples_inj {name : String} {h h' : Histogram}
    (hrows : ∀ row ∈ h.rows.toList, row.2.buckets.map Prod.fst = HistogramRow.bounds)
    (hrows' : ∀ row ∈ h'.rows.toList, row.2.buckets.map Prod.fst = HistogramRow.bounds)
    (e : histogramSamples name h = histogramSamples name h') : h = h' := by
  suffices hsame : h.rows.toList = h'.rows.toList from
    congrArg Histogram.mk (SortedMap.ext_toList hsame)
  unfold histogramSamples at e
  -- All rows have as many samples, so the samples can be cut into rows.
  generalize h.rows.toList = rows at *
  generalize h'.rows.toList = rows' at *
  induction rows generalizing rows' with
  | nil =>
    cases rows' with
    | nil => rfl
    | cons row' rows' => simp [rowSamples] at e
  | cons row rows ih =>
    cases rows' with
    | nil => simp [rowSamples] at e
    | cons row' rows' =>
      obtain ⟨hrow, hrest⟩ := List.forall_mem_cons.1 hrows
      obtain ⟨hrow', hrest'⟩ := List.forall_mem_cons.1 hrows'
      obtain ⟨hfirst, hothers⟩ := List.append_inj e <|
        (length_rowSamples name row.1 hrow).trans (length_rowSamples name row'.1 hrow').symm
      rw [rowSamples_inj hrow hrow' hfirst, ih hrest rows' hrest' hothers]

theorem isPlain_counterSamples {name : String}
    (hname : '\x7b' ∉ name.toList ∧ '\n' ∉ name.toList) {c : Counter}
    (h : ∀ row ∈ c.rows.toList, PlainNames row.1) : ∀ s ∈ counterSamples name c, s.IsPlain := by
  intro s hs
  obtain ⟨row, hrow, rfl⟩ := List.mem_map.1 hs
  exact ⟨hname, h row hrow⟩

theorem isPlain_rowSamples {name : String}
    (hname : ∀ n ∈ histogramNames name, '\x7b' ∉ n.toList ∧ '\n' ∉ n.toList) {key : Labels}
    (hkey : PlainNames key) (row : HistogramRow) : ∀ s ∈ rowSamples name key row, s.IsPlain := by
  have hbound : ∀ bound : String, PlainNames (key ++ [("le", bound)]) := fun bound p hp => by
    rcases List.mem_append.1 hp with hp | hp
    · exact hkey p hp
    · obtain rfl := List.mem_singleton.1 hp
      show IsPlain "le"
      decide
  simp only [histogramNames, List.forall_mem_cons] at hname
  obtain ⟨hbucket, hsum, hcount, -⟩ := hname
  intro s hs
  rcases List.mem_append.1 hs with hs | hs
  · obtain ⟨bucket, -, rfl⟩ := List.mem_map.1 hs
    exact ⟨hbucket, hbound _⟩
  · simp only [List.mem_cons, List.not_mem_nil, or_false] at hs
    rcases hs with rfl | rfl | rfl
    · exact ⟨hbucket, hbound _⟩
    · exact ⟨hsum, hkey⟩
    · exact ⟨hcount, hkey⟩

/-- Samples that are alike by their names stay or go together. -/
theorem filter_of_names {p : String → Bool} {b : Bool} {samples : List Sample}
    (h : ∀ s ∈ samples, p s.name = b) :
    samples.filter (fun s => p s.name) = if b then samples else [] := by
  rw [List.filter_congr h]
  cases b with
  | false => exact List.filter_false _
  | true => exact List.filter_true _

theorem disjoint_ids {samples samples' : List Sample} {name : String}
    (h : ∀ s ∈ samples, s.name ≠ name) (h' : ∀ s ∈ samples', s.name = name) :
    (samples.map Sample.id).Disjoint (samples'.map Sample.id) := by
  refine List.disjoint_left.2 fun id hid hid' => ?_
  obtain ⟨s, hs, rfl⟩ := List.mem_map.1 hid
  obtain ⟨s', hs', e⟩ := List.mem_map.1 hid'
  exact h s hs ((Prod.ext_iff.1 e).1.symm.trans (h' s' hs'))

end Exposition

namespace Metrics

open Exposition

variable {m m' : Metrics}

theorem Legible.isPlain_invocations (h : m.Legible) :
    ∀ s ∈ counterSamples invocationsName m.invocations, s.IsPlain :=
  isPlain_counterSamples (by decide) h.invocations

theorem Legible.isPlain_durations (h : m.Legible) :
    ∀ s ∈ histogramSamples durationsName m.durations, s.IsPlain := by
  intro s hs
  obtain ⟨row, hrow, hs⟩ := List.mem_flatMap.1 hs
  exact isPlain_rowSamples (by decide) (h.durations row hrow).1 row.2 s hs

theorem Legible.isPlain_afterFailures (h : m.Legible) :
    ∀ s ∈ counterSamples afterFailuresName m.afterFailures, s.IsPlain :=
  isPlain_counterSamples (by decide) h.afterFailures

theorem lines_eq (m : Metrics) : m.lines =
    announce invocationsName "counter" ::
        (counterSamples invocationsName m.invocations).map Sample.line ++
      announce durationsName "histogram" ::
        (histogramSamples durationsName m.durations).map Sample.line ++
      announce afterFailuresName "counter" ::
        (counterSamples afterFailuresName m.afterFailures).map Sample.line := by
  rw [lines, counterLines_eq_map, histogramLines_eq_map, counterLines_eq_map]

theorem Legible.break_notMem_lines (h : m.Legible) : ∀ line ∈ m.lines, '\n' ∉ line.toList := by
  rw [lines_eq]
  refine List.forall_mem_append.2 ⟨List.forall_mem_append.2 ⟨?_, ?_⟩, ?_⟩
  · exact break_notMem_section (by decide) h.isPlain_invocations
  · exact break_notMem_section (by decide) h.isPlain_durations
  · exact break_notMem_section (by decide) h.isPlain_afterFailures

theorem Legible.isPlain_samples (h : m.Legible) : ∀ s ∈ m.samples, s.IsPlain :=
  List.forall_mem_append.2 ⟨List.forall_mem_append.2 ⟨h.isPlain_invocations,
    h.isPlain_durations⟩, h.isPlain_afterFailures⟩

/-- **The text is read as the samples that it shows.** -/
theorem Legible.scrape_render (h : m.Legible) : scrape m.render = m.samples := by
  rw [render, scrape_ofLines h.break_notMem_lines, lines_eq, List.map_append, List.map_append,
    List.filterMap_append, List.filterMap_append,
    filterMap_section (by decide) h.isPlain_invocations,
    filterMap_section (by decide) h.isPlain_durations,
    filterMap_section (by decide) h.isPlain_afterFailures, samples]

theorem Legible.nodup_samples (h : m.Legible) : (m.samples.map Sample.id).Nodup := by
  have hruns : ∀ s ∈ counterSamples invocationsName m.invocations, s.name = invocationsName :=
    fun s hs => name_of_mem_counterSamples hs
  have hfailures : ∀ s ∈ counterSamples afterFailuresName m.afterFailures,
      s.name = afterFailuresName := fun s hs => name_of_mem_counterSamples hs
  have htimes : ∀ s ∈ histogramSamples durationsName m.durations,
      s.name ≠ invocationsName ∧ s.name ≠ afterFailuresName := fun s hs => by
    have hnames : ∀ n ∈ histogramNames durationsName,
        n ≠ invocationsName ∧ n ≠ afterFailuresName := by decide
    exact hnames _ (name_of_mem_histogramSamples hs)
  have hfirst : ∀ s ∈ counterSamples invocationsName m.invocations ++
      histogramSamples durationsName m.durations, s.name ≠ afterFailuresName :=
    List.forall_mem_append.2 ⟨fun s hs => by rw [hruns s hs]; decide, fun s hs => (htimes s hs).2⟩
  rw [samples, List.map_append, List.nodup_append']
  refine ⟨?_, nodup_counterSamples _ _, disjoint_ids hfirst hfailures⟩
  rw [List.map_append, List.nodup_append']
  exact ⟨nodup_counterSamples _ _,
    nodup_histogramSamples _ fun row hrow => (h.durations row hrow).2,
    List.disjoint_symm (disjoint_ids (fun s hs => (htimes s hs).1) hruns)⟩

/-- Each section's samples are found by their names. -/
theorem filter_samples (m : Metrics) :
    m.samples.filter (fun s => s.name == invocationsName) =
        counterSamples invocationsName m.invocations ∧
      m.samples.filter (fun s => (histogramNames durationsName).contains s.name) =
        histogramSamples durationsName m.durations ∧
      m.samples.filter (fun s => s.name == afterFailuresName) =
        counterSamples afterFailuresName m.afterFailures := by
  have hsections (p : String → Bool) (b : Bool)
      (hp : ∀ n ∈ histogramNames durationsName, p n = b) :
      m.samples.filter (fun s => p s.name) =
        (if p invocationsName then counterSamples invocationsName m.invocations else []) ++
          (if b then histogramSamples durationsName m.durations else []) ++
          if p afterFailuresName then counterSamples afterFailuresName m.afterFailures else [] := by
    rw [samples, List.filter_append, List.filter_append,
      filter_of_names fun s hs => congrArg p (name_of_mem_counterSamples hs),
      filter_of_names fun s hs => hp s.name (name_of_mem_histogramSamples hs),
      filter_of_names fun s hs => congrArg p (name_of_mem_counterSamples hs)]
  refine ⟨(hsections (· == invocationsName) false (by decide)).trans ?_,
    (hsections (histogramNames durationsName).contains true (by decide)).trans ?_,
    (hsections (· == afterFailuresName) false (by decide)).trans ?_⟩
  · rw [if_pos (by decide), if_neg (by decide), if_neg (by decide), List.append_nil,
      List.append_nil]
  · rw [if_neg (by decide), if_pos rfl, if_neg (by decide), List.nil_append, List.append_nil]
  · rw [if_neg (by decide), if_neg (by decide), if_pos (by decide), List.nil_append,
      List.nil_append]

theorem Legible.samples_inj (h : m.Legible) (h' : m'.Legible) (e : m.samples = m'.samples) :
    m = m' := by
  obtain ⟨hruns, htimes, hfailures⟩ := filter_samples m
  rw [e] at hruns htimes hfailures
  obtain ⟨hruns', htimes', hfailures'⟩ := filter_samples m'
  have hinvocations : m.invocations = m'.invocations :=
    counterSamples_inj (hruns.symm.trans hruns')
  have hdurations : m.durations = m'.durations :=
    histogramSamples_inj (fun row hrow => (h.durations row hrow).2)
      (fun row hrow => (h'.durations row hrow).2) (htimes.symm.trans htimes')
  have hafterFailures : m.afterFailures = m'.afterFailures :=
    counterSamples_inj (hfailures.symm.trans hfailures')
  cases m
  cases m'
  cases hinvocations
  cases hdurations
  cases hafterFailures
  rfl

theorem Legible.line_mem (h : m.Legible) {s : Sample} (hs : s ∈ m.samples) :
    s.line.toList ∈ m.render.toList.splitOn '\n' := by
  have hline : s.line ∈ m.lines := by
    rw [lines_eq]
    simp only [samples, List.mem_append] at hs
    simp only [List.mem_append, List.mem_cons]
    rcases hs with (hs | hs) | hs
    · exact .inl (.inl (.inr (List.mem_map_of_mem hs)))
    · exact .inl (.inr (.inr (List.mem_map_of_mem hs)))
    · exact .inr (.inr (List.mem_map_of_mem hs))
  rw [render, splitOn_ofLines h.break_notMem_lines]
  exact List.mem_append_left _ (List.mem_map_of_mem hline)

/-- **Each sample occupies one line**: no other line is read as it. -/
theorem Legible.filter_lines (h : m.Legible) {s : Sample} (hs : s ∈ m.samples) :
    (m.render.toList.splitOn '\n').filter (fun line => readSample? line == some s) =
      [s.line.toList] := by
  -- One line at most is read as the sample, for it is read only once in all.
  have hcount : m.samples.count s = 1 :=
    List.count_eq_one_of_mem (h.nodup_samples.of_map Sample.id) hs
  rw [← h.scrape_render, scrape, List.count_filterMap, List.countP_eq_length_filter] at hcount
  obtain ⟨line, hlines⟩ := List.length_eq_one_iff.1 hcount
  have hread : readSample? s.line.toList = some s :=
    Sample.readSample?_line (h.isPlain_samples s hs)
  have hmem : s.line.toList ∈
      (m.render.toList.splitOn '\n').filter (fun line => readSample? line == some s) :=
    List.mem_filter.2 ⟨h.line_mem hs, beq_iff_eq.2 hread⟩
  rw [hlines] at hmem ⊢
  rw [List.mem_singleton.1 hmem]

/-! ## The exposition -/

/-- **The exposition is unambiguous**, whatever the kinds in the reports are called. Each sample
occupies one line, which is read as this sample, with the values of its labels as they were before
they were escaped. Nothing else in the text is read as a sample, and no two samples have the same
name and the same labels. So the text tells every number of the metrics: two of them have the same
text only if they are the same. -/
theorem exposition_is_unambiguous :
    (∀ reports, ∀ s ∈ (ofReports reports).samples,
      ((ofReports reports).render.toList.splitOn '\n').filter
        (fun line => readSample? line == some s) = [s.line.toList]) ∧
    (∀ reports, scrape (ofReports reports).render = (ofReports reports).samples ∧
      ((ofReports reports).samples.map Sample.id).Nodup) ∧
    ∀ reports reports', (ofReports reports).render = (ofReports reports').render ↔
      ofReports reports = ofReports reports' := by
  refine ⟨fun reports s hs => (legible_ofReports reports).filter_lines hs, fun reports =>
    ⟨(legible_ofReports reports).scrape_render, (legible_ofReports reports).nodup_samples⟩,
    fun reports reports' => ⟨fun h => ?_, fun h => by rw [h]⟩⟩
  have hsamples := congrArg scrape h
  rw [(legible_ofReports reports).scrape_render, (legible_ofReports reports').scrape_render]
    at hsamples
  exact (legible_ofReports reports).samples_inj (legible_ofReports reports') hsamples

/-- A kind that looks like a sample is the value of a label, and no sample. -/
theorem forged_kind_is_a_value :
    let kind := "Rpc\"\x7d 7\nforged\x7bkind=\"x"
    let m := ofReports [.afterFailed kind .callback]
    let s : Sample := ⟨afterFailuresName, [("kind", kind), ("stage", "callback")], 1⟩
    s ∈ m.samples ∧ (m.render.toList.splitOn '\n').filter (fun line => readSample? line == some s) =
      [s.line.toList] := by
  intro kind m s
  have hsort : (failureLabels kind .callback).sort = failureLabels kind .callback :=
    Labels.sort_eq_self (by decide)
  have hrows : m.afterFailures.rows.toList = [(failureLabels kind .callback, 1)] := by
    change ((SortedMap.empty : SortedMap Labels UInt64).adjust
      (failureLabels kind .callback).sort 0 (· + 1)).toList = _
    rw [hsort]
    rfl
  have hs : s ∈ m.samples := by
    refine List.mem_append_right _ ?_
    rw [counterSamples, hrows]
    exact List.mem_singleton_self _
  exact ⟨hs, exposition_is_unambiguous.1 _ s hs⟩

end Metrics

end MessageHooks
