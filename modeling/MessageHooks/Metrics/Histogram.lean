import MessageHooks.Metrics.Labels
import MessageHooks.Number.Power

/-!
# Histograms of durations

A histogram keeps, for every set of labels, how many durations were observed, their sum in
microseconds, and how many of them are within each of a few fixed bounds. All numbers have 64 bits;
the sum wraps, and one duration counts for at most the largest number.
-/

namespace MessageHooks

structure Duration where
  nanoseconds : Nat
  deriving DecidableEq

namespace Duration

def zero : Duration := ⟨0⟩

/-- The largest number of microseconds that one duration counts for. -/
def microsecondLimit : Nat := 2 ^ 64 - 1

/-- Whole microseconds, cut off at the limit. -/
def microseconds (d : Duration) : Nat := min (d.nanoseconds / 1000) microsecondLimit

end Duration

/-- One row of a histogram. Each bucket is a bound and the number of durations within it. -/
structure HistogramRow where
  count : UInt64
  sum : UInt64
  buckets : List (Nat × UInt64)
  deriving DecidableEq

namespace HistogramRow

def bounds : List Nat := [100, 500, 1000, 5000, 10000, 50000, 100000, 500000, 1000000]

def empty : HistogramRow := ⟨0, 0, bounds.map fun b => (b, 0)⟩

/-- The row after one more observation of so many microseconds. -/
def observe (row : HistogramRow) (micros : Nat) : HistogramRow where
  count := row.count + 1
  sum := row.sum + UInt64.ofNat micros
  buckets := row.buckets.map fun b => (b.1, if micros ≤ b.1 then b.2 + 1 else b.2)

end HistogramRow

/-- The observed rows, by sorted labels. -/
structure Histogram where
  rows : SortedMap Labels HistogramRow

namespace Histogram

def empty : Histogram := ⟨.empty⟩

/-- The row of some labels, in whatever order they are given. -/
def row (h : Histogram) (labels : Labels) : HistogramRow :=
  (h.rows.get? labels.sort).getD .empty

def count (h : Histogram) (labels : Labels) : UInt64 := (h.row labels).count

def observe (h : Histogram) (labels : Labels) (d : Duration) : Histogram :=
  ⟨h.rows.adjust labels.sort .empty (·.observe d.microseconds)⟩

@[simp] theorem row_empty (labels : Labels) : empty.row labels = .empty := rfl

theorem row_observe_of_sort_eq (h : Histogram) {labels labels' : Labels} (d : Duration)
    (e : labels'.sort = labels.sort) :
    (h.observe labels d).row labels' = (h.row labels').observe d.microseconds := by
  simp [row, observe, e]

theorem row_observe_of_sort_ne (h : Histogram) {labels labels' : Labels} (d : Duration)
    (e : labels'.sort ≠ labels.sort) :
    (h.observe labels d).row labels' = h.row labels' := by
  simp [row, observe, SortedMap.get?_adjust_of_ne _ _ _ e]

end Histogram

end MessageHooks
