import MessageHooks.Metrics.Labels

/-!
# Counters

A counter keeps a number for every set of labels it has seen. Numbers have 64 bits and wrap.
-/

namespace MessageHooks

/-- The counted rows, by sorted labels. -/
structure Counter where
  rows : SortedMap Labels UInt64

namespace Counter

def empty : Counter := ⟨.empty⟩

/-- The number counted under some labels, in whatever order they are given. -/
def get (c : Counter) (labels : Labels) : UInt64 := (c.rows.get? labels.sort).getD 0

def increment (c : Counter) (labels : Labels) : Counter :=
  ⟨c.rows.adjust labels.sort 0 (· + 1)⟩

@[simp] theorem get_empty (labels : Labels) : empty.get labels = 0 := rfl

theorem get_increment_of_sort_eq (c : Counter) {labels labels' : Labels}
    (h : labels'.sort = labels.sort) :
    (c.increment labels).get labels' = c.get labels' + 1 := by
  simp [get, increment, h]

theorem get_increment_of_sort_ne (c : Counter) {labels labels' : Labels}
    (h : labels'.sort ≠ labels.sort) :
    (c.increment labels).get labels' = c.get labels' := by
  simp [get, increment, SortedMap.get?_adjust_of_ne _ _ _ h]

end Counter

end MessageHooks
