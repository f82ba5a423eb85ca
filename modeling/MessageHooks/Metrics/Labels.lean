import MessageHooks.SortedMap

/-!
# Labels of metric rows

A row of a metric is named by labels, pairs of a name and a value. Their order does not matter:
sorting gives every permutation the same list.
-/

namespace MessageHooks

/-- Names and values; a name may come more than once. -/
abbrev Labels := List (String × String)

namespace Labels

def le (p q : String × String) : Bool := !KeyOrder.lt q p

def sort (labels : Labels) : Labels := labels.mergeSort le

theorem sort_perm (labels : Labels) : (sort labels).Perm labels := List.mergeSort_perm labels le

end Labels

end MessageHooks
