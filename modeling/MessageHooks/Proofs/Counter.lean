import MessageHooks.Proofs.Exposition

/-!
# What a counter counts

A counter takes any list of labels, also one that repeats a name or a whole label. All permutations
of a list name one number, which counts the calls under any of them; lists that are no permutations
of each other name numbers that never meet, however alike their labels are. So a counter keeps one
number for each multiset of labels.

* `Counter.callsUnder`: how many calls a history has under some labels, given in any order.
* `Counter.get_countAll`: after any history, each number has grown by the calls under its labels.
* `Counter.OneRow`, `Counter.TwoRows`: two lists of labels name one number, or two.
* `Counter.rows_count_history`: every number counts the calls of its history.
-/

namespace MessageHooks

namespace Counter

/-! ## Histories -/

/-- Count under several lists of labels, one after the other. -/
def countAll (c : Counter) (history : List Labels) : Counter := history.foldl increment c

/-- How many calls of a history have some labels, in whatever order. -/
def callsUnder (labels : Labels) (history : List Labels) : Nat :=
  history.countP fun l => l.Perm labels

theorem callsUnder_cons (labels l : Labels) (history : List Labels) :
    callsUnder labels (l :: history) =
      callsUnder labels history + if l.Perm labels then 1 else 0 := by
  simp only [callsUnder, List.countP_cons, decide_eq_true_eq]

theorem get_increment_eq_add (c : Counter) (l labels : Labels) :
    (c.increment l).get labels =
      c.get labels + UInt64.ofNat (if l.Perm labels then 1 else 0) := by
  rw [get_increment]
  simp only [Labels.sort_eq_iff_perm]

/-- A history adds to each number the calls under its labels. -/
theorem get_countAll (c : Counter) (history : List Labels) (labels : Labels) :
    (c.countAll history).get labels =
      c.get labels + UInt64.ofNat (callsUnder labels history) := by
  induction history generalizing c with
  | nil => exact (UInt64.add_zero _).symm
  | cons l history ih =>
    calc ((c.increment l).countAll history).get labels
      _ = (c.increment l).get labels + UInt64.ofNat (callsUnder labels history) := ih _
      _ = c.get labels + (UInt64.ofNat (if l.Perm labels then 1 else 0) +
          UInt64.ofNat (callsUnder labels history)) := by
        rw [get_increment_eq_add, UInt64.add_assoc]
      _ = c.get labels + UInt64.ofNat (callsUnder labels (l :: history)) := by
        rw [← UInt64.ofNat_add, Nat.add_comm, ← callsUnder_cons]

/-- From no calls on, each number is that of the calls under its labels. -/
theorem get_countAll_empty (history : List Labels) (labels : Labels) :
    (empty.countAll history).get labels = UInt64.ofNat (callsUnder labels history) := by
  rw [get_countAll, get_empty, UInt64.zero_add]

theorem keysOf_countAll (history : List Labels) :
    KeysOf history (empty.countAll history).rows.keys := by
  have hstep : ∀ (c : Counter) (l key : Labels), key ∈ (c.increment l).rows.keys ↔
      (∃ l', some l = some l' ∧ key = l'.sort) ∨ key ∈ c.rows.keys := by
    intro c l key
    simp [increment, SortedMap.mem_keys_adjust_iff]
  have hkeys : KeysOf (history.filterMap some) (empty.countAll history).rows.keys :=
    keysOf_foldl (fun c : Counter => c.rows) rfl hstep history
  rwa [List.filterMap_some] at hkeys

/-! ## Numbers that are shared -/

/-- Two lists of labels name one number: under either the same is read, and counting under either
is the same. -/
structure OneRow (labels labels' : Labels) : Prop where
  get_eq : ∀ c : Counter, c.get labels = c.get labels'
  increment_eq : ∀ c : Counter, c.increment labels = c.increment labels'

/-- Two lists of labels name two numbers: what is counted under one is not read under the other,
whatever was counted before. -/
structure TwoRows (labels labels' : Labels) : Prop where
  left : ∀ c : Counter, (c.increment labels).get labels' = c.get labels'
  right : ∀ c : Counter, (c.increment labels').get labels = c.get labels

theorem oneRow_of_perm {labels labels' : Labels} (h : labels.Perm labels') :
    OneRow labels labels' where
  get_eq c := by rw [get, get, Labels.sort_eq_of_perm h]
  increment_eq c := by rw [increment, increment, Labels.sort_eq_of_perm h]

theorem twoRows_of_not_perm {labels labels' : Labels} (h : ¬ labels.Perm labels') :
    TwoRows labels labels' where
  left c := c.get_increment_of_sort_ne fun e => h (Labels.sort_eq_iff_perm.1 e).symm
  right c := c.get_increment_of_sort_ne fun e => h (Labels.sort_eq_iff_perm.1 e)

/-- One number is not two: the first call shows it. -/
theorem OneRow.not_twoRows {labels labels' : Labels} (h : OneRow labels labels') :
    ¬ TwoRows labels labels' := by
  intro htwo
  have hone : (empty.increment labels).get labels' = 1 := by
    rw [← h.get_eq, empty.get_increment_of_sort_eq rfl, get_empty]
    rfl
  have hzero : (empty.increment labels).get labels' = 0 := htwo.left empty
  exact absurd (hone.symm.trans hzero) (by decide)

theorem oneRow_iff_perm {labels labels' : Labels} :
    OneRow labels labels' ↔ labels.Perm labels' := by
  refine ⟨fun h => ?_, oneRow_of_perm⟩
  by_contra hne
  exact h.not_twoRows (twoRows_of_not_perm hne)

theorem twoRows_iff_not_perm {labels labels' : Labels} :
    TwoRows labels labels' ↔ ¬ labels.Perm labels' :=
  ⟨fun h hperm => (oneRow_of_perm hperm).not_twoRows h, twoRows_of_not_perm⟩

/-! ## What is counted -/

/-- **A counter counts its history.** Whatever is counted under whatever labels, the number read
under some labels is, modulo `2 ^ 64`, how many calls had them in any order, and zero if none had.
There is one row for each set of labels in the history. Two lists of labels name one number if they
are permutations of each other, and otherwise two. -/
theorem rows_count_history :
    (∀ (history : List Labels) (labels : Labels),
      let c := empty.countAll history
      (c.get labels).toNat = callsUnder labels history % 2 ^ 64 ∧
      ((∀ l ∈ history, ¬ l.Perm labels) → c.get labels = 0)) ∧
    (∀ history : List Labels, KeysOf history (empty.countAll history).rows.keys) ∧
    ∀ labels labels' : Labels,
      (OneRow labels labels' ↔ labels.Perm labels') ∧
      (TwoRows labels labels' ↔ ¬ labels.Perm labels') := by
  refine ⟨fun history labels => ⟨?_, fun hnone => ?_⟩, keysOf_countAll,
    fun labels labels' => ⟨oneRow_iff_perm, twoRows_iff_not_perm⟩⟩
  · rw [get_countAll_empty, UInt64.toNat_ofNat']
  · have hcalls : callsUnder labels history = 0 :=
      List.countP_eq_zero.2 fun l hl => by simpa using hnone l hl
    rw [get_countAll_empty, hcalls]
    rfl

/-- A repeated name, a repeated label, and a value that holds the other label as text: what differs
in the order alone is counted together, all else apart. -/
theorem repeated_labels_are_counted_apart :
    let twice : Labels := [("kind", "Rpc"), ("kind", "Login"), ("kind", "Rpc")]
    let once : Labels := [("kind", "Rpc"), ("kind", "Login"), ("kind", "Login")]
    let joined : Labels := [("kind", "Login\",kind=\"Rpc\",kind=\"Rpc")]
    let c := empty.countAll [twice, once, joined, twice.rotate 1, twice.rotate 2]
    (c.get twice).toNat = 3 ∧ (c.get once).toNat = 1 ∧ (c.get joined).toNat = 1 ∧
      c.get (twice.take 2) = 0 ∧ OneRow twice (twice.rotate 1) ∧ TwoRows twice once := by
  intro twice once joined c
  obtain ⟨hcount, -, hrows⟩ := rows_count_history
  exact ⟨(hcount _ twice).1, (hcount _ once).1, (hcount _ joined).1,
    (hcount _ (twice.take 2)).2 (by decide), (hrows _ _).1.2 (by decide),
    (hrows _ _).2.2 (by decide)⟩

end Counter

end MessageHooks
