import MessageHooks.Json.Path

/-!
# Dynamic values, null members aside

`Json.prune` leaves an object with the members that are given, each pruned in turn, and an array
with all its elements.

* `Json.given`: the members that are not null.
* `Json.isDefault`: the values that a member left out can stand for.
* `given_insert`, `given_insert_null`, `given_erase`: a member that is set to null is dropped.
* `get?_of_given_erase`, `given_erase_insert`: the only member that is given beside some key.
* `Json.Edit`: what is done to the member at a path; `Edit.given_run`: what is given then.
-/

namespace MessageHooks.Json

/-- The members of an object that are not null. -/
def given (ms : Object) : Object := ms.filter fun p => !p.2.isNull

/-- Null, false, zero, and the empty text and array. -/
def isDefault : Json → Bool
  | .null => true
  | .bool b => !b
  | .int n => n == 0
  | .str s => s == ""
  | .arr items => items.isEmpty
  | _ => false

theorem isNull_iff {v : Json} : v.isNull = true ↔ v = .null := by
  cases v <;> simp [isNull]

theorem isNull_of_isDefault {v : Json} (h : v.isDefault = false) : v.isNull = false := by
  cases v <;> simp_all [isNull, isDefault]

/-! ## Pruning -/

@[simp] theorem isNull_prune (v : Json) : v.prune.isNull = v.isNull := by
  cases v <;> rfl

theorem pruneItems_eq (vs : List Json) : pruneItems vs = vs.map prune := by
  induction vs with
  | nil => rfl
  | cons v vs ih => rw [pruneItems, ih, List.map_cons]

theorem pruneMembers_eq (ms : Object) :
    pruneMembers ms = (given ms).map fun p => (p.1, p.2.prune) := by
  induction ms with
  | nil => rfl
  | cons p ms ih =>
    obtain ⟨k, v⟩ := p
    simp only [pruneMembers, given, List.filter_cons] at ih ⊢
    cases v.isNull <;> simp [ih]

/-! ## Members in order -/

theorem wellFormedItems_iff {vs : List Json} :
    WellFormedItems vs ↔ ∀ v ∈ vs, v.WellFormed := by
  induction vs with
  | nil => simp [WellFormedItems]
  | cons v vs ih => simp [WellFormedItems, ih]

theorem wellFormedMembers_iff {ms : Object} :
    WellFormedMembers ms ↔ ∀ p ∈ ms, p.2.WellFormed := by
  induction ms with
  | nil => simp [WellFormedMembers]
  | cons p ms ih => simp [WellFormedMembers, ih]

theorem wellFormed_arr {vs : List Json} :
    (Json.arr vs).WellFormed ↔ ∀ v ∈ vs, v.WellFormed := by
  rw [WellFormed, wellFormedItems_iff]

theorem wellFormed_obj {ms : Object} :
    (Json.obj ms).WellFormed ↔ Entries.Sorted ms ∧ ∀ p ∈ ms, p.2.WellFormed := by
  rw [WellFormed, wellFormedMembers_iff]

theorem sorted_given {ms : Object} (h : Entries.Sorted ms) : Entries.Sorted (given ms) :=
  List.Pairwise.filter _ h

theorem mem_given {ms : Object} {p : String × Json} :
    p ∈ given ms ↔ p ∈ ms ∧ p.2.isNull = false := by
  simp [given]

theorem given_eq_self {ms : Object} (h : ∀ p ∈ ms, p.2.isNull = false) : given ms = ms :=
  List.filter_eq_self.2 fun p hp => by simp [h p hp]

/-! ## Changing a member -/

theorem get?_given {ms : Object} (h : Entries.Sorted ms) (k : String) :
    Entries.get? k (given ms) = (Entries.get? k ms).filter fun v => !v.isNull := by
  apply Option.ext
  intro v
  rw [Entries.get?_eq_some_iff (sorted_given h), mem_given, Option.filter_eq_some_iff,
    Entries.get?_eq_some_iff h, Bool.not_eq_true']

theorem given_insert {ms : Object} (h : Entries.Sorted ms) (k : String) {v : Json}
    (hv : v.isNull = false) : given (Entries.insert k v ms) = Entries.insert k v (given ms) := by
  refine Entries.Sorted.ext (sorted_given (h.insert k v)) ((sorted_given h).insert k v) fun k' => ?_
  rw [get?_given (h.insert k v)]
  by_cases hk : k' = k
  · rw [hk, Entries.get?_insert_self h, Entries.get?_insert_self (sorted_given h)]
    simp [hv]
  · rw [Entries.get?_insert_of_ne h v hk, Entries.get?_insert_of_ne (sorted_given h) v hk,
      get?_given h]

theorem given_insert_null {ms : Object} (h : Entries.Sorted ms) (k : String) :
    given (Entries.insert k .null ms) = Entries.erase k (given ms) := by
  refine Entries.Sorted.ext (sorted_given (h.insert k _)) ((sorted_given h).erase k) fun k' => ?_
  rw [get?_given (h.insert k _)]
  by_cases hk : k' = k
  · rw [hk, Entries.get?_insert_self h, Entries.get?_erase_self (sorted_given h)]
    rfl
  · rw [Entries.get?_insert_of_ne h _ hk, Entries.get?_erase_of_ne (sorted_given h) hk,
      get?_given h]

theorem given_erase {ms : Object} (h : Entries.Sorted ms) (k : String) :
    given (Entries.erase k ms) = Entries.erase k (given ms) := by
  refine Entries.Sorted.ext (sorted_given (h.erase k)) ((sorted_given h).erase k) fun k' => ?_
  rw [get?_given (h.erase k)]
  by_cases hk : k' = k
  · rw [hk, Entries.get?_erase_self h, Entries.get?_erase_self (sorted_given h)]
    rfl
  · rw [Entries.get?_erase_of_ne h hk, Entries.get?_erase_of_ne (sorted_given h) hk, get?_given h]

theorem wellFormed_insert {ms : Object} (h : (Json.obj ms).WellFormed) (k : String) {v : Json}
    (hv : v.WellFormed) : (Json.obj (Entries.insert k v ms)).WellFormed := by
  obtain ⟨hs, hms⟩ := wellFormed_obj.1 h
  refine wellFormed_obj.2 ⟨hs.insert k v, fun p hp => ?_⟩
  rcases Entries.mem_insert hp with rfl | hp
  · exact hv
  · exact hms p hp

theorem wellFormed_erase {ms : Object} (h : (Json.obj ms).WellFormed) (k : String) :
    (Json.obj (Entries.erase k ms)).WellFormed := by
  obtain ⟨hs, hms⟩ := wellFormed_obj.1 h
  exact wellFormed_obj.2 ⟨hs.erase k, fun p hp => hms p ((Entries.mem_erase_iff hs).1 hp).1⟩

/-! ## The only member -/

/-- The only member that is given beside some key is found under its own. -/
theorem get?_of_given_erase {ms : Object} (hs : Entries.Sorted ms) {k k' : String} {w : Json}
    (h : given (Entries.erase k ms) = [(k', w)]) :
    Entries.get? k' ms = some w ∧ w.isNull = false := by
  have hmem : (k', w) ∈ given (Entries.erase k ms) := by
    rw [h]
    exact List.mem_singleton_self _
  obtain ⟨herase, hnull⟩ := mem_given.1 hmem
  exact ⟨(Entries.get?_eq_some_iff hs).2 ((Entries.mem_erase_iff hs).1 herase).1, hnull⟩

theorem wellFormed_of_given_erase {ms : Object} (hms : (Json.obj ms).WellFormed) {k k' : String}
    {w : Json} (h : given (Entries.erase k ms) = [(k', w)]) : w.WellFormed := by
  obtain ⟨hs, hmembers⟩ := wellFormed_obj.1 hms
  obtain ⟨hget, -⟩ := get?_of_given_erase hs h
  exact hmembers _ ((Entries.get?_eq_some_iff hs).1 hget)

theorem given_erase_insert {ms : Object} (hs : Entries.Sorted ms) {k k' : String} {w w' : Json}
    (hk : k ≠ k') (h : given (Entries.erase k ms) = [(k', w)]) (hw' : w'.isNull = false) :
    given (Entries.erase k (Entries.insert k' w' ms)) = [(k', w')] := by
  rw [Entries.erase_insert_of_ne hs _ hk, given_insert (hs.erase k) _ hw', h]
  simp [Entries.insert, KeyOrder.irrefl]

/-! ## Edits -/

/-- What is done to the member at a path. -/
inductive Edit where
  | set (v : Json)
  | drop

namespace Edit

/-- Do it. -/
def run (path : List String) : Edit → Object → Object
  | .set v => Object.setAt v path
  | .drop => Object.dropAt path

/-- What the member gives then: nothing, if it is null or dropped. -/
def given? : Edit → Option Json
  | .set .null | .drop => none
  | .set v => some v

/-- What is set lists the members of its objects in order. -/
def WellFormed : Edit → Prop
  | .set v => v.WellFormed
  | .drop => True

theorem given?_set {v : Json} (hv : v ≠ .null) : (Edit.set v).given? = some v := by
  cases v with
  | null => exact absurd rfl hv
  | _ => rfl

variable (e : Edit) {ms : Object}

theorem run_cons_cons {k k' : String} {inner : Object}
    (hk : Entries.get? k ms = some (.obj inner)) :
    e.run [k, k'] ms = Entries.insert k (.obj (e.run [k'] inner)) ms := by
  cases e with
  | set v => simp [run, Object.setAt, hk, members]
  | drop => simp [run, Object.dropAt, Object.changeAt, hk]

theorem wellFormed_run (he : e.WellFormed) (h : (Json.obj ms).WellFormed) (k : String) :
    (Json.obj (e.run [k] ms)).WellFormed := by
  cases e with
  | set v => exact wellFormed_insert h k he
  | drop => exact wellFormed_erase h k

variable (h : Entries.Sorted ms)
include h

theorem sorted_run (k : String) : Entries.Sorted (e.run [k] ms) := by
  cases e with
  | set v => exact h.insert k v
  | drop => exact h.erase k

theorem given_run (k : String) : given (e.run [k] ms) =
    match e.given? with
    | some v => Entries.insert k v (given ms)
    | none => Entries.erase k (given ms) := by
  cases e with
  | drop => exact given_erase h k
  | set v =>
    cases v with
    | null => exact given_insert_null h k
    | _ => exact given_insert h k rfl

theorem get?_given_run_self {k : String} : Entries.get? k (given (e.run [k] ms)) = e.given? := by
  rw [e.given_run h]
  cases e.given? with
  | none => exact Entries.get?_erase_self (sorted_given h) k
  | some v => exact Entries.get?_insert_self (sorted_given h) k v

theorem get?_given_run_of_ne {k k' : String} (hk : k' ≠ k) :
    Entries.get? k' (given (e.run [k] ms)) = Entries.get? k' (given ms) := by
  rw [e.given_run h]
  cases e.given? with
  | none => exact Entries.get?_erase_of_ne (sorted_given h) hk
  | some v => exact Entries.get?_insert_of_ne (sorted_given h) v hk

end Edit

end MessageHooks.Json
