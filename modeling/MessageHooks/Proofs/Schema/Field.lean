import MessageHooks.Proofs.Schema.Spelling

/-!
# Fields of a record

The row of a record is read and changed at one field at a time, and what an object spells is told
field by field. So an edit of one member of the object is a change of one field of the row.

* `Fields.Place`: a field, by its place among those declared; `Fields.get` and `Fields.set` read and
  change a row there.
* `spellsMembers_iff`: the members spell a row where each field has what the member of its name
  stands for.
* `SpellsObject`: the spellings of a record by name; `SpellsObject.edit`: an edit of a declared
  member, `SpellsObject.edit_undeclared`: of any other.
-/

namespace MessageHooks.Schema

namespace Fields

/-! ## Places -/

/-- A field of a record: the first one, or one of the rest. -/
def Place : {ρ : Type} → Fields ρ → Type
  | _, .nil => Empty
  | _, .cons _ _ _ rest => Option (Place rest)

def Value : {ρ : Type} → (fs : Fields ρ) → fs.Place → Type
  | _, .nil, p => Empty.elim p
  | _, @Fields.cons α _ _ _ _ rest, p =>
    match (p : Option rest.Place) with
    | none => α
    | some p => Value rest p

def name : {ρ : Type} → (fs : Fields ρ) → fs.Place → String
  | _, .nil, p => Empty.elim p
  | _, .cons name _ _ rest, p =>
    match (p : Option rest.Place) with
    | none => name
    | some p => rest.name p

/-- How the values of a field are written. -/
def format : {ρ : Type} → (fs : Fields ρ) → (p : fs.Place) → Format (fs.Value p)
  | _, .nil, p => Empty.elim p
  | _, .cons _ format _ rest, p =>
    match (p : Option rest.Place) with
    | none => format
    | some p => rest.format p

/-- The value of a field whose member is left out. -/
def blank : {ρ : Type} → (fs : Fields ρ) → (p : fs.Place) → fs.Value p
  | _, .nil, p => Empty.elim p
  | _, .cons _ _ absent rest, p =>
    match (p : Option rest.Place) with
    | none => absent.blank
    | some p => rest.blank p

def get : {ρ : Type} → (fs : Fields ρ) → (p : fs.Place) → ρ → fs.Value p
  | _, .nil, p, _ => Empty.elim p
  | _, .cons _ _ _ rest, p, (x, row) =>
    match (p : Option rest.Place) with
    | none => x
    | some p => rest.get p row

/-- The row with another value in one field. -/
def set : {ρ : Type} → (fs : Fields ρ) → (p : fs.Place) → fs.Value p → ρ → ρ
  | _, .nil, p, _, _ => Empty.elim p
  | _, @Fields.cons α _ _ _ _ rest, p, y, (x, row) =>
    match (p : Option rest.Place), y with
    | none, (y : α) => (y, row)
    | some p, y => (x, rest.set p y row)

/-- All fields of a row with their names, blank or not, as they are written. -/
def members : {ρ : Type} → Fields ρ → ρ → List (String × Json)
  | _, .nil, _ => []
  | _, .cons name format _ rest, (x, row) => (name, encode format x) :: rest.members row

/-! ## Reading and changing a row -/

theorem get_set_self : {ρ : Type} → (fs : Fields ρ) → (p : fs.Place) → (y : fs.Value p) →
    (row : ρ) → fs.get p (fs.set p y row) = y
  | _, .nil, p, _, _ => Empty.elim p
  | _, .cons _ _ _ rest, p, y, (_, row) =>
    match (p : Option rest.Place), y with
    | none, _ => rfl
    | some p, y => rest.get_set_self p y row

theorem get_set_of_ne : {ρ : Type} → (fs : Fields ρ) → {p q : fs.Place} → q ≠ p →
    (y : fs.Value p) → (row : ρ) → fs.get q (fs.set p y row) = fs.get q row
  | _, .nil, p, _, _, _, _ => Empty.elim p
  | _, .cons _ _ _ rest, p, q, h, y, (_, row) =>
    match (p : Option rest.Place), (q : Option rest.Place), h, y with
    | none, none, h, _ => absurd rfl h
    | none, some _, _, _ => rfl
    | some _, none, _, _ => rfl
    | some _, some _, h, y => rest.get_set_of_ne (fun e => h (congrArg some e)) y row

/-- A row is what its fields hold. -/
theorem ext_get : {ρ : Type} → (fs : Fields ρ) → {row row' : ρ} →
    (∀ p, fs.get p row = fs.get p row') → row = row'
  | _, .nil, _, _, _ => rfl
  | _, .cons _ _ _ rest, (_, _), (_, _), h =>
    Prod.ext (h (none : Option rest.Place)) (rest.ext_get fun p => h (some p : Option rest.Place))

theorem mem_members_iff {m : String × Json} : {ρ : Type} → (fs : Fields ρ) → {row : ρ} →
    (m ∈ fs.members row ↔ ∃ p, m = (fs.name p, encode (fs.format p) (fs.get p row)))
  | _, .nil, _ => ⟨nofun, fun ⟨p, _⟩ => Empty.elim p⟩
  | _, .cons _ _ _ rest, (_, row) => by
    rw [members, List.mem_cons, mem_members_iff rest]
    constructor
    · rintro (rfl | ⟨p, rfl⟩)
      · exact ⟨(none : Option rest.Place), rfl⟩
      · exact ⟨(some p : Option rest.Place), rfl⟩
    · rintro ⟨p, rfl⟩
      match (p : Option rest.Place) with
      | none => exact .inl rfl
      | some p => exact .inr ⟨p, rfl⟩

/-! ## Names -/

theorem mem_names_iff {k : String} : {ρ : Type} → (fs : Fields ρ) →
    (k ∈ fs.names ↔ ∃ p, fs.name p = k)
  | _, .nil => ⟨nofun, fun ⟨p, _⟩ => Empty.elim p⟩
  | _, .cons name _ _ rest => by
    rw [names, List.mem_cons, mem_names_iff rest]
    constructor
    · rintro (rfl | ⟨p, rfl⟩)
      · exact ⟨(none : Option rest.Place), rfl⟩
      · exact ⟨(some p : Option rest.Place), rfl⟩
    · rintro ⟨p, rfl⟩
      match (p : Option rest.Place) with
      | none => exact .inl rfl
      | some p => exact .inr ⟨p, rfl⟩

theorem name_mem_names {ρ : Type} (fs : Fields ρ) (p : fs.Place) : fs.name p ∈ fs.names :=
  fs.mem_names_iff.2 ⟨p, rfl⟩

theorem name_injective : {ρ : Type} → {fs : Fields ρ} → fs.Proper → {p q : fs.Place} →
    fs.name p = fs.name q → p = q
  | _, .nil, _, p, _, _ => Empty.elim p
  | _, .cons name _ _ rest, hfs, p, q, h => by
    rw [Proper] at hfs
    obtain ⟨hname, -, -, hrest⟩ := hfs
    match (p : Option rest.Place), (q : Option rest.Place), h with
    | none, none, _ => rfl
    | none, some q, h =>
      have hq : rest.name q = name := h.symm
      exact absurd (hq ▸ rest.name_mem_names q) hname
    | some p, none, h =>
      have hp : rest.name p = name := h
      exact absurd (hp ▸ rest.name_mem_names p) hname
    | some _, some _, h => exact congrArg some (name_injective hrest h)

end Fields

/-! ## Spellings by name -/

/-- A member that is given spells the value, and where none is, the value is the blank. -/
def SpellsGiven {α : Type} (f : Format α) (blank : α) : Option Json → α → Prop
  | some v, x => Spells f v x
  | none, x => x = blank

theorem spellsMembers_cons {α ρ : Type} {name : String} {f : Format α} {absent : Blank α}
    {rest : Fields ρ} {ms : Json.Object} {x : α} {row : ρ} :
    SpellsMembers (.cons name f absent rest) ms (x, row) ↔
      SpellsGiven f absent.blank (Entries.get? name ms) x ∧ SpellsMembers rest ms row := by
  rw [SpellsMembers]
  cases Entries.get? name ms <;> rfl

theorem spellsMembers_iff {ms : Json.Object} : {ρ : Type} → (fs : Fields ρ) → {row : ρ} →
    (SpellsMembers fs ms row ↔
      ∀ p, SpellsGiven (fs.format p) (fs.blank p) (Entries.get? (fs.name p) ms) (fs.get p row))
  | _, .nil, _ => ⟨fun _ p => Empty.elim p, fun _ => trivial⟩
  | _, .cons _ _ _ rest, (_, _) => by
    rw [spellsMembers_cons, spellsMembers_iff rest]
    constructor
    · rintro ⟨hx, hrow⟩ p
      match (p : Option rest.Place) with
      | none => exact hx
      | some p => exact hrow p
    · intro h
      exact ⟨h (none : Option rest.Place), fun p => h (some p : Option rest.Place)⟩

/-- The object spells the row of a record: it gives no undeclared member, and the declared ones
spell the row. -/
def SpellsObject {ρ : Type} (fs : Fields ρ) (ms : Json.Object) (row : ρ) : Prop :=
  (∀ p ∈ Json.given ms, p.1 ∈ fs.names) ∧ SpellsMembers fs (Json.given ms) row

theorem spells_record_obj_iff {α ρ : Type} {name : String} {fs : Fields ρ} {shape : Shape α ρ}
    {ms : Json.Object} {x : α} :
    Spells (.record name fs shape) (.obj ms) x ↔ SpellsObject fs ms (shape.toRow x) := by
  simp [Spells, SpellsObject]

namespace SpellsObject

variable {ρ : Type} {fs : Fields ρ} {ms : Json.Object} {row : ρ}

/-- Told by what is given under each key. -/
theorem iff_get? (hs : Entries.Sorted ms) : SpellsObject fs ms row ↔
    (∀ k ∉ fs.names, Entries.get? k (Json.given ms) = none) ∧
    ∀ p, SpellsGiven (fs.format p) (fs.blank p) (Entries.get? (fs.name p) (Json.given ms))
      (fs.get p row) := by
  have hnames : (∀ p ∈ Json.given ms, p.1 ∈ fs.names) ↔
      ∀ k ∉ fs.names, Entries.get? k (Json.given ms) = none := by
    simp only [Entries.get?_eq_none_iff (Json.sorted_given hs)]
    exact ⟨fun h k hk p hp e => hk (e ▸ h p hp), fun h p hp => by_contra fun hk => h _ hk p hp rfl⟩
  rw [SpellsObject, hnames, spellsMembers_iff]

/-- **An edit of a member changes one field**: to what the member stands for then. -/
theorem edit (hfs : fs.Proper) (hs : Entries.Sorted ms) (h : SpellsObject fs ms row)
    {p : fs.Place} {e : Json.Edit} {y : fs.Value p}
    (hy : SpellsGiven (fs.format p) (fs.blank p) e.given? y) :
    SpellsObject fs (e.run [fs.name p] ms) (fs.set p y row) := by
  obtain ⟨hnames, hfields⟩ := (iff_get? hs).1 h
  refine (iff_get? (e.sorted_run hs _)).2 ⟨fun k hk => ?_, fun q => ?_⟩
  · have hne : k ≠ fs.name p := fun hkp => hk (hkp ▸ fs.name_mem_names p)
    rw [e.get?_given_run_of_ne hs hne]
    exact hnames k hk
  · by_cases hq : q = p
    · subst hq
      rw [e.get?_given_run_self hs, fs.get_set_self]
      exact hy
    · have hne : fs.name q ≠ fs.name p := fun hname => hq (Fields.name_injective hfs hname)
      rw [e.get?_given_run_of_ne hs hne, fs.get_set_of_ne hq]
      exact hfields q

theorem of_edit (hs : Entries.Sorted ms) {p : fs.Place} {e : Json.Edit}
    (h : SpellsObject fs (e.run [fs.name p] ms) row) :
    SpellsGiven (fs.format p) (fs.blank p) e.given? (fs.get p row) := by
  have hp := ((iff_get? (e.sorted_run hs _)).1 h).2 p
  rw [e.get?_given_run_self hs] at hp
  exact hp

/-- No undeclared member can be given. -/
theorem not_edit_undeclared (hs : Entries.Sorted ms) {k : String} (hk : k ∉ fs.names)
    {e : Json.Edit} {v : Json} (hv : e.given? = some v) : ¬SpellsObject fs (e.run [k] ms) row := by
  intro h
  have hnone := ((iff_get? (e.sorted_run hs _)).1 h).1 k hk
  rw [e.get?_given_run_self hs, hv] at hnone
  cases hnone

/-- An undeclared member that is not given changes nothing. -/
theorem edit_undeclared (hs : Entries.Sorted ms) (h : SpellsObject fs ms row) {k : String}
    (hk : k ∉ fs.names) {e : Json.Edit} (hv : e.given? = none) :
    SpellsObject fs (e.run [k] ms) row := by
  obtain ⟨hnames, hfields⟩ := (iff_get? hs).1 h
  refine (iff_get? (e.sorted_run hs _)).2 ⟨fun k' hk' => ?_, fun q => ?_⟩
  · by_cases hkk : k' = k
    · rw [hkk, e.get?_given_run_self hs, hv]
    · rw [e.get?_given_run_of_ne hs hkk]
      exact hnames k' hk'
  · have hne : fs.name q ≠ k := fun hname => hk (hname ▸ fs.name_mem_names q)
    rw [e.get?_given_run_of_ne hs hne]
    exact hfields q

end SpellsObject

end MessageHooks.Schema
