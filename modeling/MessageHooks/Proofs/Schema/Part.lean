import MessageHooks.Proofs.Schema.Field

/-!
# Parts of a record, by name or by position

A record is spelled by an object or by an array. Either way it has a value for some of its parts,
under the name of a member or in the place of an element, and it spells the row where each field has
what its part stands for. So a part can be read and replaced without a look at which of the two
spellings it is.

* `Fields.position`: the place of a field among those declared.
* `Json.part?`, `Json.setPart`: the value of a part, and the record with another.
* `spells_record_iff`: the spellings of a record, part by part; `Spells.setPart`: another value for
  a part changes one field.
-/

namespace MessageHooks

open Schema

/-! ## Parts of a value -/

namespace Json

/-- The value that a record gives for a part: the member of that name, unless it is null, or the
element in that place. -/
def part? (w : Json) (name : String) (position : Nat) : Option Json :=
  match w with
  | .obj ms => Entries.get? name (given ms)
  | .arr vs => vs[position]?
  | _ => none

/-- The record with another value for a part. -/
def setPart (w : Json) (name : String) (position : Nat) (v : Json) : Json :=
  match w with
  | .obj ms => .obj (Entries.insert name v ms)
  | .arr vs => .arr (vs.set position v)
  | w => w

theorem wellFormed_setPart {name : String} {position : Nat} {v w : Json} (hv : v.WellFormed)
    (hw : w.WellFormed) : (w.setPart name position v).WellFormed := by
  cases w with
  | obj ms => exact wellFormed_insert hw name hv
  | arr vs =>
    refine wellFormed_arr.2 fun u hu => ?_
    rcases List.mem_or_eq_of_mem_set hu with hu | rfl
    · exact wellFormed_arr.1 hw u hu
    · exact hv
  | _ => exact hw

theorem isNull_setPart (w : Json) (name : String) (position : Nat) (v : Json) :
    (w.setPart name position v).isNull = w.isNull := by
  cases w <;> rfl

end Json

namespace Schema

namespace Fields

/-! ## Positions -/

/-- The place of a field among those declared. -/
def position : {ρ : Type} → (fs : Fields ρ) → fs.Place → Nat
  | _, .nil, p => Empty.elim p
  | _, .cons _ _ _ rest, p =>
    match (p : Option rest.Place) with
    | none => 0
    | some p => rest.position p + 1

theorem position_lt : {ρ : Type} → (fs : Fields ρ) → (p : fs.Place) →
    fs.position p < fs.names.length
  | _, .nil, p => Empty.elim p
  | _, .cons _ _ _ rest, p =>
    match (p : Option rest.Place) with
    | none => Nat.zero_lt_succ _
    | some p => Nat.succ_lt_succ (rest.position_lt p)

theorem position_injective : {ρ : Type} → {fs : Fields ρ} → {p q : fs.Place} →
    fs.position p = fs.position q → p = q
  | _, .nil, p, _, _ => Empty.elim p
  | _, .cons _ _ _ rest, p, q, h =>
    match (p : Option rest.Place), (q : Option rest.Place), h with
    | none, none, _ => rfl
    | some _, some _, h => congrArg some (position_injective (Nat.succ.inj h))

end Fields

theorem spellsElements_iff : {ρ : Type} → (fs : Fields ρ) → {vs : List Json} → {row : ρ} →
    (SpellsElements fs vs row ↔
      ∀ p, SpellsGiven (fs.format p) (fs.blank p) vs[fs.position p]? (fs.get p row))
  | _, .nil, _, _ => ⟨fun _ p => Empty.elim p, fun _ => trivial⟩
  | _, .cons _ _ _ rest, [], (_, _) => by
    rw [SpellsElements, spellsElements_iff rest]
    constructor
    · rintro ⟨hx, hrow⟩ p
      match (p : Option rest.Place) with
      | none => exact hx
      | some p => exact hrow p
    · intro h
      exact ⟨h (none : Option rest.Place), fun p => h (some p : Option rest.Place)⟩
  | _, .cons _ _ _ rest, _ :: _, (_, _) => by
    rw [SpellsElements, spellsElements_iff rest]
    constructor
    · rintro ⟨hx, hrow⟩ p
      match (p : Option rest.Place) with
      | none => exact hx
      | some p => exact hrow p
    · intro h
      exact ⟨h (none : Option rest.Place), fun p => h (some p : Option rest.Place)⟩

/-! ## Spellings of records -/

/-- The value has no more parts than are declared: an object gives declared members only, and an
array is not longer than the fields. -/
def Declared {ρ : Type} (fs : Fields ρ) : Json → Prop
  | .obj ms => ∀ p ∈ Json.given ms, p.1 ∈ fs.names
  | .arr vs => vs.length ≤ fs.names.length
  | _ => False

variable {α ρ : Type} {name : String} {fs : Fields ρ} {shape : Shape α ρ} {w v : Json}

/-- **The spellings of a record, part by part.** -/
theorem spells_record_iff {x : α} : Spells (.record name fs shape) w x ↔
    Declared fs w ∧ ∀ p, SpellsGiven (fs.format p) (fs.blank p)
      (w.part? (fs.name p) (fs.position p)) (fs.get p (shape.toRow x)) := by
  cases w with
  | obj ms => rw [spells_record_obj_iff, SpellsObject, spellsMembers_iff]; rfl
  | arr vs =>
    have harr : Spells (.record name fs shape) (.arr vs) x ↔
        vs.length ≤ fs.names.length ∧ SpellsElements fs vs (shape.toRow x) := by
      simp [Spells]
    rw [harr, spellsElements_iff]
    rfl
  | _ => simp [Spells, Declared]

theorem Spells.part {x : α} (h : Spells (.record name fs shape) w x) {p : fs.Place}
    (hv : w.part? (fs.name p) (fs.position p) = some v) :
    Spells (fs.format p) v (fs.get p (shape.toRow x)) := by
  have hp := (spells_record_iff.1 h).2 p
  rw [hv] at hp
  exact hp

/-! ## Another value for a part -/

theorem part?_setPart_self (hw : w.WellFormed) {k : String} {i : Nat} {u : Json}
    (hu : w.part? k i = some u) (hv : v.isNull = false) :
    (w.setPart k i v).part? k i = some v := by
  cases w with
  | obj ms =>
    have hs := (Json.wellFormed_obj.1 hw).1
    rw [Json.setPart, Json.part?, Json.given_insert hs k hv]
    exact Entries.get?_insert_self (Json.sorted_given hs) k v
  | arr vs =>
    obtain ⟨hlt, -⟩ := List.getElem?_eq_some_iff.1 hu
    exact List.getElem?_set_self hlt
  | _ => cases hu

theorem part?_setPart_of_ne (hw : w.WellFormed) {k l : String} {i j : Nat} (hkl : l ≠ k)
    (hij : j ≠ i) (hv : v.isNull = false) :
    (w.setPart k i v).part? l j = w.part? l j := by
  cases w with
  | obj ms =>
    have hs := (Json.wellFormed_obj.1 hw).1
    rw [Json.setPart, Json.part?, Json.given_insert hs k hv]
    exact Entries.get?_insert_of_ne (Json.sorted_given hs) v hkl
  | arr vs => exact List.getElem?_set_ne hij.symm
  | _ => rfl

theorem Declared.setPart (hw : w.WellFormed) (h : Declared fs w) (p : fs.Place)
    (hv : v.isNull = false) : Declared fs (w.setPart (fs.name p) (fs.position p) v) := by
  cases w with
  | obj ms =>
    intro m hm
    rw [Json.given_insert (Json.wellFormed_obj.1 hw).1 _ hv] at hm
    rcases Entries.mem_insert hm with rfl | hm
    · exact fs.name_mem_names p
    · exact h m hm
  | arr vs =>
    rw [Json.setPart, Declared, List.length_set]
    exact h
  | _ => exact h

/-- **Another value for a part changes one field**: to what the value stands for. -/
theorem Spells.setPart (hfs : fs.Proper) (hw : w.WellFormed) {row : ρ}
    (h : Spells (.record name fs shape) w (shape.ofRow row)) {p : fs.Place} {u : Json}
    (hu : w.part? (fs.name p) (fs.position p) = some u) (hv : v.isNull = false)
    {y : fs.Value p} (hy : Spells (fs.format p) v y) :
    Spells (.record name fs shape) (w.setPart (fs.name p) (fs.position p) v)
      (shape.ofRow (fs.set p y row)) := by
  obtain ⟨hdeclared, hparts⟩ := spells_record_iff.1 h
  rw [shape.toRow_ofRow] at hparts
  refine spells_record_iff.2 ⟨hdeclared.setPart hw p hv, fun q => ?_⟩
  rw [shape.toRow_ofRow]
  by_cases hq : q = p
  · subst hq
    rw [part?_setPart_self hw hu hv, fs.get_set_self]
    exact hy
  · have hname : fs.name q ≠ fs.name p := fun e => hq (Fields.name_injective hfs e)
    have hposition : fs.position q ≠ fs.position p := fun e => hq (Fields.position_injective e)
    rw [part?_setPart_of_ne hw hname hposition hv, fs.get_set_of_ne hq]
    exact hparts q

end Schema

end MessageHooks
