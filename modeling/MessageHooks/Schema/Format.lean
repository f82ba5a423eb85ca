/-!
# Formats

A description of how the values of a type are written as dynamic values. One description serves
both directions, writing and reading, so they cannot disagree on a name or a default.

* `Format α`: scalars, lists, optional values, records and one-of types.
* `Fields ρ`: the declared members of a record, in order, over rows of type `ρ`.
* `Blank α`: the value that a member left out stands for.
-/

namespace MessageHooks.Schema

/-- The value of a member that is left out, with a test for it. -/
class Blank (α : Type) where
  blank : α
  isBlank : α → Bool
  isBlank_iff : ∀ a, isBlank a = true ↔ a = blank

instance : Blank String where
  blank := ""
  isBlank s := s == ""
  isBlank_iff s := by simp

instance : Blank Bool where
  blank := false
  isBlank b := !b
  isBlank_iff b := by simp

instance : Blank Int64 where
  blank := 0
  isBlank n := n == 0
  isBlank_iff n := by simp

instance {α : Type} : Blank (List α) where
  blank := []
  isBlank xs := xs.isEmpty
  isBlank_iff xs := by simp

instance {α : Type} : Blank (Option α) where
  blank := none
  isBlank x := x.isNone
  isBlank_iff x := by simp

/-- A type laid out as another: the two directions undo each other. -/
structure Shape (α ρ : Type) where
  toRow : α → ρ
  ofRow : ρ → α
  ofRow_toRow : ∀ x, ofRow (toRow x) = x
  toRow_ofRow : ∀ r, toRow (ofRow r) = r

/-- The type as it is. -/
def Shape.same (α : Type) : Shape α α := ⟨id, id, fun _ => rfl, fun _ => rfl⟩

/-- The variants of a one-of type, each with the key that marks it. -/
structure Tags (ι : Type) where
  all : List ι
  key : ι → String
  complete : ∀ i, i ∈ all
  key_injective : ∀ {i j}, key i = key j → i = j

namespace Tags

variable {ι : Type} (tags : Tags ι)

def keys : List String := tags.all.map tags.key

def find? (k : String) : Option ι := tags.all.find? fun i => tags.key i == k

theorem find?_eq_some_iff {k : String} {i : ι} : tags.find? k = some i ↔ tags.key i = k := by
  constructor
  · intro h
    simpa using List.find?_some h
  · rintro rfl
    unfold find?
    cases h : tags.all.find? fun j => tags.key j == tags.key i with
    | none =>
      have := List.find?_eq_none.1 h i (tags.complete i)
      simp at this
    | some j =>
      have e := List.find?_some h
      rw [beq_iff_eq] at e
      rw [tags.key_injective e]

@[simp] theorem find?_key (i : ι) : tags.find? (tags.key i) = some i :=
  tags.find?_eq_some_iff.2 rfl

end Tags

mutual

/-- How the values of a type are written. -/
inductive Format : Type → Type 1 where
  | text : Format String
  | flag : Format Bool
  | bytes : Format (List UInt8)
  | int64 : Format Int64
  | list {α : Type} (item : Format α) : Format (List α)
  | optional {α : Type} (inner : Format α) : Format (Option α)
  | record {α ρ : Type} (name : String) (fields : Fields ρ) (shape : Shape α ρ) : Format α
  | oneOf {α ι : Type} {τ : ι → Type} (tags : Tags ι) (payload : (i : ι) → Format (τ i))
    (shape : Shape α (Sigma τ)) : Format α

/-- The members of a record. -/
inductive Fields : Type → Type 1 where
  | nil : Fields Unit
  | cons {α ρ : Type} (name : String) (format : Format α) (absent : Blank α) (rest : Fields ρ) :
    Fields (α × ρ)

end

namespace Fields

/-- One more member in front, left out when it is blank. -/
def member {α ρ : Type} [absent : Blank α] (name : String) (format : Format α) (rest : Fields ρ) :
    Fields (α × ρ) :=
  .cons name format absent rest

def names : {ρ : Type} → Fields ρ → List String
  | _, .nil => []
  | _, .cons name _ _ rest => name :: names rest

/-- The row of a record all of whose members are left out. -/
def blankRow : {ρ : Type} → Fields ρ → ρ
  | _, .nil => ()
  | _, .cons _ _ absent rest => (absent.blank, blankRow rest)

end Fields

end MessageHooks.Schema
