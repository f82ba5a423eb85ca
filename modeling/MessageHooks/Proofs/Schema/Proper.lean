import MessageHooks.Proofs.Base64
import MessageHooks.Proofs.Json
import MessageHooks.Schema.Encode

/-!
# Proper formats

What a format must satisfy for its values to be told apart in writing: a record names each member
once, leaves a member out exactly when its value would be written as null, false, zero or empty,
and null is written nowhere else.

* `Format.Proper`, `Fields.Proper`: the conditions, by recursion on the format.
* `isNull_encode`: a value of a proper format that is not optional is never written as null.
-/

namespace MessageHooks.Schema

/-- Whether a format has null for a value. -/
def Format.isOptional : {α : Type} → Format α → Bool
  | _, .optional _ => true
  | _, _ => false

mutual

/-- Null stands for no element of a list and no payload of a variant. -/
def Format.Proper : {α : Type} → Format α → Prop
  | _, .text | _, .flag | _, .bytes | _, .int64 => True
  | _, .list item => item.isOptional = false ∧ item.Proper
  | _, .optional inner => inner.isOptional = false ∧ inner.Proper
  | _, .record _ fields _ => fields.Proper
  | _, .oneOf _ payload _ => ∀ i, (payload i).isOptional = false ∧ (payload i).Proper

/-- Names are distinct, and a member is left out exactly when its value is written as a blank. -/
def Fields.Proper : {ρ : Type} → Fields ρ → Prop
  | _, .nil => True
  | _, .cons name format absent rest =>
    name ∉ rest.names ∧ format.Proper ∧
      (∀ x, absent.isBlank x = (encode format x).isDefault) ∧ rest.Proper

end

theorem isNull_encode {α : Type} {f : Format α} (hf : f.isOptional = false) (x : α) :
    (encode f x).isNull = false := by
  cases f with
  | optional => cases hf
  | _ => rfl

/-! ## Members

One lemma for each format that a member has. -/

namespace Fields.Proper

variable {ρ : Type} {name : String} {rest : Fields ρ}

theorem text (hname : name ∉ rest.names) (hrest : rest.Proper) :
    (Fields.member name .text rest).Proper :=
  ⟨hname, trivial, fun _ => rfl, hrest⟩

theorem flag (hname : name ∉ rest.names) (hrest : rest.Proper) :
    (Fields.member name .flag rest).Proper :=
  ⟨hname, trivial, fun _ => rfl, hrest⟩

theorem int64 (hname : name ∉ rest.names) (hrest : rest.Proper) :
    (Fields.member name .int64 rest).Proper := by
  refine ⟨hname, trivial, fun n => ?_, hrest⟩
  show (n == 0) = (n.toInt == 0)
  rw [Bool.eq_iff_iff, beq_iff_eq, beq_iff_eq, ← Int64.toInt_inj]
  rfl

theorem bytes (hname : name ∉ rest.names) (hrest : rest.Proper) :
    (Fields.member name .bytes rest).Proper := by
  refine ⟨hname, trivial, fun bs => ?_, hrest⟩
  show bs.isEmpty = (Base64.encodeText bs == "")
  rw [Bool.eq_iff_iff, beq_iff_eq, Base64.encodeText_eq_empty_iff, List.isEmpty_iff]

theorem list {α : Type} {item : Format α} (ho : item.isOptional = false) (hf : item.Proper)
    (hname : name ∉ rest.names) (hrest : rest.Proper) :
    (Fields.member name (.list item) rest).Proper := by
  refine ⟨hname, ⟨ho, hf⟩, fun xs => ?_, hrest⟩
  show xs.isEmpty = (xs.map (encode item)).isEmpty
  rw [List.isEmpty_map]

theorem optional {α ι : Type} {τ : ι → Type} {tags : Tags ι} {payload : (i : ι) → Format (τ i)}
    {shape : Shape α (Sigma τ)} (hf : (Format.oneOf tags payload shape).Proper)
    (hname : name ∉ rest.names) (hrest : rest.Proper) :
    (Fields.member name (.optional (.oneOf tags payload shape)) rest).Proper := by
  refine ⟨hname, ⟨rfl, hf⟩, fun x => ?_, hrest⟩
  cases x <;> rfl

end Fields.Proper

end MessageHooks.Schema
