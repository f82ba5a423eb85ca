import MessageHooks.Base64
import MessageHooks.Json.Basic
import MessageHooks.Schema.Format

/-!
# Writing typed values

A record becomes an object with its members that are not blank, listed by key. A one-of value
becomes an object with the single member of its variant.
-/

namespace MessageHooks.Schema

mutual

/-- The dynamic value of a typed one. -/
def encode : {α : Type} → Format α → α → Json
  | _, .text, s => .str s
  | _, .flag, b => .bool b
  | _, .bytes, bs => .str (Base64.encodeText bs)
  | _, .int64, n => .int n.toInt
  | _, .list item, xs => .arr (xs.map (encode item))
  | _, .optional _, none => .null
  | _, .optional inner, some x => encode inner x
  | _, .record _ fields shape, x => Json.ofMembers (encodeRow fields (shape.toRow x))
  | _, .oneOf tags payload shape, x =>
    match shape.toRow x with
    | ⟨i, v⟩ => .obj [(tags.key i, encode (payload i) v)]

/-- The members of a row that are not blank, in declared order. -/
def encodeRow : {ρ : Type} → Fields ρ → ρ → List (String × Json)
  | _, .nil, _ => []
  | _, .cons name format absent rest, (x, row) =>
    if absent.isBlank x then encodeRow rest row
    else (name, encode format x) :: encodeRow rest row

end

end MessageHooks.Schema
