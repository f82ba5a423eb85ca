import MessageHooks.Number.Digits
import MessageHooks.Schema.Fault
import MessageHooks.Schema.Format

/-!
# Reading typed values

A dynamic value is read from the outside inwards and from left to right; the first fault met is the
answer. A record is read from an object, member by member in the order of keys, or from an array,
element by element in declared order. Members and elements that are not there stay blank.

* `readInt64`: the three spellings of a 64-bit integer.
* `decode`: the typed value of a dynamic one.
-/

namespace MessageHooks.Schema

/-! ## Scalars -/

def textKind : String := "a string"

def int64Kind : String := "an int64 as a number or a decimal string"

def toInt64? (n : Int) : Option Int64 :=
  if -2 ^ 63 ≤ n ∧ n < 2 ^ 63 then some (.ofInt n) else none

/-- The integer written by an optional sign and decimal digits. -/
def decimal? (s : String) : Option Int :=
  match s.toList with
  | '-' :: ds => (Digits.read? 10 ds).map fun n : Nat => -(n : Int)
  | '+' :: ds => (Digits.read? 10 ds).map Nat.cast
  | ds => (Digits.read? 10 ds).map Nat.cast

/-- A 64-bit integer: an integer in range, a floating-point number equal to one, or a text with its
decimal digits. -/
def readInt64 (v : Json) : Except Fault Int64 :=
  let inRange (n? : Option Int) : Except Fault Int64 :=
    match n?.bind toInt64? with
    | some n => .ok n
    | none => .error (.wrongValue (.ofJson v) int64Kind)
  match v with
  | .int n => inRange (some n)
  | .float x => inRange x.toInt?
  | .str s => inRange (decimal? s)
  | v => .error (.wrongType (.ofJson v) int64Kind)

def readText : Json → Except Fault String
  | .str s => .ok s
  | v => .error (.wrongType (.ofJson v) textKind)

def readBytes (v : Json) : Except Fault (List UInt8) :=
  (readText v).bind fun s => (Base64.decodeText s).mapError .base64

/-! ## Sequences of readings -/

/-- Read every element; the first fault ends the reading. -/
def readAll {α : Type} (read : Json → Except Fault α) : List Json → Except Fault (List α)
  | [] => .ok []
  | v :: vs => (read v).bind fun x => (readAll read vs).map (x :: ·)

/-- Put the members into a row one after the other. -/
def fill {ρ : Type} (put : String → Json → ρ → Except Fault ρ) :
    List (String × Json) → ρ → Except Fault ρ
  | [], row => .ok row
  | (k, v) :: ms, row => (put k v row).bind (fill put ms)

/-! ## Formats -/

mutual

/-- The typed value of a dynamic one, or the first fault. -/
def decode : {α : Type} → Format α → Json → Except Fault α
  | _, .text, v => readText v
  | _, .flag, v =>
    match v with
    | .bool b => .ok b
    | v => .error (.wrongType (.ofJson v) "a boolean")
  | _, .bytes, v => readBytes v
  | _, .int64, v => readInt64 v
  | _, .list item, v =>
    match v with
    | .arr vs => readAll (decode item) vs
    | v => .error (.wrongType (.ofJson v) "a sequence")
  | _, .optional inner, v => if v.isNull then .ok none else (decode inner v).map some
  | _, .record name fields shape, v =>
    match v with
    | .obj ms => (fill (putMember fields.names fields) ms fields.blankRow).map shape.ofRow
    | .arr vs =>
      -- surplus elements are met when those of all fields are read
      (readRow fields vs).bind fun row =>
        if vs.length ≤ fields.names.length then .ok (shape.ofRow row)
        else .error (.tooLong vs.length)
    | v => .error (.wrongType (.ofJson v) ("struct " ++ name))
  | _, .oneOf tags payload shape, v =>
    match v with
    | .obj [(k, v)] =>
      match tags.find? k with
      | some i => (decode (payload i) v).map fun x => shape.ofRow ⟨i, x⟩
      | none => .error (.unknownVariant k tags.keys)
    | .obj _ => .error (.wrongValue .map "map with a single key")
    | .str k =>
      -- a name alone would be a variant without payload, and no format has one
      match tags.find? k with
      | some _ => .error (.wrongType .bareVariant "newtype variant")
      | none => .error (.unknownVariant k tags.keys)
    | v => .error (.wrongType (.ofJson v) "string or map")

/-- The row with the member of the given name read anew. -/
def putMember (declared : List String) :
    {ρ : Type} → Fields ρ → String → Json → ρ → Except Fault ρ
  | _, .nil, k, _, _ => .error (.unknownField k declared)
  | _, .cons name format _ rest, k, v, (x, row) =>
    if name = k then (decode format v).map fun y => (y, row)
    else (putMember declared rest k v row).map fun row => (x, row)

/-- The row of the elements in declared order; what they do not reach stays blank. -/
def readRow : {ρ : Type} → Fields ρ → List Json → Except Fault ρ
  | _, .nil, _ => .ok ()
  | _, .cons _ _ absent rest, [] => .ok (absent.blank, rest.blankRow)
  | _, .cons _ format _ rest, v :: vs =>
    (decode format v).bind fun x => (readRow rest vs).map fun row => (x, row)

end

end MessageHooks.Schema
