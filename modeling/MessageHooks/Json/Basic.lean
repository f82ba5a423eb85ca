import MessageHooks.Number.Binary64
import MessageHooks.SortedMap

/-!
# Dynamic values

The tagged union that hook callbacks see and return. Numbers keep the difference between an integer
and a floating-point number, and the members of an object are listed by key.

* `Json.prune`: the value without its null members, at every depth; elements of arrays stay.
* `Json.same`: equality of values, floating-point numbers being compared as numbers.
-/

namespace MessageHooks

/-- A dynamic value. Members are listed in increasing order of keys. -/
inductive Json where
  | null
  | bool (b : Bool)
  | int (n : Int)
  | float (x : Binary64)
  | str (s : String)
  | arr (items : List Json)
  | obj (members : List (String × Json))
  deriving Inhabited

namespace Json

/-- The members of an object, listed by key: what a callback is given and gives back. -/
abbrev Object := Entries String Json

def ofMembers (members : List (String × Json)) : Json := .obj (Entries.ofList members)

def kindName : Json → String
  | .null => "null"
  | .bool _ => "bool"
  | .int _ | .float _ => "number"
  | .str _ => "string"
  | .arr _ => "array"
  | .obj _ => "object"

def isNull : Json → Bool
  | .null => true
  | _ => false

/-! ## Null members -/

mutual

/-- The value without null members in any object it contains. -/
def prune : Json → Json
  | .null => .null
  | .bool b => .bool b
  | .int n => .int n
  | .float x => .float x
  | .str s => .str s
  | .arr items => .arr (pruneItems items)
  | .obj members => .obj (pruneMembers members)

def pruneItems : List Json → List Json
  | [] => []
  | v :: vs => prune v :: pruneItems vs

/-- The members that are not null, each pruned in turn. -/
def pruneMembers : List (String × Json) → List (String × Json)
  | [] => []
  | (k, v) :: ms => if v.isNull then pruneMembers ms else (k, prune v) :: pruneMembers ms

end

/-! ## Order of members -/

mutual

/-- Every object lists its members in strictly increasing order of keys. -/
def WellFormed : Json → Prop
  | .arr items => WellFormedItems items
  | .obj members => Entries.Sorted (κ := String) members ∧ WellFormedMembers members
  | _ => True

def WellFormedItems : List Json → Prop
  | [] => True
  | v :: vs => WellFormed v ∧ WellFormedItems vs

def WellFormedMembers : List (String × Json) → Prop
  | [] => True
  | (_, v) :: ms => WellFormed v ∧ WellFormedMembers ms

end

/-! ## Equality -/

mutual

/-- Equality of values. An integer and a floating-point number are never equal. -/
def same : Json → Json → Bool
  | .null, .null => true
  | .bool a, .bool b => a == b
  | .int a, .int b => a == b
  | .float a, .float b => a.same b
  | .str a, .str b => a == b
  | .arr as, .arr bs => sameItems as bs
  | .obj as, .obj bs => sameMembers as bs
  | _, _ => false

def sameItems : List Json → List Json → Bool
  | [], [] => true
  | a :: as, b :: bs => same a b && sameItems as bs
  | _, _ => false

def sameMembers : List (String × Json) → List (String × Json) → Bool
  | [], [] => true
  | (k, a) :: as, (l, b) :: bs => k == l && same a b && sameMembers as bs
  | _, _ => false

end

end Json

end MessageHooks
