import MessageHooks.Json.Basic

/-!
# Members at a path

A path is a list of keys, followed from an object inwards.

* `Object.at?`: the value at a path.
* `Object.setAt`: the object with a value put at a path; objects are made on the way where there
  are none.
* `Object.dropAt`, `Object.adjustAt`: drop or change the value at a path, if there is one.
-/

namespace MessageHooks.Json

/-- The members of a value; a value that is no object has none. -/
def members : Json → Object
  | .obj ms => ms
  | _ => []

namespace Object

def at? (m : Object) : List String → Option Json
  | [] => none
  | [k] => Entries.get? k m
  | k :: path => (Entries.get? k m).bind fun v => at? v.members path

/-- Put `v` at a path. A member on the way that is missing or no object becomes an object. -/
def setAt (v : Json) : List String → Object → Object
  | [], m => m
  | [k], m => Entries.insert k v m
  | k :: path, m =>
    let inner := ((Entries.get? k m).map members).getD []
    Entries.insert k (.obj (setAt v path inner)) m

/-- Change what the last key of a path stands for, if its object is there. -/
def changeAt (change : String → Object → Object) : List String → Object → Object
  | [], m => m
  | [k], m => change k m
  | k :: path, m =>
    match Entries.get? k m with
    | some (.obj inner) => Entries.insert k (.obj (changeAt change path inner)) m
    | _ => m

def dropAt : List String → Object → Object := changeAt Entries.erase

def adjustAt (f : Json → Json) : List String → Object → Object :=
  changeAt fun k m => match Entries.get? k m with
    | some v => Entries.insert k (f v) m
    | none => m

end Object

end MessageHooks.Json
