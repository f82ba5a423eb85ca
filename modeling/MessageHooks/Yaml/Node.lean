import MessageHooks.Yaml.Token

/-!
# Nodes

The tree that a text spells out. A text is read as far as it goes: where it breaks off or goes
wrong, the tree has a cut, and nothing comes after it.

An anchor gives a node a number, and an alias holds one; it stands for the last node of that number.

* `Node.find?`: the last node of a number.
-/

namespace MessageHooks.Yaml

inductive Node where
  | cut
  | alias (number : Nat)
  | scalar (mark : Option Nat) (tag : Option Tag) (style : Style) (text : String)
  | sequence (mark : Option Nat) (tag : Option Tag) (items : List Node)
  | mapping (mark : Option Nat) (tag : Option Tag) (entries : List (Node × Node))

namespace Node

/-- The node of a place where nothing is written. -/
def blank : Node := .scalar none none .plain ""

mutual

def find? (number : Nat) : Node → Option Node
  | .cut => none
  | .alias _ => none
  | .scalar mark tag style text =>
    if mark = some number then some (.scalar mark tag style text) else none
  | .sequence mark tag items =>
    (findItem? number items).or
      (if mark = some number then some (.sequence mark tag items) else none)
  | .mapping mark tag entries =>
    (findPair? number entries).or
      (if mark = some number then some (.mapping mark tag entries) else none)

def findItem? (number : Nat) : List Node → Option Node
  | [] => none
  | n :: ns => (findItem? number ns).or (find? number n)

def findPair? (number : Nat) : List (Node × Node) → Option Node
  | [] => none
  | (k, v) :: es => (findPair? number es).or ((find? number v).or (find? number k))

end

end Node

end MessageHooks.Yaml
