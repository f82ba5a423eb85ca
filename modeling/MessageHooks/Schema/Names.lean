/-!
# Lists of declared names

An unknown member or variant is reported with the names that are declared in its place.
-/

namespace MessageHooks.Schema

/-- A name between the marks that set it off in a message. -/
def ticked (name : String) : String := "`" ++ name ++ "`"

/-- The declared names in the words of a message; `what` names them when there are none. -/
def expectation (what : String) : List String → String
  | [] => "there are no " ++ what
  | [a] => "expected " ++ ticked a
  | [a, b] => "expected " ++ ticked a ++ " or " ++ ticked b
  | names => "expected one of " ++ String.intercalate ", " (names.map ticked)

def unknownField (name : String) (declared : List String) : String :=
  "unknown field " ++ ticked name ++ ", " ++ expectation "fields" declared

def unknownVariant (name : String) (declared : List String) : String :=
  "unknown variant " ++ ticked name ++ ", " ++ expectation "variants" declared

end MessageHooks.Schema
