import MessageHooks.Error
import MessageHooks.Number.Decimal
import MessageHooks.Schema.Names
import MessageHooks.Text.Quoted
import MessageHooks.Yaml.Plain

/-!
# Faults of a configuration

Why a document is no configuration: it cannot be read as a document, or something in it does not fit
its place. A misfit is reported with the path of names that leads to it.
-/

namespace MessageHooks.Config

/-- What was met in a place where it does not belong. -/
inductive Found where
  | null
  | bool (b : Bool)
  | int (n : Int)
  | float (x : Yaml.Float64)
  | text (s : String)
  | sequence
  | mapping
  deriving DecidableEq

/-- Floating-point numbers are always written plainly, and a half goes up. -/
def floatStyle : Decimal.Style := ⟨.up, fun _ => true⟩

def floatText : Yaml.Float64 → String
  | .finite x => x.write floatStyle
  | .infinite negative => if negative then "-inf" else "inf"
  | .undefined => "NaN"

/-- Integers of more than 64 bits are marked as such. -/
def widthMark (n : Int) : String :=
  if 2 ^ 64 ≤ n then " as u128" else if n < -2 ^ 63 then " as i128" else ""

def Found.message : Found → String
  | .null => "unit value"
  | .bool b => "boolean " ++ Schema.ticked (if b then "true" else "false")
  | .int n => "integer " ++ Schema.ticked (toString n) ++ widthMark n
  | .float x => "floating point " ++ Schema.ticked (floatText x)
  | .text s => "string " ++ Text.quote s
  | .sequence => "sequence"
  | .mapping => "map"

/-- Why something does not fit its place. -/
inductive Fault where
  | wrongType (found : Found) (expected : String)
  | wrongValue (found : Found) (expected : String)
  | unknownField (name : String) (declared : List String)
  | unknownVariant (name : String) (declared : List String)
  | missing (name : String)
  | repeated (name : String)
  deriving DecidableEq

def Fault.message : Fault → String
  | .wrongType found expected => "invalid type: " ++ found.message ++ ", expected " ++ expected
  | .wrongValue found expected => "invalid value: " ++ found.message ++ ", expected " ++ expected
  | .unknownField name declared => Schema.unknownField name declared
  | .unknownVariant name declared => Schema.unknownVariant name declared
  | .missing name => "missing field " ++ Schema.ticked name
  | .repeated name => "duplicate field " ++ Schema.ticked name

inductive Refusal where
  | unreadable
  | misfit (path : List String) (fault : Fault)
  deriving DecidableEq

namespace Refusal

def unreadableText : String := "invalid yaml"

/-- The path to a misfit, set off from what follows. -/
def place (path : List String) : String :=
  if path.isEmpty then "" else String.intercalate "." path ++ ": "

def message : Refusal → String
  | .unreadable => unreadableText
  | .misfit path fault => unreadableText ++ ": " ++ place path ++ fault.message

def toError (r : Refusal) : Error := .badRequest r.message

end Refusal

end MessageHooks.Config
