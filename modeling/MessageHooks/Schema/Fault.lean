import MessageHooks.Base64
import MessageHooks.Json.Writer
import MessageHooks.Schema.Names
import MessageHooks.Text.Quoted

/-!
# Faults of dynamic values

Why a dynamic value is no value of a format. A fault names what was met and what was expected;
`Fault.message` is its text.
-/

namespace MessageHooks.Schema

/-- What was met in a place where it does not belong. -/
inductive Found where
  | null
  | bool (b : Bool)
  | int (n : Int)
  | float (x : Binary64)
  | text (s : String)
  | list
  | map
  | bareVariant
  deriving DecidableEq

def Found.ofJson : Json → Found
  | .null => .null
  | .bool b => .bool b
  | .int n => .int n
  | .float x => .float x
  | .str s => .text s
  | .arr _ => .list
  | .obj _ => .map

def Found.message : Found → String
  | .null => "null"
  | .bool b => "boolean " ++ ticked (if b then "true" else "false")
  | .int n => "integer " ++ ticked (toString n)
  | .float x => "floating point " ++ ticked (x.write Json.numberStyle)
  | .text s => "string " ++ Text.quote s
  | .list => "sequence"
  | .map => "map"
  | .bareVariant => "unit variant"

/-- Why a dynamic value does not conform. -/
inductive Fault where
  | wrongType (found : Found) (expected : String)
  | wrongValue (found : Found) (expected : String)
  | tooLong (length : Nat)
  | unknownField (name : String) (declared : List String)
  | unknownVariant (name : String) (declared : List String)
  | base64 (fault : Base64.Fault)
  deriving DecidableEq

def Fault.message : Fault → String
  | .wrongType found expected => "invalid type: " ++ found.message ++ ", expected " ++ expected
  | .wrongValue found expected => "invalid value: " ++ found.message ++ ", expected " ++ expected
  | .tooLong n => "invalid length " ++ toString n ++ ", expected fewer elements in array"
  | .unknownField name declared => Schema.unknownField name declared
  | .unknownVariant name declared => Schema.unknownVariant name declared
  | .base64 fault => "invalid base64: " ++ fault.message

end MessageHooks.Schema
