import MessageHooks.Json.Basic
import MessageHooks.Number.Decimal

/-!
# Writing JSON text

Values are written without blanks. In texts only quotation marks, backslashes and control
characters are escaped.
-/

namespace MessageHooks.Json

/-- Floating-point numbers are written plainly from a hundred-thousandth to ten quadrillions, and
scientifically outside. A half goes to the even neighbour. -/
def numberStyle : Decimal.Style := ⟨.toEven, fun point => -5 < point && point ≤ 16⟩

def hexDigit (n : Nat) : Char := Nat.digitChar (n % 16)

def writeChar (c : Char) : List Char :=
  if c = '"' then ['\\', '"']
  else if c = '\\' then ['\\', '\\']
  else if c = '\n' then ['\\', 'n']
  else if c = '\r' then ['\\', 'r']
  else if c = '\t' then ['\\', 't']
  else if c.toNat < 0x20 then ['\\', 'u', '0', '0', hexDigit (c.toNat / 16), hexDigit c.toNat]
  else [c]

def writeText (s : String) : List Char := '"' :: s.toList.flatMap writeChar ++ ['"']

mutual

def writeValue : Json → List Char
  | .null => "null".toList
  | .bool true => "true".toList
  | .bool false => "false".toList
  | .int n => (toString n).toList
  | .float x => (x.write numberStyle).toList
  | .str s => writeText s
  | .arr items => '[' :: writeItems items ++ [']']
  | .obj members => '\x7b' :: writeMembers members ++ ['\x7d']

def writeItems : List Json → List Char
  | [] => []
  | [v] => writeValue v
  | v :: vs => writeValue v ++ ',' :: writeItems vs

def writeMembers : List (String × Json) → List Char
  | [] => []
  | [(k, v)] => writeText k ++ ':' :: writeValue v
  | (k, v) :: ms => writeText k ++ ':' :: writeValue v ++ ',' :: writeMembers ms

end

def write (v : Json) : String := String.ofList (writeValue v)

end MessageHooks.Json
