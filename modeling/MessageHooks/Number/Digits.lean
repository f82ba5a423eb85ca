import MessageHooks.Number.Power

/-!
# Digits

The digits of the bases up to sixteen. Letters of either case go on from nine.

* `Digits.read?`: the number that a run of digits stands for, in a base.
-/

namespace MessageHooks.Digits

def isDecimal (c : Char) : Bool := '0' ≤ c && c ≤ '9'

def decimalValue (c : Char) : Nat := c.toNat - '0'.toNat

/-- The value of a digit in any base that has it. -/
def value? (c : Char) : Option Nat :=
  if isDecimal c then some (decimalValue c)
  else if 'a' ≤ c && c ≤ 'f' then some (c.toNat - 'a'.toNat + 10)
  else if 'A' ≤ c && c ≤ 'F' then some (c.toNat - 'A'.toNat + 10)
  else none

def ofDecimal (ds : List Char) : Nat := ds.foldl (fun n c => 10 * n + decimalValue c) 0

/-- The value of a digit, if the base has it. -/
def inBase? (base : Nat) (c : Char) : Option Nat := (value? c).filter (· < base)

/-- The number that a run of digits stands for. There is at least one digit, and the base has them
all. -/
def read? (base : Nat) (ds : List Char) : Option Nat :=
  if ds.isEmpty then none
  else (ds.mapM (inBase? base)).map fun ns => ns.foldl (fun n d => base * n + d) 0

end MessageHooks.Digits
