import MessageHooks.Json.Basic
import MessageHooks.Number.Digits

/-!
# Number literals

An integer literal that fits in 64 bits, signed or not, is an integer. Every other literal is a
floating-point number, and so is the negative zero.

A floating-point literal is read in two rounded steps. The significand is made of the leading digits
that fit in 64 bits, any further ones counting only as powers of ten; it is rounded, and then
multiplied or divided by a rounded power of ten. So a literal of many digits can miss the nearest
number by a last place.
-/

namespace MessageHooks.Json

def significandLimit : Nat := 2 ^ 64 - 1

/-- Append digits to a significand while it fits; the digits left over come second. -/
def extend (significand : Nat) : List Char → Nat × List Char
  | [] => (significand, [])
  | c :: cs =>
    let next := 10 * significand + Digits.decimalValue c
    if next ≤ significandLimit then extend next cs else (significand, c :: cs)

/-! ## Scaling -/

/-- The number nearest to a power of ten. Powers up to 308 are finite. -/
def powerOfTen (k : Nat) : Binary64 := (Binary64.nearest? false (10 ^ k) 1).getD default

/-- `x * 10 ^ power` by one rounded step for each 308 powers; none when it is too large. -/
def scale (x : Binary64) (power : Int) : Option Binary64 :=
  if power.natAbs ≤ 308 then
    if 0 ≤ power then x.mul? (powerOfTen power.natAbs) else x.div? (powerOfTen power.natAbs)
  else if x.isZero then some x
  else if 0 ≤ power then none
  else (x.div? (powerOfTen 308)).bind fun y => scale y (power + 308)
termination_by power.natAbs

def floatOf (negative : Bool) (significand : Nat) (power : Int) : Option Json := do
  let x ← Binary64.nearest? false significand 1
  let y ← scale x power
  return .float (if negative then y.neg else y)

/-! ## Parts of a literal -/

/-- The largest exponent that is counted out; past it a number is zero or too large. -/
def exponentLimit : Nat := 2 ^ 31 - 1

/-- The rest of a literal from its exponent mark on. -/
def readExponent (negative : Bool) (significand : Nat) (power : Int) : List Char → Option Json
  | [] => none
  | c :: cs =>
    let (down, ds) :=
      if c = '-' then (true, cs) else if c = '+' then (false, cs) else (false, c :: cs)
    if ds.isEmpty || !ds.all Digits.isDecimal then none
    else
      let e := Digits.ofDecimal ds
      if e ≤ exponentLimit then
        floatOf negative significand (if down then power - e else power + e)
      else if significand = 0 || down then some (.float (.zero negative))
      else none

/-- The rest of a literal after its digits. -/
def readTail (negative : Bool) (significand : Nat) (power : Int) : List Char → Option Json
  | [] => floatOf negative significand power
  | c :: cs => if c = 'e' || c = 'E' then readExponent negative significand power cs else none

/-- The rest of a literal from its point on. -/
def readFraction (negative : Bool) (significand : Nat) (power : Int) (cs : List Char) :
    Option Json :=
  let ds := cs.takeWhile Digits.isDecimal
  if ds.isEmpty then none
  else
    let (significand, dropped) := extend significand ds
    let taken := ds.length - dropped.length
    readTail negative significand (power - taken) (cs.dropWhile Digits.isDecimal)

/-- An integer without point or exponent, all of whose digits fit. -/
def integerOf (negative : Bool) (n : Nat) : Option Json :=
  if !negative then some (.int n)
  else if 0 < n && n ≤ 2 ^ 63 then some (.int (-n))
  else floatOf true n 0

/-- The number a literal without sign stands for. -/
def readUnsigned (negative : Bool) (cs : List Char) : Option Json :=
  let ds := cs.takeWhile Digits.isDecimal
  let rest := cs.dropWhile Digits.isDecimal
  if ds.isEmpty || (ds.head? = some '0' && 1 < ds.length) then none
  else
    let (significand, dropped) := extend 0 ds
    match rest with
    | [] =>
      if dropped.isEmpty then integerOf negative significand
      else floatOf negative significand dropped.length
    | '.' :: rest => readFraction negative significand dropped.length rest
    | rest => readTail negative significand dropped.length rest

def ofNumeral? : List Char → Option Json
  | '-' :: cs => readUnsigned true cs
  | cs => readUnsigned false cs

end MessageHooks.Json
