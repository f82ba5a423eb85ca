import MessageHooks.Number.Binary64
import MessageHooks.Number.Digits

/-!
# Values of plain scalars

What a scalar says that is written without marks: nothing, a truth value, a number, or else its own
text. An integer has one of four bases and at most 128 bits. A decimal number with zeros in front is
no number but text.

* `Plain.unsigned?`, `Plain.signed?`: the integers of a text.
* `Plain.float?`: the floating-point number of a text.
* `Plain.value`: what a plain scalar says.
-/

namespace MessageHooks.Yaml

inductive Float64 where
  | finite (x : Binary64)
  | infinite (negative : Bool)
  | undefined
  deriving DecidableEq

inductive Value where
  | null
  | bool (b : Bool)
  | int (n : Int)
  | float (x : Float64)
  | text
  deriving DecidableEq

namespace Plain

def isNull (s : String) : Bool := ["~", "null", "Null", "NULL"].contains s

def bool? (s : String) : Option Bool :=
  if ["true", "True", "TRUE"].contains s then some true
  else if ["false", "False", "FALSE"].contains s then some false
  else none

/-! ## Integers -/

/-- The base that a letter after a zero announces. -/
def base? (c : Char) : Option Nat :=
  match c with
  | 'x' => some 16
  | 'o' => some 8
  | 'b' => some 2
  | _ => none

def dropSign : List Char → List Char
  | '-' :: cs => cs
  | '+' :: cs => cs
  | cs => cs

/-- Whether the text is a run of at least two digits that begins with zero, with or without a
sign. -/
def isZeroPadded (cs : List Char) : Bool :=
  let ds := dropSign cs
  ds.head? = some '0' && 1 < ds.length && ds.all Digits.isDecimal

def natural? (cs : List Char) : Option Nat :=
  match cs with
  | '0' :: c :: ds =>
    match base? c with
    | some base => Digits.read? base ds
    | none => if isZeroPadded cs then none else Digits.read? 10 cs
  | _ => Digits.read? 10 cs

def unsigned? (s : String) : Option Nat :=
  match s.toList with
  | '+' :: cs => natural? cs
  | cs => natural? cs

def negative? (s : String) : Option Int :=
  match s.toList with
  | '-' :: cs => (natural? cs).map fun n => -n
  | _ => none

/-- An integer in the range of 128 bits, with or without a sign of its own. -/
def signed? (s : String) : Option Int :=
  match unsigned? s with
  | some n => if n < 2 ^ 128 then some n else none
  | none => (negative? s).filter (-2 ^ 127 ≤ ·)

/-! ## Floating-point numbers -/

/-- A decimal number: its digits as one number, and the power of ten that they are counted in. -/
structure Scaled where
  digits : Nat
  power : Int

/-- The rest of a number from its exponent on. -/
def exponent? : List Char → Option Int
  | [] => some 0
  | c :: cs =>
    if c = 'e' || c = 'E' then
      let n := Digits.read? 10 (dropSign cs)
      if cs.head? = some '-' then n.map fun n => -n else n.map Int.ofNat
    else none

/-- A decimal number without sign. There are digits before the point or after it. -/
def scaled? (cs : List Char) : Option Scaled := do
  let whole := cs.takeWhile Digits.isDecimal
  let rest := cs.dropWhile Digits.isDecimal
  let (fraction, rest) := match rest with
    | '.' :: cs => (cs.takeWhile Digits.isDecimal, cs.dropWhile Digits.isDecimal)
    | _ => ([], rest)
  let n ← Digits.read? 10 (whole ++ fraction)
  return ⟨n, (← exponent? rest) - fraction.length⟩

/-- Past this power of ten, in either direction, every number is too large or rounds to zero. -/
def powerBound : Int := 400

def nearest? (negative : Bool) (d : Scaled) : Option Binary64 :=
  let size := (Nat.toDigits 10 d.digits).length + d.power
  if d.digits = 0 || size < -powerBound then some (.zero negative)
  else if powerBound < size then none
  else if 0 ≤ d.power then Binary64.nearest? negative (d.digits * 10 ^ d.power.toNat) 1
  else Binary64.nearest? negative d.digits (10 ^ d.power.natAbs)

def finite? (s : String) : Option Binary64 :=
  match s.toList with
  | '-' :: cs => (scaled? cs).bind (nearest? true)
  | '+' :: cs => (scaled? cs).bind (nearest? false)
  | cs => (scaled? cs).bind (nearest? false)

def infinities : List String := [".inf", ".Inf", ".INF"]

def float? (s : String) : Option Float64 :=
  if infinities.contains s || (infinities.map ("+" ++ ·)).contains s then some (.infinite false)
  else if (infinities.map ("-" ++ ·)).contains s then some (.infinite true)
  else if [".nan", ".NaN", ".NAN"].contains s then some .undefined
  else (finite? s).map .finite

/-! ## All kinds -/

def value (s : String) : Value :=
  if s.isEmpty || isNull s then .null
  else match bool? s with
    | some b => .bool b
    | none =>
      match signed? s with
      | some n => .int n
      | none =>
        if isZeroPadded s.toList then .text
        else match float? s with
          | some x => .float x
          | none => .text

end Plain

end MessageHooks.Yaml
