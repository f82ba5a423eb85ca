import MessageHooks.Number.Power

/-!
# Finite binary floating-point numbers

A finite 64-bit number is a sign and a magnitude, the 63 bits below the sign. Magnitudes count the
representable values upward from zero, so the neighbours of a number have the magnitudes beside its
own. All arithmetic is exact arithmetic on naturals, rounded once.

* `Binary64.units`: the absolute value as a multiple of `2 ^ -1074`, the least positive number.
* `Binary64.nearest?`: the number nearest to a quotient, a tie going to the even magnitude.
* `Binary64.toInt?`: the integer a number is equal to, if it is one.
-/

namespace MessageHooks

/-- Finite double-precision numbers; the two zeros are different members. -/
structure Binary64 where
  negative : Bool
  magnitude : Nat
  finite : magnitude < 2047 * 2 ^ 52
  deriving DecidableEq

namespace Binary64

/-- The `j`-th non-negative number, in multiples of `2 ^ -1074`. -/
def unitsAt (j : Nat) : Nat :=
  if j < 2 ^ 52 then j else (2 ^ 52 + j % 2 ^ 52) * 2 ^ (j / 2 ^ 52 - 1)

/-- The absolute value in multiples of `2 ^ -1074`. -/
def units (x : Binary64) : Nat := unitsAt x.magnitude

def one : Nat := 2 ^ 1074

/-- Where a half goes when it is rounded to a whole number: to the even neighbour, or up. -/
inductive Tie where
  | toEven
  | up
  deriving DecidableEq

/-- `num / den` rounded to the nearest whole number. -/
def roundNearest (tie : Tie) (num den : Nat) : Nat :=
  let q := num / den
  let twice := 2 * (num % den)
  if twice < den then q
  else if den < twice then q + 1
  else match tie with
    | .toEven => q + q % 2
    | .up => q + 1

/-- The magnitude nearest to `num / den`. The quotient is first cut to units; its length says how
many of its low bits fall to the exponent, and rounding happens once, at that place. -/
def nearestMagnitude (num den : Nat) : Nat :=
  let shift := (num * one / den).log2 - 52
  shift * 2 ^ 52 + roundNearest .toEven (num * one) (den * 2 ^ shift)

/-- The number with the given sign that is nearest to `num / den`; none when that is past the
largest finite number. -/
def nearest? (negative : Bool) (num den : Nat) : Option Binary64 :=
  let j := nearestMagnitude num den
  if h : j < 2047 * 2 ^ 52 then some ⟨negative, j, h⟩ else none

def zero (negative : Bool) : Binary64 := ⟨negative, 0, by decide⟩

instance : Inhabited Binary64 := ⟨zero false⟩

def isZero (x : Binary64) : Bool := x.magnitude == 0

def neg (x : Binary64) : Binary64 := { x with negative := !x.negative }

def mul? (x y : Binary64) : Option Binary64 :=
  nearest? (x.negative != y.negative) (x.units * y.units) (one * one)

def div? (x y : Binary64) : Option Binary64 :=
  nearest? (x.negative != y.negative) x.units y.units

def toInt? (x : Binary64) : Option Int :=
  if x.units % one = 0 then
    let n : Int := (x.units / one : Nat)
    some (if x.negative then -n else n)
  else none

/-- Equality as numbers: the two zeros are the same. -/
def same (x y : Binary64) : Bool := x = y || (x.isZero && y.isZero)

end Binary64

end MessageHooks
