import MessageHooks.Number.Binary64

/-!
# Decimal forms of floating-point numbers

A decimal is a list of digits and the place of its point. Each finite number has a shortest decimal
that reads back as that number, and of several the nearest. A `Style` says which one it is when two
are equally near, and how it is written.

* `Decimal.shortest`: the fewest digits that read back.
* `Decimal.write`: plain notation inside the bounds of the style, scientific notation outside.
-/

namespace MessageHooks

/-- The value `0.d₁d₂… * 10 ^ point` of the digits `d₁d₂…`. -/
structure Decimal where
  digits : List Char
  point : Int
  deriving DecidableEq

namespace Decimal

/-- The digits of a whole number times a power of ten, without the zeros at its end. -/
def ofScaled (n : Nat) (power : Int) : Decimal :=
  let ds := Nat.toDigits 10 n
  ⟨(ds.reverse.dropWhile (· = '0')).reverse, ds.length + power⟩

/-! ## Shortest digits -/

/-- `k` such that `10 ^ k ≤ x < 10 ^ (k + 1)`. The factor makes every positive number whole. -/
def leadingPower (x : Binary64) : Int :=
  (Nat.toDigits 10 (x.units * 10 ^ 340 / Binary64.one)).length - 341

/-- `num / den` is `x / 10 ^ power`. -/
def gridQuotient (x : Binary64) (power : Int) : Nat × Nat :=
  if 0 ≤ power then (x.units, Binary64.one * 10 ^ power.toNat)
  else (x.units * 10 ^ (-power).toNat, Binary64.one)

/-- Whether `c * 10 ^ power` reads back as `x`: it lies between the midpoints to the neighbours of
`x`, or on one of them when the magnitude is even. -/
def readsBack (x : Binary64) (power : Int) (c : Nat) : Bool :=
  let low := Binary64.unitsAt (x.magnitude - 1) + x.units
  let high := x.units + Binary64.unitsAt (x.magnitude + 1)
  let up := 10 ^ power.toNat
  let down := 10 ^ (-power).toNat
  let c := c * up * (2 * Binary64.one)
  let low := low * down
  let high := high * down
  if x.magnitude % 2 = 0 then low ≤ c && c ≤ high else low < c && c < high

/-- The decimal of `n` digits that reads back as `x` and is nearest to it. -/
def ofLength (tie : Binary64.Tie) (x : Binary64) (n : Nat) : Option Decimal :=
  let power := leadingPower x + 1 - n
  let (num, den) := gridQuotient x power
  let below := num / den
  let near := Binary64.roundNearest tie num den
  -- above a power of two the numbers are wider apart than below it, so a decimal on the other side
  -- of `x` may read back where the nearest one does not
  if readsBack x power near then some (ofScaled near power)
  else if readsBack x power below then some (ofScaled below power)
  else if readsBack x power (below + 1) then some (ofScaled (below + 1) power)
  else none

/-- The fewest digits that read back as the absolute value of `x`. Seventeen always do. -/
def shortest (tie : Binary64.Tie) (x : Binary64) : Decimal :=
  if x.isZero then ⟨['0'], 1⟩
  else ((List.range' 1 17).findSome? (ofLength tie x)).getD ⟨['0'], 1⟩

/-! ## Notation -/

/-- How numbers are written: where the last digit goes when two are equally near, and which places
of the point are written plainly. All others are written scientifically. -/
structure Style where
  tie : Binary64.Tie
  isPlain : Int → Bool

/-- Digits around a point, with at least one on each side. -/
def plain (d : Decimal) : List Char :=
  if d.point ≤ 0 then
    '0' :: '.' :: List.replicate (-d.point).toNat '0' ++ d.digits
  else
    let whole := d.point.toNat
    if d.digits.length ≤ whole then
      d.digits ++ List.replicate (whole - d.digits.length) '0' ++ ['.', '0']
    else d.digits.take whole ++ '.' :: d.digits.drop whole

/-- One digit before the point, and the power of ten with its sign. -/
def scientific (d : Decimal) : List Char :=
  let power := d.point - 1
  let mantissa := match d.digits with
    | [] => []
    | [c] => [c]
    | c :: cs => c :: '.' :: cs
  mantissa ++ 'e' :: (if power < 0 then '-' else '+') :: Nat.toDigits 10 power.natAbs

def write (style : Style) (d : Decimal) : List Char :=
  if style.isPlain d.point then plain d else scientific d

end Decimal

/-- The number in its shortest form, with a sign when it is negative. -/
def Binary64.write (style : Decimal.Style) (x : Binary64) : String :=
  String.ofList ((if x.negative then ['-'] else []) ++ (Decimal.shortest style.tie x).write style)

end MessageHooks
