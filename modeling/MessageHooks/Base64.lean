/-!
# Base64

The standard alphabet with required padding. Reading is strict: the alphabet only, padding exactly
where it belongs, and no bits set past the last byte, so each list of bytes has one written form.

* `Base64.encode`: groups of three bytes as four symbols.
* `Base64.decode`: the bytes, or the first fault and its place.
-/

namespace MessageHooks.Base64

/-- Why a list of symbols stands for no bytes. Places count from the first symbol. -/
inductive Fault where
  | symbol (place : Nat) (byte : UInt8)
  | lastSymbol (place : Nat) (byte : UInt8)
  | length (n : Nat)
  | padding
  deriving DecidableEq, Repr

def Fault.message : Fault → String
  | .symbol place byte => s!"Invalid symbol {byte.toNat}, offset {place}."
  | .lastSymbol place byte => s!"Invalid last symbol {byte.toNat}, offset {place}."
  | .length n => s!"Invalid input length: {n}"
  | .padding => "Invalid padding"

/-! ## Alphabet -/

/-- The padding symbol, an equals sign, which fills the last group. -/
def pad : UInt8 := 61

def symbol (n : Nat) : UInt8 :=
  if n < 26 then UInt8.ofNat (65 + n)
  else if n < 52 then UInt8.ofNat (71 + n)
  else if n < 62 then UInt8.ofNat (n - 4)
  else if n = 62 then 43
  else 47

def value? (b : UInt8) : Option Nat :=
  let n := b.toNat
  if 65 ≤ n ∧ n ≤ 90 then some (n - 65)
  else if 97 ≤ n ∧ n ≤ 122 then some (n - 71)
  else if 48 ≤ n ∧ n ≤ 57 then some (n + 4)
  else if n = 43 then some 62
  else if n = 47 then some 63
  else none

/-! ## Writing -/

/-- Four symbols for every three bytes; a shorter last group is filled with padding. -/
def encode : List UInt8 → List UInt8
  | a :: b :: c :: rest =>
    let n := a.toNat * 65536 + b.toNat * 256 + c.toNat
    symbol (n / 262144) :: symbol (n / 4096 % 64) :: symbol (n / 64 % 64) :: symbol (n % 64) ::
      encode rest
  | [a, b] =>
    let n := a.toNat * 1024 + b.toNat * 4
    [symbol (n / 4096), symbol (n / 64 % 64), symbol (n % 64), pad]
  | [a] => [symbol (a.toNat / 4), symbol (a.toNat % 4 * 16), pad, pad]
  | [] => []

/-! ## Reading -/

def read (place : Nat) (b : UInt8) : Except Fault Nat :=
  match value? b with
  | some n => .ok n
  | none => .error (.symbol place b)

def bytesOfFour (a b c d : Nat) : List UInt8 :=
  let n := a * 262144 + b * 4096 + c * 64 + d
  [UInt8.ofNat (n / 65536), UInt8.ofNat (n / 256 % 256), UInt8.ofNat (n % 256)]

/-- The numbers in the last group, and how many padding symbols follow them. Padding may begin at
the third symbol; a symbol after padding makes the first padding symbol the fault. -/
def readLast (start : Nat) : Nat → Option Nat → List UInt8 → Except Fault (List Nat × Nat)
  | _, none, [] => .ok ([], 0)
  | i, some p, [] => .ok ([], i - p)
  | i, firstPad, b :: rest =>
    if b = pad then
      if i < 2 then .error (.symbol (start + i) b)
      else readLast start (i + 1) (firstPad <|> some i) rest
    else
      match firstPad with
      | some p => .error (.symbol (start + p) pad)
      | none =>
        (read (start + i) b).bind fun n =>
          (readLast start (i + 1) none rest).map fun (ns, pads) => (n :: ns, pads)

/-- The bytes of the numbers in the last group. The bits of the last symbol that belong to no byte
are zero. -/
def bytesOfLast (start pads : Nat) (last : UInt8) (ns : List Nat) : Except Fault (List UInt8) :=
  if ns.length < 2 then .error (.length (start + ns.length))
  else if (ns.length + pads) % 4 ≠ 0 then .error .padding
  else match ns with
    | [a, b] =>
      if b % 16 ≠ 0 then .error (.lastSymbol (start + 1) last)
      else .ok [UInt8.ofNat (a * 4 + b / 16)]
    | [a, b, c] =>
      if c % 4 ≠ 0 then .error (.lastSymbol (start + 2) last)
      else .ok [UInt8.ofNat (a * 4 + b / 16), UInt8.ofNat (b % 16 * 16 + c / 4)]
    | [a, b, c, d] => .ok (bytesOfFour a b c d)
    | _ => .error .padding

/-- The bytes of the last group: whole, or cut short and filled with padding. -/
def decodeLast (start : Nat) (group : List UInt8) : Except Fault (List UInt8) :=
  if group.isEmpty then .ok []
  else (readLast start 0 none group).bind fun (ns, pads) =>
    bytesOfLast start pads (group.getD (ns.length - 1) 0) ns

/-- The bytes of groups of four symbols; only the last group may hold padding. -/
def decodeGroups (start : Nat) : List UInt8 → Except Fault (List UInt8)
  | a :: b :: c :: d :: e :: rest => do
    let bytes := bytesOfFour (← read start a) (← read (start + 1) b) (← read (start + 2) c)
      (← read (start + 3) d)
    return bytes ++ (← decodeGroups (start + 4) (e :: rest))
  | group => decodeLast start group

/-- A single symbol after whole groups that is neither in the alphabet nor padding. -/
def strayLast? (symbols : List UInt8) : Option Fault :=
  let last := symbols.getLastD pad
  if symbols.length % 4 = 1 ∧ last ≠ pad ∧ value? last = none then
    some (.symbol (symbols.length - 1) last)
  else none

/-- The bytes a list of symbols stands for. A stray last symbol is looked at first. -/
def decode (symbols : List UInt8) : Except Fault (List UInt8) :=
  match strayLast? symbols with
  | some fault => .error fault
  | none => decodeGroups 0 symbols

/-! ## Text -/

def encodeText (bytes : List UInt8) : String :=
  String.ofList ((encode bytes).map fun b => Char.ofNat b.toNat)

def decodeText (s : String) : Except Fault (List UInt8) := decode s.toUTF8.toList

end MessageHooks.Base64
