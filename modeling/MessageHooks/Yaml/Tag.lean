import MessageHooks.Yaml.Scalar

/-!
# Tags

A tag says what kind of value a node has. It is a string of octets, written in full between angle
brackets or as a suffix to a handle, whose own octets a document declares. Octets other than those
of the characters allowed are written as escapes, which must spell out whole characters.

* `Tag.read?`: the tag that the glyphs begin with, as it is written.
* `TagHandles.resolve?`: the octets that a written tag stands for.
-/

namespace MessageHooks.Yaml

abbrev Tag := List UInt8

namespace Tag

def ofText (s : String) : Tag := s.toUTF8.toList

/-- The mark that all local tags begin with. -/
def localMark : UInt8 := '!'.toUInt8

/-- The tag that leaves the kind of value open. -/
def nonSpecific : Tag := [localMark]

/-- What the tags of the core schema begin with. -/
def coreStart : Tag := ofText "tag:yaml.org,2002:"

def core (name : String) : Tag := coreStart ++ ofText name

/-! ## Octets as written -/

/-- The characters that stand for their own octets. -/
def isPlainChar (c : Char) : Bool := isNameChar c || ";/?:@&=+$.!~*'()".toList.contains c

/-- The characters that do so where no flow collection can be mistaken. -/
def isBracketedChar (c : Char) : Bool := isPlainChar c || c = ',' || c = '[' || c = ']'

def octet? (a b : Char) : Option UInt8 := do
  return .ofNat (16 * (← Digits.value? a) + (← Digits.value? b))

/-- How many octets follow the first one of a character. -/
def trailing? (first : UInt8) : Option Nat :=
  if first < 0x80 then some 0
  else if 0xc0 ≤ first && first < 0xe0 then some 1
  else if 0xe0 ≤ first && first < 0xf0 then some 2
  else if 0xf0 ≤ first && first < 0xf8 then some 3
  else none

/-- What is left of a character after one more of its octets. -/
def leftAfter? (left : Nat) (octet : UInt8) : Option Nat :=
  if left = 0 then trailing? octet
  else if 0x80 ≤ octet && octet < 0xc0 then some (left - 1)
  else none

/-- The octets that the glyphs begin with. `left` is how many the last escape still lacks. -/
def octets? (p : Char → Bool) (left : Nat) : List Glyph → Option (Tag × List Glyph)
  | [] => if left = 0 then some ([], []) else none
  | g :: gs =>
    if g.char = '%' then
      match gs with
      | a :: b :: gs => do
        let octet ← octet? a.char b.char
        let left ← leftAfter? left octet
        let (octets, rest) ← octets? p left gs
        return (octet :: octets, rest)
      | _ => none
    else if left ≠ 0 then none
    else if p g.char then
      (octets? p 0 gs).map fun (octets, rest) => (g.char.toUInt8 :: octets, rest)
    else some ([], g :: gs)

/-- A tag ends at a zero octet. -/
def untilZero (octets : Tag) : Tag := octets.takeWhile (· ≠ 0)

def someOctets? (p : Char → Bool) (gs : List Glyph) : Option (Tag × List Glyph) := do
  let (octets, rest) ← octets? p 0 gs
  if octets.isEmpty then none else some (untilZero octets, rest)

/-! ## Handles -/

/-- A handle: a mark, a name, and a second mark unless both name and mark are left out. What has a
name but no second mark is not a handle but the beginning of a tag; `closed` tells them apart. -/
structure Handle where
  name : List Char
  closed : Bool

namespace Handle

def text (h : Handle) : String :=
  String.ofList ('!' :: h.name ++ if h.closed then ['!'] else [])

/-- The handle after its first mark. -/
def readRest (gs : List Glyph) : Handle × List Glyph :=
  let (name, rest) := spanChars isNameChar gs
  if charAt rest 0 = '!' then (⟨name, true⟩, rest.drop 1) else (⟨name, false⟩, rest)

end Handle

/-- The handle that stands for itself. -/
def plainHandle : Handle := ⟨[], false⟩

/-- The handle of the core schema's tags. -/
def coreHandle : Handle := ⟨[], true⟩

/-- A handle that a document may declare. -/
def declaredHandle? (gs : List Glyph) : Option (String × List Glyph) :=
  if charAt gs 0 = '!' then
    let (h, rest) := Handle.readRest (gs.drop 1)
    if h.closed || h.name.isEmpty then some (h.text, rest) else none
  else none

/-! ## Tags as written -/

/-- A tag as it is written: in full, or as a handle and a suffix. -/
inductive Spelling where
  | full (tag : Tag)
  | short (handle : String) (suffix : Tag)

def readFull? (gs : List Glyph) : Option (Spelling × List Glyph) := do
  let (tag, rest) ← someOctets? isBracketedChar gs
  if charAt rest 0 = '>' then some (.full tag, rest.drop 1) else none

/-- A tag with a handle, after its first mark. A mark that stands alone is the tag that leaves the
kind of value open. -/
def readShort? (gs : List Glyph) : Option (Spelling × List Glyph) := do
  let (h, rest) := Handle.readRest gs
  if h.closed then
    let (suffix, rest) ← someOctets? isPlainChar rest
    return (.short h.text suffix, rest)
  else
    let (octets, rest) ← octets? isPlainChar 0 rest
    let suffix := untilZero (h.name.map Char.toUInt8 ++ octets)
    return (if suffix.isEmpty then .full nonSpecific else .short plainHandle.text suffix, rest)

/-- The tag after its first mark. A tag ends with its word, or in a flow collection with its
entry. -/
def read? (inFlow : Bool) (gs : List Glyph) : Option (Spelling × List Glyph) := do
  let (tag, rest) ← if charAt gs 0 = '<' then readFull? (gs.drop 1) else readShort? gs
  if isSpace (charAt rest 0) || (inFlow && charAt rest 0 = ',') then some (tag, rest) else none

end Tag

/-- The handles of a document and the octets they stand for. -/
abbrev TagHandles := List (String × Tag)

namespace TagHandles

/-- The handles of every document that does not declare them. -/
def default : TagHandles :=
  [(Tag.plainHandle.text, Tag.nonSpecific), (Tag.coreHandle.text, Tag.coreStart)]

def resolve? (handles : TagHandles) : Tag.Spelling → Option Tag
  | .full tag => some tag
  | .short handle suffix => (List.lookup handle handles).map (· ++ suffix)

end TagHandles

end MessageHooks.Yaml
