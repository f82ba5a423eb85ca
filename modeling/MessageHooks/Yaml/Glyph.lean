/-!
# Characters of a YAML text

A text is laid out as a list of glyphs, characters that know their line and column. A glyph of its
own marks the end, so that every place in a text has a glyph. Texts are read in blocks, and a block
with a character that is not allowed is not read at all; then the glyphs stop short of it, without
an end.

* `glyphs`: the layout of a text, as far as it can be read.
* The classes of characters that YAML's rules speak of.
-/

namespace MessageHooks.Yaml

/-- A character and its place. A column counts the characters before it on the line, an offset the
bytes before it in the text. -/
structure Glyph where
  char : Char
  line : Nat
  column : Nat
  offset : Nat

/-- The character of the glyph at the end, which no text holds. -/
def endChar : Char := '\x00'

/-! ## Classes -/

def nextLine : Char := '\u0085'

/-- A mark of byte order, passed over where a line between tokens begins with it. -/
def byteOrderMark : Char := '\ufeff'

def isBreak (c : Char) : Bool :=
  c = '\n' || c = '\r' || c = nextLine || c = '\u2028' || c = '\u2029'

def isBlank (c : Char) : Bool := c = ' ' || c = '\t'

def isEnd (c : Char) : Bool := c = endChar

def isBreakOrEnd (c : Char) : Bool := isBreak c || isEnd c

def isSpace (c : Char) : Bool := isBlank c || isBreakOrEnd c

def isNameChar (c : Char) : Bool :=
  ('0' ≤ c && c ≤ '9') || ('a' ≤ c && c ≤ 'z') || ('A' ≤ c && c ≤ 'Z') || c = '_' || c = '-'

def isFlowMark (c : Char) : Bool :=
  c = ',' || c = '[' || c = ']' || c = '\x7b' || c = '\x7d'

/-- The characters a text may hold: no controls but tabs and breaks, and no code points that are set
aside. -/
def isAllowed (c : Char) : Bool :=
  let n := c.toNat
  n = 0x09 || n = 0x0a || n = 0x0d || (0x20 ≤ n && n ≤ 0x7e) || n = 0x85 ||
    (0xa0 ≤ n && n ≤ 0xfffd) || 0x10000 ≤ n

/-! ## Layout -/

/-- Lay characters out from a place on. The two characters of a combined break end one line and
stand in one column. -/
def layOut (line column offset : Nat) : List Char → List Glyph
  | [] => [⟨endChar, line, column, offset⟩]
  | c :: cs =>
    let next := offset + c.utf8Size
    ⟨c, line, column, offset⟩ ::
      if c = '\r' && cs.head? = some '\n' then layOut line column next cs
      else if isBreak c then layOut (line + 1) 0 next cs
      else layOut line (column + 1) next cs

/-- A block holds as many characters as fit into this many bytes. -/
def blockSize : Nat := 16384

/-- How many characters come before the first block that cannot be read, if there is one. `before`
are in blocks before the present one, `within` in the present one, which has `room` bytes left. -/
def readLength? (before within room : Nat) : List Char → Option Nat
  | [] => none
  | c :: cs =>
    if room < c.utf8Size then
      if isAllowed c then readLength? (before + within) 1 (blockSize - c.utf8Size) cs
      else some (before + within)
    else if isAllowed c then readLength? before (within + 1) (room - c.utf8Size) cs
    else some before

def glyphs (s : String) : List Glyph :=
  let cs := s.toList
  let gs := layOut 0 0 0 cs
  match readLength? 0 0 blockSize cs with
  | some n => gs.take n
  | none => gs

def charAt (gs : List Glyph) (n : Nat) : Char := (gs[n]?.map Glyph.char).getD endChar

def columnOf (gs : List Glyph) : Nat := (gs.head?.map Glyph.column).getD 0

/-- Whether a line begins with three of the given character, set apart from what follows. -/
def isTriple (c : Char) (gs : List Glyph) : Bool :=
  columnOf gs = 0 && charAt gs 0 = c && charAt gs 1 = c && charAt gs 2 = c && isSpace (charAt gs 3)

/-- Whether a line begins with the mark of a document's start or end. -/
def isDocumentMark (gs : List Glyph) : Bool := isTriple '-' gs || isTriple '.' gs

/-- Whether the glyphs begin with a combined break. -/
def isCombinedBreak (gs : List Glyph) : Bool := charAt gs 0 = '\r' && charAt gs 1 = '\n'

def dropBreak (gs : List Glyph) : List Glyph :=
  if isCombinedBreak gs then gs.drop 2 else if isBreak (charAt gs 0) then gs.drop 1 else gs

/-- A break as it stands in a scalar's text. The separators of lines and paragraphs stay. -/
def breakText (c : Char) : Char := if c = '\u2028' || c = '\u2029' then c else '\n'

/-- The longest beginning whose characters are in a class, and the rest. -/
def spanChars (p : Char → Bool) (gs : List Glyph) : List Char × List Glyph :=
  ((gs.takeWhile fun g => p g.char).map Glyph.char, gs.dropWhile fun g => p g.char)

end MessageHooks.Yaml
