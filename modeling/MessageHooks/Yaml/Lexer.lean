import MessageHooks.Yaml.Token

/-!
# Tokens of a text

A text is cut into tokens from left to right. Two things make this more than a division of the text:
deeper columns open block collections and shallower ones close them, and a key without a sign of its
own is only known when its colon is met. Until then its tokens wait in a queue, so that the tokens
that announce the key can still be put before them.

* `Lexer.fetch`: one more token, with those that indentation adds.
* `tokens`: the tokens of a text, up to its first fault.
-/

namespace MessageHooks.Yaml

/-! ## Words and directives -/

/-- The characters beside spaces that may come after the name of an anchor. -/
def endsName (c : Char) : Bool := isSpace c || "?:,]\x7d%@\x60".toList.contains c

def anchorName? (gs : List Glyph) : Option (String × List Glyph) :=
  let (name, rest) := spanChars isNameChar gs
  if !name.isEmpty && endsName (charAt rest 0) then some (String.ofList name, rest) else none

def versionDigits : Nat := 9

def versionNumber? (gs : List Glyph) : Option (Nat × List Glyph) :=
  let (digits, rest) := spanChars Digits.isDecimal gs
  if digits.isEmpty || versionDigits < digits.length then none
  else some (Digits.ofDecimal digits, rest)

def dropBlanks (gs : List Glyph) : List Glyph := gs.dropWhile fun g => isBlank g.char

def versionDirective? (gs : List Glyph) : Option (Token × List Glyph) := do
  let (major, gs) ← versionNumber? (dropBlanks gs)
  if charAt gs 0 ≠ '.' then none
  let (minor, gs) ← versionNumber? (gs.drop 1)
  return (.version major minor, gs)

def handleDirective? (gs : List Glyph) : Option (Token × List Glyph) := do
  let (handle, gs) ← Tag.declaredHandle? (dropBlanks gs)
  if !isBlank (charAt gs 0) then none
  let (start, gs) ← Tag.someOctets? Tag.isBracketedChar (dropBlanks gs)
  if !isSpace (charAt gs 0) then none
  return (.tagHandle handle start, gs)

/-- A directive, after the sign that begins its line. It takes up the line. -/
def directive? (gs : List Glyph) : Option (Token × List Glyph) := do
  let (name, gs) := spanChars isNameChar gs
  if !isSpace (charAt gs 0) then none
  let (token, gs) ← match String.ofList name with
    | "YAML" => versionDirective? gs
    | "TAG" => handleDirective? gs
    | _ => none
  return (token, ← nextLine? gs)

/-! ## State -/

/-- A place where a key may have begun: the number of its first token and where it stands. A key
whose place admits nothing else is required. -/
structure PossibleKey where
  number : Nat
  line : Nat
  offset : Nat
  column : Nat
  required : Bool

/-- The most bytes from the beginning of a key to its colon. -/
def keyReach : Nat := 1024

/-- A key ends on its line and within reach. -/
def PossibleKey.reaches (k : PossibleKey) (g : Glyph) : Bool :=
  k.line = g.line && g.offset ≤ k.offset + keyReach

/-- The state between two tokens: the columns of the open block collections from the innermost out,
the possible keys at the present place and around each open flow collection, whether a key may
begin, and the queue with the number of its first token. -/
structure Lexer where
  indents : List Nat
  possible : Option PossibleKey
  outer : List (Option PossibleKey)
  keyAllowed : Bool
  queue : List Token
  released : Nat

namespace Lexer

def start : Lexer := ⟨[], none, [], true, [], 0⟩

def inFlow (s : Lexer) : Bool := !s.outer.isEmpty

/-- The column of the innermost block collection, or one that is left of all columns. -/
def indent (s : Lexer) : Int := (s.indents.head?.map Int.ofNat).getD (-1)

def nextNumber (s : Lexer) : Nat := s.released + s.queue.length

def push (s : Lexer) (t : Token) : Lexer := { s with queue := s.queue ++ [t] }

/-- Put a token before the one of the given number. -/
def insert (s : Lexer) (number : Nat) (t : Token) : Lexer :=
  let i := number - s.released
  { s with queue := s.queue.take i ++ t :: s.queue.drop i }

def allowKey (s : Lexer) (allowed : Bool) : Lexer := { s with keyAllowed := allowed }

/-! ## Indentation -/

/-- Close the block collections that are deeper than a column. -/
def close (s : Lexer) (column : Int) : Lexer :=
  if s.inFlow then s
  else
    let deeper (n : Nat) : Bool := column < n
    { s with
      indents := s.indents.dropWhile deeper
      queue := s.queue ++ (s.indents.takeWhile deeper).map fun _ => .blockEnd }

/-- Open a block collection at a column, before the token of the given number, unless the column is
no deeper than the innermost one. -/
def openBlock (s : Lexer) (column number : Nat) (t : Token) : Lexer :=
  if !s.inFlow && s.indent < column then { s.insert number t with indents := column :: s.indents }
  else s

/-- Open a block collection for a sign that stands at a glyph. Where no key may begin, the sign is
out of place. -/
def openFor? (s : Lexer) (g : Glyph) (t : Token) : Option Lexer :=
  if s.inFlow then some s
  else if s.keyAllowed then some (s.openBlock g.column s.nextNumber t)
  else none

/-! ## Possible keys -/

/-- Give up the possible key at the present place. -/
def dropKey? (s : Lexer) : Option Lexer :=
  if s.possible.any PossibleKey.required then none else some { s with possible := none }

/-- Note that a key may begin at a glyph. -/
def noteKey? (s : Lexer) (g : Glyph) : Option Lexer :=
  if s.keyAllowed then
    let required := !s.inFlow && s.indent = g.column
    let k : PossibleKey := ⟨s.nextNumber, g.line, g.offset, g.column, required⟩
    s.dropKey?.map fun s => { s with possible := some k }
  else some s

def keys (s : Lexer) : List PossibleKey := s.possible.toList ++ s.outer.filterMap id

/-- Give up the keys that do not reach the glyph. None reaches the end. -/
def dropUnreachable? (s : Lexer) (gs : List Glyph) : Option Lexer :=
  let reaches (k : PossibleKey) : Bool := match gs with
    | [] => false
    | g :: _ => k.reaches g
  if s.keys.any fun k => k.required && !reaches k then none
  else some { s with
    possible := s.possible.filter reaches
    outer := s.outer.map (·.filter reaches) }

/-- Take the tokens from the queue that no key can come before. -/
def release (s : Lexer) : List Token × Lexer :=
  let bound := (s.keys.map PossibleKey.number).foldl min s.nextNumber
  let n := bound - s.released
  (s.queue.take n, { s with queue := s.queue.drop n, released := s.released + n })

/-! ## Tokens -/

/-- Pass what lies between tokens: spaces, comments and breaks, and a mark of byte order that begins
a line. Tabs are passed where they cannot be mistaken for indentation. The answer also says whether
a key may begin after it. -/
def passSpace (inFlow comment keyAllowed : Bool) : List Glyph → Bool × List Glyph
  | [] => (keyAllowed, [])
  | g :: gs =>
    let c := g.char
    if isBreak c then passSpace inFlow false (keyAllowed || !inFlow) gs
    else if isEnd c then (keyAllowed, g :: gs)
    else if comment || c = '#' then passSpace inFlow true keyAllowed gs
    else if c = ' ' || (c = '\t' && (inFlow || !keyAllowed)) || (c = byteOrderMark && g.column = 0)
    then passSpace inFlow false keyAllowed gs
    else (keyAllowed, g :: gs)

/-- Close everything and expect no key: so begin the marks that belong to no document's content. -/
def leave? (s : Lexer) : Option Lexer := (s.close (-1)).dropKey?.map fun s => s.allowKey false

def openFlow? (s : Lexer) (g : Glyph) (t : Token) : Option Lexer :=
  (s.noteKey? g).map fun s =>
    { s.push t with possible := none, outer := s.possible :: s.outer, keyAllowed := true }

def closeFlow? (s : Lexer) (t : Token) : Option Lexer :=
  s.dropKey?.map fun s =>
    { s.push t with possible := s.outer.head?.join, outer := s.outer.tail, keyAllowed := false }

def entrySign? (s : Lexer) (g : Glyph) : Option Lexer := do
  let s ← s.openFor? g .blockSequenceStart
  let s ← s.dropKey?
  return (s.allowKey true).push .blockEntry

def keySign? (s : Lexer) (g : Glyph) : Option Lexer := do
  let s ← s.openFor? g .blockMappingStart
  let s ← s.dropKey?
  return (s.allowKey (!s.inFlow)).push .key

def valueSign? (s : Lexer) (g : Glyph) : Option Lexer :=
  match s.possible with
  | some k =>
    let s := (s.insert k.number .key).openBlock k.column k.number .blockMappingStart
    some ({ s with possible := none, keyAllowed := false }.push .value)
  | none => (s.openFor? g .blockMappingStart).map fun s => (s.allowKey (!s.inFlow)).push .value

/-- A token that a key may begin with: note the key, then read the token. -/
def keyToken? (s : Lexer) (g : Glyph) (read : Option (Token × List Glyph)) :
    Option (Lexer × List Glyph) := do
  let s ← s.noteKey? g
  let (t, rest) ← read
  return ((s.allowKey false).push t, rest)

def plain? (s : Lexer) (g : Glyph) (gs : List Glyph) : Option (Lexer × List Glyph) := do
  let s ← s.noteKey? g
  let (text, broken, rest) ← plainScalar? s.inFlow (s.indent + 1) (g :: gs)
  return ((s.allowKey broken).push (.scalar .plain text), rest)

def block? (s : Lexer) (fold : Bool) (gs : List Glyph) : Option (Lexer × List Glyph) := do
  let s ← s.dropKey?
  let (text, rest) ← blockScalar? fold s.indent gs
  return ((s.allowKey true).push (.scalar (if fold then .folded else .literal) text), rest)

/-- Whether a plain scalar may begin with a character, given the next one. Signs begin one only
where they cannot be signs. -/
def beginsPlain (inFlow : Bool) (c next : Char) : Bool :=
  if c = '-' then !isBlank next
  else if c = '?' || c = ':' then !inFlow && !isSpace next
  else !isSpace c && !isFlowMark c && !"#&*!|>'\"%@\x60".toList.contains c

/-- Read the token that begins at the first glyph. -/
def token? (s : Lexer) (g : Glyph) (gs : List Glyph) : Option (Lexer × List Glyph) :=
  let c := g.char
  let next := charAt gs 0
  if isEnd c then s.leave?.map fun s => (s.push .streamEnd, [])
  else if c = '%' && g.column = 0 then do
    let s ← s.leave?
    let (t, rest) ← directive? gs
    return (s.push t, rest)
  else if isTriple '-' (g :: gs) then s.leave?.map fun s => (s.push .documentStart, gs.drop 2)
  else if isTriple '.' (g :: gs) then s.leave?.map fun s => (s.push .documentEnd, gs.drop 2)
  else if c = '[' then (s.openFlow? g .flowSequenceStart).map (·, gs)
  else if c = '\x7b' then (s.openFlow? g .flowMappingStart).map (·, gs)
  else if c = ']' then (s.closeFlow? .flowSequenceEnd).map (·, gs)
  else if c = '\x7d' then (s.closeFlow? .flowMappingEnd).map (·, gs)
  else if c = ',' then s.dropKey?.map fun s => ((s.allowKey true).push .flowEntry, gs)
  else if c = '-' && isSpace next then (s.entrySign? g).map (·, gs)
  else if c = '?' && (s.inFlow || isSpace next) then (s.keySign? g).map (·, gs)
  else if c = ':' && (s.inFlow || isSpace next) then (s.valueSign? g).map (·, gs)
  else if c = '*' then s.keyToken? g ((anchorName? gs).map fun (n, rest) => (.alias n, rest))
  else if c = '&' then s.keyToken? g ((anchorName? gs).map fun (n, rest) => (.anchor n, rest))
  else if c = '!' then s.keyToken? g ((Tag.read? s.inFlow gs).map fun (t, rest) => (.tag t, rest))
  else if c = '\'' || c = '"' then
    s.keyToken? g ((quotedScalar? c gs).map fun (text, rest) => (.scalar .quoted text, rest))
  else if (c = '|' || c = '>') && !s.inFlow then s.block? (c = '>') gs
  else if beginsPlain s.inFlow c next then s.plain? g gs
  else none

/-- Read the next token, after closing the block collections that it is left of. Only the token of
the end takes the last glyph; where the glyphs stop short, the token there cannot be read. -/
def fetch? (s : Lexer) (gs : List Glyph) : Option (Lexer × List Glyph) := do
  let (keyAllowed, gs) := passSpace s.inFlow false s.keyAllowed gs
  let s ← (s.allowKey keyAllowed).dropUnreachable? gs
  match gs with
  | [] => none
  | g :: gs =>
    ((s.close g.column).token? g gs).filter fun (_, rest) => isEnd g.char || !rest.isEmpty

/-- The tokens from some glyph on. A fault takes with it the tokens that were still waiting. -/
def tokensFrom (s : Lexer) (gs : List Glyph) : List Token :=
  match s.fetch? gs with
  | none => []
  | some (s, rest) =>
    match s.dropUnreachable? rest with
    | none => []
    | some s =>
      let (ready, s) := s.release
      if rest.length < gs.length ∧ rest ≠ [] then ready ++ tokensFrom s rest else ready
termination_by gs.length

end Lexer

def tokens (s : String) : List Token := Lexer.start.tokensFrom (glyphs s)

end MessageHooks.Yaml
