import MessageHooks.Number.Digits
import MessageHooks.Yaml.Folding

/-!
# Scalars

The four ways to write a scalar: plain, between single or double quotation marks, and as a block
whose lines are kept or folded. Each reader starts at the first glyph of the scalar, or after the
sign that announces it, and gives the text and the glyphs after it. No scalar is read where the
glyphs stop short of the end.

* `plainScalar?`, `quotedScalar?`, `blockScalar?`.
-/

namespace MessageHooks.Yaml

inductive Style where
  | plain
  | quoted
  | literal
  | folded
  deriving DecidableEq, Repr

/-! ## Plain scalars -/

/-- A plain scalar from some glyph on. `acc` holds what comes before it, the last character first,
as the answer does; `passed` says that blanks or breaks come just before it. The answer also says
whether the scalar's last line has ended. -/
def plainFrom (inFlow : Bool) (indent : Int) (acc : List Char) (f : Folding) (passed : Bool) :
    List Glyph → Option (List Char × Bool × List Glyph)
  | [] => none
  | g :: gs =>
    let c := g.char
    let next := charAt gs 0
    let stop := some (acc, f.broken, g :: gs)
    if isBlank c then
      if f.broken && (g.column : Int) < indent && c = '\t' then none
      else plainFrom inFlow indent acc (f.addBlank c) true gs
    else if isBreak c then
      if c = '\r' && next = '\n' then plainFrom inFlow indent acc f true gs
      else plainFrom inFlow indent acc (f.addBreak c) true gs
    else if isEnd c then stop
    else if gs.isEmpty then none
    else if passed && !inFlow && (g.column : Int) < indent then stop
    else if passed && (isDocumentMark (g :: gs) || c = '#') then stop
    else if inFlow && c = ':' && (isFlowMark next || next = '?') then none
    else if (c = ':' && isSpace next) || (inFlow && isFlowMark c) then stop
    else plainFrom inFlow indent (c :: f.text.reverseAux acc) .empty false gs

def plainScalar? (inFlow : Bool) (indent : Int) (gs : List Glyph) :
    Option (String × Bool × List Glyph) :=
  (plainFrom inFlow indent [] .empty false gs).map fun (cs, rest) =>
    (String.ofList cs.reverse, rest)

/-! ## Quoted scalars -/

/-- Where the reader of a quoted scalar stands: within the text, with blanks or breaks just before
or not; after a backslash; inside the digits of a code; or at the second of two quotation marks. -/
inductive QuotedMode where
  | text (passed : Bool)
  | escape
  | code (left value : Nat)
  | second

def escapeChar? (c : Char) : Option Char :=
  match c with
  | '0' => some '\x00'
  | 'a' => some '\x07'
  | 'b' => some '\x08'
  | 't' => some '\t'
  | '\t' => some '\t'
  | 'n' => some '\n'
  | 'v' => some '\x0b'
  | 'f' => some '\x0c'
  | 'r' => some '\r'
  | 'e' => some '\x1b'
  | ' ' => some ' '
  | '"' => some '"'
  | '/' => some '/'
  | '\\' => some '\\'
  | 'N' => some nextLine
  | '_' => some '\u00a0'
  | 'L' => some '\u2028'
  | 'P' => some '\u2029'
  | _ => none

def codeLength? (c : Char) : Option Nat :=
  match c with
  | 'x' => some 2
  | 'u' => some 4
  | 'U' => some 8
  | _ => none

/-- The character of a code; codes of surrogates and codes past the last character have none. -/
def ofCode? (n : Nat) : Option Char :=
  if (0xd800 ≤ n && n ≤ 0xdfff) || 0x10ffff < n then none else some (Char.ofNat n)

/-- A quoted scalar from some glyph on, up to its closing mark. `acc` holds what comes before it,
the last character first, as the answer does. -/
def quotedFrom (mark : Char) (mode : QuotedMode) (acc : List Char) (f : Folding) :
    List Glyph → Option (List Char × List Glyph)
  | [] => none
  | g :: gs =>
    let c := g.char
    let next := charAt gs 0
    match mode with
    | .text passed =>
      if isEnd c || (passed && isDocumentMark (g :: gs)) then none
      else if isBlank c then quotedFrom mark (.text true) acc (f.addBlank c) gs
      else if isBreak c then
        -- of the two characters of a combined break the second one counts
        if c = '\r' && next = '\n' then quotedFrom mark (.text true) acc f gs
        else quotedFrom mark (.text true) acc (f.addBreak c) gs
      else
        let acc := f.text.reverseAux acc
        if c = mark then
          if mark = '\'' && next = '\'' then quotedFrom mark .second acc .empty gs
          else some (acc, gs)
        else if mark = '"' && c = '\\' then quotedFrom mark .escape acc .empty gs
        else quotedFrom mark (.text false) (c :: acc) .empty gs
    | .second => quotedFrom mark (.text false) (c :: acc) .empty gs
    | .escape =>
      if c = '\r' && next = '\n' then quotedFrom mark .escape acc .empty gs
      else if isBreak c then quotedFrom mark (.text true) acc .escapedBreak gs
      else
        match codeLength? c with
        | some n => quotedFrom mark (.code n 0) acc .empty gs
        | none =>
          (escapeChar? c).bind fun d => quotedFrom mark (.text false) (d :: acc) .empty gs
    | .code left value =>
      (Digits.value? c).bind fun d =>
        let value := 16 * value + d
        if left = 1 then
          (ofCode? value).bind fun d => quotedFrom mark (.text false) (d :: acc) .empty gs
        else quotedFrom mark (.code (left - 1) value) acc .empty gs

def quotedScalar? (mark : Char) (gs : List Glyph) : Option (String × List Glyph) :=
  (quotedFrom mark (.text false) [] .empty gs).map fun (cs, rest) =>
    (String.ofList cs.reverse, rest)

/-! ## Block scalars -/

/-- What becomes of the breaks at the end of a block. -/
inductive Chomping where
  | strip
  | clip
  | keep

def chomping? (c : Char) : Option Chomping :=
  if c = '+' then some .keep else if c = '-' then some .strip else none

/-- The indentation a digit announces; zero announces none and is a fault. -/
def increment? (c : Char) : Option Nat :=
  if '1' ≤ c && c ≤ '9' then some (Digits.decimalValue c) else none

/-- The signs after that of a block, in either order. -/
def blockSigns? (gs : List Glyph) : Option (Chomping × Option Nat × List Glyph) :=
  let a := charAt gs 0
  let b := charAt gs 1
  match chomping? a with
  | some chomping =>
    if b = '0' then none
    else match increment? b with
      | some n => some (chomping, some n, gs.drop 2)
      | none => some (chomping, none, gs.drop 1)
  | none =>
    if a = '0' then none
    else match increment? a with
      | some n =>
        match chomping? b with
        | some chomping => some (chomping, some n, gs.drop 2)
        | none => some (.clip, some n, gs.drop 1)
      | none => some (.clip, none, gs)

/-- The glyphs of the next line, if the rest of this one is blank or a comment. -/
def nextLine? (gs : List Glyph) : Option (List Glyph) :=
  let gs := gs.dropWhile fun g => isBlank g.char
  let gs := if charAt gs 0 = '#' then gs.dropWhile fun g => !isBreakOrEnd g.char else gs
  if isBreakOrEnd (charAt gs 0) then some (dropBreak gs) else none

/-- Pass indentation and empty lines. `indent` is the block's indentation, or nothing while it is
not known; `widest` is the widest indentation passed. The answer has the breaks passed. -/
def passEmptyLines (indent : Option Nat) (widest : Nat) (breaks : List Char) :
    List Glyph → Option (Nat × List Char × List Glyph)
  | [] => some (widest, breaks, [])
  | g :: gs =>
    let c := g.char
    let inside := match indent with
      | some n => g.column < n
      | none => true
    if inside && c = ' ' then passEmptyLines indent widest breaks gs
    else
      let widest := max widest g.column
      if inside && c = '\t' then none
      else if c = '\r' && charAt gs 0 = '\n' then passEmptyLines indent widest breaks gs
      else if isBreak c then passEmptyLines indent widest (breaks ++ [breakText c]) gs
      else some (widest, breaks, g :: gs)

/-- The lines of a block. `acc` holds the text before them, the last character first, as the answer
does; `last` is the break of the line before, `empty` the breaks after that one, and `spaced` says
that the line before began with a blank: such lines are not folded. -/
def blockLines (fold : Bool) (indent : Nat) (acc last empty : List Char) (spaced : Bool)
    (gs : List Glyph) : Option (List Char × List Char × List Char × List Glyph) :=
  if columnOf gs = indent && !isEnd (charAt gs 0) then
    let starts := isBlank (charAt gs 0)
    let joint :=
      if fold && last = ['\n'] && !spaced && !starts then (if empty.isEmpty then [' '] else [])
      else last
    let (line, rest) := spanChars (fun c => !isBreakOrEnd c) gs
    let last := if isBreak (charAt rest 0) then
        [if isCombinedBreak rest then '\n' else breakText (charAt rest 0)] else []
    match passEmptyLines (some indent) 0 [] (dropBreak rest) with
    | none => none
    | some (_, empty', rest) =>
      if rest.length < gs.length then
        blockLines fold indent ((joint ++ empty ++ line).reverseAux acc) last empty' starts rest
      else none
  else some (acc, last, empty, gs)
termination_by gs.length

/-- The scalar after the sign of a block. Its indentation is announced, or that of its first line
that is not empty; it is always deeper than `parent`. -/
def blockScalar? (fold : Bool) (parent : Int) (gs : List Glyph) :
    Option (String × List Glyph) := do
  let (chomping, increment, gs) ← blockSigns? gs
  let gs ← nextLine? gs
  let announced := increment.map fun n => if 0 ≤ parent then parent.toNat + n else n
  let (widest, breaks, gs) ← passEmptyLines announced 0 [] gs
  let indent := announced.getD (max widest (max (parent + 1).toNat 1))
  let (cs, last, empty, gs) ← blockLines fold indent [] [] breaks false gs
  let tail := match chomping with
    | .strip => []
    | .clip => last
    | .keep => last ++ empty
  return (String.ofList (cs.reverse ++ tail), gs)

end MessageHooks.Yaml
