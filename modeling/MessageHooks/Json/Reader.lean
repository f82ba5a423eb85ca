import MessageHooks.Json.Numeral

/-!
# Reading JSON text

A text is first cut into tokens, then tokens are taken one by one by a machine that keeps the open
arrays and objects on a stack. Both passes recur on their input. Of a member that is written twice
the last value stays; nesting is bounded.
-/

namespace MessageHooks.Json

/-! ## Tokens -/

inductive Token where
  | mark (c : Char)
  | text (s : String)
  | atom (v : Json)

def isBlank (c : Char) : Bool := c = ' ' || c = '\n' || c = '\r' || c = '\t'

def isMark (c : Char) : Bool :=
  c = '[' || c = ']' || c = '\x7b' || c = '\x7d' || c = ',' || c = ':'

/-- A character that goes on a bare word: a number or a constant. -/
def isWord (c : Char) : Bool := !(isBlank c || isMark c || c = '"')

def ofWord? (w : List Char) : Option Json :=
  if w = "null".toList then some .null
  else if w = "true".toList then some (.bool true)
  else if w = "false".toList then some (.bool false)
  else ofNumeral? w

/-- The character after a backslash, other than `u`. -/
def escaped? (c : Char) : Option Char :=
  match c with
  | '"' => some '"'
  | '\\' => some '\\'
  | '/' => some '/'
  | 'b' => some '\x08'
  | 'f' => some '\x0c'
  | 'n' => some '\n'
  | 'r' => some '\r'
  | 't' => some '\t'
  | _ => none

/-- Where the reader of tokens stands. Collected characters are in reverse. A code escape counts
the hexadecimal digits still to come, and keeps the first half of a surrogate pair. -/
inductive Mode where
  | between
  | word (acc : List Char)
  | text (acc : List Char)
  | escape (acc : List Char)
  | code (acc : List Char) (first : Option Nat) (left : Nat) (value : Nat)
  | secondSlash (acc : List Char) (first : Nat)
  | secondMark (acc : List Char) (first : Nat)

/-- What a complete code escape adds to the text. -/
def afterCode (acc : List Char) (first : Option Nat) (value : Nat) : Option Mode :=
  let isFirst := 0xd800 ≤ value && value < 0xdc00
  let isSecond := 0xdc00 ≤ value && value < 0xe000
  match first with
  | none =>
    if isFirst then some (.secondSlash acc value)
    else if isSecond then none
    else some (.text (Char.ofNat value :: acc))
  | some h =>
    if isSecond then
      some (.text (Char.ofNat (0x10000 + (h - 0xd800) * 0x400 + (value - 0xdc00)) :: acc))
    else none

def tokens? : Mode → List Char → Option (List Token)
  | .between, [] => some []
  | _, [] => none
  | .between, c :: cs =>
    if isBlank c then tokens? .between cs
    else if isMark c then (tokens? .between cs).map (.mark c :: ·)
    else if c = '"' then tokens? (.text []) cs
    else wordOn [c] cs
  | .word acc, c :: cs => wordOn (c :: acc) cs
  | .text acc, c :: cs =>
    if c = '"' then (tokens? .between cs).map (.text (String.ofList acc.reverse) :: ·)
    else if c = '\\' then tokens? (.escape acc) cs
    else if c.toNat < 0x20 then none
    else tokens? (.text (c :: acc)) cs
  | .escape acc, c :: cs =>
    if c = 'u' then tokens? (.code acc none 4 0) cs
    else (escaped? c).bind fun d => tokens? (.text (d :: acc)) cs
  | .code acc first left value, c :: cs =>
    (Digits.value? c).bind fun d =>
      let value := 16 * value + d
      if left = 1 then (afterCode acc first value).bind fun mode => tokens? mode cs
      else tokens? (.code acc first (left - 1) value) cs
  | .secondSlash acc h, c :: cs => if c = '\\' then tokens? (.secondMark acc h) cs else none
  | .secondMark acc h, c :: cs => if c = 'u' then tokens? (.code acc (some h) 4 0) cs else none
where
  /-- Go on with a bare word, or end it where the next character does not belong to it. -/
  wordOn (acc : List Char) (cs : List Char) : Option (List Token) :=
    match cs with
    | [] => (ofWord? acc.reverse).map ([.atom ·])
    | c :: cs =>
      if isWord c then tokens? (.word acc) (c :: cs)
      else (ofWord? acc.reverse).bind fun v => (tokens? .between (c :: cs)).map (.atom v :: ·)

/-! ## Values -/

/-- An array or object that is still open, with what was read of it. -/
inductive Open where
  | items (read : List Json)
  | member (read : Object) (key : String)

/-- What the reader of values has behind it. All but the last state list what is open around. -/
inductive State where
  | value (around : List Open)
  | itemOrEnd (around : List Open)
  | keyOrEnd (around : List Open)
  | key (around : List Open) (read : Object)
  | colon (around : List Open) (read : Object) (key : String)
  | afterItem (around : List Open) (read : List Json)
  | afterMember (around : List Open) (read : Object)
  | complete (v : Json)

/-- The most arrays and objects that may be open at once. -/
def depthLimit : Nat := 127

def State.place (v : Json) : List Open → State
  | [] => .complete v
  | .items vs :: around => .afterItem around (v :: vs)
  | .member ms k :: around => .afterMember around (Entries.insert k v ms)

/-- The state after a token that begins a value. -/
def State.start (around : List Open) : Token → Option State
  | .atom v => some (.place v around)
  | .text s => some (.place (.str s) around)
  | .mark c =>
    if depthLimit ≤ around.length then none
    else if c = '[' then some (.itemOrEnd around)
    else if c = '\x7b' then some (.keyOrEnd around)
    else none

/-- The state after one more token. -/
def State.take : State → Token → Option State
  | .value around, t => State.start around t
  -- an end is admitted before the first item or after one, and so not after a comma
  | .itemOrEnd around, .mark ']' => some (.place (.arr []) around)
  | .itemOrEnd around, t => State.start (.items [] :: around) t
  | .keyOrEnd around, .mark '\x7d' => some (.place (.obj []) around)
  | .keyOrEnd around, .text k => some (.colon around [] k)
  | .key around ms, .text k => some (.colon around ms k)
  | .colon around ms k, .mark ':' => some (.value (.member ms k :: around))
  | .afterItem around vs, .mark ',' => some (.value (.items vs :: around))
  | .afterItem around vs, .mark ']' => some (.place (.arr vs.reverse) around)
  | .afterMember around ms, .mark ',' => some (.key around ms)
  | .afterMember around ms, .mark '\x7d' => some (.place (.obj ms) around)
  | _, _ => none

def parse? (s : String) : Option Json := do
  let ts ← tokens? .between s.toList
  match ← ts.foldlM State.take (.value []) with
  | .complete v => some v
  | _ => none

end MessageHooks.Json
