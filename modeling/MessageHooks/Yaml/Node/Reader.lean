import MessageHooks.Yaml.Node

/-!
# Nodes from tokens

The grammar of nodes: each kind of collection has its own signs for entries, keys and values, and a
place where nothing is written holds an empty scalar. Tokens that end too early or stand in the
wrong place are a fault; it leaves a cut in the tree and no tokens for the rest.

The number of an anchor is the count of the names anchored so far. So a name that is anchored again
gets a new number, and a number can come twice; an alias takes the number that its name has where it
is met.

* `Reader.content`: the node that tokens begin with.
-/

namespace MessageHooks.Yaml

/-! ## State -/

/-- What is left of the tokens, the handles of the document, and its anchors with their numbers. A
fault leaves no tokens. -/
structure Reader where
  tokens : List Token
  handles : TagHandles
  anchors : List (String × Nat)

namespace Reader

def fail (r : Reader) : Node × Reader := (.cut, { r with tokens := [] })

def goTo (r : Reader) (ts : List Token) : Reader := { r with tokens := ts }

/-- An empty place, if its end is known. -/
def leaveBlank (r : Reader) : Node × Reader := if r.tokens.isEmpty then r.fail else (.blank, r)

def anchor (r : Reader) : Option String → Option Nat × Reader
  | none => (none, r)
  | some name =>
    let number := r.anchors.length
    (some number, { r with anchors := (name, number) :: r.anchors.filter (·.1 ≠ name) })

/-- What may come before the content of a node. -/
structure Properties where
  anchor : Option String
  tag : Option Tag.Spelling

/-- The properties that tokens begin with, in either order. -/
def properties : List Token → Properties × List Token
  | .anchor a :: .tag t :: ts => (⟨some a, some t⟩, ts)
  | .tag t :: .anchor a :: ts => (⟨some a, some t⟩, ts)
  | .anchor a :: ts => (⟨some a, none⟩, ts)
  | .tag t :: ts => (⟨none, some t⟩, ts)
  | ts => (⟨none, none⟩, ts)

def tag? (r : Reader) (p : Properties) : Option (Option Tag) :=
  match p.tag with
  | none => some none
  | some t => (r.handles.resolve? t).map some

/-! ## Grammar -/

def endsBlockItem : Token → Bool
  | .blockEntry | .blockEnd => true
  | _ => false

def endsBlockPart : Token → Bool
  | .key | .value | .blockEnd => true
  | _ => false

def endsFlushItem : Token → Bool
  | .blockEntry => true
  | t => endsBlockPart t

def endsItem : Token → Bool
  | .flowEntry | .flowSequenceEnd => true
  | _ => false

def endsMember : Token → Bool
  | .flowEntry | .flowMappingEnd => true
  | _ => false

def endsMemberKey : Token → Bool
  | .value => true
  | t => endsMember t

mutual

/-- The node that the tokens begin with. Its content may be a block collection only where `inBlock`
holds, and a sequence that stands flush with the mapping around it only where `flush` does. -/
def node (inBlock flush : Bool) : Nat → Reader → Node × Reader
  | 0, r => r.fail
  | fuel + 1, r =>
    match r.tokens with
    | .alias name :: ts =>
      match r.anchors.lookup name with
      | some number => (.alias number, r.goTo ts)
      | none => r.fail
    | _ =>
      let (p, ts) := properties r.tokens
      match r.tag? p with
      | none => r.fail
      | some tag =>
        let (mark, r) := (r.goTo ts).anchor p.anchor
        match ts, inBlock, flush with
        | .blockEntry :: _, _, true =>
          let (items, r) := flushItems fuel r
          (.sequence mark tag items, r)
        | .scalar style text :: ts, _, _ => (.scalar mark tag style text, r.goTo ts)
        | .flowSequenceStart :: ts, _, _ =>
          let (items, r) := flowItems true fuel (r.goTo ts)
          (.sequence mark tag items, r)
        | .flowMappingStart :: ts, _, _ =>
          let (entries, r) := flowEntries true fuel (r.goTo ts)
          (.mapping mark tag entries, r)
        | .blockSequenceStart :: ts, true, _ =>
          let (items, r) := blockItems fuel (r.goTo ts)
          (.sequence mark tag items, r)
        | .blockMappingStart :: ts, true, _ =>
          let (entries, r) := blockEntries fuel (r.goTo ts)
          (.mapping mark tag entries, r)
        | [], _, _ => r.fail
        | _, _, _ =>
          -- properties may stand before nothing, which is then an empty scalar
          if p.anchor.isSome || p.tag.isSome then (.scalar mark tag .plain "", r) else r.fail

/-- What comes after a sign. It may be left out before the tokens that end it. -/
def part (inBlock flush : Bool) (ends : Token → Bool) : Nat → Reader → Node × Reader
  | 0, r => r.fail
  | fuel + 1, r =>
    if r.tokens.head?.any ends then r.leaveBlank else node inBlock flush fuel r

def blockItems : Nat → Reader → List Node × Reader
  | 0, r => ([.cut], r.fail.2)
  | fuel + 1, r =>
    match r.tokens with
    | .blockEnd :: ts => ([], r.goTo ts)
    | .blockEntry :: ts =>
      let (item, r) := part true false endsBlockItem fuel (r.goTo ts)
      let (items, r) := blockItems fuel r
      (item :: items, r)
    | _ => ([.cut], r.fail.2)

/-- The items of a flush sequence. Whatever begins no item comes after it. -/
def flushItems : Nat → Reader → List Node × Reader
  | 0, r => ([.cut], r.fail.2)
  | fuel + 1, r =>
    match r.tokens with
    | [] => ([.cut], r)
    | .blockEntry :: ts =>
      let (item, r) := part true false endsFlushItem fuel (r.goTo ts)
      let (items, r) := flushItems fuel r
      (item :: items, r)
    | _ => ([], r)

/-- The value of an entry. It may be left out together with its sign. -/
def value (inBlock : Bool) (ends : Token → Bool) : Nat → Reader → Node × Reader
  | 0, r => r.fail
  | fuel + 1, r =>
    match r.tokens with
    | .value :: ts => part inBlock inBlock ends fuel (r.goTo ts)
    | _ => r.leaveBlank

def blockEntries : Nat → Reader → List (Node × Node) × Reader
  | 0, r => ([(.cut, .cut)], r.fail.2)
  | fuel + 1, r =>
    match r.tokens with
    | .blockEnd :: ts => ([], r.goTo ts)
    | .key :: ts =>
      let (k, r) := part true true endsBlockPart fuel (r.goTo ts)
      let (v, r) := value true endsBlockPart fuel r
      let (entries, r) := blockEntries fuel r
      ((k, v) :: entries, r)
    | _ => ([(.cut, .cut)], r.fail.2)

/-- The items of a flow sequence, and its end. All but the first come after a comma. -/
def flowItems (first : Bool) : Nat → Reader → List Node × Reader
  | 0, r => ([.cut], r.fail.2)
  | fuel + 1, r =>
    match r.tokens, first with
    | .flowSequenceEnd :: ts, _ => ([], r.goTo ts)
    | .flowEntry :: ts, false =>
      match ts with
      | .flowSequenceEnd :: ts => ([], r.goTo ts)
      | _ => flowItem fuel (r.goTo ts)
    | _, true => flowItem fuel r
    | _, false => ([.cut], r.fail.2)

/-- An item of a flow sequence and those after it. -/
def flowItem : Nat → Reader → List Node × Reader
  | 0, r => ([.cut], r.fail.2)
  | fuel + 1, r =>
    let (item, r) := match r.tokens with
      | .key :: ts =>
        let (k, v, r) := flowPair fuel (r.goTo ts)
        (.mapping none none [(k, v)], r)
      | _ => node false false fuel r
    let (items, r) := flowItems false fuel r
    (item :: items, r)

/-- The only pair of a mapping within a flow sequence, after the sign of its key. A pair without a
key has nothing between its signs, and the second one is passed. -/
def flowPair : Nat → Reader → Node × Node × Reader
  | 0, r => (.cut, .cut, r.fail.2)
  | fuel + 1, r =>
    let (k, r) := match r.tokens with
      | .value :: ts | .flowEntry :: ts | .flowSequenceEnd :: ts => (Node.blank, r.goTo ts)
      | _ => node false false fuel r
    let (v, r) := value false endsItem fuel r
    (k, v, r)

/-- The entries of a flow mapping, and its end. All but the first come after a comma. -/
def flowEntries (first : Bool) : Nat → Reader → List (Node × Node) × Reader
  | 0, r => ([(.cut, .cut)], r.fail.2)
  | fuel + 1, r =>
    match r.tokens, first with
    | .flowMappingEnd :: ts, _ => ([], r.goTo ts)
    | .flowEntry :: ts, false =>
      match ts with
      | .flowMappingEnd :: ts => ([], r.goTo ts)
      | _ => flowMember fuel (r.goTo ts)
    | _, true => flowMember fuel r
    | _, false => ([(.cut, .cut)], r.fail.2)

/-- An entry of a flow mapping and those after it. An entry without a sign is a key without a
value. -/
def flowMember : Nat → Reader → List (Node × Node) × Reader
  | 0, r => ([(.cut, .cut)], r.fail.2)
  | fuel + 1, r =>
    let (k, v, r) := match r.tokens with
      | .key :: ts =>
        let (k, r) := part false false endsMemberKey fuel (r.goTo ts)
        let (v, r) := value false endsMember fuel r
        (k, v, r)
      | _ =>
        let (k, r) := node false false fuel r
        let (v, r) := r.leaveBlank
        (k, v, r)
    let (entries, r) := flowEntries false fuel r
    ((k, v) :: entries, r)

end

/-- A reading takes no more than this many steps for each token. -/
def stepsPerToken : Nat := 4

/-- The node that the tokens begin with, in a place where block collections may stand. -/
def content (r : Reader) : Node × Reader :=
  node true false (stepsPerToken * (r.tokens.length + 1)) r

end Reader

end MessageHooks.Yaml
