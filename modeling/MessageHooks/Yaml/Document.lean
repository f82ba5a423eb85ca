import MessageHooks.Yaml.Node.Reader

/-!
# Documents

A stream of tokens holds documents, one after the other, each with directives of its own. Only the
first is read; of the rest it matters whether there is any.

* `Document.ofTokens`: the first document of a list of tokens.
* `Document.target`: the node that an alias stands for.
-/

namespace MessageHooks.Yaml

/-- The directives of a document: whether it has told its version, and the handles it declares. -/
structure Directives where
  versioned : Bool
  declared : TagHandles

/-- The directives that tokens begin with. No version may come twice or be unknown, and no handle
may be declared twice. -/
def directives? (d : Directives) : List Token → Option (Directives × List Token)
  | .version major minor :: ts =>
    if !d.versioned && major = 1 && (minor = 1 || minor = 2) then
      directives? { d with versioned := true } ts
    else none
  | .tagHandle handle start :: ts =>
    if (d.declared.lookup handle).isNone then
      directives? { d with declared := (handle, start) :: d.declared } ts
    else none
  | ts => some (d, ts)

/-- Whether a token cannot belong to the content of a document. -/
def Token.endsDocument : Token → Bool
  | .version .. | .tagHandle .. | .documentStart | .documentEnd | .streamEnd => true
  | _ => false

/-- The first document of a text. `alone` says that the text was read without fault to its end and
has no other document. -/
structure Document where
  root : Node
  alone : Bool

namespace Document

/-- A text that cannot be read at all. -/
def unreadable : Document := ⟨.cut, false⟩

def isOver (ts : List Token) : Bool :=
  match ts.dropWhile fun | .documentEnd => true | _ => false with
  | .streamEnd :: _ => true
  | _ => false

/-- A document with the given handles whose content comes next. -/
def ofContent (handles : TagHandles) (ts : List Token) : Document :=
  let (root, r) := Reader.content ⟨ts, handles, []⟩
  ⟨root, isOver r.tokens⟩

/-- A document after the mark of its start. Its content may be left out. -/
def ofBody (handles : TagHandles) (ts : List Token) : Document :=
  if ts.head?.any Token.endsDocument then ⟨.blank, isOver ts⟩ else ofContent handles ts

/-- The first document. A document without directives needs no mark of its start. A stream without
documents has an empty one. -/
def ofTokens (ts : List Token) : Document :=
  match ts with
  | [] => unreadable
  | .streamEnd :: _ => ⟨.blank, true⟩
  | .version .. :: _ | .tagHandle .. :: _ | .documentStart :: _ =>
    match directives? ⟨false, []⟩ ts with
    | some (d, .documentStart :: ts) => ofBody (d.declared ++ .default) ts
    | _ => unreadable
  | _ => ofContent .default ts

/-- The node that a node stands for: an alias for the one it refers to, any other for itself. -/
def target (d : Document) : Node → Node
  | .alias number => (d.root.find? number).getD .cut
  | n => n

end Document

end MessageHooks.Yaml
