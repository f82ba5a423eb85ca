import MessageHooks.Config
import MessageHooks.Config.Fault
import MessageHooks.Yaml.Document
import MessageHooks.Yaml.Lexer

/-!
# Reading a configuration

A configuration is a mapping with sections, which are mappings too. Every name is declared and comes
at most once. Entries are read in their order, and the first misfit is the answer; only then is the
rest of the text looked at, and last the version.

* `Config.ofDocument`: the configuration that a document holds.
* `Config.ofText`, `Config.ofFile`: a supported configuration.
-/

namespace MessageHooks.Config

open Yaml

/-! ## Scalars -/

/-- What a scalar says, or what its tag promises and its text does not keep. -/
def scalarFound (tag : Option Tag) (style : Style) (text : String) : Except Fault Found :=
  let promised (name : String) (said : Option Found) : Except Fault Found :=
    match said with
    | some found => .ok found
    | none => .error (.wrongValue (.text text) name)
  let plain : Found :=
    if style = .plain then
      match Plain.value text with
      | .null => .null
      | .bool b => .bool b
      | .int n => .int n
      | .float x => .float x
      | .text => .text text
    else .text text
  match tag with
  | none => .ok plain
  | some tag =>
    if tag = Tag.core "bool" then promised "a boolean" ((Plain.bool? text).map .bool)
    else if tag = Tag.core "int" then promised "an integer" ((Plain.signed? text).map .int)
    else if tag = Tag.core "float" then promised "a float" ((Plain.float? text).map .float)
    else if tag = Tag.core "null" then
      promised "null" (if Plain.isNull text then some .null else none)
    else if tag.head? = some Tag.localMark then .ok plain
    else .ok (.text text)

def scalarFault (tag : Option Tag) (style : Style) (text expected : String) : Fault :=
  match scalarFound tag style text with
  | .ok found => .wrongType found expected
  | .error fault => fault

def refuse (path : List String) (expected : String) : Node → Refusal
  | .cut => .unreadable
  | .alias _ => .unreadable
  | .scalar _ tag style text => .misfit path (scalarFault tag style text expected)
  | .sequence .. => .misfit path (.wrongType .sequence expected)
  | .mapping .. => .misfit path (.wrongType .mapping expected)

/-- Whether a scalar may say a value of a kind by its text: it is plain, or a literal block with the
tag of that kind. -/
def speaks (kind : String) (tag : Option Tag) (style : Style) : Bool :=
  style = .plain || (style = .literal && tag = some (Tag.core kind))

def readNumber (path : List String) (n : Node) : Except Refusal UInt32 :=
  let said : Option Nat := match n with
    | .scalar _ tag style text =>
      if speaks "int" tag style then (Plain.unsigned? text).filter (· < 2 ^ 64) else none
    | _ => none
  match said with
  | some v =>
    if v < 2 ^ 32 then .ok (UInt32.ofNat v) else .error (.misfit path (.wrongValue (.int v) "u32"))
  | none => .error (refuse path "u32" n)

def readFlag (path : List String) (n : Node) : Except Refusal Bool :=
  let said : Option Bool := match n with
    | .scalar _ tag style text => if speaks "bool" tag style then Plain.bool? text else none
    | _ => none
  match said with
  | some b => .ok b
  | none => .error (refuse path "a boolean" n)

/-! ## Variants -/

/-- The name in a local tag, or its mark if that is all. -/
def localName? (tag : Tag) : Option String :=
  match tag with
  | [] => none
  | mark :: name =>
    if mark = Tag.localMark then
      String.fromUTF8? ⟨(if name.isEmpty then tag else name).toArray⟩
    else none

/-- The local name that a node is tagged with. -/
def variantName? : Node → Option String
  | .scalar _ tag _ _ => tag.bind localName?
  | .sequence _ tag _ => tag.bind localName?
  | .mapping _ tag _ => tag.bind localName?
  | _ => none

def readNothing (path : List String) (n : Node) : Except Refusal Unit :=
  match n with
  | .scalar _ _ style text =>
    if style = .plain && (text.isEmpty || Plain.isNull text) then .ok ()
    else .error (.misfit path (.wrongValue (.text text) "null"))
  | n => .error (refuse path "unit" n)

def modeOf (path : List String) (name : String) : Except Refusal AfterMode :=
  match AfterMode.ofText? name with
  | some mode => .ok mode
  | none => .error (.misfit path (.unknownVariant name (AfterMode.all.map AfterMode.text)))

/-! ## Sections -/

/-- Where an entry stands: the path of its section and its own name, and whether its value is
written elsewhere. -/
structure Place where
  owner : List String
  name : String
  borrowed : Bool

def Place.path (p : Place) : List String := p.owner ++ [p.name]

/-- A mode, by its name or by a tag of that name on nothing. An unknown tag is a fault of the
section it stands in. -/
def readMode (p : Place) (n : Node) : Except Refusal AfterMode :=
  match variantName? n with
  | some name =>
    (modeOf (if p.borrowed then p.path else p.owner) name).bind fun mode =>
      (readNothing p.path n).map fun _ => mode
  | none =>
    match n with
    | .scalar _ _ _ text => modeOf p.path text
    | n => .error (refuse p.path "a YAML tag starting with '!'" n)

/-- A declared entry of a section, which is read into a draft. -/
structure Field (δ : Type) where
  name : String
  isGiven : δ → Bool
  read : Place → Node → δ → Except Refusal δ

/-- The name of an entry. One that is written elsewhere leaves a gap in paths. -/
def entryName (d : Document) (path : List String) (key : Node) :
    Except Refusal (String × String) :=
  match key, d.target key with
  | .scalar .., .scalar _ _ _ text => .ok (text, text)
  | _, .scalar _ _ _ text => .ok (text, "?")
  | _, n => .error (refuse path "field identifier" n)

def isBorrowed : Node → Bool
  | .alias _ => true
  | _ => false

/-- Read entries into a draft, one after the other. -/
def readEntries {δ : Type} (d : Document) (fields : List (Field δ)) (path : List String) :
    List (Node × Node) → δ → Except Refusal δ
  | [], draft => .ok draft
  | (key, value) :: rest, draft =>
    (entryName d path key).bind fun (name, step) =>
      -- a name that is unknown or comes again is met before its value
      match fields.find? fun f => f.name = name with
      | none => .error (.misfit path (.unknownField name (fields.map Field.name)))
      | some f =>
        if f.isGiven draft then .error (.misfit path (.repeated name))
        else (f.read ⟨path, step, isBorrowed value⟩ (d.target value) draft).bind fun draft =>
          readEntries d fields path rest draft

/-- Read a section. Where nothing is written, it has no entries. -/
def readSection {δ : Type} (d : Document) (kind : String) (fields : List (Field δ))
    (path : List String) (n : Node) (draft : δ) : Except Refusal δ :=
  match n with
  | .mapping _ _ entries => readEntries d fields path entries draft
  | .scalar _ _ .plain "" => .ok draft
  | n => .error (refuse path ("struct " ++ kind) n)

/-- What is known of the dispatch section. -/
structure DispatchDraft where
  afterMode : Option AfterMode
  failOnUnknownKind : Option Bool

namespace DispatchDraft

def fields : List (Field DispatchDraft) :=
  [⟨"after_mode", fun s => s.afterMode.isSome, fun p n s =>
      (readMode p n).map fun mode => { s with afterMode := some mode }⟩,
    ⟨"fail_on_unknown_kind", fun s => s.failOnUnknownKind.isSome, fun p n s =>
      (readFlag p.path n).map fun b => { s with failOnUnknownKind := some b }⟩]

/-- What is not known has its default. -/
def finish (s : DispatchDraft) : DispatchConfig :=
  ⟨s.afterMode.getD DispatchConfig.default.afterMode,
    s.failOnUnknownKind.getD DispatchConfig.default.failOnUnknownKind⟩

end DispatchDraft

def readDispatch (d : Document) (path : List String) (n : Node) : Except Refusal DispatchConfig :=
  (readSection d "DispatchSection" DispatchDraft.fields path n ⟨none, none⟩).map
    DispatchDraft.finish

/-- What is known of a configuration. -/
structure Draft where
  version : Option UInt32
  dispatch : Option DispatchConfig

namespace Draft

def fields (d : Document) : List (Field Draft) :=
  [⟨"version", fun s => s.version.isSome, fun p n s =>
      (readNumber p.path n).map fun v => { s with version := some v }⟩,
    ⟨"dispatch", fun s => s.dispatch.isSome, fun p n s =>
      (readDispatch d p.path n).map fun c => { s with dispatch := some c }⟩]

/-- The version must be known. -/
def finish (s : Draft) : Except Refusal Config :=
  match s.version with
  | some version => .ok ⟨version, s.dispatch.getD .default⟩
  | none => .error (.misfit [] (.missing "version"))

end Draft

def ofNode (d : Document) (n : Node) : Except Refusal Config :=
  (readSection d "HookgateConfig" (Draft.fields d) [] n ⟨none, none⟩).bind Draft.finish

/-- The configuration that a document holds, if the document is all there is. -/
def ofDocument (d : Document) : Except Refusal Config :=
  (ofNode d (d.target d.root)).bind fun config =>
    if d.alone then .ok config else .error .unreadable

/-! ## Texts and files -/

/-- The configuration in a text, of a supported version. -/
def ofText (s : String) : Except Error Config :=
  ((ofDocument (.ofTokens (Yaml.tokens s))).mapError Refusal.toError).bind fun config =>
    config.validate.map fun _ => config

/-- The configuration in a file whose bytes are given, if there is a file. -/
def ofFile (bytes : Option ByteArray) : Except Error Config :=
  match bytes.bind String.fromUTF8? with
  | some s => ofText s
  | none => .error (.internal "read config failed")

end MessageHooks.Config
