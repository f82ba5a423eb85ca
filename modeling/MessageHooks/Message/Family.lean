import MessageHooks.Schema.Decode
import MessageHooks.Schema.Encode

/-!
# Families of messages

A message carries an optional collation id and one payload. Its dynamic form is an object with the
member `cid`, if there is an id, and one member for the payload, marked by the payload's kind.

* `Family π`: the kinds of the payload type `π`, their names and keys, and their formats.
* `Message.encode`: the dynamic form.
* `Message.write`: writes the dynamic form; `Message.write_eq` says that it always does.
* `Message.read`: a message from a dynamic form that may leave things out, and `Message.decode`,
  which also requires its kind.
-/

namespace MessageHooks

open Schema

/-- The kinds of a payload type. A kind has a name, by which hooks are bound, and a key, which marks
a payload of that kind in dynamic form. -/
class Family (π : Type) where
  Kind : Type
  Payload : Kind → Type
  kinds : Tags Kind
  name : Kind → String
  name_injective : ∀ {i j}, name i = name j → i = j
  format : (k : Kind) → Format (Payload k)
  shape : Shape π (Sigma Payload)

namespace Family

variable (π : Type) [Family π]

/-- The format of all payloads: an object with one member. -/
def payloadFormat : Format π := .oneOf kinds format shape

def names : List String := (kinds (π := π)).all.map name

variable {π}

def kindOf (p : π) : Kind π := (shape.toRow p).1

end Family

/-- A payload with the collation id that is echoed on its response. -/
structure Message (π : Type) where
  cid : Option String
  payload : π
  deriving DecidableEq

/-- Why a message has no dynamic form: its payload is written as a value of another kind than an
object. -/
structure EncodeFault where
  kind : String
  deriving DecidableEq

def EncodeFault.message (fault : EncodeFault) : String :=
  "payload encoded to " ++ fault.kind ++ ", expected object"

/-- Why a dynamic form is no message of the kind asked for. -/
inductive DecodeFault where
  | cidKind (kind : String)
  | noPayload
  | manyPayloads (keys : List String)
  | payload (fault : Fault)
  | otherKind (expected found : String)
  deriving DecidableEq

def DecodeFault.message : DecodeFault → String
  | .cidKind kind => "cid must be a string, got " ++ kind
  | .noPayload => "no message payload present"
  | .manyPayloads keys =>
    "expected exactly one message payload, found: " ++ String.intercalate ", " keys
  | .payload fault => fault.message
  | .otherKind expected found => "expected " ++ expected ++ " message, got " ++ found

namespace Message

def cidKey : String := "cid"

variable {π : Type}

def ofPayload (p : π) : Message π := ⟨none, p⟩

def withCid (m : Message π) (cid : String) : Message π := { m with cid := some cid }

variable [Family π]

def kind (m : Message π) : String := Family.name (Family.kindOf m.payload)

def encode (m : Message π) : Json.Object :=
  match Family.shape.toRow m.payload with
  | ⟨k, p⟩ =>
    let body : Json.Object := [(Family.kinds.key k, Schema.encode (Family.format k) p)]
    match m.cid with
    | none => body
    | some cid => Entries.insert cidKey (.str cid) body

/-- Write a message in dynamic form. The collation id joins the members of the payload, which has to
be an object for that. -/
def write (m : Message π) : Except EncodeFault Json.Object :=
  match Schema.encode (Family.payloadFormat π) m.payload with
  | .obj body =>
    .ok (match m.cid with
      | none => body
      | some cid => Entries.insert cidKey (.str cid) body)
  | v => .error ⟨v.kindName⟩

/-- Payloads are written as objects, so every message has a dynamic form. -/
theorem write_eq (m : Message π) : m.write = .ok m.encode := by
  simp only [write, encode, Family.payloadFormat, Schema.encode]

def readCid (m : Json.Object) : Except DecodeFault (Option String) :=
  match Entries.get? cidKey m with
  | none | some .null => .ok none
  | some (.str s) => .ok (some s)
  | some v => .error (.cidKind v.kindName)

/-- The payload among members that are not null. -/
def readPayload (members : Json.Object) : Except DecodeFault π :=
  match members with
  | [] => .error .noPayload
  | [m] => (Schema.decode (Family.payloadFormat π) (.obj [m])).mapError .payload
  | ms => .error (.manyPayloads (ms.map Prod.fst))

/-- The message of a dynamic form, of whatever kind. Null members count as left out. -/
def read (m : Json.Object) : Except DecodeFault (Message π) :=
  (readCid m).bind fun cid =>
    (readPayload (Json.pruneMembers (Entries.erase cidKey m))).map fun p => ⟨cid, p⟩

/-- The message of a dynamic form, which must be of the kind with the given name. -/
def decode (m : Json.Object) (expected : String) : Except DecodeFault (Message π) :=
  (read m).bind fun msg =>
    if msg.kind = expected then .ok msg else .error (.otherKind expected msg.kind)

end Message

end MessageHooks
