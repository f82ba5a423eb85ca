import MessageHooks.Proofs.Message.Edit
import MessageHooks.Proofs.Number
import MessageHooks.Proofs.Schema.Part
import Mathlib.Tactic.NormNum

/-!
# Integers in messages

Two payloads carry a 64-bit integer, which a hook may give back as an integer, as a floating-point
number or in decimal digits. All three are exact: the message has the integer that the value has,
and a value without one in range refuses the whole object.

* `Json.Part`: a part of a payload, given by name or by position.
* `RecordKind.spells_part`, `RecordKind.decode_set_part`: what a message holds there, and what it is
  read as with another value there.
* `ReadsInteger`: how messages of a kind are read at an integer of their payload.
* `integers_are_read_exactly`: both integers are read so.
-/

namespace MessageHooks

open Schema

/-! ## Parts of a payload -/

namespace Json

/-- A part of a payload that is a record: the key of the payload, and the name and the place of the
part among those declared. -/
structure Part where
  key : String
  name : String
  position : Nat

namespace Part

variable (part : Part)

/-- The value that an object gives for the part. -/
def get? (ms : Object) : Option Json :=
  (Entries.get? part.key ms).bind fun w => w.part? part.name part.position

def set (v : Json) (ms : Object) : Object :=
  match Entries.get? part.key ms with
  | some w => Entries.insert part.key (w.setPart part.name part.position v) ms
  | none => ms

theorem set_eq {ms : Object} {w : Json} (h : Entries.get? part.key ms = some w) (v : Json) :
    part.set v ms = Entries.insert part.key (w.setPart part.name part.position v) ms := by
  rw [set, h]

end Part

end Json

namespace RecordKind

variable {π : Type} [Family π] (K : RecordKind π)

/-- The part of the payload that a field is spelled by. -/
def part (p : K.fields.Place) : Json.Part := ⟨K.key, K.fields.name p, K.fields.position p⟩

variable [LawfulFamily π] {K} {cid : Option String} {row : K.Row} {p : K.fields.Place}
  {ms : Json.Object} {v : Json}

theorem decode_message_iff (hms : (Json.obj ms).WellFormed) :
    Message.decode ms (Family.name K.kind) = .ok (K.message cid row) ↔
      Message.Spells ms (K.message cid row) := by
  rw [Message.decode_eq_ok_iff hms, kind_message, eq_self, true_and]

/-- The record of a message that is read, with what it gives for a part. -/
theorem exists_record (hms : (Json.obj ms).WellFormed) (hv : (K.part p).get? ms = some v)
    (h : Message.decode ms (Family.name K.kind) = .ok (K.message cid row)) :
    Message.SpellsCid ms cid ∧ ∃ w, Json.given (Entries.erase Message.cidKey ms) = [(K.key, w)] ∧
      w.part? (K.fields.name p) (K.fields.position p) = some v ∧
      Spells (.record K.name K.fields K.shape) w (K.shape.ofRow row) := by
  obtain ⟨hcid, w, hw, hspells⟩ := K.spells_message_iff.1 ((decode_message_iff hms).1 h)
  obtain ⟨hget, -⟩ := Json.get?_of_given_erase (Json.wellFormed_obj.1 hms).1 hw
  rw [Json.Part.get?, part, hget] at hv
  exact ⟨hcid, w, hw, hv, hspells⟩

theorem spells_part (hms : (Json.obj ms).WellFormed) (hv : (K.part p).get? ms = some v)
    (h : Message.decode ms (Family.name K.kind) = .ok (K.message cid row)) :
    Spells (K.fields.format p) v (K.fields.get p row) := by
  obtain ⟨-, w, -, hpart, hspells⟩ := exists_record hms hv h
  have hfield := hspells.part hpart
  rw [K.shape.toRow_ofRow] at hfield
  exact hfield

theorem exists_error_of_part (hms : (Json.obj ms).WellFormed) (hv : (K.part p).get? ms = some v)
    (hno : ∀ y, ¬Spells (K.fields.format p) v y) :
    ∃ fault, (Message.decode ms (Family.name K.kind) : Except DecodeFault (Message π)) =
      .error fault := by
  refine Except.exists_error_of_ne_ok fun m hm => ?_
  have hkind := (Message.decode_eq_ok_iff_read.1 hm).1
  obtain ⟨row, hrow⟩ := K.exists_message_eq (Family.name_injective hkind)
  rw [hrow] at hm
  exact hno _ (spells_part hms hv hm)

/-- With another value for a part, the message is read with another value in that field. -/
theorem decode_set_part (hms : (Json.obj ms).WellFormed) {u : Json}
    (hu : (K.part p).get? ms = some u)
    (h : Message.decode ms (Family.name K.kind) = .ok (K.message cid row)) (hwf : v.WellFormed)
    (hv : v.isNull = false) {y : K.fields.Value p} (hy : Spells (K.fields.format p) v y) :
    Message.decode ((K.part p).set v ms) (Family.name K.kind) =
      .ok (K.message cid (K.fields.set p y row)) := by
  have hs := (Json.wellFormed_obj.1 hms).1
  obtain ⟨hcid, w, hw, hpart, hspells⟩ := exists_record hms hu h
  obtain ⟨hget, hnull⟩ := Json.get?_of_given_erase hs hw
  have hwwf : w.WellFormed := Json.wellFormed_of_given_erase hms hw
  let w' := w.setPart (K.fields.name p) (K.fields.position p) v
  have hw'wf : w'.WellFormed := Json.wellFormed_setPart hwf hwwf
  have hw'null : w'.isNull = false := (Json.isNull_setPart ..).trans hnull
  have hw'spells : Spells (.record K.name K.fields K.shape) w'
      (K.shape.ofRow (K.fields.set p y row)) :=
    hspells.setPart K.proper_fields hwwf hpart hv hy
  have hcid' := (Message.spellsCid_insert hs K.key_ne_cid.symm (v := w')).2 hcid
  have hgiven := Json.given_erase_insert hs K.key_ne_cid.symm hw hw'null
  rw [(K.part p).set_eq hget, part, decode_message_iff (Json.wellFormed_insert hms _ hw'wf)]
  exact K.spells_message_iff.2 ⟨hcid', w', hgiven, hw'spells⟩

end RecordKind

/-! ## Integers of a payload -/

/-- How messages of a kind are read at an integer of their payload: `carry` makes the payload, and
`get` and `put` are its integer. What is given by name or by position is read exactly or refused,
another spelling of an integer puts that integer there, and the digits of the integer that is there,
or a floating-point number equal to it, give the same message. -/
structure ReadsInteger {π : Type} [Family π] (kind : String) (part : Json.Part) {α : Type}
    (carry : α → π) (get : α → Int64) (put : Int64 → α → α) : Prop where
  carried : ∀ (ms : Json.Object) (m : Message π), Message.decode ms kind = .ok m →
    ∃ x, m.payload = carry x
  exact : ∀ (ms : Json.Object) (v : Json) (cid : Option String) (x : α),
    (Json.obj ms).WellFormed → part.get? ms = some v →
    Message.decode ms kind = .ok (⟨cid, carry x⟩ : Message π) → HasInteger v (get x).toInt
  refused : ∀ (ms : Json.Object) (v : Json), (Json.obj ms).WellFormed → part.get? ms = some v →
    NoInt64 v →
    ∃ fault, (Message.decode ms kind : Except DecodeFault (Message π)) = .error fault
  replaced : ∀ (ms : Json.Object) (u v : Json) (n : Int64) (cid : Option String) (x : α),
    (Json.obj ms).WellFormed → part.get? ms = some u →
    Message.decode ms kind = .ok (⟨cid, carry x⟩ : Message π) → HasInteger v n.toInt →
    Message.decode (part.set v ms) kind = .ok (⟨cid, carry (put n x)⟩ : Message π)
  digits : ∀ (cid : Option String) (x : α),
    (⟨cid, carry x⟩ : Message π).reread
      (Json.Object.setAt (.str (toString (get x).toInt)) [part.key, part.name]) =
        .ok ⟨cid, carry x⟩
  float : ∀ (cid : Option String) (x : α) (f : Binary64), f.value = (get x).toInt →
    (⟨cid, carry x⟩ : Message π).reread (Json.Object.setAt (.float f) [part.key, part.name]) =
      .ok ⟨cid, carry x⟩

/-- The integer of a payload as a field of its record. -/
structure IntegerField {π : Type} [Family π] (K : RecordKind π) {α : Type} (carry : α → π)
    (get : α → Int64) (put : Int64 → α → α) where
  place : K.fields.Place
  ofInt : Int64 → K.fields.Value place
  toRow : α → K.Row
  spells_iff : ∀ v n, Spells (K.fields.format place) v (ofInt n) ↔ SpellsInt v n.toInt
  exists_ofInt_eq : ∀ y, ∃ n, ofInt n = y
  exists_toRow_eq : ∀ row, ∃ x, toRow x = row
  message_toRow : ∀ cid x, K.message cid (toRow x) = ⟨cid, carry x⟩
  get_toRow : ∀ x, K.fields.get place (toRow x) = ofInt (get x)
  set_toRow : ∀ n x, K.fields.set place (ofInt n) (toRow x) = toRow (put n x)
  put_get : ∀ x, put (get x) x = x

namespace IntegerField

variable {π : Type} [Family π] {K : RecordKind π} {α : Type} {carry : α → π}
  {get : α → Int64} {put : Int64 → α → α} (F : IntegerField K carry get put)
include F

theorem spells_iff_hasInteger {v : Json} {n : Int64} :
    Spells (K.fields.format F.place) v (F.ofInt n) ↔ HasInteger v n.toInt := by
  rw [F.spells_iff, spellsInt_iff]

variable [LawfulFamily π]

/-- Any value with the integer that is there gives the same message. -/
theorem reread_eq (cid : Option String) (x : α) {v : Json} (hv : HasInteger v (get x).toInt) :
    (⟨cid, carry x⟩ : Message π).reread (Json.Object.setAt v [K.key, K.fields.name F.place]) =
      .ok ⟨cid, carry x⟩ := by
  have hvalid := (K.editable cid (F.toRow x)).valid F.place v (F.ofInt (get x)) hv.wellFormed
    hv.ne_null (F.spells_iff_hasInteger.2 hv)
  rw [F.set_toRow, F.put_get, F.message_toRow] at hvalid
  exact hvalid

theorem readsInteger :
    ReadsInteger (Family.name K.kind) (K.part F.place) carry get put where
  carried ms m hm := by
    have hkind := (Message.decode_eq_ok_iff_read.1 hm).1
    obtain ⟨row, hrow⟩ := K.exists_message_eq (Family.name_injective hkind)
    obtain ⟨x, rfl⟩ := F.exists_toRow_eq row
    rw [F.message_toRow] at hrow
    exact ⟨x, congrArg Message.payload hrow⟩
  exact ms v cid x hms hv hm := by
    rw [← F.message_toRow] at hm
    have hspells := RecordKind.spells_part hms hv hm
    rw [F.get_toRow, F.spells_iff_hasInteger] at hspells
    exact hspells
  refused ms v hms hv hno := by
    refine RecordKind.exists_error_of_part hms hv fun y hy => ?_
    obtain ⟨n, rfl⟩ := F.exists_ofInt_eq y
    have hv := F.spells_iff_hasInteger.1 hy
    have hrange := (noInt64_iff hv.ne_null).1 hno _ hv
    have hlo := n.le_toInt
    have hhi := n.toInt_lt
    omega
  replaced ms u v n cid x hms hu hm hv := by
    rw [← F.message_toRow] at hm
    have hset := RecordKind.decode_set_part hms hu hm hv.wellFormed hv.isNull_eq
      (F.spells_iff_hasInteger.2 hv)
    rw [F.set_toRow, F.message_toRow] at hset
    exact hset
  digits cid x := F.reread_eq cid x (.text (spellsDecimal_toString _))
  float cid x _ hf := F.reread_eq cid x (.float hf)

end IntegerField

/-! ## Operation codes and times -/

/-- The operation code of match data. -/
def MatchData.opCodeField : IntegerField (RequestKind.record .matchDataSend)
    Request.matchDataSend MatchData.opCode fun n x => { x with opCode := n } where
  place := some (some none)
  ofInt n := n
  toRow x := (x.matchId, x.presences, x.opCode, x.data, ())
  spells_iff _ _ := Iff.rfl
  exists_ofInt_eq n := ⟨n, rfl⟩
  exists_toRow_eq row := ⟨⟨row.1, row.2.1, row.2.2.1, row.2.2.2.1⟩, rfl⟩
  message_toRow _ _ := rfl
  get_toRow _ := rfl
  set_toRow _ _ := rfl
  put_get _ := rfl

def PlatformProof.record : RecordKind Credential := (CredentialKind.record? .gameCenter).get rfl

/-- The time at which a platform signed a proof. -/
def PlatformProof.timestampField : IntegerField PlatformProof.record Credential.gameCenter
    PlatformProof.timestamp fun n x => { x with timestamp := n } where
  place := some (some none)
  ofInt n := n
  toRow x := (x.playerId, x.bundleId, x.timestamp, x.salt, x.signature, x.publicKeyUrl, ())
  spells_iff _ _ := Iff.rfl
  exists_ofInt_eq n := ⟨n, rfl⟩
  exists_toRow_eq row :=
    ⟨⟨row.1, row.2.1, row.2.2.1, row.2.2.2.1, row.2.2.2.2.1, row.2.2.2.2.2.1⟩, rfl⟩
  message_toRow _ _ := rfl
  get_toRow _ := rfl
  set_toRow _ _ := rfl
  put_get _ := rfl

/-- **Integers are read exactly.** Of the values other than null, those that have an integer in the
64-bit range are read as that integer, without rounding or wrapping, and all others are refused; and
so are the two integers that payloads carry. -/
theorem integers_are_read_exactly :
    (∀ v : Json, v ≠ .null →
      (∀ k : Int, (∃ n : Int64, decode .int64 v = .ok n ∧ n.toInt = k) ↔
        HasInteger v k ∧ -2 ^ 63 ≤ k ∧ k < 2 ^ 63) ∧
      ((∃ fault, decode .int64 v = .error fault) ↔ NoInt64 v)) ∧
    ReadsInteger "MatchDataSend" ⟨"matchDataSend", "opCode", 2⟩ Request.matchDataSend
      MatchData.opCode (fun n x => { x with opCode := n }) ∧
    ReadsInteger "GameCenter" ⟨"gameCenter", "timestamp", 2⟩ Credential.gameCenter
      PlatformProof.timestamp (fun n x => { x with timestamp := n }) :=
  ⟨fun _ hv => ⟨fun _ => decode_int64_iff, exists_decode_int64_error_iff hv⟩,
    MatchData.opCodeField.readsInteger, PlatformProof.timestampField.readsInteger⟩

/-- The least integer is read from the floating-point number equal to it, also in the place of some
digits; its opposite is out of range. -/
theorem least_integer_is_read_from_float :
    let least : Binary64 := ⟨true, 1086 * 2 ^ 52, by decide⟩
    let ms : Json.Object := [("matchDataSend", .arr [.str "m", .arr [], .str "+7"])]
    let data : MatchData := ⟨"m", [], 7, []⟩
    (∃ n : Int64, decode .int64 (.float least) = .ok n ∧ n.toInt = -2 ^ 63) ∧
      (∃ fault, decode .int64 (.float least.neg) = .error fault) ∧
      Message.decode (Json.Part.set ⟨"matchDataSend", "opCode", 2⟩ (.float least) ms)
          "MatchDataSend" =
        .ok (⟨none, .matchDataSend { data with opCode := Int64.minValue }⟩ : Envelope) := by
  intro least ms data
  have hvalue : least.value = ((-2 ^ 63 : Int) : ℚ) := by
    norm_num [least, Binary64.value, Binary64.absolute, Binary64.exponent, Binary64.fraction]
  have hneg : least.neg.value = 2 ^ 63 := by
    norm_num [least, Binary64.neg, Binary64.value, Binary64.absolute, Binary64.exponent,
      Binary64.fraction]
  obtain ⟨hread, hmatch, -⟩ := integers_are_read_exactly
  have hne : ∀ x : Binary64, Json.float x ≠ .null := fun x hx => by cases hx
  obtain ⟨hleast, -⟩ := hread (.float least) (hne _)
  obtain ⟨-, hrefused⟩ := hread (.float least.neg) (hne _)
  have hms : (Json.obj ms).WellFormed :=
    ⟨by decide, ⟨trivial, trivial, trivial, trivial⟩, trivial⟩
  exact ⟨(hleast _).2 ⟨.float hvalue, by decide, by decide⟩,
    hrefused.2 (.large (.inr hneg.ge)),
    hmatch.replaced ms (.str "+7") _ Int64.minValue none data hms rfl (by decide)
      (.float hvalue)⟩

end MessageHooks
