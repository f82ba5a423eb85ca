import MessageHooks.Proofs.Message.Lawful
import MessageHooks.Proofs.Schema.Canonical

/-!
# Spellings of messages

`Message.Spells ms msg`: the object `ms` is a spelling of the message. Beside an optional collation
id it gives one member, named for the kind of the message, that spells the payload.

* `Message.decode_eq_ok_iff`: reading with a kind in mind accepts exactly the spellings of messages
  of that kind, with exactly their messages.
* `Message.spells_encode`: the dynamic form of a message is a spelling of it.
-/

namespace MessageHooks

open Schema

namespace Message

/-- The members spell the collation id: a text as such, none by null or by nothing. -/
def SpellsCid (ms : Json.Object) (cid : Option String) : Prop :=
  match Entries.get? cidKey ms with
  | none | some .null => cid = none
  | some (.str s) => cid = some s
  | some _ => False

theorem spellsCid_insert {ms : Json.Object} (hs : Entries.Sorted ms) {k : String} (hk : cidKey ≠ k)
    {v : Json} {cid : Option String} :
    SpellsCid (Entries.insert k v ms) cid ↔ SpellsCid ms cid := by
  rw [SpellsCid, SpellsCid, Entries.get?_insert_of_ne hs v hk]

variable {π : Type} [Family π]

/-- The members spell the message. -/
structure Spells (ms : Json.Object) (msg : Message π) : Prop where
  cid : SpellsCid ms msg.cid
  payload : ∃ w, Json.given (Entries.erase cidKey ms) = [(lowerCamel msg.kind, w)] ∧
    Schema.Spells (Family.format (Family.kindOf msg.payload)) w (Family.shape.toRow msg.payload).2

/-- The member of the payload in dynamic form. -/
def body (msg : Message π) : String × Json :=
  (lowerCamel msg.kind,
    Schema.encode (Family.format (Family.kindOf msg.payload)) (Family.shape.toRow msg.payload).2)

theorem body_ofRow (cid : Option String) (k : Family.Kind π) (x : Family.Payload k) :
    body (⟨cid, Family.shape.ofRow ⟨k, x⟩⟩ : Message π) =
      (lowerCamel (Family.name k), Schema.encode (Family.format k) x) := by
  unfold body kind Family.kindOf
  rw [Family.shape.toRow_ofRow]

theorem sorted_body (msg : Message π) : Entries.Sorted [msg.body] :=
  List.pairwise_singleton _ _

/-! ## Reading -/

theorem readCid_eq_ok_iff {ms : Json.Object} {cid : Option String} :
    readCid ms = .ok cid ↔ SpellsCid ms cid := by
  unfold readCid SpellsCid
  cases Entries.get? cidKey ms with
  | none => simp [eq_comm]
  | some v => cases v <;> simp [eq_comm]

theorem readPayload_eq_ok_iff {ms : Json.Object} {p : π} :
    readPayload ms = .ok p ↔ Schema.decode (Family.payloadFormat π) (.obj ms) = .ok p := by
  match ms with
  | [] => simp [readPayload, Family.payloadFormat, Schema.decode]
  | [m] => exact Except.mapError_eq_ok
  | _ :: _ :: _ => simp [readPayload, Family.payloadFormat, Schema.decode]

theorem decode_eq_ok_iff_read {ms : Json.Object} {expected : String} {msg : Message π} :
    decode ms expected = .ok msg ↔ msg.kind = expected ∧ read ms = .ok msg := by
  rw [decode, Except.bind_eq_ok]
  constructor
  · rintro ⟨msg', hread, hkind⟩
    split at hkind
    · obtain rfl := Except.ok.inj hkind
      exact ⟨‹_›, hread⟩
    · cases hkind
  · rintro ⟨hkind, hread⟩
    exact ⟨msg, hread, if_pos hkind⟩

variable [LawfulFamily π]

theorem read_eq_ok_iff {ms : Json.Object} (h : (Json.obj ms).WellFormed) {msg : Message π} :
    read ms = .ok msg ↔ Spells ms msg := by
  have hbody : (Json.obj (Entries.erase cidKey ms)).WellFormed := Json.wellFormed_erase h cidKey
  have hpayload : ∀ p : π, readPayload (Json.pruneMembers (Entries.erase cidKey ms)) = .ok p ↔
      Schema.Spells (Family.payloadFormat π) (.obj (Entries.erase cidKey ms)) p := fun p => by
    rw [readPayload_eq_ok_iff, ← Json.prune]
    exact decode_prune_eq_ok_iff _ (LawfulFamily.proper_payloadFormat π) _ hbody p
  obtain ⟨cid, p⟩ := msg
  simp only [read, Except.bind_eq_ok, Except.map_eq_ok, readCid_eq_ok_iff, hpayload,
    Message.mk.injEq]
  constructor
  · rintro ⟨_, hcid, _, ⟨_, w, hobj, hgiven, hw⟩, rfl, rfl⟩
    rw [Json.obj.injEq] at hobj
    rw [← hobj, LawfulFamily.key_eq] at hgiven
    exact ⟨hcid, w, hgiven, hw⟩
  · rintro ⟨hcid, w, hgiven, hw⟩
    rw [kind, ← LawfulFamily.key_eq] at hgiven
    exact ⟨cid, hcid, p, ⟨_, w, rfl, hgiven, hw⟩, rfl, rfl⟩

/-- **Reading accepts exactly the spellings** of messages of the kind asked for. -/
theorem decode_eq_ok_iff {ms : Json.Object} (h : (Json.obj ms).WellFormed) {expected : String}
    {msg : Message π} : decode ms expected = .ok msg ↔ msg.kind = expected ∧ Spells ms msg := by
  rw [decode_eq_ok_iff_read, read_eq_ok_iff h]

/-! ## Writing -/

theorem encode_eq (msg : Message π) : msg.encode = match msg.cid with
    | none => [msg.body]
    | some cid => Entries.insert cidKey (.str cid) [msg.body] := by
  rw [body, kind, ← LawfulFamily.key_eq]
  rfl

theorem get?_cid_body (msg : Message π) : Entries.get? cidKey [msg.body] = none := by
  rw [Entries.get?_eq_none_iff msg.sorted_body]
  intro p hp
  obtain rfl := List.mem_singleton.1 hp
  rw [body, kind, ← LawfulFamily.key_eq]
  exact LawfulFamily.key_ne_cid _

theorem sorted_encode (msg : Message π) : Entries.Sorted msg.encode := by
  rw [encode_eq]
  split
  · exact msg.sorted_body
  · exact msg.sorted_body.insert _ _

theorem get?_cid_encode (msg : Message π) :
    Entries.get? cidKey msg.encode = msg.cid.map .str := by
  rw [encode_eq]
  cases msg.cid with
  | none => exact msg.get?_cid_body
  | some cid => exact Entries.get?_insert_self msg.sorted_body _ _

theorem erase_cid_encode (msg : Message π) : Entries.erase cidKey msg.encode = [msg.body] := by
  rw [encode_eq]
  cases msg.cid with
  | none => exact Entries.erase_eq_self msg.sorted_body msg.get?_cid_body
  | some cid => exact Entries.erase_insert msg.sorted_body _ msg.get?_cid_body

theorem wellFormed_encode (msg : Message π) : (Json.obj msg.encode).WellFormed := by
  refine Json.wellFormed_obj.2 ⟨msg.sorted_encode, fun p hp => ?_⟩
  by_cases hk : p.1 = cidKey
  · have hget := (Entries.get?_eq_some_iff msg.sorted_encode).2 hp
    rw [hk, get?_cid_encode, Option.map_eq_some_iff] at hget
    obtain ⟨cid, -, hcid⟩ := hget
    rw [← hcid]
    trivial
  · have hbody := (Entries.mem_erase_iff msg.sorted_encode).2 ⟨hp, hk⟩
    rw [erase_cid_encode, List.mem_singleton] at hbody
    rw [hbody]
    exact Schema.wellFormed_encode (LawfulFamily.proper _) (LawfulFamily.isOptional_format _) _

theorem spells_encode (msg : Message π) : Spells msg.encode msg where
  cid := by
    rw [SpellsCid, get?_cid_encode]
    cases msg.cid <;> rfl
  payload := by
    refine ⟨_, ?_, Schema.spells_encode _ (LawfulFamily.proper _) _⟩
    rw [erase_cid_encode]
    refine Json.given_eq_self fun p hp => ?_
    obtain rfl := List.mem_singleton.1 hp
    exact isNull_encode (LawfulFamily.isOptional_format _) _

/-- **A message is read back from its dynamic form.** -/
theorem decode_encode (msg : Message π) : decode msg.encode msg.kind = .ok msg :=
  (decode_eq_ok_iff msg.wellFormed_encode).2 ⟨rfl, msg.spells_encode⟩

/-! ## Requests and credentials -/

/-- **Every message survives its dynamic form**, of all kinds, with and without collation id: it is
written, and read back as it was. -/
theorem envelopes_and_authRequests_round_trip :
    (∀ e : Envelope, e.write = .ok e.encode ∧ (Json.obj e.encode).WellFormed ∧
      decode e.encode e.kind = .ok e) ∧
    (∀ r : AuthRequest, r.write = .ok r.encode ∧ (Json.obj r.encode).WellFormed ∧
      decode r.encode r.kind = .ok r) :=
  ⟨fun e => ⟨e.write_eq, e.wellFormed_encode, e.decode_encode⟩,
    fun r => ⟨r.write_eq, r.wellFormed_encode, r.decode_encode⟩⟩

/-- **The grammar of dynamic forms**: an object is read as a message of a kind exactly where it
spells that message. -/
theorem decode_eq_ok_iff_spells {ms : Json.Object} (h : (Json.obj ms).WellFormed)
    (expected : String) :
    (∀ e : Envelope, decode ms expected = .ok e ↔ e.kind = expected ∧ Spells ms e) ∧
    (∀ r : AuthRequest, decode ms expected = .ok r ↔ r.kind = expected ∧ Spells ms r) :=
  ⟨fun _ => decode_eq_ok_iff h, fun _ => decode_eq_ok_iff h⟩

/-- Nulls beside the payload, records by position and by name, and an integer in decimal digits. -/
theorem spells_positional_match_data :
    Spells [("cid", .null), ("link", .null), ("matchDataSend", .arr [.str "m", .arr
        [.obj [("handle", .null), ("userId", .str "u")], .arr [.str "v", .str "s"]],
        .str "-0042"])]
      (⟨none, .matchDataSend ⟨"m", [⟨"u", "", ""⟩, ⟨"v", "s", ""⟩], -42, []⟩⟩ : Envelope) := by
  have hsorted : Entries.Sorted [("handle", Json.null), ("userId", .str "u")] := by decide
  refine ((decode_eq_ok_iff_spells ?_ "MatchDataSend").1 _).1 (by decide) |>.2
  exact ⟨by decide, trivial, trivial,
    ⟨trivial, ⟨⟨hsorted, trivial, trivial, trivial⟩, ⟨trivial, trivial, trivial⟩, trivial⟩, trivial,
      trivial⟩, trivial⟩

end Message

end MessageHooks
