import MessageHooks.Proofs.Message.Spelling

/-!
# Canonical forms of messages

The dynamic forms of messages, described without mention of writing: in order of keys, a collation
id that is a text if it is there, and beside it one member, for a payload in canonical form.

* `Message.exists_encode_eq_iff`: the dynamic forms of messages are the canonical ones.
* `Message.exists_decode_encode_eq_iff`: the canonical forms are also those that reading and
  writing again leaves as they are.
-/

namespace MessageHooks

open Schema

namespace Message

variable (π : Type) [Family π]

/-- The object is in the form in which messages of the family are written. -/
structure Canonical (ms : Json.Object) : Prop where
  sorted : Entries.Sorted ms
  cid : ∀ v, Entries.get? cidKey ms = some v → ∃ s, v = .str s
  payload : ∃ (k : Family.Kind π) (w : Json),
    Entries.erase cidKey ms = [(lowerCamel (Family.name k), w)] ∧
      Schema.Canonical (Family.format k) w

variable {π} [LawfulFamily π]

theorem canonical_encode (msg : Message π) : Canonical π msg.encode where
  sorted := msg.sorted_encode
  cid v hv := by
    rw [get?_cid_encode, Option.map_eq_some_iff] at hv
    obtain ⟨s, -, rfl⟩ := hv
    exact ⟨s, rfl⟩
  payload := by
    let k := Family.kindOf msg.payload
    exact ⟨k, _, msg.erase_cid_encode, (Schema.exists_encode_eq_iff (LawfulFamily.proper k)
      (LawfulFamily.isOptional_format k)).1 ⟨_, rfl⟩⟩

theorem Canonical.exists_encode_eq {ms : Json.Object} (h : Canonical π ms) :
    ∃ msg : Message π, msg.encode = ms := by
  obtain ⟨hs, hcid, k, w, hbody, hw⟩ := h
  obtain ⟨x, rfl⟩ := (Schema.exists_encode_eq_iff (LawfulFamily.proper k)
    (LawfulFamily.isOptional_format k)).2 hw
  cases hget : Entries.get? cidKey ms with
  | none =>
    refine ⟨⟨none, Family.shape.ofRow ⟨k, x⟩⟩, ?_⟩
    rw [encode_eq, body_ofRow, ← hbody]
    exact Entries.erase_eq_self hs hget
  | some v =>
    obtain ⟨s, rfl⟩ := hcid v hget
    refine ⟨⟨some s, Family.shape.ofRow ⟨k, x⟩⟩, ?_⟩
    rw [encode_eq, body_ofRow, ← hbody]
    exact Entries.insert_erase hs hget

/-- **The dynamic forms of messages are the canonical forms.** -/
theorem exists_encode_eq_iff {ms : Json.Object} :
    (∃ msg : Message π, msg.encode = ms) ↔ Canonical π ms := by
  constructor
  · rintro ⟨msg, rfl⟩
    exact msg.canonical_encode
  · exact Canonical.exists_encode_eq

/-- **Reading and writing again leaves exactly the canonical forms as they are.** -/
theorem exists_decode_encode_eq_iff {ms : Json.Object} :
    (∃ expected, ∃ msg : Message π, decode ms expected = .ok msg ∧ msg.encode = ms) ↔
      Canonical π ms := by
  rw [← exists_encode_eq_iff]
  constructor
  · rintro ⟨_, msg, -, hms⟩
    exact ⟨msg, hms⟩
  · rintro ⟨msg, rfl⟩
    exact ⟨msg.kind, msg, msg.decode_encode, rfl⟩

theorem decode_encode_of_decode {ms : Json.Object} {expected : String} {msg : Message π}
    (h : decode ms expected = .ok msg) : decode msg.encode expected = .ok msg := by
  rw [← (decode_eq_ok_iff_read.1 h).1]
  exact msg.decode_encode

/-! ## Requests and credentials -/

/-- **Writing reaches exactly the canonical forms**, reading and writing again fixes exactly these,
and takes whatever is read to one of them at once. -/
theorem encode_range_eq_canonical (ms : Json.Object) :
    (((∃ e : Envelope, e.encode = ms) ↔ Canonical Request ms) ∧
      ((∃ expected, ∃ e : Envelope, decode ms expected = .ok e ∧ e.encode = ms) ↔
        Canonical Request ms) ∧
      ∀ expected, ∀ e : Envelope, decode ms expected = .ok e →
        Canonical Request e.encode ∧ decode e.encode expected = .ok e) ∧
    ((∃ r : AuthRequest, r.encode = ms) ↔ Canonical Credential ms) ∧
      ((∃ expected, ∃ r : AuthRequest, decode ms expected = .ok r ∧ r.encode = ms) ↔
        Canonical Credential ms) ∧
      ∀ expected, ∀ r : AuthRequest, decode ms expected = .ok r →
        Canonical Credential r.encode ∧ decode r.encode expected = .ok r :=
  ⟨⟨exists_encode_eq_iff, exists_decode_encode_eq_iff,
      fun _ e h => ⟨e.canonical_encode, decode_encode_of_decode h⟩⟩,
    exists_encode_eq_iff, exists_decode_encode_eq_iff,
      fun _ r h => ⟨r.canonical_encode, decode_encode_of_decode h⟩⟩

end Message

end MessageHooks
