import MessageHooks.Proofs.Base64.Malformed
import MessageHooks.Proofs.Message.Integers
import MessageHooks.Proofs.Message.Refusal

/-!
# Bytes in messages

Two payloads carry bytes, which are written as a text. The text is read back as the bytes, and no
other text is: a text with any defect is refused, and with it the message that has it for its bytes.

* `RecordKind.refuses_of_part`: a part that spells nothing refuses the object for every kind.
* `RefusesMalformed`: a part of a payload takes no text with a defect.
* `bytes_have_one_text`: bytes and their texts, in values and in the two payloads.
-/

namespace MessageHooks

open Schema

namespace RecordKind

variable {π : Type} [Family π] [LawfulFamily π] {K : RecordKind π} {p : K.fields.Place}
  {ms : Json.Object} {v : Json}

/-- An object that gives a part of a payload can only be a message with that payload. -/
theorem kind_of_read (hms : (Json.obj ms).WellFormed) (hv : (K.part p).get? ms = some v)
    {m : Message π} (h : Message.read ms = .ok m) : m.kind = Family.name K.kind := by
  have hs := (Json.wellFormed_obj.1 hms).1
  obtain ⟨-, w, hgiven, -⟩ := (Message.read_eq_ok_iff hms).1 h
  rw [Message.kind, ← LawfulFamily.key_eq] at hgiven
  obtain ⟨u, hu, hpart⟩ := Option.bind_eq_some_iff.1 hv
  have hnull : u.isNull = false := by
    cases u with
    | null => cases hpart
    | _ => rfl
  have hmem : (K.key, u) ∈ Json.given (Entries.erase Message.cidKey ms) :=
    Json.mem_given.2 ⟨(Entries.mem_erase_iff hs).2
      ⟨(Entries.get?_eq_some_iff hs).1 hu, K.key_ne_cid⟩, hnull⟩
  rw [hgiven, List.mem_singleton] at hmem
  rw [Message.kind, Family.kinds.key_injective (Prod.ext_iff.1 hmem).1]

theorem refuses_of_part (hms : (Json.obj ms).WellFormed) (hv : (K.part p).get? ms = some v)
    (hno : ∀ y, ¬Spells (K.fields.format p) v y) :
    ∃ text, ∀ expected, Message.Refuses π ms expected text := by
  have hread : ∀ m, (Message.read ms : Except DecodeFault (Message π)) ≠ .ok m := fun m hm => by
    have hdecode := Message.decode_eq_ok_iff_read.2 ⟨kind_of_read hms hv hm, hm⟩
    obtain ⟨fault, hfault⟩ := exists_error_of_part hms hv hno
    rw [hdecode] at hfault
    cases hfault
  obtain ⟨fault, hfault⟩ := Except.exists_error_of_ne_ok hread
  exact ⟨fault.message, Message.refuses_of_read_eq hfault⟩

end RecordKind

/-! ## Bytes of a payload -/

/-- Objects whose payload has a text with a defect in this part are no requests of any kind. -/
def RefusesMalformed (part : Json.Part) : Prop :=
  ∀ (ms : Json.Object) (s : String), (Json.obj ms).WellFormed → part.get? ms = some (.str s) →
    Base64.Malformed s → ∃ text, ∀ expected, Message.Refuses Request ms expected text

theorem RecordKind.refusesMalformed (K : RecordKind Request) (p : K.fields.Place)
    (hp : ∀ s y, Spells (K.fields.format p) (.str s) y → Base64.IsStrict s) :
    RefusesMalformed (K.part p) :=
  fun _ s hms hv hs => refuses_of_part hms hv fun y hy => Base64.malformed_iff.1 hs (hp s y hy)

theorem isStrict_of_spells_bytes {s : String} {bytes : List UInt8}
    (h : Spells .bytes (.str s) bytes) : Base64.IsStrict s := by
  obtain ⟨_, hs, hstrict, -⟩ := h
  obtain rfl := Json.str.inj hs
  exact hstrict

/-- Bytes are read from what is written for them, and from no other value. -/
theorem decode_bytes_eq_ok_iff {v : Json} {bytes : List UInt8} :
    decode .bytes v = .ok bytes ↔ encode .bytes bytes = v := by
  rw [decode, readBytes_eq_ok_iff, encode]
  constructor
  · rintro ⟨s, rfl, -, rfl⟩
    rfl
  · rintro rfl
    exact ⟨_, rfl, Base64.isStrict_iff.2 ⟨bytes, rfl⟩, rfl⟩

theorem exists_decode_bytes_error_iff {s : String} :
    (∃ fault, decode .bytes (.str s) = .error (.base64 fault)) ↔ Base64.Malformed s := by
  have hdecode : decode .bytes (.str s) = (Base64.decodeText s).mapError .base64 := rfl
  rw [Base64.malformed_iff, Base64.isStrict_iff, hdecode]
  constructor
  · rintro ⟨fault, hfault⟩ ⟨bytes, rfl⟩
    rw [Base64.decodeText_encodeText] at hfault
    cases hfault
  · intro h
    obtain ⟨fault, hfault⟩ := Except.exists_error_of_ne_ok fun bytes hbytes =>
      h ⟨bytes, Base64.encodeText_of_decodeText (s := s) hbytes⟩
    rw [hfault]
    exact ⟨fault, rfl⟩

/-- **Bytes have one text.** What is written for bytes is read as these bytes, and nothing else is.
All other texts have a defect, white space and the symbols of other alphabets among them; they are
refused, in the bytes of a profile and in those of match data. -/
theorem bytes_have_one_text :
    (∀ bytes, decode .bytes (encode .bytes bytes) = .ok bytes) ∧
    (∀ v bytes, decode .bytes v = .ok bytes → encode .bytes bytes = v) ∧
    (∀ s s' bytes, decode .bytes (.str s) = .ok bytes → decode .bytes (.str s') = .ok bytes →
      s = s') ∧
    (∀ s, (∃ fault, decode .bytes (.str s) = .error (.base64 fault)) ↔ Base64.Malformed s) ∧
    (∀ s c, c ∈ s.toList → c.isWhitespace = true ∨ c = '-' ∨ c = '_' → Base64.Malformed s) ∧
    RefusesMalformed ⟨"selfUpdate", "metadata", 5⟩ ∧
    RefusesMalformed ⟨"matchDataSend", "data", 3⟩ := by
  refine ⟨fun bytes => decode_bytes_eq_ok_iff.2 rfl, fun v bytes => decode_bytes_eq_ok_iff.1,
    fun s s' bytes h h' => ?_, fun s => exists_decode_bytes_error_iff,
    fun s c => Base64.malformed_of_mem, ?_, ?_⟩
  · have heq := (decode_bytes_eq_ok_iff.1 h).symm.trans (decode_bytes_eq_ok_iff.1 h')
    exact Json.str.inj heq
  · exact (RequestKind.record .selfUpdate).refusesMalformed
      (some (some (some (some (some none))))) fun _ _ => isStrict_of_spells_bytes
  · exact (RequestKind.record .matchDataSend).refusesMalformed
      (some (some (some none))) fun _ _ => isStrict_of_spells_bytes

/-- The letter `A` as a byte has one text. Another last symbol, whose unused bits are not zero, is
refused, and so are match data that have it for their data. -/
theorem unused_bits_are_refused :
    decode .bytes (.str "QQ==") = .ok [65] ∧ encode .bytes [65] = .str "QQ==" ∧
      (∃ fault, decode .bytes (.str "QR==") = .error (.base64 fault)) ∧
      ∃ text, ∀ expected, Message.Refuses Request
        [("matchDataSend", .arr [.str "m", .arr [], .int 7, .str "QR=="])] expected text := by
  obtain ⟨-, hwritten, -, hdefects, -, -, hdata⟩ := bytes_have_one_text
  have hread : decode .bytes (.str "QQ==") = .ok [65] := by decide +kernel
  have hpadded : Base64.Padded "QR==" ['Q', 'R'] 2 := ⟨by decide, by simp⟩
  have hbad : Base64.Malformed "QR==" := .unused hpadded (n := 17) (by decide) rfl (by decide)
  exact ⟨hread, hwritten _ _ hread, (hdefects _).2 hbad,
    hdata _ _ ⟨by decide, ⟨trivial, trivial, trivial, trivial, trivial⟩, trivial⟩ rfl hbad⟩

end MessageHooks
