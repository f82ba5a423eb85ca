import MessageHooks.Proofs.Message.Spelling

/-!
# Telling kinds from dynamic forms

A before hook sees one object and answers with another. From these two alone it can be said whether
the answer is a message of the kind that was given, since no object is read both as a request and
as a credential.

* `Message.accepts`: both objects are read as messages of one kind.
* `RecognizedFamily`: for the messages of the family that is what reading the answer decides.
-/

namespace MessageHooks

namespace Message

/-- Whether two objects are read as messages of one kind of the family. -/
def sameKind (π : Type) [Family π] (a b : Json.Object) : Bool :=
  match (read a : Except DecodeFault (Message π)), (read b : Except DecodeFault (Message π)) with
  | .ok m, .ok m' => m.kind == m'.kind
  | _, _ => false

/-- Whether an output is a message of the kind that the input is of. -/
def accepts (input output : Json.Object) : Bool :=
  sameKind Request input output || sameKind Credential input output

variable {π ρ : Type} [Family π] [LawfulFamily π] [Family ρ] [LawfulFamily ρ]

theorem read_encode (m : Message π) : read m.encode = .ok m :=
  (decode_eq_ok_iff_read.1 m.decode_encode).2

/-- Beside a message's own dynamic form, an object of its kind is one that is read as such. -/
theorem sameKind_encode (m : Message π) (output : Json.Object) :
    sameKind π m.encode output = (decode output m.kind : Except DecodeFault (Message π)).isOk := by
  unfold sameKind decode
  rw [read_encode]
  cases (read output : Except DecodeFault (Message π)) with
  | error fault => rfl
  | ok m' =>
    show (m.kind == m'.kind) = (if m'.kind = m.kind then Except.ok m' else _).isOk
    by_cases h : m'.kind = m.kind
    · rw [if_pos h, h, beq_self_eq_true]
      rfl
    · rw [if_neg h, beq_false_of_ne (Ne.symm h)]
      rfl

/-- A message is not read as one of a family with other keys. -/
theorem sameKind_encode_of_keys_ne
    (hkeys : ∀ (k : Family.Kind π) (k' : Family.Kind ρ),
      Family.kinds.key k ≠ Family.kinds.key k')
    (m : Message π) (output : Json.Object) : sameKind ρ m.encode output = false := by
  unfold sameKind
  cases hread : (read m.encode : Except DecodeFault (Message ρ)) with
  | error fault => rfl
  | ok m' =>
    obtain ⟨w, hw, -⟩ := ((read_eq_ok_iff m.wellFormed_encode).1 hread).payload
    obtain ⟨v, hv, -⟩ := m.spells_encode.payload
    have hpair : (lowerCamel m.kind, v) = (lowerCamel m'.kind, w) :=
      List.singleton_inj.1 (hv.symm.trans hw)
    have hkey := congrArg Prod.fst hpair
    simp only [kind, ← LawfulFamily.key_eq] at hkey
    exact absurd hkey (hkeys _ _)

end Message

theorem RequestKind.key_ne_credentialKey (k : RequestKind) (k' : CredentialKind) :
    k.key ≠ k'.key := by
  cases k <;> cases k' <;> decide

/-- A family whose messages are told from those of all other families by their dynamic forms. -/
class RecognizedFamily (π : Type) [Family π] : Prop where
  accepts_encode : ∀ (m : Message π) (output : Json.Object),
    Message.accepts m.encode output = (Message.decode output m.kind : Except _ (Message π)).isOk

instance : RecognizedFamily Request where
  accepts_encode m output := by
    rw [Message.accepts, Message.sameKind_encode, Message.sameKind_encode_of_keys_ne
      (ρ := Credential) RequestKind.key_ne_credentialKey, Bool.or_false]

instance : RecognizedFamily Credential where
  accepts_encode m output := by
    rw [Message.accepts, Message.sameKind_encode, Message.sameKind_encode_of_keys_ne
      (ρ := Request) fun k k' => (RequestKind.key_ne_credentialKey k' k).symm, Bool.false_or]

end MessageHooks
