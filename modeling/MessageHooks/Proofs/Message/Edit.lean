import MessageHooks.Proofs.Message.Record

/-!
# Edits of a payload

A before hook that changes one member of the payload changes one field of the message, and one that
changes several changes these fields, in whatever order it does so. The member's value is read as
the field's; without a value the field goes back to its blank; and an undeclared member is refused.

* `RecordKind.Form`: an object whose payload is written as an object; `RecordKind.Gives`: one that
  is read as a certain message.
* `FieldEdit`: an edit of one member that leaves its field with some value.
* `RecordKind.Editable`: how the edits of a message are read.
* `field_edits_are_lenses`: all messages that carry records are editable.
-/

namespace MessageHooks

open Schema

namespace RecordKind

variable {π : Type} [Family π] (K : RecordKind π)

/-! ## Forms -/

/-- The object gives a payload of the kind, written as the object `inner`, beside a collation id. -/
structure Form (cid : Option String) (inner ms : Json.Object) : Prop where
  wellFormed : (Json.obj ms).WellFormed
  cid : Message.SpellsCid ms cid
  payload : Json.given (Entries.erase Message.cidKey ms) = [(K.key, .obj inner)]

namespace Form

variable {K} {cid : Option String} {inner ms : Json.Object} (h : K.Form cid inner ms)
include h

theorem sorted : Entries.Sorted ms := (Json.wellFormed_obj.1 h.wellFormed).1

theorem get?_key : Entries.get? K.key ms = some (.obj inner) :=
  (Json.get?_of_given_erase h.sorted h.payload).1

theorem wellFormed_inner : (Json.obj inner).WellFormed :=
  Json.wellFormed_of_given_erase h.wellFormed h.payload

theorem sorted_inner : Entries.Sorted inner := (Json.wellFormed_obj.1 h.wellFormed_inner).1

end Form

/-! ## Reading -/

variable [LawfulFamily π]

namespace Form

variable {K} {cid : Option String} {inner ms : Json.Object} (h : K.Form cid inner ms)
include h

theorem decode_eq_ok_iff {m : Message π} :
    Message.decode ms (Family.name K.kind) = .ok m ↔
      ∃ row, SpellsObject K.fields inner row ∧ K.message cid row = m := by
  have hspells : ∀ (cid' : Option String) (row : K.Row), Message.Spells ms (K.message cid' row) ↔
      cid = cid' ∧ SpellsObject K.fields inner row := by
    intro cid' row
    have hcid : Message.SpellsCid ms cid' ↔ cid = cid' := by
      rw [← Message.readCid_eq_ok_iff, Message.readCid_eq_ok_iff.2 h.cid, Except.ok.injEq]
    rw [spells_message_iff, h.payload, hcid]
    simp [spells_record_obj_iff, K.shape.toRow_ofRow]
  rw [Message.decode_eq_ok_iff h.wellFormed]
  constructor
  · rintro ⟨hkind, hm⟩
    obtain ⟨row, hrow⟩ := K.exists_message_eq (Family.name_injective hkind)
    rw [hrow, hspells] at hm
    exact ⟨row, hm.2, by rw [hm.1, ← hrow]⟩
  · rintro ⟨row, hrow, rfl⟩
    exact ⟨K.kind_message cid row, (hspells cid row).2 ⟨rfl, hrow⟩⟩

theorem exists_error (hno : ∀ row, ¬SpellsObject K.fields inner row) :
    ∃ fault, (Message.decode ms (Family.name K.kind) : Except DecodeFault (Message π)) =
      .error fault := by
  refine Except.exists_error_of_ne_ok fun m hm => ?_
  obtain ⟨row, hrow, -⟩ := h.decode_eq_ok_iff.1 hm
  exact hno row hrow

/-- An edit of the payload makes another form. -/
theorem edit {e : Json.Edit} (he : e.WellFormed) (k : String) :
    K.Form cid (e.run [k] inner) (e.run [K.key, k] ms) := by
  rw [e.run_cons_cons h.get?_key]
  have hinner := e.wellFormed_run he h.wellFormed_inner k
  exact ⟨Json.wellFormed_insert h.wellFormed _ hinner,
    (Message.spellsCid_insert h.sorted K.key_ne_cid.symm).2 h.cid,
    Json.given_erase_insert h.sorted K.key_ne_cid.symm h.payload rfl⟩

end Form

/-- The object is such a form of the message with this row. -/
def Gives (cid : Option String) (row : K.Row) (ms : Json.Object) : Prop :=
  ∃ inner, K.Form cid inner ms ∧ SpellsObject K.fields inner row

theorem gives_encode (cid : Option String) (row : K.Row) :
    K.Gives cid row (K.message cid row).encode := by
  let inner := Entries.ofList (encodeRow K.fields (K.shape.toRow (K.shape.ofRow row)))
  have hbody : (K.message cid row).body = (K.key, .obj inner) := by
    rw [message, Message.body_ofRow, K.format_eq, key, LawfulFamily.key_eq]
    rfl
  have hgiven : Json.given (Entries.erase Message.cidKey (K.message cid row).encode) =
      [(K.key, .obj inner)] := by
    rw [Message.erase_cid_encode, hbody]
    rfl
  obtain ⟨hcid, w, hw, hspells⟩ := K.spells_message_iff.1 (K.message cid row).spells_encode
  obtain rfl : w = .obj inner := congrArg Prod.snd (List.singleton_inj.1 (hw.symm.trans hgiven))
  rw [spells_record_obj_iff, K.shape.toRow_ofRow] at hspells
  exact ⟨inner, ⟨(K.message cid row).wellFormed_encode, hcid, hgiven⟩, hspells⟩

namespace Gives

variable {K} {cid : Option String} {row : K.Row} {ms : Json.Object} (h : K.Gives cid row ms)
include h

theorem decode_eq : Message.decode ms (Family.name K.kind) = .ok (K.message cid row) := by
  obtain ⟨inner, hform, hinner⟩ := h
  exact hform.decode_eq_ok_iff.2 ⟨row, hinner, rfl⟩

theorem edit {e : Json.Edit} (he : e.WellFormed) {p : K.fields.Place} {y : K.fields.Value p}
    (hy : SpellsGiven (K.fields.format p) (K.fields.blank p) e.given? y) :
    K.Gives cid (K.fields.set p y row) (e.run [K.key, K.fields.name p] ms) := by
  obtain ⟨inner, hform, hinner⟩ := h
  exact ⟨_, hform.edit he _, hinner.edit K.proper_fields hform.sorted_inner hy⟩

theorem edit_invalid {e : Json.Edit} (he : e.WellFormed) {p : K.fields.Place}
    (hy : ∀ y, ¬SpellsGiven (K.fields.format p) (K.fields.blank p) e.given? y) :
    ∃ fault, (Message.decode (e.run [K.key, K.fields.name p] ms) (Family.name K.kind) :
      Except DecodeFault (Message π)) = .error fault := by
  obtain ⟨inner, hform, -⟩ := h
  exact (hform.edit he _).exists_error fun row' hrow' =>
    hy _ (SpellsObject.of_edit hform.sorted_inner hrow')

/-- An undeclared member is refused if it is given. -/
theorem edit_undeclared {e : Json.Edit} (he : e.WellFormed) {k : String} (hk : k ∉ K.fields.names)
    {v : Json} (hv : e.given? = some v) :
    ∃ fault, (Message.decode (e.run [K.key, k] ms) (Family.name K.kind) :
      Except DecodeFault (Message π)) = .error fault := by
  obtain ⟨inner, hform, -⟩ := h
  exact (hform.edit he _).exists_error fun _ =>
    SpellsObject.not_edit_undeclared hform.sorted_inner hk hv

/-- An undeclared member that is not given is not seen. -/
theorem edit_unseen {e : Json.Edit} (he : e.WellFormed) {k : String} (hk : k ∉ K.fields.names)
    (hv : e.given? = none) : K.Gives cid row (e.run [K.key, k] ms) := by
  obtain ⟨inner, hform, hinner⟩ := h
  exact ⟨_, hform.edit he _, hinner.edit_undeclared hform.sorted_inner hk hv⟩

end Gives

end RecordKind

/-! ## Edits of several fields -/

/-- An edit of one member of a record, with the value it leaves the field with. -/
structure FieldEdit {ρ : Type} (fs : Fields ρ) where
  place : fs.Place
  edit : Json.Edit
  value : fs.Value place
  wellFormed : edit.WellFormed
  leaves : SpellsGiven (fs.format place) (fs.blank place) edit.given? value

namespace FieldEdit

variable {ρ : Type} {fs : Fields ρ}

/-- Edit the record under a key of an object. -/
def run (key : String) (ms : Json.Object) (x : FieldEdit fs) : Json.Object :=
  x.edit.run [key, fs.name x.place] ms

def put (row : ρ) (x : FieldEdit fs) : ρ := fs.set x.place x.value row

theorem get_foldl_put_of_notMem {xs : List (FieldEdit fs)} {q : fs.Place}
    (h : q ∉ xs.map place) (row : ρ) : fs.get q (xs.foldl put row) = fs.get q row := by
  induction xs generalizing row with
  | nil => rfl
  | cons x xs ih =>
    rw [List.map_cons, List.mem_cons, not_or] at h
    rw [List.foldl_cons, ih h.2, put, fs.get_set_of_ne h.1]

theorem get_foldl_put_of_mem {xs : List (FieldEdit fs)} (h : (xs.map place).Nodup)
    {x : FieldEdit fs} (hx : x ∈ xs) (row : ρ) :
    fs.get x.place (xs.foldl put row) = x.value := by
  induction xs generalizing row with
  | nil => cases hx
  | cons y xs ih =>
    obtain ⟨hy, hxs⟩ := List.nodup_cons.1 h
    rw [List.foldl_cons]
    rcases List.mem_cons.1 hx with rfl | hx
    · rw [get_foldl_put_of_notMem hy, put, fs.get_set_self]
    · exact ih hxs hx _

/-- Edits of different fields leave the same row in every order. -/
theorem foldl_put_perm {xs ys : List (FieldEdit fs)} (hperm : ys.Perm xs)
    (h : (xs.map place).Nodup) (row : ρ) : ys.foldl put row = xs.foldl put row := by
  refine fs.ext_get fun q => ?_
  by_cases hq : q ∈ xs.map place
  · obtain ⟨x, hx, rfl⟩ := List.mem_map.1 hq
    have hys : (ys.map place).Nodup := (hperm.map place).nodup_iff.2 h
    rw [get_foldl_put_of_mem h hx, get_foldl_put_of_mem hys (hperm.mem_iff.2 hx)]
  · have hqs : q ∉ ys.map place := fun hmem => hq ((hperm.map place).mem_iff.1 hmem)
    rw [get_foldl_put_of_notMem hq, get_foldl_put_of_notMem hqs]

end FieldEdit

namespace RecordKind

variable {π : Type} [Family π] [LawfulFamily π] {K : RecordKind π}

theorem Gives.edits {cid : Option String} {row : K.Row} {ms : Json.Object}
    (h : K.Gives cid row ms) (xs : List (FieldEdit K.fields)) :
    K.Gives cid (xs.foldl FieldEdit.put row) (xs.foldl (FieldEdit.run K.key) ms) := by
  induction xs generalizing row ms with
  | nil => exact h
  | cons x xs ih => exact ih (h.edit x.wellFormed x.leaves)

end RecordKind

/-! ## Messages -/

/-- What is read in place of a message whose dynamic form was changed. -/
def Message.reread {π : Type} [Family π] (m : Message π) (change : Json.Object → Json.Object) :
    Except DecodeFault (Message π) :=
  decode (change m.encode) m.kind

namespace RecordKind

variable {π : Type} [Family π]

/-- How the edits of a message's payload are read. A value of the field replaces it, null and
nothing leave its blank, and any other value is refused, as is any value of an undeclared member.
Edits of different fields replace them all, in every order, and touch nothing else. -/
structure Editable (K : RecordKind π) (cid : Option String) (row : K.Row) : Prop where
  valid : ∀ (p : K.fields.Place) (v : Json) (y : K.fields.Value p), v.WellFormed → v ≠ .null →
    Spells (K.fields.format p) v y →
    (K.message cid row).reread (Json.Object.setAt v [K.key, K.fields.name p]) =
      .ok (K.message cid (K.fields.set p y row))
  invalid : ∀ (p : K.fields.Place) (v : Json), v.WellFormed → v ≠ .null →
    (∀ y, ¬Spells (K.fields.format p) v y) →
    ∃ fault, (K.message cid row).reread (Json.Object.setAt v [K.key, K.fields.name p]) =
      .error fault
  null : ∀ p : K.fields.Place,
    (K.message cid row).reread (Json.Object.setAt .null [K.key, K.fields.name p]) =
      .ok (K.message cid (K.fields.set p (K.fields.blank p) row))
  dropped : ∀ p : K.fields.Place,
    (K.message cid row).reread (Json.Object.dropAt [K.key, K.fields.name p]) =
      .ok (K.message cid (K.fields.set p (K.fields.blank p) row))
  undeclared : ∀ (k : String) (v : Json), k ∉ K.fields.names → v.WellFormed → v ≠ .null →
    ∃ fault, (K.message cid row).reread (Json.Object.setAt v [K.key, k]) = .error fault
  undeclaredNull : ∀ k ∉ K.fields.names,
    (K.message cid row).reread (Json.Object.setAt .null [K.key, k]) = .ok (K.message cid row)
  together : ∀ xs : List (FieldEdit K.fields), (xs.map FieldEdit.place).Nodup →
    ∃ row', (∀ x ∈ xs, K.fields.get x.place row' = x.value) ∧
      (∀ q ∉ xs.map FieldEdit.place, K.fields.get q row' = K.fields.get q row) ∧
      ∀ ys : List (FieldEdit K.fields), ys.Perm xs →
        (K.message cid row).reread (fun ms => ys.foldl (FieldEdit.run K.key) ms) =
          .ok (K.message cid row')

theorem editable [LawfulFamily π] (K : RecordKind π) (cid : Option String) (row : K.Row) :
    K.Editable cid row := by
  have hgives := K.gives_encode cid row
  have hreread : ∀ change, (K.message cid row).reread change =
      Message.decode (change (K.message cid row).encode) (Family.name K.kind) := fun change => by
    rw [Message.reread, kind_message]
  have hset : ∀ {v : Json}, v ≠ .null → (Json.Edit.set v).given? = some v := Json.Edit.given?_set
  refine ⟨fun p v y hwf hv hy => ?_, fun p v hwf hv hy => ?_, fun p => ?_, fun p => ?_,
    fun k v hk hwf hv => ?_, fun k hk => ?_, fun xs hxs => ?_⟩
  · rw [hreread]
    refine (hgives.edit (e := .set v) hwf ?_).decode_eq
    rw [hset hv]
    exact hy
  · rw [hreread]
    refine hgives.edit_invalid (e := .set v) hwf fun y => ?_
    rw [hset hv]
    exact hy y
  · rw [hreread]
    exact (hgives.edit (e := .set .null) trivial rfl).decode_eq
  · rw [hreread]
    exact (hgives.edit (e := .drop) trivial rfl).decode_eq
  · rw [hreread]
    exact hgives.edit_undeclared (e := .set v) hwf hk (hset hv)
  · rw [hreread]
    exact (hgives.edit_unseen (e := .set .null) trivial hk rfl).decode_eq
  · refine ⟨xs.foldl FieldEdit.put row, fun x hx => FieldEdit.get_foldl_put_of_mem hxs hx row,
      fun q hq => FieldEdit.get_foldl_put_of_notMem hq row, fun ys hperm => ?_⟩
    rw [hreread, ← FieldEdit.foldl_put_perm hperm hxs]
    exact (hgives.edits ys).decode_eq

end RecordKind

/-! ## Requests and credentials -/

/-- **The edits of a hook are lenses.** Every request carries a record, and so do logins and proofs
of a platform. Each is read back from its edited dynamic form with the edited fields replaced, and
the names by which members are edited are those of the parts of the payload. -/
theorem field_edits_are_lenses :
    (∀ e : Envelope,
      let K := RequestKind.record (Family.kindOf e.payload)
      ∃ row : K.Row, e = K.message e.cid row ∧ K.Editable e.cid row ∧
        ∀ cid row' m, m ∈ (K.message cid row').payload.members ↔
          ∃ p, m = (K.fields.name p, encode (K.fields.format p) (K.fields.get p row'))) ∧
    ∀ (r : AuthRequest) (K : RecordKind Credential),
      CredentialKind.record? (Family.kindOf r.payload) = some K →
      ∃ row : K.Row, r = K.message r.cid row ∧ K.Editable r.cid row ∧
        ∀ cid row' m, m ∈ (K.message cid row').payload.members ↔
          ∃ p, m = (K.fields.name p, encode (K.fields.format p) (K.fields.get p row')) := by
  constructor
  · intro e K
    obtain ⟨row, hrow⟩ := K.exists_message_eq (RequestKind.kind_record _).symm
    refine ⟨row, hrow, K.editable _ row, fun cid row' m => ?_⟩
    rw [RequestKind.members_message, K.fields.mem_members_iff]
  · intro r K h
    obtain ⟨row, hrow⟩ := K.exists_message_eq (CredentialKind.kind_of_record? h).symm
    refine ⟨row, hrow, K.editable _ row, fun cid row' m => ?_⟩
    rw [CredentialKind.members_message h, K.fields.mem_members_iff]

/-- A time in decimal digits is put into a proof of a platform, and its salt is dropped. -/
theorem edited_proof_keeps_other_fields :
    let proof : PlatformProof := ⟨"p", "b", 5, "salt", "sig", "url"⟩
    let r : AuthRequest := ⟨some "c", .gameCenter proof⟩
    r.reread (Json.Object.setAt (.str "-7") ["gameCenter", "timestamp"]) =
        .ok ⟨some "c", .gameCenter { proof with timestamp := -7 }⟩ ∧
      r.reread (Json.Object.dropAt ["gameCenter", "salt"]) =
        .ok ⟨some "c", .gameCenter { proof with salt := "" }⟩ := by
  intro proof r
  obtain ⟨⟨playerId, bundleId, timestamp, salt, signature, publicKeyUrl, ⟨⟩⟩, hrow, hedit, -⟩ :=
    field_edits_are_lenses.2 r _ rfl
  obtain ⟨rfl, rfl, rfl, rfl, rfl, rfl⟩ := PlatformProof.mk.inj <|
    Credential.gameCenter.inj (congrArg Message.payload hrow)
  have htimestamp : Spells .int64 (.str "-7") (-7) := readInt64_eq_ok_iff.1 (by decide)
  have hset := hedit.valid (some (some none)) (.str "-7") (-7 : Int64) trivial nofun htimestamp
  have hdrop := hedit.dropped (some (some (some none)))
  exact ⟨hset, hdrop⟩

end MessageHooks
