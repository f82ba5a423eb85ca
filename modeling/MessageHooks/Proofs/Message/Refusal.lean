import MessageHooks.Error
import MessageHooks.Proofs.Message.Spelling
import Mathlib.Data.List.Sort
import Mathlib.Logic.Basic

/-!
# Refused objects

Whether an object is a message of a family, and of which, does not depend on the kind that is asked
for: the kind is compared last. So an object is either one message, which only another kind can
refuse, or it is refused with one text whatever is asked for. That text is told by the members of
the object alone: it names the first fault, in the order in which they are looked for.

* `Message.Survives`: the members that count as payloads.
* `Message.FirstFault m text`: the first fault of the object has this text.
* `Message.firstFault_iff_read`: reading fails with exactly the first fault.
* `Message.Decided`: an object is one message, or it has one fault.
* `Message.objects_are_decided`: so it is with every object, for requests and for credentials.
-/

namespace MessageHooks

open Schema

namespace Message

/-! ## Members that count -/

/-- The member counts as a payload: it is not null, and its key is not that of the collation id. -/
def Survives (m : Json.Object) (k : String) (v : Json) : Prop :=
  k ≠ cidKey ∧ Entries.get? k m = some v ∧ v ≠ .null

/-- What stands in the place of the collation id is a text or null, if there is anything. -/
def HasCid (m : Json.Object) : Prop :=
  ∀ v, Entries.get? cidKey m = some v → v = .null ∨ ∃ s, v = .str s

/-- The members that count. -/
def survivors (m : Json.Object) : Json.Object := Json.given (Entries.erase cidKey m)

theorem mem_survivors_iff {m : Json.Object} (hs : Entries.Sorted m) {k : String} {v : Json} :
    (k, v) ∈ survivors m ↔ Survives m k v := by
  rw [survivors, Json.mem_given, Entries.mem_erase_iff hs, ← Entries.get?_eq_some_iff hs,
    ← Bool.not_eq_true, Json.isNull_iff, Survives]
  tauto

theorem sorted_survivors {m : Json.Object} (hs : Entries.Sorted m) :
    Entries.Sorted (survivors m) :=
  Json.sorted_given (hs.erase cidKey)

/-- One member counts where it is all that is left. -/
theorem survivors_eq_singleton_iff {m : Json.Object} (hs : Entries.Sorted m) {k : String}
    {v : Json} : survivors m = [(k, v)] ↔ ∀ k' v', Survives m k' v' ↔ k' = k ∧ v' = v := by
  constructor
  · intro h k' v'
    rw [← mem_survivors_iff hs, h, List.mem_singleton, Prod.mk.injEq]
  · intro h
    refine Entries.Sorted.ext (sorted_survivors hs) (List.pairwise_singleton _ _) fun k' => ?_
    refine Option.ext fun v' => ?_
    rw [Entries.get?_eq_some_iff (sorted_survivors hs), mem_survivors_iff hs, h,
      Entries.get?_eq_some_iff (List.pairwise_singleton _ _), List.mem_singleton, Prod.mk.injEq]

theorem keys_survivors_eq_iff {m : Json.Object} (hs : Entries.Sorted m) {keys : List String} :
    (survivors m).map Prod.fst = keys ↔
      (keys.Pairwise fun k l => KeyOrder.lt k l = true) ∧
        ∀ k, k ∈ keys ↔ ∃ v, Survives m k v := by
  have hmem : ∀ k, k ∈ (survivors m).map Prod.fst ↔ ∃ v, Survives m k v := fun k => by
    simp only [List.mem_map, Prod.exists, exists_and_right, exists_eq_right, mem_survivors_iff hs]
  have hsorted := Entries.sorted_iff_pairwise_keys.1 (sorted_survivors hs)
  constructor
  · rintro rfl
    exact ⟨hsorted, hmem⟩
  · rintro ⟨hkeys, hkeysMem⟩
    have : Std.Irrefl fun k l : String => KeyOrder.lt k l = true :=
      ⟨fun k h => by rw [KeyOrder.irrefl] at h; cases h⟩
    have : Std.Antisymm fun k l : String => KeyOrder.lt k l = true :=
      ⟨fun k l h h' => by rw [KeyOrder.asymm h] at h'; cases h'⟩
    exact hsorted.eq_of_mem_iff hkeys fun k => by rw [hmem, hkeysMem]

/-! ## The first fault -/

/-- The text of the first fault of an object: of the collation id, of the number of payloads, of
the key of the only payload, and of the payload itself. -/
inductive FirstFault (π : Type) [Family π] (m : Json.Object) : String → Prop
  | cid {v : Json} (h : Entries.get? cidKey m = some v) (hnull : v ≠ .null)
    (htext : ∀ s, v ≠ .str s) : FirstFault π m ("cid must be a string, got " ++ v.kindName)
  | noPayload (hcid : HasCid m) (h : ∀ k v, ¬Survives m k v) :
    FirstFault π m "no message payload present"
  | manyPayloads {keys : List String} (hcid : HasCid m)
    (hascending : keys.Pairwise fun k l => KeyOrder.lt k l = true)
    (hkeys : ∀ k, k ∈ keys ↔ ∃ v, Survives m k v) (hmany : 2 ≤ keys.length) :
    FirstFault π m
      ("expected exactly one message payload, found: " ++ String.intercalate ", " keys)
  | unknown {k : String} {v : Json} (hcid : HasCid m)
    (h : ∀ k' v', Survives m k' v' ↔ k' = k ∧ v' = v)
    (hk : ∀ i : Family.Kind π, Family.kinds.key i ≠ k) :
    FirstFault π m (unknownVariant k (Family.kinds (π := π)).keys)
  | payload {i : Family.Kind π} {v : Json} {fault : Fault} (hcid : HasCid m)
    (h : ∀ k' v', Survives m k' v' ↔ k' = Family.kinds.key i ∧ v' = v)
    (hfault : Schema.decode (Family.format i) v.prune = .error fault) :
    FirstFault π m fault.message

variable {π : Type} [Family π]

/-! ## Reading -/

theorem hasCid_iff {m : Json.Object} : HasCid m ↔ ∃ cid, readCid m = .ok cid := by
  unfold HasCid readCid
  cases hget : Entries.get? cidKey m with
  | none => simp
  | some v => cases v <;> simp

theorem readCid_eq_error_iff {m : Json.Object} {fault : DecodeFault} :
    readCid m = .error fault ↔ ∃ v, Entries.get? cidKey m = some v ∧ v ≠ .null ∧
      (∀ s, v ≠ .str s) ∧ .cidKind v.kindName = fault := by
  unfold readCid
  cases Entries.get? cidKey m with
  | none => simp
  | some v => cases v <;> simp

theorem readPayload_singleton (k : String) (v : Json) :
    (readPayload [(k, v)] : Except DecodeFault π) =
      match (Family.kinds (π := π)).find? k with
      | some i => ((Schema.decode (Family.format i) v).map fun x =>
          Family.shape.ofRow ⟨i, x⟩).mapError .payload
      | none => .error (.payload (.unknownVariant k (Family.kinds (π := π)).keys)) := by
  rw [readPayload, Family.payloadFormat, Schema.decode]
  cases (Family.kinds (π := π)).find? k <;> rfl

theorem readPayload_of_two_le {ms : Json.Object} (h : 2 ≤ ms.length) :
    (readPayload ms : Except DecodeFault π) = .error (.manyPayloads (ms.map Prod.fst)) := by
  match ms with
  | [] | [_] => simp at h
  | _ :: _ :: _ => rfl

theorem read_eq_of_readCid {m : Json.Object} {cid : Option String} (h : readCid m = .ok cid) :
    (read m : Except DecodeFault (Message π)) =
      (readPayload ((survivors m).map fun p => (p.1, p.2.prune))).map fun p => ⟨cid, p⟩ := by
  rw [read, h, Json.pruneMembers_eq]
  rfl

variable {m : Json.Object}

theorem FirstFault.read_eq (hs : Entries.Sorted m) {text : String} (h : FirstFault π m text) :
    ∃ fault, (read m : Except DecodeFault (Message π)) = .error fault ∧ fault.message = text := by
  cases h with
  | @cid v hget hnull htext =>
    have hcid := readCid_eq_error_iff.2 ⟨v, hget, hnull, htext, rfl⟩
    exact ⟨.cidKind v.kindName, by rw [read, hcid]; rfl, rfl⟩
  | noPayload hcid h =>
    obtain ⟨cid, hread⟩ := hasCid_iff.1 hcid
    have hnil : survivors m = [] :=
      List.eq_nil_iff_forall_not_mem.2 fun p hp => h p.1 p.2 ((mem_survivors_iff hs).1 hp)
    exact ⟨.noPayload, by rw [read_eq_of_readCid hread, hnil]; rfl, rfl⟩
  | @manyPayloads keys hcid hascending hkeys hmany =>
    obtain ⟨cid, hread⟩ := hasCid_iff.1 hcid
    have hmap := (keys_survivors_eq_iff hs).2 ⟨hascending, hkeys⟩
    have hlen : 2 ≤ ((survivors m).map fun p => (p.1, p.2.prune)).length := by
      rw [List.length_map, ← List.length_map (f := Prod.fst), hmap]
      exact hmany
    refine ⟨.manyPayloads keys, ?_, rfl⟩
    rw [read_eq_of_readCid hread, readPayload_of_two_le hlen, List.map_map, ← hmap]
    rfl
  | @unknown k v hcid h hk =>
    obtain ⟨cid, hread⟩ := hasCid_iff.1 hcid
    have hnone : (Family.kinds (π := π)).find? k = none :=
      Option.eq_none_iff_forall_ne_some.2 fun i hi =>
        hk i ((Family.kinds.find?_eq_some_iff).1 hi)
    refine ⟨.payload (.unknownVariant k (Family.kinds (π := π)).keys), ?_, rfl⟩
    rw [read_eq_of_readCid hread, (survivors_eq_singleton_iff hs).2 h, List.map_singleton,
      readPayload_singleton, hnone]
    rfl
  | @payload i v fault hcid h hfault =>
    obtain ⟨cid, hread⟩ := hasCid_iff.1 hcid
    refine ⟨.payload fault, ?_, rfl⟩
    rw [read_eq_of_readCid hread, (survivors_eq_singleton_iff hs).2 h, List.map_singleton,
      readPayload_singleton, Family.kinds.find?_key]
    simp only [hfault]
    rfl

/-- What the only payload fails with is the first fault: its key is unknown, or its format does not
take it. -/
theorem firstFault_of_singleton {k : String} {v : Json} {cid : Option String}
    {fault : DecodeFault} (hcid : HasCid m) (hsingle : ∀ k' v', Survives m k' v' ↔ k' = k ∧ v' = v)
    (h : (readPayload [(k, v.prune)] : Except DecodeFault π).map (fun p => (⟨cid, p⟩ : Message π)) =
      .error fault) : FirstFault π m fault.message := by
  rw [readPayload_singleton] at h
  cases hfind : (Family.kinds (π := π)).find? k with
  | none =>
    rw [hfind] at h
    cases h
    refine .unknown hcid hsingle fun i hi => ?_
    rw [← hi, Family.kinds.find?_key] at hfind
    cases hfind
  | some i =>
    obtain rfl := Family.kinds.find?_eq_some_iff.1 hfind
    rw [hfind] at h
    cases hdecode : Schema.decode (Family.format i) v.prune with
    | ok x =>
      simp only [hdecode] at h
      cases h
    | error payloadFault =>
      simp only [hdecode] at h
      cases h
      exact .payload hcid hsingle hdecode

theorem firstFault_of_read_eq (hs : Entries.Sorted m) {fault : DecodeFault}
    (h : (read m : Except DecodeFault (Message π)) = .error fault) :
    FirstFault π m fault.message := by
  cases hread : readCid m with
  | error cidFault =>
    rw [read, hread] at h
    cases h
    obtain ⟨v, hget, hnull, htext, rfl⟩ := readCid_eq_error_iff.1 hread
    exact .cid hget hnull htext
  | ok cid =>
    have hcid : HasCid m := hasCid_iff.2 ⟨cid, hread⟩
    rw [read_eq_of_readCid hread] at h
    cases hsurvivors : survivors m with
    | nil =>
      rw [hsurvivors] at h
      cases h
      refine .noPayload hcid fun k v hkv => ?_
      rw [← mem_survivors_iff hs, hsurvivors] at hkv
      cases hkv
    | cons p ps =>
      cases ps with
      | nil =>
        rw [hsurvivors, List.map_singleton] at h
        exact firstFault_of_singleton hcid ((survivors_eq_singleton_iff hs).1 hsurvivors) h
      | cons q ps =>
        obtain ⟨hascending, hkeys⟩ := (keys_survivors_eq_iff hs).1 rfl
        have hmany : 2 ≤ (survivors m).length := by
          rw [hsurvivors]
          exact Nat.le_add_left 2 ps.length
        rw [readPayload_of_two_le (by rw [List.length_map]; exact hmany), List.map_map] at h
        cases h
        exact .manyPayloads hcid hascending hkeys (by rw [List.length_map]; exact hmany)

theorem firstFault_iff_read (hs : Entries.Sorted m) {text : String} : FirstFault π m text ↔
    ∃ fault, (read m : Except DecodeFault (Message π)) = .error fault ∧ fault.message = text := by
  constructor
  · exact FirstFault.read_eq hs
  · rintro ⟨fault, h, rfl⟩
    exact firstFault_of_read_eq hs h

/-! ## Asking for a kind -/

variable (π) in
/-- Asked for a kind, the object is refused with this text. -/
def Refuses (m : Json.Object) (expected text : String) : Prop :=
  ∃ fault, (decode m expected : Except DecodeFault (Message π)) = .error fault ∧
    fault.toError = .decode text

/-- An object that cannot be read is refused alike for every kind. -/
theorem refuses_of_read_eq {fault : DecodeFault}
    (h : (read m : Except DecodeFault (Message π)) = .error fault) (expected : String) :
    Refuses π m expected fault.message :=
  ⟨fault, by rw [decode, h]; rfl, rfl⟩

theorem refuses_of_kind_ne {msg : Message π} (h : read m = .ok msg) {expected : String}
    (hne : expected ≠ msg.kind) :
    Refuses π m expected ("expected " ++ expected ++ " message, got " ++ msg.kind) := by
  refine ⟨.otherKind expected msg.kind, ?_, rfl⟩
  rw [decode, h]
  exact if_neg hne.symm

theorem decode_eq_ok_iff_of_read {msg : Message π} (h : read m = .ok msg) (expected : String)
    (msg' : Message π) : decode m expected = .ok msg' ↔ expected = msg.kind ∧ msg' = msg := by
  rw [decode_eq_ok_iff_read, h, Except.ok.injEq]
  constructor
  · rintro ⟨rfl, rfl⟩
    exact ⟨rfl, rfl⟩
  · rintro ⟨rfl, rfl⟩
    exact ⟨rfl, rfl⟩

variable (π) in
/-- The object is one message: it is read for its kind only, and all other kinds are refused. -/
def IsMessage (m : Json.Object) : Prop :=
  ∃ msg : Message π,
    (∀ expected msg', decode m expected = .ok msg' ↔ expected = msg.kind ∧ msg' = msg) ∧
    ∀ expected, expected ≠ msg.kind →
      Refuses π m expected ("expected " ++ expected ++ " message, got " ++ msg.kind)

variable (π) in
/-- The object has one fault: all kinds are refused with its text. -/
def IsFaulty (m : Json.Object) : Prop :=
  ∃! text, FirstFault π m text ∧ ∀ expected, Refuses π m expected text

variable (π) in
/-- What becomes of an object: it is either one message, or all kinds are refused with the text of
its first fault. -/
structure Decided (m : Json.Object) : Prop where
  dichotomy : Xor (IsMessage π m) (IsFaulty π m)
  firstFault_iff : ∀ text, FirstFault π m text ↔ ∀ expected, Refuses π m expected text
  code : ∀ expected fault, (decode m expected : Except DecodeFault (Message π)) = .error fault →
    fault.toError.code.text = "BAD_REQUEST"

theorem Refuses.unique {expected text text' : String} (h : Refuses π m expected text)
    (h' : Refuses π m expected text') : text = text' := by
  obtain ⟨fault, hfault, htext⟩ := h
  obtain ⟨fault', hfault', htext'⟩ := h'
  obtain rfl := Except.error.inj (hfault.symm.trans hfault')
  exact Error.decode.inj (htext.symm.trans htext')

theorem decided (hs : Entries.Sorted m) : Decided π m := by
  cases hread : (read m : Except DecodeFault (Message π)) with
  | ok msg =>
    have hok := decode_eq_ok_iff_of_read hread
    -- For its own kind the message is not refused, so no text is the answer for every kind.
    have hnot : ∀ text, ¬∀ expected, Refuses π m expected text := fun text hall => by
      obtain ⟨fault, hfault, -⟩ := hall msg.kind
      rw [(hok msg.kind msg).2 ⟨rfl, rfl⟩] at hfault
      cases hfault
    have hfirst : ∀ text, ¬FirstFault π m text := fun text hfault => by
      obtain ⟨fault, herror, -⟩ := (firstFault_iff_read hs).1 hfault
      rw [hread] at herror
      cases herror
    exact {
      dichotomy := .inl ⟨⟨msg, hok, fun _ => refuses_of_kind_ne hread⟩,
        fun ⟨text, ⟨_, hall⟩, _⟩ => hnot text hall⟩
      firstFault_iff := fun text => iff_of_false (hfirst text) (hnot text)
      code := fun _ _ _ => rfl }
  | error fault =>
    have hrefuses := refuses_of_read_eq hread
    have hfault := firstFault_of_read_eq hs hread
    have hunique : ∀ text, (∀ expected, Refuses π m expected text) → text = fault.message :=
      fun text hall => (hall "").unique (hrefuses "")
    exact {
      dichotomy := .inr ⟨⟨fault.message, ⟨hfault, hrefuses⟩, fun text h => hunique text h.2⟩,
        fun ⟨msg, hok, _⟩ => by
          have hdecode := (hok msg.kind msg).2 ⟨rfl, rfl⟩
          obtain ⟨fault', hfault', -⟩ := hrefuses msg.kind
          rw [hdecode] at hfault'
          cases hfault'⟩
      firstFault_iff := fun text => by
        constructor
        · intro h
          obtain ⟨fault', hfault', rfl⟩ := (firstFault_iff_read hs).1 h
          exact refuses_of_read_eq hfault'
        · intro hall
          rw [hunique text hall]
          exact hfault
      code := fun _ _ _ => rfl }

/-! ## Requests and credentials -/

/-- **Every object is one message or has one fault**, for requests and for credentials: a message
is refused only for another kind, and whatever is no message is refused with the text of its first
fault, whichever kind is asked for. -/
theorem objects_are_decided (hs : Entries.Sorted m) : Decided Request m ∧ Decided Credential m :=
  ⟨decided hs, decided hs⟩

/-- Of a collation id that is no text and two payloads, the id is the first fault; without it, the
payloads are, and a null is none of them. -/
theorem faults_come_in_order :
    let payloads : Json.Object := [("link", .obj []), ("rpc", .null), ("unlink", .arr [])]
    (∀ expected, Refuses Request (("cid", .bool true) :: payloads) expected
      "cid must be a string, got bool") ∧
    ∀ expected, Refuses Request payloads expected
      "expected exactly one message payload, found: link, unlink" := by
  intro payloads
  obtain ⟨hwithCid, -⟩ := objects_are_decided (m := ("cid", .bool true) :: payloads) (by decide)
  have hs : Entries.Sorted payloads := by decide
  have hcid : HasCid payloads := fun v hv => by cases hv
  have hlisted : (survivors payloads).map Prod.fst = ["link", "unlink"] := by decide
  obtain ⟨hascending, hkeys⟩ := (keys_survivors_eq_iff hs).1 hlisted
  obtain ⟨hwithout, -⟩ := objects_are_decided hs
  exact ⟨(hwithCid.firstFault_iff _).1 (.cid (v := .bool true) rfl nofun nofun),
    (hwithout.firstFault_iff _).1 (.manyPayloads hcid hascending hkeys (by decide))⟩

end Message

end MessageHooks
