import MessageHooks.Proofs.Message.Refusal
import MessageHooks.Proofs.Schema.Later

/-!
# The first fault of a payload

An object with a single payload is refused for what is wrong with the payload exactly where
something is, and then with the text of its first fault: the one that is met first when objects are
read member by member in the byte order of their keys, and arrays element by element. Nothing that
is read later matters.

* `Message.HasPayload`: the object gives a single payload, and its collation id is in order.
* `Message.FirstFaultDecides`: what the first fault of a payload decides.
* `Message.first_fault_decides`: it does so for requests and for credentials.
-/

namespace MessageHooks

open Schema

namespace Message

/-- The object gives one payload, under this key. Nothing is wrong with its collation id. -/
structure HasPayload (m : Json.Object) (k : String) (v : Json) : Prop where
  wellFormed : (Json.obj m).WellFormed
  cid : HasCid m
  only : ∀ k' v', Survives m k' v' ↔ k' = k ∧ v' = v

variable (π : Type) [Family π]

/-- What is wrong with a payload, as the only member of an object: with its key or its value. -/
def payloadFaults (k : String) (v : Json) : Faults :=
  FaultAt (Family.payloadFormat π) (.obj [(k, v)])

/-- What the first fault of a payload decides: whether the object is refused for its payload, the
text it is then refused with for every kind, and that it stays refused so with any other values for
members and elements that are read later. -/
structure FirstFaultDecides (m : Json.Object) (k : String) (v : Json) : Prop where
  fails_iff : ∀ expected fault,
    (decode m expected : Except DecodeFault (Message π)) = .error (.payload fault) ↔
      ∃ spot, First (payloadFaults π k v) spot fault
  text : ∀ spot fault, First (payloadFaults π k v) spot fault →
    ∀ expected, Refuses π m expected fault.message
  later : ∀ spot fault, First (payloadFaults π k v) spot fault → ∀ m' v', HasPayload m' k v' →
    Relation.ReflTransGen (Later spot) (.obj [(k, v)]) (.obj [(k, v')]) →
    ∀ expected, (decode m' expected : Except DecodeFault (Message π)) = .error (.payload fault) ∧
      Refuses π m' expected fault.message

variable {π} {m : Json.Object} {k : String} {v : Json}

namespace HasPayload

variable (h : HasPayload m k v)
include h

theorem wellFormed_payload : (Json.obj [(k, v)]).WellFormed := by
  obtain ⟨hs, hms⟩ := Json.wellFormed_obj.1 h.wellFormed
  obtain ⟨-, hget, -⟩ := (h.only k v).2 ⟨rfl, rfl⟩
  have hv : v.WellFormed := hms (k, v) ((Entries.get?_eq_some_iff hs).1 hget)
  exact Json.wellFormed_obj.2 ⟨List.pairwise_singleton _ _, fun p hp => by
    rw [List.mem_singleton.1 hp]
    exact hv⟩

theorem exists_read_eq : ∃ cid, (read m : Except DecodeFault (Message π)) =
    ((Schema.decode (Family.payloadFormat π) (Json.obj [(k, v)]).prune).mapError .payload).map
      fun p => ⟨cid, p⟩ := by
  obtain ⟨hs, -⟩ := Json.wellFormed_obj.1 h.wellFormed
  obtain ⟨-, -, hnull⟩ := (h.only k v).2 ⟨rfl, rfl⟩
  obtain ⟨cid, hcid⟩ := hasCid_iff.1 h.cid
  have hprune : (Json.obj [(k, v)]).prune = .obj [(k, v.prune)] := by
    rw [Json.prune, Json.pruneMembers, if_neg (mt Json.isNull_iff.1 hnull)]
    rfl
  refine ⟨cid, ?_⟩
  rw [read_eq_of_readCid hcid, (survivors_eq_singleton_iff hs).2 h.only, hprune]
  rfl

theorem decode_eq_error_iff (expected : String) (fault : Fault) :
    (decode m expected : Except DecodeFault (Message π)) = .error (.payload fault) ↔
      Schema.decode (Family.payloadFormat π) (Json.obj [(k, v)]).prune = .error fault := by
  obtain ⟨cid, hread⟩ := h.exists_read_eq (π := π)
  rw [decode, hread]
  cases Schema.decode (Family.payloadFormat π) (Json.obj [(k, v)]).prune with
  | error fault' =>
    show Except.error (DecodeFault.payload fault') = .error (.payload fault) ↔ _
    rw [Except.error.injEq, Except.error.injEq, DecodeFault.payload.injEq]
  | ok p =>
    refine iff_of_false (fun hdecode => ?_) fun hok => ?_
    · change (if (⟨cid, p⟩ : Message π).kind = expected then _ else _) = _ at hdecode
      split at hdecode <;> cases hdecode
    · cases hok

variable [LawfulFamily π]

theorem fails_iff (expected : String) (fault : Fault) :
    (decode m expected : Except DecodeFault (Message π)) = .error (.payload fault) ↔
      ∃ spot, First (payloadFaults π k v) spot fault := by
  rw [h.decode_eq_error_iff]
  exact (verdict_decode _ (LawfulFamily.proper_payloadFormat π) _ h.wellFormed_payload).eq_error_iff

end HasPayload

theorem refuses_of_decode_eq {expected : String} {fault : Fault}
    (h : (decode m expected : Except DecodeFault (Message π)) = .error (.payload fault)) :
    Refuses π m expected fault.message := ⟨_, h, rfl⟩

theorem HasPayload.firstFaultDecides [LawfulFamily π] (h : HasPayload m k v) :
    FirstFaultDecides π m k v where
  fails_iff := h.fails_iff
  text spot fault hfirst expected :=
    refuses_of_decode_eq ((h.fails_iff expected fault).2 ⟨spot, hfirst⟩)
  later spot fault hfirst m' v' h' hlater expected := by
    have hfirst' : First (payloadFaults π k v') spot fault :=
      hfirst.of_later (local_faultAt (Family.payloadFormat π)) h.wellFormed_payload hlater
    have hdecode := (h'.fails_iff expected fault).2 ⟨spot, hfirst'⟩
    exact ⟨hdecode, refuses_of_decode_eq hdecode⟩

/-- **The first fault of a payload decides** what an object with a single payload is refused with,
for requests and for credentials. -/
theorem first_fault_decides (h : HasPayload m k v) :
    FirstFaultDecides Request m k v ∧ FirstFaultDecides Credential m k v :=
  ⟨h.firstFaultDecides, h.firstFaultDecides⟩

/-- Match data with several faults, of which the handle of the second presence is read first. What
follows it, a presence that is none and an undeclared member, may be anything else. -/
theorem handle_is_first_fault :
    let payload (presence surplus : Json) : Json := .obj [("data", .str "QQ=="),
      ("presences", .arr [.arr [.str "u"], .obj [("handle", .int 7), ("zone", .null)], presence]),
      ("surplus", surplus)]
    let object (presence surplus : Json) : Json.Object :=
      [("cid", .str "c"), ("link", .null), ("matchDataSend", payload presence surplus)]
    ∀ expected, Refuses Request (object (.bool true) (.int 1)) expected
        "invalid type: integer `7`, expected a string" ∧
      Refuses Request (object (.str "s") (.arr [])) expected
        "invalid type: integer `7`, expected a string" := by
  intro payload object expected
  have sorted : ∀ {ms : Json.Object} (keys : List String), ms.map Prod.fst = keys →
      (keys.Pairwise fun k l => KeyOrder.lt k l = true) → Entries.Sorted ms := fun _ hms hkeys =>
    Entries.sorted_iff_pairwise_keys.2 (hms ▸ hkeys)
  have hobject : ∀ presence surplus, Entries.Sorted (object presence surplus) := fun _ _ =>
    sorted ["cid", "link", "matchDataSend"] rfl (by decide)
  have hpayload : ∀ presence surplus, presence.WellFormed → surplus.WellFormed →
      HasPayload (object presence surplus) "matchDataSend" (payload presence surplus) := by
    intro presence surplus hpresence hsurplus
    refine ⟨⟨hobject _ _, trivial, trivial,
      ⟨sorted ["data", "presences", "surplus"] rfl (by decide), trivial, ⟨⟨trivial, trivial⟩,
        ⟨sorted ["handle", "zone"] rfl (by decide), trivial, trivial, trivial⟩, hpresence, trivial⟩,
        hsurplus, trivial⟩, trivial⟩, ?_, ?_⟩
    · intro v hv
      cases hv
      exact .inr ⟨_, rfl⟩
    · exact (survivors_eq_singleton_iff (hobject _ _)).1 rfl
  have hsource := hpayload (.bool true) (.int 1) trivial trivial
  have htarget := hpayload (.str "s") (.arr []) trivial trivial
  obtain ⟨hdecides, -⟩ := first_fault_decides hsource
  have hdecode := (hsource.decode_eq_error_iff (π := Request) expected
    (.wrongType (.int 7) textKind)).2 (by decide +kernel)
  obtain ⟨spot, hfirst⟩ := (hdecides.fails_iff expected _).1 hdecode
  have hhandle : FaultAt Presence.format (.obj [("handle", .int 7), ("zone", .null)])
      (.inside (.member "handle") .value) (.wrongType (.int 7) textKind) := by
    refine RecordFault.member (p := ?_) ?_ (.head _) ?_
    · exact some (some none)
    · rfl
    · exact TextFault.kind nofun
  have hpresences : FaultAt MatchData.format (payload (.bool true) (.int 1))
      (.inside (.member "presences") (.inside (.element 1) (.inside (.member "handle") .value)))
      (.wrongType (.int 7) textKind) := by
    refine RecordFault.member (p := ?_) ?_ (.tail _ (.head _)) ?_
    · exact some none
    · rfl
    · exact ListFault.element rfl hhandle
  have hfault : payloadFaults Request "matchDataSend" (payload (.bool true) (.int 1)) _ _ :=
    @OneOfFault.payload _ _ (fun k => FaultAt (RequestKind.format k)) _ .matchDataSend _ _ _ rfl
      hpresences
  have hpresence : Later spot (.obj [("matchDataSend", payload (.bool true) (.int 1))])
      (.obj [("matchDataSend", payload (.str "s") (.int 1))]) := by
    refine ⟨(hpayload (.str "s") (.int 1) trivial trivial).wellFormed_payload,
      .inside _ (.inside _ (.inside (.element 2) .value)),
      hfirst.before_of hfault (.inside (.inside (.step Nat.one_lt_two))), ?_⟩
    exact @Json.Differ.member [] _ _ _ _ _ nofun nofun <|
      @Json.Differ.member [("data", _)] _ _ _ _ _ nofun nofun <|
      @Json.Differ.element [_, _] _ _ _ _ .here
  have hsurplus : Later spot (.obj [("matchDataSend", payload (.str "s") (.int 1))])
      (.obj [("matchDataSend", payload (.str "s") (.arr []))]) := by
    have hkeys : bytesOf "presences" < bytesOf "surplus" := lt_iff_bytesOf_lt.1 (by decide)
    refine ⟨htarget.wellFormed_payload, .inside _ (.inside (.member "surplus") .value),
      hfirst.before_of hfault (.inside (.step hkeys)), ?_⟩
    exact @Json.Differ.member [] _ _ _ _ _ nofun nofun <|
      @Json.Differ.member [("data", _), ("presences", _)] _ _ _ _ _ nofun nofun .here
  have hboth := (Relation.ReflTransGen.single hpresence).tail hsurplus
  exact ⟨hdecides.text spot _ hfirst expected,
    (hdecides.later spot _ hfirst _ _ htarget hboth expected).2⟩

end Message

end MessageHooks
