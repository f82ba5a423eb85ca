import Mathlib.Logic.Relation
import MessageHooks.Message.Authentication
import MessageHooks.Message.Envelope
import MessageHooks.Proofs.Json

/-!
# Null members are invisible

A member that is null counts as left out, in whichever object it stands. So an object to which null
members are added, anywhere inside it, is read like the object itself: as the same message, or with
the same fault.

* `Json.InsertsNull v v'`: from `v` to `v'` one null member was added, at any depth.
* `Json.InsertsNull.prune_eq`: pruning takes it away again, and `Json.InsertsNull.wellFormed`: it
  keeps the members of all objects in order.
* `Message.read_eq_of_prune_eq`: reading depends on the pruned object alone.
* `Message.decode_eq_of_inserted_nulls`: so any number of null members may be added.
-/

namespace MessageHooks

namespace Json

/-- One null member is added, under a key that is not there: to the object itself, or inside an
element of an array or a member of an object. -/
inductive InsertsNull : Json → Json → Prop
  | here {ms : Object} {k : String} (h : Entries.get? k ms = none) :
    InsertsNull (.obj ms) (.obj (Entries.insert k .null ms))
  | item {before after : List Json} {v v' : Json} (h : InsertsNull v v') :
    InsertsNull (.arr (before ++ v :: after)) (.arr (before ++ v' :: after))
  | member {before after : Object} {k : String} {v v' : Json} (h : InsertsNull v v') :
    InsertsNull (.obj (before ++ (k, v) :: after)) (.obj (before ++ (k, v') :: after))

namespace InsertsNull

variable {v v' : Json}

theorem isNull_eq (h : InsertsNull v v') : v.isNull = false ∧ v'.isNull = false := by
  cases h <;> exact ⟨rfl, rfl⟩

theorem wellFormed (h : InsertsNull v v') (hv : v.WellFormed) : v'.WellFormed := by
  induction h with
  | @here ms k hk => exact wellFormed_insert hv k trivial
  | @item before after v v' _ ih =>
    rw [wellFormed_arr, List.forall_mem_append, List.forall_mem_cons] at hv ⊢
    exact ⟨hv.1, ih hv.2.1, hv.2.2⟩
  | @member before after k v v' _ ih =>
    rw [wellFormed_obj, List.forall_mem_append, List.forall_mem_cons] at hv ⊢
    obtain ⟨hs, hbefore, hvalue, hafter⟩ := hv
    refine ⟨?_, hbefore, ih hvalue, hafter⟩
    -- The keys are the same as before.
    rw [Entries.sorted_iff_pairwise_keys, List.map_append, List.map_cons] at hs ⊢
    exact hs

/-- **Pruning does not see what was added.** -/
theorem prune_eq (h : InsertsNull v v') (hv : v.WellFormed) : v'.prune = v.prune := by
  induction h with
  | @here ms k hk =>
    have hs := (wellFormed_obj.1 hv).1
    have hgiven : Entries.get? k (given ms) = none := by rw [get?_given hs, hk]; rfl
    rw [prune, prune, pruneMembers_eq, pruneMembers_eq, given_insert_null hs,
      Entries.erase_eq_self (sorted_given hs) hgiven]
  | @item before after v v' _ ih =>
    rw [wellFormed_arr, List.forall_mem_append, List.forall_mem_cons] at hv
    rw [prune, prune, pruneItems_eq, pruneItems_eq, List.map_append, List.map_append, List.map_cons,
      List.map_cons, ih hv.2.1]
  | @member before after k v v' h ih =>
    rw [wellFormed_obj, List.forall_mem_append, List.forall_mem_cons] at hv
    obtain ⟨hnull, hnull'⟩ := h.isNull_eq
    simp [prune, pruneMembers_eq, given, hnull, hnull', ih hv.2.2.1]

end InsertsNull

/-- However many null members are added, pruning sees none of them. -/
theorem prune_eq_of_insertsNull {v v' : Json} (h : Relation.ReflTransGen InsertsNull v v')
    (hv : v.WellFormed) : v'.WellFormed ∧ v'.prune = v.prune := by
  induction h with
  | refl => exact ⟨hv, rfl⟩
  | tail _ hstep ih =>
    obtain ⟨hwf, heq⟩ := ih
    exact ⟨hstep.wellFormed hwf, (hstep.prune_eq hwf).trans heq⟩

/-! ## Pruned members -/

theorem get?_pruneMembers {ms : Object} (h : Entries.Sorted ms) (k : String) :
    Entries.get? k (pruneMembers ms) =
      ((Entries.get? k ms).filter fun v => !v.isNull).map prune := by
  rw [pruneMembers_eq, Entries.get?_map, get?_given h]

theorem erase_pruneMembers {ms : Object} (h : Entries.Sorted ms) (k : String) :
    Entries.erase k (pruneMembers ms) = pruneMembers (Entries.erase k ms) := by
  rw [pruneMembers_eq, pruneMembers_eq, Entries.erase_map, given_erase h]

end Json

namespace Message

variable {π : Type} [Family π] {m m' : Json.Object}

theorem readCid_pruneMembers (h : Entries.Sorted m) :
    readCid (Json.pruneMembers m) = readCid m := by
  unfold readCid
  rw [Json.get?_pruneMembers h]
  cases Entries.get? cidKey m with
  | none => rfl
  | some v => cases v <;> rfl

theorem read_eq_of_prune_eq (h : Entries.Sorted m) (h' : Entries.Sorted m')
    (heq : Json.pruneMembers m' = Json.pruneMembers m) :
    (read m' : Except DecodeFault (Message π)) = read m := by
  rw [read, read, ← readCid_pruneMembers h, ← readCid_pruneMembers h', ← Json.erase_pruneMembers h,
    ← Json.erase_pruneMembers h', heq]

theorem decode_eq_of_prune_eq (h : Entries.Sorted m) (h' : Entries.Sorted m')
    (heq : Json.pruneMembers m' = Json.pruneMembers m) (expected : String) :
    (decode m' expected : Except DecodeFault (Message π)) = decode m expected := by
  rw [decode, decode, read_eq_of_prune_eq h h' heq]

/-- **Null members are invisible at every depth.** However many of them are added to an object,
anywhere inside it and under whatever keys, it is read as the same message or with the same fault,
whichever kind is asked for. -/
theorem decode_eq_of_inserted_nulls (hm : (Json.obj m).WellFormed)
    (h : Relation.ReflTransGen Json.InsertsNull (.obj m) (.obj m')) (expected : String) :
    (decode m' expected : Except DecodeFault Envelope) = decode m expected ∧
    (decode m' expected : Except DecodeFault AuthRequest) = decode m expected := by
  obtain ⟨hm', hprune⟩ := Json.prune_eq_of_insertsNull h hm
  have hs := (Json.wellFormed_obj.1 hm).1
  have hs' := (Json.wellFormed_obj.1 hm').1
  have hmembers : Json.pruneMembers m' = Json.pruneMembers m := Json.obj.inj hprune
  exact ⟨decode_eq_of_prune_eq hs hs' hmembers expected,
    decode_eq_of_prune_eq hs hs' hmembers expected⟩

/-- Nulls in the object of a one-of value that is an element of a list, and in place of a missing
collation id. A fault is the same with and without them. -/
theorem nulls_in_a_join_are_invisible :
    let topicsJoin (join : Json.Object) : String × Json :=
      ("topicsJoin", .obj [("joins", .arr [.obj join])])
    let m : Json.Object := [topicsJoin [("room", .str "r")]]
    let m' : Json.Object :=
      [("cid", .null), topicsJoin [("room", .str "r"), ("userId", .null)]]
    (Json.obj m).WellFormed ∧ Relation.ReflTransGen Json.InsertsNull (.obj m) (.obj m') ∧
      (decode m' "TopicsJoin" : Except DecodeFault Envelope) =
        .ok ⟨none, .topicsJoin [⟨.room, "r"⟩]⟩ ∧
      (decode m' "Link" : Except DecodeFault Envelope) =
        .error (.otherKind "Link" "TopicsJoin") := by
  intro topicsJoin m m'
  have hm : (Json.obj m).WellFormed :=
    Json.wellFormed_obj.2 ⟨List.pairwise_singleton _ _, List.forall_mem_singleton.2 <|
      Json.wellFormed_obj.2 ⟨List.pairwise_singleton _ _, List.forall_mem_singleton.2 <|
        Json.wellFormed_arr.2 <| List.forall_mem_singleton.2 <|
          Json.wellFormed_obj.2 ⟨List.pairwise_singleton _ _, List.forall_mem_singleton.2 trivial⟩⟩⟩
  have hjoin : Json.InsertsNull (.obj [("room", .str "r")])
      (.obj [("room", .str "r"), ("userId", .null)]) := @Json.InsertsNull.here _ "userId" rfl
  have hlist : Json.InsertsNull (.arr [.obj [("room", .str "r")]])
      (.arr [.obj [("room", .str "r"), ("userId", .null)]]) :=
    @Json.InsertsNull.item [] [] _ _ hjoin
  have hpayload : Json.InsertsNull (.obj m)
      (.obj [topicsJoin [("room", .str "r"), ("userId", .null)]]) :=
    @Json.InsertsNull.member [] [] _ _ _ (@Json.InsertsNull.member [] [] _ _ _ hlist)
  have hcid : Json.InsertsNull (.obj [topicsJoin [("room", .str "r"), ("userId", .null)]])
      (.obj m') := @Json.InsertsNull.here _ "cid" rfl
  have hnulls := (Relation.ReflTransGen.single hpayload).tail hcid
  refine ⟨hm, hnulls, ?_, ?_⟩
  · rw [(decode_eq_of_inserted_nulls hm hnulls "TopicsJoin").1]
    rfl
  · rw [(decode_eq_of_inserted_nulls hm hnulls "Link").1]
    rfl

end Message

end MessageHooks
