import MessageHooks.Proofs.Message.Nulls
import MessageHooks.Proofs.Message.Record

/-!
# Null elements of arrays

A null member of an object is dropped, but a null element of an array stays, and no list takes it:
an object with such an element is refused. One place is left where a null may stand in an array. A
record that is written by position takes null for a member that may be missing, and the record of a
post begins with such a member, its topic.

* `Json.HasNullElement v`: some array in `v`, at any depth, has a null element.
* `Format.Solid`: no part of the format may be missing. `SpellsSolid v`: the value spells something
  of such a format; so do its parts, and null does not (`SpellsSolid.not_hasNullElement`).
* `TopicPost.eq_null_cons_of_spells`: what a post looks like that has a null element.
* `Message.null_elements_are_refused`: all objects but those of such posts are refused.
-/

namespace MessageHooks

namespace Json

/-- Some array in the value, at any depth, has a null element. -/
inductive HasNullElement : Json → Prop
  | here {items : List Json} (h : .null ∈ items) : HasNullElement (.arr items)
  | item {items : List Json} {v : Json} (hv : v ∈ items) (h : HasNullElement v) :
    HasNullElement (.arr items)
  | member {ms : Object} {k : String} {v : Json} (hv : (k, v) ∈ ms) (h : HasNullElement v) :
    HasNullElement (.obj ms)

namespace HasNullElement

variable {v : Json}

theorem isNull_eq (h : HasNullElement v) : v.isNull = false := by
  cases h <;> rfl

/-- Null elements that are left when null members are dropped were there before. -/
theorem of_prune {v : Json} (h : v.prune.HasNullElement) : v.HasNullElement := by
  generalize hp : v.prune = p at h
  induction h generalizing v with
  | @here items hnull =>
    cases v with
    | arr vs =>
      rw [prune, pruneItems_eq] at hp
      obtain rfl := Json.arr.inj hp
      obtain ⟨u, hu, hprune⟩ := List.mem_map.1 hnull
      have hunull : u.isNull = true := by rw [← isNull_prune, hprune]; rfl
      exact .here (isNull_iff.1 hunull ▸ hu)
    | _ => cases hp
  | @item items w hw _ ih =>
    cases v with
    | arr vs =>
      rw [prune, pruneItems_eq] at hp
      obtain rfl := Json.arr.inj hp
      obtain ⟨u, hu, hprune⟩ := List.mem_map.1 hw
      exact .item hu (ih hprune)
    | _ => cases hp
  | @member ms k w hw _ ih =>
    cases v with
    | obj ms' =>
      rw [prune, pruneMembers_eq] at hp
      obtain rfl := Json.obj.inj hp
      obtain ⟨⟨k', u⟩, hu, hprune⟩ := List.mem_map.1 hw
      exact .member (mem_given.1 hu).1 (ih (congrArg Prod.snd hprune))
    | _ => cases hp

end HasNullElement

end Json

namespace Schema

/-! ## Solid formats -/

mutual

/-- No part of the format may be missing. -/
def Format.Solid : {α : Type} → Format α → Prop
  | _, .text | _, .flag | _, .bytes | _, .int64 => True
  | _, .list item => item.Solid
  | _, .optional _ => False
  | _, .record _ fields _ => fields.Solid
  | _, .oneOf _ payload _ => ∀ i, (payload i).Solid

/-- No part of any member may be missing. -/
def Fields.Solid : {ρ : Type} → Fields ρ → Prop
  | _, .nil => True
  | _, .cons _ format _ rest => format.Solid ∧ rest.Solid

end

/-- The value spells something of a solid format. -/
def SpellsSolid (v : Json) : Prop :=
  ∃ (α : Type) (f : Format α) (x : α), f.Solid ∧ Spells f v x

theorem not_spellsSolid_null : ¬SpellsSolid .null := by
  rintro ⟨_, f, x, hf, h⟩
  cases f with
  | optional => exact hf
  | _ => simp [Spells, SpellsInt] at h

theorem SpellsMembers.solid {ms : Json.Object} {k : String} {v : Json}
    (hv : Entries.get? k ms = some v) : {ρ : Type} → {fs : Fields ρ} → {row : ρ} → fs.Solid →
    k ∈ fs.names → SpellsMembers fs ms row → SpellsSolid v
  | _, .nil, _, _, hk, _ => by cases hk
  | _, .cons name f _ rest, (x, row), hfs, hk, h => by
    rw [Fields.Solid] at hfs
    rw [SpellsMembers] at h
    rcases List.mem_cons.1 hk with rfl | hk
    · rw [hv] at h
      exact ⟨_, f, x, hfs.1, h.1⟩
    · exact SpellsMembers.solid hv hfs.2 hk h.2

theorem SpellsElements.solid {v : Json} : {ρ : Type} → {fs : Fields ρ} → {row : ρ} →
    {vs : List Json} → fs.Solid → vs.length ≤ fs.names.length → SpellsElements fs vs row →
    v ∈ vs → SpellsSolid v
  | _, .nil, _, [], _, _, _, hv => by cases hv
  | _, .cons _ _ _ _, _, [], _, _, _, hv => by cases hv
  | _, .cons _ f _ rest, (x, row), u :: vs, hfs, hlen, h, hv => by
    rw [Fields.Solid] at hfs
    rw [SpellsElements] at h
    rcases List.mem_cons.1 hv with rfl | hv
    · exact ⟨_, f, x, hfs.1, h.1⟩
    · exact SpellsElements.solid hfs.2 (Nat.le_of_succ_le_succ hlen) h.2 hv

namespace SpellsSolid

theorem element {vs : List Json} (h : SpellsSolid (.arr vs)) {v : Json} (hv : v ∈ vs) :
    SpellsSolid v := by
  obtain ⟨_, f, x, hf, h⟩ := h
  cases f with
  | list item =>
    rw [Spells] at h
    obtain ⟨vs', hvs, h⟩ := h
    obtain rfl := Json.arr.inj hvs
    obtain ⟨i, hi, rfl⟩ := List.getElem_of_mem hv
    exact ⟨_, item, _, hf, h.get hi (h.length_eq ▸ hi)⟩
  | optional => exact hf.elim
  | record name fields shape =>
    rw [Spells] at h
    obtain ⟨ms, hms, -⟩ | ⟨vs', hvs, hlen, h⟩ := h
    · cases hms
    · obtain rfl := Json.arr.inj hvs
      exact SpellsElements.solid hf hlen h hv
  | _ => simp [Spells, SpellsInt] at h

/-- The members of an object that are given are spellings as it is. -/
theorem given {ms : Json.Object} (h : SpellsSolid (.obj ms)) (hs : Entries.Sorted ms)
    {k : String} {v : Json} (hv : (k, v) ∈ Json.given ms) : SpellsSolid v := by
  obtain ⟨_, f, x, hf, h⟩ := h
  cases f with
  | optional => exact hf.elim
  | record name fields shape =>
    rw [Spells] at h
    obtain ⟨ms', hms, hnames, h⟩ | ⟨vs, hvs, -⟩ := h
    · obtain rfl := Json.obj.inj hms
      have hget := (Entries.get?_eq_some_iff (Json.sorted_given hs)).2 hv
      exact SpellsMembers.solid hget hf (hnames _ hv) h
    · cases hvs
  | oneOf tags payload shape =>
    rw [Spells] at h
    obtain ⟨ms', w, hms, hgiven, h⟩ := h
    obtain rfl := Json.obj.inj hms
    rw [hgiven, List.mem_singleton, Prod.mk.injEq] at hv
    exact ⟨_, _, _, hf _, hv.2 ▸ h⟩
  | _ => simp [Spells, SpellsInt] at h

/-- **What spells something solid has no null element.** -/
theorem not_hasNullElement {v : Json} (h : SpellsSolid v) (hv : v.WellFormed) :
    ¬v.HasNullElement := by
  intro hnull
  induction hnull with
  | here hmem => exact not_spellsSolid_null (h.element hmem)
  | item hmem _ ih => exact ih (h.element hmem) (Json.wellFormed_arr.1 hv _ hmem)
  | member hmem hinner ih =>
    obtain ⟨hs, hms⟩ := Json.wellFormed_obj.1 hv
    exact ih (h.given hs (Json.mem_given.2 ⟨hmem, hinner.isNull_eq⟩)) (hms _ hmem)

theorem not_hasNullElement_arr {vs : List Json} (h : ∀ v ∈ vs, SpellsSolid v)
    (hvs : (Json.arr vs).WellFormed) : ¬(Json.arr vs).HasNullElement := by
  rintro (hmem | @⟨_, v, hmem, hinner⟩)
  · exact not_spellsSolid_null (h _ hmem)
  · exact (h v hmem).not_hasNullElement (Json.wellFormed_arr.1 hvs v hmem) hinner

end SpellsSolid

/-- What may be missing is missing where null stands for it, and solid elsewhere. -/
theorem eq_null_or_spellsSolid {α : Type} {inner : Format α} (hf : inner.Solid) {v : Json}
    {x : Option α} (h : Spells (.optional inner) v x) : v = .null ∧ x = none ∨ SpellsSolid v := by
  cases x with
  | none => exact .inl ⟨h, rfl⟩
  | some x => exact .inr ⟨_, inner, x, hf, h.2⟩

end Schema

open Schema

/-! ## Requests and credentials -/

theorem CredentialKind.solid_format (k : CredentialKind) : k.format.Solid := by
  cases k with
  | email => exact ⟨trivial, trivial, trivial⟩
  | gameCenter => exact ⟨trivial, trivial, trivial, trivial, trivial, trivial, trivial⟩
  | custom | device | facebook | google | steam => trivial

/-- No part of a request may be missing, the topic of a post apart. -/
theorem RequestKind.solid_format {k : RequestKind} (h : k ≠ .topicMessageSend) :
    k.format.Solid := by
  cases k with
  | logout | selfFetch | matchCreate => trivial
  | link | unlink | usersFetch | chatMessage | rpc => exact ⟨trivial, trivial, trivial⟩
  | selfUpdate => exact ⟨trivial, trivial, trivial, trivial, trivial, trivial, trivial, trivial⟩
  | friendsAdd | friendsRemove | matchesJoin | matchesLeave => exact ⟨trivial, trivial⟩
  | groupsCreate =>
    have hgroup : GroupDraft.format.Solid :=
      ⟨trivial, trivial, trivial, trivial, trivial, trivial, trivial⟩
    exact ⟨hgroup, trivial⟩
  | topicsJoin | topicsLeave => exact ⟨fun _ => trivial, trivial⟩
  | topicMessageSend => exact absurd rfl h
  | matchDataSend =>
    have hpresence : Presence.format.Solid := ⟨trivial, trivial, trivial, trivial⟩
    exact ⟨trivial, hpresence, trivial, trivial, trivial⟩

/-! ## Posts -/

namespace TopicPost

theorem solid_topic : Topic.format.Solid := fun _ => trivial

/-- Written by name, a post has no null element: a topic that is null counts as left out. -/
theorem not_hasNullElement_obj {ms : Json.Object} {post : TopicPost}
    (h : Spells format (.obj ms) post) (hw : (Json.obj ms).WellFormed) :
    ¬(Json.obj ms).HasNullElement := by
  rintro (_ | _ | @⟨_, k, v, hmem, hnull⟩)
  obtain ⟨hs, hms⟩ := Json.wellFormed_obj.1 hw
  have hgiven : (k, v) ∈ Json.given ms := Json.mem_given.2 ⟨hmem, hnull.isNull_eq⟩
  have hget := (Entries.get?_eq_some_iff (Json.sorted_given hs)).2 hgiven
  obtain ⟨_, hobj, hnames, htopic, hdata, -⟩ | ⟨_, harr, -⟩ := h
  · obtain rfl := Json.obj.inj hobj
    have hsolid : SpellsSolid v := by
      have hk : k = "topic" ∨ k = "data" := by
        simpa [Fields.names, Fields.member] using hnames _ hgiven
      rcases hk with rfl | rfl
      · rw [hget] at htopic
        refine (eq_null_or_spellsSolid solid_topic htopic).resolve_left ?_
        rintro ⟨rfl, -⟩
        exact absurd hnull.isNull_eq (by decide)
      · rw [hget] at hdata
        exact ⟨_, .text, _, trivial, hdata⟩
    exact hsolid.not_hasNullElement (hms _ hmem) hnull
  · cases harr

/-- **A post with a null element is written by position, and the null is its topic.** -/
theorem eq_null_cons_of_spells {w : Json} {post : TopicPost} (h : Spells format w post)
    (hw : w.WellFormed) (hnull : w.HasNullElement) :
    w = .arr [.null] ∧ post = ⟨none, ""⟩ ∨
      w = .arr [.null, .str post.data] ∧ post.topic = none := by
  cases w with
  | obj ms => exact absurd hnull (not_hasNullElement_obj h hw)
  | arr vs =>
    obtain ⟨_, hobj, -⟩ | ⟨vs', harr, hlen, h⟩ := h
    · cases hobj
    obtain rfl := Json.arr.inj harr
    match vs, hlen, h with
    | [], _, _ => exact absurd hnull (SpellsSolid.not_hasNullElement_arr (by simp) hw)
    | [v], _, ⟨htopic, hdata, _⟩ =>
      obtain ⟨rfl, hnone⟩ | hv := eq_null_or_spellsSolid solid_topic htopic
      · have hblank : post.data = "" := hdata
        exact .inl ⟨rfl, by rw [← hnone, ← hblank]⟩
      · exact absurd hnull (SpellsSolid.not_hasNullElement_arr (by simpa using hv) hw)
    | [v, u], _, ⟨htopic, hdata, _⟩ =>
      have hu : u = .str post.data := hdata
      obtain ⟨rfl, hnone⟩ | hv := eq_null_or_spellsSolid solid_topic htopic
      · exact .inr ⟨by rw [hu], hnone⟩
      · have hsolid : SpellsSolid u := ⟨_, .text, _, trivial, hdata⟩
        exact absurd hnull (SpellsSolid.not_hasNullElement_arr (by simpa using ⟨hv, hsolid⟩) hw)
    | _ :: _ :: _ :: _, hlen, _ => simp [Fields.names, Fields.member] at hlen
  | _ => cases hnull

theorem spells_null_cons (data : String) : Spells format (.arr [.null]) ⟨none, ""⟩ ∧
    Spells format (.arr [.null, .str data]) ⟨none, data⟩ :=
  ⟨.inr ⟨_, rfl, Nat.le_succ 1, rfl, rfl, trivial⟩, .inr ⟨_, rfl, Nat.le_refl 2, rfl, rfl, trivial⟩⟩

end TopicPost

namespace Message

/-- A post by position, with null for its topic, whose text is `data`. -/
def PostsToNull (m : Json.Object) (data : String) : Prop :=
  Json.given (Entries.erase cidKey m) = [("topicMessageSend", .arr [.null])] ∧ data = "" ∨
    Json.given (Entries.erase cidKey m) = [("topicMessageSend", .arr [.null, .str data])]

/-- The payload that a message is read from has the null elements of the whole object. -/
theorem Spells.hasNullElement {π : Type} [Family π] [LawfulFamily π] {m : Json.Object}
    {msg : Message π} (h : Spells m msg) (hm : (Json.obj m).WellFormed)
    (hnull : (Json.obj (Entries.erase cidKey m)).prune.HasNullElement) :
    ∃ w, Json.given (Entries.erase cidKey m) =
        [(Family.kinds.key (Family.kindOf msg.payload), w)] ∧
      w.WellFormed ∧ w.HasNullElement ∧
      Schema.Spells (Family.format (Family.kindOf msg.payload)) w
        (Family.shape.toRow msg.payload).2 := by
  obtain ⟨w, hgiven, hw⟩ := h.payload
  rw [kind, ← LawfulFamily.key_eq] at hgiven
  have hwf : w.WellFormed := Json.wellFormed_of_given_erase hm hgiven
  rw [Json.prune, Json.pruneMembers_eq, hgiven] at hnull
  obtain _ | _ | @⟨_, k, v, hv, hinner⟩ := hnull
  obtain ⟨rfl, rfl⟩ := Prod.mk.inj (List.mem_singleton.1 hv)
  exact ⟨w, hgiven, hwf, hinner.of_prune, hw⟩

theorem not_spells_authRequest {m : Json.Object} (hm : (Json.obj m).WellFormed)
    (hnull : (Json.obj (Entries.erase cidKey m)).prune.HasNullElement) (r : AuthRequest) :
    ¬Spells m r := by
  intro h
  obtain ⟨w, -, hw, hnull, hspells⟩ := h.hasNullElement hm hnull
  have hsolid : SpellsSolid w := ⟨_, _, _, CredentialKind.solid_format _, hspells⟩
  exact hsolid.not_hasNullElement hw hnull

/-- A request that is read from a null element is a post to a null topic. -/
theorem postsToNull_of_spells {m : Json.Object} (hm : (Json.obj m).WellFormed)
    (hnull : (Json.obj (Entries.erase cidKey m)).prune.HasNullElement) {e : Envelope}
    (h : Spells m e) :
    ∃ data, PostsToNull m data ∧ e.payload = .topicMessageSend ⟨none, data⟩ := by
  obtain ⟨w, hgiven, hw, hnull, hspells⟩ := h.hasNullElement hm hnull
  by_cases hk : Family.kindOf e.payload = RequestKind.topicMessageSend
  · obtain ⟨⟨topic, data, ⟨⟩⟩, he⟩ := RequestKind.topicMessageSend.record.exists_message_eq hk
    rw [he] at hgiven hspells ⊢
    have hspells : Schema.Spells TopicPost.format w ⟨topic, data⟩ := hspells
    obtain ⟨rfl, hpost⟩ | ⟨rfl, rfl⟩ := TopicPost.eq_null_cons_of_spells hspells hw hnull
    · obtain ⟨rfl, rfl⟩ := TopicPost.mk.inj hpost
      exact ⟨"", .inl ⟨hgiven, rfl⟩, rfl⟩
    · exact ⟨data, .inr hgiven, rfl⟩
  · have hsolid : SpellsSolid w := ⟨_, _, _, RequestKind.solid_format hk, hspells⟩
    exact absurd hnull (hsolid.not_hasNullElement hw)

theorem PostsToNull.spells {m : Json.Object} {data : String} (h : PostsToNull m data)
    {cid : Option String} (hcid : SpellsCid m cid) :
    Spells m (⟨cid, .topicMessageSend ⟨none, data⟩⟩ : Envelope) := by
  obtain ⟨hshort, hlong⟩ := TopicPost.spells_null_cons data
  let K := RequestKind.topicMessageSend.record
  obtain ⟨hgiven, rfl⟩ | hgiven := h
  · have hpost : Spells m (K.message cid (none, "", ())) :=
      K.spells_message_iff.2 ⟨hcid, _, hgiven, hshort⟩
    exact hpost
  · have hpost : Spells m (K.message cid (none, data, ())) :=
      K.spells_message_iff.2 ⟨hcid, _, hgiven, hlong⟩
    exact hpost

/-- **A null in a list is refused**, at every depth and in messages of all kinds. What remains are
posts to a topic that are written by position: they are read with null for their topic. -/
theorem null_elements_are_refused {m : Json.Object} (hm : (Json.obj m).WellFormed)
    (hnull : (Json.obj (Entries.erase cidKey m)).prune.HasNullElement) (expected : String) :
    (∃ fault, (decode m expected : Except DecodeFault AuthRequest) = .error fault) ∧
    ((∀ data, ¬PostsToNull m data) →
      ∃ fault, (decode m expected : Except DecodeFault Envelope) = .error fault) ∧
    ∀ e : Envelope, decode m expected = .ok e ↔
      expected = "TopicMessageSend" ∧ SpellsCid m e.cid ∧
        ∃ data, PostsToNull m data ∧ e.payload = .topicMessageSend ⟨none, data⟩ := by
  refine ⟨Except.exists_error_of_ne_ok fun r hr => ?_,
    fun hno => Except.exists_error_of_ne_ok fun e he => ?_, fun e => ?_⟩
  · exact not_spells_authRequest hm hnull r ((decode_eq_ok_iff hm).1 hr).2
  · obtain ⟨data, hdata, -⟩ := postsToNull_of_spells hm hnull ((decode_eq_ok_iff hm).1 he).2
    exact hno data hdata
  · rw [decode_eq_ok_iff hm]
    constructor
    · rintro ⟨rfl, hspells⟩
      obtain ⟨data, hdata, hpayload⟩ := postsToNull_of_spells hm hnull hspells
      refine ⟨?_, hspells.cid, data, hdata, hpayload⟩
      rw [kind, hpayload]
      rfl
    · rintro ⟨rfl, hcid, data, hdata, hpayload⟩
      obtain ⟨cid, payload⟩ := e
      obtain rfl : payload = .topicMessageSend ⟨none, data⟩ := hpayload
      exact ⟨rfl, hdata.spells hcid⟩

/-- A null among the users of a request is one too many. -/
theorem null_friend_is_refused :
    let m : Json.Object := [("friendsAdd", .obj [("userIds", .arr [.str "u", .null])])]
    (Json.obj m).WellFormed ∧ (Json.obj (Entries.erase cidKey m)).prune.HasNullElement ∧
      ∃ fault, (decode m "FriendsAdd" : Except DecodeFault Envelope) = .error fault := by
  intro m
  have hm : (Json.obj m).WellFormed :=
    Json.wellFormed_obj.2 ⟨List.pairwise_singleton _ _, List.forall_mem_singleton.2 <|
      Json.wellFormed_obj.2 ⟨List.pairwise_singleton _ _, List.forall_mem_singleton.2 <|
        Json.wellFormed_arr.2 <| List.forall_mem_cons.2
          ⟨trivial, List.forall_mem_singleton.2 trivial⟩⟩⟩
  have hnull : (Json.obj (Entries.erase cidKey m)).prune.HasNullElement :=
    .member (List.mem_singleton_self _) <| .member (List.mem_singleton_self _) <|
      .here (.tail _ (.head _))
  have hkeys : (Json.given (Entries.erase cidKey m)).map Prod.fst ≠ ["topicMessageSend"] := by
    decide
  have hnone : ∀ data, ¬PostsToNull m data := by
    rintro data (⟨h, -⟩ | h)
    · exact hkeys (congrArg (List.map Prod.fst) h)
    · exact hkeys (congrArg (List.map Prod.fst) h)
  exact ⟨hm, hnull, (null_elements_are_refused hm hnull "FriendsAdd").2.1 hnone⟩

/-- A post by position is read although its first element is null. -/
theorem null_topic_by_position_is_read :
    ¬∀ (m : Json.Object) (expected : String), (Json.obj m).WellFormed →
      (Json.obj (Entries.erase cidKey m)).prune.HasNullElement →
      (∃ fault, (decode m expected : Except DecodeFault Envelope) = .error fault) ∧
        ∃ fault, (decode m expected : Except DecodeFault AuthRequest) = .error fault := by
  intro h
  let m : Json.Object := [("topicMessageSend", .arr [.null, .str "x"])]
  have hm : (Json.obj m).WellFormed :=
    Json.wellFormed_obj.2 ⟨List.pairwise_singleton _ _, List.forall_mem_singleton.2 <|
      Json.wellFormed_arr.2 <| List.forall_mem_cons.2
        ⟨trivial, List.forall_mem_singleton.2 trivial⟩⟩
  have hnull : (Json.obj (Entries.erase cidKey m)).prune.HasNullElement :=
    .member (List.mem_singleton_self _) <| .here (.head _)
  have hread : (decode m "TopicMessageSend" : Except DecodeFault Envelope) =
      .ok ⟨none, .topicMessageSend ⟨none, "x"⟩⟩ := rfl
  obtain ⟨⟨fault, hfault⟩, -⟩ := h m "TopicMessageSend" hm hnull
  rw [hread] at hfault
  cases hfault

end Message

end MessageHooks
