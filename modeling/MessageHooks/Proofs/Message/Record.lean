import MessageHooks.Proofs.Message.Spelling
import MessageHooks.Proofs.Schema.Field

/-!
# Messages that carry records

The payload of every request is a record, and so are two of the credentials. Such a message is its
collation id and a row, and what its record declares is what the typed payload holds.

* `RecordKind`: a kind whose payload is a record; `RecordKind.message`: its messages, by their rows.
* `RecordKind.spells_message_iff`: the spellings of such a message.
* `RequestKind.record`, `CredentialKind.record?`: the records of the two families.
* `Request.members`, `Credential.members`: which part of a payload has which name.
-/

namespace MessageHooks

open Schema

/-- A kind of message whose payload is a record. -/
structure RecordKind (π : Type) [Family π] where
  kind : Family.Kind π
  name : String
  Row : Type
  fields : Fields Row
  shape : Shape (Family.Payload kind) Row
  format_eq : Family.format kind = .record name fields shape

namespace RecordKind

variable {π : Type} [Family π] (K : RecordKind π)

def key : String := Family.kinds.key K.kind

def message (cid : Option String) (row : K.Row) : Message π :=
  ⟨cid, Family.shape.ofRow ⟨K.kind, K.shape.ofRow row⟩⟩

@[simp] theorem kindOf_message (cid : Option String) (row : K.Row) :
    Family.kindOf (K.message cid row).payload = K.kind := by
  rw [Family.kindOf, message, Family.shape.toRow_ofRow]

@[simp] theorem kind_message (cid : Option String) (row : K.Row) :
    (K.message cid row).kind = Family.name K.kind := by
  rw [Message.kind, kindOf_message]

theorem exists_message_eq {m : Message π} (h : Family.kindOf m.payload = K.kind) :
    ∃ row, m = K.message m.cid row := by
  obtain ⟨cid, p⟩ := m
  have hp := Family.shape.ofRow_toRow p
  unfold Family.kindOf at h
  generalize Family.shape.toRow p = r at h hp
  obtain ⟨k, x⟩ := r
  obtain rfl : k = K.kind := h
  refine ⟨K.shape.toRow x, ?_⟩
  rw [message, K.shape.ofRow_toRow, hp]

variable [LawfulFamily π]

theorem proper_fields : K.fields.Proper := by
  have hformat := LawfulFamily.proper K.kind
  rw [K.format_eq, Format.Proper] at hformat
  exact hformat

theorem key_ne_cid : K.key ≠ Message.cidKey := LawfulFamily.key_ne_cid K.kind

theorem spells_message_iff {ms : Json.Object} {cid : Option String} {row : K.Row} :
    Message.Spells ms (K.message cid row) ↔ Message.SpellsCid ms cid ∧
      ∃ w, Json.given (Entries.erase Message.cidKey ms) = [(K.key, w)] ∧
        Spells (.record K.name K.fields K.shape) w (K.shape.ofRow row) := by
  have hpayload : ∀ (r : Sigma Family.Payload) w, r = ⟨K.kind, K.shape.ofRow row⟩ →
      (Spells (Family.format r.1) w r.2 ↔
        Spells (.record K.name K.fields K.shape) w (K.shape.ofRow row)) := by
    rintro _ w rfl
    rw [K.format_eq]
  have hrow : Family.shape.toRow (K.message cid row).payload = ⟨K.kind, K.shape.ofRow row⟩ :=
    Family.shape.toRow_ofRow _
  have hkey : lowerCamel (K.message cid row).kind = K.key := by
    rw [kind_message, key, LawfulFamily.key_eq]
  constructor
  · rintro ⟨hcid, w, hgiven, hw⟩
    rw [hkey] at hgiven
    exact ⟨hcid, w, hgiven, (hpayload _ w hrow).1 hw⟩
  · rintro ⟨hcid, w, hgiven, hw⟩
    rw [← hkey] at hgiven
    exact ⟨hcid, w, hgiven, (hpayload _ w hrow).2 hw⟩

end RecordKind

/-! ## Requests and credentials -/

/-- The record of a request. -/
def RequestKind.record : RequestKind → RecordKind Request
  | .logout => ⟨.logout, _, _, _, _, rfl⟩
  | .link => ⟨.link, _, _, _, _, rfl⟩
  | .unlink => ⟨.unlink, _, _, _, _, rfl⟩
  | .selfFetch => ⟨.selfFetch, _, _, _, _, rfl⟩
  | .selfUpdate => ⟨.selfUpdate, _, _, _, _, rfl⟩
  | .usersFetch => ⟨.usersFetch, _, _, _, _, rfl⟩
  | .friendsAdd => ⟨.friendsAdd, _, _, _, _, rfl⟩
  | .friendsRemove => ⟨.friendsRemove, _, _, _, _, rfl⟩
  | .groupsCreate => ⟨.groupsCreate, _, _, _, _, rfl⟩
  | .topicsJoin => ⟨.topicsJoin, _, _, _, _, rfl⟩
  | .topicsLeave => ⟨.topicsLeave, _, _, _, _, rfl⟩
  | .topicMessageSend => ⟨.topicMessageSend, _, _, _, _, rfl⟩
  | .chatMessage => ⟨.chatMessage, _, _, _, _, rfl⟩
  | .matchCreate => ⟨.matchCreate, _, _, _, _, rfl⟩
  | .matchesJoin => ⟨.matchesJoin, _, _, _, _, rfl⟩
  | .matchDataSend => ⟨.matchDataSend, _, _, _, _, rfl⟩
  | .matchesLeave => ⟨.matchesLeave, _, _, _, _, rfl⟩
  | .rpc => ⟨.rpc, _, _, _, _, rfl⟩

/-- The record of a credential that is more than a text. -/
def CredentialKind.record? : CredentialKind → Option (RecordKind Credential)
  | .email => some ⟨.email, _, _, _, _, rfl⟩
  | .gameCenter => some ⟨.gameCenter, _, _, _, _, rfl⟩
  | .custom | .device | .facebook | .google | .steam => none

theorem RequestKind.kind_record (k : RequestKind) : k.record.kind = k := by
  cases k <;> rfl

theorem CredentialKind.kind_of_record? {k : CredentialKind} {K : RecordKind Credential}
    (h : k.record? = some K) : K.kind = k := by
  cases k <;> simp only [record?, Option.some.injEq, reduceCtorEq] at h <;> rw [← h]

/-- What a request carries, by the names of members. -/
def Request.members : Request → List (String × Json)
  | .logout | .selfFetch | .matchCreate => []
  | .link x | .unlink x => [("provider", .str x.provider), ("token", .str x.token)]
  | .selfUpdate x =>
    [("handle", .str x.handle), ("fullname", .str x.fullname), ("timezone", .str x.timezone),
      ("location", .str x.location), ("lang", .str x.lang),
      ("metadata", .str (Base64.encodeText x.metadata)), ("avatarUrl", .str x.avatarUrl)]
  | .usersFetch x =>
    [("userIds", .arr (x.userIds.map .str)), ("handles", .arr (x.handles.map .str))]
  | .friendsAdd userIds | .friendsRemove userIds => [("userIds", .arr (userIds.map .str))]
  | .groupsCreate groups => [("groups", .arr (groups.map (encode GroupDraft.format)))]
  | .topicsJoin joins => [("joins", .arr (joins.map (encode TopicJoin.format)))]
  | .topicsLeave topics => [("topics", .arr (topics.map (encode Topic.format)))]
  | .topicMessageSend x =>
    [("topic", encode (.optional Topic.format) x.topic), ("data", .str x.data)]
  | .chatMessage x => [("room", .str x.room), ("text", .str x.text)]
  | .matchesJoin matchIds | .matchesLeave matchIds => [("matchIds", .arr (matchIds.map .str))]
  | .matchDataSend x =>
    [("matchId", .str x.matchId), ("presences", .arr (x.presences.map (encode Presence.format))),
      ("opCode", .int x.opCode.toInt), ("data", .str (Base64.encodeText x.data))]
  | .rpc x => [("id", .str x.id), ("payload", .str x.payload)]

/-- What a credential that is more than a text carries, by the names of members. -/
def Credential.members : Credential → List (String × Json)
  | .email x => [("email", .str x.email), ("password", .str x.password)]
  | .gameCenter x =>
    [("playerId", .str x.playerId), ("bundleId", .str x.bundleId),
      ("timestamp", .int x.timestamp.toInt), ("salt", .str x.salt),
      ("signature", .str x.signature), ("publicKeyUrl", .str x.publicKeyUrl)]
  | .custom _ | .device _ | .facebook _ | .google _ | .steam _ => []

theorem RequestKind.members_message (k : RequestKind) (cid : Option String) (row : k.record.Row) :
    (k.record.message cid row).payload.members = k.record.fields.members row := by
  cases k <;> rfl

theorem CredentialKind.members_message {k : CredentialKind} {K : RecordKind Credential}
    (h : k.record? = some K) (cid : Option String) (row : K.Row) :
    (K.message cid row).payload.members = K.fields.members row := by
  cases k <;> simp only [record?, Option.some.injEq, reduceCtorEq] at h <;> subst h <;> rfl

end MessageHooks
