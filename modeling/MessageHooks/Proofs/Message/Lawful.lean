import MessageHooks.Message.Authentication
import MessageHooks.Message.Envelope
import MessageHooks.Proofs.Schema.Proper

/-!
# Lawful families of messages

What the declared kinds of a family must satisfy for its messages to be told apart in writing. The
formats of requests and credentials are checked here once, field by field; everything else is
proved of all lawful families.

* `LawfulFamily`: payload formats are proper and never null, and the key of a kind is its name in
  lower camel case, which is not the key of the collation id.
* The two families, `Request` and `Credential`, are lawful.
-/

namespace MessageHooks

open Schema

/-- The name with its first letter in lower case. -/
def lowerCamel (name : String) : String :=
  match name.toList with
  | [] => ""
  | c :: cs => String.ofList (c.toLower :: cs)

/-- A family whose messages can be told apart in writing. -/
class LawfulFamily (π : Type) [Family π] : Prop where
  proper : ∀ k : Family.Kind π, (Family.format k).Proper
  isOptional_format : ∀ k : Family.Kind π, (Family.format k).isOptional = false
  key_eq : ∀ k : Family.Kind π, Family.kinds.key k = lowerCamel (Family.name k)
  key_ne_cid : ∀ k : Family.Kind π, Family.kinds.key k ≠ Message.cidKey

theorem LawfulFamily.proper_payloadFormat (π : Type) [Family π] [LawfulFamily π] :
    (Family.payloadFormat π).Proper := by
  rw [Family.payloadFormat, Format.Proper]
  exact fun k => ⟨isOptional_format k, proper k⟩

/-! ## Records of requests -/

theorem proper_emptyFormat (name : String) : (emptyFormat name).Proper := trivial

theorem proper_listFormat {α : Type} (name field : String) {item : Format α}
    (ho : item.isOptional = false) (hf : item.Proper) : (listFormat name field item).Proper :=
  Fields.Proper.list ho hf List.not_mem_nil trivial

theorem SocialLink.proper_format : SocialLink.format.Proper :=
  Fields.Proper.text (by decide) <| .text (by decide) trivial

theorem ProfileUpdate.proper_format : ProfileUpdate.format.Proper :=
  Fields.Proper.text (by decide) <| .text (by decide) <| .text (by decide) <|
    .text (by decide) <| .text (by decide) <| .bytes (by decide) <| .text (by decide) trivial

theorem UserQuery.proper_format : UserQuery.format.Proper :=
  Fields.Proper.list rfl trivial (by decide) <| .list rfl trivial (by decide) trivial

theorem GroupDraft.proper_format : GroupDraft.format.Proper :=
  Fields.Proper.text (by decide) <| .text (by decide) <| .text (by decide) <|
    .text (by decide) <| .flag (by decide) <| .text (by decide) trivial

theorem TopicJoin.proper_format : TopicJoin.format.Proper := fun _ => ⟨rfl, trivial⟩

theorem Topic.proper_format : Topic.format.Proper := fun _ => ⟨rfl, trivial⟩

theorem TopicPost.proper_format : TopicPost.format.Proper :=
  Fields.Proper.optional Topic.proper_format (by decide) <| .text (by decide) trivial

theorem ChatLine.proper_format : ChatLine.format.Proper :=
  Fields.Proper.text (by decide) <| .text (by decide) trivial

theorem Presence.proper_format : Presence.format.Proper :=
  Fields.Proper.text (by decide) <| .text (by decide) <| .text (by decide) trivial

theorem MatchData.proper_format : MatchData.format.Proper :=
  Fields.Proper.text (by decide) <| .list rfl Presence.proper_format (by decide) <|
    .int64 (by decide) <| .bytes (by decide) trivial

theorem RemoteCall.proper_format : RemoteCall.format.Proper :=
  Fields.Proper.text (by decide) <| .text (by decide) trivial

theorem RequestKind.proper_format (k : RequestKind) : k.format.Proper := by
  cases k with
  | logout | selfFetch | matchCreate => exact proper_emptyFormat _
  | link | unlink => exact SocialLink.proper_format
  | selfUpdate => exact ProfileUpdate.proper_format
  | usersFetch => exact UserQuery.proper_format
  | friendsAdd | friendsRemove | matchesJoin | matchesLeave =>
    exact proper_listFormat _ _ rfl trivial
  | groupsCreate => exact proper_listFormat _ _ rfl GroupDraft.proper_format
  | topicsJoin => exact proper_listFormat _ _ rfl TopicJoin.proper_format
  | topicsLeave => exact proper_listFormat _ _ rfl Topic.proper_format
  | topicMessageSend => exact TopicPost.proper_format
  | chatMessage => exact ChatLine.proper_format
  | matchDataSend => exact MatchData.proper_format
  | rpc => exact RemoteCall.proper_format

instance : LawfulFamily Request where
  proper := RequestKind.proper_format
  isOptional_format k := by cases k <;> rfl
  key_eq k := by cases k <;> decide
  key_ne_cid k := by cases k <;> decide

/-! ## Records of credentials -/

theorem EmailLogin.proper_format : EmailLogin.format.Proper :=
  Fields.Proper.text (by decide) <| .text (by decide) trivial

theorem PlatformProof.proper_format : PlatformProof.format.Proper :=
  Fields.Proper.text (by decide) <| .text (by decide) <| .int64 (by decide) <|
    .text (by decide) <| .text (by decide) <| .text (by decide) trivial

theorem CredentialKind.proper_format (k : CredentialKind) : k.format.Proper := by
  cases k with
  | email => exact EmailLogin.proper_format
  | gameCenter => exact PlatformProof.proper_format
  | custom | device | facebook | google | steam => trivial

instance : LawfulFamily Credential where
  proper := CredentialKind.proper_format
  isOptional_format k := by cases k <;> rfl
  key_eq k := by cases k <;> decide
  key_ne_cid k := by cases k <;> decide

end MessageHooks
