import MessageHooks.Message.Family

/-!
# Envelopes

The messages of an established session: eighteen kinds of request, each with the record it carries.
A list record of a single member is the list itself.
-/

namespace MessageHooks

open Schema

/-! ## Records -/

/-- An account at a social provider, to link or unlink. -/
structure SocialLink where
  provider : String
  token : String
  deriving DecidableEq

def SocialLink.format : Format SocialLink :=
  .record "Link" (.member "provider" .text <| .member "token" .text .nil)
    ⟨fun x => (x.provider, x.token, ()), fun r => ⟨r.1, r.2.1⟩, fun _ => rfl, fun _ => rfl⟩

structure ProfileUpdate where
  handle : String
  fullname : String
  timezone : String
  location : String
  lang : String
  metadata : List UInt8
  avatarUrl : String
  deriving DecidableEq

def ProfileUpdate.format : Format ProfileUpdate :=
  .record "SelfUpdate"
    (.member "handle" .text <| .member "fullname" .text <| .member "timezone" .text <|
      .member "location" .text <| .member "lang" .text <| .member "metadata" .bytes <|
      .member "avatarUrl" .text .nil)
    ⟨fun x => (x.handle, x.fullname, x.timezone, x.location, x.lang, x.metadata, x.avatarUrl, ()),
      fun r => ⟨r.1, r.2.1, r.2.2.1, r.2.2.2.1, r.2.2.2.2.1, r.2.2.2.2.2.1, r.2.2.2.2.2.2.1⟩,
      fun _ => rfl, fun _ => rfl⟩

/-- Users to look up, by id or by handle. -/
structure UserQuery where
  userIds : List String
  handles : List String
  deriving DecidableEq

def UserQuery.format : Format UserQuery :=
  .record "UsersFetch" (.member "userIds" (.list .text) <| .member "handles" (.list .text) .nil)
    ⟨fun x => (x.userIds, x.handles, ()), fun r => ⟨r.1, r.2.1⟩, fun _ => rfl, fun _ => rfl⟩

structure GroupDraft where
  name : String
  description : String
  avatarUrl : String
  lang : String
  isPrivate : Bool
  metadata : String
  deriving DecidableEq

def GroupDraft.format : Format GroupDraft :=
  .record "NewGroup"
    (.member "name" .text <| .member "description" .text <| .member "avatarUrl" .text <|
      .member "lang" .text <| .member "private" .flag <| .member "metadata" .text .nil)
    ⟨fun x => (x.name, x.description, x.avatarUrl, x.lang, x.isPrivate, x.metadata, ()),
      fun r => ⟨r.1, r.2.1, r.2.2.1, r.2.2.2.1, r.2.2.2.2.1, r.2.2.2.2.2.1⟩,
      fun _ => rfl, fun _ => rfl⟩

/-- What a topic is joined by. -/
inductive JoinTarget where
  | user
  | room
  | group
  deriving DecidableEq

def JoinTarget.tags : Tags JoinTarget where
  all := [.user, .room, .group]
  key
    | .user => "userId"
    | .room => "room"
    | .group => "groupId"
  complete i := by cases i <;> simp
  key_injective := by intro i j; cases i <;> cases j <;> simp

structure TopicJoin where
  target : JoinTarget
  id : String
  deriving DecidableEq

def TopicJoin.format : Format TopicJoin :=
  .oneOf JoinTarget.tags (fun _ => .text)
    ⟨fun x => ⟨x.target, x.id⟩, fun r => ⟨r.1, r.2⟩, fun _ => rfl, fun _ => rfl⟩

/-- What a topic is once it is joined. -/
inductive TopicKind where
  | direct
  | room
  | group
  deriving DecidableEq

def TopicKind.tags : Tags TopicKind where
  all := [.direct, .room, .group]
  key
    | .direct => "dm"
    | .room => "room"
    | .group => "groupId"
  complete i := by cases i <;> simp
  key_injective := by intro i j; cases i <;> cases j <;> simp

structure Topic where
  kind : TopicKind
  id : String
  deriving DecidableEq

def Topic.format : Format Topic :=
  .oneOf TopicKind.tags (fun _ => .text)
    ⟨fun x => ⟨x.kind, x.id⟩, fun r => ⟨r.1, r.2⟩, fun _ => rfl, fun _ => rfl⟩

/-- A message to a topic. The data is the client's own document and is not looked into. -/
structure TopicPost where
  topic : Option Topic
  data : String
  deriving DecidableEq

def TopicPost.format : Format TopicPost :=
  .record "TopicMessageSend"
    (.member "topic" (.optional Topic.format) <| .member "data" .text .nil)
    ⟨fun x => (x.topic, x.data, ()), fun r => ⟨r.1, r.2.1⟩, fun _ => rfl, fun _ => rfl⟩

structure ChatLine where
  room : String
  text : String
  deriving DecidableEq

def ChatLine.format : Format ChatLine :=
  .record "ChatMessage" (.member "room" .text <| .member "text" .text .nil)
    ⟨fun x => (x.room, x.text, ()), fun r => ⟨r.1, r.2.1⟩, fun _ => rfl, fun _ => rfl⟩

/-- A user's presence in a match. -/
structure Presence where
  userId : String
  sessionId : String
  handle : String
  deriving DecidableEq

def Presence.format : Format Presence :=
  .record "UserPresence"
    (.member "userId" .text <| .member "sessionId" .text <| .member "handle" .text .nil)
    ⟨fun x => (x.userId, x.sessionId, x.handle, ()), fun r => ⟨r.1, r.2.1, r.2.2.1⟩,
      fun _ => rfl, fun _ => rfl⟩

/-- Data sent in a match. Without presences it goes to everyone in the match. -/
structure MatchData where
  matchId : String
  presences : List Presence
  opCode : Int64
  data : List UInt8
  deriving DecidableEq

def MatchData.format : Format MatchData :=
  .record "MatchDataSend"
    (.member "matchId" .text <| .member "presences" (.list Presence.format) <|
      .member "opCode" .int64 <| .member "data" .bytes .nil)
    ⟨fun x => (x.matchId, x.presences, x.opCode, x.data, ()),
      fun r => ⟨r.1, r.2.1, r.2.2.1, r.2.2.2.1⟩, fun _ => rfl, fun _ => rfl⟩

structure RemoteCall where
  id : String
  payload : String
  deriving DecidableEq

def RemoteCall.format : Format RemoteCall :=
  .record "Rpc" (.member "id" .text <| .member "payload" .text .nil)
    ⟨fun x => (x.id, x.payload, ()), fun r => ⟨r.1, r.2.1⟩, fun _ => rfl, fun _ => rfl⟩

def emptyFormat (name : String) : Format Unit := .record name .nil (.same Unit)

def listFormat {α : Type} (name field : String) (item : Format α) : Format (List α) :=
  .record name (.member field (.list item) .nil)
    ⟨fun xs => (xs, ()), fun r => r.1, fun _ => rfl, fun _ => rfl⟩

/-! ## Kinds -/

/-- What a session may ask for. -/
inductive Request where
  | logout
  | link (account : SocialLink)
  | unlink (account : SocialLink)
  | selfFetch
  | selfUpdate (profile : ProfileUpdate)
  | usersFetch (query : UserQuery)
  | friendsAdd (userIds : List String)
  | friendsRemove (userIds : List String)
  | groupsCreate (groups : List GroupDraft)
  | topicsJoin (joins : List TopicJoin)
  | topicsLeave (topics : List Topic)
  | topicMessageSend (post : TopicPost)
  | chatMessage (line : ChatLine)
  | matchCreate
  | matchesJoin (matchIds : List String)
  | matchDataSend (data : MatchData)
  | matchesLeave (matchIds : List String)
  | rpc (call : RemoteCall)
  deriving DecidableEq

inductive RequestKind where
  | logout | link | unlink | selfFetch | selfUpdate | usersFetch | friendsAdd | friendsRemove
  | groupsCreate | topicsJoin | topicsLeave | topicMessageSend | chatMessage | matchCreate
  | matchesJoin | matchDataSend | matchesLeave | rpc
  deriving DecidableEq

namespace RequestKind

def all : List RequestKind := [.logout, .link, .unlink, .selfFetch, .selfUpdate, .usersFetch,
  .friendsAdd, .friendsRemove, .groupsCreate, .topicsJoin, .topicsLeave, .topicMessageSend,
  .chatMessage, .matchCreate, .matchesJoin, .matchDataSend, .matchesLeave, .rpc]

/-- The name by which hooks are bound. -/
def name : RequestKind → String
  | .logout => "Logout"
  | .link => "Link"
  | .unlink => "Unlink"
  | .selfFetch => "SelfFetch"
  | .selfUpdate => "SelfUpdate"
  | .usersFetch => "UsersFetch"
  | .friendsAdd => "FriendsAdd"
  | .friendsRemove => "FriendsRemove"
  | .groupsCreate => "GroupsCreate"
  | .topicsJoin => "TopicsJoin"
  | .topicsLeave => "TopicsLeave"
  | .topicMessageSend => "TopicMessageSend"
  | .chatMessage => "ChatMessage"
  | .matchCreate => "MatchCreate"
  | .matchesJoin => "MatchesJoin"
  | .matchDataSend => "MatchDataSend"
  | .matchesLeave => "MatchesLeave"
  | .rpc => "Rpc"

def key : RequestKind → String
  | .logout => "logout"
  | .link => "link"
  | .unlink => "unlink"
  | .selfFetch => "selfFetch"
  | .selfUpdate => "selfUpdate"
  | .usersFetch => "usersFetch"
  | .friendsAdd => "friendsAdd"
  | .friendsRemove => "friendsRemove"
  | .groupsCreate => "groupsCreate"
  | .topicsJoin => "topicsJoin"
  | .topicsLeave => "topicsLeave"
  | .topicMessageSend => "topicMessageSend"
  | .chatMessage => "chatMessage"
  | .matchCreate => "matchCreate"
  | .matchesJoin => "matchesJoin"
  | .matchDataSend => "matchDataSend"
  | .matchesLeave => "matchesLeave"
  | .rpc => "rpc"

def Payload : RequestKind → Type
  | .logout | .selfFetch | .matchCreate => Unit
  | .link | .unlink => SocialLink
  | .selfUpdate => ProfileUpdate
  | .usersFetch => UserQuery
  | .friendsAdd | .friendsRemove | .matchesJoin | .matchesLeave => List String
  | .groupsCreate => List GroupDraft
  | .topicsJoin => List TopicJoin
  | .topicsLeave => List Topic
  | .topicMessageSend => TopicPost
  | .chatMessage => ChatLine
  | .matchDataSend => MatchData
  | .rpc => RemoteCall

def format : (k : RequestKind) → Format k.Payload
  | .logout => emptyFormat "Logout"
  | .link => SocialLink.format
  | .unlink => SocialLink.format
  | .selfFetch => emptyFormat "SelfFetch"
  | .selfUpdate => ProfileUpdate.format
  | .usersFetch => UserQuery.format
  | .friendsAdd => listFormat "FriendIds" "userIds" .text
  | .friendsRemove => listFormat "FriendIds" "userIds" .text
  | .groupsCreate => listFormat "GroupsCreate" "groups" GroupDraft.format
  | .topicsJoin => listFormat "TopicsJoin" "joins" TopicJoin.format
  | .topicsLeave => listFormat "TopicsLeave" "topics" Topic.format
  | .topicMessageSend => TopicPost.format
  | .chatMessage => ChatLine.format
  | .matchCreate => emptyFormat "MatchCreate"
  | .matchesJoin => listFormat "MatchIds" "matchIds" .text
  | .matchDataSend => MatchData.format
  | .matchesLeave => listFormat "MatchIds" "matchIds" .text
  | .rpc => RemoteCall.format

def tags : Tags RequestKind where
  all := all
  key := key
  complete i := by cases i <;> decide
  key_injective := by intro i j; cases i <;> cases j <;> simp [key]

end RequestKind

def Request.shape : Shape Request (Sigma RequestKind.Payload) where
  toRow
    | .logout => ⟨.logout, ()⟩
    | .link x => ⟨.link, x⟩
    | .unlink x => ⟨.unlink, x⟩
    | .selfFetch => ⟨.selfFetch, ()⟩
    | .selfUpdate x => ⟨.selfUpdate, x⟩
    | .usersFetch x => ⟨.usersFetch, x⟩
    | .friendsAdd x => ⟨.friendsAdd, x⟩
    | .friendsRemove x => ⟨.friendsRemove, x⟩
    | .groupsCreate x => ⟨.groupsCreate, x⟩
    | .topicsJoin x => ⟨.topicsJoin, x⟩
    | .topicsLeave x => ⟨.topicsLeave, x⟩
    | .topicMessageSend x => ⟨.topicMessageSend, x⟩
    | .chatMessage x => ⟨.chatMessage, x⟩
    | .matchCreate => ⟨.matchCreate, ()⟩
    | .matchesJoin x => ⟨.matchesJoin, x⟩
    | .matchDataSend x => ⟨.matchDataSend, x⟩
    | .matchesLeave x => ⟨.matchesLeave, x⟩
    | .rpc x => ⟨.rpc, x⟩
  ofRow
    | ⟨.logout, _⟩ => .logout
    | ⟨.link, x⟩ => .link x
    | ⟨.unlink, x⟩ => .unlink x
    | ⟨.selfFetch, _⟩ => .selfFetch
    | ⟨.selfUpdate, x⟩ => .selfUpdate x
    | ⟨.usersFetch, x⟩ => .usersFetch x
    | ⟨.friendsAdd, x⟩ => .friendsAdd x
    | ⟨.friendsRemove, x⟩ => .friendsRemove x
    | ⟨.groupsCreate, x⟩ => .groupsCreate x
    | ⟨.topicsJoin, x⟩ => .topicsJoin x
    | ⟨.topicsLeave, x⟩ => .topicsLeave x
    | ⟨.topicMessageSend, x⟩ => .topicMessageSend x
    | ⟨.chatMessage, x⟩ => .chatMessage x
    | ⟨.matchCreate, _⟩ => .matchCreate
    | ⟨.matchesJoin, x⟩ => .matchesJoin x
    | ⟨.matchDataSend, x⟩ => .matchDataSend x
    | ⟨.matchesLeave, x⟩ => .matchesLeave x
    | ⟨.rpc, x⟩ => .rpc x
  ofRow_toRow x := by cases x <;> rfl
  toRow_ofRow r := by
    obtain ⟨k, x⟩ := r
    cases k <;> rfl

instance : Family Request where
  Kind := RequestKind
  Payload := RequestKind.Payload
  kinds := RequestKind.tags
  name := RequestKind.name
  name_injective := by intro i j; cases i <;> cases j <;> simp [RequestKind.name]
  format := RequestKind.format
  shape := Request.shape

/-- A message of an established session. -/
abbrev Envelope := Message Request

end MessageHooks
