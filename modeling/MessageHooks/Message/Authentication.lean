import MessageHooks.Message.Family

/-!
# Authentication requests

The message that is sent before there is a session: one of seven kinds of credential.
-/

namespace MessageHooks

open Schema

structure EmailLogin where
  email : String
  password : String
  deriving DecidableEq

def EmailLogin.format : Format EmailLogin :=
  .record "EmailCredentials" (.member "email" .text <| .member "password" .text .nil)
    ⟨fun x => (x.email, x.password, ()), fun r => ⟨r.1, r.2.1⟩, fun _ => rfl, fun _ => rfl⟩

/-- A signed proof of identity from a game platform. -/
structure PlatformProof where
  playerId : String
  bundleId : String
  timestamp : Int64
  salt : String
  signature : String
  publicKeyUrl : String
  deriving DecidableEq

def PlatformProof.format : Format PlatformProof :=
  .record "GameCenterCredentials"
    (.member "playerId" .text <| .member "bundleId" .text <| .member "timestamp" .int64 <|
      .member "salt" .text <| .member "signature" .text <| .member "publicKeyUrl" .text .nil)
    ⟨fun x => (x.playerId, x.bundleId, x.timestamp, x.salt, x.signature, x.publicKeyUrl, ()),
      fun r => ⟨r.1, r.2.1, r.2.2.1, r.2.2.2.1, r.2.2.2.2.1, r.2.2.2.2.2.1⟩,
      fun _ => rfl, fun _ => rfl⟩

/-- What a user authenticates with. -/
inductive Credential where
  | email (login : EmailLogin)
  | custom (id : String)
  | device (id : String)
  | facebook (token : String)
  | google (token : String)
  | gameCenter (proof : PlatformProof)
  | steam (token : String)
  deriving DecidableEq

inductive CredentialKind where
  | email | custom | device | facebook | google | gameCenter | steam
  deriving DecidableEq

namespace CredentialKind

def all : List CredentialKind :=
  [.email, .custom, .device, .facebook, .google, .gameCenter, .steam]

/-- The name by which hooks are bound, in both phases. -/
def name : CredentialKind → String
  | .email => "Email"
  | .custom => "Custom"
  | .device => "Device"
  | .facebook => "Facebook"
  | .google => "Google"
  | .gameCenter => "GameCenter"
  | .steam => "Steam"

def key : CredentialKind → String
  | .email => "email"
  | .custom => "custom"
  | .device => "device"
  | .facebook => "facebook"
  | .google => "google"
  | .gameCenter => "gameCenter"
  | .steam => "steam"

def Payload : CredentialKind → Type
  | .email => EmailLogin
  | .gameCenter => PlatformProof
  | .custom | .device | .facebook | .google | .steam => String

def format : (k : CredentialKind) → Format k.Payload
  | .email => EmailLogin.format
  | .gameCenter => PlatformProof.format
  | .custom | .device | .facebook | .google | .steam => .text

def tags : Tags CredentialKind where
  all := all
  key := key
  complete i := by cases i <;> decide
  key_injective := by intro i j; cases i <;> cases j <;> simp [key]

end CredentialKind

def Credential.shape : Shape Credential (Sigma CredentialKind.Payload) where
  toRow
    | .email x => ⟨.email, x⟩
    | .custom x => ⟨.custom, x⟩
    | .device x => ⟨.device, x⟩
    | .facebook x => ⟨.facebook, x⟩
    | .google x => ⟨.google, x⟩
    | .gameCenter x => ⟨.gameCenter, x⟩
    | .steam x => ⟨.steam, x⟩
  ofRow
    | ⟨.email, x⟩ => .email x
    | ⟨.custom, x⟩ => .custom x
    | ⟨.device, x⟩ => .device x
    | ⟨.facebook, x⟩ => .facebook x
    | ⟨.google, x⟩ => .google x
    | ⟨.gameCenter, x⟩ => .gameCenter x
    | ⟨.steam, x⟩ => .steam x
  ofRow_toRow x := by cases x <;> rfl
  toRow_ofRow r := by
    obtain ⟨k, x⟩ := r
    cases k <;> rfl

instance : Family Credential where
  Kind := CredentialKind
  Payload := CredentialKind.Payload
  kinds := CredentialKind.tags
  name := CredentialKind.name
  name_injective := by intro i j; cases i <;> cases j <;> simp [CredentialKind.name]
  format := CredentialKind.format
  shape := Credential.shape

/-- The message that opens a session. -/
abbrev AuthRequest := Message Credential

end MessageHooks
