import MessageHooks.Number.Digits
import MessageHooks.SortedMap

/-!
# Sessions and identities

A session belongs to a user, whose handle may change while the session lasts. Hooks see an identity:
a copy of what a session says at one moment, or the identity of nobody.

* `UserId.ofText`, `UserId.text`: user ids as text.
* `Identity.extract`: the identity of a session, if there is one.
-/

namespace MessageHooks

structure UserId where
  value : BitVec 128
  deriving DecidableEq

namespace UserId

def nil : UserId := ⟨0⟩

instance : Inhabited UserId := ⟨nil⟩

/-- The id of thirty-two hexadecimal digits. -/
def ofDigits? (ds : List Char) : Option UserId :=
  if ds.length = 32 then
    (Digits.read? 16 ds).map fun n => ⟨BitVec.ofNat 128 n⟩
  else none

/-- The id of digits in groups of 8, 4, 4, 4 and 12, with hyphens between. -/
def ofHyphenated? (cs : List Char) : Option UserId :=
  if cs.length = 36 ∧ [8, 13, 18, 23].all (fun i => cs[i]? = some '-') then
    ofDigits? (cs.take 8 ++ (cs.drop 9).take 4 ++ (cs.drop 14).take 4 ++ (cs.drop 19).take 4 ++
      cs.drop 24)
  else none

/-- The id a text stands for: bare digits, or groups, which may be in braces or marked as a name.
The mark may be in capitals. -/
def parse? (s : String) : Option UserId :=
  let cs := s.toList
  let mark := "urn:uuid:".toList
  if cs.length = 32 then ofDigits? cs
  else if cs.length = 38 ∧ cs.head? = some '\x7b' ∧ cs.getLast? = some '\x7d' then
    ofHyphenated? ((cs.drop 1).take 36)
  else if cs.length = 45 ∧ (cs.take mark.length).map Char.toLower = mark then
    ofHyphenated? (cs.drop mark.length)
  else ofHyphenated? cs

/-- The id a text stands for, and nobody's if it stands for none. -/
def ofText (s : String) : UserId := (parse? s).getD nil

/-- The hexadecimal digits of an id, the first of highest weight. -/
def digits (u : UserId) : List Char :=
  (List.range 32).map fun i => Nat.digitChar (u.value.toNat / 16 ^ (31 - i) % 16)

def text (u : UserId) : String :=
  let ds := u.digits
  String.ofList (ds.take 8 ++ '-' :: (ds.drop 8).take 4 ++ '-' :: (ds.drop 12).take 4 ++
    '-' :: (ds.drop 16).take 4 ++ '-' :: ds.drop 20)

end UserId

/-- A live session. Its expiry is in seconds since 1970. -/
structure Session where
  userId : UserId
  handle : String
  expiry : Int64
  deriving DecidableEq

def Session.rename (s : Session) (handle : String) : Session := { s with handle }

structure Identity where
  userId : UserId
  handle : String
  expiry : Int64
  deriving DecidableEq

namespace Identity

def anonymous : Identity := ⟨.nil, "", 0⟩

/-- Nobody's user id is the one that is all zeros, whoever else bears it. -/
def isAnonymous (i : Identity) : Bool := i.userId == .nil

/-- A copy of what a session says now; nobody, if there is no session. -/
def extract : Option Session → Identity
  | some s => ⟨s.userId, s.handle, s.expiry⟩
  | none => anonymous

end Identity

/-- The live sessions, by name. -/
abbrev Sessions := SortedMap String Session

namespace Sessions

def rename (ss : Sessions) (name handle : String) : Sessions :=
  match ss.get? name with
  | some s => ss.insert name (s.rename handle)
  | none => ss

/-- The identity of a named session; nobody's, without a name or a session of that name. -/
def identity (ss : Sessions) (name : Option String) : Identity :=
  Identity.extract (name.bind ss.get?)

end Sessions

end MessageHooks
