import MessageHooks.Message.Family

/-!
# Errors

What a caller of the runtime is told when a message does not get through. Each error has a text and
a stable code for clients.
-/

namespace MessageHooks

inductive ClientCode where
  | badRequest
  | rejected
  | unsupportedVersion
  | internal
  deriving DecidableEq

namespace ClientCode

def all : List ClientCode := [.badRequest, .rejected, .unsupportedVersion, .internal]

def text : ClientCode → String
  | .badRequest => "BAD_REQUEST"
  | .rejected => "REJECTED"
  | .unsupportedVersion => "UNSUPPORTED_VERSION"
  | .internal => "INTERNAL"

end ClientCode

/-- Why a message or a start failed, with the cause in words. -/
inductive Error where
  | encode (cause : String)
  | decode (cause : String)
  | callback (cause : String)
  | rejected (cause : String)
  | badRequest (cause : String)
  | unsupportedVersion
  | internal (cause : String)
  deriving DecidableEq

namespace Error

def message : Error → String
  | .encode cause => "encode failed: " ++ cause
  | .decode cause => "decode failed: " ++ cause
  | .callback cause => "callback failed: " ++ cause
  | .rejected cause => "rejected: " ++ cause
  | .badRequest cause => "bad request: " ++ cause
  | .unsupportedVersion => "unsupported version"
  | .internal cause => "internal: " ++ cause

/-- The code for clients. A failure of the server's own parts is internal. -/
def code : Error → ClientCode
  | .encode _ => .internal
  | .decode _ => .badRequest
  | .callback _ => .internal
  | .rejected _ => .rejected
  | .badRequest _ => .badRequest
  | .unsupportedVersion => .unsupportedVersion
  | .internal _ => .internal

end Error

def EncodeFault.toError (fault : EncodeFault) : Error := .encode fault.message

def DecodeFault.toError (fault : DecodeFault) : Error := .decode fault.message

end MessageHooks
