import MessageHooks.Error
import MessageHooks.Event

/-!
# Configuration

What a runtime is started with. Only one version of the configuration is supported.
-/

namespace MessageHooks

/-- How messages are dispatched. -/
structure DispatchConfig where
  afterMode : AfterMode
  failOnUnknownKind : Bool
  deriving DecidableEq

def DispatchConfig.default : DispatchConfig := ⟨.inline, false⟩

structure Config where
  version : UInt32
  dispatch : DispatchConfig
  deriving DecidableEq

namespace Config

def default : Config := ⟨1, .default⟩

/-- The supported version is the first. -/
def validate (c : Config) : Except Error Unit :=
  if c.version = 1 then .ok () else .error .unsupportedVersion

end Config

end MessageHooks
