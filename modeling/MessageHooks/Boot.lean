import MessageHooks.Config
import MessageHooks.World

/-!
# Start of a runtime

Before a runtime starts, its configuration is validated and every binding is checked to be of a kind
that some message has. A binding of another kind is logged, and in strict mode refused.
-/

namespace MessageHooks.Boot

def isKnownKind (kind : String) : Bool :=
  (Family.names Request).contains kind || (Family.names Credential).contains kind

/-- The refusal of a binding that no message will ever reach. -/
def unknownKindError (phase : Phase) (kind : String) : Error :=
  .badRequest (phase.text ++ " hook bound to unknown message kind: " ++ kind)

/-- Walk the bindings, with an event for each unknown kind. In strict mode the first one ends the
walk with an error. -/
def checkKinds (strict : Bool) : List (Phase × String) → List Event × Except Error Unit
  | [] => ([], .ok ())
  | (phase, kind) :: rest =>
    if isKnownKind kind then checkKinds strict rest
    else if strict then ([.unknownKind phase kind], .error (unknownKindError phase kind))
    else
      let (events, result) := checkKinds strict rest
      (.unknownKind phase kind :: events, result)

def readyEvent (mode : AfterMode) (bound : List (Phase × String)) : Event :=
  .ready (bound.countP fun b => b.1 == .before) (bound.countP fun b => b.1 == .after) mode

/-- Start with a configuration and the bindings in their order: the events to log, and whether the
runtime may run. -/
def start (config : Config) (bound : List (Phase × String)) : List Event × Except Error Unit :=
  match config.validate with
  | .error e => ([], .error e)
  | .ok () =>
    match checkKinds config.dispatch.failOnUnknownKind bound with
    | (events, .error e) => (events, .error e)
    | (events, .ok ()) => (events ++ [readyEvent config.dispatch.afterMode bound], .ok ())

end MessageHooks.Boot
