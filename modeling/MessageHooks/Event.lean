import MessageHooks.Lifecycle
import MessageHooks.Metrics.Dispatch

/-!
# Log events

What a runtime writes to its log. An event has a level, a message and fields, all of which are text.
-/

namespace MessageHooks

inductive Level where
  | trace
  | debug
  | info
  | warn
  | error
  deriving DecidableEq, Repr

def Level.text : Level → String
  | .trace => "TRACE"
  | .debug => "DEBUG"
  | .info => "INFO"
  | .warn => "WARN"
  | .error => "ERROR"

/-- When an after hook runs: before the pipeline returns, or on a task of its own. -/
inductive AfterMode where
  | inline
  | detached
  deriving DecidableEq, Repr

namespace AfterMode

/-- The mode as it is configured. -/
def text : AfterMode → String
  | .inline => "inline"
  | .detached => "detached"

/-- The mode as it is shown in the log. -/
def label : AfterMode → String
  | .inline => "Inline"
  | .detached => "Detached"

def all : List AfterMode := [.inline, .detached]

def ofText? (s : String) : Option AfterMode := all.find? fun m => m.text == s

end AfterMode

/-- What is worth a line in the log. -/
inductive Event where
  | hookRegistered (phase : Phase) (kind : String)
  | beforeUnwritten (kind cause : String)
  | beforeApplied (kind : String) (anonymous : Bool)
  | beforeRefused (kind cause : String)
  | beforeInvalid (kind cause : String)
  | afterRan (kind : String) (anonymous : Bool)
  | afterFailed (kind : String) (stage : FailureStage) (cause : String)
  | advanced (kind : String) (source target : LifecycleState)
  | unknownKind (phase : Phase) (kind : String)
  | ready (beforeHooks afterHooks : Nat) (mode : AfterMode)
  deriving DecidableEq

namespace Event

def level : Event → Level
  | .hookRegistered .. => .debug
  | .beforeUnwritten .. => .debug
  | .beforeApplied .. => .trace
  | .beforeRefused .. => .debug
  | .beforeInvalid .. => .debug
  | .afterRan .. => .trace
  | .afterFailed .. => .error
  | .advanced .. => .debug
  | .unknownKind .. => .warn
  | .ready .. => .info

def message : Event → String
  | .hookRegistered .. => "hook registered"
  | .beforeUnwritten .. => "message could not be handed to before hook"
  | .beforeApplied .. => "before hook applied"
  | .beforeRefused .. => "before hook refused message"
  | .beforeInvalid .. => "before hook returned an invalid message"
  | .afterRan .. => "after hook ran"
  | .afterFailed .. => "runtime after hook failed"
  | .advanced .. => "message lifecycle"
  | .unknownKind .. => "hook bound to a kind no message carries"
  | .ready .. => "hook runtime ready"

def boolText (b : Bool) : String := if b then "true" else "false"

def fields : Event → List (String × String)
  | .hookRegistered phase kind => [("phase", phase.text), ("kind", kind)]
  | .beforeUnwritten kind cause => [("kind", kind), ("error", cause)]
  | .beforeApplied kind anonymous => [("kind", kind), ("anonymous", boolText anonymous)]
  | .beforeRefused kind cause => [("kind", kind), ("error", cause)]
  | .beforeInvalid kind cause => [("kind", kind), ("error", cause)]
  | .afterRan kind anonymous => [("kind", kind), ("anonymous", boolText anonymous)]
  | .afterFailed kind stage cause =>
    [("message_kind", kind), ("phase", Phase.after.text), ("stage", stage.text), ("cause", cause)]
  | .advanced kind source target => [("kind", kind), ("from", source.text), ("to", target.text)]
  | .unknownKind phase kind => [("phase", phase.text), ("kind", kind)]
  | .ready beforeHooks afterHooks mode =>
    [("before_hooks", toString beforeHooks), ("after_hooks", toString afterHooks),
      ("after_mode", mode.label)]

end Event

end MessageHooks
