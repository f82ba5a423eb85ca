import MessageHooks.Error
import MessageHooks.Event
import MessageHooks.Message.Authentication
import MessageHooks.Message.Envelope
import MessageHooks.Session

/-!
# The state of a runtime

Everything that dispatching reads or changes: the bound hooks, the live sessions, the metrics, the
tasks that wait to run, and the history of what was done.

* `Hook`: what a bound hook does. It answers from whom it acts for, its input and the whole state;
  what it does to registry and sessions is a list of effects, carried out in order.
* `World.perform`: one effect.
-/

namespace MessageHooks

/-- Why a hook did not complete: it went wrong, or it refused the message. -/
inductive CallbackFailure where
  | script (message : String)
  | rejected (message : String)
  deriving DecidableEq

namespace CallbackFailure

def message : CallbackFailure → String
  | .script message => message
  | .rejected message => message

def toError : CallbackFailure → Error
  | .script message => .callback message
  | .rejected message => .rejected message

/-- How a before hook's run is counted when it fails like this. -/
def outcome : CallbackFailure → CallOutcome
  | .script _ => .failed
  | .rejected _ => .rejected

end CallbackFailure

/-! ## State -/

/-- One run of a hook: where it was bound, for whom it acted, what it was given and its answer. A
before hook that completes answers with an object. -/
structure Call (H : Type) where
  phase : Phase
  kind : String
  hook : H
  identity : Identity
  input : Json.Object
  answer : Except CallbackFailure (Option Json.Object)

inductive Record (H : Type) where
  | lookup (phase : Phase) (kind : String) (found : Bool)
  | call (c : Call H)
  | processed (given : Envelope) (answer : Except Error Envelope)
  | event (e : Event)

/-- An after hook that waits to run, with all it will need. -/
structure AfterTask (H : Type) where
  hook : H
  kind : String
  message : Envelope
  identity : Identity

/-- The state of a runtime whose hooks are named by `H`. The history begins with the oldest
record, and tasks wait in the order in which they were made. -/
structure World (H : Type) where
  registry : Registry H
  sessions : Sessions
  metrics : Metrics
  tasks : List (AfterTask H)
  history : List (Record H)

/-- A change a hook or a processor makes while it runs. -/
inductive Effect (H : Type) where
  | bind (phase : Phase) (kind : String) (hook : H)
  | unbind (phase : Phase) (kind : String)
  | rename (session handle : String)

/-- An answer, with the effects made on the way to it and the time it took. -/
structure Reaction (H α : Type) where
  answer : α
  effects : List (Effect H)
  took : Duration

/-! ## Hooks -/

/-- What a hook does in either phase. -/
structure Hook (H : Type) where
  before : Identity → Json.Object → World H → Reaction H (Except CallbackFailure Json.Object)
  after : Identity → Json.Object → World H → Reaction H (Except CallbackFailure Unit)

namespace Hook

variable {H : Type}

/-- A hook that rewrites. As an after hook it runs just the same, and its output is dropped. -/
def ofRewrite
    (f : Identity → Json.Object → World H → Reaction H (Except CallbackFailure Json.Object)) :
    Hook H where
  before := f
  after who input w :=
    let r := f who input w
    ⟨r.answer.map fun _ => (), r.effects, r.took⟩

/-- A hook that only looks. As a before hook it hands back its input. -/
def ofObserver
    (f : Identity → Json.Object → World H → Reaction H (Except CallbackFailure Unit)) :
    Hook H where
  before who input w :=
    let r := f who input w
    ⟨r.answer.map fun _ => input, r.effects, r.took⟩
  after := f

end Hook

abbrev Hooks (H : Type) := H → Hook H

/-- The caller's own handling of a message, between the two hooks. -/
abbrev Processor (H : Type) := Envelope → World H → Reaction H (Except Error Envelope)

/-! ## Changes -/

namespace World

variable {H : Type} (w : World H)

def fresh (registry : Registry H) (sessions : Sessions) : World H :=
  ⟨registry, sessions, .empty, [], []⟩

def note (r : Record H) : World H := { w with history := w.history ++ [r] }

def log (e : Event) : World H := w.note (.event e)

def bind (phase : Phase) (kind : String) (hook : H) : World H :=
  { w with registry := w.registry.register phase kind hook }.log (.hookRegistered phase kind)

def unbind (phase : Phase) (kind : String) : World H :=
  { w with registry := w.registry.unregister phase kind }

def rename (session handle : String) : World H :=
  { w with sessions := w.sessions.rename session handle }

def perform : Effect H → World H
  | .bind phase kind hook => w.bind phase kind hook
  | .unbind phase kind => w.unbind phase kind
  | .rename session handle => w.rename session handle

def performAll (effects : List (Effect H)) : World H := effects.foldl perform w

def countRun (phase : Phase) (kind : String) (outcome : CallOutcome) (took : Duration) : World H :=
  { w with metrics := w.metrics.recordInvocation phase kind outcome took }

/-- Count a message that could not be handed to a hook. -/
def countUnwritten (phase : Phase) (kind : String) : World H :=
  { w with metrics := w.metrics.recordEncodeFailure phase kind }

/-- Report an after hook's failure: one more in its counter, and one line in the log. -/
def reportFailure (kind : String) (stage : FailureStage) (cause : String) : World H :=
  { w with metrics := w.metrics.recordAfterFailure kind stage }.log (.afterFailed kind stage cause)

def advance (kind : String) (source target : LifecycleState) : World H :=
  w.log (.advanced kind source target)

end World

end MessageHooks
