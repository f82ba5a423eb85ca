import MessageHooks.Metrics.Exposition
import MessageHooks.Registry

/-!
# Metrics of hook dispatch

What is measured about hooks: how their runs end, how long they take, and which after hooks fail.
Rows are made only for hooks that are bound, so labels stay as few as the bindings.
-/

namespace MessageHooks

/-- How the run of a hook ended. -/
inductive CallOutcome where
  | ok
  | rejected
  | failed
  deriving DecidableEq, Repr

namespace CallOutcome

def all : List CallOutcome := [.ok, .rejected, .failed]

def text : CallOutcome → String
  | .ok => "ok"
  | .rejected => "rejected"
  | .failed => "failed"

end CallOutcome

/-- Where the call of an after hook failed. -/
inductive FailureStage where
  | encode
  | callback
  deriving DecidableEq, Repr

namespace FailureStage

def all : List FailureStage := [.encode, .callback]

def text : FailureStage → String
  | .encode => "encode"
  | .callback => "callback"

end FailureStage

structure Metrics where
  invocations : Counter
  durations : Histogram
  afterFailures : Counter

namespace Metrics

def empty : Metrics := ⟨.empty, .empty, .empty⟩

/-- The labels of a run that ended in some way. -/
def invocationLabels (phase : Phase) (kind : String) (outcome : CallOutcome) : Labels :=
  [("phase", phase.text), ("kind", kind), ("outcome", outcome.text)]

def durationLabels (phase : Phase) (kind : String) : Labels :=
  [("phase", phase.text), ("kind", kind)]

def failureLabels (kind : String) (stage : FailureStage) : Labels :=
  [("kind", kind), ("stage", stage.text)]

def recordInvocation (m : Metrics) (phase : Phase) (kind : String) (outcome : CallOutcome)
    (took : Duration) : Metrics :=
  { m with
    invocations := m.invocations.increment (invocationLabels phase kind outcome)
    durations := m.durations.observe (durationLabels phase kind) took }

/-- A message could not be handed to a hook, so there is no time to observe. -/
def recordEncodeFailure (m : Metrics) (phase : Phase) (kind : String) : Metrics :=
  { m with invocations := m.invocations.increment (invocationLabels phase kind .failed) }

def recordAfterFailure (m : Metrics) (kind : String) (stage : FailureStage) : Metrics :=
  { m with afterFailures := m.afterFailures.increment (failureLabels kind stage) }

def invocationsName : String := "hookgate_hook_invocations_total"

def durationsName : String := "hookgate_hook_duration_micros"

def afterFailuresName : String := "hookgate_after_failures_total"

def lines (m : Metrics) : List String :=
  Exposition.counterLines invocationsName m.invocations ++
    Exposition.histogramLines durationsName m.durations ++
    Exposition.counterLines afterFailuresName m.afterFailures

/-- The text that is scraped. -/
def render (m : Metrics) : String := Exposition.ofLines m.lines

end Metrics

end MessageHooks
