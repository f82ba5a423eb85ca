import MessageHooks.Dispatch

/-!
# Pipeline

One message's way through the hooks: its before hook, the caller's processing, its after hook. Each
step of the lifecycle is checked and logged. A message that fails before or in processing is
rejected; whatever its after hook does, a processed message is done.

* `Tracker`: where a message stands, and whether its steps were legal.
* `Pipeline.trip`: the way of a message, with its tracker; `Pipeline.run` is what a caller sees.
-/

namespace MessageHooks

inductive Outcome where
  | done (m : Envelope)
  | rejected (e : Error)

/-- The state a message is left in. -/
def Outcome.state : Outcome → LifecycleState
  | .done _ => .done
  | .rejected _ => .rejected

/-- Where a message stands in its lifecycle. `legal` says whether every step so far passed its
check. A debug build stops at a check that fails, and a release build goes on. -/
structure Tracker where
  kind : String
  state : LifecycleState
  legal : Bool

namespace Tracker

def start (kind : String) : Tracker := ⟨kind, .received, true⟩

/-- Check a step, log it and take it. -/
def advance {H : Type} (t : Tracker) (target : LifecycleState) (w : World H) : Tracker × World H :=
  (⟨t.kind, target, t.legal && t.state.canAdvance target⟩, w.advance t.kind t.state target)

end Tracker

namespace Pipeline

variable {H : Type} (hooks : Hooks H)

def process (processor : Processor H) (m : Envelope) (w : World H) :
    Except Error Envelope × World H :=
  let r := processor m w
  (r.answer, (w.note (.processed m r.answer)).performAll r.effects)

/-- The after stage: at once, or as a task. -/
def afterStage (mode : AfterMode) (kind : String) (m : Envelope) (session : Option String)
    (w : World H) : World H :=
  match mode with
  | .inline => Dispatch.afterMessage hooks kind m session w
  | .detached => (Dispatch.spawnAfter kind m session w).2

/-- Take a message from received to done, or to rejected. -/
def trip (mode : AfterMode) (kind : String) (m : Envelope) (session : Option String)
    (processor : Processor H) (w : World H) : Tracker × Outcome × World H :=
  let (t, w) := (Tracker.start kind).advance .beforeHook w
  match Dispatch.beforeMessage hooks kind m session w with
  | (.error e, w) =>
    let (t, w) := t.advance .rejected w
    (t, .rejected e, w)
  | (.ok m, w) =>
    match process processor m w with
    | (.error e, w) =>
      let (t, w) := t.advance .rejected w
      (t, .rejected e, w)
    | (.ok m, w) =>
      let (t, w) := t.advance .processed w
      let (t, w) := t.advance .afterHook w
      let w := afterStage hooks mode kind m session w
      let (t, w) := t.advance .done w
      (t, .done m, w)

/-- The outcome of a message's trip, and the state it leaves. -/
def run (mode : AfterMode) (kind : String) (m : Envelope) (session : Option String)
    (processor : Processor H) (w : World H) : Outcome × World H :=
  (trip hooks mode kind m session processor w).2

end Pipeline

end MessageHooks
