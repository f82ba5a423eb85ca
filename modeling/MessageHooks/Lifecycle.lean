/-!
# Lifecycle of a message

A message is received, passes its before hook, is processed, passes its after hook and is done; or
it is rejected by its before hook or by the processing that follows.
-/

namespace MessageHooks

inductive LifecycleState where
  | received
  | beforeHook
  | processed
  | afterHook
  | done
  | rejected
  deriving DecidableEq, Repr

namespace LifecycleState

def all : List LifecycleState := [.received, .beforeHook, .processed, .afterHook, .done, .rejected]

def text : LifecycleState → String
  | .received => "received"
  | .beforeHook => "before_hook"
  | .processed => "processed"
  | .afterHook => "after_hook"
  | .done => "done"
  | .rejected => "rejected"

def ofText? (s : String) : Option LifecycleState := all.find? fun st => st.text == s

def isTerminal : LifecycleState → Bool
  | .done | .rejected => true
  | _ => false

/-- The legal single steps. -/
def canAdvance : LifecycleState → LifecycleState → Bool
  | .received, .beforeHook => true
  | .beforeHook, .processed => true
  | .beforeHook, .rejected => true
  | .processed, .afterHook => true
  | .afterHook, .done => true
  | _, _ => false

end LifecycleState

end MessageHooks
