import MessageHooks.Json.Path
import MessageHooks.Pipeline

/-!
# Scripts

Hooks and processors written as lists of actions. A hook's actions edit its object, act on the live
registry and sessions, or end the script with a failure.
-/

namespace MessageHooks

inductive Action (H : Type) where
  | set (path : List String) (value : Json)
  | delete (path : List String)
  | upper (path : List String)
  | replace (object : Json.Object)
  | fail (failure : CallbackFailure)
  | rejectIf (path : List String) (value : Json) (message : String)
  | effect (e : Effect H)

namespace Script

variable {H : Type}

/-- A text in upper case, as far as it is ASCII; any other value as it is. -/
def upperText : Json → Json
  | .str s => .str (s.map Char.toUpper)
  | v => v

def holds (path : List String) (value : Json) (object : Json.Object) : Bool :=
  match Json.Object.at? object path with
  | some v => v.same value
  | none => false

/-- Run actions in order on an object. A failure ends the script; the effects up to it stay. -/
def run : List (Action H) → Json.Object → List (Effect H) →
    Except CallbackFailure Json.Object × List (Effect H)
  | [], object, effects => (.ok object, effects)
  | .set path value :: rest, object, effects =>
    run rest (Json.Object.setAt value path object) effects
  | .delete path :: rest, object, effects => run rest (Json.Object.dropAt path object) effects
  | .upper path :: rest, object, effects =>
    run rest (Json.Object.adjustAt upperText path object) effects
  | .replace new :: rest, _, effects => run rest new effects
  | .fail failure :: _, _, effects => (.error failure, effects)
  | .rejectIf path value message :: rest, object, effects =>
    if holds path value object then (.error (.rejected message), effects)
    else run rest object effects
  | .effect e :: rest, object, effects => run rest object (effects ++ [e])

/-- The reaction of a script. Its running time is not measured. -/
def react (actions : List (Action H)) (object : Json.Object) :
    Reaction H (Except CallbackFailure Json.Object) :=
  let (answer, effects) := run actions object []
  ⟨answer, effects, .zero⟩

/-- The hook that answers with the edited object. -/
def rewriteHook (actions : List (Action H)) : Hook H :=
  .ofRewrite fun _ input _ => react actions input

/-- The hook that edits a copy, of which only failures and effects are seen. -/
def observerHook (actions : List (Action H)) : Hook H :=
  .ofObserver fun _ input _ =>
    let r := react actions input
    ⟨r.answer.map fun _ => (), r.effects, r.took⟩

end Script

/-- A processor in a few optional steps, taken in the order of its members: rename a session, fail,
answer with another envelope, set the collation id. -/
structure ProcessorScript where
  rename : Option (String × String)
  fail : Option Error
  replace : Option (String × Json.Object)
  withCid : Option String

namespace ProcessorScript

def answer (p : ProcessorScript) (m : Envelope) : Except Error Envelope :=
  match p.fail with
  | some e => .error e
  | none =>
    let replaced : Except Error Envelope := match p.replace with
      | some (kind, object) => (Message.decode object kind).mapError DecodeFault.toError
      | none => .ok m
    replaced.map fun m => match p.withCid with
      | some cid => m.withCid cid
      | none => m

def toProcessor {H : Type} (p : ProcessorScript) : Processor H := fun m _ =>
  ⟨p.answer m, (p.rename.map fun r => Effect.rename r.1 r.2).toList, .zero⟩

end ProcessorScript

end MessageHooks
