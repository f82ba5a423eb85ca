import MessageHooks.World

/-!
# Dispatch

Running hooks around a message. A before hook stands in the way of the message: whatever goes wrong
with it is the caller's error. An after hook observes: it returns nothing, and its failures go to
the log.

* `Interceptable`: what dispatch needs of a message.
* `runBefore`, `runAfter`: one hook, for any message that can be intercepted.
* `beforeMessage`, `afterMessage`: the hooks of a session's message, looked up by the caller's kind.
* `spawnAfter`, `drain`: the after hook as a task that runs later.
* `beforeAuthentication`, `afterAuthentication`: the hooks of a request that has no session yet.
-/

namespace MessageHooks

variable {H : Type}

/-- A message that hooks can intercept. It has a kind; it is handed over in dynamic form, unless
writing it goes wrong; and it is read back from a dynamic form of the kind expected. -/
class Interceptable (μ : Type) where
  kind : μ → String
  encode : μ → Except Error Json.Object
  decode : Json.Object → String → Except Error μ

instance {π : Type} [Family π] : Interceptable (Message π) where
  kind := Message.kind
  encode m := m.write.mapError EncodeFault.toError
  decode output expected := (Message.decode output expected).mapError DecodeFault.toError

namespace Interceptable

variable {π : Type} [Family π] (m : Message π)

@[simp] theorem kind_message : kind m = m.kind := rfl

@[simp] theorem encode_message : encode m = .ok m.encode := by
  show m.write.mapError EncodeFault.toError = _
  rw [Message.write_eq]
  rfl

theorem decode_message (output : Json.Object) (expected : String) :
    (decode output expected : Except Error (Message π)) =
      (Message.decode output expected).mapError DecodeFault.toError :=
  rfl

end Interceptable

/-- Look up a hook, and note it. -/
def World.lookup (w : World H) (phase : Phase) (kind : String) : Option H × World H :=
  let found := w.registry.lookup phase kind
  (found, w.note (.lookup phase kind found.isSome))

namespace Dispatch

variable (hooks : Hooks H) {μ : Type} [Interceptable μ]

/-- Run a before hook. Its answer must be a message of the same kind as the one it was given. -/
def runBefore (hook : H) (kind : String) (m : μ) (who : Identity) (w : World H) :
    Except Error μ × World H :=
  match Interceptable.encode m with
  | .error e => (.error e, (w.countUnwritten .before kind).log (.beforeUnwritten kind e.message))
  | .ok input =>
    let r := (hooks hook).before who input w
    let w := (w.note (.call ⟨.before, kind, hook, who, input, r.answer.map some⟩)).performAll
      r.effects
    match r.answer with
    | .error failure =>
      (.error failure.toError,
        (w.countRun .before kind failure.outcome r.took).log (.beforeRefused kind failure.message))
    | .ok output =>
      -- the hook was found by the caller's kind, but its answer is held to the message's own
      match Interceptable.decode output (Interceptable.kind m) with
      | .ok m' =>
        (.ok m', (w.countRun .before kind .ok r.took).log (.beforeApplied kind who.isAnonymous))
      | .error e =>
        (.error e, (w.countRun .before kind .failed r.took).log (.beforeInvalid kind e.message))

def runAfter (hook : H) (kind : String) (m : μ) (who : Identity) (w : World H) : World H :=
  match Interceptable.encode m with
  | .error e => w.reportFailure kind .encode e.message
  | .ok input =>
    let r := (hooks hook).after who input w
    let w := (w.note (.call ⟨.after, kind, hook, who, input,
      r.answer.map fun _ => none⟩)).performAll r.effects
    match r.answer with
    | .ok () => (w.countRun .after kind .ok r.took).log (.afterRan kind who.isAnonymous)
    | .error failure =>
      (w.countRun .after kind .failed r.took).reportFailure kind .callback failure.message

/-! ## Messages of a session -/

/-- Run the before hook bound to `kind`. Without one the message goes on as it is. -/
def beforeMessage (kind : String) (m : Envelope) (session : Option String) (w : World H) :
    Except Error Envelope × World H :=
  match w.lookup .before kind with
  | (none, w) => (.ok m, w)
  | (some hook, w) => runBefore hooks hook kind m (w.sessions.identity session) w

/-- Run the after hook bound to `kind`. -/
def afterMessage (kind : String) (m : Envelope) (session : Option String) (w : World H) :
    World H :=
  match w.lookup .after kind with
  | (none, w) => w
  | (some hook, w) => runAfter hooks hook kind m (w.sessions.identity session) w

/-- Make a task of the after hook bound to `kind`, and say whether there is one. The hook and the
identity are those of now. -/
def spawnAfter (kind : String) (m : Envelope) (session : Option String) (w : World H) :
    Bool × World H :=
  match w.lookup .after kind with
  | (none, w) => (false, w)
  | (some hook, w) =>
    (true, { w with tasks := w.tasks ++ [⟨hook, kind, m, w.sessions.identity session⟩] })

def runTask (t : AfterTask H) (w : World H) : World H :=
  runAfter hooks t.hook t.kind t.message t.identity w

/-- Run all waiting tasks, in the order in which they were made. -/
def drain (w : World H) : World H :=
  w.tasks.foldl (fun w t => runTask hooks t w) { w with tasks := [] }

/-! ## Authentication -/

/-- Run the before hook of a request's own kind, for nobody. -/
def beforeAuthentication (m : AuthRequest) (w : World H) : Except Error AuthRequest × World H :=
  match w.lookup .before m.kind with
  | (none, w) => (.ok m, w)
  | (some hook, w) => runBefore hooks hook m.kind m .anonymous w

/-- Run the after hook of a request's own kind, for the user who was authenticated. -/
def afterAuthentication (m : AuthRequest) (who : Identity) (w : World H) : World H :=
  match w.lookup .after m.kind with
  | (none, w) => w
  | (some hook, w) => runAfter hooks hook m.kind m who w

end Dispatch

end MessageHooks
