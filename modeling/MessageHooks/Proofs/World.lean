import MessageHooks.World

/-!
# Steps of a runtime

The history of a runtime holds log lines between the steps that matter to a message: lookups, calls
of hooks, and processing. `World.steps` is the history without the log lines. This module says, for
each change of the state, which steps and which tasks it adds.

* `steps_note_lookup`, `steps_note_call`, `steps_note_processed`: a step adds itself.
* `steps_performAll`, `tasks_performAll`: what a hook or a processor does to registry and sessions
  adds neither steps nor tasks.
* `history_performAll`, `metrics_performAll`: it adds the lines of its bindings, and counts nothing.
-/

namespace MessageHooks

variable {H : Type}

/-- A line of the log. -/
def Record.isEvent : Record H → Bool
  | .event _ => true
  | _ => false

/-- The lines an effect writes to the log. -/
def Effect.lines : Effect H → List (Record H)
  | .bind phase kind _ => [.event (.hookRegistered phase kind)]
  | .unbind .. | .rename .. => []

theorem Effect.isEvent_of_mem_lines {e : Effect H} {r : Record H} (h : r ∈ e.lines) :
    r.isEvent = true := by
  cases e with
  | bind phase kind hook =>
    obtain rfl := List.mem_singleton.1 h
    rfl
  | unbind | rename => cases h

/-- What is told from records, and not from the line of a binding, is not told from effects. -/
theorem Effect.filterMap_lines {α : Type} {f : Record H → Option α}
    (hf : ∀ phase kind, f (.event (.hookRegistered phase kind)) = none)
    (effects : List (Effect H)) : (effects.flatMap Effect.lines).filterMap f = [] := by
  refine List.filterMap_eq_nil_iff.2 fun r hr => ?_
  obtain ⟨e, -, hr⟩ := List.mem_flatMap.1 hr
  cases e with
  | bind phase kind hook =>
    obtain rfl := List.mem_singleton.1 hr
    exact hf phase kind
  | unbind | rename => cases hr

/-- A step of the before stage: the lookup of a before hook, or its call. -/
def Record.IsBefore : Record H → Prop
  | .lookup phase _ _ => phase = .before
  | .call c => c.phase = .before
  | _ => False

namespace World

/-- The history without log lines. -/
def steps (w : World H) : List (Record H) := w.history.filter fun r => !r.isEvent

/-! ## Steps -/

theorem steps_note (w : World H) {r : Record H} (h : r.isEvent = false) :
    (w.note r).steps = w.steps ++ [r] := by
  simp [steps, note, h]

@[simp] theorem steps_note_lookup (w : World H) (phase : Phase) (kind : String) (found : Bool) :
    (w.note (.lookup phase kind found)).steps = w.steps ++ [.lookup phase kind found] :=
  w.steps_note rfl

@[simp] theorem steps_note_call (w : World H) (c : Call H) :
    (w.note (.call c)).steps = w.steps ++ [.call c] :=
  w.steps_note rfl

@[simp] theorem steps_note_processed (w : World H) (given : Envelope)
    (answer : Except Error Envelope) :
    (w.note (.processed given answer)).steps = w.steps ++ [.processed given answer] :=
  w.steps_note rfl

@[simp] theorem steps_log (w : World H) (e : Event) : (w.log e).steps = w.steps := by
  simp [steps, log, note, Record.isEvent]

@[simp] theorem steps_advance (w : World H) (kind : String) (source target : LifecycleState) :
    (w.advance kind source target).steps = w.steps :=
  w.steps_log _

@[simp] theorem steps_countRun (w : World H) (phase : Phase) (kind : String)
    (outcome : CallOutcome) (took : Duration) :
    (w.countRun phase kind outcome took).steps = w.steps := rfl

@[simp] theorem steps_countUnwritten (w : World H) (phase : Phase) (kind : String) :
    (w.countUnwritten phase kind).steps = w.steps := rfl

@[simp] theorem steps_reportFailure (w : World H) (kind : String) (stage : FailureStage)
    (cause : String) : (w.reportFailure kind stage cause).steps = w.steps :=
  steps_log _ _

@[simp] theorem steps_perform (w : World H) (e : Effect H) : (w.perform e).steps = w.steps := by
  cases e with
  | bind phase kind hook => exact steps_log _ _
  | unbind | rename => rfl

@[simp] theorem steps_performAll (w : World H) (effects : List (Effect H)) :
    (w.performAll effects).steps = w.steps := by
  induction effects generalizing w with
  | nil => rfl
  | cons e effects ih =>
    show ((w.perform e).performAll effects).steps = w.steps
    rw [ih, steps_perform]

/-! ## Tasks -/

@[simp] theorem tasks_note (w : World H) (r : Record H) : (w.note r).tasks = w.tasks := rfl

@[simp] theorem tasks_log (w : World H) (e : Event) : (w.log e).tasks = w.tasks := rfl

@[simp] theorem tasks_advance (w : World H) (kind : String) (source target : LifecycleState) :
    (w.advance kind source target).tasks = w.tasks := rfl

@[simp] theorem tasks_countRun (w : World H) (phase : Phase) (kind : String)
    (outcome : CallOutcome) (took : Duration) :
    (w.countRun phase kind outcome took).tasks = w.tasks := rfl

@[simp] theorem tasks_countUnwritten (w : World H) (phase : Phase) (kind : String) :
    (w.countUnwritten phase kind).tasks = w.tasks := rfl

@[simp] theorem tasks_reportFailure (w : World H) (kind : String) (stage : FailureStage)
    (cause : String) : (w.reportFailure kind stage cause).tasks = w.tasks := rfl

@[simp] theorem tasks_perform (w : World H) (e : Effect H) : (w.perform e).tasks = w.tasks := by
  cases e <;> rfl

@[simp] theorem tasks_performAll (w : World H) (effects : List (Effect H)) :
    (w.performAll effects).tasks = w.tasks := by
  induction effects generalizing w with
  | nil => rfl
  | cons e effects ih =>
    show ((w.perform e).performAll effects).tasks = w.tasks
    rw [ih, tasks_perform]

/-! ## Registry and sessions -/

@[simp] theorem registry_note (w : World H) (r : Record H) : (w.note r).registry = w.registry := rfl

@[simp] theorem registry_log (w : World H) (e : Event) : (w.log e).registry = w.registry := rfl

@[simp] theorem registry_advance (w : World H) (kind : String) (source target : LifecycleState) :
    (w.advance kind source target).registry = w.registry := rfl

@[simp] theorem sessions_note (w : World H) (r : Record H) : (w.note r).sessions = w.sessions := rfl

@[simp] theorem sessions_log (w : World H) (e : Event) : (w.log e).sessions = w.sessions := rfl

@[simp] theorem sessions_advance (w : World H) (kind : String) (source target : LifecycleState) :
    (w.advance kind source target).sessions = w.sessions := rfl

/-- What effects make of the registry depends on the registry alone. -/
theorem registry_performAll_congr {w v : World H} (h : w.registry = v.registry)
    (effects : List (Effect H)) :
    (w.performAll effects).registry = (v.performAll effects).registry := by
  induction effects generalizing w v with
  | nil => exact h
  | cons e effects ih =>
    refine ih (w := w.perform e) (v := v.perform e) ?_
    cases e with
    | bind phase kind hook => exact congrArg (·.register phase kind hook) h
    | unbind phase kind => exact congrArg (·.unregister phase kind) h
    | rename session handle => exact h

theorem sessions_performAll_congr {w v : World H} (h : w.sessions = v.sessions)
    (effects : List (Effect H)) :
    (w.performAll effects).sessions = (v.performAll effects).sessions := by
  induction effects generalizing w v with
  | nil => exact h
  | cons e effects ih =>
    refine ih (w := w.perform e) (v := v.perform e) ?_
    cases e with
    | bind | unbind => exact h
    | rename session handle => exact congrArg (·.rename session handle) h

/-- What dispatching reads of a runtime: its registry and its sessions. -/
def setting (w : World H) : Registry H × Sessions := (w.registry, w.sessions)

@[simp] theorem setting_note (w : World H) (r : Record H) : (w.note r).setting = w.setting := rfl

@[simp] theorem setting_advance (w : World H) (kind : String) (source target : LifecycleState) :
    (w.advance kind source target).setting = w.setting := rfl

/-- What effects make of the setting depends on the setting alone. -/
theorem setting_performAll_congr {w w' : World H} (h : w.setting = w'.setting)
    (effects : List (Effect H)) :
    (w.performAll effects).setting = (w'.performAll effects).setting :=
  Prod.ext (registry_performAll_congr (congrArg Prod.fst h) effects)
    (sessions_performAll_congr (congrArg Prod.snd h) effects)

/-! ## Metrics -/

@[simp] theorem metrics_note (w : World H) (r : Record H) : (w.note r).metrics = w.metrics := rfl

@[simp] theorem metrics_log (w : World H) (e : Event) : (w.log e).metrics = w.metrics := rfl

@[simp] theorem metrics_advance (w : World H) (kind : String) (source target : LifecycleState) :
    (w.advance kind source target).metrics = w.metrics := rfl

@[simp] theorem metrics_perform (w : World H) (e : Effect H) :
    (w.perform e).metrics = w.metrics := by
  cases e <;> rfl

@[simp] theorem metrics_performAll (w : World H) (effects : List (Effect H)) :
    (w.performAll effects).metrics = w.metrics := by
  induction effects generalizing w with
  | nil => rfl
  | cons e effects ih =>
    show ((w.perform e).performAll effects).metrics = w.metrics
    rw [ih, metrics_perform]

/-! ## History -/

@[simp] theorem history_note (w : World H) (r : Record H) :
    (w.note r).history = w.history ++ [r] := rfl

@[simp] theorem history_log (w : World H) (e : Event) :
    (w.log e).history = w.history ++ [.event e] := rfl

@[simp] theorem history_advance (w : World H) (kind : String) (source target : LifecycleState) :
    (w.advance kind source target).history = w.history ++ [.event (.advanced kind source target)] :=
  rfl

theorem history_perform (w : World H) (e : Effect H) :
    (w.perform e).history = w.history ++ e.lines := by
  cases e with
  | bind phase kind hook => rfl
  | unbind | rename => exact (List.append_nil _).symm

@[simp] theorem history_performAll (w : World H) (effects : List (Effect H)) :
    (w.performAll effects).history = w.history ++ effects.flatMap Effect.lines := by
  induction effects generalizing w with
  | nil => exact (List.append_nil _).symm
  | cons e effects ih =>
    show ((w.perform e).performAll effects).history = _
    rw [ih, history_perform, List.append_assoc, List.flatMap_cons]

end World

end MessageHooks
