import MessageHooks.Pipeline
import MessageHooks.Proofs.Dispatch

/-!
# The course of a pipeline

A pipeline is specified by what it does after its before stage: which steps it takes, in which
order, which task it leaves, and how it ends.

* `Pipeline.Course`: the ways this may go, given the answers of the before stage and of the
  processor; `Pipeline.AfterCourse` is its last part.
* `Pipeline.trip_of_refused`, `Pipeline.trip_of_failed`, `Pipeline.trip_of_done`: the three ways a
  trip may go, with the tracker that it leaves.
* `Pipeline.Route`: the same ways by the states that a run passes.
* `Pipeline.run_follows_course`: every run goes one of these ways, in every state and with whatever
  hooks and processor.
-/

namespace MessageHooks

variable {H : Type}

namespace Pipeline

/-! ## Courses -/

/-- What the after stage of a processed message does, given the hook it finds under `kind` and the
identity it acts for: the steps it takes and the tasks it leaves. A hook that is called at once is
called with the dynamic form of the message, in a state `w` of which nothing is asked. -/
inductive AfterCourse (hooks : Hooks H) (kind : String) (p : Envelope) (who : Identity) :
    AfterMode → Option H → List (Record H) → List (AfterTask H) → Prop
  | unbound (mode : AfterMode) :
    AfterCourse hooks kind p who mode none [.lookup .after kind false] []
  | inline (hook : H) (w : World H) :
    AfterCourse hooks kind p who .inline (some hook)
      [.lookup .after kind true, .call (Dispatch.afterCall hooks hook kind p who w)] []
  | detached (hook : H) :
    AfterCourse hooks kind p who .detached (some hook)
      [.lookup .after kind true] [⟨hook, kind, p, who⟩]

/-- **The specification of a pipeline.** The before stage has answered and left the state `w`. What
follows is given by its answer: the steps in order, the tasks left for later, and the outcome. The
after stage finds what is bound and whom the session names once the processor is done, and has no
part in the outcome. -/
inductive Course (hooks : Hooks H) (mode : AfterMode) (kind : String) (session : Option String)
    (processor : Processor H) (w : World H) :
    Except Error Envelope → List (Record H) → List (AfterTask H) → Outcome → Prop
  | refused (e : Error) : Course hooks mode kind session processor w (.error e) [] [] (.rejected e)
  | failed {b : Envelope} {e : Error} (h : (processor b w).answer = .error e) :
    Course hooks mode kind session processor w (.ok b) [.processed b (.error e)] [] (.rejected e)
  | done {b p : Envelope} {w' : World H} {steps : List (Record H)} {tasks : List (AfterTask H)}
    (h : process processor b w = (.ok p, w'))
    (after : AfterCourse hooks kind p (w'.sessions.identity session) mode
      (w'.registry.lookup .after kind) steps tasks) :
    Course hooks mode kind session processor w (.ok b) (.processed b (.ok p) :: steps) tasks
      (.done p)

/-! ## Trips -/

section

variable {hooks : Hooks H} {kind : String} {m b p : Envelope} {session : Option String}
  {processor : Processor H} {w w₁ w₂ : World H} {e : Error} (mode : AfterMode)

theorem trip_of_refused
    (hbefore : Dispatch.beforeMessage hooks kind m session (w.advance kind .received .beforeHook) =
      (.error e, w₁)) :
    trip hooks mode kind m session processor w =
      (⟨kind, .rejected, true⟩, .rejected e, w₁.advance kind .beforeHook .rejected) := by
  simp only [trip, Tracker.start, Tracker.advance, hbefore]
  rfl

theorem trip_of_failed
    (hbefore : Dispatch.beforeMessage hooks kind m session (w.advance kind .received .beforeHook) =
      (.ok b, w₁))
    (hprocess : process processor b w₁ = (.error e, w₂)) :
    trip hooks mode kind m session processor w =
      (⟨kind, .rejected, true⟩, .rejected e, w₂.advance kind .beforeHook .rejected) := by
  simp only [trip, Tracker.start, Tracker.advance, hbefore, hprocess]
  rfl

theorem trip_of_done
    (hbefore : Dispatch.beforeMessage hooks kind m session (w.advance kind .received .beforeHook) =
      (.ok b, w₁))
    (hprocess : process processor b w₁ = (.ok p, w₂)) :
    trip hooks mode kind m session processor w =
      (⟨kind, .done, true⟩, .done p, (afterStage hooks mode kind p session
        ((w₂.advance kind .beforeHook .processed).advance kind .processed .afterHook)).advance kind
          .afterHook .done) := by
  simp only [trip, Tracker.start, Tracker.advance, hbefore, hprocess]
  rfl

end

/-! ## Routes -/

/-- The ways a run may go, with the states it passes: the message is refused by its before hook, or
fails in processing, or is done. -/
inductive Route (hooks : Hooks H) (mode : AfterMode) (kind : String) (m : Envelope)
    (session : Option String) (processor : Processor H) (w : World H) (r : Outcome × World H) :
    Prop
  | refused {e : Error} {w₁ : World H}
    (hbefore : Dispatch.beforeMessage hooks kind m session (w.advance kind .received .beforeHook) =
      (.error e, w₁))
    (hrun : r = (.rejected e, w₁.advance kind .beforeHook .rejected))
  | failed {b : Envelope} {e : Error} {w₁ w₂ : World H}
    (hbefore : Dispatch.beforeMessage hooks kind m session (w.advance kind .received .beforeHook) =
      (.ok b, w₁))
    (hprocess : process processor b w₁ = (.error e, w₂))
    (hrun : r = (.rejected e, w₂.advance kind .beforeHook .rejected))
  | done {b p : Envelope} {w₁ w₂ : World H}
    (hbefore : Dispatch.beforeMessage hooks kind m session (w.advance kind .received .beforeHook) =
      (.ok b, w₁))
    (hprocess : process processor b w₁ = (.ok p, w₂))
    (hrun : r = (.done p, (afterStage hooks mode kind p session
      ((w₂.advance kind .beforeHook .processed).advance kind .processed .afterHook)).advance kind
        .afterHook .done))

theorem trip_route (hooks : Hooks H) (mode : AfterMode) (kind : String) (m : Envelope)
    (session : Option String) (processor : Processor H) (w : World H) :
    let r := trip hooks mode kind m session processor w
    r.1 = ⟨kind, r.2.1.state, true⟩ ∧ Route hooks mode kind m session processor w r.2 := by
  intro r
  cases hbefore : Dispatch.beforeMessage hooks kind m session
      (w.advance kind .received .beforeHook) with
  | mk before w₁ =>
    cases before with
    | error e =>
      have hr : r = _ := trip_of_refused mode hbefore
      rw [hr]
      exact ⟨rfl, .refused hbefore rfl⟩
    | ok b =>
      cases hprocess : process processor b w₁ with
      | mk answer w₂ =>
        cases answer with
        | error e =>
          have hr : r = _ := trip_of_failed mode hbefore hprocess
          rw [hr]
          exact ⟨rfl, .failed hbefore hprocess rfl⟩
        | ok p =>
          have hr : r = _ := trip_of_done mode hbefore hprocess
          rw [hr]
          exact ⟨rfl, .done hbefore hprocess rfl⟩

/-- **No check of a step ever fails**: the tracker ends in the state of the outcome, by legal steps
only. -/
theorem tracker_trip (hooks : Hooks H) (mode : AfterMode) (kind : String) (m : Envelope)
    (session : Option String) (processor : Processor H) (w : World H) :
    let r := trip hooks mode kind m session processor w
    r.1.legal = true ∧ r.1.state = r.2.1.state := by
  intro r
  have htracker : r.1 = _ := (trip_route hooks mode kind m session processor w).1
  rw [htracker]
  exact ⟨rfl, rfl⟩

theorem run_route (hooks : Hooks H) (mode : AfterMode) (kind : String) (m : Envelope)
    (session : Option String) (processor : Processor H) (w : World H) :
    Route hooks mode kind m session processor w (run hooks mode kind m session processor w) :=
  (trip_route hooks mode kind m session processor w).2

/-- Two runs under kinds of their own keep a relation that all their stages keep, and end alike. -/
theorem run_related {R : World H → World H → Prop} {hooks : Hooks H} {mode : AfterMode}
    {kind kind' : String} {m : Envelope} {session : Option String} {processor : Processor H}
    (hadvance : ∀ source target {w v : World H}, R w v →
      R (w.advance kind source target) (v.advance kind' source target))
    (hbefore : ∀ {w v : World H}, R w v →
      (Dispatch.beforeMessage hooks kind m session w).1 =
        (Dispatch.beforeMessage hooks kind' m session v).1 ∧
      R (Dispatch.beforeMessage hooks kind m session w).2
        (Dispatch.beforeMessage hooks kind' m session v).2)
    (hprocess : ∀ b {w v : World H}, R w v →
      (process processor b w).1 = (process processor b v).1 ∧
      R (process processor b w).2 (process processor b v).2)
    (hafter : ∀ p {w v : World H}, R w v →
      R (afterStage hooks mode kind p session w) (afterStage hooks mode kind' p session v))
    {w v : World H} (h : R w v) :
    (run hooks mode kind m session processor w).1 =
      (run hooks mode kind' m session processor v).1 ∧
    R (run hooks mode kind m session processor w).2
      (run hooks mode kind' m session processor v).2 := by
  obtain ⟨hanswer, hstage⟩ := hbefore (hadvance .received .beforeHook h)
  cases hb : Dispatch.beforeMessage hooks kind m session
      (w.advance kind .received .beforeHook) with
  | mk before w₁ =>
    cases hb' : Dispatch.beforeMessage hooks kind' m session
        (v.advance kind' .received .beforeHook) with
    | mk before' v₁ =>
      rw [hb, hb'] at hanswer hstage
      obtain rfl : before = before' := hanswer
      cases before with
      | error e =>
        rw [run, trip_of_refused mode hb, run, trip_of_refused mode hb']
        exact ⟨rfl, hadvance _ _ hstage⟩
      | ok b =>
        obtain ⟨hresult, hprocessed⟩ := hprocess b hstage
        dsimp only at hresult hprocessed ⊢
        cases hp : process processor b w₁ with
        | mk answer w₂ =>
          cases hp' : process processor b v₁ with
          | mk answer' v₂ =>
            rw [hp, hp'] at hresult hprocessed
            obtain rfl : answer = answer' := hresult
            cases answer with
            | error e =>
              rw [run, trip_of_failed mode hb hp, run, trip_of_failed mode hb' hp']
              exact ⟨rfl, hadvance _ _ hprocessed⟩
            | ok p =>
              have hturn := hadvance .processed .afterHook
                (hadvance .beforeHook .processed hprocessed)
              rw [run, trip_of_done mode hb hp, run, trip_of_done mode hb' hp']
              exact ⟨rfl, hadvance _ _ (hafter p hturn)⟩

/-! ## Stages -/

theorem steps_process (processor : Processor H) (m : Envelope) (w : World H) :
    (process processor m w).2.steps = w.steps ++ [.processed m (processor m w).answer] := by
  simp [process]

theorem tasks_process (processor : Processor H) (m : Envelope) (w : World H) :
    (process processor m w).2.tasks = w.tasks := by
  simp [process]

variable (hooks : Hooks H) (mode : AfterMode) (kind : String) (session : Option String)

/-- The before stage takes steps of its own phase only. -/
theorem steps_beforeStage (m : Envelope) (w : World H) :
    ∃ stage, (Dispatch.beforeMessage hooks kind m session w).2.steps = w.steps ++ stage ∧
      ∀ r ∈ stage, r.IsBefore := by
  refine ⟨_, Dispatch.steps_beforeMessage hooks kind w m session, ?_⟩
  cases w.registry.lookup .before kind with
  | none => simp [Record.IsBefore]
  | some hook => simp [Record.IsBefore, Dispatch.beforeCall]

theorem afterStage_follows_course (p : Envelope) (w : World H) :
    ∃ steps tasks, AfterCourse hooks kind p (w.sessions.identity session) mode
        (w.registry.lookup .after kind) steps tasks ∧
      (afterStage hooks mode kind p session w).steps = w.steps ++ steps ∧
      (afterStage hooks mode kind p session w).tasks = w.tasks ++ tasks := by
  cases mode with
  | inline =>
    simp only [afterStage, Dispatch.steps_afterMessage, Dispatch.tasks_afterMessage]
    cases w.registry.lookup .after kind with
    | none => exact ⟨_, [], .unbound .inline, rfl, (List.append_nil _).symm⟩
    | some hook => exact ⟨_, [], .inline hook _, rfl, (List.append_nil _).symm⟩
  | detached =>
    simp only [afterStage, Dispatch.steps_spawnAfter, Dispatch.tasks_spawnAfter]
    cases w.registry.lookup .after kind with
    | none => exact ⟨_, _, .unbound .detached, rfl, rfl⟩
    | some hook => exact ⟨_, _, .detached hook, rfl, rfl⟩

/-! ## Runs -/

variable (m : Envelope) (processor : Processor H) (w : World H)

theorem course_of_before {before : Except Error Envelope} {w₁ : World H}
    (hbefore : Dispatch.beforeMessage hooks kind m session
      (w.advance kind .received .beforeHook) = (before, w₁)) :
    ∃ steps tasks,
      Course hooks mode kind session processor w₁ before steps tasks
        (run hooks mode kind m session processor w).1 ∧
      (run hooks mode kind m session processor w).2.steps = w₁.steps ++ steps ∧
      (run hooks mode kind m session processor w).2.tasks = w₁.tasks ++ tasks := by
  cases before with
  | error e =>
    simp only [run, trip_of_refused mode hbefore]
    exact ⟨[], [], .refused e, by simp, by simp⟩
  | ok b =>
    have hsteps := steps_process processor b w₁
    have htasks := tasks_process processor b w₁
    cases hp : process processor b w₁ with
    | mk answer w₂ =>
      have hanswer : (processor b w₁).answer = answer := congrArg Prod.fst hp
      rw [hp, hanswer] at hsteps
      rw [hp] at htasks
      cases answer with
      | error e =>
        simp only [run, trip_of_failed mode hbefore hp]
        exact ⟨_, [], .failed hanswer, by simpa using hsteps, by simpa using htasks⟩
      | ok p =>
        -- The log lines between the stages change neither the hook found nor the identity.
        let w₃ := (w₂.advance kind .beforeHook .processed).advance kind .processed .afterHook
        obtain ⟨steps, tasks, hafter, hsteps₃, htasks₃⟩ :=
          afterStage_follows_course hooks mode kind session p w₃
        simp only [run, trip_of_done mode hbefore hp]
        refine ⟨_, _, .done hp hafter, ?_, ?_⟩
        · simp only [World.steps_advance, w₃] at hsteps₃ ⊢
          rw [hsteps₃, hsteps, List.append_assoc, List.singleton_append]
        · show (afterStage hooks mode kind p session w₃).tasks = w₁.tasks ++ tasks
          rw [htasks₃, ← htasks]
          rfl

/-- **A run follows its specification**, in every state and with whatever hooks and processor. Its
before stage takes its own steps only and leaves no task, a course follows, and a task left by it
calls its hook once when it runs, with the dynamic form of the processed message. -/
theorem run_follows_course : ∃ before w₁ stage steps tasks,
    Dispatch.beforeMessage hooks kind m session (w.advance kind .received .beforeHook) =
      (before, w₁) ∧
    w₁.steps = w.steps ++ stage ∧ (∀ r ∈ stage, r.IsBefore) ∧
    Course hooks mode kind session processor w₁ before steps tasks
      (run hooks mode kind m session processor w).1 ∧
    (run hooks mode kind m session processor w).2.steps = w.steps ++ stage ++ steps ∧
    (run hooks mode kind m session processor w).2.tasks = w.tasks ++ tasks ∧
    ∀ t ∈ tasks, ∀ w' : World H, (Dispatch.runTask hooks t w').steps =
      w'.steps ++ [.call (Dispatch.afterCall hooks t.hook t.kind t.message t.identity w')] := by
  obtain ⟨stage, hstage, hphase⟩ :=
    steps_beforeStage hooks kind session m (w.advance kind .received .beforeHook)
  have hnone :=
    Dispatch.tasks_beforeMessage hooks kind (w.advance kind .received .beforeHook) m session
  rw [World.steps_advance] at hstage
  cases hbefore : Dispatch.beforeMessage hooks kind m session
      (w.advance kind .received .beforeHook) with
  | mk before w₁ =>
    rw [hbefore] at hstage hnone
    obtain ⟨steps, tasks, hcourse, hsteps, htasks⟩ :=
      course_of_before hooks mode kind session m processor w hbefore
    refine ⟨before, w₁, stage, steps, tasks, rfl, hstage, hphase, hcourse, ?_, ?_,
      fun t _ w' => ?_⟩
    · rw [hsteps, hstage]
    · rw [htasks, hnone, World.tasks_advance]
    · exact Dispatch.steps_runTask hooks t w'

end Pipeline

end MessageHooks
