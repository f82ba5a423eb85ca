import MessageHooks.Proofs.BeforeHook

/-!
# The run of an after hook

An after hook comes too late to change what the caller gets, so whatever it does ends in its own
run: it is called once, counted once and closed by one line, and a failure is counted once more and
told in that line. A hook that rewrites may be bound as an after hook; then only whether it
completed counts, and what it made is seen nowhere.

* `AfterRuling`: what an answer means for the metrics and the line.
* `Dispatch.AfterRun`: what a run does to a runtime.
* `Hooks.SameButOutput`: two tables of hooks whose rewriting hooks differ in their output only.
* `Dispatch.after_hooks_are_contained`: every run of an after hook is such a run, and dispatches of
  after hooks are the same under two tables of that kind.
-/

namespace MessageHooks

variable {H : Type} {π : Type} [Family π]

/-! ## Rulings -/

/-- The metrics `m'` are the metrics `m` with one more failed run of an after hook: counted as a
run, and as one more failure in the row of its kind and of the callback's stage only. -/
structure Metrics.CountsAfterFailure (m m' : Metrics) (kind : String) (took : Duration) : Prop where
  run : m.CountsRun { m' with afterFailures := m.afterFailures } .after kind .failed took
  failure : m'.afterFailures.rows.get? (failureLabels kind .callback).sort =
    some (m.afterFailures.get (failureLabels kind .callback) + 1)
  otherFailures : ∀ key, key ≠ (failureLabels kind .callback).sort →
    m'.afterFailures.rows.get? key = m.afterFailures.rows.get? key

/-- The line tells of an after hook's failure, with its cause word for word. -/
structure Event.TellsFailure (line : Event) (kind cause : String) : Prop where
  level : line.level = .error
  fields : line.fields =
    [("message_kind", kind), ("phase", "after"), ("stage", "callback"), ("cause", cause)]

/-- What the answer of an after hook means: how the metrics go from `m` to `m'`, and which line
closes the run. -/
inductive AfterRuling (kind : String) (took : Duration) (m m' : Metrics) (line : Event) :
    Except CallbackFailure Unit → Prop
  | ran (hcount : m.CountsRun m' .after kind .ok took) (hline : line.level = .trace) :
    AfterRuling kind took m m' line (.ok ())
  | failed {cause : String} (hcount : m.CountsAfterFailure m' kind took)
    (hline : line.TellsFailure kind cause) :
    AfterRuling kind took m m' line (.error (.script cause))
  | rejected {cause : String} (hcount : m.CountsAfterFailure m' kind took)
    (hline : line.TellsFailure kind cause) :
    AfterRuling kind took m m' line (.error (.rejected cause))

theorem Metrics.countsAfterFailure_recordAfter (m : Metrics) (kind : String) (took : Duration)
    (failure : CallbackFailure) :
    m.CountsAfterFailure (m.recordAfter kind took (.error failure)) kind took where
  run := m.countsRun_recordInvocation .after kind .failed took
  failure := m.afterFailures.rows.get?_adjust_self _ 0 _
  otherFailures _ h := m.afterFailures.rows.get?_adjust_of_ne 0 _ h

theorem Dispatch.afterRuling (kind : String) (who : Identity) (took : Duration) (m : Metrics)
    (answer : Except CallbackFailure Unit) :
    AfterRuling kind took m (m.recordAfter kind took answer) (afterLine kind who answer)
      answer := by
  cases answer with
  | ok done => exact .ran (m.countsRun_recordInvocation .after kind .ok took) rfl
  | error failure =>
    have hcount := m.countsAfterFailure_recordAfter kind took failure
    cases failure with
    | script cause => exact .failed hcount ⟨rfl, rfl⟩
    | rejected cause => exact .rejected hcount ⟨rfl, rfl⟩

/-! ## Runs -/

namespace Dispatch

/-- The run of an after hook that led from `w` to `w'`, with the reaction `r` of the hook. It was
called once, with the dynamic form of the message; after the lines of the hook's own doing one line
closed the run; nothing but the hook's effects changed the bindings and the sessions, and no task
was made or lost. -/
structure AfterRun (hook : H) (kind : String) (m : Message π) (who : Identity)
    (r : Reaction H (Except CallbackFailure Unit)) (w w' : World H) : Prop where
  steps : w'.steps =
    w.steps ++ [.call ⟨.after, kind, hook, who, m.encode, r.answer.map fun _ => none⟩]
  closed : ∃ line, AfterRuling kind r.took w.metrics w'.metrics line r.answer ∧
    w'.history = w.history ++
      (.call ⟨.after, kind, hook, who, m.encode, r.answer.map fun _ => none⟩ ::
        (r.effects.flatMap Effect.lines ++ [.event line]))
  setting : w'.setting = (w.performAll r.effects).setting
  tasks : w'.tasks = w.tasks

variable (hooks : Hooks H) (hook : H) (kind : String) (m : Message π) (who : Identity) (w : World H)

theorem afterRun_runAfter :
    AfterRun hook kind m who ((hooks hook).after who m.encode w) w
      (runAfter hooks hook kind m who w) where
  steps := steps_runAfter hooks hook kind m who w
  closed := by
    refine ⟨_, ?_, history_runAfter hooks hook kind m who w⟩
    rw [metrics_runAfter]
    exact afterRuling kind who _ _ _
  setting := setting_runAfter hooks hook kind m who w
  tasks := tasks_runAfter hooks hook kind m who w

theorem afterRun_of_ofRewrite
    {f : Identity → Json.Object → World H → Reaction H (Except CallbackFailure Json.Object)}
    (hf : hooks hook = .ofRewrite f) {answer : Except CallbackFailure Unit}
    (hanswer : (f who m.encode w).answer.map (fun _ => ()) = answer) :
    AfterRun hook kind m who ⟨answer, (f who m.encode w).effects, (f who m.encode w).took⟩ w
      (runAfter hooks hook kind m who w) := by
  have hrun := afterRun_runAfter hooks hook kind m who w
  rw [hf] at hrun
  rw [← hanswer]
  exact hrun

end Dispatch

/-! ## Dropped output -/

/-- Two hooks that rewrite differ in their output only: they have the same effects, take the same
time, and complete or fail alike. -/
def Hook.SameButOutput
    (f f' : Identity → Json.Object → World H → Reaction H (Except CallbackFailure Json.Object)) :
    Prop :=
  ∀ who input w, (f who input w).effects = (f' who input w).effects ∧
    (f who input w).took = (f' who input w).took ∧
    (f who input w).answer.map (fun _ => ()) = (f' who input w).answer.map fun _ => ()

theorem Hook.SameButOutput.after_eq
    {f f' : Identity → Json.Object → World H → Reaction H (Except CallbackFailure Json.Object)}
    (h : Hook.SameButOutput f f') : (Hook.ofRewrite f).after = (Hook.ofRewrite f').after := by
  funext who input w
  obtain ⟨heffects, htook, hanswer⟩ := h who input w
  simp only [Hook.ofRewrite, heffects, htook, hanswer]

/-- Each name stands for the same hook in both tables, or for two that rewrite and differ in their
output only. -/
def Hooks.SameButOutput (hooks hooks' : Hooks H) : Prop :=
  ∀ hook, hooks hook = hooks' hook ∨ ∃ f f',
    hooks hook = .ofRewrite f ∧ hooks' hook = .ofRewrite f' ∧ Hook.SameButOutput f f'

theorem Hooks.SameButOutput.after_eq {hooks hooks' : Hooks H} (h : hooks.SameButOutput hooks')
    (hook : H) : (hooks hook).after = (hooks' hook).after := by
  rcases h hook with heq | ⟨f, f', hf, hf', hsame⟩
  · rw [heq]
  · rw [hf, hf', hsame.after_eq]

namespace Dispatch

variable {hooks hooks' : Hooks H} (h : ∀ hook, (hooks hook).after = (hooks' hook).after)
include h

/-! An after hook is run by what its name stands for in the after phase. -/

theorem runAfter_congr (hook : H) (kind : String) (m : Message π) (who : Identity) (w : World H) :
    runAfter hooks hook kind m who w = runAfter hooks' hook kind m who w := by
  rw [runAfter_eq, runAfter_eq, afterCall, afterCall, h hook]

theorem hookAfter_congr (kind : String) (m : Message π) (who : Sessions → Identity) (w : World H) :
    hookAfter hooks kind m who w = hookAfter hooks' kind m who w := by
  unfold hookAfter
  cases w.registry.lookup .after kind with
  | none => rfl
  | some hook => exact runAfter_congr h hook kind m _ _

/-- Tasks that wait are run alike, one after the other. -/
theorem drain_congr (w : World H) : drain hooks w = drain hooks' w := by
  unfold drain
  generalize { w with tasks := [] } = v
  induction w.tasks generalizing v with
  | nil => rfl
  | cons t ts ih =>
    rw [List.foldl_cons, List.foldl_cons, runTask, runTask, runAfter_congr h]
    exact ih _

end Dispatch

namespace Dispatch

/-- **After hooks are contained.** A run of an after hook is one call, one count and one line,
whatever the hook does. Of a hook that rewrites only its completion counts, and its output changes
nothing: neither the state after a run, nor that after a dispatch or after all waiting tasks. -/
theorem after_hooks_are_contained (hooks : Hooks H) :
    (∀ {π : Type} [Family π] (hook : H) (kind : String) (m : Message π) (who : Identity)
      (w : World H),
      AfterRun hook kind m who ((hooks hook).after who m.encode w) w
        (runAfter hooks hook kind m who w) ∧
      ∀ f, hooks hook = .ofRewrite f →
        let r := f who m.encode w
        (∀ output, r.answer = .ok output →
          AfterRun hook kind m who ⟨.ok (), r.effects, r.took⟩ w
            (runAfter hooks hook kind m who w)) ∧
        ∀ failure, r.answer = .error failure →
          AfterRun hook kind m who ⟨.error failure, r.effects, r.took⟩ w
            (runAfter hooks hook kind m who w)) ∧
    ∀ hooks' : Hooks H, hooks.SameButOutput hooks' →
      (∀ {π : Type} [Family π] (hook : H) (kind : String) (m : Message π) (who : Identity)
        (w : World H), runAfter hooks hook kind m who w = runAfter hooks' hook kind m who w) ∧
      (∀ (kind : String) (m : Envelope) (session : Option String) (w : World H),
        afterMessage hooks kind m session w = afterMessage hooks' kind m session w) ∧
      (∀ (m : AuthRequest) (who : Identity) (w : World H),
        afterAuthentication hooks m who w = afterAuthentication hooks' m who w) ∧
      ∀ w : World H, drain hooks w = drain hooks' w := by
  refine ⟨fun hook kind m who w => ?_, fun hooks' hsame => ?_⟩
  · refine ⟨afterRun_runAfter .., fun f hf => ⟨fun output hok => ?_, fun failure herror => ?_⟩⟩
    · exact afterRun_of_ofRewrite hooks hook kind m who w hf (by rw [hok]; rfl)
    · exact afterRun_of_ofRewrite hooks hook kind m who w hf (by rw [herror]; rfl)
  · have hafter := hsame.after_eq
    refine ⟨runAfter_congr hafter, fun kind m session w => ?_, fun m who w => ?_,
      drain_congr hafter⟩
    · rw [afterMessage_eq, afterMessage_eq, hookAfter_congr hafter]
    · rw [afterAuthentication_eq, afterAuthentication_eq, hookAfter_congr hafter]

/-- A hook that makes a message of another kind out of a call, and one that makes nothing of it, are
the same after hook, and neither fails. -/
theorem other_kind_is_no_failure_after :
    let hooksMaking (output : Json.Object) : Hooks Unit :=
      fun _ => Script.rewriteHook [.replace output]
    let link : Json.Object := [("link", .obj []), ("unlink", .bool true)]
    let call : Envelope := .ofPayload (.rpc ⟨"id", "payload"⟩)
    let w : World Unit := .fresh (Registry.empty.register .after "Rpc" ()) .empty
    AfterRun () "Rpc" call .anonymous ⟨.ok (), [], .zero⟩ w
        (runAfter (hooksMaking link) () "Rpc" call .anonymous w) ∧
      afterMessage (hooksMaking link) "Rpc" call none w =
        afterMessage (hooksMaking []) "Rpc" call none w := by
  intro hooksMaking link call w
  obtain ⟨hrun, hsame⟩ := after_hooks_are_contained (hooksMaking link)
  obtain ⟨hcompleted, -⟩ := (hrun () "Rpc" call .anonymous w).2 _ rfl
  have houtput : (hooksMaking link).SameButOutput (hooksMaking []) :=
    fun _ => .inr ⟨_, _, rfl, rfl, fun _ _ _ => ⟨rfl, rfl, rfl⟩⟩
  exact ⟨hcompleted link rfl, (hsame _ houtput).2.1 "Rpc" call none w⟩

end Dispatch

end MessageHooks
