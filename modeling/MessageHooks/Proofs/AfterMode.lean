import MessageHooks.Proofs.Metrics
import MessageHooks.Proofs.Operation
import MessageHooks.Script

/-!
# Inline and detached after hooks

Whether a pipeline runs its after hook at once or leaves it to a task that runs next shows in the
order of the log alone: the last line of the lifecycle stands before what the after hook did, and
not behind it.

* `Hook.IgnoresLog`: a hook that cannot read the log, as no script can.
* `AgreeButForLog`: two states that differ in the order of the log and in measured times only.
* `DoneComesFirst`: where the last line of the lifecycle stands in either history.
* `detached_agrees_inline`: the two modes agree in this way.
-/

namespace MessageHooks

variable {H : Type}

/-- An after hook whose answer and effects do not depend on the lines of the log. The time it takes
may. -/
def Hook.IgnoresLog (h : Hook H) : Prop :=
  ∀ who input (w : World H) e,
    (h.after who input (w.log e)).answer = (h.after who input w).answer ∧
    (h.after who input (w.log e)).effects = (h.after who input w).effects

theorem Script.ignoresLog_observerHook (actions : List (Action H)) :
    (observerHook actions).IgnoresLog :=
  fun _ _ _ _ => ⟨rfl, rfl⟩

/-- The metrics differ in measured times only. -/
structure Metrics.AgreeButForTimes (m m' : Metrics) : Prop where
  invocations : m'.invocations = m.invocations
  counts : ∀ labels, m'.durations.count labels = m.durations.count labels
  afterFailures : m'.afterFailures = m.afterFailures

theorem Metrics.AgreeButForTimes.refl (m : Metrics) : m.AgreeButForTimes m :=
  ⟨rfl, fun _ => rfl, rfl⟩

theorem Metrics.recordAfter_agree (m : Metrics) (kind : String) (took took' : Duration)
    (answer : Except CallbackFailure Unit) :
    (m.recordAfter kind took answer).AgreeButForTimes (m.recordAfter kind took' answer) := by
  have htime (outcome : CallOutcome) (labels : Labels) :
      (m.recordInvocation .after kind outcome took').durations.count labels =
        (m.recordInvocation .after kind outcome took).durations.count labels := by
    rw [recordInvocation, recordInvocation, Histogram.count_observe, Histogram.count_observe]
  cases answer with
  | ok _ => exact ⟨rfl, htime .ok, rfl⟩
  | error failure =>
    simp only [recordAfter, recordAfterFailure]
    exact ⟨rfl, htime .failed, rfl⟩

/-- The states have done the same, and differ in the order of the log and in measured times only. -/
structure AgreeButForLog (w w' : World H) : Prop where
  registry : w'.registry = w.registry
  sessions : w'.sessions = w.sessions
  tasks : w'.tasks = w.tasks
  metrics : w.metrics.AgreeButForTimes w'.metrics
  steps : w'.steps = w.steps
  history : w'.history.Perm w.history

theorem AgreeButForLog.refl (w : World H) : AgreeButForLog w w where
  registry := rfl
  sessions := rfl
  tasks := rfl
  metrics := .refl _
  steps := rfl
  history := .refl _

/-! ## A run of an after hook -/

section

variable {π : Type} [Family π] {hooks : Hooks H} {hook : H}

/-- What an after hook does, it does in the same way after one more line of the log. -/
theorem runAfter_log (hlog : (hooks hook).IgnoresLog) (kind : String) (m : Message π)
    (who : Identity) (w : World H) (e : Event) :
    AgreeButForLog ((Dispatch.runAfter hooks hook kind m who w).log e)
      (Dispatch.runAfter hooks hook kind m who (w.log e)) ∧
    ∃ c lines, c.phase = .after ∧ c.kind = kind ∧ (∀ r ∈ lines, r.isEvent = true) ∧
      (Dispatch.runAfter hooks hook kind m who w).history = w.history ++ .call c :: lines ∧
      (Dispatch.runAfter hooks hook kind m who (w.log e)).history =
        w.history ++ .event e :: .call c :: lines := by
  obtain ⟨hanswer, heffects⟩ := hlog who m.encode w e
  have hcall : Dispatch.afterCall hooks hook kind m who (w.log e) =
      Dispatch.afterCall hooks hook kind m who w := by
    rw [Dispatch.afterCall, hanswer, Dispatch.afterCall]
  have hlater := Dispatch.history_runAfter hooks hook kind m who (w.log e)
  rw [hcall, hanswer, heffects, World.history_log, List.append_assoc, List.singleton_append]
    at hlater
  have hhistory := Dispatch.history_runAfter hooks hook kind m who w
  refine ⟨⟨?_, ?_, ?_, ?_, ?_, ?_⟩, _, _, rfl, rfl, ?_, hhistory, hlater⟩
  · rw [World.registry_log, Dispatch.registry_runAfter, Dispatch.registry_runAfter, heffects]
    exact World.registry_performAll_congr (w.registry_log e) _
  · rw [World.sessions_log, Dispatch.sessions_runAfter, Dispatch.sessions_runAfter, heffects]
    exact World.sessions_performAll_congr (w.sessions_log e) _
  · rw [World.tasks_log, Dispatch.tasks_runAfter, Dispatch.tasks_runAfter, World.tasks_log]
  · rw [World.metrics_log, Dispatch.metrics_runAfter, Dispatch.metrics_runAfter, hanswer]
    exact Metrics.recordAfter_agree _ _ _ _ _
  · rw [World.steps_log, Dispatch.steps_runAfter, Dispatch.steps_runAfter, hcall, World.steps_log]
  · rw [hlater, World.history_log, hhistory, List.append_assoc]
    exact List.Perm.append_left _ (List.perm_append_singleton _ _).symm
  · intro r hr
    rcases List.mem_append.1 hr with hr | hr
    · obtain ⟨effect, -, hr⟩ := List.mem_flatMap.1 hr
      exact Effect.isEvent_of_mem_lines hr
    · obtain rfl := List.mem_singleton.1 hr
      rfl

end

/-! ## Pipelines -/

variable {hooks : Hooks H}

theorem drain_of_tasks_eq_nil {w : World H} (h : w.tasks = []) : Dispatch.drain hooks w = w := by
  rw [Dispatch.drain, h]
  exact congrArg (fun tasks => { w with tasks }) h.symm

/-- How the histories of an inline and of a detached pipeline compare, given the outcome. A message
that is rejected, and one for which the after stage finds no hook, leave the same history. Where a
hook is found its call and its lines stand before the last line of the lifecycle in the first
history, and behind it in the second. -/
inductive DoneComesFirst (kind : String) : Outcome → List (Record H) → List (Record H) → Prop
  | rejected (e : Error) (rs : List (Record H)) : DoneComesFirst kind (.rejected e) rs rs
  | unbound (p : Envelope) (earlier : List (Record H)) : DoneComesFirst kind (.done p)
      (earlier ++ [.lookup .after kind false, .event (.advanced kind .afterHook .done)])
      (earlier ++ [.lookup .after kind false, .event (.advanced kind .afterHook .done)])
  | moved (p : Envelope) (earlier : List (Record H)) {c : Call H} {lines : List (Record H)}
    (hphase : c.phase = .after) (hkind : c.kind = kind) (hlines : ∀ r ∈ lines, r.isEvent = true) :
    DoneComesFirst kind (.done p)
      (earlier ++ .lookup .after kind true :: .call c :: lines ++
        [.event (.advanced kind .afterHook .done)])
      (earlier ++ .lookup .after kind true :: .event (.advanced kind .afterHook .done) ::
        .call c :: lines)

/-- The after stage and the line that follows it, in either mode. -/
theorem afterStage_agrees (hlog : ∀ h, (hooks h).IgnoresLog) (kind : String) (p : Envelope)
    (session : Option String) {w : World H} (hw : w.tasks = []) :
    let i := (Pipeline.afterStage hooks .inline kind p session w).advance kind .afterHook .done
    let d := (Pipeline.afterStage hooks .detached kind p session w).advance kind .afterHook .done
    AgreeButForLog i (Dispatch.drain hooks d) ∧
      DoneComesFirst kind (.done p) i.history (Dispatch.drain hooks d).history := by
  intro i d
  have hlookup : (w.lookup .after kind).2.tasks = [] := hw
  cases h : w.registry.lookup .after kind with
  | none =>
    have hi : i = (w.lookup .after kind).2.advance kind .afterHook .done :=
      congrArg (·.advance kind .afterHook .done) (Dispatch.afterMessage_of_none p session h)
    have hd : d = i := by
      rw [hi]
      exact congrArg (·.2.advance kind .afterHook .done) (Dispatch.spawnAfter_of_none p session h)
    have hhistory : i.history =
        w.history ++ [.lookup .after kind false, .event (.advanced kind .afterHook .done)] := by
      rw [hi, World.history_advance, World.history_lookup, h, List.append_assoc]
      rfl
    rw [hd, drain_of_tasks_eq_nil (by rw [hi, World.tasks_advance, hlookup]), hhistory]
    exact ⟨.refl i, .unbound p w.history⟩
  | some hook =>
    -- both modes look up in `w`; the task of the detached one starts a line of the log later
    let v := (w.lookup .after kind).2
    let who := w.sessions.identity session
    have hi : i = (Dispatch.runAfter hooks hook kind p who v).advance kind .afterHook .done :=
      congrArg (·.advance kind .afterHook .done) (Dispatch.afterMessage_of_some p session h)
    have hd : Dispatch.drain hooks d =
        Dispatch.runAfter hooks hook kind p who (v.advance kind .afterHook .done) := by
      have hspawn :
          d = { v with tasks := [⟨hook, kind, p, who⟩] }.advance kind .afterHook .done := by
        show (Dispatch.spawnAfter kind p session w).2.advance kind .afterHook .done = _
        rw [Dispatch.spawnAfter_of_some p session h]
        dsimp only
        rw [hlookup]
        rfl
      have hv : v = { v with tasks := [] } := congrArg (fun tasks => { v with tasks }) hlookup
      rw [hspawn, hv]
      rfl
    have hfound : v.history = w.history ++ [.lookup .after kind true] := by
      rw [World.history_lookup, h]
      rfl
    obtain ⟨hagree, c, lines, hphase, hkind, hlines, hinline, hdetached⟩ :=
      runAfter_log (hlog hook) kind p who v (.advanced kind .afterHook .done)
    have hmoved := DoneComesFirst.moved p w.history hphase hkind hlines
    rw [hi, hd]
    refine ⟨hagree, ?_⟩
    rw [World.history_advance, hinline, World.advance, hdetached, hfound]
    simpa only [List.append_assoc, List.cons_append, List.nil_append] using hmoved

/-- **Detached and inline pipelines agree.** With no task waiting, a detached pipeline and then its
task end as the inline pipeline does, after the same lookups, calls and processing, with the same
registry, sessions and counts. In the log the lines of an after hook that was found stand behind the
end of the lifecycle, and not before it; nothing else has moved. -/
theorem detached_agrees_inline (hlog : ∀ h, (hooks h).IgnoresLog) {w : World H} (hw : w.tasks = [])
    (kind : String) (m : Envelope) (session : Option String) (processor : Processor H) :
    let i := Pipeline.run hooks .inline kind m session processor w
    let d := Pipeline.run hooks .detached kind m session processor w
    let w' := Dispatch.drain hooks d.2
    d.1 = i.1 ∧ AgreeButForLog i.2 w' ∧ DoneComesFirst kind i.1 i.2.history w'.history := by
  have hbefore := Dispatch.tasks_beforeMessage hooks kind (w.advance kind .received .beforeHook) m
    session
  rw [World.tasks_advance, hw] at hbefore
  dsimp only
  cases hb : Dispatch.beforeMessage hooks kind m session
      (w.advance kind .received .beforeHook) with
  | mk before w₁ =>
    rw [hb] at hbefore
    cases before with
    | error e =>
      -- both modes end at the before hook, with no task to run
      have hnone : (w₁.advance kind .beforeHook .rejected).tasks = [] := hbefore
      rw [Pipeline.run, Pipeline.run, Pipeline.trip_of_refused .inline hb,
        Pipeline.trip_of_refused .detached hb, drain_of_tasks_eq_nil hnone]
      exact ⟨rfl, .refl _, .rejected e _⟩
    | ok b =>
      have hprocess := Pipeline.tasks_process processor b w₁
      dsimp only at hprocess hbefore
      rw [hbefore] at hprocess
      cases hp : Pipeline.process processor b w₁ with
      | mk answer w₂ =>
        rw [hp] at hprocess
        cases answer with
        | error e =>
          have hnone : (w₂.advance kind .beforeHook .rejected).tasks = [] := hprocess
          rw [Pipeline.run, Pipeline.run, Pipeline.trip_of_failed .inline hb hp,
            Pipeline.trip_of_failed .detached hb hp, drain_of_tasks_eq_nil hnone]
          exact ⟨rfl, .refl _, .rejected e _⟩
        | ok p =>
          rw [Pipeline.run, Pipeline.run, Pipeline.trip_of_done .inline hb hp,
            Pipeline.trip_of_done .detached hb hp]
          exact ⟨rfl, afterStage_agrees hlog kind p session hprocess⟩

/-- The before hook renames the session, and the after hook puts another hook in its own place. Its
call is the ninth record of the inline pipeline, and the tenth where the end of the lifecycle comes
first. -/
theorem rebinding_hooks_agree :
    let hooks : Hooks Bool := fun rebinds => Script.observerHook
      [.effect (if rebinds then .bind .after "Rpc" false else .rename "s" "bob")]
    let m : Envelope := .ofPayload (.rpc ⟨"id", "payload"⟩)
    let processor : Processor Bool := (ProcessorScript.mk none none none (some "c")).toProcessor
    let w : World Bool :=
      .fresh ((Registry.empty.register .before "Rpc" false).register .after "Rpc" true)
        (SortedMap.empty.insert "s" ⟨.nil, "ann", 7⟩)
    let i := Pipeline.run hooks .inline "Rpc" m (some "s") processor w
    let w' := Dispatch.drain hooks
      (Pipeline.run hooks .detached "Rpc" m (some "s") processor w).2
    let place (w : World Bool) : Nat :=
      w.history.findIdx fun r => match r with | .call c => c.phase = .after | _ => false
    (∀ h, (hooks h).IgnoresLog) ∧ w.tasks = [] ∧ AgreeButForLog i.2 w' ∧
      DoneComesFirst "Rpc" (.done (m.withCid "c")) i.2.history w'.history ∧
      place i.2 = 8 ∧ place w' = 9 := by
  intro hooks m processor w i w' place
  have hlog : ∀ h, (hooks h).IgnoresLog := fun _ => Script.ignoresLog_observerHook _
  have hagree := detached_agrees_inline hlog (rfl : w.tasks = []) "Rpc" m (some "s") processor
  exact ⟨hlog, rfl, hagree.2.1, hagree.2.2, by decide +kernel, by decide +kernel⟩

end MessageHooks
