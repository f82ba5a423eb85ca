import MessageHooks.Proofs.Operation

/-!
# The ledger of effects

Registry and sessions change by effects alone: those of the hooks that are called, those of the
processor of a pipeline, and those made from outside. The ledger of a run lists them in order, and
carrying them out gives the registry and the sessions that the run leaves.

* `Dispatch.beforeEffects`, `Dispatch.afterEffects`: the effects of the hook that is bound.
* `Pipeline.earlyEffects`: the effects of a pipeline until its after stage begins;
  `Pipeline.lateEffects`: those of its after stage.
* `Entry.effects`, `Operation.effects`, `Operation.ledger`: the effects of a dispatch, of an
  operation, and of a run.
* `Operation.setting_runAll`: registry and sessions are what the ledger says.
-/

namespace MessageHooks

variable {H : Type}

/-! ## Carrying out effects -/

namespace World

theorem performAll_append (w : World H) (effects effects' : List (Effect H)) :
    w.performAll (effects ++ effects') = (w.performAll effects).performAll effects' :=
  List.foldl_append

theorem setting_performAll_trans {w w' w'' : World H} {effects effects' : List (Effect H)}
    (h : w'.setting = (w.performAll effects).setting)
    (h' : w''.setting = (w'.performAll effects').setting) :
    w''.setting = (w.performAll (effects ++ effects')).setting := by
  rw [h', setting_performAll_congr h, performAll_append]

end World

/-! ## Hooks -/

namespace Dispatch

variable {π : Type} [Family π] (hooks : Hooks H) (kind : String) (m : Message π)
  (who : Sessions → Identity) (w : World H)

/-- The effects of the before hook that is bound. -/
def beforeEffects : List (Effect H) :=
  match w.registry.lookup .before kind with
  | none => []
  | some hook =>
    ((hooks hook).before (who w.sessions) m.encode (w.lookup .before kind).2).effects

def afterEffects : List (Effect H) :=
  match w.registry.lookup .after kind with
  | none => []
  | some hook => ((hooks hook).after (who w.sessions) m.encode (w.lookup .after kind).2).effects

theorem setting_hookBefore : (hookBefore hooks kind m who w).2.setting =
    (w.performAll (beforeEffects hooks kind m who w)).setting := by
  unfold beforeEffects
  cases h : w.registry.lookup .before kind with
  | none =>
    rw [hookBefore_of_none m who h]
    rfl
  | some hook =>
    rw [hookBefore_of_some m who h, setting_runBefore]
    exact World.setting_performAll_congr (w.setting_note _) _

theorem setting_hookAfter : (hookAfter hooks kind m who w).setting =
    (w.performAll (afterEffects hooks kind m who w)).setting := by
  unfold afterEffects
  cases h : w.registry.lookup .after kind with
  | none =>
    rw [hookAfter_of_none m who h]
    rfl
  | some hook =>
    rw [hookAfter_of_some m who h, setting_runAfter]
    exact World.setting_performAll_congr (w.setting_note _) _

theorem setting_spawnAfter (m : Envelope) (session : Option String) :
    (spawnAfter kind m session w).2.setting = w.setting := by
  cases h : w.registry.lookup .after kind with
  | none =>
    rw [spawnAfter_of_none m session h]
    rfl
  | some hook =>
    rw [spawnAfter_of_some m session h]
    rfl

end Dispatch

/-! ## Pipelines -/

namespace Pipeline

variable (hooks : Hooks H) (kind : String) (m : Envelope) (session : Option String)
  (processor : Processor H) (w : World H)

/-- The effects of a run until its after stage begins, or until it ends without one: those of the
before hook and, where the message gets so far, of the processor. -/
def earlyEffects : List (Effect H) :=
  let w₀ := w.advance kind .received .beforeHook
  Dispatch.beforeEffects hooks kind m (·.identity session) w₀ ++
    match Dispatch.beforeMessage hooks kind m session w₀ with
    | (.error _, _) => []
    | (.ok b, w₁) => (processor b w₁).effects

/-- The effects of an after stage. A task has its effects later. -/
def stageEffects : AfterMode → List (Effect H)
  | .inline => Dispatch.afterEffects hooks kind m (·.identity session) w
  | .detached => []

/-- The message that a run brings to its after stage, and the state in which this begins. -/
def turn? : Option (Envelope × World H) :=
  match Dispatch.beforeMessage hooks kind m session (w.advance kind .received .beforeHook) with
  | (.error _, _) => none
  | (.ok b, w₁) =>
    match process processor b w₁ with
    | (.error _, _) => none
    | (.ok p, w₂) =>
      some (p, (w₂.advance kind .beforeHook .processed).advance kind .processed .afterHook)

/-- The effects of the after stage of a run, if it comes to it. -/
def lateEffects (mode : AfterMode) : List (Effect H) :=
  match turn? hooks kind m session processor w with
  | none => []
  | some (p, w₃) => stageEffects hooks kind p session w₃ mode

theorem setting_process (b : Envelope) :
    (process processor b w).2.setting = (w.performAll (processor b w).effects).setting :=
  World.setting_performAll_congr (w.setting_note _) _

theorem setting_afterStage (mode : AfterMode) :
    (afterStage hooks mode kind m session w).setting =
      (w.performAll (stageEffects hooks kind m session w mode)).setting := by
  cases mode with
  | inline =>
    rw [afterStage, Dispatch.afterMessage_eq]
    exact Dispatch.setting_hookAfter ..
  | detached => exact Dispatch.setting_spawnAfter ..

section

variable {hooks kind m session processor w} {b p : Envelope} {e : Error} {w₁ w₂ : World H}

theorem setting_of_before {before : Except Error Envelope}
    (hbefore : Dispatch.beforeMessage hooks kind m session (w.advance kind .received .beforeHook) =
      (before, w₁)) :
    w₁.setting = (w.performAll (Dispatch.beforeEffects hooks kind m (·.identity session)
      (w.advance kind .received .beforeHook))).setting := by
  have hstage := Dispatch.setting_hookBefore hooks kind m (·.identity session)
    (w.advance kind .received .beforeHook)
  rw [← Dispatch.beforeMessage_eq, hbefore] at hstage
  exact hstage.trans (World.setting_performAll_congr (w.setting_note _) _)

theorem earlyEffects_of_refused
    (hbefore : Dispatch.beforeMessage hooks kind m session (w.advance kind .received .beforeHook) =
      (.error e, w₁)) :
    earlyEffects hooks kind m session processor w =
      Dispatch.beforeEffects hooks kind m (·.identity session)
        (w.advance kind .received .beforeHook) := by
  simp [earlyEffects, hbefore]

theorem earlyEffects_of_applied
    (hbefore : Dispatch.beforeMessage hooks kind m session (w.advance kind .received .beforeHook) =
      (.ok b, w₁)) :
    earlyEffects hooks kind m session processor w =
      Dispatch.beforeEffects hooks kind m (·.identity session)
        (w.advance kind .received .beforeHook) ++ (processor b w₁).effects := by
  simp [earlyEffects, hbefore]

theorem setting_of_process {answer : Except Error Envelope}
    (hbefore : Dispatch.beforeMessage hooks kind m session (w.advance kind .received .beforeHook) =
      (.ok b, w₁))
    (hprocess : process processor b w₁ = (answer, w₂)) :
    w₂.setting = (w.performAll (earlyEffects hooks kind m session processor w)).setting := by
  have hprocessed := setting_process processor w₁ b
  rw [hprocess] at hprocessed
  rw [earlyEffects_of_applied hbefore]
  exact World.setting_performAll_trans (setting_of_before hbefore) hprocessed

theorem lateEffects_of_refused (mode : AfterMode)
    (hbefore : Dispatch.beforeMessage hooks kind m session (w.advance kind .received .beforeHook) =
      (.error e, w₁)) : lateEffects hooks kind m session processor w mode = [] := by
  simp [lateEffects, turn?, hbefore]

theorem lateEffects_of_failed (mode : AfterMode)
    (hbefore : Dispatch.beforeMessage hooks kind m session (w.advance kind .received .beforeHook) =
      (.ok b, w₁))
    (hprocess : process processor b w₁ = (.error e, w₂)) :
    lateEffects hooks kind m session processor w mode = [] := by
  simp [lateEffects, turn?, hbefore, hprocess]

theorem lateEffects_of_done (mode : AfterMode)
    (hbefore : Dispatch.beforeMessage hooks kind m session (w.advance kind .received .beforeHook) =
      (.ok b, w₁))
    (hprocess : process processor b w₁ = (.ok p, w₂)) :
    lateEffects hooks kind m session processor w mode =
      stageEffects hooks kind p session
        ((w₂.advance kind .beforeHook .processed).advance kind .processed .afterHook) mode := by
  simp [lateEffects, turn?, hbefore, hprocess]

end

/-- A run leaves the setting that its effects make, early and late ones in order. -/
theorem setting_run (mode : AfterMode) :
    (run hooks mode kind m session processor w).2.setting =
      (w.performAll (earlyEffects hooks kind m session processor w ++
        lateEffects hooks kind m session processor w mode)).setting := by
  cases run_route hooks mode kind m session processor w with
  | refused hbefore hrun =>
    simp only [hrun, World.setting_advance, lateEffects_of_refused mode hbefore, List.append_nil,
      earlyEffects_of_refused hbefore]
    exact setting_of_before hbefore
  | failed hbefore hprocess hrun =>
    simp only [hrun, World.setting_advance, lateEffects_of_failed mode hbefore hprocess,
      List.append_nil]
    exact setting_of_process hbefore hprocess
  | done hbefore hprocess hrun =>
    simp only [hrun, World.setting_advance, lateEffects_of_done mode hbefore hprocess]
    refine World.setting_performAll_trans ?_ (setting_afterStage hooks kind _ session _ mode)
    simp only [World.setting_advance]
    exact setting_of_process hbefore hprocess

end Pipeline

/-! ## Operations -/

/-- The effects of a dispatch. -/
def Entry.effects (hooks : Hooks H) (w : World H) : Entry H → List (Effect H)
  | .before kind m session => Dispatch.beforeEffects hooks kind m (·.identity session) w
  | .after kind m session => Dispatch.afterEffects hooks kind m (·.identity session) w
  | .spawn .. => []
  | .beforeAuthentication m => Dispatch.beforeEffects hooks m.kind m (fun _ => .anonymous) w
  | .afterAuthentication m who => Dispatch.afterEffects hooks m.kind m (fun _ => who) w
  | .pipeline mode kind m session processor =>
    Pipeline.earlyEffects hooks kind m session processor w ++
      Pipeline.lateEffects hooks kind m session processor w mode

theorem Entry.setting_run (hooks : Hooks H) (w : World H) (e : Entry H) :
    (e.run hooks w).2.setting = (w.performAll (e.effects hooks w)).setting := by
  cases e with
  | before kind m session =>
    rw [run, Dispatch.beforeMessage_eq]
    exact Dispatch.setting_hookBefore ..
  | after kind m session =>
    rw [run, Dispatch.afterMessage_eq]
    exact Dispatch.setting_hookAfter ..
  | spawn kind m session => exact Dispatch.setting_spawnAfter ..
  | beforeAuthentication m =>
    rw [run, Dispatch.beforeAuthentication_eq]
    exact Dispatch.setting_hookBefore ..
  | afterAuthentication m who =>
    rw [run, Dispatch.afterAuthentication_eq]
    exact Dispatch.setting_hookAfter ..
  | pipeline mode kind m session processor => exact Pipeline.setting_run ..

namespace Operation

def effects (hooks : Hooks H) (w : World H) : Operation H → List (Effect H)
  | .entry e => e.effects hooks w
  | .task place =>
    match w.tasks[place]? with
    | none => []
    | some t =>
      ((hooks t.hook).after t.identity t.message.encode
        { w with tasks := w.tasks.eraseIdx place }).effects
  | .effect e => [e]

/-- The effects of operations in order. -/
def ledger (hooks : Hooks H) : List (Operation H) → World H → List (Effect H)
  | [], _ => []
  | op :: ops, w => op.effects hooks w ++ ledger hooks ops (op.run hooks w)

variable (hooks : Hooks H) (w : World H)

theorem setting_run (op : Operation H) :
    (op.run hooks w).setting = (w.performAll (op.effects hooks w)).setting := by
  cases op with
  | entry e => exact e.setting_run hooks w
  | task place =>
    cases h : w.tasks[place]? with
    | none =>
      rw [run_task_of_none h]
      simp only [effects, h]
      rfl
    | some t =>
      have hsetting : World.setting { w with tasks := w.tasks.eraseIdx place } = w.setting := rfl
      rw [run_task_of_some h, Dispatch.runTask, Dispatch.setting_runAfter]
      simp only [effects, h]
      exact World.setting_performAll_congr hsetting _
  | effect e => rfl

/-- **Registry and sessions are what the ledger says**: whatever is run, they are left as if the
effects of the ledger had been carried out alone. -/
theorem setting_runAll (ops : List (Operation H)) :
    (runAll hooks ops w).setting = (w.performAll (ledger hooks ops w)).setting := by
  induction ops generalizing w with
  | nil => rfl
  | cons op ops ih =>
    rw [runAll_cons, ledger]
    exact World.setting_performAll_trans (setting_run hooks w op) (ih _)

end Operation

end MessageHooks
