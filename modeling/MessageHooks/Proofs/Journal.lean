import MessageHooks.Proofs.Ledger
import MessageHooks.Proofs.Registry
import MessageHooks.Proofs.Shows
import MessageHooks.Script

/-!
# The journal of the registry

The registry of a runtime has its commands from all sides: dispatches look hooks up, and hooks and
processors bind hooks and take bindings away while a dispatch is under way. The journal of a run
lists these commands in the order in which they are given, and they are answered as by a registry
that has nothing else around it.

* `Entry.commands`, `Operation.commands`, `Operation.journal`: the commands of a dispatch, of an
  operation, and of a run.
* `Journaled w w' cs`: from `w` to `w'` the registry was given the commands `cs`. It became what
  they make of it, and the history shows their answers.
* `Journaled.runAll`: a run gives the commands of its journal.
* `registry_is_partial_map`: whatever asks it, the registry is a partial map.
-/

namespace MessageHooks

open Registry (Command)

variable {H : Type}

/-! ## Commands -/

/-- The command that an effect gives to the registry. -/
def Effect.command? : Effect H → Option (Command H)
  | .bind phase kind hook => some (.register phase kind hook)
  | .unbind phase kind => some (.unregister phase kind)
  | .rename .. => none

namespace Dispatch

variable {π : Type} [Family π] (hooks : Hooks H) (kind : String) (m : Message π)
  (who : Sessions → Identity) (w : World H)

/-- The commands of a before stage: the lookup, and those of the hook that is found. -/
def beforeCommands : List (Command H) :=
  .lookup .before kind :: (beforeEffects hooks kind m who w).filterMap Effect.command?

/-- The commands of an after stage: the lookup, and those of the hook that is found. -/
def afterCommands : List (Command H) :=
  .lookup .after kind :: (afterEffects hooks kind m who w).filterMap Effect.command?

end Dispatch

namespace Pipeline

variable (hooks : Hooks H) (kind : String) (m : Envelope) (session : Option String)
  (processor : Processor H) (w : World H)

/-- The commands of a run until its after stage begins, or until it ends without one. -/
def earlyCommands : List (Command H) :=
  .lookup .before kind ::
    (earlyEffects hooks kind m session processor w).filterMap Effect.command?

/-- The commands of the after stage of a run, if it comes to it. -/
def lateCommands (mode : AfterMode) : List (Command H) :=
  match turn? hooks kind m session processor w with
  | none => []
  | some (p, w₃) =>
    .lookup .after kind :: (stageEffects hooks kind p session w₃ mode).filterMap Effect.command?

section

variable {hooks kind m session processor w} {b p : Envelope} {e : Error} {w₁ w₂ : World H}

theorem earlyCommands_of_refused
    (hbefore : Dispatch.beforeMessage hooks kind m session (w.advance kind .received .beforeHook) =
      (.error e, w₁)) :
    earlyCommands hooks kind m session processor w =
      Dispatch.beforeCommands hooks kind m (·.identity session)
        (w.advance kind .received .beforeHook) := by
  rw [earlyCommands, earlyEffects_of_refused hbefore, Dispatch.beforeCommands]

theorem earlyCommands_of_applied
    (hbefore : Dispatch.beforeMessage hooks kind m session (w.advance kind .received .beforeHook) =
      (.ok b, w₁)) :
    earlyCommands hooks kind m session processor w =
      Dispatch.beforeCommands hooks kind m (·.identity session)
        (w.advance kind .received .beforeHook) ++
          (processor b w₁).effects.filterMap Effect.command? := by
  rw [earlyCommands, earlyEffects_of_applied hbefore, List.filterMap_append,
    Dispatch.beforeCommands, List.cons_append]

theorem lateCommands_of_refused (mode : AfterMode)
    (hbefore : Dispatch.beforeMessage hooks kind m session (w.advance kind .received .beforeHook) =
      (.error e, w₁)) : lateCommands hooks kind m session processor w mode = [] := by
  simp [lateCommands, turn?, hbefore]

theorem lateCommands_of_failed (mode : AfterMode)
    (hbefore : Dispatch.beforeMessage hooks kind m session (w.advance kind .received .beforeHook) =
      (.ok b, w₁))
    (hprocess : process processor b w₁ = (.error e, w₂)) :
    lateCommands hooks kind m session processor w mode = [] := by
  simp [lateCommands, turn?, hbefore, hprocess]

theorem lateCommands_of_done (mode : AfterMode)
    (hbefore : Dispatch.beforeMessage hooks kind m session (w.advance kind .received .beforeHook) =
      (.ok b, w₁))
    (hprocess : process processor b w₁ = (.ok p, w₂)) :
    lateCommands hooks kind m session processor w mode =
      .lookup .after kind :: (stageEffects hooks kind p session
        ((w₂.advance kind .beforeHook .processed).advance kind .processed .afterHook)
        mode).filterMap Effect.command? := by
  simp [lateCommands, turn?, hbefore, hprocess]

end

end Pipeline

/-- The commands of a dispatch. -/
def Entry.commands (hooks : Hooks H) (w : World H) : Entry H → List (Command H)
  | .before kind m session => Dispatch.beforeCommands hooks kind m (·.identity session) w
  | .after kind m session => Dispatch.afterCommands hooks kind m (·.identity session) w
  | .spawn kind _ _ => [.lookup .after kind]
  | .beforeAuthentication m => Dispatch.beforeCommands hooks m.kind m (fun _ => .anonymous) w
  | .afterAuthentication m who => Dispatch.afterCommands hooks m.kind m (fun _ => who) w
  | .pipeline mode kind m session processor =>
    Pipeline.earlyCommands hooks kind m session processor w ++
      Pipeline.lateCommands hooks kind m session processor w mode

namespace Operation

variable (hooks : Hooks H)

/-- The commands of an operation. A task has its hook, and looks nothing up. -/
def commands (w : World H) : Operation H → List (Command H)
  | .entry e => e.commands hooks w
  | .task place => (effects hooks w (.task place)).filterMap Effect.command?
  | .effect e => e.command?.toList

/-- The commands of operations in order. -/
def journal : List (Operation H) → World H → List (Command H)
  | [], _ => []
  | op :: ops, w => op.commands hooks w ++ journal ops (op.run hooks w)

end Operation

/-! ## Records -/

/-- What the history shows of a command and its answer. To take a binding away, or to list them all,
leaves no record. -/
def Registry.record? : Command H × Registry.Answer H → Option (Record H)
  | (.lookup phase kind, .found o) => some (.lookup phase kind o.isSome)
  | (.register phase kind _, _) => some (.event (.hookRegistered phase kind))
  | (.registerBefore kind _, _) => some (.event (.hookRegistered .before kind))
  | (.registerAfter kind _, _) => some (.event (.hookRegistered .after kind))
  | _ => none

/-- The records of commands to the registry. -/
def Record.ofCommand? : Record H → Option (Record H)
  | .lookup phase kind found => some (.lookup phase kind found)
  | .event (.hookRegistered phase kind) => some (.event (.hookRegistered phase kind))
  | _ => none

/-- From `w` to `w'` the registry was given these commands: it became what they make of it, and the
history shows their answers. -/
structure Journaled (w w' : World H) (cs : List (Command H)) : Prop where
  registry : w'.registry = w.registry.after cs
  shown : Shows Record.ofCommand? w w' ((w.registry.transcript cs).filterMap Registry.record?)

namespace Journaled

variable {w w' w'' : World H} {cs cs' : List (Command H)}

theorem refl (w : World H) : Journaled w w [] := ⟨rfl, .refl w⟩

theorem trans (h : Journaled w w' cs) (h' : Journaled w' w'' cs') :
    Journaled w w'' (cs ++ cs') where
  registry := by rw [h'.registry, h.registry, Registry.after_append]
  shown := by
    rw [Registry.transcript_append, List.filterMap_append, ← h.registry]
    exact h.shown.trans h'.shown

theorem trans_nil (h : Journaled w w' cs) (h' : Journaled w' w'' []) : Journaled w w'' cs :=
  List.append_nil cs ▸ h.trans h'

theorem lookup (w : World H) (phase : Phase) (kind : String) :
    Journaled w (w.lookup phase kind).2 [.lookup phase kind] :=
  ⟨rfl, _, rfl, rfl⟩

theorem note (w : World H) {r : Record H} (h : r.ofCommand? = none) : Journaled w (w.note r) [] :=
  ⟨rfl, _, rfl, List.filterMap_cons_none h⟩

theorem withMetrics (w : World H) (metrics : Metrics) :
    Journaled w { w with metrics := metrics } [] :=
  ⟨rfl, .refl w⟩

theorem withTasks (w : World H) (tasks : List (AfterTask H)) :
    Journaled w { w with tasks := tasks } [] :=
  ⟨rfl, .refl w⟩

theorem advance (w : World H) (kind : String) (source target : LifecycleState) :
    Journaled w (w.advance kind source target) [] :=
  note w rfl

theorem perform (w : World H) (e : Effect H) : Journaled w (w.perform e) e.command?.toList := by
  cases e with
  | bind phase kind hook => exact ⟨rfl, _, rfl, rfl⟩
  | unbind | rename => exact ⟨rfl, .refl w⟩

theorem performAll (w : World H) (effects : List (Effect H)) :
    Journaled w (w.performAll effects) (effects.filterMap Effect.command?) := by
  induction effects generalizing w with
  | nil => exact refl w
  | cons e effects ih =>
    have hall := (perform w e).trans (ih (w.perform e))
    cases h : e.command? with
    | none =>
      rw [List.filterMap_cons_none h]
      rwa [h] at hall
    | some c =>
      rw [List.filterMap_cons_some h]
      rwa [h] at hall

/-! ## Hooks -/

section

variable {π : Type} [Family π] (hooks : Hooks H) (hook : H) (kind : String) (m : Message π)

theorem ofCommand?_beforeLine (who : Identity) (answer : Except CallbackFailure Json.Object) :
    (Record.event (Dispatch.beforeLine kind m who answer) : Record H).ofCommand? = none := by
  unfold Dispatch.beforeLine
  split
  · rfl
  · split <;> rfl

theorem ofCommand?_afterLine (who : Identity) (answer : Except CallbackFailure Unit) :
    (Record.event (Dispatch.afterLine kind who answer) : Record H).ofCommand? = none := by
  cases answer <;> rfl

theorem runBefore (who : Identity) (w : World H) :
    Journaled w (Dispatch.runBefore hooks hook kind m who w).2
      (((hooks hook).before who m.encode w).effects.filterMap Effect.command?) := by
  rw [Dispatch.runBefore_eq]
  have hcalled : Journaled w (w.note (.call (Dispatch.beforeCall hooks hook kind m who w))) [] :=
    note w rfl
  have hdone := hcalled.trans (performAll _ ((hooks hook).before who m.encode w).effects)
  exact (hdone.trans_nil (withMetrics _ _)).trans_nil (note _ (ofCommand?_beforeLine ..))

theorem runAfter (who : Identity) (w : World H) :
    Journaled w (Dispatch.runAfter hooks hook kind m who w)
      (((hooks hook).after who m.encode w).effects.filterMap Effect.command?) := by
  rw [Dispatch.runAfter_eq]
  have hcalled : Journaled w (w.note (.call (Dispatch.afterCall hooks hook kind m who w))) [] :=
    note w rfl
  have hdone := hcalled.trans (performAll _ ((hooks hook).after who m.encode w).effects)
  exact (hdone.trans_nil (withMetrics _ _)).trans_nil (note _ (ofCommand?_afterLine ..))

variable (who : Sessions → Identity)

theorem hookBefore (w : World H) : Journaled w (Dispatch.hookBefore hooks kind m who w).2
    (Dispatch.beforeCommands hooks kind m who w) := by
  have hlook := lookup w .before kind
  unfold Dispatch.beforeCommands Dispatch.beforeEffects
  cases h : w.registry.lookup .before kind with
  | none =>
    rw [Dispatch.hookBefore_of_none m who h]
    exact hlook
  | some hook =>
    rw [Dispatch.hookBefore_of_some m who h]
    exact hlook.trans (runBefore hooks hook kind m (who w.sessions) _)

theorem hookAfter (w : World H) : Journaled w (Dispatch.hookAfter hooks kind m who w)
    (Dispatch.afterCommands hooks kind m who w) := by
  have hlook := lookup w .after kind
  unfold Dispatch.afterCommands Dispatch.afterEffects
  cases h : w.registry.lookup .after kind with
  | none =>
    rw [Dispatch.hookAfter_of_none m who h]
    exact hlook
  | some hook =>
    rw [Dispatch.hookAfter_of_some m who h]
    exact hlook.trans (runAfter hooks hook kind m (who w.sessions) _)

end

/-! ## Pipelines -/

variable (hooks : Hooks H) (kind : String) (m : Envelope) (session : Option String)
  (processor : Processor H)

theorem spawnAfter (w : World H) :
    Journaled w (Dispatch.spawnAfter kind m session w).2 [.lookup .after kind] := by
  have hlook := lookup w .after kind
  cases h : w.registry.lookup .after kind with
  | none =>
    rw [Dispatch.spawnAfter_of_none m session h]
    exact hlook
  | some hook =>
    rw [Dispatch.spawnAfter_of_some m session h]
    exact hlook.trans_nil (withTasks _ _)

theorem process (w : World H) : Journaled w (Pipeline.process processor m w).2
    ((processor m w).effects.filterMap Effect.command?) :=
  (note w rfl).trans (performAll _ _)

theorem afterStage (mode : AfterMode) (w : World H) :
    Journaled w (Pipeline.afterStage hooks mode kind m session w)
      (.lookup .after kind ::
        (Pipeline.stageEffects hooks kind m session w mode).filterMap Effect.command?) := by
  cases mode with
  | inline =>
    rw [Pipeline.afterStage, Dispatch.afterMessage_eq]
    exact hookAfter hooks kind m _ w
  | detached => exact spawnAfter kind m session w

theorem pipeline (mode : AfterMode) (w : World H) :
    Journaled w (Pipeline.run hooks mode kind m session processor w).2
      (Pipeline.earlyCommands hooks kind m session processor w ++
        Pipeline.lateCommands hooks kind m session processor w mode) := by
  have hstart := advance w kind .received .beforeHook
  have hbefore := hstart.trans (hookBefore hooks kind m (·.identity session) _)
  rw [← Dispatch.beforeMessage_eq] at hbefore
  cases Pipeline.run_route hooks mode kind m session processor w with
  | refused hb hrun =>
    rw [hb] at hbefore
    rw [hrun, Pipeline.earlyCommands_of_refused hb, Pipeline.lateCommands_of_refused mode hb,
      List.append_nil]
    exact hbefore.trans_nil (advance ..)
  | @failed b e w₁ w₂ hb hp hrun =>
    rw [hb] at hbefore
    have hprocess := process b processor w₁
    rw [hp] at hprocess
    rw [hrun, Pipeline.earlyCommands_of_applied hb, Pipeline.lateCommands_of_failed mode hb hp,
      List.append_nil]
    exact (hbefore.trans hprocess).trans_nil (advance ..)
  | @done b p w₁ w₂ hb hp hrun =>
    rw [hb] at hbefore
    have hprocess := process b processor w₁
    rw [hp] at hprocess
    have hprocessed := (hbefore.trans hprocess).trans_nil (advance _ kind .beforeHook .processed)
    have hturn := hprocessed.trans_nil (advance _ kind .processed .afterHook)
    rw [hrun, Pipeline.earlyCommands_of_applied hb, Pipeline.lateCommands_of_done mode hb hp]
    exact (hturn.trans (afterStage hooks kind p session mode _)).trans_nil (advance ..)

/-! ## Runs -/

/-- **A dispatch gives the registry its commands**, and has their answers. -/
theorem entry (e : Entry H) (w : World H) : Journaled w (e.run hooks w).2 (e.commands hooks w) := by
  cases e with
  | before kind m session =>
    rw [Entry.run, Dispatch.beforeMessage_eq]
    exact hookBefore hooks kind m _ w
  | after kind m session =>
    rw [Entry.run, Dispatch.afterMessage_eq]
    exact hookAfter hooks kind m (·.identity session) w
  | spawn kind m session => exact spawnAfter kind m session w
  | beforeAuthentication m =>
    rw [Entry.run, Dispatch.beforeAuthentication_eq]
    exact hookBefore hooks m.kind m _ w
  | afterAuthentication m who =>
    rw [Entry.run, Dispatch.afterAuthentication_eq]
    exact hookAfter hooks m.kind m (fun _ => who) w
  | pipeline mode kind m session processor => exact pipeline hooks kind m session processor mode w

theorem operation (op : Operation H) (w : World H) :
    Journaled w (op.run hooks w) (op.commands hooks w) := by
  cases op with
  | entry e => exact entry hooks e w
  | task place =>
    cases h : w.tasks[place]? with
    | none =>
      rw [Operation.run_task_of_none h]
      simp only [Operation.commands, Operation.effects, h]
      exact refl w
    | some t =>
      rw [Operation.run_task_of_some h]
      simp only [Operation.commands, Operation.effects, h]
      exact (withTasks w _).trans (runAfter hooks t.hook t.kind t.message t.identity _)
  | effect e => exact perform w e

/-- **A run gives the registry the commands of its journal.** -/
theorem runAll (ops : List (Operation H)) (w : World H) :
    Journaled w (Operation.runAll hooks ops w) (Operation.journal hooks ops w) := by
  induction ops generalizing w with
  | nil => exact refl w
  | cons op ops ih => exact (operation hooks op w).trans (ih _)

end Journaled

/-! ## The registry of a runtime -/

open Registry in
/-- **The registry is a partial map from phase and kind to hook.** Whatever commands it is given,
each has the answer that is due after those before it: under a key that hook is found which was
bound there last, unless it was taken away. A command leaves all other keys alone. Whatever the
order in which tables list their kinds, the bound pairs are listed in one.

Nor does it matter who gives the commands, and when. The registry that a runtime leaves is what the
commands make of it that dispatches, hooks, processors and others gave in turn, with whatever hooks
asked of it in between; and the history shows the answers that are due. -/
theorem registry_is_partial_map (hooks : Hooks H) :
    (∀ (cs : List (Command H)) earlier c a later,
      empty.transcript cs = earlier ++ (c, a) :: later → Due (earlier.map Prod.fst) c a) ∧
    (∀ (r : Registry H) (c : Command H) phase kind,
      (∀ o, c.write? ≠ some ((phase, kind), o)) →
        (r.answer c).2.lookup phase kind = r.lookup phase kind) ∧
    (∀ (r : Registry H) (l : r.Listing), l.sorted = r.registered) ∧
    ∀ (setup : List (Command H)) (sessions : Sessions) (ops : List (Operation H)),
      let w := World.fresh (empty.after setup) sessions
      let w' := Operation.runAll hooks ops w
      let journal := Operation.journal hooks ops w
      (∀ cs : List (Command H), cs.filter (·.write?.isSome) =
          (setup ++ journal).filter (·.write?.isSome) → w'.registry = empty.after cs) ∧
      ∃ answered, empty.transcript (setup ++ journal) = empty.transcript setup ++ answered ∧
        w'.history.filterMap Record.ofCommand? = answered.filterMap record? := by
  refine ⟨fun cs earlier c a later h => due_of_transcript h,
    fun r c phase kind h => r.lookup_answer_of_ne h, fun r l => l.sorted_eq,
    fun setup sessions ops => ?_⟩
  intro w w' journal
  have hrun : Journaled w w' journal := .runAll hooks ops w
  refine ⟨fun cs hcs => ?_, w.registry.transcript journal, transcript_append _ _ _, ?_⟩
  · rw [hrun.registry, ← after_filter_writes _ cs, hcs, after_filter_writes, after_append]
    rfl
  · exact hrun.shown.filterMap_history

open Registry in
/-- A hook that takes its own binding away, and binds another hook for later, is seen to have done
both. Its kind in other letters is another kind. -/
theorem hook_rebinds_amid_its_run :
    let hooks : Hooks Bool := fun _ =>
      Script.observerHook [.effect (.unbind .before "Rpc"), .effect (.bind .after "Rpc" false)]
    let setup : List (Command Bool) := [.registerBefore "Rpc" true, .registerAfter "rpc" true]
    let m : Envelope := .ofPayload (.rpc ⟨"id", "payload"⟩)
    let v := Operation.runAll hooks [.entry (.before "Rpc" m none)]
      (.fresh (empty.after setup) .empty)
    let cs : List (Command Bool) := setup ++ [.unregister .before "Rpc",
      .register .after "Rpc" false, .lookup .after "rpc"]
    v.registry = empty.after cs ∧
      Due (cs.take 4) (.lookup .after "rpc") (.found (some true)) ∧
      (v.registry.answer (.unregister .after "RPC")).2.lookup .after "Rpc" =
        v.registry.lookup .after "Rpc" := by
  intro hooks setup m v cs
  obtain ⟨hdue, hframe, -, hrun⟩ := registry_is_partial_map hooks
  have hwrites : cs.filter (·.write?.isSome) =
      (setup ++ Operation.journal hooks [.entry (.before "Rpc" m none)]
        (.fresh (empty.after setup) .empty)).filter (·.write?.isSome) := rfl
  have htranscript : empty.transcript cs = empty.transcript (cs.take 4) ++
      [(.lookup .after "rpc", .found (some true))] := rfl
  refine ⟨(hrun setup .empty [.entry (.before "Rpc" m none)]).1 cs hwrites,
    hdue cs _ _ _ [] htranscript, hframe v.registry _ .after "Rpc" fun o hwrite => ?_⟩
  have hkind : "RPC" = "Rpc" := congrArg (·.2) (Prod.mk.inj (Option.some.inj hwrite)).1
  exact absurd hkind (by decide)

end MessageHooks
