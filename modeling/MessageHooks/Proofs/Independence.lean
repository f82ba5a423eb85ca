import Mathlib.Data.List.Perm.Basic
import MessageHooks.Proofs.Accounting
import MessageHooks.Script

/-!
# Independent dispatches

Where hooks and processors answer from what they are given, and leave registry and sessions as they
are, dispatches do not notice each other: only metrics and log join them, and these only add up. So
dispatches may come in any order, and their tasks may run at any later time.

* `SteadyReaction`, `Hook.Steady`, `Operation.Steady`: such hooks, processors and operations.
* `Lockstep`: two steps that add the same to the states they are taken in.
* `Entry.lockstep`: a dispatch does the same in all states of one setting.
* `World.eventual`: the history that is due once all waiting tasks have run. A dispatch adds its own
  part to it (`eventual_run`), whatever came before (`eventual_runAll`).
* `any_order_agrees`: two schedules of the same dispatches.
-/

namespace MessageHooks

variable {H : Type}

/-! ## Steady reactions -/

/-- In a setting, reactions that do not depend on anything else of the state, but for the time they
take, and whose effects, taken together, leave the setting as it is. -/
structure SteadyReaction {α : Type} (s : Registry H × Sessions) (f : World H → Reaction H α) :
    Prop where
  answer : ∀ {w v : World H}, w.setting = s → v.setting = s → (f w).answer = (f v).answer
  effects : ∀ {w v : World H}, w.setting = s → v.setting = s → (f w).effects = (f v).effects
  keeps : ∀ {w : World H}, w.setting = s → (w.performAll (f w).effects).setting = s

/-- A hook that answers from whom it acts for and its input, and changes neither registry nor
sessions. -/
structure Hook.Steady (s : Registry H × Sessions) (h : Hook H) : Prop where
  before : ∀ who input, SteadyReaction s (h.before who input)
  after : ∀ who input, SteadyReaction s (h.after who input)

/-- A dispatch whose processor, if it has one, answers from the envelope, and changes neither
registry nor sessions. -/
def Entry.Steady (s : Registry H × Sessions) : Entry H → Prop
  | .pipeline _ _ _ _ processor => ∀ m, SteadyReaction s (processor m)
  | _ => True

/-- A steady dispatch, or the run of a task. -/
def Operation.Steady (s : Registry H × Sessions) : Operation H → Prop
  | .entry e => e.Steady s
  | .task _ => True
  | .effect _ => False

/-! ## Scripts -/

/-- Actions on registry and sessions. -/
def Action.isEffect : Action H → Bool
  | .effect _ => true
  | _ => false

/-- A script has the effects it was written with. -/
theorem Script.effects_run_of_pure {actions : List (Action H)}
    (h : ∀ a ∈ actions, a.isEffect = false) (object : Json.Object) (effects : List (Effect H)) :
    (run actions object effects).2 = effects := by
  induction actions generalizing object with
  | nil => rfl
  | cons a actions ih =>
    have hrest := ih fun a' ha' => h a' (List.mem_cons_of_mem a ha')
    have ha := h a List.mem_cons_self
    cases a with
    | set | delete | upper | replace => exact hrest _
    | fail => rfl
    | rejectIf path value message =>
      unfold run
      split
      · rfl
      · exact hrest _
    | effect e => cases ha

theorem steadyReaction_of_pure {α : Type} (s : Registry H × Sessions) {r : Reaction H α}
    (h : r.effects = []) : SteadyReaction s fun _ : World H => r where
  answer _ _ := rfl
  effects _ _ := rfl
  keeps hw := by rw [h]; exact hw

theorem Script.steady_observerHook (s : Registry H × Sessions) {actions : List (Action H)}
    (h : ∀ a ∈ actions, a.isEffect = false) : (observerHook actions).Steady s where
  before _ input := steadyReaction_of_pure s (effects_run_of_pure h input [])
  after _ input := steadyReaction_of_pure s (effects_run_of_pure h input [])

/-! ## Steps -/

/-- From `w` to `w'` the setting stayed, and records and tasks were added. -/
structure Adds (w w' : World H) (rs : List (Record H)) (ts : List (AfterTask H)) : Prop where
  setting : w'.setting = w.setting
  history : w'.history = w.history ++ rs
  tasks : w'.tasks = w.tasks ++ ts

theorem Adds.refl (w : World H) : Adds w w [] [] :=
  ⟨rfl, (List.append_nil _).symm, (List.append_nil _).symm⟩

theorem Adds.trans {w w₁ w₂ : World H} {rs rs' : List (Record H)} {ts ts' : List (AfterTask H)}
    (h : Adds w w₁ rs ts) (h' : Adds w₁ w₂ rs' ts') : Adds w w₂ (rs ++ rs') (ts ++ ts') where
  setting := h'.setting.trans h.setting
  history := by rw [h'.history, h.history, List.append_assoc]
  tasks := by rw [h'.tasks, h.tasks, List.append_assoc]

/-- The steps from `w` to `w'` and from `v` to `v'` add the same. -/
def Lockstep (w w' v v' : World H) : Prop := ∃ rs ts, Adds w w' rs ts ∧ Adds v v' rs ts

theorem Lockstep.trans {w w₁ w₂ v v₁ v₂ : World H} (h : Lockstep w w₁ v v₁)
    (h' : Lockstep w₁ w₂ v₁ v₂) : Lockstep w w₂ v v₂ := by
  obtain ⟨rs, ts, hw, hv⟩ := h
  obtain ⟨rs', ts', hw', hv'⟩ := h'
  exact ⟨rs ++ rs', ts ++ ts', hw.trans hw', hv.trans hv'⟩

section

variable {s : Registry H × Sessions} {w w' v v' : World H}

theorem Lockstep.setting_left (h : Lockstep w w' v v') (hw : w.setting = s) : w'.setting = s := by
  obtain ⟨rs, ts, hadds, -⟩ := h
  exact hadds.setting.trans hw

theorem Lockstep.setting_right (h : Lockstep w w' v v') (hv : v.setting = s) : v'.setting = s := by
  obtain ⟨rs, ts, -, hadds⟩ := h
  exact hadds.setting.trans hv

theorem lockstep_note (w v : World H) (r : Record H) : Lockstep w (w.note r) v (v.note r) :=
  ⟨[r], [], ⟨rfl, rfl, (List.append_nil _).symm⟩, ⟨rfl, rfl, (List.append_nil _).symm⟩⟩

theorem lockstep_advance (w v : World H) (kind : String) (source target : LifecycleState) :
    Lockstep w (w.advance kind source target) v (v.advance kind source target) :=
  lockstep_note w v _

theorem lockstep_lookup (hw : w.setting = s) (hv : v.setting = s) (phase : Phase) (kind : String) :
    Lockstep w (w.lookup phase kind).2 v (v.lookup phase kind).2 := by
  have hregistry : v.registry = w.registry := congrArg Prod.fst (hv.trans hw.symm)
  unfold World.lookup
  rw [hregistry]
  exact lockstep_note w v _

/-! ## Hooks and processors -/

/-- A step is in lockstep with itself if a steady reaction decides what it adds to the history, and
carries out its effects. -/
theorem SteadyReaction.lockstep {α : Type} {f : World H → Reaction H α} (hf : SteadyReaction s f)
    (hw : w.setting = s) (hv : v.setting = s) (step : World H → World H)
    (records : α → List (Effect H) → List (Record H))
    (hsetting : ∀ u, (step u).setting = (u.performAll (f u).effects).setting)
    (hhistory : ∀ u, (step u).history = u.history ++ records (f u).answer (f u).effects)
    (htasks : ∀ u, (step u).tasks = u.tasks) : Lockstep w (step w) v (step v) := by
  have hadds {u : World H} (hu : u.setting = s) :
      Adds u (step u) (records (f u).answer (f u).effects) [] :=
    ⟨(hsetting u).trans ((hf.keeps hu).trans hu.symm), hhistory u,
      (htasks u).trans (List.append_nil _).symm⟩
  refine ⟨_, [], hadds hw, ?_⟩
  rw [hf.answer hw hv, hf.effects hw hv]
  exact hadds hv

variable {π : Type} [Family π] {hooks : Hooks H} {hook : H}

theorem lockstep_runBefore (hhook : (hooks hook).Steady s) (hw : w.setting = s)
    (hv : v.setting = s) (kind : String) (m : Message π) (who : Identity) :
    (Dispatch.runBefore hooks hook kind m who w).1 =
      (Dispatch.runBefore hooks hook kind m who v).1 ∧
    Lockstep w (Dispatch.runBefore hooks hook kind m who w).2 v
      (Dispatch.runBefore hooks hook kind m who v).2 := by
  have hsteady := hhook.before who m.encode
  constructor
  · rw [Dispatch.runBefore_eq, Dispatch.runBefore_eq]
    exact congrArg (Dispatch.beforeResult m) (hsteady.answer hw hv)
  · exact hsteady.lockstep hw hv (fun u => (Dispatch.runBefore hooks hook kind m who u).2)
      (fun answer effects => .call ⟨.before, kind, hook, who, m.encode, answer.map some⟩ ::
        (effects.flatMap Effect.lines ++ [Record.event (Dispatch.beforeLine kind m who answer)]))
      (Dispatch.setting_runBefore hooks hook kind m who)
      (Dispatch.history_runBefore hooks hook kind m who)
      (Dispatch.tasks_runBefore hooks hook kind m who)

theorem lockstep_runAfter (hhook : (hooks hook).Steady s) (hw : w.setting = s)
    (hv : v.setting = s) (kind : String) (m : Message π) (who : Identity) :
    Lockstep w (Dispatch.runAfter hooks hook kind m who w) v
      (Dispatch.runAfter hooks hook kind m who v) :=
  (hhook.after who m.encode).lockstep hw hv (Dispatch.runAfter hooks hook kind m who)
    (fun answer effects => .call ⟨.after, kind, hook, who, m.encode, answer.map fun _ => none⟩ ::
      (effects.flatMap Effect.lines ++ [Record.event (Dispatch.afterLine kind who answer)]))
    (Dispatch.setting_runAfter hooks hook kind m who)
    (Dispatch.history_runAfter hooks hook kind m who)
    (Dispatch.tasks_runAfter hooks hook kind m who)

theorem lockstep_process {processor : Processor H} {m : Envelope}
    (hsteady : SteadyReaction s (processor m)) (hw : w.setting = s) (hv : v.setting = s) :
    (Pipeline.process processor m w).1 = (Pipeline.process processor m v).1 ∧
    Lockstep w (Pipeline.process processor m w).2 v (Pipeline.process processor m v).2 := by
  refine ⟨hsteady.answer hw hv, hsteady.lockstep hw hv (fun u => (Pipeline.process processor m u).2)
    (fun answer effects => .processed m answer :: effects.flatMap Effect.lines) ?_ ?_ ?_⟩
  · exact fun u => World.setting_performAll_congr (u.setting_note _) _
  · exact fun u => by simp [Pipeline.process]
  · exact Pipeline.tasks_process processor m

/-! ## Dispatches -/

variable (hhooks : ∀ h, (hooks h).Steady s) (hw : w.setting = s) (hv : v.setting = s)
include hhooks hw hv

theorem lockstep_hookBefore (kind : String) (m : Message π) (who : Sessions → Identity) :
    (Dispatch.hookBefore hooks kind m who w).1 = (Dispatch.hookBefore hooks kind m who v).1 ∧
    Lockstep w (Dispatch.hookBefore hooks kind m who w).2 v
      (Dispatch.hookBefore hooks kind m who v).2 := by
  have hsetting := hv.trans hw.symm
  have hlook := lockstep_lookup hw hv .before kind
  refine Dispatch.hookBefore_related (R := fun w' v' => Lockstep w w' v v') m
    (congrArg (·.1.lookup .before kind) hsetting) (congrArg (who ·.2) hsetting) hlook
    fun hook _ => ?_
  obtain ⟨hanswer, hrun⟩ := lockstep_runBefore (hhooks hook) (hlook.setting_left hw)
    (hlook.setting_right hv) kind m (who w.sessions)
  exact ⟨hanswer, hlook.trans hrun⟩

theorem lockstep_hookAfter (kind : String) (m : Message π) (who : Sessions → Identity) :
    Lockstep w (Dispatch.hookAfter hooks kind m who w) v
      (Dispatch.hookAfter hooks kind m who v) := by
  have hsetting := hv.trans hw.symm
  have hlook := lockstep_lookup hw hv .after kind
  exact Dispatch.hookAfter_related (R := fun w' v' => Lockstep w w' v v') m
    (congrArg (·.1.lookup .after kind) hsetting) (congrArg (who ·.2) hsetting) hlook
    fun hook _ => hlook.trans (lockstep_runAfter (hhooks hook) (hlook.setting_left hw)
      (hlook.setting_right hv) kind m (who w.sessions))

omit hhooks in
theorem lockstep_spawnAfter (kind : String) (m : Envelope) (session : Option String) :
    (Dispatch.spawnAfter kind m session w).1 = (Dispatch.spawnAfter kind m session v).1 ∧
    Lockstep w (Dispatch.spawnAfter kind m session w).2 v
      (Dispatch.spawnAfter kind m session v).2 := by
  have hsetting := hv.trans hw.symm
  have hidentity : v.sessions.identity session = w.sessions.identity session :=
    congrArg (·.2.identity session) hsetting
  have hlook := lockstep_lookup hw hv .after kind
  refine Dispatch.spawnAfter_related (R := fun w' v' => Lockstep w w' v v') m session
    (congrArg (·.1.lookup .after kind) hsetting) hlook fun hook _ => hlook.trans
      ⟨[], [⟨hook, kind, m, w.sessions.identity session⟩], ⟨rfl, (List.append_nil _).symm, rfl⟩,
        rfl, (List.append_nil _).symm, ?_⟩
  rw [← hidentity]
  rfl

theorem lockstep_afterStage (mode : AfterMode) (kind : String) (m : Envelope)
    (session : Option String) :
    Lockstep w (Pipeline.afterStage hooks mode kind m session w) v
      (Pipeline.afterStage hooks mode kind m session v) := by
  cases mode with
  | inline =>
    rw [Pipeline.afterStage, Pipeline.afterStage, Dispatch.afterMessage_eq,
      Dispatch.afterMessage_eq]
    exact lockstep_hookAfter hhooks hw hv kind m (·.identity session)
  | detached => exact (lockstep_spawnAfter hw hv kind m session).2

theorem lockstep_pipeline {processor : Processor H} (hsteady : ∀ m, SteadyReaction s (processor m))
    (mode : AfterMode) (kind : String) (m : Envelope) (session : Option String) :
    (Pipeline.run hooks mode kind m session processor w).1 =
      (Pipeline.run hooks mode kind m session processor v).1 ∧
    Lockstep w (Pipeline.run hooks mode kind m session processor w).2 v
      (Pipeline.run hooks mode kind m session processor v).2 := by
  have hstart : Lockstep w w v v := ⟨[], [], .refl w, .refl v⟩
  refine Pipeline.run_related (R := fun w' v' => Lockstep w w' v v')
    (fun source target _ _ h => h.trans (lockstep_advance _ _ kind source target)) ?_ ?_ ?_ hstart
  · intro w' v' h
    obtain ⟨hanswer, hbefore⟩ := lockstep_hookBefore hhooks (h.setting_left hw)
      (h.setting_right hv) kind m (·.identity session)
    rw [← Dispatch.beforeMessage_eq, ← Dispatch.beforeMessage_eq] at hanswer hbefore
    exact ⟨hanswer, h.trans hbefore⟩
  · intro b w' v' h
    obtain ⟨hanswer, hprocess⟩ :=
      lockstep_process (hsteady b) (h.setting_left hw) (h.setting_right hv)
    exact ⟨hanswer, h.trans hprocess⟩
  · intro p w' v' h
    exact h.trans (lockstep_afterStage hhooks (h.setting_left hw) (h.setting_right hv) mode kind p
      session)

/-- **A steady dispatch does the same in all states of one setting**: it returns the same, and adds
the same records and tasks. -/
theorem Entry.lockstep {e : Entry H} (he : e.Steady s) :
    (e.run hooks w).1 = (e.run hooks v).1 ∧ Lockstep w (e.run hooks w).2 v (e.run hooks v).2 := by
  cases e with
  | before kind m session =>
    rw [Entry.run, Entry.run, Dispatch.beforeMessage_eq, Dispatch.beforeMessage_eq]
    obtain ⟨hanswer, hstep⟩ := lockstep_hookBefore hhooks hw hv kind m (·.identity session)
    exact ⟨congrArg Answer.envelope hanswer, hstep⟩
  | after kind m session =>
    rw [Entry.run, Entry.run, Dispatch.afterMessage_eq, Dispatch.afterMessage_eq]
    exact ⟨rfl, lockstep_hookAfter hhooks hw hv kind m (·.identity session)⟩
  | spawn kind m session =>
    obtain ⟨hanswer, hstep⟩ := lockstep_spawnAfter hw hv kind m session
    exact ⟨congrArg Answer.spawned hanswer, hstep⟩
  | beforeAuthentication m =>
    rw [Entry.run, Entry.run, Dispatch.beforeAuthentication_eq, Dispatch.beforeAuthentication_eq]
    obtain ⟨hanswer, hstep⟩ := lockstep_hookBefore hhooks hw hv m.kind m fun _ => .anonymous
    exact ⟨congrArg Answer.request hanswer, hstep⟩
  | afterAuthentication m who =>
    rw [Entry.run, Entry.run, Dispatch.afterAuthentication_eq, Dispatch.afterAuthentication_eq]
    exact ⟨rfl, lockstep_hookAfter hhooks hw hv m.kind m fun _ => who⟩
  | pipeline mode kind m session processor =>
    obtain ⟨hanswer, hstep⟩ := lockstep_pipeline hhooks hw hv he mode kind m session
    exact ⟨congrArg Answer.outcome hanswer, hstep⟩

end

/-! ## What is due -/

/-- The dispatches among operations, in order. -/
def Operation.entries (ops : List (Operation H)) : List (Entry H) :=
  ops.filterMap fun
    | .entry e => some e
    | _ => none

/-- What the run of a task adds to the history, in a setting. -/
def AfterTask.records (hooks : Hooks H) (s : Registry H × Sessions) (t : AfterTask H) :
    List (Record H) :=
  (Dispatch.runTask hooks t (.fresh s.1 s.2)).history

/-- The history that is due: what has happened, and what is left to the waiting tasks. -/
def World.eventual (hooks : Hooks H) (s : Registry H × Sessions) (w : World H) : List (Record H) :=
  w.history ++ w.tasks.flatMap (AfterTask.records hooks s)

/-- What a dispatch adds to the history that is due, in a setting. -/
def Entry.records (hooks : Hooks H) (s : Registry H × Sessions) (e : Entry H) : List (Record H) :=
  (e.run hooks (.fresh s.1 s.2)).2.eventual hooks s

section

variable {hooks : Hooks H} {s : Registry H × Sessions} {w : World H}

theorem run_task_of_steady (hhooks : ∀ h, (hooks h).Steady s) (hw : w.setting = s) {i : Nat}
    {t : AfterTask H} (ht : w.tasks[i]? = some t) :
    (Operation.run hooks w (.task i)).setting = s ∧
      (Operation.run hooks w (.task i)).history = w.history ++ t.records hooks s := by
  have hfresh : (World.fresh s.1 s.2).setting = s := rfl
  have htaken : ({ w with tasks := w.tasks.eraseIdx i } : World H).setting = s := hw
  obtain ⟨rs, ts, halone, hadds⟩ :=
    lockstep_runAfter (hhooks t.hook) hfresh htaken t.kind t.message t.identity
  have hrecords : t.records hooks s = rs := halone.history
  rw [Operation.run_task_of_some ht, hrecords]
  exact ⟨hadds.setting.trans htaken, hadds.history⟩

/-- A dispatch adds its own part to what is due, wherever it comes. -/
theorem eventual_run_entry (hhooks : ∀ h, (hooks h).Steady s) (hw : w.setting = s) {e : Entry H}
    (he : e.Steady s) :
    ((e.run hooks w).2.eventual hooks s).Perm (w.eventual hooks s ++ e.records hooks s) := by
  have hfresh : (World.fresh s.1 s.2).setting = s := rfl
  obtain ⟨-, rs, ts, halone, hadds⟩ := Entry.lockstep hhooks hfresh hw he
  have hrecords : e.records hooks s = rs ++ ts.flatMap (AfterTask.records hooks s) := by
    rw [Entry.records, World.eventual, halone.history, halone.tasks]
    rfl
  rw [hrecords, World.eventual, World.eventual, hadds.history, hadds.tasks, List.flatMap_append,
    List.append_assoc, List.append_assoc]
  exact (List.perm_append_comm_assoc _ _ _).append_left w.history

/-- The run of a task leaves what is due as it is. -/
theorem eventual_run_task (hhooks : ∀ h, (hooks h).Steady s) (hw : w.setting = s) (i : Nat) :
    ((Operation.run hooks w (.task i)).eventual hooks s).Perm (w.eventual hooks s) := by
  cases h : w.tasks[i]? with
  | none => rw [Operation.run_task_of_none h]
  | some t =>
    obtain ⟨hlt, rfl⟩ := List.getElem?_eq_some_iff.1 h
    have hperm := (List.getElem_cons_eraseIdx_perm hlt).flatMap_right (AfterTask.records hooks s)
    rw [World.eventual, Operation.tasks_run_task, (run_task_of_steady hhooks hw h).2,
      World.eventual, List.append_assoc]
    exact hperm.append_left w.history

theorem setting_run_of_steady (hhooks : ∀ h, (hooks h).Steady s) (hw : w.setting = s)
    {op : Operation H} (hop : op.Steady s) : (op.run hooks w).setting = s := by
  cases op with
  | entry e => exact (Entry.lockstep hhooks hw hw hop).2.setting_left hw
  | task i =>
    cases h : w.tasks[i]? with
    | none => rw [Operation.run_task_of_none h, hw]
    | some t => exact (run_task_of_steady hhooks hw h).1
  | effect e => exact hop.elim

theorem setting_runAll_of_steady (hhooks : ∀ h, (hooks h).Steady s) {ops : List (Operation H)}
    (hops : ∀ op ∈ ops, op.Steady s) (hw : w.setting = s) :
    (Operation.runAll hooks ops w).setting = s := by
  induction ops generalizing w with
  | nil => exact hw
  | cons op ops ih =>
    have hop := setting_run_of_steady hhooks hw (hops op List.mem_cons_self)
    exact ih (fun op' h => hops op' (List.mem_cons_of_mem op h)) hop

/-- What is due after operations is what was due before, and the parts of the dispatches. -/
theorem eventual_runAll (hhooks : ∀ h, (hooks h).Steady s) {ops : List (Operation H)}
    (hops : ∀ op ∈ ops, op.Steady s) (hw : w.setting = s) :
    ((Operation.runAll hooks ops w).eventual hooks s).Perm
      (w.eventual hooks s ++ (Operation.entries ops).flatMap (Entry.records hooks s)) := by
  induction ops generalizing w with
  | nil =>
    rw [Operation.entries, List.filterMap_nil, List.flatMap_nil, List.append_nil]
    rfl
  | cons op ops ih =>
    have hop := hops op List.mem_cons_self
    have hrest := ih (fun op' h => hops op' (List.mem_cons_of_mem op h))
      (setting_run_of_steady hhooks hw hop)
    rw [Operation.runAll_cons]
    refine hrest.trans ?_
    cases op with
    | entry e =>
      have hentries : Operation.entries (.entry e :: ops) = e :: Operation.entries ops := rfl
      rw [hentries, List.flatMap_cons, ← List.append_assoc]
      exact (eventual_run_entry hhooks hw hop).append_right _
    | task i => exact (eventual_run_task hhooks hw i).append_right _
    | effect e => exact hop.elim

end

/-! ## Schedules -/

/-- Dispatches in some order, each task at some later time: all operations are steady, and in the
end no task waits. -/
structure Schedule (hooks : Hooks H) (w : World H) (ops : List (Operation H)) : Prop where
  steady : ∀ op ∈ ops, op.Steady w.setting
  settled : (Operation.runAll hooks ops w).tasks = []

/-- In the course of operations, one of them is carried out in the state `v`. -/
def Operation.Meets (hooks : Hooks H) (w : World H) (ops : List (Operation H)) (op : Operation H)
    (v : World H) : Prop :=
  ∃ earlier later, ops = earlier ++ op :: later ∧ v = Operation.runAll hooks earlier w

/-- Two orders of operations come to the same. -/
structure Interchangeable (hooks : Hooks H) (w : World H) (ops ops' : List (Operation H)) :
    Prop where
  /-- A dispatch returns the same, and adds the same records, its calls among them, and the same
  task. -/
  dispatches : ∀ e v v', Operation.Meets hooks w ops (.entry e) v →
    Operation.Meets hooks w ops' (.entry e) v' →
    (e.run hooks v).1 = (e.run hooks v').1 ∧ Lockstep v (e.run hooks v).2 v' (e.run hooks v').2
  /-- A task that is run in both adds the same records, its call among them. -/
  tasks : ∀ t i i' v v', Operation.Meets hooks w ops (.task i) v →
    Operation.Meets hooks w ops' (.task i') v' → v.tasks[i]? = some t → v'.tasks[i']? = some t →
    ∃ rs, (Operation.run hooks v (.task i)).history = v.history ++ rs ∧
      (Operation.run hooks v' (.task i')).history = v'.history ++ rs
  /-- In the end the counters are the same, and the histogram's counts. -/
  invocations : ∀ labels,
    (Operation.runAll hooks ops w).metrics.invocations.get labels =
      (Operation.runAll hooks ops' w).metrics.invocations.get labels
  times : ∀ labels,
    (Operation.runAll hooks ops w).metrics.durations.count labels =
      (Operation.runAll hooks ops' w).metrics.durations.count labels
  failures : ∀ labels,
    (Operation.runAll hooks ops w).metrics.afterFailures.get labels =
      (Operation.runAll hooks ops' w).metrics.afterFailures.get labels
  /-- The histories have the same records, and so the same log lines, in some order. -/
  history : (Operation.runAll hooks ops w).history.Perm (Operation.runAll hooks ops' w).history

section

variable {hooks : Hooks H} {w v : World H} {ops ops' : List (Operation H)}

theorem Schedule.setting_of_meets (hhooks : ∀ h, (hooks h).Steady w.setting)
    (h : Schedule hooks w ops) {op : Operation H} (hv : Operation.Meets hooks w ops op v) :
    v.setting = w.setting ∧ op.Steady w.setting := by
  obtain ⟨earlier, later, rfl, rfl⟩ := hv
  have hearlier : ∀ op' ∈ earlier, op'.Steady w.setting := fun op' hop' =>
    h.steady op' (List.mem_append_left _ hop')
  exact ⟨setting_runAll_of_steady hhooks hearlier rfl,
    h.steady op (List.mem_append_right _ List.mem_cons_self)⟩

/-- With no task left, all that was due has happened. -/
theorem Schedule.history_perm (hhooks : ∀ h, (hooks h).Steady w.setting)
    (h : Schedule hooks w ops) :
    (Operation.runAll hooks ops w).history.Perm (w.eventual hooks w.setting ++
      (Operation.entries ops).flatMap (Entry.records hooks w.setting)) := by
  have hdue := eventual_runAll hhooks h.steady (w := w) rfl
  rw [World.eventual, h.settled, List.flatMap_nil, List.append_nil] at hdue
  exact hdue

/-- Counts depend on the calls made, not on their order. -/
theorem Counted.eq_of_perm {m n n' : Metrics} {cs cs' : List (Call H)} (h : Counted m cs n)
    (h' : Counted m cs' n') (hperm : cs.Perm cs') (labels : Labels) :
    n.invocations.get labels = n'.invocations.get labels ∧
      n.durations.count labels = n'.durations.count labels ∧
      n.afterFailures.get labels = n'.afterFailures.get labels := by
  rw [h.invocations, h'.invocations, h.durations, h'.durations, h.failures, h'.failures,
    hperm.countP_eq, hperm.countP_eq, hperm.countP_eq]
  exact ⟨rfl, rfl, rfl⟩

/-- **Independent dispatches may come in any order.** Two schedules of the same dispatches from one
state, with steady hooks and processors, come to the same. -/
theorem any_order_agrees (hhooks : ∀ h, (hooks h).Steady w.setting) (h : Schedule hooks w ops)
    (h' : Schedule hooks w ops') (hperm : (Operation.entries ops).Perm (Operation.entries ops')) :
    Interchangeable hooks w ops ops' := by
  -- either schedule adds the records of all dispatches to the history that is due
  have hhistory : (Operation.runAll hooks ops w).history.Perm
      (Operation.runAll hooks ops' w).history :=
    (h.history_perm hhooks).trans
      (((hperm.flatMap_right _).append_left _).trans (h'.history_perm hhooks).symm)
  obtain ⟨rs, hrs⟩ := tallies_runAll hooks ops w
  obtain ⟨rs', hrs'⟩ := tallies_runAll hooks ops' w
  have hcalls : (callsIn rs).Perm (callsIn rs') := by
    rw [hrs.history, hrs'.history, List.perm_append_left_iff] at hhistory
    exact hhistory.filterMap _
  have hcounts := hrs.counted.eq_of_perm hrs'.counted hcalls
  refine ⟨?_, ?_, fun l => (hcounts l).1, fun l => (hcounts l).2.1, fun l => (hcounts l).2.2,
    hhistory⟩
  · intro e v v' hv hv'
    obtain ⟨hsetting, hsteady⟩ := h.setting_of_meets hhooks hv
    obtain ⟨hsetting', -⟩ := h'.setting_of_meets hhooks hv'
    exact Entry.lockstep hhooks hsetting hsetting' hsteady
  · intro t i i' v v' hv hv' ht ht'
    obtain ⟨hsetting, -⟩ := h.setting_of_meets hhooks hv
    obtain ⟨hsetting', -⟩ := h'.setting_of_meets hhooks hv'
    exact ⟨t.records hooks w.setting, (run_task_of_steady hhooks hsetting ht).2,
      (run_task_of_steady hhooks hsetting' ht').2⟩

end

/-- A detached pipeline and a refused request, in either order, and the task before or after the
request. -/
theorem pipeline_and_request_in_any_order :
    let hooks : Hooks Bool := fun refuses =>
      Script.observerHook (if refuses then [.fail (.rejected "no")] else [])
    let w : World Bool :=
      .fresh ((Registry.empty.register .before "Device" true).register .after "Rpc" false)
        (SortedMap.empty.insert "s" ⟨.nil, "ann", 7⟩)
    let pipeline : Entry Bool := .pipeline .detached "Rpc" (.ofPayload (.rpc ⟨"id", "payload"⟩))
      (some "s") (ProcessorScript.mk none none none (some "c")).toProcessor
    let request : Entry Bool := .beforeAuthentication (.ofPayload (.device "d"))
    let ops : List (Operation Bool) := [.entry pipeline, .task 0, .entry request]
    let ops' : List (Operation Bool) := [.entry request, .entry pipeline, .task 0]
    (∀ h, (hooks h).Steady w.setting) ∧ Schedule hooks w ops ∧ Schedule hooks w ops' ∧
      (Operation.entries ops).Perm (Operation.entries ops') ∧
      (Operation.runAll hooks ops w).history.Perm (Operation.runAll hooks ops' w).history := by
  intro hooks w pipeline request ops ops'
  have hhooks : ∀ h, (hooks h).Steady w.setting := fun refuses =>
    Script.steady_observerHook _ (by cases refuses <;> simp [Action.isEffect])
  have hpipeline : Operation.Steady w.setting (.entry pipeline) := fun m =>
    steadyReaction_of_pure w.setting rfl
  have hrequest : Operation.Steady w.setting (.entry request) := trivial
  have htask : Operation.Steady w.setting (.task 0) := trivial
  have h : Schedule hooks w ops := by
    refine ⟨?_, rfl⟩
    rw [List.forall_mem_cons, List.forall_mem_cons, List.forall_mem_singleton]
    exact ⟨hpipeline, htask, hrequest⟩
  have h' : Schedule hooks w ops' := by
    refine ⟨?_, rfl⟩
    rw [List.forall_mem_cons, List.forall_mem_cons, List.forall_mem_singleton]
    exact ⟨hrequest, hpipeline, htask⟩
  have hperm : (Operation.entries ops).Perm (Operation.entries ops') := .swap _ _ _
  exact ⟨hhooks, h, h', hperm, (any_order_agrees hhooks h h' hperm).history⟩

end MessageHooks
