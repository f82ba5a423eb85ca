import Mathlib.Logic.Relation
import MessageHooks.Proofs.HookRun
import MessageHooks.Proofs.Message.Recognition
import MessageHooks.Proofs.Pipeline

/-!
# Operations on a runtime

What can happen to a runtime from outside: a dispatch through one of its entries, the run of a task
that waits, and a change to registry or sessions. A run is a list of operations, and tasks may run
in it in any order, at any later time, or never.

* `Entry`, `Operation`: the entries and the operations, with what they return.
* `Move`: what a dispatch does between two points at which anything is decided.
* `Entry.moves`: every dispatch is a chain of moves, so what each move keeps, every dispatch keeps.
-/

namespace MessageHooks

variable {H : Type}

/-! ## Entries -/

/-- A way into the dispatcher, with all it is given. -/
inductive Entry (H : Type) where
  | before (kind : String) (m : Envelope) (session : Option String)
  | after (kind : String) (m : Envelope) (session : Option String)
  | spawn (kind : String) (m : Envelope) (session : Option String)
  | beforeAuthentication (m : AuthRequest)
  | afterAuthentication (m : AuthRequest) (who : Identity)
  | pipeline (mode : AfterMode) (kind : String) (m : Envelope) (session : Option String)
    (processor : Processor H)

/-- What a dispatch returns. -/
inductive Answer where
  | nothing
  | envelope (result : Except Error Envelope)
  | request (result : Except Error AuthRequest)
  | spawned (made : Bool)
  | outcome (o : Outcome)

def Entry.run (hooks : Hooks H) (w : World H) : Entry H → Answer × World H
  | .before kind m session =>
    let r := Dispatch.beforeMessage hooks kind m session w
    (.envelope r.1, r.2)
  | .after kind m session => (.nothing, Dispatch.afterMessage hooks kind m session w)
  | .spawn kind m session =>
    let r := Dispatch.spawnAfter kind m session w
    (.spawned r.1, r.2)
  | .beforeAuthentication m =>
    let r := Dispatch.beforeAuthentication hooks m w
    (.request r.1, r.2)
  | .afterAuthentication m who => (.nothing, Dispatch.afterAuthentication hooks m who w)
  | .pipeline mode kind m session processor =>
    let r := Pipeline.run hooks mode kind m session processor w
    (.outcome r.1, r.2)

/-! ## Operations -/

/-- One operation on a runtime. A task is named by its place among those that wait. -/
inductive Operation (H : Type) where
  | entry (e : Entry H)
  | task (place : Nat)
  | effect (e : Effect H)

namespace Operation

variable (hooks : Hooks H)

/-- Carry out an operation. A place at which no task waits means nothing. -/
def run (w : World H) : Operation H → World H
  | .entry e => (e.run hooks w).2
  | .task place =>
    match w.tasks[place]? with
    | none => w
    | some t => Dispatch.runTask hooks t { w with tasks := w.tasks.eraseIdx place }
  | .effect e => w.perform e

def runAll (ops : List (Operation H)) (w : World H) : World H := ops.foldl (run hooks) w

variable {hooks} {w : World H}

@[simp] theorem runAll_nil : runAll hooks [] w = w := rfl

@[simp] theorem runAll_cons (op : Operation H) (ops : List (Operation H)) :
    runAll hooks (op :: ops) w = runAll hooks ops (op.run hooks w) := rfl

theorem run_task_of_none {place : Nat} (h : w.tasks[place]? = none) :
    run hooks w (.task place) = w := by
  simp [run, h]

theorem run_task_of_some {place : Nat} {t : AfterTask H} (h : w.tasks[place]? = some t) :
    run hooks w (.task place) =
      Dispatch.runTask hooks t { w with tasks := w.tasks.eraseIdx place } := by
  simp [run, h]

theorem tasks_run_task (w : World H) (i : Nat) :
    (run hooks w (.task i)).tasks = w.tasks.eraseIdx i := by
  cases h : w.tasks[i]? with
  | none =>
    rw [run_task_of_none h]
    exact (List.eraseIdx_of_length_le (List.getElem?_eq_none_iff.1 h)).symm
  | some t =>
    rw [run_task_of_some h]
    exact Dispatch.tasks_runAfter hooks t.hook t.kind t.message t.identity _

end Operation

/-! ## Moves -/

/-- What a dispatch does between two points at which anything is decided. A hook runs, or becomes a
task, only where it is bound. -/
inductive Move (hooks : Hooks H) : World H → World H → Prop
  | looked {w : World H} (phase : Phase) (kind : String) : Move hooks w (w.lookup phase kind).2
  | ranBefore {w : World H} {π : Type} [Family π] [RecognizedFamily π] {hook : H} {kind : String}
    (m : Message π) (who : Identity) (h : w.registry.lookup .before kind = some hook) :
    Move hooks w (Dispatch.runBefore hooks hook kind m who w).2
  | ranAfter {w : World H} {π : Type} [Family π] {hook : H} {kind : String}
    (m : Message π) (who : Identity) (h : w.registry.lookup .after kind = some hook) :
    Move hooks w (Dispatch.runAfter hooks hook kind m who w)
  | processed {w : World H} (processor : Processor H) (m : Envelope) :
    Move hooks w (Pipeline.process processor m w).2
  | advanced {w : World H} (kind : String) (source target : LifecycleState) :
    Move hooks w (w.advance kind source target)
  | spawned {w : World H} {hook : H} {kind : String} (m : Envelope) (session : Option String)
    (h : w.registry.lookup .after kind = some hook) :
    Move hooks w { w with tasks := w.tasks ++ [⟨hook, kind, m, w.sessions.identity session⟩] }

/-- A chain of moves. -/
abbrev Moves (hooks : Hooks H) : World H → World H → Prop := Relation.ReflTransGen (Move hooks)

section

variable (hooks : Hooks H) (kind : String) (m : Envelope) (session : Option String) (w : World H)

theorem moves_hookBefore {π : Type} [Family π] [RecognizedFamily π] (m : Message π)
    (who : Sessions → Identity) : Moves hooks w (Dispatch.hookBefore hooks kind m who w).2 := by
  have hlook : Move hooks w (w.lookup .before kind).2 := .looked .before kind
  cases h : w.registry.lookup .before kind with
  | none =>
    rw [Dispatch.hookBefore_of_none m who h]
    exact .single hlook
  | some hook =>
    rw [Dispatch.hookBefore_of_some m who h]
    exact .tail (.single hlook) (.ranBefore m _ h)

theorem moves_hookAfter {π : Type} [Family π] (m : Message π) (who : Sessions → Identity) :
    Moves hooks w (Dispatch.hookAfter hooks kind m who w) := by
  have hlook : Move hooks w (w.lookup .after kind).2 := .looked .after kind
  cases h : w.registry.lookup .after kind with
  | none =>
    rw [Dispatch.hookAfter_of_none m who h]
    exact .single hlook
  | some hook =>
    rw [Dispatch.hookAfter_of_some m who h]
    exact .tail (.single hlook) (.ranAfter m _ h)

theorem moves_spawnAfter : Moves hooks w (Dispatch.spawnAfter kind m session w).2 := by
  have hlook : Move hooks w (w.lookup .after kind).2 := .looked .after kind
  cases h : w.registry.lookup .after kind with
  | none =>
    rw [Dispatch.spawnAfter_of_none m session h]
    exact .single hlook
  | some hook =>
    rw [Dispatch.spawnAfter_of_some m session h]
    exact .tail (.single hlook) (.spawned m session h)

theorem moves_afterStage (mode : AfterMode) :
    Moves hooks w (Pipeline.afterStage hooks mode kind m session w) := by
  cases mode with
  | inline =>
    rw [Pipeline.afterStage, Dispatch.afterMessage_eq]
    exact moves_hookAfter hooks kind w m _
  | detached => exact moves_spawnAfter hooks kind m session w

theorem moves_pipeline (mode : AfterMode) (processor : Processor H) :
    Moves hooks w (Pipeline.run hooks mode kind m session processor w).2 := by
  have hstart : Moves hooks w (w.advance kind .received .beforeHook) := .single (.advanced ..)
  have hbefore := hstart.trans (moves_hookBefore hooks kind _ m (·.identity session))
  rw [← Dispatch.beforeMessage_eq] at hbefore
  cases Pipeline.run_route hooks mode kind m session processor w with
  | refused hb hrun =>
    rw [hrun]
    rw [hb] at hbefore
    exact hbefore.tail (.advanced ..)
  | @failed b e w₁ w₂ hb hp hrun =>
    rw [hrun]
    rw [hb] at hbefore
    have hprocess := hbefore.tail (.processed processor b)
    rw [hp] at hprocess
    exact hprocess.tail (.advanced ..)
  | @done b p w₁ w₂ hb hp hrun =>
    rw [hrun]
    rw [hb] at hbefore
    have hprocess := hbefore.tail (.processed processor b)
    rw [hp] at hprocess
    have hturn := (hprocess.tail (.advanced kind .beforeHook .processed)).tail
      (.advanced kind .processed .afterHook)
    exact (hturn.trans (moves_afterStage hooks kind p session _ mode)).tail (.advanced ..)

end

/-- **Every dispatch is a chain of moves.** -/
theorem Entry.moves (hooks : Hooks H) (e : Entry H) (w : World H) :
    Moves hooks w (e.run hooks w).2 := by
  cases e with
  | before kind m session =>
    rw [Entry.run, Dispatch.beforeMessage_eq]
    exact moves_hookBefore hooks kind w m _
  | after kind m session =>
    rw [Entry.run, Dispatch.afterMessage_eq]
    exact moves_hookAfter hooks kind w m (·.identity session)
  | spawn kind m session => exact moves_spawnAfter hooks kind m session w
  | beforeAuthentication m =>
    rw [Entry.run, Dispatch.beforeAuthentication_eq]
    exact moves_hookBefore hooks m.kind w m _
  | afterAuthentication m who =>
    rw [Entry.run, Dispatch.afterAuthentication_eq]
    exact moves_hookAfter hooks m.kind w m fun _ => who
  | pipeline mode kind m session processor =>
    exact moves_pipeline hooks kind m session w mode processor

end MessageHooks
