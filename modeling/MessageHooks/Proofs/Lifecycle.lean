import MessageHooks.Proofs.Operation
import MessageHooks.Proofs.Shows
import MessageHooks.Script

/-!
# The life of a message

A pipeline tells the life of its message in lines of the log, each a transition from one lifecycle
state to another. What else happens to a runtime tells nothing of this kind.

* `transitionsIn`: the transitions among records.
* `Tells w w' ts`, `Quiet w w'`: from `w` to `w'` these transitions were told, or none. Hooks,
  processors, tasks and all operations but pipelines are quiet.
* `Transition.Path`: legal transitions from received to a final state.
* `Life`: what the records of one pipeline tell, given how it ended.
* `Pipeline.run_tells_life`: every pipeline tells a life, and nothing that follows adds to it.
-/

namespace MessageHooks

variable {H : Type}

/-! ## Transitions -/

/-- A line that tells the life of a message of some kind. -/
structure Transition where
  kind : String
  source : LifecycleState
  target : LifecycleState
  deriving DecidableEq

/-- The transition that a record tells. -/
def Record.transition? : Record H → Option Transition
  | .event (.advanced kind source target) => some ⟨kind, source, target⟩
  | _ => none

/-- The transitions among records. -/
def transitionsIn (rs : List (Record H)) : List Transition := rs.filterMap Record.transition?

theorem transitionsIn_append (rs rs' : List (Record H)) :
    transitionsIn (rs ++ rs') = transitionsIn rs ++ transitionsIn rs' :=
  List.filterMap_append

theorem plain_transition? : Plain (Record.transition? : Record H → Option Transition) where
  lookup _ _ _ := rfl
  processed _ _ := rfl
  line e he := by
    cases e with
    | advanced kind source target => exact absurd rfl (he kind source target)
    | _ => rfl

/-! ## What steps tell -/

/-- From `w` to `w'` the history grew by records that tell these transitions. -/
abbrev Tells (w w' : World H) (ts : List Transition) : Prop := Shows Record.transition? w w' ts

/-- From `w` to `w'` nothing was told. -/
abbrev Quiet (w w' : World H) : Prop := Tells w w' []

theorem tells_advance (w : World H) (kind : String) (source target : LifecycleState) :
    Tells w (w.advance kind source target) [⟨kind, source, target⟩] :=
  ⟨_, rfl, rfl⟩

theorem Quiet.of_calls {w w' : World H} {cs : List (Call H)}
    (h : Shows Record.transition? w w' (cs.filterMap fun c => Record.transition? (.call c))) :
    Quiet w w' := by
  have hnone : (cs.filterMap fun c => Record.transition? (.call c)) = [] :=
    List.filterMap_eq_nil_iff.2 fun _ _ => rfl
  rw [hnone] at h
  exact h

section

variable (hooks : Hooks H) (w : World H)

theorem quiet_hookBefore {π : Type} [Family π] (kind : String) (m : Message π)
    (who : Sessions → Identity) : Quiet w (Dispatch.hookBefore hooks kind m who w).2 := by
  obtain ⟨cs, hcs, -⟩ := plain_transition?.hookBefore w hooks kind m who
  exact .of_calls hcs

theorem quiet_hookAfter {π : Type} [Family π] (kind : String) (m : Message π)
    (who : Sessions → Identity) : Quiet w (Dispatch.hookAfter hooks kind m who w) := by
  obtain ⟨cs, hcs, -⟩ := plain_transition?.hookAfter w hooks kind m who
  exact .of_calls hcs

theorem quiet_afterStage (mode : AfterMode) (kind : String) (m : Envelope)
    (session : Option String) : Quiet w (Pipeline.afterStage hooks mode kind m session w) := by
  obtain ⟨cs, hcs, -⟩ := plain_transition?.afterStage w hooks kind m session mode
  exact .of_calls hcs

/-- A message goes through a pipeline. -/
def Entry.IsPipeline : Entry H → Prop
  | .pipeline .. => True
  | _ => False

def Operation.IsPipeline : Operation H → Prop
  | .entry e => e.IsPipeline
  | _ => False

variable {hooks}

theorem Entry.quiet {e : Entry H} (he : ¬ e.IsPipeline) : Quiet w (e.run hooks w).2 := by
  cases e with
  | before kind m session =>
    rw [Entry.run, Dispatch.beforeMessage_eq]
    exact quiet_hookBefore hooks w kind m _
  | after kind m session =>
    rw [Entry.run, Dispatch.afterMessage_eq]
    exact quiet_hookAfter hooks w kind m (·.identity session)
  | spawn kind m session => exact plain_transition?.spawnAfter w kind m session
  | beforeAuthentication m =>
    rw [Entry.run, Dispatch.beforeAuthentication_eq]
    exact quiet_hookBefore hooks w m.kind m _
  | afterAuthentication m who =>
    rw [Entry.run, Dispatch.afterAuthentication_eq]
    exact quiet_hookAfter hooks w m.kind m fun _ => who
  | pipeline => exact absurd trivial he

theorem Operation.quiet {op : Operation H} (hop : ¬ op.IsPipeline) : Quiet w (op.run hooks w) := by
  cases op with
  | entry e => exact e.quiet w hop
  | task place =>
    cases h : w.tasks[place]? with
    | none =>
      rw [Operation.run_task_of_none h]
      exact Shows.refl w
    | some t =>
      rw [Operation.run_task_of_some h]
      exact Quiet.of_calls (plain_transition?.runAfter { w with tasks := w.tasks.eraseIdx place }
        hooks t.hook t.kind t.message t.identity)
  | effect e => exact plain_transition?.performAll w [e]

theorem Operation.quiet_runAll {ops : List (Operation H)} (hops : ∀ op ∈ ops, ¬ op.IsPipeline) :
    Quiet w (runAll hooks ops w) := by
  induction ops generalizing w with
  | nil => exact Shows.refl w
  | cons op ops ih =>
    rw [List.forall_mem_cons] at hops
    exact (op.quiet w hops.1).trans (ih _ hops.2)

end

/-! ## Paths -/

namespace Transition

/-- The transitions of a message of some kind, from received to a final state. -/
structure Path (kind : String) (final : LifecycleState) (ts : List Transition) : Prop where
  /-- The message is received first. -/
  starts : ts.head?.map source = some .received
  /-- Each transition starts where the one before it ended. -/
  linked : ts.IsChain fun s t => t.source = s.target
  /-- All transitions are legal. -/
  legal : ∀ t ∈ ts, t.source.canAdvance t.target = true
  /-- All transitions bear the kind. -/
  named : ∀ t ∈ ts, t.kind = kind
  /-- The last transition ends in the final state, and no other ends where nothing follows. -/
  ends : ∃ earlier last, ts = earlier ++ [last] ∧ last.target = final ∧
    final.isTerminal = true ∧ ∀ t ∈ earlier, t.target.isTerminal = false

/-- The transitions of a message that is rejected. -/
def refusal (kind : String) : List Transition :=
  [⟨kind, .received, .beforeHook⟩, ⟨kind, .beforeHook, .rejected⟩]

/-- The transitions of a message that is done. -/
def passage (kind : String) : List Transition :=
  [⟨kind, .received, .beforeHook⟩, ⟨kind, .beforeHook, .processed⟩, ⟨kind, .processed, .afterHook⟩,
    ⟨kind, .afterHook, .done⟩]

theorem path_refusal (kind : String) : Path kind .rejected (refusal kind) where
  starts := rfl
  linked := by simp [refusal]
  legal := by simp [refusal, LifecycleState.canAdvance]
  named := by simp [refusal]
  ends := ⟨(refusal kind).dropLast, ⟨kind, .beforeHook, .rejected⟩, rfl, rfl, rfl, by
    simp [refusal, LifecycleState.isTerminal]⟩

theorem path_passage (kind : String) : Path kind .done (passage kind) where
  starts := rfl
  linked := by simp [passage]
  legal := by simp [passage, LifecycleState.canAdvance]
  named := by simp [passage]
  ends := ⟨(passage kind).dropLast, ⟨kind, .afterHook, .done⟩, rfl, rfl, rfl, by
    simp [passage, LifecycleState.isTerminal]⟩

end Transition

/-! ## Lives -/

/-- The records of a pipeline that was given `kind` and ended in `o` tell the life of a message. -/
structure Life (kind : String) (o : Outcome) (rs : List (Record H)) : Prop where
  /-- The transitions lead from received to the outcome. -/
  path : Transition.Path kind o.state (transitionsIn rs)
  /-- Before the message counts as processed, the processor has answered with a message. -/
  processed : ∀ earlier later,
    rs = earlier ++ .event (.advanced kind .beforeHook .processed) :: later →
      ∃ given p, .processed given (.ok p) ∈ earlier

theorem mem_transitionsIn {rs : List (Record H)} {kind : String} {source target : LifecycleState}
    (h : .event (.advanced kind source target) ∈ rs) :
    ⟨kind, source, target⟩ ∈ transitionsIn rs :=
  List.mem_filterMap.2 ⟨_, h, rfl⟩

/-- Of two elements of a list the one comes first that has the other behind it only. -/
theorem mem_of_append_cons_eq {α : Type} {before behind earlier later : List α} {x y : α}
    (h : before ++ x :: behind = earlier ++ y :: later) (hbefore : y ∉ before) (hne : y ≠ x) :
    x ∈ earlier := by
  obtain ⟨mid, rfl, hmid⟩ | ⟨mid, rfl, hmid⟩ := List.append_eq_append_iff.1 h
  · cases mid with
    | nil => exact absurd (List.cons.inj hmid).1.symm hne
    | cons z mid =>
      obtain rfl := (List.cons.inj hmid).1
      simp
  · cases mid with
    | nil => exact absurd (List.cons.inj hmid).1 hne
    | cons z mid =>
      obtain rfl := (List.cons.inj hmid).1
      simp at hbefore

theorem Life.of_refusal {kind : String} {e : Error} {rs : List (Record H)}
    (h : transitionsIn rs = Transition.refusal kind) : Life kind (.rejected e) rs where
  path := by
    rw [h]
    exact Transition.path_refusal kind
  processed earlier later hrs := by
    have hmem : ⟨kind, .beforeHook, .processed⟩ ∈ transitionsIn rs :=
      mem_transitionsIn (by rw [hrs]; simp)
    rw [h] at hmem
    simp [Transition.refusal] at hmem

/-- The processing of a message that is done stands between its first transition and the others. -/
theorem Life.of_passage {kind : String} {b p : Envelope} {before behind : List (Record H)}
    (hbefore : transitionsIn before = [⟨kind, .received, .beforeHook⟩])
    (hbehind : transitionsIn behind = (Transition.passage kind).tail) :
    Life kind (.done p) (before ++ .processed b (.ok p) :: behind) where
  path := by
    have h : transitionsIn (before ++ .processed b (.ok p) :: behind) =
        Transition.passage kind := by
      rw [transitionsIn_append, hbefore]
      exact congrArg (_ :: ·) hbehind
    rw [h]
    exact Transition.path_passage kind
  processed earlier later hrs := by
    refine ⟨b, p, mem_of_append_cons_eq hrs (fun hmem => ?_) nofun⟩
    have htold := mem_transitionsIn hmem
    rw [hbefore] at htold
    simp at htold

/-! ## Pipelines -/

namespace Pipeline

variable (hooks : Hooks H) (mode : AfterMode) (kind : String) (m : Envelope)
  (session : Option String) (processor : Processor H) (w : World H)

theorem life_run : ∃ rs,
    (run hooks mode kind m session processor w).2.history = w.history ++ rs ∧
    Life kind (run hooks mode kind m session processor w).1 rs := by
  have hfirst : Tells w (Dispatch.beforeMessage hooks kind m session
      (w.advance kind .received .beforeHook)).2 [⟨kind, .received, .beforeHook⟩] := by
    rw [Dispatch.beforeMessage_eq]
    exact (tells_advance ..).trans (quiet_hookBefore ..)
  cases run_route hooks mode kind m session processor w with
  | refused hbefore hrun =>
    rw [hbefore] at hfirst
    obtain ⟨rs, hrs, htold⟩ := hfirst.trans (tells_advance _ kind .beforeHook .rejected)
    rw [hrun]
    exact ⟨rs, hrs, .of_refusal htold⟩
  | @failed b e w₁ w₂ hbefore hprocess hrun =>
    rw [hbefore] at hfirst
    have hquiet := plain_transition?.process w₁ b processor
    rw [hprocess] at hquiet
    have hnote := plain_transition?.note_processed w₁ b (processor b w₁).answer
    obtain ⟨rs, hrs, htold⟩ := (hfirst.trans (hnote.trans hquiet)).trans
      (tells_advance _ kind .beforeHook .rejected)
    rw [hrun]
    exact ⟨rs, hrs, .of_refusal htold⟩
  | @done b p w₁ w₂ hbefore hprocess hrun =>
    rw [hbefore] at hfirst
    have hquiet := plain_transition?.process w₁ b processor
    have hanswer : (processor b w₁).answer = .ok p := congrArg Prod.fst hprocess
    rw [hprocess, hanswer] at hquiet
    obtain ⟨before, hhistory, hbefore⟩ := hfirst
    obtain ⟨behind, hlater, hbehind⟩ := (((hquiet.trans
      (tells_advance _ kind .beforeHook .processed)).trans
      (tells_advance _ kind .processed .afterHook)).trans
      (quiet_afterStage hooks _ mode kind p session)).trans (tells_advance _ kind .afterHook .done)
    rw [hrun]
    refine ⟨before ++ .processed b (.ok p) :: behind, ?_, .of_passage hbefore hbehind⟩
    rw [hlater, World.history_note, hhistory]
    simp

/-- **Every pipeline tells a life**, in every state and with whatever hooks and processor: a chain
of legal transitions from received to its outcome, none of which fails the check of its step. Until
another pipeline is run nothing is added to it, by tasks that wait or by anything else. -/
theorem run_tells_life :
    (trip hooks mode kind m session processor w).1.legal = true ∧ ∃ rs,
    (run hooks mode kind m session processor w).2.history = w.history ++ rs ∧
    Life kind (run hooks mode kind m session processor w).1 rs ∧
    ∀ ops : List (Operation H), (∀ op ∈ ops, ¬ op.IsPipeline) →
      Quiet (run hooks mode kind m session processor w).2
        (Operation.runAll hooks ops (run hooks mode kind m session processor w).2) := by
  obtain ⟨rs, hrs, hlife⟩ := life_run hooks mode kind m session processor w
  exact ⟨(tracker_trip hooks mode kind m session processor w).1, rs, hrs, hlife,
    fun _ hops => Operation.quiet_runAll _ hops⟩

/-- The task of a detached pipeline runs when its message is done, and tells nothing. -/
theorem task_of_done_message_is_quiet :
    let hooks : Hooks Bool := fun fails =>
      Script.observerHook (if fails then [.fail (.script "late")] else [])
    let m : Envelope := .ofPayload (.rpc ⟨"id", "payload"⟩)
    let processor : Processor Bool := (ProcessorScript.mk none none none (some "c")).toProcessor
    let w : World Bool := .fresh (Registry.empty.register .after "Rpc" true) .empty
    let r := run hooks .detached "Rpc" m none processor w
    let ops : List (Operation Bool) := [.effect (.unbind .after "Rpc"), .task 0]
    r.2.tasks.length = 1 ∧ (∀ op ∈ ops, ¬ op.IsPipeline) ∧
      ∃ rs, r.2.history = rs ∧ Life "Rpc" (.done (m.withCid "c")) rs ∧
        Quiet r.2 (Operation.runAll hooks ops r.2) := by
  intro hooks m processor w r ops
  have hops : ∀ op ∈ ops, ¬ op.IsPipeline := by simp [ops, Operation.IsPipeline]
  obtain ⟨-, rs, hrs, hlife, hquiet⟩ := run_tells_life hooks .detached "Rpc" m none processor w
  exact ⟨by decide +kernel, hops, rs, hrs, hlife, hquiet ops hops⟩

end Pipeline

end MessageHooks
