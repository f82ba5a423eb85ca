import MessageHooks.Proofs.HookRun
import MessageHooks.Proofs.Pipeline

/-!
# What a dispatch shows

The history of a runtime is read with an eye for some of its records: for its calls, or for the
lifecycle of its messages. What the stages of a dispatch show is the same for every such reading.

* `Shows f w w' xs`: of the records added from `w` to `w'`, `f` tells `xs`.
* `Plain f`: a reading that tells of calls and of the lifecycle at most.
* `Plain.hookBefore`, `Plain.hookAfter`, `Plain.afterStage`: a stage shows calls of its own phase,
  made for whom the sessions tell when it begins; `Plain.spawnAfter`, `Plain.process`: these show
  nothing.
-/

namespace MessageHooks

variable {H : Type} {α : Type}

/-! ## Growth of the history -/

/-- From `w` to `w'` the history grew by records of which `f` tells `xs`. -/
def Shows (f : Record H → Option α) (w w' : World H) (xs : List α) : Prop :=
  ∃ rs, w'.history = w.history ++ rs ∧ rs.filterMap f = xs

namespace Shows

variable {f : Record H → Option α} {w w' w'' : World H} {xs xs' : List α}

theorem refl (w : World H) : Shows f w w [] := ⟨[], (List.append_nil _).symm, rfl⟩

theorem trans (h : Shows f w w' xs) (h' : Shows f w' w'' xs') : Shows f w w'' (xs ++ xs') := by
  obtain ⟨rs, hrs, htold⟩ := h
  obtain ⟨rs', hrs', htold'⟩ := h'
  refine ⟨rs ++ rs', by rw [hrs', hrs, List.append_assoc], ?_⟩
  rw [List.filterMap_append, htold, htold']

/-- What is told of the whole history grows by as much. -/
theorem filterMap_history (h : Shows f w w' xs) :
    w'.history.filterMap f = w.history.filterMap f ++ xs := by
  obtain ⟨rs, hrs, htold⟩ := h
  rw [hrs, List.filterMap_append, htold]

end Shows

/-! ## Plain readings -/

/-- A reading of the history that tells of calls and of the lifecycle at most. -/
structure Plain (f : Record H → Option α) : Prop where
  lookup : ∀ phase kind found, f (.lookup phase kind found) = none
  processed : ∀ given answer, f (.processed given answer) = none
  line : ∀ e : Event, (∀ kind source target, e ≠ .advanced kind source target) →
    f (.event e) = none

namespace Plain

variable {f : Record H → Option α} (hf : Plain f) (w : World H)
include hf

theorem note_lookup (phase : Phase) (kind : String) : Shows f w (w.lookup phase kind).2 [] :=
  ⟨_, rfl, List.filterMap_cons_none (hf.lookup _ _ _)⟩

theorem performAll (effects : List (Effect H)) : Shows f w (w.performAll effects) [] :=
  ⟨_, w.history_performAll effects, Effect.filterMap_lines (fun _ _ => hf.line _ nofun) effects⟩

theorem of_run {w w' : World H} {c : Call H} {effects : List (Effect H)} {line : Event}
    (hhistory : w'.history = w.history ++ (.call c :: (effects.flatMap Effect.lines ++
      [.event line])))
    (hline : ∀ kind source target, line ≠ .advanced kind source target) :
    Shows f w w' ([c].filterMap fun c => f (.call c)) := by
  have heffects := Effect.filterMap_lines (fun _ _ => hf.line _ nofun) effects
  refine ⟨_, hhistory, ?_⟩
  rw [List.filterMap_cons, List.filterMap_append, heffects,
    List.filterMap_cons_none (hf.line line hline)]
  rfl

/-! ## Hooks -/

section

variable {π : Type} [Family π] (hooks : Hooks H) (hook : H) (kind : String) (m : Message π)

theorem runBefore (who : Identity) : Shows f w (Dispatch.runBefore hooks hook kind m who w).2
    ([Dispatch.beforeCall hooks hook kind m who w].filterMap fun c => f (.call c)) :=
  hf.of_run (Dispatch.history_runBefore hooks hook kind m who w)
    (Dispatch.beforeLine_ne_advanced kind m who _)

theorem runAfter (who : Identity) : Shows f w (Dispatch.runAfter hooks hook kind m who w)
    ([Dispatch.afterCall hooks hook kind m who w].filterMap fun c => f (.call c)) :=
  hf.of_run (Dispatch.history_runAfter hooks hook kind m who w)
    (Dispatch.afterLine_ne_advanced kind who _)

variable (who : Sessions → Identity)

/-- A before hook is called for whom the sessions tell when it is looked up. -/
theorem hookBefore : ∃ cs : List (Call H),
    Shows f w (Dispatch.hookBefore hooks kind m who w).2 (cs.filterMap fun c => f (.call c)) ∧
    ∀ c ∈ cs, c.phase = .before ∧ c.identity = who w.sessions := by
  have hlook := hf.note_lookup w .before kind
  cases h : w.registry.lookup .before kind with
  | none =>
    rw [Dispatch.hookBefore_of_none m who h]
    exact ⟨[], hlook, by simp⟩
  | some hook =>
    rw [Dispatch.hookBefore_of_some m who h]
    refine ⟨_, hlook.trans (hf.runBefore _ hooks hook kind m (who w.sessions)), fun c hc => ?_⟩
    obtain rfl := List.mem_singleton.1 hc
    exact ⟨rfl, rfl⟩

theorem hookAfter : ∃ cs : List (Call H),
    Shows f w (Dispatch.hookAfter hooks kind m who w) (cs.filterMap fun c => f (.call c)) ∧
    ∀ c ∈ cs, c.phase = .after ∧ c.identity = who w.sessions := by
  have hlook := hf.note_lookup w .after kind
  cases h : w.registry.lookup .after kind with
  | none =>
    rw [Dispatch.hookAfter_of_none m who h]
    exact ⟨[], hlook, by simp⟩
  | some hook =>
    rw [Dispatch.hookAfter_of_some m who h]
    refine ⟨_, hlook.trans (hf.runAfter _ hooks hook kind m (who w.sessions)), fun c hc => ?_⟩
    obtain rfl := List.mem_singleton.1 hc
    exact ⟨rfl, rfl⟩

end

/-! ## Stages of a pipeline -/

variable (hooks : Hooks H) (kind : String) (m : Envelope) (session : Option String)

theorem spawnAfter : Shows f w (Dispatch.spawnAfter kind m session w).2 [] := by
  have hlook := hf.note_lookup w .after kind
  cases h : w.registry.lookup .after kind with
  | none =>
    rw [Dispatch.spawnAfter_of_none m session h]
    exact hlook
  | some hook =>
    rw [Dispatch.spawnAfter_of_some m session h]
    exact hlook

/-- A processor shows nothing but its answer, which is noted. -/
theorem process (processor : Processor H) :
    Shows f (w.note (.processed m (processor m w).answer)) (Pipeline.process processor m w).2 [] :=
  hf.performAll _ _

theorem note_processed (answer : Except Error Envelope) :
    Shows f w (w.note (.processed m answer)) [] :=
  ⟨_, rfl, List.filterMap_cons_none (hf.processed _ _)⟩

theorem afterStage (mode : AfterMode) : ∃ cs : List (Call H),
    Shows f w (Pipeline.afterStage hooks mode kind m session w)
      (cs.filterMap fun c => f (.call c)) ∧
    ∀ c ∈ cs, c.phase = .after ∧ c.identity = w.sessions.identity session := by
  cases mode with
  | inline =>
    rw [Pipeline.afterStage, Dispatch.afterMessage_eq]
    exact hf.hookAfter w hooks kind m _
  | detached => exact ⟨[], hf.spawnAfter w kind m session, by simp⟩

end Plain

end MessageHooks
