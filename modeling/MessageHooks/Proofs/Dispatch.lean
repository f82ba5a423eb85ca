import MessageHooks.Dispatch
import MessageHooks.Proofs.World

/-!
# Steps of a dispatch

What running a hook adds to the steps and tasks of a runtime, one lemma for each function of
`Dispatch`.

* `steps_runBefore_eq`, `steps_runAfter_eq`: a call with the dynamic form of the message, or none if
  it has no such form.
* `steps_runBefore`, `steps_runAfter`: one call, for the messages of a family.
* `steps_beforeMessage`, `steps_afterMessage`, `steps_spawnAfter`: one lookup by the caller's kind,
  and a call where a hook is bound and is not left to a task.
-/

namespace MessageHooks

variable {H : Type} {π : Type} [Family π]

namespace World

theorem steps_lookup (w : World H) (phase : Phase) (kind : String) :
    (w.lookup phase kind).2.steps =
      w.steps ++ [.lookup phase kind (w.registry.lookup phase kind).isSome] :=
  steps_note w rfl

theorem history_lookup (w : World H) (phase : Phase) (kind : String) :
    (w.lookup phase kind).2.history =
      w.history ++ [.lookup phase kind (w.registry.lookup phase kind).isSome] := rfl

@[simp] theorem tasks_lookup (w : World H) (phase : Phase) (kind : String) :
    (w.lookup phase kind).2.tasks = w.tasks := rfl

end World

namespace Dispatch

variable (hooks : Hooks H)

/-! ## One hook -/

section

variable {μ : Type} [Interceptable μ] (hook : H) (kind : String) (m : μ) (who : Identity)
  (w : World H)

section

variable {hooks} {hook} {kind} {m} {who} {w}

theorem runBefore_of_unwritten {e : Error} (h : Interceptable.encode m = .error e) :
    runBefore hooks hook kind m who w =
      (.error e, (w.countUnwritten .before kind).log (.beforeUnwritten kind e.message)) := by
  rw [runBefore, h]

theorem runAfter_of_unwritten {e : Error} (h : Interceptable.encode m = .error e) :
    runAfter hooks hook kind m who w = w.reportFailure kind .encode e.message := by
  rw [runAfter, h]

end

/-- The call of a before hook, if the message is written. -/
def beforeCalls : List (Record H) :=
  match Interceptable.encode m with
  | .error _ => []
  | .ok input =>
    [.call ⟨.before, kind, hook, who, input, ((hooks hook).before who input w).answer.map some⟩]

/-- The call of an after hook, if the message is written. -/
def afterCalls : List (Record H) :=
  match Interceptable.encode m with
  | .error _ => []
  | .ok input =>
    [.call ⟨.after, kind, hook, who, input,
      ((hooks hook).after who input w).answer.map fun _ => none⟩]

/-- A before hook is called once with a message that is written, whatever comes of it. -/
theorem steps_runBefore_eq : (runBefore hooks hook kind m who w).2.steps =
    w.steps ++ beforeCalls hooks hook kind m who w := by
  unfold beforeCalls
  cases h : Interceptable.encode m with
  | error e => simp [runBefore_of_unwritten h]
  | ok input =>
    rw [runBefore, h]
    dsimp only
    split
    · simp
    · split <;> simp

theorem tasks_runBefore : (runBefore hooks hook kind m who w).2.tasks = w.tasks := by
  cases h : Interceptable.encode m with
  | error e => simp [runBefore_of_unwritten h]
  | ok input =>
    rw [runBefore, h]
    dsimp only
    split
    · simp
    · split <;> simp

theorem steps_runAfter_eq : (runAfter hooks hook kind m who w).steps =
    w.steps ++ afterCalls hooks hook kind m who w := by
  unfold afterCalls
  cases h : Interceptable.encode m with
  | error e => simp [runAfter_of_unwritten h]
  | ok input =>
    rw [runAfter, h]
    dsimp only
    split <;> simp

theorem tasks_runAfter : (runAfter hooks hook kind m who w).tasks = w.tasks := by
  cases h : Interceptable.encode m with
  | error e => simp [runAfter_of_unwritten h]
  | ok input =>
    rw [runAfter, h]
    dsimp only
    split <;> simp

end

/-- The call that runs a before hook in the given state. -/
def beforeCall (hook : H) (kind : String) (m : Message π) (who : Identity) (w : World H) :
    Call H :=
  ⟨.before, kind, hook, who, m.encode, ((hooks hook).before who m.encode w).answer.map some⟩

/-- The call that runs an after hook in the given state. -/
def afterCall (hook : H) (kind : String) (m : Message π) (who : Identity) (w : World H) :
    Call H :=
  ⟨.after, kind, hook, who, m.encode, ((hooks hook).after who m.encode w).answer.map fun _ => none⟩

theorem steps_runBefore (hook : H) (kind : String) (m : Message π) (who : Identity)
    (w : World H) : (runBefore hooks hook kind m who w).2.steps =
      w.steps ++ [.call (beforeCall hooks hook kind m who w)] := by
  rw [steps_runBefore_eq, beforeCalls, Interceptable.encode_message]
  rfl

theorem steps_runAfter (hook : H) (kind : String) (m : Message π) (who : Identity)
    (w : World H) : (runAfter hooks hook kind m who w).steps =
      w.steps ++ [.call (afterCall hooks hook kind m who w)] := by
  rw [steps_runAfter_eq, afterCalls, Interceptable.encode_message]
  rfl

/-! ## Messages of a session -/

variable {hooks} {kind : String} {w : World H} {hook : H}

theorem beforeMessage_of_none (m : Envelope) (session : Option String)
    (h : w.registry.lookup .before kind = none) :
    beforeMessage hooks kind m session w = (.ok m, (w.lookup .before kind).2) := by
  simp [beforeMessage, World.lookup, h]

theorem beforeMessage_of_some (m : Envelope) (session : Option String)
    (h : w.registry.lookup .before kind = some hook) :
    beforeMessage hooks kind m session w =
      runBefore hooks hook kind m (w.sessions.identity session) (w.lookup .before kind).2 := by
  simp [beforeMessage, World.lookup, h, World.note]

theorem afterMessage_of_none (m : Envelope) (session : Option String)
    (h : w.registry.lookup .after kind = none) :
    afterMessage hooks kind m session w = (w.lookup .after kind).2 := by
  simp [afterMessage, World.lookup, h]

theorem afterMessage_of_some (m : Envelope) (session : Option String)
    (h : w.registry.lookup .after kind = some hook) :
    afterMessage hooks kind m session w =
      runAfter hooks hook kind m (w.sessions.identity session) (w.lookup .after kind).2 := by
  simp [afterMessage, World.lookup, h, World.note]

variable (hooks) (kind) (m : Envelope) (session : Option String) (w)

theorem steps_beforeMessage : (beforeMessage hooks kind m session w).2.steps =
    w.steps ++ match w.registry.lookup .before kind with
      | none => [.lookup .before kind false]
      | some hook => [.lookup .before kind true,
          .call (beforeCall hooks hook kind m (w.sessions.identity session)
            (w.lookup .before kind).2)] := by
  cases h : w.registry.lookup .before kind with
  | none => rw [beforeMessage_of_none m session h, World.steps_lookup, h, Option.isSome_none]
  | some hook =>
    rw [beforeMessage_of_some m session h, steps_runBefore, World.steps_lookup, h,
      List.append_assoc]
    rfl

theorem tasks_beforeMessage : (beforeMessage hooks kind m session w).2.tasks = w.tasks := by
  cases h : w.registry.lookup .before kind with
  | none => rw [beforeMessage_of_none m session h, World.tasks_lookup]
  | some hook => rw [beforeMessage_of_some m session h, tasks_runBefore, World.tasks_lookup]

theorem steps_afterMessage : (afterMessage hooks kind m session w).steps =
    w.steps ++ match w.registry.lookup .after kind with
      | none => [.lookup .after kind false]
      | some hook => [.lookup .after kind true,
          .call (afterCall hooks hook kind m (w.sessions.identity session)
            (w.lookup .after kind).2)] := by
  cases h : w.registry.lookup .after kind with
  | none => rw [afterMessage_of_none m session h, World.steps_lookup, h, Option.isSome_none]
  | some hook =>
    rw [afterMessage_of_some m session h, steps_runAfter, World.steps_lookup, h,
      List.append_assoc]
    rfl

theorem tasks_afterMessage : (afterMessage hooks kind m session w).tasks = w.tasks := by
  cases h : w.registry.lookup .after kind with
  | none => rw [afterMessage_of_none m session h, World.tasks_lookup]
  | some hook => rw [afterMessage_of_some m session h, tasks_runAfter, World.tasks_lookup]

/-! ## Tasks -/

/-- As a task, the after stage looks up once and calls nothing yet. -/
theorem steps_spawnAfter : (spawnAfter kind m session w).2.steps =
    w.steps ++ [.lookup .after kind (w.registry.lookup .after kind).isSome] := by
  rw [← World.steps_lookup]
  unfold spawnAfter World.lookup
  cases w.registry.lookup .after kind <;> rfl

/-- The task made has the hook and the identity of now. -/
theorem tasks_spawnAfter : (spawnAfter kind m session w).2.tasks =
    w.tasks ++ (w.registry.lookup .after kind).toList.map fun hook =>
      ⟨hook, kind, m, w.sessions.identity session⟩ := by
  unfold spawnAfter World.lookup
  cases w.registry.lookup .after kind with
  | none => exact (List.append_nil _).symm
  | some hook => rfl

theorem steps_runTask (t : AfterTask H) (w : World H) :
    (runTask hooks t w).steps =
      w.steps ++ [.call (afterCall hooks t.hook t.kind t.message t.identity w)] :=
  steps_runAfter hooks t.hook t.kind t.message t.identity w

end Dispatch

end MessageHooks
