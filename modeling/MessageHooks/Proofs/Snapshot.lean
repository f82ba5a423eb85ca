import MessageHooks.Proofs.Accounting
import MessageHooks.Script

/-!
# Detached after hooks

A task keeps what its spawn has seen. Whatever happens to registry and sessions until it runs, it
calls the hook that was bound then, for the identity of then, with the message of then.

* `Spawn`: an after hook is asked for as a task, by itself or at the end of a pipeline.
* `Operation.follow`: the place of a waiting task while other operations go on.
* `tasks_runAll_of_follow`: at that place the task is found as it was made.
* `task_is_snapshot`: its run, and that nothing runs later where nothing was bound.
-/

namespace MessageHooks

variable {H : Type} {hooks : Hooks H}

/-! ## Spawns -/

/-- In the state `at` the after hook of a message is asked for as a task, which leaves the state
`w'`: by a spawn alone, or by a detached pipeline whose processor made the message. -/
inductive Spawn (hooks : Hooks H) (kind : String) (e : Envelope) (session : Option String) :
    World H → World H → Prop
  | direct (w : World H) : Spawn hooks kind e session w (Dispatch.spawnAfter kind e session w).2
  | pipeline {m b : Envelope} {processor : Processor H} {w w₁ w₂ : World H}
    (hbefore : Dispatch.beforeMessage hooks kind m session
      (w.advance kind .received .beforeHook) = (.ok b, w₁))
    (hprocess : Pipeline.process processor b w₁ = (.ok e, w₂)) :
    Spawn hooks kind e session
      ((w₂.advance kind .beforeHook .processed).advance kind .processed .afterHook)
      (Pipeline.run hooks .detached kind m session processor w).2

/-- After a spawn a line of the log may follow, and nothing else. -/
theorem Spawn.eq_or_eq_advance {kind : String} {e : Envelope} {session : Option String}
    {w w' : World H} (h : Spawn hooks kind e session w w') :
    w' = (Dispatch.spawnAfter kind e session w).2 ∨
      w' = (Dispatch.spawnAfter kind e session w).2.advance kind .afterHook .done := by
  cases h with
  | direct w => exact .inl rfl
  | pipeline hbefore hprocess =>
    right
    rw [Pipeline.run, Pipeline.trip_of_done .detached hbefore hprocess]
    rfl

theorem Spawn.tasks_eq {kind : String} {e : Envelope} {session : Option String} {w w' : World H}
    (h : Spawn hooks kind e session w w') :
    w'.tasks = w.tasks ++ (w.registry.lookup .after kind).toList.map fun hook =>
      ⟨hook, kind, e, w.sessions.identity session⟩ := by
  rw [← Dispatch.tasks_spawnAfter]
  obtain rfl | rfl := h.eq_or_eq_advance
  · rfl
  · exact World.tasks_advance _ _ _ _

theorem Spawn.steps_eq {kind : String} {e : Envelope} {session : Option String} {w w' : World H}
    (h : Spawn hooks kind e session w w') :
    w'.steps = w.steps ++ [.lookup .after kind (w.registry.lookup .after kind).isSome] := by
  rw [← Dispatch.steps_spawnAfter kind w e session]
  obtain rfl | rfl := h.eq_or_eq_advance
  · rfl
  · exact World.steps_advance _ _ _ _

/-! ## Waiting tasks -/

/-- Where a waiting task stands after an operation; nowhere, if the operation runs it. A task that
is run leaves its place to those behind it, and new tasks stand behind all others. -/
def Operation.track (place : Nat) : Operation H → Option Nat
  | .task i => if i < place then some (place - 1) else if i = place then none else some place
  | .entry _ | .effect _ => some place

/-- Where a waiting task stands after operations none of which runs it. -/
def Operation.follow (place : Nat) : List (Operation H) → Option Nat
  | [] => some place
  | op :: ops => (op.track place).bind fun place' => follow place' ops

theorem tasks_move {w w' : World H} (h : Move hooks w w') : ∃ ts, w'.tasks = w.tasks ++ ts := by
  cases h with
  | looked phase kind => exact ⟨[], (List.append_nil _).symm⟩
  | ranBefore m who h =>
    exact ⟨[], by rw [Dispatch.tasks_runBefore, List.append_nil]⟩
  | ranAfter m who h =>
    exact ⟨[], by rw [Dispatch.tasks_runAfter, List.append_nil]⟩
  | processed processor m =>
    exact ⟨[], by rw [Pipeline.tasks_process, List.append_nil]⟩
  | advanced kind source target => exact ⟨[], (List.append_nil _).symm⟩
  | spawned m session h => exact ⟨[_], rfl⟩

/-- A dispatch only adds tasks. -/
theorem tasks_moves {w w' : World H} (h : Moves hooks w w') : ∃ ts, w'.tasks = w.tasks ++ ts := by
  induction h with
  | refl => exact ⟨[], (List.append_nil _).symm⟩
  | tail _ hmove ih =>
    obtain ⟨ts, hts⟩ := ih
    obtain ⟨ts', hts'⟩ := tasks_move hmove
    exact ⟨ts ++ ts', by rw [hts', hts, List.append_assoc]⟩

theorem tasks_run_of_track {w : World H} {t : AfterTask H} {op : Operation H} {place place' : Nat}
    (ht : w.tasks[place]? = some t) (hop : op.track place = some place') :
    (op.run hooks w).tasks[place']? = some t := by
  cases op with
  | entry e =>
    obtain rfl : place = place' := Option.some.inj hop
    obtain ⟨ts, hts⟩ := tasks_moves (e.moves hooks w)
    have hlt : place < w.tasks.length := (List.getElem?_eq_some_iff.1 ht).1
    show (e.run hooks w).2.tasks[place]? = some t
    rw [hts, List.getElem?_append_left hlt]
    exact ht
  | task i =>
    rw [Operation.tasks_run_task, List.getElem?_eraseIdx]
    simp only [Operation.track] at hop
    split at hop
    · next hlt =>
      -- A task in front is gone, and all behind it have moved up.
      obtain rfl := Option.some.inj hop
      rw [if_neg (by omega), show place - 1 + 1 = place by omega]
      exact ht
    · next hge =>
      split at hop
      · cases hop
      · obtain rfl := Option.some.inj hop
        rw [if_pos (by omega)]
        exact ht
  | effect e =>
    obtain rfl : place = place' := Option.some.inj hop
    show (w.perform e).tasks[place]? = some t
    rw [World.tasks_perform]
    exact ht

theorem tasks_runAll_of_follow {w : World H} {t : AfterTask H} {ops : List (Operation H)}
    {place place' : Nat} (ht : w.tasks[place]? = some t)
    (hops : Operation.follow place ops = some place') :
    (Operation.runAll hooks ops w).tasks[place']? = some t := by
  induction ops generalizing w place with
  | nil =>
    obtain rfl := Option.some.inj hops
    exact ht
  | cons op ops ih =>
    obtain ⟨place₁, hop, hrest⟩ := Option.bind_eq_some_iff.1 hops
    exact ih (tasks_run_of_track ht hop) hrest

/-! ## Calls that are due -/

/-- The calls made so far and those that waiting tasks have still to make. -/
def World.callsDue (w : World H) : Nat := (callsIn w.history).length + w.tasks.length

theorem callsDue_perform (w : World H) (e : Effect H) : (w.perform e).callsDue = w.callsDue := by
  have hcalls : callsIn e.lines = [] := by
    rw [show e.lines = [e].flatMap Effect.lines from (List.append_nil _).symm, callsIn_lines]
  rw [World.callsDue, World.history_perform, callsIn_append, hcalls, List.append_nil,
    World.tasks_perform, World.callsDue]

theorem callsDue_run_task (w : World H) (i : Nat) :
    (Operation.run hooks w (.task i)).callsDue = w.callsDue := by
  cases h : w.tasks[i]? with
  | none => rw [Operation.run_task_of_none h]
  | some t =>
    have hlt : i < w.tasks.length := (List.getElem?_eq_some_iff.1 h).1
    have hlength := List.length_eraseIdx_of_lt hlt
    have hcalls : (callsIn (Operation.run hooks w (.task i)).history).length =
        (callsIn w.history).length + 1 := by
      rw [Operation.run_task_of_some h, Dispatch.runTask, Dispatch.history_runAfter,
        callsIn_append, List.length_append, callsIn_run]
      rfl
    rw [World.callsDue, hcalls, Operation.tasks_run_task, hlength, World.callsDue]
    omega

/-- No call becomes due without a dispatch. -/
theorem callsDue_runAll {ops : List (Operation H)} (hops : ∀ op ∈ ops, ∀ e, op ≠ .entry e)
    (w : World H) : (Operation.runAll hooks ops w).callsDue = w.callsDue := by
  induction ops generalizing w with
  | nil => rfl
  | cons op ops ih =>
    have hrest := ih (fun op' h => hops op' (List.mem_cons_of_mem op h)) (op.run hooks w)
    rw [Operation.runAll_cons, hrest]
    cases op with
    | entry e => exact absurd rfl (hops _ List.mem_cons_self e)
    | task i => exact callsDue_run_task w i
    | effect e => exact callsDue_perform w e

/-! ## Snapshots -/

/-- **A detached after hook is a snapshot.** Where one is bound at the spawn, a task waits; whatever
other operations go on, its run calls that hook once, for the identity and with the message of the
spawn, looks up nothing, and is counted and logged under the kind of the spawn. Where none is bound,
no task is made and no call becomes due, whatever is bound later. -/
theorem task_is_snapshot {kind : String} {e : Envelope} {session : Option String} {w w' : World H}
    (h : Spawn hooks kind e session w w') :
    (∀ hook, w.registry.lookup .after kind = some hook →
      let who := w.sessions.identity session
      w'.tasks = w.tasks ++ [⟨hook, kind, e, who⟩] ∧
      ∀ ops place, Operation.follow w.tasks.length ops = some place →
        let v := Operation.runAll hooks ops w'
        let v' := Operation.run hooks v (.task place)
        let r := (hooks hook).after who e.encode { v with tasks := v.tasks.eraseIdx place }
        let c : Call H := ⟨.after, kind, hook, who, e.encode, r.answer.map fun _ => none⟩
        v'.tasks = v.tasks.eraseIdx place ∧
        v'.steps = v.steps ++ [.call c] ∧
        v'.history = v.history ++ (.call c ::
          (r.effects.flatMap Effect.lines ++ [.event (Dispatch.afterLine kind who r.answer)])) ∧
        v'.metrics = v.metrics.recordAfter kind r.took r.answer) ∧
    (w.registry.lookup .after kind = none →
      w'.tasks = w.tasks ∧
      w'.steps = w.steps ++ [.lookup .after kind false] ∧
      ∀ ops, (∀ op ∈ ops, ∀ d, op ≠ .entry d) →
        (Operation.runAll hooks ops w').callsDue = w'.callsDue) := by
  have htasks := h.tasks_eq
  have hsteps := h.steps_eq
  constructor
  · intro hook hhook
    rw [hhook] at htasks
    refine ⟨htasks, fun ops place hops => ?_⟩
    have hmade : w'.tasks[w.tasks.length]? =
        some ⟨hook, kind, e, w.sessions.identity session⟩ := by
      rw [htasks]
      exact List.getElem?_concat_length
    -- none of the operations runs the task, so it is found as it was made
    have hwaits : (Operation.runAll hooks ops w').tasks[place]? =
        some ⟨hook, kind, e, w.sessions.identity session⟩ := tasks_runAll_of_follow hmade hops
    refine ⟨Operation.tasks_run_task _ place, ?_⟩
    rw [Operation.run_task_of_some hwaits]
    exact ⟨Dispatch.steps_runTask hooks _ _, Dispatch.history_runAfter hooks ..,
      Dispatch.metrics_runAfter hooks ..⟩
  · intro hnone
    rw [hnone] at htasks hsteps
    refine ⟨htasks.trans (List.append_nil _), hsteps, fun ops hops => ?_⟩
    exact callsDue_runAll hops w'

/-- While the task waits its session is renamed, another message passes, and another hook, which
would fail, is bound in place of its own. -/
theorem task_keeps_hook_and_name :
    let hooks : Hooks Bool := fun bound =>
      Script.observerHook (if bound then [] else [.fail (.script "late")])
    let m : Envelope := .ofPayload (.rpc ⟨"id", "payload"⟩)
    let w : World Bool := .fresh (Registry.empty.register .after "Rpc" true)
      (SortedMap.empty.insert "s" ⟨.nil, "ann", 7⟩)
    let w' := (Dispatch.spawnAfter "Rpc" m (some "s") w).2
    let ops := [.effect (.rename "s" "bob"), .entry (.after "Rpc" m none),
      .effect (.bind .after "Rpc" false)]
    let v := Operation.runAll hooks ops w'
    Spawn hooks "Rpc" m (some "s") w w' ∧ w.registry.lookup .after "Rpc" = some true ∧
      Operation.follow w.tasks.length ops = some 0 ∧
      (Operation.run hooks v (.task 0)).steps = v.steps ++
        [.call ⟨.after, "Rpc", true, ⟨.nil, "ann", 7⟩, m.encode, .ok none⟩] := by
  intro hooks m w w' ops v
  have hspawn : Spawn hooks "Rpc" m (some "s") w w' := .direct w
  have hlookup : w.registry.lookup .after "Rpc" = some true :=
    Registry.lookup_register_self _ _ _ _
  obtain ⟨-, hrun⟩ := (task_is_snapshot hspawn).1 true hlookup
  obtain ⟨-, hsteps, -⟩ := hrun ops 0 rfl
  exact ⟨hspawn, hlookup, rfl, hsteps⟩

end MessageHooks
