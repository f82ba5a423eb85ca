import MessageHooks.Proofs.Accounting
import MessageHooks.Script

/-!
# What bindings leave behind

Where no hook is bound, a message passes and nothing is counted, logged or changed. So whatever
kinds the messages have, metrics have rows only for kinds that were bound at some time.

* `PassesThrough`: what the entries do where nothing is bound.
* `EverBound registry rs phase kind`: a hook was bound to `kind` in the registry of the beginning,
  or was since, as the records `rs` tell.
* `Grounded`: bindings, waiting tasks, calls and rows of metrics all go back to such a binding.
  Every step keeps this (`Grounded.note`, `Grounded.perform`, `Grounded.move`), and so does every
  run.
* `traces_need_bindings`: both, for every state and every run.
-/

namespace MessageHooks

variable {H : Type}

/-! ## Passing through -/

/-- What the entries do in a state where no hook is bound for them. That a lookup found nothing is
noted in the history, but is no line of the log; else all is as it was. -/
structure PassesThrough (hooks : Hooks H) (w : World H) : Prop where
  before : ∀ {kind} (m : Envelope) session, w.registry.lookup .before kind = none →
    Dispatch.beforeMessage hooks kind m session w = (.ok m, w.note (.lookup .before kind false))
  after : ∀ {kind} (m : Envelope) session, w.registry.lookup .after kind = none →
    Dispatch.afterMessage hooks kind m session w = w.note (.lookup .after kind false)
  spawn : ∀ {kind} (m : Envelope) session, w.registry.lookup .after kind = none →
    Dispatch.spawnAfter kind m session w = (false, w.note (.lookup .after kind false))
  beforeAuthentication : ∀ m : AuthRequest, w.registry.lookup .before m.kind = none →
    Dispatch.beforeAuthentication hooks m w = (.ok m, w.note (.lookup .before m.kind false))
  afterAuthentication : ∀ (m : AuthRequest) who, w.registry.lookup .after m.kind = none →
    Dispatch.afterAuthentication hooks m who w = w.note (.lookup .after m.kind false)
  /-- A pipeline without hooks logs its lifecycle, and does what its processor does. -/
  pipeline : ∀ mode {kind} (m : Envelope) session processor,
    w.registry.lookup .before kind = none →
      let w₁ := (w.advance kind .received .beforeHook).note (.lookup .before kind false)
      let r := processor m w₁
      let w₂ := (w₁.note (.processed m r.answer)).performAll r.effects
      (∀ e, r.answer = .error e → Pipeline.run hooks mode kind m session processor w =
        (.rejected e, w₂.advance kind .beforeHook .rejected)) ∧
      ∀ p, r.answer = .ok p → w₂.registry.lookup .after kind = none →
        Pipeline.run hooks mode kind m session processor w = (.done p,
          (((w₂.advance kind .beforeHook .processed).advance kind .processed .afterHook).note
            (.lookup .after kind false)).advance kind .afterHook .done)

theorem lookup_of_none {w : World H} {phase : Phase} {kind : String}
    (h : w.registry.lookup phase kind = none) :
    (w.lookup phase kind).2 = w.note (.lookup phase kind false) := by
  simp [World.lookup, h]

theorem afterStage_of_none (hooks : Hooks H) (mode : AfterMode) (m : Envelope)
    (session : Option String) {w : World H} {kind : String}
    (h : w.registry.lookup .after kind = none) :
    Pipeline.afterStage hooks mode kind m session w = w.note (.lookup .after kind false) := by
  rw [← lookup_of_none h]
  cases mode with
  | inline => exact Dispatch.afterMessage_of_none m session h
  | detached => exact congrArg Prod.snd (Dispatch.spawnAfter_of_none m session h)

/-- Where nothing is bound, everything passes through. -/
theorem passesThrough (hooks : Hooks H) (w : World H) : PassesThrough hooks w where
  before m session h := by
    rw [Dispatch.beforeMessage_of_none m session h, lookup_of_none h]
  after m session h := by
    rw [Dispatch.afterMessage_of_none m session h, lookup_of_none h]
  spawn m session h := by
    rw [Dispatch.spawnAfter_of_none m session h, lookup_of_none h]
  beforeAuthentication m h := by
    rw [Dispatch.beforeAuthentication_eq, Dispatch.hookBefore_of_none m _ h, lookup_of_none h]
  afterAuthentication m who h := by
    rw [Dispatch.afterAuthentication_eq, Dispatch.hookAfter_of_none m _ h, lookup_of_none h]
  pipeline mode kind m session processor h := by
    intro w₁ r w₂
    have hbefore : Dispatch.beforeMessage hooks kind m session
        (w.advance kind .received .beforeHook) = (.ok m, w₁) := by
      have hlookup : (w.advance kind .received .beforeHook).registry.lookup .before kind = none := h
      rw [Dispatch.beforeMessage_of_none m session hlookup, lookup_of_none hlookup]
    constructor
    · intro e he
      have hprocess : Pipeline.process processor m w₁ = (.error e, w₂) :=
        congrArg (·, w₂) he
      rw [Pipeline.run, Pipeline.trip_of_failed mode hbefore hprocess]
    · intro p hp hafter
      have hprocess : Pipeline.process processor m w₁ = (.ok p, w₂) := congrArg (·, w₂) hp
      have hlookup : ((w₂.advance kind .beforeHook .processed).advance kind .processed
          .afterHook).registry.lookup .after kind = none := hafter
      rw [Pipeline.run, Pipeline.trip_of_done mode hbefore hprocess,
        afterStage_of_none hooks mode p session hlookup]

/-! ## Bindings of all times -/

/-- A hook is bound in the registry, or one was bound later, as the records tell. -/
def EverBound (registry : Registry H) (rs : List (Record H)) (phase : Phase) (kind : String) :
    Prop :=
  (registry.lookup phase kind).isSome ∨ .event (.hookRegistered phase kind) ∈ rs

theorem EverBound.mono {registry : Registry H} {rs rs' : List (Record H)} {phase : Phase}
    {kind : String} (h : EverBound registry rs phase kind) (hsub : rs ⊆ rs') :
    EverBound registry rs' phase kind :=
  h.imp_right fun hmem => hsub hmem

/-! ## Rows -/

/-- The rows of the metrics are rows of calls. -/
structure Metrics.RowsOf (m : Metrics) (cs : List (Call H)) : Prop where
  invocations : ∀ l ∈ m.invocations.rows.keys, ∃ c ∈ cs, ∃ outcome,
    l = (Metrics.invocationLabels c.phase c.kind outcome).sort
  durations : ∀ l ∈ m.durations.rows.keys, ∃ c ∈ cs,
    l = (Metrics.durationLabels c.phase c.kind).sort
  failures : ∀ l ∈ m.afterFailures.rows.keys, ∃ c ∈ cs, c.phase = .after ∧ ∃ stage,
    l = (Metrics.failureLabels c.kind stage).sort

namespace Metrics.RowsOf

variable {m : Metrics} {cs cs' : List (Call H)}

theorem empty (cs : List (Call H)) : RowsOf .empty cs := ⟨nofun, nofun, nofun⟩

theorem mono (h : m.RowsOf cs) (hsub : cs ⊆ cs') : m.RowsOf cs' where
  invocations l hl := by
    obtain ⟨c, hc, hlabels⟩ := h.invocations l hl
    exact ⟨c, hsub hc, hlabels⟩
  durations l hl := by
    obtain ⟨c, hc, hlabels⟩ := h.durations l hl
    exact ⟨c, hsub hc, hlabels⟩
  failures l hl := by
    obtain ⟨c, hc, hlabels⟩ := h.failures l hl
    exact ⟨c, hsub hc, hlabels⟩

theorem recordInvocation (h : m.RowsOf cs) {c : Call H} (hc : c ∈ cs) (outcome : CallOutcome)
    (took : Duration) : (m.recordInvocation c.phase c.kind outcome took).RowsOf cs where
  invocations l hl := by
    rcases SortedMap.mem_keys_of_mem_keys_adjust _ hl with rfl | hl
    · exact ⟨c, hc, outcome, rfl⟩
    · exact h.invocations l hl
  durations l hl := by
    rcases SortedMap.mem_keys_of_mem_keys_adjust _ hl with rfl | hl
    · exact ⟨c, hc, rfl⟩
    · exact h.durations l hl
  failures := h.failures

theorem recordAfterFailure (h : m.RowsOf cs) {c : Call H} (hc : c ∈ cs) (hphase : c.phase = .after)
    (stage : FailureStage) : (m.recordAfterFailure c.kind stage).RowsOf cs where
  invocations := h.invocations
  durations := h.durations
  failures l hl := by
    rcases SortedMap.mem_keys_of_mem_keys_adjust _ hl with rfl | hl
    · exact ⟨c, hc, hphase, stage, rfl⟩
    · exact h.failures l hl

theorem recordAfter (h : m.RowsOf cs) {c : Call H} (hc : c ∈ cs) (hphase : c.phase = .after)
    (took : Duration) (answer : Except CallbackFailure Unit) :
    (m.recordAfter c.kind took answer).RowsOf cs := by
  cases answer with
  | ok _ =>
    have hcounted := h.recordInvocation hc .ok took
    rw [hphase] at hcounted
    exact hcounted
  | error failure =>
    have hcounted := h.recordInvocation hc .failed took
    rw [hphase] at hcounted
    exact hcounted.recordAfterFailure hc hphase .callback

end Metrics.RowsOf

/-! ## Grounds -/

/-- What is bound, what waits, what was called and what was counted goes back to bindings of the
beginning or to later ones. Calls, and so the rows that they are counted in, go back to bindings
that came before them. -/
structure Grounded (registry : Registry H) (w : World H) : Prop where
  bindings : ∀ {phase kind}, (w.registry.lookup phase kind).isSome →
    EverBound registry w.history phase kind
  tasks : ∀ t ∈ w.tasks, EverBound registry w.history .after t.kind
  calls : ∀ {earlier c}, earlier ++ [.call c] <+: w.history →
    EverBound registry earlier c.phase c.kind
  rows : w.metrics.RowsOf (callsIn w.history)

namespace Grounded

variable {registry : Registry H} {w : World H}

theorem fresh (registry : Registry H) (sessions : Sessions) :
    Grounded registry (.fresh registry sessions) where
  bindings h := .inl h
  tasks := nofun
  calls h := by simp [World.fresh] at h
  rows := .empty _

/-- What is added to the history is grounded, if it is no call or a hook was bound for it. -/
theorem note (h : Grounded registry w) {r : Record H}
    (hr : ∀ c, r = .call c → EverBound registry w.history c.phase c.kind) :
    Grounded registry (w.note r) where
  bindings hbound := (h.bindings hbound).mono (List.subset_append_left _ _)
  tasks t ht := (h.tasks t ht).mono (List.subset_append_left _ _)
  calls {earlier c} hprefix := by
    rcases List.prefix_concat_iff.1 hprefix with heq | hprefix
    · obtain ⟨rfl, hcall⟩ := List.append_inj' heq rfl
      exact hr c (List.cons.inj hcall).1.symm
    · exact h.calls hprefix
  rows := by
    refine h.rows.mono ?_
    rw [World.history_note, callsIn_append]
    exact List.subset_append_left _ _

theorem log (h : Grounded registry w) (e : Event) : Grounded registry (w.log e) := h.note nofun

theorem perform (h : Grounded registry w) (e : Effect H) : Grounded registry (w.perform e) := by
  cases e with
  | bind phase kind hook =>
    have hlogged := h.log (.hookRegistered phase kind)
    refine ⟨fun {phase' kind'} hbound => ?_, hlogged.tasks, hlogged.calls, hlogged.rows⟩
    by_cases hkey : (phase', kind') = (phase, kind)
    · obtain ⟨rfl, rfl⟩ := Prod.mk.inj hkey
      exact .inr (by simp [World.perform, World.bind])
    · refine hlogged.bindings ?_
      have hlookup := w.registry.lookup_register_of_ne hook hkey
      exact (congrArg Option.isSome hlookup) ▸ hbound
  | unbind phase kind =>
    refine ⟨fun {phase' kind'} hbound => ?_, h.tasks, h.calls, h.rows⟩
    by_cases hkey : (phase', kind') = (phase, kind)
    · obtain ⟨rfl, rfl⟩ := Prod.mk.inj hkey
      have hlookup := w.registry.lookup_unregister_self phase' kind'
      exact absurd hbound (by simp [World.perform, World.unbind, hlookup])
    · refine h.bindings ?_
      have hlookup := w.registry.lookup_unregister_of_ne hkey
      exact (congrArg Option.isSome hlookup) ▸ hbound
  | rename session handle => exact ⟨h.bindings, h.tasks, h.calls, h.rows⟩

theorem performAll (h : Grounded registry w) (effects : List (Effect H)) :
    Grounded registry (w.performAll effects) := by
  induction effects generalizing w with
  | nil => exact h
  | cons e effects ih => exact ih (h.perform e)

/-! ## Runs of hooks -/

variable {π : Type} [Family π] {hooks : Hooks H} {hook : H} {kind : String}

theorem mem_callsIn_performAll (w : World H) (c : Call H) (effects : List (Effect H)) :
    c ∈ callsIn ((w.note (.call c)).performAll effects).history := by
  rw [World.history_performAll, callsIn_append, World.history_note, callsIn_append]
  simp [callsIn, Record.call?]

theorem runBefore (h : Grounded registry w) (hbound : EverBound registry w.history .before kind)
    (m : Message π) (who : Identity) :
    Grounded registry (Dispatch.runBefore hooks hook kind m who w).2 := by
  let c := Dispatch.beforeCall hooks hook kind m who w
  let r := (hooks hook).before who m.encode w
  have hcalled : Grounded registry (w.note (.call c)) := by
    refine h.note fun c' hc' => ?_
    obtain rfl : c = c' := Record.call.inj hc'
    exact hbound
  have hdone := hcalled.performAll r.effects
  have hrows := hdone.rows.recordInvocation (mem_callsIn_performAll w c r.effects)
    (Dispatch.beforeOutcome m r.answer) r.took
  have hcounted : Grounded registry (((w.note (.call c)).performAll r.effects).countRun .before
      kind (Dispatch.beforeOutcome m r.answer) r.took) :=
    ⟨hdone.bindings, hdone.tasks, hdone.calls, hrows⟩
  rw [Dispatch.runBefore_eq]
  exact hcounted.log _

theorem runAfter (h : Grounded registry w) (hbound : EverBound registry w.history .after kind)
    (m : Message π) (who : Identity) :
    Grounded registry (Dispatch.runAfter hooks hook kind m who w) := by
  let c := Dispatch.afterCall hooks hook kind m who w
  let r := (hooks hook).after who m.encode w
  have hcalled : Grounded registry (w.note (.call c)) := by
    refine h.note fun c' hc' => ?_
    obtain rfl : c = c' := Record.call.inj hc'
    exact hbound
  have hdone := hcalled.performAll r.effects
  have hrows := hdone.rows.recordAfter (mem_callsIn_performAll w c r.effects) rfl r.took r.answer
  let w' := (w.note (.call c)).performAll r.effects
  have hcounted : Grounded registry
      { w' with metrics := w'.metrics.recordAfter kind r.took r.answer } :=
    ⟨hdone.bindings, hdone.tasks, hdone.calls, hrows⟩
  rw [Dispatch.runAfter_eq]
  exact hcounted.log _

/-! ## Runs of a runtime -/

/-- A hook runs, or becomes a task, only where it is bound; so every move keeps the grounds. -/
theorem move {w' : World H} (h : Grounded registry w) (hmove : Move hooks w w') :
    Grounded registry w' := by
  cases hmove with
  | looked phase kind => exact h.note nofun
  | ranBefore m who hhook => exact h.runBefore (h.bindings (Option.isSome_of_mem hhook)) m who
  | ranAfter m who hhook => exact h.runAfter (h.bindings (Option.isSome_of_mem hhook)) m who
  | processed processor m =>
    have hnoted : Grounded registry (w.note (.processed m (processor m w).answer)) := h.note nofun
    exact hnoted.performAll _
  | advanced kind source target => exact h.log _
  | spawned m session hhook =>
    refine ⟨h.bindings, fun t ht => ?_, h.calls, h.rows⟩
    rcases List.mem_append.1 ht with ht | ht
    · exact h.tasks t ht
    · obtain rfl := List.mem_singleton.1 ht
      exact h.bindings (Option.isSome_of_mem hhook)

theorem moves {w' : World H} (h : Grounded registry w) (hmoves : Moves hooks w w') :
    Grounded registry w' := by
  induction hmoves with
  | refl => exact h
  | tail _ hmove ih => exact ih.move hmove

theorem run (h : Grounded registry w) (op : Operation H) : Grounded registry (op.run hooks w) := by
  cases op with
  | entry e =>
    exact h.moves (e.moves hooks w)
  | task place =>
    cases ht : w.tasks[place]? with
    | none =>
      rw [Operation.run_task_of_none ht]
      exact h
    | some t =>
      -- The binding that the task goes back to may be gone by now.
      have hbound := h.tasks t (List.mem_of_getElem? ht)
      have htaken : Grounded registry { w with tasks := w.tasks.eraseIdx place } :=
        ⟨h.bindings, fun t' ht' => h.tasks t' (List.mem_of_mem_eraseIdx ht'), h.calls, h.rows⟩
      rw [Operation.run_task_of_some ht]
      exact htaken.runAfter hbound t.message t.identity
  | effect e => exact h.perform e

theorem runAll (h : Grounded registry w) (ops : List (Operation H)) :
    Grounded registry (Operation.runAll hooks ops w) := by
  induction ops generalizing w with
  | nil => exact h
  | cons op ops ih => exact ih (h.run op)

end Grounded

/-! ## Labels -/

/-- A hook was called under a phase and kind, after one had been bound there. -/
def CalledWhenBound (registry : Registry H) (rs : List (Record H)) (phase : Phase) (kind : String) :
    Prop :=
  ∃ earlier c later, rs = earlier ++ .call c :: later ∧ c.phase = phase ∧ c.kind = kind ∧
    EverBound registry earlier phase kind

/-- Every row of the metrics is labelled by a kind under which a hook was called when one had been
bound there, in the phase of the row. -/
structure LabelsBounded (registry : Registry H) (w : World H) : Prop where
  invocations : ∀ l ∈ w.metrics.invocations.rows.keys, ∃ phase kind outcome,
    l = (Metrics.invocationLabels phase kind outcome).sort ∧
      CalledWhenBound registry w.history phase kind
  durations : ∀ l ∈ w.metrics.durations.rows.keys, ∃ phase kind,
    l = (Metrics.durationLabels phase kind).sort ∧ CalledWhenBound registry w.history phase kind
  failures : ∀ l ∈ w.metrics.afterFailures.rows.keys, ∃ kind stage,
    l = (Metrics.failureLabels kind stage).sort ∧ CalledWhenBound registry w.history .after kind

theorem Grounded.calledWhenBound {registry : Registry H} {w : World H} (h : Grounded registry w)
    {c : Call H} (hc : c ∈ callsIn w.history) :
    CalledWhenBound registry w.history c.phase c.kind := by
  obtain ⟨r, hr, hcall⟩ := List.mem_filterMap.1 hc
  obtain ⟨earlier, later, hhistory⟩ := List.append_of_mem hr
  have hcalled : r = .call c := by
    cases r with
    | call c' => exact congrArg Record.call (Option.some.inj hcall)
    | lookup | processed | event => cases hcall
  rw [hcalled] at hhistory
  have hprefix : earlier ++ [.call c] <+: w.history := ⟨later, by rw [hhistory]; simp⟩
  exact ⟨earlier, c, later, hhistory, rfl, rfl, h.calls hprefix⟩

theorem Grounded.labelsBounded {registry : Registry H} {w : World H} (h : Grounded registry w) :
    LabelsBounded registry w where
  invocations l hl := by
    obtain ⟨c, hc, outcome, hlabels⟩ := h.rows.invocations l hl
    exact ⟨c.phase, c.kind, outcome, hlabels, h.calledWhenBound hc⟩
  durations l hl := by
    obtain ⟨c, hc, hlabels⟩ := h.rows.durations l hl
    exact ⟨c.phase, c.kind, hlabels, h.calledWhenBound hc⟩
  failures l hl := by
    obtain ⟨c, hc, hphase, stage, hlabels⟩ := h.rows.failures l hl
    exact ⟨c.kind, stage, hlabels, hphase ▸ h.calledWhenBound hc⟩

/-- **Without a binding there is no trace.** Where no hook is bound, a dispatch hands on what it was
given and leaves all as it was, in every state. So in every run, whatever is bound and unbound in it
and whatever kinds are dispatched, metrics have rows only for kinds that were bound, in the
beginning or in the run, before the hook was called that the row counts. -/
theorem traces_need_bindings (hooks : Hooks H) :
    (∀ w, PassesThrough hooks w) ∧
    ∀ (registry : Registry H) (sessions : Sessions) (ops : List (Operation H)),
      LabelsBounded registry (Operation.runAll hooks ops (.fresh registry sessions)) :=
  ⟨passesThrough hooks, fun registry sessions ops =>
    ((Grounded.fresh registry sessions).runAll ops).labelsBounded⟩

/-- A task that fails when its hook is bound no more still counts under the kind of its binding. -/
theorem late_failure_needs_binding :
    let hooks : Hooks Bool := fun _ => Script.observerHook [.fail (.script "late")]
    let registry : Registry Bool := Registry.empty.register .after "Rpc" true
    let ops : List (Operation Bool) :=
      [.entry (.spawn "Rpc" (.ofPayload (.rpc ⟨"id", "payload"⟩)) none),
        .effect (.unbind .after "Rpc"), .task 0]
    let v := Operation.runAll hooks ops (.fresh registry .empty)
    v.registry.lookup .after "Rpc" = none ∧
      v.metrics.afterFailures.rows.keys = [(Metrics.failureLabels "Rpc" .callback).sort] ∧
      ∃ kind stage, (Metrics.failureLabels "Rpc" .callback).sort =
        (Metrics.failureLabels kind stage).sort ∧
        CalledWhenBound registry v.history .after kind := by
  intro hooks registry ops v
  have hrows : v.metrics.afterFailures.rows.keys =
      [(Metrics.failureLabels "Rpc" .callback).sort] := rfl
  have hbounded := (traces_need_bindings hooks).2 registry .empty ops
  exact ⟨by decide +kernel, hrows, hbounded.failures _ (hrows ▸ List.mem_singleton_self _)⟩

end MessageHooks
