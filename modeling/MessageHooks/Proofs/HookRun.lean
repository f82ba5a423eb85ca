import MessageHooks.Proofs.Dispatch

/-!
# What the run of a hook leaves behind

A run of a hook changes a runtime in four moves: the call is noted, the hook's effects are carried
out, the run is counted, and one line of the log closes it. How it is counted and which line closes
it is said here by the hook's answer alone.

* `Dispatch.runBefore_eq`, `Dispatch.runAfter_eq`: the four moves, and the result of a before hook.
* `Dispatch.history_runBefore`, `Dispatch.history_runAfter`: the records of a run.
* `Dispatch.closed_runBefore`, `Dispatch.closed_runAfter`: what is true of any message, also of one
  that cannot be written.
* `Dispatch.hookBefore`, `Dispatch.hookAfter`: the common form of the entries, which messages of a
  session and requests share.
-/

namespace MessageHooks

variable {H : Type} {π : Type} [Family π]

/-- How an after hook's run is counted: as a run, and once more if it failed. -/
def Metrics.recordAfter (m : Metrics) (kind : String) (took : Duration) :
    Except CallbackFailure Unit → Metrics
  | .ok () => m.recordInvocation .after kind .ok took
  | .error _ => (m.recordInvocation .after kind .failed took).recordAfterFailure kind .callback

namespace Dispatch

/-! ## Before hooks -/

/-- What a before hook's answer makes of the message it was given. -/
def beforeResult (m : Message π) : Except CallbackFailure Json.Object → Except Error (Message π)
  | .error failure => .error failure.toError
  | .ok output =>
    match (Message.decode output m.kind : Except DecodeFault (Message π)) with
    | .ok m' => .ok m'
    | .error fault => .error fault.toError

/-- How the run of a before hook is counted. -/
def beforeOutcome (m : Message π) : Except CallbackFailure Json.Object → CallOutcome
  | .error failure => failure.outcome
  | .ok output =>
    match (Message.decode output m.kind : Except DecodeFault (Message π)) with
    | .ok _ => .ok
    | .error _ => .failed

/-- The line that closes the run of a before hook. -/
def beforeLine (kind : String) (m : Message π) (who : Identity) :
    Except CallbackFailure Json.Object → Event
  | .error failure => .beforeRefused kind failure.message
  | .ok output =>
    match (Message.decode output m.kind : Except DecodeFault (Message π)) with
    | .ok _ => .beforeApplied kind who.isAnonymous
    | .error fault => .beforeInvalid kind fault.toError.message

theorem level_beforeLine (kind : String) (m : Message π) (who : Identity)
    (answer : Except CallbackFailure Json.Object) :
    (beforeLine kind m who answer).level ≠ .error := by
  unfold beforeLine
  split
  · exact nofun
  · split <;> exact nofun

theorem beforeLine_ne_advanced (kind : String) (m : Message π) (who : Identity)
    (answer : Except CallbackFailure Json.Object) (kind' : String)
    (source target : LifecycleState) :
    beforeLine kind m who answer ≠ .advanced kind' source target := by
  unfold beforeLine
  split
  · exact nofun
  · split <;> exact nofun

/-! ## After hooks -/

def afterLine (kind : String) (who : Identity) : Except CallbackFailure Unit → Event
  | .ok () => .afterRan kind who.isAnonymous
  | .error failure => .afterFailed kind .callback failure.message

theorem afterLine_ne_advanced (kind : String) (who : Identity)
    (answer : Except CallbackFailure Unit) (kind' : String) (source target : LifecycleState) :
    afterLine kind who answer ≠ .advanced kind' source target := by
  cases answer <;> exact nofun

variable (hooks : Hooks H) (hook : H) (kind : String) (m : Message π) (who : Identity)
  (w : World H)

/-! ## Runs -/

/-- The run of a before hook, move by move. -/
theorem runBefore_eq :
    runBefore hooks hook kind m who w =
      let r := (hooks hook).before who m.encode w
      let w' := (w.note (.call (beforeCall hooks hook kind m who w))).performAll r.effects
      (beforeResult m r.answer,
        (w'.countRun .before kind (beforeOutcome m r.answer) r.took).log
          (beforeLine kind m who r.answer)) := by
  rw [runBefore, Interceptable.encode_message, Interceptable.kind_message]
  dsimp only
  cases h : ((hooks hook).before who m.encode w).answer with
  | error failure => simp only [h, beforeCall, beforeResult, beforeOutcome, beforeLine]
  | ok output =>
    cases hdecode : (Message.decode output m.kind : Except DecodeFault (Message π)) with
    | ok m' =>
      have hread : Interceptable.decode output m.kind = .ok m' := by
        rw [Interceptable.decode_message, hdecode]
        rfl
      simp only [h, hdecode, hread, beforeCall, beforeResult, beforeOutcome, beforeLine]
    | error fault =>
      have hread : (Interceptable.decode output m.kind : Except Error (Message π)) =
          .error fault.toError := by
        rw [Interceptable.decode_message, hdecode]
        rfl
      simp only [h, hdecode, hread, beforeCall, beforeResult, beforeOutcome, beforeLine]

theorem runAfter_eq :
    runAfter hooks hook kind m who w =
      let r := (hooks hook).after who m.encode w
      let w' := (w.note (.call (afterCall hooks hook kind m who w))).performAll r.effects
      { w' with metrics := w'.metrics.recordAfter kind r.took r.answer }.log
        (afterLine kind who r.answer) := by
  rw [runAfter, Interceptable.encode_message]
  dsimp only
  cases h : ((hooks hook).after who m.encode w).answer with
  | ok output =>
    simp only [h, afterCall, afterLine, Metrics.recordAfter]
    rfl
  | error failure =>
    simp only [h, afterCall, afterLine, Metrics.recordAfter]
    rfl

theorem history_runBefore :
    (runBefore hooks hook kind m who w).2.history =
      w.history ++ (.call (beforeCall hooks hook kind m who w) ::
        (((hooks hook).before who m.encode w).effects.flatMap Effect.lines ++
          [.event (beforeLine kind m who ((hooks hook).before who m.encode w).answer)])) := by
  rw [runBefore_eq]
  simp [World.countRun]

theorem history_runAfter :
    (runAfter hooks hook kind m who w).history =
      w.history ++ (.call (afterCall hooks hook kind m who w) ::
        (((hooks hook).after who m.encode w).effects.flatMap Effect.lines ++
          [.event (afterLine kind who ((hooks hook).after who m.encode w).answer)])) := by
  rw [runAfter_eq]
  simp

theorem metrics_runBefore :
    (runBefore hooks hook kind m who w).2.metrics =
      w.metrics.recordInvocation .before kind
        (beforeOutcome m ((hooks hook).before who m.encode w).answer)
        ((hooks hook).before who m.encode w).took := by
  rw [runBefore_eq]
  simp [World.countRun]

theorem metrics_runAfter :
    (runAfter hooks hook kind m who w).metrics =
      w.metrics.recordAfter kind ((hooks hook).after who m.encode w).took
        ((hooks hook).after who m.encode w).answer := by
  rw [runAfter_eq]
  simp

theorem registry_runBefore :
    (runBefore hooks hook kind m who w).2.registry =
      (w.performAll ((hooks hook).before who m.encode w).effects).registry := by
  rw [runBefore_eq]
  simp only [World.registry_log]
  exact World.registry_performAll_congr (World.registry_note w _) _

theorem sessions_runBefore :
    (runBefore hooks hook kind m who w).2.sessions =
      (w.performAll ((hooks hook).before who m.encode w).effects).sessions := by
  rw [runBefore_eq]
  simp only [World.sessions_log]
  exact World.sessions_performAll_congr (World.sessions_note w _) _

theorem registry_runAfter :
    (runAfter hooks hook kind m who w).registry =
      (w.performAll ((hooks hook).after who m.encode w).effects).registry := by
  rw [runAfter_eq]
  simp only [World.registry_log]
  exact World.registry_performAll_congr (World.registry_note w _) _

theorem sessions_runAfter :
    (runAfter hooks hook kind m who w).sessions =
      (w.performAll ((hooks hook).after who m.encode w).effects).sessions := by
  rw [runAfter_eq]
  simp only [World.sessions_log]
  exact World.sessions_performAll_congr (World.sessions_note w _) _

theorem setting_runBefore :
    (runBefore hooks hook kind m who w).2.setting =
      (w.performAll ((hooks hook).before who m.encode w).effects).setting :=
  Prod.ext (registry_runBefore hooks hook kind m who w) (sessions_runBefore hooks hook kind m who w)

theorem setting_runAfter :
    (runAfter hooks hook kind m who w).setting =
      (w.performAll ((hooks hook).after who m.encode w).effects).setting :=
  Prod.ext (registry_runAfter hooks hook kind m who w) (sessions_runAfter hooks hook kind m who w)

/-! ## Any message

A message that cannot be written reaches no hook. Its run is counted and closed all the same. -/

/-- A run is counted after the effects of its hook, which count nothing, and before its last line. -/
theorem closed_countRun (w : World H) (c : Call H) (effects : List (Effect H)) (phase : Phase)
    (kind : String) (outcome : CallOutcome) (took : Duration) (line : Event) :
    let v := (((w.note (.call c)).performAll effects).countRun phase kind outcome took).log line
    v.metrics = w.metrics.recordInvocation phase kind outcome took ∧
    v.history = w.history ++ (.call c :: effects.flatMap Effect.lines) ++ [.event line] := by
  simp [World.countRun]

section

variable {μ : Type} [Interceptable μ]

/-- **The run of a before hook is counted once and closed by one line**, for any message that can be
intercepted: a trace if the message gets through, and else a line for debugging. -/
theorem closed_runBefore (m : μ) :
    let r := runBefore hooks hook kind m who w
    ∃ outcome records line,
      r.2.metrics.invocations =
        w.metrics.invocations.increment (Metrics.invocationLabels .before kind outcome) ∧
      r.2.metrics.afterFailures = w.metrics.afterFailures ∧
      (outcome = .ok ↔ r.1.isOk = true) ∧
      r.2.history = w.history ++ records ++ [.event line] ∧
      line.level = if r.1.isOk then .trace else .debug := by
  intro r
  have hfailed : CallOutcome.failed = .ok ↔ false = true := by decide
  cases hinput : Interceptable.encode m with
  | error e =>
    have hr : r = _ := runBefore_of_unwritten hinput
    rw [hr]
    refine ⟨.failed, [], .beforeUnwritten kind e.message, rfl, rfl, hfailed, ?_, rfl⟩
    rw [World.history_log, List.append_nil]
    rfl
  | ok input =>
    have hr : r = runBefore hooks hook kind m who w := rfl
    rw [runBefore, hinput] at hr
    dsimp only at hr
    split at hr
    · next failure hfailure =>
      have hrefused : failure.outcome = .ok ↔ false = true := by
        cases failure <;> simp [CallbackFailure.outcome]
      rw [hr]
      obtain ⟨hmetrics, hhistory⟩ := closed_countRun w _ _ .before kind failure.outcome _ _
      exact ⟨_, _, _, congrArg (·.invocations) hmetrics, congrArg (·.afterFailures) hmetrics,
        hrefused, hhistory, rfl⟩
    · split at hr
      · rw [hr]
        obtain ⟨hmetrics, hhistory⟩ := closed_countRun w _ _ .before kind .ok _ _
        exact ⟨_, _, _, congrArg (·.invocations) hmetrics, congrArg (·.afterFailures) hmetrics,
          iff_of_true rfl rfl, hhistory, rfl⟩
      · rw [hr]
        obtain ⟨hmetrics, hhistory⟩ := closed_countRun w _ _ .before kind .failed _ _
        exact ⟨_, _, _, congrArg (·.invocations) hmetrics, congrArg (·.afterFailures) hmetrics,
          hfailed, hhistory, rfl⟩

/-- **The run of an after hook is closed by one line**, for any message that can be intercepted: an
error if it is counted as a failure, and else a trace. -/
theorem closed_runAfter (m : μ) :
    let w' := runAfter hooks hook kind m who w
    ∃ records line,
      w'.history = w.history ++ records ++ [.event line] ∧
      ((line.level = .trace ∧ w'.metrics.afterFailures = w.metrics.afterFailures) ∨
        ∃ stage, line.level = .error ∧ w'.metrics.afterFailures =
          w.metrics.afterFailures.increment (Metrics.failureLabels kind stage)) := by
  intro w'
  cases hinput : Interceptable.encode m with
  | error e =>
    have hw' : w' = _ := runAfter_of_unwritten hinput
    rw [hw']
    refine ⟨[], .afterFailed kind .encode e.message, ?_, .inr ⟨.encode, rfl, rfl⟩⟩
    rw [World.reportFailure, World.history_log, List.append_nil]
  | ok input =>
    have hw' : w' = runAfter hooks hook kind m who w := rfl
    rw [runAfter, hinput] at hw'
    dsimp only at hw'
    split at hw'
    · rw [hw']
      obtain ⟨hmetrics, hhistory⟩ := closed_countRun w _ _ .after kind .ok _ _
      exact ⟨_, _, hhistory, .inl ⟨rfl, congrArg (·.afterFailures) hmetrics⟩⟩
    · next failure hfailure =>
      rw [hw']
      obtain ⟨hmetrics, hhistory⟩ := closed_countRun w _ _ .after kind .failed _
        (.afterFailed kind .callback failure.message)
      exact ⟨_, _, hhistory, .inr ⟨.callback, rfl,
        congrArg (·.afterFailures.increment (Metrics.failureLabels kind .callback)) hmetrics⟩⟩

end

/-! ## Entries

The entries for messages of a session and for requests differ in the key of the lookup and in whom
the hook acts for. -/

/-- Look up a before hook and run it, for whom the sessions tell. -/
def hookBefore (kind : String) (m : Message π) (who : Sessions → Identity) (w : World H) :
    Except Error (Message π) × World H :=
  match w.registry.lookup .before kind with
  | none => (.ok m, (w.lookup .before kind).2)
  | some hook => runBefore hooks hook kind m (who w.sessions) (w.lookup .before kind).2

/-- Look up an after hook and run it, for whom the sessions tell. -/
def hookAfter (kind : String) (m : Message π) (who : Sessions → Identity) (w : World H) : World H :=
  match w.registry.lookup .after kind with
  | none => (w.lookup .after kind).2
  | some hook => runAfter hooks hook kind m (who w.sessions) (w.lookup .after kind).2

theorem beforeMessage_eq (m : Envelope) (session : Option String) :
    beforeMessage hooks kind m session w = hookBefore hooks kind m (·.identity session) w := by
  unfold beforeMessage hookBefore World.lookup
  cases w.registry.lookup .before kind <;> rfl

theorem afterMessage_eq (m : Envelope) (session : Option String) :
    afterMessage hooks kind m session w = hookAfter hooks kind m (·.identity session) w := by
  unfold afterMessage hookAfter World.lookup
  cases w.registry.lookup .after kind <;> rfl

theorem beforeAuthentication_eq (m : AuthRequest) :
    beforeAuthentication hooks m w = hookBefore hooks m.kind m (fun _ => .anonymous) w := by
  unfold beforeAuthentication hookBefore World.lookup
  cases w.registry.lookup .before m.kind <;> rfl

theorem afterAuthentication_eq (m : AuthRequest) :
    afterAuthentication hooks m who w = hookAfter hooks m.kind m (fun _ => who) w := by
  unfold afterAuthentication hookAfter World.lookup
  cases w.registry.lookup .after m.kind <;> rfl

section

variable {hooks} {kind} {w} {hook}

theorem hookBefore_of_none (who : Sessions → Identity) (h : w.registry.lookup .before kind = none) :
    hookBefore hooks kind m who w = (.ok m, (w.lookup .before kind).2) := by
  rw [hookBefore, h]

theorem hookBefore_of_some (who : Sessions → Identity)
    (h : w.registry.lookup .before kind = some hook) :
    hookBefore hooks kind m who w =
      runBefore hooks hook kind m (who w.sessions) (w.lookup .before kind).2 := by
  rw [hookBefore, h]

theorem hookAfter_of_none (who : Sessions → Identity) (h : w.registry.lookup .after kind = none) :
    hookAfter hooks kind m who w = (w.lookup .after kind).2 := by
  rw [hookAfter, h]

theorem hookAfter_of_some (who : Sessions → Identity)
    (h : w.registry.lookup .after kind = some hook) :
    hookAfter hooks kind m who w =
      runAfter hooks hook kind m (who w.sessions) (w.lookup .after kind).2 := by
  rw [hookAfter, h]

theorem tasks_hookBefore (who : Sessions → Identity) :
    (hookBefore hooks kind m who w).2.tasks = w.tasks := by
  cases h : w.registry.lookup .before kind with
  | none => rw [hookBefore_of_none m who h, World.tasks_lookup]
  | some hook => rw [hookBefore_of_some m who h, tasks_runBefore, World.tasks_lookup]

theorem tasks_hookAfter (who : Sessions → Identity) :
    (hookAfter hooks kind m who w).tasks = w.tasks := by
  cases h : w.registry.lookup .after kind with
  | none => rw [hookAfter_of_none m who h, World.tasks_lookup]
  | some hook => rw [hookAfter_of_some m who h, tasks_runAfter, World.tasks_lookup]

theorem spawnAfter_of_none (m : Envelope) (session : Option String)
    (h : w.registry.lookup .after kind = none) :
    spawnAfter kind m session w = (false, (w.lookup .after kind).2) := by
  simp [spawnAfter, World.lookup, h]

theorem spawnAfter_of_some (m : Envelope) (session : Option String)
    (h : w.registry.lookup .after kind = some hook) :
    spawnAfter kind m session w =
      let w' := (w.lookup .after kind).2
      (true, { w' with tasks := w'.tasks ++ [⟨hook, kind, m, w'.sessions.identity session⟩] }) := by
  simp [spawnAfter, World.lookup, h]

end

/-! ## Two states

Entries keep a relation between two states, under kinds of their own, if the lookup keeps it and
finds the same hook for the same identity, and if the run of this hook keeps it. -/

section

variable {R : World H → World H → Prop} {hooks} {kind} {w} {kind' : String} {v : World H}

theorem hookBefore_related {who : Sessions → Identity}
    (hfound : v.registry.lookup .before kind' = w.registry.lookup .before kind)
    (hwho : who v.sessions = who w.sessions)
    (hlook : R (w.lookup .before kind).2 (v.lookup .before kind').2)
    (hrun : ∀ hook, w.registry.lookup .before kind = some hook →
      (runBefore hooks hook kind m (who w.sessions) (w.lookup .before kind).2).1 =
        (runBefore hooks hook kind' m (who w.sessions) (v.lookup .before kind').2).1 ∧
      R (runBefore hooks hook kind m (who w.sessions) (w.lookup .before kind).2).2
        (runBefore hooks hook kind' m (who w.sessions) (v.lookup .before kind').2).2) :
    (hookBefore hooks kind m who w).1 = (hookBefore hooks kind' m who v).1 ∧
    R (hookBefore hooks kind m who w).2 (hookBefore hooks kind' m who v).2 := by
  cases h : w.registry.lookup .before kind with
  | none =>
    rw [hookBefore_of_none m who h, hookBefore_of_none m who (hfound.trans h)]
    exact ⟨rfl, hlook⟩
  | some hook =>
    rw [hookBefore_of_some m who h, hookBefore_of_some m who (hfound.trans h), hwho]
    exact hrun hook h

theorem hookAfter_related {who : Sessions → Identity}
    (hfound : v.registry.lookup .after kind' = w.registry.lookup .after kind)
    (hwho : who v.sessions = who w.sessions)
    (hlook : R (w.lookup .after kind).2 (v.lookup .after kind').2)
    (hrun : ∀ hook, w.registry.lookup .after kind = some hook →
      R (runAfter hooks hook kind m (who w.sessions) (w.lookup .after kind).2)
        (runAfter hooks hook kind' m (who w.sessions) (v.lookup .after kind').2)) :
    R (hookAfter hooks kind m who w) (hookAfter hooks kind' m who v) := by
  cases h : w.registry.lookup .after kind with
  | none =>
    rw [hookAfter_of_none m who h, hookAfter_of_none m who (hfound.trans h)]
    exact hlook
  | some hook =>
    rw [hookAfter_of_some m who h, hookAfter_of_some m who (hfound.trans h), hwho]
    exact hrun hook h

theorem spawnAfter_related (m : Envelope) (session : Option String)
    (hfound : v.registry.lookup .after kind' = w.registry.lookup .after kind)
    (hlook : R (w.lookup .after kind).2 (v.lookup .after kind').2)
    (hmade : ∀ hook, w.registry.lookup .after kind = some hook →
      let w' := (w.lookup .after kind).2
      let v' := (v.lookup .after kind').2
      R { w' with tasks := w'.tasks ++ [⟨hook, kind, m, w'.sessions.identity session⟩] }
        { v' with tasks := v'.tasks ++ [⟨hook, kind', m, v'.sessions.identity session⟩] }) :
    (spawnAfter kind m session w).1 = (spawnAfter kind' m session v).1 ∧
    R (spawnAfter kind m session w).2 (spawnAfter kind' m session v).2 := by
  cases h : w.registry.lookup .after kind with
  | none =>
    rw [spawnAfter_of_none m session h, spawnAfter_of_none m session (hfound.trans h)]
    exact ⟨rfl, hlook⟩
  | some hook =>
    rw [spawnAfter_of_some m session h, spawnAfter_of_some m session (hfound.trans h)]
    exact ⟨rfl, hmade hook h⟩

end

end Dispatch

end MessageHooks
