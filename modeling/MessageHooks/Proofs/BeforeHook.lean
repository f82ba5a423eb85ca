import MessageHooks.Proofs.Message.Spelling
import MessageHooks.Proofs.Shows
import MessageHooks.Script

/-!
# The run of a before hook

A before hook's answer decides what the caller gets, how the run is counted, and which line closes
it. One relation says all of these together, and a run is what it allows, whatever the hook does. In
particular no hook turns a message into one of another kind, so a request that was rewritten is
still looked up under its kind when its after hook is due.

* `Ruling`: the four things that an answer can mean.
* `Metrics.CountsRun`: one more run is counted, in one row of runs and one of times.
* `Dispatch.BeforeRun`: what a run returns, does and counts.
* `Dispatch.before_hooks_rule`: every run of a before hook is such a run, and keeps the kind.
-/

namespace MessageHooks

variable {H : Type} {π : Type} [Family π]

/-! ## Rulings -/

/-- What the answer of a before hook means for the message it was given: what the caller gets, how
the run is counted, and the line that closes it. -/
inductive Ruling (kind : String) (m : Message π) (who : Identity) :
    Except CallbackFailure Json.Object → Except Error (Message π) → CallOutcome → Event → Prop
  | applied {output : Json.Object} {m' : Message π} (h : Message.decode output m.kind = .ok m') :
    Ruling kind m who (.ok output) (.ok m') .ok (.beforeApplied kind who.isAnonymous)
  | invalid {output : Json.Object} {fault : DecodeFault}
    (h : (Message.decode output m.kind : Except DecodeFault (Message π)) = .error fault) :
    Ruling kind m who (.ok output) (.error (.decode fault.message)) .failed
      (.beforeInvalid kind (Error.decode fault.message).message)
  | failed (cause : String) :
    Ruling kind m who (.error (.script cause)) (.error (.callback cause)) .failed
      (.beforeRefused kind cause)
  | rejected (cause : String) :
    Ruling kind m who (.error (.rejected cause)) (.error (.rejected cause)) .rejected
      (.beforeRefused kind cause)

namespace Ruling

variable {kind : String} {m : Message π} {who : Identity}
  {answer : Except CallbackFailure Json.Object} {result : Except Error (Message π)}
  {outcome : CallOutcome} {line : Event}

/-- The line of a message that gets through is a trace, that of any other is for debugging. -/
theorem level_eq (h : Ruling kind m who answer result outcome line) :
    line.level = if result.isOk then .trace else .debug := by
  cases h <;> rfl

/-- **A message that gets through has its kind**, whatever the hook made of it. -/
theorem kind_eq {m' : Message π} (h : Ruling kind m who answer (.ok m') outcome line) :
    m'.kind = m.kind := by
  cases h with
  | applied hdecode => exact (Message.decode_eq_ok_iff_read.1 hdecode).1

end Ruling

theorem Dispatch.ruling (kind : String) (m : Message π) (who : Identity)
    (answer : Except CallbackFailure Json.Object) :
    Ruling kind m who answer (beforeResult m answer) (beforeOutcome m answer)
      (beforeLine kind m who answer) := by
  cases answer with
  | error failure =>
    cases failure with
    | script cause => exact .failed cause
    | rejected cause => exact .rejected cause
  | ok output =>
    cases hdecode : (Message.decode output m.kind : Except DecodeFault (Message π)) with
    | ok m' =>
      simp only [beforeResult, beforeOutcome, beforeLine, hdecode]
      exact .applied hdecode
    | error fault =>
      simp only [beforeResult, beforeOutcome, beforeLine, hdecode]
      exact .invalid hdecode

/-! ## Counts -/

/-- The metrics `m'` are the metrics `m` with one more run: its row of runs has one more, its row of
times has one time more, and no other row is different. -/
structure Metrics.CountsRun (m m' : Metrics) (phase : Phase) (kind : String) (outcome : CallOutcome)
    (took : Duration) : Prop where
  run : m'.invocations.rows.get? (invocationLabels phase kind outcome).sort =
    some (m.invocations.get (invocationLabels phase kind outcome) + 1)
  otherRuns : ∀ key, key ≠ (invocationLabels phase kind outcome).sort →
    m'.invocations.rows.get? key = m.invocations.rows.get? key
  time : m'.durations.rows.get? (durationLabels phase kind).sort =
    some ((m.durations.row (durationLabels phase kind)).observe took.microseconds)
  otherTimes : ∀ key, key ≠ (durationLabels phase kind).sort →
    m'.durations.rows.get? key = m.durations.rows.get? key
  afterFailures : m'.afterFailures = m.afterFailures

theorem Metrics.countsRun_recordInvocation (m : Metrics) (phase : Phase) (kind : String)
    (outcome : CallOutcome) (took : Duration) :
    m.CountsRun (m.recordInvocation phase kind outcome took) phase kind outcome took where
  run := m.invocations.rows.get?_adjust_self _ 0 _
  otherRuns _ h := m.invocations.rows.get?_adjust_of_ne 0 _ h
  time := m.durations.rows.get?_adjust_self _ .empty _
  otherTimes _ h := m.durations.rows.get?_adjust_of_ne .empty _ h
  afterFailures := rfl

/-! ## Lookups -/

/-- The phase and kind that a record says were looked up. -/
def Record.lookedUp? : Record H → Option (Phase × String)
  | .lookup phase kind _ => some (phase, kind)
  | _ => none

namespace Dispatch

variable (hooks : Hooks H)

theorem lookedUp?_run (c : Call H) (effects : List (Effect H)) (line : Event) :
    (Record.call c :: (effects.flatMap Effect.lines ++ [.event line])).filterMap
      Record.lookedUp? = [] := by
  have heffects := Effect.filterMap_lines (f := Record.lookedUp?) (fun _ _ => rfl) effects
  rw [List.filterMap_cons_none rfl, List.filterMap_append, heffects]
  rfl

theorem shows_lookup (w : World H) (phase : Phase) (kind : String) :
    Shows Record.lookedUp? w (w.lookup phase kind).2 [(phase, kind)] :=
  ⟨_, rfl, rfl⟩

/-- A before hook is looked up once, under the kind that is given. -/
theorem shows_hookBefore (kind : String) (m : Message π) (who : Sessions → Identity)
    (w : World H) :
    Shows Record.lookedUp? w (hookBefore hooks kind m who w).2 [(.before, kind)] := by
  have hlook := shows_lookup w .before kind
  cases h : w.registry.lookup .before kind with
  | none =>
    rw [hookBefore_of_none m who h]
    exact hlook
  | some hook =>
    rw [hookBefore_of_some m who h]
    exact hlook.trans ⟨_, history_runBefore .., lookedUp?_run ..⟩

theorem shows_hookAfter (kind : String) (m : Message π) (who : Sessions → Identity)
    (w : World H) : Shows Record.lookedUp? w (hookAfter hooks kind m who w) [(.after, kind)] := by
  have hlook := shows_lookup w .after kind
  cases h : w.registry.lookup .after kind with
  | none =>
    rw [hookAfter_of_none m who h]
    exact hlook
  | some hook =>
    rw [hookAfter_of_some m who h]
    exact hlook.trans ⟨_, history_runAfter .., lookedUp?_run ..⟩

/-! ## Runs -/

/-- The run of a before hook that led from `w` to `w'` with some result. The hook was called once,
with the dynamic form of the message; one line closed the run, after the lines of the hook's own
doing; and the run was counted once. -/
structure BeforeRun (hook : H) (kind : String) (m : Message π) (who : Identity) (w : World H)
    (result : Except Error (Message π)) (w' : World H) (outcome : CallOutcome) (line : Event) :
    Prop where
  ruling : Ruling kind m who ((hooks hook).before who m.encode w).answer result outcome line
  level : line.level = if result.isOk then .trace else .debug
  history : w'.history = w.history ++
    (.call ⟨.before, kind, hook, who, m.encode,
      ((hooks hook).before who m.encode w).answer.map some⟩ ::
    (((hooks hook).before who m.encode w).effects.flatMap Effect.lines ++ [.event line]))
  metrics : w.metrics.CountsRun w'.metrics .before kind outcome
    ((hooks hook).before who m.encode w).took

theorem beforeRun_runBefore (hook : H) (kind : String) (m : Message π) (who : Identity)
    (w : World H) : ∃ outcome line,
      BeforeRun hooks hook kind m who w (runBefore hooks hook kind m who w).1
        (runBefore hooks hook kind m who w).2 outcome line := by
  have hresult : (runBefore hooks hook kind m who w).1 =
      beforeResult m ((hooks hook).before who m.encode w).answer := by
    rw [runBefore_eq]
  have hruling := ruling kind m who ((hooks hook).before who m.encode w).answer
  rw [← hresult] at hruling
  refine ⟨_, _, hruling, hruling.level_eq, history_runBefore .., ?_⟩
  rw [metrics_runBefore]
  exact w.metrics.countsRun_recordInvocation ..

theorem kind_runBefore {hook : H} {kind : String} {m m' : Message π} {who : Identity} {w : World H}
    (h : (runBefore hooks hook kind m who w).1 = .ok m') : m'.kind = m.kind := by
  obtain ⟨_, _, hrun⟩ := beforeRun_runBefore hooks hook kind m who w
  rw [h] at hrun
  exact hrun.ruling.kind_eq

theorem kind_hookBefore {kind : String} {m m' : Message π} {who : Sessions → Identity} {w : World H}
    (h : (hookBefore hooks kind m who w).1 = .ok m') : m'.kind = m.kind := by
  cases hlookup : w.registry.lookup .before kind with
  | none =>
    rw [hookBefore_of_none m who hlookup] at h
    rw [Except.ok.inj h]
  | some hook =>
    rw [hookBefore_of_some m who hlookup] at h
    exact kind_runBefore hooks h

/-- **A before hook rules on the message by its answer alone.** The result, the count and the line
of a run agree, for messages of either family and under every kind. Whatever the hook does, a
message that gets through is of the kind it had, and so a request is looked up under one kind before
and after. -/
theorem before_hooks_rule (hooks : Hooks H) :
    (∀ {π : Type} [Family π] (hook : H) (kind : String) (m : Message π) (who : Identity)
      (w : World H),
      let r := runBefore hooks hook kind m who w
      (∃ outcome line, BeforeRun hooks hook kind m who w r.1 r.2 outcome line) ∧
      ∀ m', r.1 = .ok m' → m'.kind = m.kind) ∧
    (∀ (kind : String) (m m' : Envelope) (session : Option String) (w : World H),
      (beforeMessage hooks kind m session w).1 = .ok m' → m'.kind = m.kind) ∧
    ∀ (m m' : AuthRequest) (w v : World H) (who : Identity),
      (beforeAuthentication hooks m w).1 = .ok m' →
      Shows Record.lookedUp? w (beforeAuthentication hooks m w).2 [(.before, m.kind)] ∧
      Shows Record.lookedUp? v (afterAuthentication hooks m' who v) [(.after, m.kind)] ∧
      afterAuthentication hooks m' who v = hookAfter hooks m.kind m' (fun _ => who) v := by
  refine ⟨fun hook kind m who w => ⟨beforeRun_runBefore .., fun m' => kind_runBefore hooks⟩,
    fun kind m m' session w h => ?_, fun m m' w v who h => ?_⟩
  · rw [beforeMessage_eq] at h
    exact kind_hookBefore hooks h
  · rw [beforeAuthentication_eq] at h ⊢
    rw [afterAuthentication_eq, kind_hookBefore hooks h]
    exact ⟨shows_hookBefore .., shows_hookAfter .., rfl⟩

/-- A hook that changes everything it is given but the key of the payload: what gets through is a
login still, and a call still, and the login's after hook is looked up under its kind. -/
theorem rewritten_login_is_looked_up_as_login :
    let hooks : Hooks Bool := fun login => Script.rewriteHook <|
      if login then [.upper ["email", "email"], .set ["email", "password"] .null]
      else [.replace [("cid", .str "c"), ("rpc", .arr [.str "id", .str "payload"])]]
    let w : World Bool :=
      .fresh ((Registry.empty.register .before "Email" true).register .before "Rpc" false) .empty
    let login : AuthRequest := .ofPayload (.email ⟨"a@b", "secret"⟩)
    let login' : AuthRequest := .ofPayload (.email ⟨"A@B", ""⟩)
    let call : Envelope := .ofPayload (.rpc ⟨"", ""⟩)
    let call' : Envelope := ⟨some "c", .rpc ⟨"id", "payload"⟩⟩
    ((beforeAuthentication hooks login w).1 = .ok login' ∧
      Shows Record.lookedUp? w (afterAuthentication hooks login' .anonymous w)
        [(.after, "Email")]) ∧
    (beforeMessage hooks "Rpc" call none w).1 = .ok call' ∧ call'.kind = call.kind := by
  intro hooks w login login' call call'
  have hlogin : (beforeAuthentication hooks login w).1 = .ok login' := by decide +kernel
  have hcall : (beforeMessage hooks "Rpc" call none w).1 = .ok call' := by decide +kernel
  obtain ⟨-, hmessage, hrequest⟩ := before_hooks_rule hooks
  exact ⟨⟨hlogin, (hrequest login login' w w .anonymous hlogin).2.1⟩, hcall,
    hmessage "Rpc" call call' none w hcall⟩

end Dispatch

end MessageHooks
