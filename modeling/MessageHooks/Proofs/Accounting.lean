import MessageHooks.Proofs.Metrics
import MessageHooks.Proofs.Operation

/-!
# Accounts

Four stores say how hooks fared: the counter of their runs, the histogram of their times, the
counter of after hooks that failed, and the error lines of the log. Each is kept apart from the
others and from the history of calls, and all of them agree with it.

* `Call.outcome`: how a call has ended, told from what the hook was given and what it answered.
* `Tallies w w' rs`: from `w` to `w'` the history grew by `rs`, and the stores by just the calls and
  the failures in it. Moves, tasks and effects tally (`tallies_move`, `tallies_runAfter`,
  `tallies_perform`), and so do their chains (`Tallies.trans`, `tallies_runAll`).
* `Balanced`: the accounts of a runtime that began with none.
* `balanced_runAll`: they hold after every run.
-/

namespace MessageHooks

variable {H : Type}

/-! ## Calls -/

namespace Call

/-- How a call has ended. A before hook's output must be a message of the kind it was given. -/
def outcome (c : Call H) : CallOutcome :=
  match c.phase, c.answer with
  | .before, .ok (some output) => if Message.accepts c.input output then .ok else .failed
  | .before, .ok none => .failed
  | .before, .error failure => failure.outcome
  | .after, .ok _ => .ok
  | .after, .error _ => .failed

/-- The error line of a call: an after hook that fails has one. -/
def report? (c : Call H) : Option Event :=
  match c.phase, c.answer with
  | .after, .error failure => some (.afterFailed c.kind .callback failure.message)
  | _, _ => none

/-- The labels under which a call is counted. -/
def invocationLabels (c : Call H) : Labels := Metrics.invocationLabels c.phase c.kind c.outcome

/-- The labels under which a call's time is observed. -/
def durationLabels (c : Call H) : Labels := Metrics.durationLabels c.phase c.kind

/-- The call was that of an after hook, which failed. -/
def IsFailedAfter (c : Call H) : Prop := c.phase = .after ∧ c.outcome = .failed

instance (c : Call H) : Decidable c.IsFailedAfter :=
  inferInstanceAs (Decidable (c.phase = .after ∧ c.outcome = .failed))

theorem outcome_ne_rejected {c : Call H} (h : c.phase = .after) : c.outcome ≠ .rejected := by
  unfold outcome
  rw [h]
  cases c.answer with
  | ok output => exact nofun
  | error failure => exact nofun

theorem report?_of_isFailedAfter {c : Call H} (h : c.IsFailedAfter) :
    ∃ cause, c.report? = some (.afterFailed c.kind .callback cause) := by
  obtain ⟨hphase, houtcome⟩ := h
  unfold outcome at houtcome
  unfold report?
  rw [hphase] at houtcome ⊢
  cases hanswer : c.answer with
  | ok output =>
    rw [hanswer] at houtcome
    cases houtcome
  | error failure => exact ⟨failure.message, rfl⟩

theorem report?_of_not_isFailedAfter {c : Call H} (h : ¬ c.IsFailedAfter) : c.report? = none := by
  unfold report?
  cases hphase : c.phase with
  | before => rfl
  | after =>
    cases hanswer : c.answer with
    | ok output => rfl
    | error failure =>
      refine absurd ⟨hphase, ?_⟩ h
      unfold outcome
      rw [hphase, hanswer]

end Call

/-! ## Records -/

def Record.call? : Record H → Option (Call H)
  | .call c => some c
  | _ => none

def Record.error? : Record H → Option Event
  | .event e => if e.level = .error then some e else none
  | _ => none

def callsIn (rs : List (Record H)) : List (Call H) := rs.filterMap Record.call?

/-- The error lines among records. -/
def errorsIn (rs : List (Record H)) : List Event := rs.filterMap Record.error?

@[simp] theorem callsIn_append (rs rs' : List (Record H)) :
    callsIn (rs ++ rs') = callsIn rs ++ callsIn rs' :=
  List.filterMap_append

@[simp] theorem errorsIn_append (rs rs' : List (Record H)) :
    errorsIn (rs ++ rs') = errorsIn rs ++ errorsIn rs' :=
  List.filterMap_append

@[simp] theorem callsIn_lines (effects : List (Effect H)) :
    callsIn (effects.flatMap Effect.lines) = [] :=
  Effect.filterMap_lines (fun _ _ => rfl) effects

@[simp] theorem errorsIn_lines (effects : List (Effect H)) :
    errorsIn (effects.flatMap Effect.lines) = [] :=
  Effect.filterMap_lines (fun _ _ => rfl) effects

theorem callsIn_run (c : Call H) (effects : List (Effect H)) (line : Event) :
    callsIn (.call c :: (effects.flatMap Effect.lines ++ [.event line])) = [c] := by
  show c :: callsIn (effects.flatMap Effect.lines ++ [.event line]) = [c]
  rw [callsIn_append, callsIn_lines]
  rfl

/-- Among the records of a run only the line that closes it can be an error. -/
theorem errorsIn_run (c : Call H) (effects : List (Effect H)) (line : Event) :
    errorsIn (.call c :: (effects.flatMap Effect.lines ++ [.event line])) =
      errorsIn [(.event line : Record H)] := by
  show errorsIn (effects.flatMap Effect.lines ++ [.event line]) = _
  rw [errorsIn_append, errorsIn_lines]
  rfl

/-! ## Metrics -/

/-- The metrics `m'` are the metrics `m` after so many calls. Numbers have 64 bits and wrap. -/
structure Counted (m : Metrics) (cs : List (Call H)) (m' : Metrics) : Prop where
  invocations : ∀ labels, m'.invocations.get labels = m.invocations.get labels +
    UInt64.ofNat (cs.countP fun c => c.invocationLabels.sort = labels.sort)
  durations : ∀ labels, m'.durations.count labels = m.durations.count labels +
    UInt64.ofNat (cs.countP fun c => c.durationLabels.sort = labels.sort)
  failures : ∀ labels, m'.afterFailures.get labels = m.afterFailures.get labels +
    UInt64.ofNat (cs.countP fun c =>
      c.IsFailedAfter ∧ (Metrics.failureLabels c.kind .callback).sort = labels.sort)

theorem countP_one (p : Call H → Prop) [DecidablePred p] (c : Call H) :
    [c].countP (fun c => decide (p c)) = if p c then 1 else 0 := by
  by_cases h : p c <;> simp [h]

namespace Counted

variable {m m' m'' : Metrics} {cs cs' : List (Call H)}

theorem refl (m : Metrics) : Counted m ([] : List (Call H)) m where
  invocations _ := (UInt64.add_zero _).symm
  durations _ := (UInt64.add_zero _).symm
  failures _ := (UInt64.add_zero _).symm

theorem trans (h : Counted m cs m') (h' : Counted m' cs' m'') : Counted m (cs ++ cs') m'' where
  invocations labels := by
    rw [h'.invocations, h.invocations, List.countP_append, UInt64.ofNat_add, UInt64.add_assoc]
  durations labels := by
    rw [h'.durations, h.durations, List.countP_append, UInt64.ofNat_add, UInt64.add_assoc]
  failures labels := by
    rw [h'.failures, h.failures, List.countP_append, UInt64.ofNat_add, UInt64.add_assoc]

/-- A call that is no failure of an after hook is counted as a run. -/
theorem recordInvocation (m : Metrics) {c : Call H} (hc : ¬ c.IsFailedAfter) (took : Duration) :
    Counted m [c] (m.recordInvocation c.phase c.kind c.outcome took) where
  invocations labels := by
    rw [countP_one]
    exact Counter.get_increment _ _ _
  durations labels := by
    rw [countP_one]
    exact Histogram.count_observe _ _ _ _
  failures labels := by
    rw [countP_one, if_neg fun h => hc h.1]
    exact (UInt64.add_zero _).symm

/-- A failure of an after hook is counted as a run and, beside it, as a failure. -/
theorem recordAfterFailure (m : Metrics) {c : Call H} (hc : c.IsFailedAfter) (took : Duration) :
    Counted m [c] ((m.recordInvocation c.phase c.kind c.outcome took).recordAfterFailure c.kind
      .callback) where
  invocations labels := by
    rw [countP_one]
    exact Counter.get_increment _ _ _
  durations labels := by
    rw [countP_one]
    exact Histogram.count_observe _ _ _ _
  failures labels := by
    rw [countP_one]
    simp only [hc, true_and]
    exact Counter.get_increment _ _ _

theorem recordAfter (m : Metrics) {c : Call H} {answer : Except CallbackFailure Unit}
    (hphase : c.phase = .after) (hanswer : c.answer = answer.map fun _ => none) (took : Duration) :
    Counted m [c] (m.recordAfter c.kind took answer) := by
  cases answer with
  | ok output =>
    have houtcome : c.outcome = .ok := by
      unfold Call.outcome
      rw [hphase, hanswer]
      rfl
    have hcounted := recordInvocation m (c := c) (by simp [Call.IsFailedAfter, houtcome]) took
    rw [hphase, houtcome] at hcounted
    exact hcounted
  | error failure =>
    have houtcome : c.outcome = .failed := by
      unfold Call.outcome
      rw [hphase, hanswer]
      rfl
    have hcounted := recordAfterFailure m (c := c) ⟨hphase, houtcome⟩ took
    rw [hphase, houtcome] at hcounted
    exact hcounted

end Counted

/-! ## Tallies -/

/-- From `w` to `w'` the history grew by the records, the metrics by the calls among them, and every
error line among them is the report of such a call, in the order of the calls. -/
structure Tallies (w w' : World H) (rs : List (Record H)) : Prop where
  history : w'.history = w.history ++ rs
  counted : Counted w.metrics (callsIn rs) w'.metrics
  errors : errorsIn rs = (callsIn rs).filterMap Call.report?

namespace Tallies

variable {w w' w'' : World H} {rs rs' : List (Record H)}

theorem refl (w : World H) : Tallies w w [] where
  history := (List.append_nil _).symm
  counted := Counted.refl _
  errors := rfl

theorem trans (h : Tallies w w' rs) (h' : Tallies w' w'' rs') : Tallies w w'' (rs ++ rs') where
  history := by rw [h'.history, h.history, List.append_assoc]
  counted := by
    rw [callsIn_append]
    exact h.counted.trans h'.counted
  errors := by
    rw [errorsIn_append, callsIn_append, List.filterMap_append, h.errors, h'.errors]

/-- What neither counts nor calls nor logs an error tallies. -/
theorem quiet (hhistory : w'.history = w.history ++ rs) (hmetrics : w'.metrics = w.metrics)
    (hcalls : callsIn rs = []) (herrors : errorsIn rs = []) : Tallies w w' rs where
  history := hhistory
  counted := by
    rw [hmetrics, hcalls]
    exact Counted.refl _
  errors := by
    rw [herrors, hcalls]
    rfl

end Tallies

/-! ## Runs of hooks -/

section

variable {π : Type} [Family π] (hooks : Hooks H) (hook : H) (kind : String) (m : Message π)
  (who : Identity) (w : World H)

/-- What is counted for a before hook is how its call has ended. -/
theorem Dispatch.outcome_beforeCall [RecognizedFamily π] :
    (beforeCall hooks hook kind m who w).outcome =
      beforeOutcome m ((hooks hook).before who m.encode w).answer := by
  unfold Call.outcome beforeCall
  dsimp only
  cases ((hooks hook).before who m.encode w).answer with
  | error failure => rfl
  | ok output =>
    show (if Message.accepts m.encode output then CallOutcome.ok else .failed) = _
    rw [RecognizedFamily.accepts_encode, beforeOutcome]
    cases (Message.decode output m.kind : Except DecodeFault (Message π)) with
    | ok m' => rfl
    | error fault => rfl

/-- The records of a run: its call, the lines of the hook's effects, and the line that closes it. -/
theorem tallies_of_run {w w' : World H} {c : Call H} {effects : List (Effect H)} {line : Event}
    (hhistory : w'.history = w.history ++ (.call c :: (effects.flatMap Effect.lines ++
      [.event line])))
    (hcounted : Counted w.metrics [c] w'.metrics)
    (hline : Record.error? (.event line : Record H) = c.report?) :
    ∃ rs, Tallies w w' rs := by
  refine ⟨_, hhistory, ?_, ?_⟩
  · rw [callsIn_run]
    exact hcounted
  · rw [callsIn_run, errorsIn_run, errorsIn, List.filterMap_cons, hline]
    cases hreport : c.report? with
    | none => simp [hreport]
    | some e => simp [hreport]

theorem tallies_runBefore [RecognizedFamily π] :
    ∃ rs, Tallies w (Dispatch.runBefore hooks hook kind m who w).2 rs := by
  refine tallies_of_run (Dispatch.history_runBefore hooks hook kind m who w) ?_ ?_
  · rw [Dispatch.metrics_runBefore, ← Dispatch.outcome_beforeCall]
    exact Counted.recordInvocation _ (fun h => absurd h.1 (by decide : Phase.before ≠ .after)) _
  · exact if_neg (Dispatch.level_beforeLine kind m who _)

theorem tallies_runAfter : ∃ rs, Tallies w (Dispatch.runAfter hooks hook kind m who w) rs := by
  refine tallies_of_run (Dispatch.history_runAfter hooks hook kind m who w) ?_ ?_
  · rw [Dispatch.metrics_runAfter]
    exact Counted.recordAfter _ (c := Dispatch.afterCall hooks hook kind m who w) rfl rfl _
  · unfold Dispatch.afterCall
    cases ((hooks hook).after who m.encode w).answer with
    | ok output => rfl
    | error failure => rfl

end

/-! ## Runs of a runtime -/

variable {hooks : Hooks H} {w w' : World H}

theorem tallies_perform (w : World H) (e : Effect H) : Tallies w (w.perform e) e.lines := by
  have hlines : e.lines = [e].flatMap Effect.lines := (List.append_nil _).symm
  refine .quiet (w.history_perform e) (w.metrics_perform e) ?_ ?_
  · rw [hlines, callsIn_lines]
  · rw [hlines, errorsIn_lines]

/-- Whatever a dispatch does tallies. -/
theorem tallies_move (h : Move hooks w w') : ∃ rs, Tallies w w' rs := by
  cases h with
  | looked phase kind => exact ⟨[.lookup phase kind _], .quiet rfl rfl rfl rfl⟩
  | ranBefore m who h => exact tallies_runBefore hooks _ _ m who w
  | ranAfter m who h => exact tallies_runAfter hooks _ _ m who w
  | processed processor m =>
    refine ⟨.processed m (processor m w).answer :: (processor m w).effects.flatMap Effect.lines,
      .quiet ?_ ?_ ?_ ?_⟩
    · simp [Pipeline.process]
    · simp [Pipeline.process]
    · exact callsIn_lines _
    · exact errorsIn_lines _
  | advanced kind source target =>
    exact ⟨[.event (.advanced kind source target)], .quiet rfl rfl rfl rfl⟩
  | spawned m session h => exact ⟨[], .quiet (List.append_nil _).symm rfl rfl rfl⟩

theorem tallies_moves (h : Moves hooks w w') : ∃ rs, Tallies w w' rs := by
  induction h with
  | refl => exact ⟨[], .refl w⟩
  | tail _ hmove ih =>
    obtain ⟨rs, hrs⟩ := ih
    obtain ⟨rs', hrs'⟩ := tallies_move hmove
    exact ⟨rs ++ rs', hrs.trans hrs'⟩

theorem tallies_run (hooks : Hooks H) (op : Operation H) (w : World H) :
    ∃ rs, Tallies w (op.run hooks w) rs := by
  cases op with
  | entry e => exact tallies_moves (e.moves hooks w)
  | task place =>
    cases h : w.tasks[place]? with
    | none => exact ⟨[], by rw [Operation.run_task_of_none h]; exact .refl w⟩
    | some t =>
      rw [Operation.run_task_of_some h]
      obtain ⟨rs, hrs⟩ := tallies_runAfter hooks t.hook t.kind t.message t.identity
        { w with tasks := w.tasks.eraseIdx place }
      exact ⟨rs, hrs.history, hrs.counted, hrs.errors⟩
  | effect e => exact ⟨e.lines, tallies_perform w e⟩

theorem tallies_runAll (hooks : Hooks H) (ops : List (Operation H)) (w : World H) :
    ∃ rs, Tallies w (Operation.runAll hooks ops w) rs := by
  induction ops generalizing w with
  | nil => exact ⟨[], .refl w⟩
  | cons op ops ih =>
    obtain ⟨rs, hrs⟩ := tallies_run hooks op w
    obtain ⟨rs', hrs'⟩ := ih (op.run hooks w)
    exact ⟨rs ++ rs', hrs.trans hrs'⟩

/-! ## Balanced accounts -/

namespace World

/-- The calls under a phase and kind that ended in some way. -/
def runs (w : World H) (phase : Phase) (kind : String) (outcome : CallOutcome) : Nat :=
  (callsIn w.history).countP fun c => c.phase = phase ∧ c.kind = kind ∧ c.outcome = outcome

/-- The error lines that name a kind as that of the message. -/
def errorLines (w : World H) (kind : String) : Nat :=
  (errorsIn w.history).countP fun e => ("message_kind", kind) ∈ e.fields

/-- Every call under a phase and kind ended in one of three ways. -/
theorem runs_add_runs_add_runs (w : World H) (phase : Phase) (kind : String) :
    w.runs phase kind .ok + w.runs phase kind .rejected + w.runs phase kind .failed =
      (callsIn w.history).countP fun c => c.phase = phase ∧ c.kind = kind := by
  unfold runs
  induction callsIn w.history with
  | nil => rfl
  | cons c cs ih =>
    simp only [List.countP_cons, ← ih, decide_eq_true_eq]
    by_cases h : c.phase = phase ∧ c.kind = kind
    · cases ho : c.outcome <;> simp [h] <;> omega
    · simp only [← and_assoc, h, false_and, if_false]
      omega

theorem runs_after_rejected (w : World H) (kind : String) : w.runs .after kind .rejected = 0 := by
  refine List.countP_eq_zero.2 fun c _ h => ?_
  obtain ⟨hphase, -, houtcome⟩ := of_decide_eq_true h
  exact Call.outcome_ne_rejected hphase houtcome

end World

/-- The accounts of a runtime that began with none, number by number. Numbers in metrics have 64
bits. -/
structure Balanced (w : World H) : Prop where
  /-- Every run is counted under its phase, kind and outcome. -/
  runs : ∀ phase kind outcome,
    w.metrics.invocations.get (Metrics.invocationLabels phase kind outcome) =
      UInt64.ofNat (w.runs phase kind outcome)
  /-- Every counted run has its time observed. -/
  times : ∀ phase kind, w.metrics.durations.count (Metrics.durationLabels phase kind) =
    w.metrics.invocations.get (Metrics.invocationLabels phase kind .ok) +
      w.metrics.invocations.get (Metrics.invocationLabels phase kind .rejected) +
      w.metrics.invocations.get (Metrics.invocationLabels phase kind .failed)
  /-- No after hook is counted as one that rejected. -/
  rejected : ∀ kind,
    w.metrics.invocations.get (Metrics.invocationLabels .after kind .rejected) = 0
  /-- An after hook's failed run is counted again as a failure. -/
  failures : ∀ kind, w.metrics.afterFailures.get (Metrics.failureLabels kind .callback) =
    w.metrics.invocations.get (Metrics.invocationLabels .after kind .failed)
  /-- No message failed to be written. -/
  unwritten : ∀ kind, w.metrics.afterFailures.get (Metrics.failureLabels kind .encode) = 0
  /-- A failure has one error line, which names its kind. -/
  errorLines : ∀ kind, w.errorLines kind = w.runs .after kind .failed
  /-- The counter of failures agrees with the log. -/
  reported : ∀ kind, w.metrics.afterFailures.get (Metrics.failureLabels kind .callback) =
    UInt64.ofNat (w.errorLines kind)
  /-- There is no other error line: these are, in order, the reports of after hooks that failed. -/
  reports : errorsIn w.history = (callsIn w.history).filterMap Call.report?

theorem Call.report?_mem_iff (c : Call H) (kind : String) :
    ((c.report?.map fun e => decide (("message_kind", kind) ∈ e.fields)).getD false = true) ↔
      c.phase = .after ∧ c.kind = kind ∧ c.outcome = .failed := by
  by_cases h : c.IsFailedAfter
  · obtain ⟨cause, hreport⟩ := c.report?_of_isFailedAfter h
    rw [hreport]
    simp [Event.fields, h.1, h.2, eq_comm]
  · rw [Call.report?_of_not_isFailedAfter h]
    constructor
    · exact nofun
    · rintro ⟨hphase, -, houtcome⟩
      exact absurd ⟨hphase, houtcome⟩ h

theorem errorLines_of_reports {w : World H}
    (h : errorsIn w.history = (callsIn w.history).filterMap Call.report?) (kind : String) :
    w.errorLines kind = w.runs .after kind .failed := by
  unfold World.errorLines World.runs
  rw [h, List.countP_filterMap]
  refine List.countP_congr fun c _ => ?_
  rw [Call.report?_mem_iff, decide_eq_true_eq]

/-- What tallies from nothing is balanced. -/
theorem Tallies.balanced {registry : Registry H} {sessions : Sessions} {w : World H}
    {rs : List (Record H)} (h : Tallies (.fresh registry sessions) w rs) : Balanced w := by
  have hhistory : w.history = rs := h.history
  have hreports : errorsIn w.history = (callsIn w.history).filterMap Call.report? := by
    rw [hhistory]
    exact h.errors
  have hruns : ∀ phase kind outcome,
      w.metrics.invocations.get (Metrics.invocationLabels phase kind outcome) =
        UInt64.ofNat (w.runs phase kind outcome) := by
    intro phase kind outcome
    rw [h.counted.invocations, World.runs, hhistory]
    simp only [Call.invocationLabels, Metrics.sort_invocationLabels_eq_iff]
    exact UInt64.zero_add _
  have hfailures : ∀ kind, w.metrics.afterFailures.get (Metrics.failureLabels kind .callback) =
      UInt64.ofNat (w.runs .after kind .failed) := by
    intro kind
    -- the row of failures counts the same calls as the row of failed runs
    have hswap : ∀ c : Call H, (c.IsFailedAfter ∧ c.kind = kind) ↔
        (c.phase = .after ∧ c.kind = kind ∧ c.outcome = .failed) := fun c => by
      rw [Call.IsFailedAfter, and_assoc, and_comm (a := c.outcome = _)]
    rw [h.counted.failures, World.runs, hhistory]
    simp only [Metrics.sort_failureLabels_eq_iff, and_true, hswap]
    exact UInt64.zero_add _
  refine ⟨hruns, ?_, ?_, ?_, ?_, errorLines_of_reports hreports, ?_, hreports⟩
  · intro phase kind
    rw [hruns, hruns, hruns, ← UInt64.ofNat_add, ← UInt64.ofNat_add,
      World.runs_add_runs_add_runs, h.counted.durations, hhistory]
    simp only [Call.durationLabels, Metrics.sort_durationLabels_eq_iff]
    exact UInt64.zero_add _
  · intro kind
    rw [hruns, World.runs_after_rejected]
    rfl
  · intro kind
    rw [hfailures, hruns]
  · intro kind
    rw [h.counted.failures]
    simp [Metrics.sort_failureLabels_eq_iff, World.fresh, Metrics.empty]
  · intro kind
    rw [hfailures, errorLines_of_reports hreports]

/-- **The accounts balance after every run**: with whatever hooks, registry and sessions, through
whatever operations, and after each of their prefixes, which is a run as well. -/
theorem balanced_runAll (hooks : Hooks H) (registry : Registry H) (sessions : Sessions)
    (ops : List (Operation H)) :
    Balanced (Operation.runAll hooks ops (.fresh registry sessions)) := by
  obtain ⟨rs, hrs⟩ := tallies_runAll hooks ops (.fresh registry sessions)
  exact hrs.balanced

end MessageHooks
