import Mathlib.Data.List.InsertIdx
import MessageHooks.Proofs.Metrics
import MessageHooks.Proofs.Operation
import MessageHooks.Script

/-!
# The caller's kind

A session's message is dispatched under a kind that the caller gives, which need not be its own. It
selects the hooks and labels what is counted and logged, and that is all: two kinds under which the
same hooks are bound, be it in two registries, cannot be told apart by anything else.

* `Record.mapKind`: a record with another kind for its label.
* `Blind`, `Hook.Blind`: hooks and processors that see no labels, and leave the bindings of the two
  kinds as they are.
* `Entry.Twin`, `Operation.Twin`: the same operation under two kinds.
* `SameButForKind`: two states that differ in the label of everything that was done, and in what is
  bound.
* `kind_only_selects`: twin runs lead to such states, and twin dispatches answer the same.
-/

namespace MessageHooks

variable {H : Type}

/-! ## Labels -/

/-- An event with another kind for its label. -/
def Event.mapKind (f : String → String) : Event → Event
  | .hookRegistered phase kind => .hookRegistered phase (f kind)
  | .beforeUnwritten kind cause => .beforeUnwritten (f kind) cause
  | .beforeApplied kind anonymous => .beforeApplied (f kind) anonymous
  | .beforeRefused kind cause => .beforeRefused (f kind) cause
  | .beforeInvalid kind cause => .beforeInvalid (f kind) cause
  | .afterRan kind anonymous => .afterRan (f kind) anonymous
  | .afterFailed kind stage cause => .afterFailed (f kind) stage cause
  | .advanced kind source target => .advanced (f kind) source target
  | .unknownKind phase kind => .unknownKind phase (f kind)
  | .ready beforeHooks afterHooks mode => .ready beforeHooks afterHooks mode

/-- A record with another kind for its label. What hooks and processors are given, and what they
answer, stays. -/
def Record.mapKind (f : String → String) : Record H → Record H
  | .lookup phase kind found => .lookup phase (f kind) found
  | .call c => .call { c with kind := f c.kind }
  | .processed given answer => .processed given answer
  | .event e => .event (e.mapKind f)

def AfterTask.mapKind (f : String → String) (t : AfterTask H) : AfterTask H :=
  { t with kind := f t.kind }

theorem Event.mapKind_mapKind (f g : String → String) (e : Event) :
    (e.mapKind f).mapKind g = e.mapKind fun kind => g (f kind) := by
  cases e <;> rfl

theorem Record.mapKind_mapKind (f g : String → String) (r : Record H) :
    (r.mapKind f).mapKind g = r.mapKind fun kind => g (f kind) := by
  cases r with
  | lookup | call | processed => rfl
  | event e => exact congrArg Record.event (e.mapKind_mapKind f g)

def replaceKind (k k' kind : String) : String := if kind = k then k' else kind

@[simp] theorem replaceKind_self (k k' : String) : replaceKind k k' k = k' := if_pos rfl

theorem replaceKind_of_ne {k k' kind : String} (h : kind ≠ k) : replaceKind k k' kind = kind :=
  if_neg h

/-- The line that closes a before hook's run bears the caller's kind as its label alone. -/
theorem Dispatch.mapKind_beforeLine {π : Type} [Family π] (k k' : String) (m : Message π)
    (who : Identity) (answer : Except CallbackFailure Json.Object) :
    (beforeLine k m who answer).mapKind (replaceKind k k') = beforeLine k' m who answer := by
  unfold beforeLine
  cases answer with
  | error failure => simp [Event.mapKind]
  | ok output =>
    dsimp only
    cases (Message.decode output m.kind : Except DecodeFault (Message π)) <;>
      simp [Event.mapKind]

theorem Dispatch.mapKind_afterLine (k k' : String) (who : Identity)
    (answer : Except CallbackFailure Unit) :
    (afterLine k who answer).mapKind (replaceKind k k') = afterLine k' who answer := by
  cases answer <;> simp [afterLine, Event.mapKind]

/-! ## Blindness -/

/-- What is left of sessions and history for one who sees no labels, no registry and no metrics. -/
def World.unlabelled (w : World H) : Sessions × List (Record H) :=
  (w.sessions, w.history.map (Record.mapKind fun _ => ""))

/-- An effect leaves the bindings of a kind as they are. -/
def Effect.Spares (kind : String) : Effect H → Prop
  | .bind _ kind' _ | .unbind _ kind' => kind' ≠ kind
  | .rename .. => True

theorem World.lookup_perform_of_spares (w : World H) {e : Effect H} {kind : String}
    (he : e.Spares kind) (phase : Phase) :
    (w.perform e).registry.lookup phase kind = w.registry.lookup phase kind := by
  cases e with
  | bind phase' kind' hook =>
    exact w.registry.lookup_register_of_ne hook fun h => he (Prod.mk.inj h).2.symm
  | unbind phase' kind' =>
    exact w.registry.lookup_unregister_of_ne fun h => he (Prod.mk.inj h).2.symm
  | rename session handle => rfl

theorem Effect.map_mapKind_lines {e : Effect H} {k : String} (he : e.Spares k) (k' : String) :
    e.lines.map (Record.mapKind (replaceKind k k')) = e.lines := by
  cases e with
  | bind phase kind hook => simp [lines, Record.mapKind, Event.mapKind, replaceKind_of_ne he]
  | unbind | rename => rfl

/-- A reaction that sees no labels, and leaves the bindings of two kinds as they are. -/
structure Blind {α : Type} (k k' : String) (f : World H → Reaction H α) : Prop where
  answer : ∀ {w v : World H}, w.unlabelled = v.unlabelled → (f w).answer = (f v).answer
  effects : ∀ {w v : World H}, w.unlabelled = v.unlabelled → (f w).effects = (f v).effects
  spares : ∀ (w : World H), ∀ e ∈ (f w).effects, e.Spares k ∧ e.Spares k'

/-- A hook that sees no labels, and leaves the bindings of two kinds as they are. -/
structure Hook.Blind (k k' : String) (h : Hook H) : Prop where
  before : ∀ who input, MessageHooks.Blind k k' (h.before who input)
  after : ∀ who input, MessageHooks.Blind k k' (h.after who input)

/-- A hook that takes the same time whatever the labels are. -/
structure Hook.Punctual (h : Hook H) : Prop where
  before : ∀ who input {w v : World H}, w.unlabelled = v.unlabelled →
    (h.before who input w).took = (h.before who input v).took
  after : ∀ who input {w v : World H}, w.unlabelled = v.unlabelled →
    (h.after who input w).took = (h.after who input v).took

theorem blind_const {α : Type} {k k' : String} {r : Reaction H α}
    (h : ∀ e ∈ r.effects, e.Spares k ∧ e.Spares k') : Blind k k' fun _ : World H => r where
  answer _ := rfl
  effects _ := rfl
  spares _ := h

/-! ## Scripts -/

/-- A script has no effects but those it names. -/
theorem Script.mem_effects_run {actions : List (Action H)} {object : Json.Object}
    {effects : List (Effect H)} {e : Effect H} (h : e ∈ (run actions object effects).2) :
    e ∈ effects ∨ .effect e ∈ actions := by
  induction actions generalizing object effects with
  | nil => exact .inl h
  | cons a actions ih =>
    cases a with
    | set | delete | upper | replace => exact (ih h).imp_right (List.mem_cons_of_mem _)
    | fail => exact .inl h
    | rejectIf path value message =>
      unfold run at h
      split at h
      · exact .inl h
      · exact (ih h).imp_right (List.mem_cons_of_mem _)
    | effect e' =>
      rcases ih h with hmem | hmem
      · rcases List.mem_append.1 hmem with hmem | hmem
        · exact .inl hmem
        · obtain rfl := List.mem_singleton.1 hmem
          exact .inr List.mem_cons_self
      · exact .inr (List.mem_cons_of_mem _ hmem)

section

variable {k k' : String} {actions : List (Action H)}

theorem Script.blind_react (h : ∀ e, .effect e ∈ actions → e.Spares k ∧ e.Spares k')
    (object : Json.Object) : ∀ e ∈ (react actions object).effects, e.Spares k ∧ e.Spares k' :=
  fun e he => h e ((mem_effects_run he).resolve_left nofun)

theorem Script.blind_rewriteHook (h : ∀ e, .effect e ∈ actions → e.Spares k ∧ e.Spares k') :
    (rewriteHook actions).Blind k k' where
  before _ input := blind_const (blind_react h input)
  after _ input := blind_const (blind_react h input)

theorem Script.punctual_rewriteHook (actions : List (Action H)) :
    (rewriteHook actions).Punctual where
  before _ _ _ _ _ := rfl
  after _ _ _ _ _ := rfl

theorem ProcessorScript.blind_toProcessor (k k' : String) (p : ProcessorScript) (m : Envelope) :
    Blind k k' ((p.toProcessor : Processor H) m) := by
  refine blind_const fun e he => ?_
  obtain ⟨r, -, rfl⟩ := Option.map_eq_some_iff.1 (Option.mem_toList.1 he)
  exact ⟨trivial, trivial⟩

end

/-! ## Metrics -/

/-- Two maps have the same entries under two families of keys, up to a relation between values, and
no other entries. -/
structure SortedMap.Matched {κ ν ι : Type} [KeyOrder κ] (R : ν → ν → Prop) (keys keys' : ι → κ)
    (m m' : SortedMap κ ν) : Prop where
  entries : ∀ i, Option.Rel R (m.get? (keys i)) (m'.get? (keys' i))
  only : ∀ l ∈ m.keys, ∃ i, l = keys i
  only' : ∀ l ∈ m'.keys, ∃ i, l = keys' i

namespace SortedMap.Matched

variable {κ ν ι : Type} [KeyOrder κ] {R : ν → ν → Prop} {keys keys' : ι → κ} {m m' : SortedMap κ ν}

theorem empty : Matched R keys keys' .empty .empty := ⟨fun _ => .none, nofun, nofun⟩

theorem adjust (h : Matched R keys keys' m m') (hkeys : Function.Injective keys)
    (hkeys' : Function.Injective keys') {start : ν} {f f' : ν → ν} (hstart : R start start)
    (hf : ∀ a b, R a b → R (f a) (f' b)) (i : ι) :
    Matched R keys keys' (m.adjust (keys i) start f) (m'.adjust (keys' i) start f') where
  entries j := by
    by_cases hij : j = i
    · subst hij
      rw [get?_adjust_self, get?_adjust_self]
      have hentry := h.entries j
      refine .some (hf _ _ ?_)
      cases hm : m.get? (keys j) with
      | none =>
        cases hm' : m'.get? (keys' j) with
        | none => exact hstart
        | some b => rw [hm, hm'] at hentry; cases hentry
      | some a =>
        cases hm' : m'.get? (keys' j) with
        | none => rw [hm, hm'] at hentry; cases hentry
        | some b =>
          rw [hm, hm'] at hentry
          cases hentry with
          | some hab => exact hab
    · rw [get?_adjust_of_ne _ _ _ (hkeys.ne hij), get?_adjust_of_ne _ _ _ (hkeys'.ne hij)]
      exact h.entries j
  only l hl := by
    rcases mem_keys_of_mem_keys_adjust m hl with rfl | hl
    · exact ⟨i, rfl⟩
    · exact h.only l hl
  only' l hl := by
    rcases mem_keys_of_mem_keys_adjust m' hl with rfl | hl
    · exact ⟨i, rfl⟩
    · exact h.only' l hl

end SortedMap.Matched

/-- The metrics `m` have rows for the kind `k` only, and the metrics `m'` have the same rows for
`k'`. If hooks are not timed alike, rows of times have just the same counts. -/
structure Metrics.SameButForKind (timed : Prop) (k k' : String) (m m' : Metrics) : Prop where
  invocations : SortedMap.Matched Eq
    (fun i : Phase × CallOutcome => (invocationLabels i.1 k i.2).sort)
    (fun i => (invocationLabels i.1 k' i.2).sort) m.invocations.rows m'.invocations.rows
  durations : SortedMap.Matched (fun row row' => row.count = row'.count ∧ (timed → row = row'))
    (fun phase => (durationLabels phase k).sort) (fun phase => (durationLabels phase k').sort)
    m.durations.rows m'.durations.rows
  afterFailures : SortedMap.Matched Eq (fun stage => (failureLabels k stage).sort)
    (fun stage => (failureLabels k' stage).sort) m.afterFailures.rows m'.afterFailures.rows

namespace Metrics.SameButForKind

theorem injective_invocationLabels (k : String) : Function.Injective
    fun i : Phase × CallOutcome => (invocationLabels i.1 k i.2).sort := by
  intro i j h
  obtain ⟨hphase, -, houtcome⟩ := sort_invocationLabels_eq_iff.1 h
  exact Prod.ext hphase houtcome

theorem injective_durationLabels (k : String) : Function.Injective
    fun phase => (durationLabels phase k).sort :=
  fun _ _ h => (sort_durationLabels_eq_iff.1 h).1

theorem injective_failureLabels (k : String) : Function.Injective
    fun stage => (failureLabels k stage).sort :=
  fun _ _ h => (sort_failureLabels_eq_iff.1 h).2

variable {timed : Prop} {k k' : String} {m m' : Metrics}

theorem empty : SameButForKind timed k k' .empty .empty := ⟨.empty, .empty, .empty⟩

theorem recordInvocation (h : SameButForKind timed k k' m m') (phase : Phase)
    (outcome : CallOutcome) {took took' : Duration} (htook : timed → took = took') :
    SameButForKind timed k k' (m.recordInvocation phase k outcome took)
      (m'.recordInvocation phase k' outcome took') where
  invocations := h.invocations.adjust (injective_invocationLabels k)
    (injective_invocationLabels k') rfl (fun _ _ hab => congrArg (· + 1) hab) (phase, outcome)
  durations := by
    have hobserve (row row' : HistogramRow) (h : row.count = row'.count ∧ (timed → row = row')) :
        (row.observe took.microseconds).count = (row'.observe took'.microseconds).count ∧
          (timed → row.observe took.microseconds = row'.observe took'.microseconds) := by
      refine ⟨congrArg (· + 1) h.1, fun ht => ?_⟩
      rw [htook ht, h.2 ht]
    exact h.durations.adjust (injective_durationLabels k) (injective_durationLabels k')
      ⟨rfl, fun _ => rfl⟩ hobserve phase
  afterFailures := h.afterFailures

theorem recordAfterFailure (h : SameButForKind timed k k' m m') (stage : FailureStage) :
    SameButForKind timed k k' (m.recordAfterFailure k stage) (m'.recordAfterFailure k' stage) where
  invocations := h.invocations
  durations := h.durations
  afterFailures := h.afterFailures.adjust (injective_failureLabels k) (injective_failureLabels k')
    rfl (fun _ _ hab => congrArg (· + 1) hab) stage

theorem recordAfter (h : SameButForKind timed k k' m m') {took took' : Duration}
    (htook : timed → took = took') (answer : Except CallbackFailure Unit) :
    SameButForKind timed k k' (m.recordAfter k took answer) (m'.recordAfter k' took' answer) := by
  cases answer with
  | ok _ => exact h.recordInvocation .after .ok htook
  | error failure =>
    exact (h.recordInvocation .after .failed htook).recordAfterFailure .callback

end Metrics.SameButForKind

/-! ## States -/

/-- Two states that differ in what is bound, and in that everything that was done bears the label
`k` in one of them and `k'` in the other. -/
structure SameButForKind (timed : Prop) (k k' : String) (w v : World H) : Prop where
  sessions : v.sessions = w.sessions
  tasks : v.tasks = w.tasks.map (AfterTask.mapKind (replaceKind k k'))
  metrics : Metrics.SameButForKind timed k k' w.metrics v.metrics
  history : v.history = w.history.map (Record.mapKind (replaceKind k k'))

/-- A hook that is blind to two kinds and, if hooks are timed alike, punctual. -/
def Fit (timed : Prop) (k k' : String) (h : Hook H) : Prop := h.Blind k k' ∧ (timed → h.Punctual)

/-- Two states in which, in some phases, the same fit hooks are bound under two kinds, and fit hooks
wait under the first of them, and which are else the same but for the kind. -/
structure Alike (hooks : Hooks H) (phases : Phase → Prop) (timed : Prop) (k k' : String)
    (w v : World H) : Prop extends SameButForKind timed k k' w v where
  bound : ∀ phase, phases phase → v.registry.lookup phase k' = w.registry.lookup phase k
  fit : ∀ phase hook, phases phase → w.registry.lookup phase k = some hook →
    Fit timed k k' (hooks hook)
  waiting : ∀ t ∈ w.tasks, t.kind = k ∧ Fit timed k k' (hooks t.hook)

namespace Alike

variable {hooks : Hooks H} {phases : Phase → Prop} {timed : Prop} {k k' : String} {w v : World H}

theorem fresh {registry registry' : Registry H} (sessions : Sessions)
    (hbound : ∀ phase, phases phase → registry'.lookup phase k' = registry.lookup phase k)
    (hfit : ∀ phase hook, phases phase → registry.lookup phase k = some hook →
      Fit timed k k' (hooks hook)) :
    Alike hooks phases timed k k' (.fresh registry sessions) (.fresh registry' sessions) where
  sessions := rfl
  tasks := rfl
  metrics := .empty
  history := rfl
  bound := hbound
  fit := hfit
  waiting := nofun

/-- One who sees no labels sees no difference. -/
theorem unlabelled (h : Alike hooks phases timed k k' w v) : w.unlabelled = v.unlabelled := by
  have hlabels (r : Record H) : (r.mapKind (replaceKind k k')).mapKind (fun _ => "") =
      r.mapKind fun _ => "" := r.mapKind_mapKind _ _
  simp only [World.unlabelled, h.sessions, h.history, List.map_map, Function.comp_def, hlabels]

theorem note (h : Alike hooks phases timed k k' w v) {r r' : Record H}
    (hr : r' = r.mapKind (replaceKind k k')) :
    Alike hooks phases timed k k' (w.note r) (v.note r') where
  sessions := h.sessions
  tasks := h.tasks
  metrics := h.metrics
  history := by
    rw [World.history_note, World.history_note, List.map_append, h.history, hr]
    rfl
  bound := h.bound
  fit := h.fit
  waiting := h.waiting

theorem withMetrics (h : Alike hooks phases timed k k' w v) {m m' : Metrics}
    (hmetrics : Metrics.SameButForKind timed k k' m m') :
    Alike hooks phases timed k k' { w with metrics := m } { v with metrics := m' } :=
  { h with metrics := hmetrics }

theorem lookup (h : Alike hooks phases timed k k' w v) {phase : Phase} (hphase : phases phase) :
    Alike hooks phases timed k k' (w.lookup phase k).2 (v.lookup phase k').2 := by
  refine h.note ?_
  rw [h.bound phase hphase, Record.mapKind, replaceKind_self]

theorem perform (h : Alike hooks phases timed k k' w v) {e : Effect H} (he : e.Spares k)
    (he' : e.Spares k') : Alike hooks phases timed k k' (w.perform e) (v.perform e) where
  sessions := World.sessions_performAll_congr h.sessions [e]
  tasks := by
    rw [World.tasks_perform, World.tasks_perform]
    exact h.tasks
  metrics := by
    rw [World.metrics_perform, World.metrics_perform]
    exact h.metrics
  history := by
    rw [World.history_perform, World.history_perform, List.map_append, h.history,
      Effect.map_mapKind_lines he]
  bound phase hphase := by
    rw [World.lookup_perform_of_spares w he, World.lookup_perform_of_spares v he']
    exact h.bound phase hphase
  fit phase hook hphase hhook := by
    rw [World.lookup_perform_of_spares w he] at hhook
    exact h.fit phase hook hphase hhook
  waiting t ht := by
    rw [World.tasks_perform] at ht
    exact h.waiting t ht

theorem performAll (h : Alike hooks phases timed k k' w v) {effects : List (Effect H)}
    (hspares : ∀ e ∈ effects, e.Spares k ∧ e.Spares k') :
    Alike hooks phases timed k k' (w.performAll effects) (v.performAll effects) := by
  induction effects generalizing w v with
  | nil => exact h
  | cons e effects ih =>
    rw [List.forall_mem_cons] at hspares
    obtain ⟨⟨he, he'⟩, hrest⟩ := hspares
    exact ih (h.perform he he') hrest

/-! ## Hooks and processors -/

section

variable {π : Type} [Family π] {hook : H}

/-- A fit before hook is given the same, answers the same, and leaves the same. -/
theorem runBefore (h : Alike hooks phases timed k k' w v) (hfit : Fit timed k k' (hooks hook))
    (m : Message π) (who : Identity) :
    (Dispatch.runBefore hooks hook k m who w).1 = (Dispatch.runBefore hooks hook k' m who v).1 ∧
    Alike hooks phases timed k k' (Dispatch.runBefore hooks hook k m who w).2
      (Dispatch.runBefore hooks hook k' m who v).2 := by
  have hblind := hfit.1.before who m.encode
  have hanswer := hblind.answer h.unlabelled
  have heffects := hblind.effects h.unlabelled
  have hcall : (.call (Dispatch.beforeCall hooks hook k' m who v) : Record H) =
      (Record.call (Dispatch.beforeCall hooks hook k m who w)).mapKind (replaceKind k k') := by
    simp [Record.mapKind, Dispatch.beforeCall, hanswer]
  have hdone := (h.note hcall).performAll (hblind.spares w)
  have hcounted := hdone.withMetrics (hdone.metrics.recordInvocation .before
    (Dispatch.beforeOutcome m ((hooks hook).before who m.encode w).answer)
    fun ht => (hfit.2 ht).before who m.encode h.unlabelled)
  rw [Dispatch.runBefore_eq, Dispatch.runBefore_eq]
  dsimp only
  rw [← hanswer, ← heffects]
  refine ⟨rfl, hcounted.note ?_⟩
  exact congrArg Record.event (Dispatch.mapKind_beforeLine k k' m who _).symm

theorem runAfter (h : Alike hooks phases timed k k' w v) (hfit : Fit timed k k' (hooks hook))
    (m : Message π) (who : Identity) :
    Alike hooks phases timed k k' (Dispatch.runAfter hooks hook k m who w)
      (Dispatch.runAfter hooks hook k' m who v) := by
  have hblind := hfit.1.after who m.encode
  have hanswer := hblind.answer h.unlabelled
  have heffects := hblind.effects h.unlabelled
  have hcall : (.call (Dispatch.afterCall hooks hook k' m who v) : Record H) =
      (Record.call (Dispatch.afterCall hooks hook k m who w)).mapKind (replaceKind k k') := by
    simp [Record.mapKind, Dispatch.afterCall, hanswer]
  have hdone := (h.note hcall).performAll (hblind.spares w)
  have hcounted := hdone.withMetrics (hdone.metrics.recordAfter
    (fun ht => (hfit.2 ht).after who m.encode h.unlabelled)
    ((hooks hook).after who m.encode w).answer)
  rw [Dispatch.runAfter_eq, Dispatch.runAfter_eq]
  dsimp only
  rw [← hanswer, ← heffects]
  refine hcounted.note ?_
  exact congrArg Record.event (Dispatch.mapKind_afterLine k k' who _).symm

theorem hookBefore (h : Alike hooks phases timed k k' w v) (hphase : phases .before)
    (m : Message π) (who : Sessions → Identity) :
    (Dispatch.hookBefore hooks k m who w).1 = (Dispatch.hookBefore hooks k' m who v).1 ∧
    Alike hooks phases timed k k' (Dispatch.hookBefore hooks k m who w).2
      (Dispatch.hookBefore hooks k' m who v).2 :=
  have hlook := h.lookup hphase
  Dispatch.hookBefore_related m (h.bound .before hphase) (congrArg who h.sessions) hlook
    fun hook hhook => hlook.runBefore (h.fit .before hook hphase hhook) m (who w.sessions)

theorem hookAfter (h : Alike hooks phases timed k k' w v) (hphase : phases .after)
    (m : Message π) (who : Sessions → Identity) :
    Alike hooks phases timed k k' (Dispatch.hookAfter hooks k m who w)
      (Dispatch.hookAfter hooks k' m who v) :=
  have hlook := h.lookup hphase
  Dispatch.hookAfter_related m (h.bound .after hphase) (congrArg who h.sessions) hlook
    fun hook hhook => hlook.runAfter (h.fit .after hook hphase hhook) m (who w.sessions)

end

/-! ## Dispatches -/

theorem spawnAfter (h : Alike hooks phases timed k k' w v) (hphase : phases .after)
    (m : Envelope) (session : Option String) :
    (Dispatch.spawnAfter k m session w).1 = (Dispatch.spawnAfter k' m session v).1 ∧
    Alike hooks phases timed k k' (Dispatch.spawnAfter k m session w).2
      (Dispatch.spawnAfter k' m session v).2 := by
  have hlook := h.lookup hphase
  refine Dispatch.spawnAfter_related m session (h.bound .after hphase) hlook fun hook hhook => ?_
  let t : AfterTask H := ⟨hook, k, m, (w.lookup .after k).2.sessions.identity session⟩
  let t' : AfterTask H := ⟨hook, k', m, (v.lookup .after k').2.sessions.identity session⟩
  have htask : t' = t.mapKind (replaceKind k k') := by
    simp [t, t', AfterTask.mapKind, hlook.sessions]
  have htasks : (v.lookup .after k').2.tasks ++ [t'] =
      ((w.lookup .after k).2.tasks ++ [t]).map (AfterTask.mapKind (replaceKind k k')) := by
    rw [List.map_append, hlook.tasks, htask]
    rfl
  refine { hlook with tasks := htasks, waiting := fun t ht => ?_ }
  rcases List.mem_append.1 ht with ht | ht
  · exact h.waiting t ht
  · obtain rfl := List.mem_singleton.1 ht
    exact ⟨rfl, h.fit .after hook hphase hhook⟩

theorem process (h : Alike hooks phases timed k k' w v) {processor : Processor H} {m : Envelope}
    (hblind : Blind k k' (processor m)) :
    (Pipeline.process processor m w).1 = (Pipeline.process processor m v).1 ∧
    Alike hooks phases timed k k' (Pipeline.process processor m w).2
      (Pipeline.process processor m v).2 := by
  have hanswer := hblind.answer h.unlabelled
  have heffects := hblind.effects h.unlabelled
  unfold Pipeline.process
  dsimp only
  rw [← hanswer, ← heffects]
  exact ⟨rfl, (h.note rfl).performAll (hblind.spares w)⟩

theorem advance (h : Alike hooks phases timed k k' w v) (source target : LifecycleState) :
    Alike hooks phases timed k k' (w.advance k source target) (v.advance k' source target) := by
  refine h.note ?_
  rw [Record.mapKind, Event.mapKind, replaceKind_self]

theorem afterStage (h : Alike hooks phases timed k k' w v) (hphase : phases .after)
    (mode : AfterMode) (m : Envelope) (session : Option String) :
    Alike hooks phases timed k k' (Pipeline.afterStage hooks mode k m session w)
      (Pipeline.afterStage hooks mode k' m session v) := by
  cases mode with
  | inline =>
    rw [Pipeline.afterStage, Pipeline.afterStage, Dispatch.afterMessage_eq,
      Dispatch.afterMessage_eq]
    exact h.hookAfter hphase m _
  | detached => exact (h.spawnAfter hphase m session).2

theorem pipeline (h : Alike hooks phases timed k k' w v) (hbefore : phases .before)
    (hafter : phases .after) {processor : Processor H} (hblind : ∀ m, Blind k k' (processor m))
    (mode : AfterMode) (m : Envelope) (session : Option String) :
    (Pipeline.run hooks mode k m session processor w).1 =
      (Pipeline.run hooks mode k' m session processor v).1 ∧
    Alike hooks phases timed k k' (Pipeline.run hooks mode k m session processor w).2
      (Pipeline.run hooks mode k' m session processor v).2 := by
  refine Pipeline.run_related (fun source target _ _ h => h.advance source target) ?_
    (fun b _ _ h => h.process (hblind b))
    (fun p _ _ h => h.afterStage hafter mode p session) h
  intro w' v' h
  rw [Dispatch.beforeMessage_eq, Dispatch.beforeMessage_eq]
  exact h.hookBefore hbefore m _

theorem task (h : Alike hooks phases timed k k' w v) (place : Nat) :
    Alike hooks phases timed k k' (Operation.run hooks w (.task place))
      (Operation.run hooks v (.task place)) := by
  have htasks : v.tasks[place]? = w.tasks[place]?.map (AfterTask.mapKind (replaceKind k k')) := by
    rw [h.tasks, List.getElem?_map]
  cases ht : w.tasks[place]? with
  | none =>
    rw [ht] at htasks
    rw [Operation.run_task_of_none ht, Operation.run_task_of_none htasks]
    exact h
  | some t =>
    rw [ht] at htasks
    obtain ⟨hkind, hfit⟩ := h.waiting t (List.mem_of_getElem? ht)
    have htaken : Alike hooks phases timed k k' { w with tasks := w.tasks.eraseIdx place }
        { v with tasks := v.tasks.eraseIdx place } :=
      { h with
        tasks := by rw [h.tasks, List.eraseIdx_map]
        waiting := fun t' ht' => h.waiting t' (List.mem_of_mem_eraseIdx ht') }
    have hrun := htaken.runAfter hfit t.message t.identity
    rw [Operation.run_task_of_some ht, Operation.run_task_of_some htasks, Dispatch.runTask,
      Dispatch.runTask, AfterTask.mapKind, hkind, replaceKind_self]
    exact hrun

end Alike

/-! ## Twins -/

/-- The same dispatch under two kinds, which uses hooks of some phases only. -/
inductive Entry.Twin (phases : Phase → Prop) (k k' : String) : Entry H → Entry H → Prop
  | before (hphase : phases .before) (m : Envelope) (session : Option String) :
    Twin phases k k' (.before k m session) (.before k' m session)
  | after (hphase : phases .after) (m : Envelope) (session : Option String) :
    Twin phases k k' (.after k m session) (.after k' m session)
  | spawn (hphase : phases .after) (m : Envelope) (session : Option String) :
    Twin phases k k' (.spawn k m session) (.spawn k' m session)
  | pipeline (hbefore : phases .before) (hafter : phases .after) (mode : AfterMode) (m : Envelope)
    (session : Option String) {processor : Processor H} (hblind : ∀ m, Blind k k' (processor m)) :
    Twin phases k k' (.pipeline mode k m session processor) (.pipeline mode k' m session processor)

inductive Operation.Twin (phases : Phase → Prop) (k k' : String) :
    Operation H → Operation H → Prop
  | entry {e e' : Entry H} (h : e.Twin phases k k' e') : Twin phases k k' (.entry e) (.entry e')
  | task (place : Nat) : Twin phases k k' (.task place) (.task place)
  | effect {e : Effect H} (he : e.Spares k) (he' : e.Spares k') :
    Twin phases k k' (.effect e) (.effect e)

section

variable {hooks : Hooks H} {phases : Phase → Prop} {timed : Prop} {k k' : String} {w v : World H}

theorem Alike.entry (h : Alike hooks phases timed k k' w v) {e e' : Entry H}
    (he : e.Twin phases k k' e') :
    (e.run hooks w).1 = (e'.run hooks v).1 ∧
      Alike hooks phases timed k k' (e.run hooks w).2 (e'.run hooks v).2 := by
  cases he with
  | before hphase m session =>
    rw [Entry.run, Entry.run, Dispatch.beforeMessage_eq, Dispatch.beforeMessage_eq]
    obtain ⟨hanswer, hstep⟩ := h.hookBefore hphase m (·.identity session)
    exact ⟨congrArg Answer.envelope hanswer, hstep⟩
  | after hphase m session =>
    rw [Entry.run, Entry.run, Dispatch.afterMessage_eq, Dispatch.afterMessage_eq]
    exact ⟨rfl, h.hookAfter hphase m (·.identity session)⟩
  | spawn hphase m session =>
    obtain ⟨hanswer, hstep⟩ := h.spawnAfter hphase m session
    exact ⟨congrArg Answer.spawned hanswer, hstep⟩
  | pipeline hbefore hafter mode m session hblind =>
    obtain ⟨hanswer, hstep⟩ := h.pipeline hbefore hafter hblind mode m session
    exact ⟨congrArg Answer.outcome hanswer, hstep⟩

theorem Alike.run (h : Alike hooks phases timed k k' w v) {op op' : Operation H}
    (hop : op.Twin phases k k' op') :
    Alike hooks phases timed k k' (op.run hooks w) (op'.run hooks v) := by
  cases hop with
  | entry he => exact (h.entry he).2
  | task place => exact h.task place
  | effect he he' => exact h.perform he he'

theorem Alike.runAll (h : Alike hooks phases timed k k' w v) {ops ops' : List (Operation H)}
    (hops : List.Forall₂ (Operation.Twin phases k k') ops ops') :
    Alike hooks phases timed k k' (Operation.runAll hooks ops w)
      (Operation.runAll hooks ops' v) := by
  induction hops generalizing w v with
  | nil => exact h
  | cons hop _ ih => exact ih (h.run hop)

end

/-- **The caller's kind only selects the hooks.** If two kinds have the same hooks in two
registries, in the phases that are used, then twin runs do the same but for the label of what they
do: they look up, call and process the same, for the same identities, with the same answers, and
they count and log the same. After such runs twin dispatches return the same. What is made of a
before hook's answer depends on the message and not on the kind it was dispatched under. -/
theorem kind_only_selects {hooks : Hooks H} {phases : Phase → Prop} {timed : Prop} {k k' : String}
    {registry registry' : Registry H}
    (hbound : ∀ phase, phases phase → registry'.lookup phase k' = registry.lookup phase k)
    (hfit : ∀ phase hook, phases phase → registry.lookup phase k = some hook →
      Fit timed k k' (hooks hook))
    (sessions : Sessions) {ops ops' : List (Operation H)}
    (hops : List.Forall₂ (Operation.Twin phases k k') ops ops') :
    let w := Operation.runAll hooks ops (.fresh registry sessions)
    let v := Operation.runAll hooks ops' (.fresh registry' sessions)
    SameButForKind timed k k' w v ∧
    (∀ e e', Entry.Twin phases k k' e e' →
      (e.run hooks w).1 = (e'.run hooks v).1 ∧
        SameButForKind timed k k' (e.run hooks w).2 (e'.run hooks v).2) ∧
    ∀ m session hook, w.registry.lookup .before k = some hook →
      (Dispatch.beforeMessage hooks k m session w).1 = Dispatch.beforeResult m
        ((hooks hook).before (w.sessions.identity session) m.encode
          (w.lookup .before k).2).answer := by
  intro w v
  have halike := (Alike.fresh sessions hbound hfit).runAll hops
  refine ⟨halike.toSameButForKind, fun e e' he => ?_, fun m session hook hhook => ?_⟩
  · obtain ⟨hanswer, hstep⟩ := halike.entry he
    exact ⟨hanswer, hstep.toSameButForKind⟩
  · rw [Dispatch.beforeMessage_of_some m session hhook, Dispatch.runBefore_eq]

/-- A message is dispatched under its own kind, and under another kind in a registry that binds
another hook to its own: a hook that would refuse it, and is not called. -/
theorem alias_selects_the_same :
    let hooks : Hooks Bool := fun refuses =>
      Script.rewriteHook [if refuses then .fail (.rejected "no") else .upper ["rpc", "payload"]]
    let registry := (Registry.empty.register .before "Rpc" false).register .after "Rpc" false
    let registry' := ((Registry.empty.register .before "Alias" false).register .after "Alias"
      false).register .before "Rpc" true
    let processor : Processor Bool := (ProcessorScript.mk none none none (some "c")).toProcessor
    let m : Envelope := .ofPayload (.rpc ⟨"id", "payload"⟩)
    let ops : List (Operation Bool) :=
      [.entry (.pipeline .detached "Rpc" m none processor), .task 0]
    let ops' : List (Operation Bool) :=
      [.entry (.pipeline .detached "Alias" m none processor), .task 0]
    (∀ phase, True → registry'.lookup phase "Alias" = registry.lookup phase "Rpc") ∧
      (∀ phase hook, True → registry.lookup phase "Rpc" = some hook →
        Fit True "Rpc" "Alias" (hooks hook)) ∧
      List.Forall₂ (Operation.Twin (fun _ => True) "Rpc" "Alias") ops ops' ∧
      SameButForKind True "Rpc" "Alias" (Operation.runAll hooks ops (.fresh registry .empty))
        (Operation.runAll hooks ops' (.fresh registry' .empty)) := by
  intro hooks registry registry' processor m ops ops'
  have hbound : ∀ phase, True → registry'.lookup phase "Alias" = registry.lookup phase "Rpc" := by
    intro phase _
    cases phase <;> decide +kernel
  have hfit : ∀ phase hook, True → registry.lookup phase "Rpc" = some hook →
      Fit True "Rpc" "Alias" (hooks hook) := by
    intro _ refuses _ _
    refine ⟨Script.blind_rewriteHook fun e he => ?_, fun _ => Script.punctual_rewriteHook _⟩
    cases refuses <;> simp at he
  have hblind : ∀ m, Blind "Rpc" "Alias" (processor m) := ProcessorScript.blind_toProcessor _ _ _
  have hops : List.Forall₂ (Operation.Twin (fun _ => True) "Rpc" "Alias") ops ops' :=
    .cons (.entry (.pipeline trivial trivial .detached m none hblind)) (.cons (.task 0) .nil)
  exact ⟨hbound, hfit, hops, (kind_only_selects hbound hfit .empty hops).1⟩

end MessageHooks
