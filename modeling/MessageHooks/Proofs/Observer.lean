import MessageHooks.Proofs.BeforeHook

/-!
# Observers

A hook that only looks can be bound in any slot and alters a message in none. As a before hook it
hands back what it was given, and what it was given is read as the very message again; or it fails,
and then its failure is the caller's error. As an after hook it is asked in the same way, and its
failure is told in the log. Either way it is asked once.

* `Observer.surfaced`: what a caller gets by an observer's answer.
* `Observer.Asked`: an observer was run once, in one of the phases, and did what it does.
* `Observer.asked_runBefore`, `Observer.asked_runAfter`: so it is wherever it is bound.
* `Pipeline.outcome_run`: a run ends as its processor answers to what the before stage returned.
* `Dispatch.observers_cannot_alter`: all of it; and hooks that answer with their input are as good
  as none.
-/

namespace MessageHooks

variable {H : Type} {π : Type} [Family π]

/-! ## Answers -/

/-- What an observer answers to an identity, an object and a state, and does on the way. -/
abbrev Observer (H : Type) :=
  Identity → Json.Object → World H → Reaction H (Except CallbackFailure Unit)

namespace Observer

/-- What the caller of a before hook gets: the very message, or the observer's failure. -/
def surfaced (m : Message π) : Except CallbackFailure Unit → Except Error (Message π)
  | .ok () => .ok m
  | .error (.script cause) => .error (.callback cause)
  | .error (.rejected cause) => .error (.rejected cause)

/-- What an observer hands back of its input: all of it before, nothing after. -/
def handedBack (input : Json.Object) : Phase → Option Json.Object
  | .before => some input
  | .after => none

/-- The line that closes an observer's run. That of a failure has the failure's text. -/
def line (kind : String) (who : Identity) : Phase → Except CallbackFailure Unit → Event
  | .before, .ok () => .beforeApplied kind who.isAnonymous
  | .before, .error failure => .beforeRefused kind failure.message
  | .after, .ok () => .afterRan kind who.isAnonymous
  | .after, .error failure => .afterFailed kind .callback failure.message

/-- From `w` to `w'` the observer `g` was run once. There is one call, for whom the hook acts and
with the object it was given, and its answer is that of `g`, failure and all; the lines of its own
doing follow, and one line that closes the run. Bindings and sessions change by its effects alone,
and no task comes or goes. -/
structure Asked (g : Observer H) (phase : Phase) (hook : H) (kind : String) (who : Identity)
    (input : Json.Object) (w w' : World H) : Prop where
  history : w'.history = w.history ++
    (.call ⟨phase, kind, hook, who, input,
      (g who input w).answer.map fun _ => handedBack input phase⟩ ::
    ((g who input w).effects.flatMap Effect.lines ++
      [.event (line kind who phase (g who input w).answer)]))
  setting : w'.setting = (w.performAll (g who input w).effects).setting
  tasks : w'.tasks = w.tasks

/-! ## Runs -/

variable {hooks : Hooks H} {hook : H} {g : Observer H} (kind : String) (m : Message π)

/-- An observer's input is read as the message it was made from, so what it hands back as a before
hook changes nothing. -/
theorem ruling_surfaced [LawfulFamily π] (who : Identity) (answer : Except CallbackFailure Unit) :
    Dispatch.beforeResult m (answer.map fun _ => m.encode) = surfaced m answer ∧
      Dispatch.beforeLine kind m who (answer.map fun _ => m.encode) =
        line kind who .before answer := by
  cases answer with
  | ok done =>
    show Dispatch.beforeResult m (.ok m.encode) = .ok m ∧
      Dispatch.beforeLine kind m who (.ok m.encode) = .beforeApplied kind who.isAnonymous
    simp only [Dispatch.beforeResult, Dispatch.beforeLine, m.decode_encode, and_self]
  | error failure => cases failure <;> exact ⟨rfl, rfl⟩

theorem asked_runBefore [LawfulFamily π] (hg : hooks hook = .ofObserver g) (who : Identity)
    (w : World H) :
    (Dispatch.runBefore hooks hook kind m who w).1 = surfaced m (g who m.encode w).answer ∧
      g.Asked .before hook kind who m.encode w (Dispatch.runBefore hooks hook kind m who w).2 := by
  have hreaction : (hooks hook).before who m.encode w =
      ⟨(g who m.encode w).answer.map fun _ => m.encode, (g who m.encode w).effects,
        (g who m.encode w).took⟩ := by
    rw [hg]
    rfl
  obtain ⟨hresult, hline⟩ := ruling_surfaced kind m who (g who m.encode w).answer
  have hhistory := Dispatch.history_runBefore hooks hook kind m who w
  have hsetting := Dispatch.setting_runBefore hooks hook kind m who w
  rw [Dispatch.beforeCall, hreaction, hline] at hhistory
  rw [hreaction] at hsetting
  refine ⟨?_, ?_, hsetting, Dispatch.tasks_runBefore hooks hook kind m who w⟩
  · rw [Dispatch.runBefore_eq, hreaction]
    exact hresult
  · rw [hhistory]
    cases (g who m.encode w).answer <;> rfl

theorem asked_runAfter (hg : hooks hook = .ofObserver g) (who : Identity) (w : World H) :
    g.Asked .after hook kind who m.encode w (Dispatch.runAfter hooks hook kind m who w) := by
  have hreaction : (hooks hook).after who m.encode w = g who m.encode w := by
    rw [hg]
    rfl
  have hhistory := Dispatch.history_runAfter hooks hook kind m who w
  have hsetting := Dispatch.setting_runAfter hooks hook kind m who w
  rw [Dispatch.afterCall, hreaction] at hhistory
  rw [hreaction] at hsetting
  refine ⟨?_, hsetting, Dispatch.tasks_runAfter hooks hook kind m who w⟩
  rw [hhistory]
  cases (g who m.encode w).answer <;> rfl

end Observer

/-! ## Slots -/

/-- A pipeline is done with what its processor makes of the message, and rejected with an error. -/
def Outcome.ofResult : Except Error Envelope → Outcome
  | .ok m => .done m
  | .error e => .rejected e

/-- A run ends as its processor answers to the message that the before stage returned. -/
theorem Pipeline.outcome_run (hooks : Hooks H) (mode : AfterMode) (kind : String) (m : Envelope)
    (session : Option String) (processor : Processor H) (w : World H) :
    let stage := Dispatch.beforeMessage hooks kind m session (w.advance kind .received .beforeHook)
    (run hooks mode kind m session processor w).1 =
      .ofResult (stage.1.bind fun b => (processor b stage.2).answer) := by
  cases run_route hooks mode kind m session processor w with
  | refused hbefore hrun =>
    rw [hrun, hbefore]
    rfl
  | @failed b e w₁ w₂ hbefore hprocess hrun =>
    have hanswer : (processor b w₁).answer = .error e := congrArg Prod.fst hprocess
    rw [hrun, hbefore]
    exact (congrArg Outcome.ofResult hanswer).symm
  | @done b p w₁ w₂ hbefore hprocess hrun =>
    have hanswer : (processor b w₁).answer = .ok p := congrArg Prod.fst hprocess
    rw [hrun, hbefore]
    exact (congrArg Outcome.ofResult hanswer).symm

namespace Dispatch

variable {hooks : Hooks H} {hook : H}

/-- In the before slot of a kind, an observer is asked once and lets through or refuses. -/
theorem observed_hookBefore [LawfulFamily π] {g : Observer H} (hg : hooks hook = .ofObserver g)
    (kind : String) (m : Message π) (who : Sessions → Identity) (w : World H)
    (h : w.registry.lookup .before kind = some hook) :
    let v := (w.lookup .before kind).2
    (hookBefore hooks kind m who w).1 =
        Observer.surfaced m (g (who w.sessions) m.encode v).answer ∧
      g.Asked .before hook kind (who w.sessions) m.encode v (hookBefore hooks kind m who w).2 := by
  rw [hookBefore_of_some m who h]
  exact Observer.asked_runBefore kind m hg (who w.sessions) _

theorem observed_hookAfter {g : Observer H} (hg : hooks hook = .ofObserver g) (kind : String)
    (m : Message π) (who : Sessions → Identity) (w : World H)
    (h : w.registry.lookup .after kind = some hook) :
    g.Asked .after hook kind (who w.sessions) m.encode (w.lookup .after kind).2
      (hookAfter hooks kind m who w) := by
  rw [hookAfter_of_some m who h]
  exact Observer.asked_runAfter kind m hg (who w.sessions) _

/-- A before hook that answers with its input returns the message, as if there were no hook. -/
theorem hookBefore_of_echo [LawfulFamily π]
    {f : Identity → Json.Object → World H → Reaction H (Except CallbackFailure Json.Object)}
    (hf : hooks hook = .ofRewrite f) (hecho : ∀ who input w, (f who input w).answer = .ok input)
    (kind : String) (m : Message π) (who : Sessions → Identity) (w : World H)
    (h : w.registry.lookup .before kind = some hook) :
    (hookBefore hooks kind m who w).1 = .ok m ∧
      (hookBefore hooks kind m who (w.unbind .before kind)).1 = .ok m := by
  constructor
  · have hanswer : ((hooks hook).before (who w.sessions) m.encode
        (w.lookup .before kind).2).answer = .ok m.encode := by
      rw [hf]
      exact hecho _ _ _
    rw [hookBefore_of_some m who h, runBefore_eq]
    dsimp only
    rw [hanswer]
    exact (Observer.ruling_surfaced kind m (who w.sessions) (.ok ())).1
  · rw [hookBefore_of_none m who (w.registry.lookup_unregister_self .before kind)]

/-- **An observer alters a message in no slot.** Bound before, for messages of sessions or for
requests, it lets through the very message, or its failure is the caller's error; a pipeline then
goes on with that message. Bound after, for messages, requests or tasks that waited, it is asked for
the same identity and with the same object, and its failure is what the error line tells. In each
slot it is asked once. And a before hook that answers with its input returns what would be returned
without a hook. -/
theorem observers_cannot_alter (hooks : Hooks H) (hook : H) :
    (∀ g : Observer H, hooks hook = .ofObserver g →
      (∀ (kind : String) (m : Envelope) (session : Option String) (w : World H),
        let who := w.sessions.identity session
        (w.registry.lookup .before kind = some hook →
          let v := (w.lookup .before kind).2
          (beforeMessage hooks kind m session w).1 =
              Observer.surfaced m (g who m.encode v).answer ∧
            g.Asked .before hook kind who m.encode v (beforeMessage hooks kind m session w).2) ∧
        (w.registry.lookup .after kind = some hook →
          g.Asked .after hook kind who m.encode (w.lookup .after kind).2
            (afterMessage hooks kind m session w))) ∧
      (∀ (m : AuthRequest) (w : World H),
        (w.registry.lookup .before m.kind = some hook →
          let v := (w.lookup .before m.kind).2
          (beforeAuthentication hooks m w).1 =
              Observer.surfaced m (g .anonymous m.encode v).answer ∧
            g.Asked .before hook m.kind .anonymous m.encode v
              (beforeAuthentication hooks m w).2) ∧
        (w.registry.lookup .after m.kind = some hook → ∀ who : Identity,
          g.Asked .after hook m.kind who m.encode (w.lookup .after m.kind).2
            (afterAuthentication hooks m who w))) ∧
      (∀ (kind : String) (m : Envelope) (who : Identity) (w : World H),
        g.Asked .after hook kind who m.encode w (runTask hooks ⟨hook, kind, m, who⟩ w)) ∧
      ∀ (mode : AfterMode) (kind : String) (m : Envelope) (session : Option String)
        (processor : Processor H) (w : World H), w.registry.lookup .before kind = some hook →
        let v := w.advance kind .received .beforeHook
        let answer := (g (w.sessions.identity session) m.encode (v.lookup .before kind).2).answer
        (Pipeline.run hooks mode kind m session processor w).1 =
          .ofResult ((Observer.surfaced m answer).bind fun b =>
            (processor b (beforeMessage hooks kind m session v).2).answer)) ∧
    ∀ f, hooks hook = .ofRewrite f → (∀ who input w, (f who input w).answer = .ok input) →
      (∀ (kind : String) (m : Envelope) (session : Option String) (w : World H),
        w.registry.lookup .before kind = some hook →
        (beforeMessage hooks kind m session w).1 = .ok m ∧
          (beforeMessage hooks kind m session (w.unbind .before kind)).1 = .ok m) ∧
      ∀ (m : AuthRequest) (w : World H), w.registry.lookup .before m.kind = some hook →
        (beforeAuthentication hooks m w).1 = .ok m ∧
          (beforeAuthentication hooks m (w.unbind .before m.kind)).1 = .ok m := by
  refine ⟨fun g hg => ⟨fun kind m session w => ⟨fun h => ?_, fun h => ?_⟩,
    fun m w => ⟨fun h => ?_, fun h who => ?_⟩, fun kind m who w => ?_,
    fun mode kind m session processor w h => ?_⟩,
    fun f hf hecho => ⟨fun kind m session w h => ?_, fun m w h => ?_⟩⟩
  · rw [beforeMessage_eq]
    exact observed_hookBefore hg kind m (·.identity session) w h
  · rw [afterMessage_eq]
    exact observed_hookAfter hg kind m (·.identity session) w h
  · rw [beforeAuthentication_eq]
    exact observed_hookBefore hg m.kind m (fun _ => .anonymous) w h
  · rw [afterAuthentication_eq]
    exact observed_hookAfter hg m.kind m (fun _ => who) w h
  · exact Observer.asked_runAfter kind m hg who w
  · have hstage := (observed_hookBefore hg kind m (·.identity session)
      (w.advance kind .received .beforeHook) h).1
    rw [← beforeMessage_eq] at hstage
    rw [Pipeline.outcome_run, hstage]
    rfl
  · simp only [beforeMessage_eq]
    exact hookBefore_of_echo hf hecho kind m (·.identity session) w h
  · simp only [beforeAuthentication_eq]
    exact hookBefore_of_echo hf hecho m.kind m (fun _ => .anonymous) w h

/-- An observer that wipes its copy and refuses one address: a call comes through with its collation
id, in and out of a pipeline; the login with that address is refused; and a hook that does nothing
to its object returns the login. -/
theorem nosy_observer_returns_the_call :
    let nosy : List (Action Bool) :=
      [.rejectIf ["email", "email"] (.str "a@b") "not you", .replace []]
    let hooks : Hooks Bool := fun looks => if looks then Script.observerHook nosy else
      Script.rewriteHook []
    let registry : Registry Bool :=
      (Registry.empty.register .before "Rpc" true).register .before "Email" true
    let w : World Bool := .fresh registry .empty
    let call : Envelope := ⟨some "c", .rpc ⟨"id", "payload"⟩⟩
    let login : AuthRequest := .ofPayload (.email ⟨"a@b", "secret"⟩)
    (beforeMessage hooks "Rpc" call none w).1 = .ok call ∧
    (Pipeline.run hooks .inline "Rpc" call none (fun m _ => ⟨.ok m, [], .zero⟩) w).1 = .done call ∧
    (beforeAuthentication hooks login w).1 = .error (.rejected "not you") ∧
    (beforeAuthentication hooks login (w.bind .before "Email" false)).1 = .ok login := by
  intro nosy hooks registry w call login
  obtain ⟨hmessage, hrequest, -, hpipeline⟩ := (observers_cannot_alter hooks true).1 _ rfl
  obtain ⟨-, hecho⟩ := (observers_cannot_alter hooks false).2 _ rfl fun _ _ _ => rfl
  refine ⟨?_, ?_, ?_, ?_⟩
  · rw [((hmessage "Rpc" call none w).1 (by decide)).1]
    rfl
  · rw [hpipeline .inline "Rpc" call none _ w (by decide)]
    rfl
  · rw [((hrequest login w).1 (by decide)).1]
    decide +kernel
  · exact (hecho login _ (by decide)).1

end Dispatch

end MessageHooks
