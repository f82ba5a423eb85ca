import Mathlib.Data.List.Induction
import MessageHooks.Proofs.Ledger
import MessageHooks.Proofs.Shows
import MessageHooks.Proofs.Snapshot

/-!
# Whom hooks act for

A hook acts for nobody, for somebody that the caller gives, or for whom a session names. A session
is constructed with a user, an expiry and a handle, of which the handle alone may be set anew; what
a hook is told is the handle that was set last before its stage of the dispatch began.

* `lastHandle?`: the handle that effects set last.
* `Actor.identityAfter`: the identity of an actor, told from the sessions as they were constructed
  and the effects since then.
* `Entry.effectsUntil`: the effects of a dispatch before one of its stages begins.
* `Provenance`: why a call acts for its identity. A task acts for the identity of its spawn.
* `calls_act_for`: every call has its provenance, and only effects change sessions.
-/

namespace MessageHooks

variable {H : Type}

/-! ## Renames -/

/-- The handle that an effect gives to the user of a session. -/
def Effect.handle? (name : String) : Effect H → Option String
  | .rename session handle => if session = name then some handle else none
  | .bind .. | .unbind .. => none

/-- The handle that effects give last to the user of a session, if they give one. -/
def lastHandle? (name : String) (effects : List (Effect H)) : Option String :=
  (effects.filterMap (Effect.handle? name)).getLast?

theorem lastHandle?_cons (name : String) (e : Effect H) (effects : List (Effect H)) :
    lastHandle? name (e :: effects) = (lastHandle? name effects).or (e.handle? name) := by
  unfold lastHandle?
  cases h : e.handle? name with
  | none => rw [List.filterMap_cons_none h, Option.or_none]
  | some handle =>
    rw [List.filterMap_cons_some h, List.getLast?_cons]
    cases (effects.filterMap (Effect.handle? name)).getLast? <;> rfl

theorem World.get?_sessions_perform (w : World H) (e : Effect H) (name : String) :
    (w.perform e).sessions.get? name =
      (w.sessions.get? name).map fun s => s.rename ((e.handle? name).getD s.handle) := by
  cases e with
  | bind | unbind => exact Option.map_id'.symm
  | rename session handle =>
    show (w.sessions.rename session handle).get? name = _
    simp only [Effect.handle?, Sessions.rename]
    by_cases h : session = name
    · subst h
      rw [if_pos rfl]
      cases hs : w.sessions.get? session with
      | none => exact hs
      | some s => exact SortedMap.get?_insert_self _ _ _
    · rw [if_neg h]
      cases w.sessions.get? session with
      | none => exact Option.map_id'.symm
      | some s => exact (w.sessions.get?_insert_of_ne _ (Ne.symm h)).trans Option.map_id'.symm

/-- Effects change a session by its last rename alone. -/
theorem World.get?_sessions_performAll (w : World H) (effects : List (Effect H)) (name : String) :
    (w.performAll effects).sessions.get? name =
      (w.sessions.get? name).map fun s => s.rename ((lastHandle? name effects).getD s.handle) := by
  induction effects generalizing w with
  | nil => exact Option.map_id'.symm
  | cons e effects ih =>
    show ((w.perform e).performAll effects).sessions.get? name = _
    rw [ih, World.get?_sessions_perform, Option.map_map, lastHandle?_cons]
    cases lastHandle? name effects <;> rfl

/-! ## Actors -/

/-- Whom a dispatch acts for: somebody given, or whom a session names. -/
inductive Actor where
  | given (who : Identity)
  | session (name : Option String)

namespace Actor

def identity (sessions : Sessions) : Actor → Identity
  | .given who => who
  | .session name => sessions.identity name

/-- The identity of an actor after effects on sessions as they were constructed: user and expiry are
those of the construction, and the handle is the one that was set last. -/
def identityAfter (constructed : Sessions) (effects : List (Effect H)) : Actor → Identity
  | .given who => who
  | .session none => ⟨.nil, "", 0⟩
  | .session (some name) =>
    match constructed.get? name with
    | none => ⟨.nil, "", 0⟩
    | some s => ⟨s.userId, (lastHandle? name effects).getD s.handle, s.expiry⟩

theorem identity_performAll (w : World H) (effects : List (Effect H)) (a : Actor) :
    a.identity (w.performAll effects).sessions = a.identityAfter w.sessions effects := by
  cases a with
  | given who => rfl
  | session name =>
    cases name with
    | none => rfl
    | some name =>
      show Identity.extract ((w.performAll effects).sessions.get? name) = _
      rw [World.get?_sessions_performAll, identityAfter]
      cases w.sessions.get? name <;> rfl

end Actor

namespace Entry

/-- Whom a dispatch acts for. A request that is not yet authenticated is nobody's. -/
def actor : Entry H → Actor
  | .before _ _ session | .after _ _ session | .spawn _ _ session => .session session
  | .pipeline _ _ _ session _ => .session session
  | .beforeAuthentication _ => .given ⟨.nil, "", 0⟩
  | .afterAuthentication _ who => .given who

/-- The effects of a dispatch before one of its stages begins. There are such effects where a
before hook and a processor come before the after stage. -/
def effectsUntil (hooks : Hooks H) (w : World H) : Entry H → Phase → List (Effect H)
  | .pipeline _ kind m session processor, .after =>
    Pipeline.earlyEffects hooks kind m session processor w
  | _, _ => []

end Entry

/-! ## Calls -/

/-- From `w` to `w'` these calls were made. -/
abbrev Makes (w w' : World H) (cs : List (Call H)) : Prop := Shows Record.call? w w' cs

theorem plain_call? : Plain (Record.call? : Record H → Option (Call H)) where
  lookup _ _ _ := rfl
  processed _ _ := rfl
  line _ _ := rfl

theorem Makes.of_calls {w w' : World H} {cs : List (Call H)}
    (h : Shows Record.call? w w' (cs.filterMap fun c => Record.call? (.call c))) :
    Makes w w' cs := by
  have hall : (cs.filterMap fun c => Record.call? (.call c)) = cs := List.filterMap_some
  rw [hall] at h
  exact h

theorem makes_hookBefore {π : Type} [Family π] (hooks : Hooks H) (kind : String) (m : Message π)
    (w : World H) (who : Sessions → Identity) :
    ∃ cs, Makes w (Dispatch.hookBefore hooks kind m who w).2 cs ∧
      ∀ c ∈ cs, c.phase = .before ∧ c.identity = who w.sessions := by
  obtain ⟨cs, hcs, hcalls⟩ := plain_call?.hookBefore w hooks kind m who
  exact ⟨cs, .of_calls hcs, hcalls⟩

theorem makes_hookAfter {π : Type} [Family π] (hooks : Hooks H) (kind : String) (m : Message π)
    (w : World H) (who : Sessions → Identity) :
    ∃ cs, Makes w (Dispatch.hookAfter hooks kind m who w) cs ∧
      ∀ c ∈ cs, c.phase = .after ∧ c.identity = who w.sessions := by
  obtain ⟨cs, hcs, hcalls⟩ := plain_call?.hookAfter w hooks kind m who
  exact ⟨cs, .of_calls hcs, hcalls⟩

theorem makes_advance (w : World H) (kind : String) (source target : LifecycleState) :
    Makes w (w.advance kind source target) [] := ⟨_, rfl, rfl⟩

theorem makes_process (processor : Processor H) (m : Envelope) (w : World H) :
    Makes w (Pipeline.process processor m w).2 [] :=
  (plain_call?.note_processed w m _).trans (plain_call?.process w m processor)

/-- A hook is called for whom the session names when its stage begins. -/
theorem makes_pipeline (hooks : Hooks H) (mode : AfterMode) (kind : String) (m : Envelope)
    (session : Option String) (processor : Processor H) (w : World H) :
    ∃ cs, Makes w (Pipeline.run hooks mode kind m session processor w).2 cs ∧ ∀ c ∈ cs,
      c.phase = .before ∧ c.identity = w.sessions.identity session ∨
      c.phase = .after ∧ c.identity = (w.performAll
        (Pipeline.earlyEffects hooks kind m session processor w)).sessions.identity session := by
  obtain ⟨cs, hcs, hbefore⟩ := makes_hookBefore hooks kind m (w.advance kind .received .beforeHook)
    (·.identity session)
  rw [← Dispatch.beforeMessage_eq] at hcs
  have hfirst := (makes_advance w kind .received .beforeHook).trans hcs
  cases Pipeline.run_route hooks mode kind m session processor w with
  | refused hb hrun =>
    rw [hb] at hfirst
    rw [hrun]
    refine ⟨_, hfirst.trans (makes_advance ..), fun c hc => .inl (hbefore c ?_)⟩
    simpa using hc
  | @failed b e w₁ w₂ hb hp hrun =>
    rw [hb] at hfirst
    have hprocess := makes_process processor b w₁
    rw [hp] at hprocess
    rw [hrun]
    refine ⟨_, (hfirst.trans hprocess).trans (makes_advance ..), fun c hc => .inl (hbefore c ?_)⟩
    simpa using hc
  | @done b p w₁ w₂ hb hp hrun =>
    rw [hb] at hfirst
    have hprocess := makes_process processor b w₁
    rw [hp] at hprocess
    -- the after stage begins in the sessions that the early effects have left
    have hsessions := congrArg Prod.snd (Pipeline.setting_of_process hb hp)
    obtain ⟨cs', hcs', hafter⟩ := plain_call?.afterStage
      ((w₂.advance kind .beforeHook .processed).advance kind .processed .afterHook) hooks kind p
      session mode
    rw [hrun]
    refine ⟨_, ((((hfirst.trans hprocess).trans (makes_advance ..)).trans
      (makes_advance ..)).trans (Makes.of_calls hcs')).trans (makes_advance ..), fun c hc => ?_⟩
    simp only [List.append_nil, List.nil_append, List.mem_append] at hc
    rcases hc with hc | hc
    · exact .inl (hbefore c hc)
    · obtain ⟨hphase, hidentity⟩ := hafter c hc
      exact .inr ⟨hphase, hidentity.trans (congrArg (·.identity session) hsessions)⟩

theorem Entry.makes_run (hooks : Hooks H) (w : World H) (e : Entry H) :
    ∃ cs, Makes w (e.run hooks w).2 cs ∧ ∀ c ∈ cs,
      c.identity = e.actor.identity (w.performAll (e.effectsUntil hooks w c.phase)).sessions := by
  cases e with
  | before kind m session =>
    obtain ⟨cs, hcs, hcalls⟩ := makes_hookBefore hooks kind m w (·.identity session)
    rw [← Dispatch.beforeMessage_eq] at hcs
    exact ⟨cs, hcs, fun c hc => (hcalls c hc).2⟩
  | after kind m session =>
    obtain ⟨cs, hcs, hcalls⟩ := makes_hookAfter hooks kind m w (·.identity session)
    rw [← Dispatch.afterMessage_eq] at hcs
    exact ⟨cs, hcs, fun c hc => (hcalls c hc).2⟩
  | spawn kind m session => exact ⟨[], plain_call?.spawnAfter w kind m session, by simp⟩
  | beforeAuthentication m =>
    obtain ⟨cs, hcs, hcalls⟩ := makes_hookBefore hooks m.kind m w fun _ => .anonymous
    rw [← Dispatch.beforeAuthentication_eq] at hcs
    exact ⟨cs, hcs, fun c hc => (hcalls c hc).2⟩
  | afterAuthentication m who =>
    obtain ⟨cs, hcs, hcalls⟩ := makes_hookAfter hooks m.kind m w fun _ => who
    rw [← Dispatch.afterAuthentication_eq] at hcs
    exact ⟨cs, hcs, fun c hc => (hcalls c hc).2⟩
  | pipeline mode kind m session processor =>
    obtain ⟨cs, hcs, hcalls⟩ := makes_pipeline hooks mode kind m session processor w
    refine ⟨cs, hcs, fun c hc => ?_⟩
    rcases hcalls c hc with ⟨hphase, hidentity⟩ | ⟨hphase, hidentity⟩
    · rw [hphase]
      exact hidentity
    · rw [hphase]
      exact hidentity

/-! ## Tasks -/

theorem tasks_afterStage_inline (hooks : Hooks H) (kind : String) (m : Envelope)
    (session : Option String) (w : World H) :
    (Pipeline.afterStage hooks .inline kind m session w).tasks = w.tasks := by
  rw [Pipeline.afterStage, Dispatch.afterMessage_eq, Dispatch.tasks_hookAfter]

theorem tasks_spawnAfter_or (kind : String) (m : Envelope) (session : Option String)
    (w : World H) : (Dispatch.spawnAfter kind m session w).2.tasks = w.tasks ∨
      ∃ t, (Dispatch.spawnAfter kind m session w).2.tasks = w.tasks ++ [t] ∧
        t.identity = w.sessions.identity session := by
  rw [Dispatch.tasks_spawnAfter]
  cases w.registry.lookup .after kind with
  | none => exact .inl (List.append_nil _)
  | some hook => exact .inr ⟨_, rfl, rfl⟩

/-- The task of a pipeline is made for whom the session names when the after stage begins. -/
theorem tasks_pipeline_or (hooks : Hooks H) (mode : AfterMode) (kind : String) (m : Envelope)
    (session : Option String) (processor : Processor H) (w : World H) :
    (Pipeline.run hooks mode kind m session processor w).2.tasks = w.tasks ∨
      ∃ t, (Pipeline.run hooks mode kind m session processor w).2.tasks = w.tasks ++ [t] ∧
        t.identity = (w.performAll
          (Pipeline.earlyEffects hooks kind m session processor w)).sessions.identity session := by
  have hbefore := Dispatch.tasks_beforeMessage hooks kind (w.advance kind .received .beforeHook) m
    session
  cases Pipeline.run_route hooks mode kind m session processor w with
  | refused hb hrun =>
    rw [hb] at hbefore
    rw [hrun]
    exact .inl hbefore
  | @failed b e w₁ w₂ hb hp hrun =>
    have hprocess := Pipeline.tasks_process processor b w₁
    rw [hb] at hbefore
    rw [hp] at hprocess
    rw [hrun]
    exact .inl (hprocess.trans hbefore)
  | @done b p w₁ w₂ hb hp hrun =>
    have hprocess := Pipeline.tasks_process processor b w₁
    have hsessions := congrArg Prod.snd (Pipeline.setting_of_process hb hp)
    rw [hb] at hbefore
    rw [hp] at hprocess
    have htasks : w₂.tasks = w.tasks := hprocess.trans hbefore
    rw [hrun]
    cases mode with
    | inline => exact .inl ((tasks_afterStage_inline hooks kind p session _).trans htasks)
    | detached =>
      rcases tasks_spawnAfter_or kind p session
        ((w₂.advance kind .beforeHook .processed).advance kind .processed .afterHook) with
        hnone | ⟨t, hmade, hidentity⟩
      · exact .inl (hnone.trans htasks)
      · refine .inr ⟨t, hmade.trans (congrArg (· ++ [t]) htasks), ?_⟩
        exact hidentity.trans (congrArg (·.identity session) hsessions)

theorem Entry.tasks_run (hooks : Hooks H) (w : World H) (e : Entry H) :
    (e.run hooks w).2.tasks = w.tasks ∨ ∃ t, (e.run hooks w).2.tasks = w.tasks ++ [t] ∧
      t.identity = e.actor.identity (w.performAll (e.effectsUntil hooks w .after)).sessions := by
  cases e with
  | before kind m session =>
    rw [run, Dispatch.beforeMessage_eq]
    exact .inl (Dispatch.tasks_hookBefore m _)
  | after kind m session =>
    rw [run, Dispatch.afterMessage_eq]
    exact .inl (Dispatch.tasks_hookAfter m _)
  | spawn kind m session => exact tasks_spawnAfter_or kind m session w
  | beforeAuthentication m =>
    rw [run, Dispatch.beforeAuthentication_eq]
    exact .inl (Dispatch.tasks_hookBefore m _)
  | afterAuthentication m who =>
    rw [run, Dispatch.afterAuthentication_eq]
    exact .inl (Dispatch.tasks_hookAfter m _)
  | pipeline mode kind m session processor =>
    exact tasks_pipeline_or hooks mode kind m session processor w

/-- A task that waits after an operation has waited before it, or is made by it. -/
theorem track_or_made {hooks : Hooks H} {w : World H} {op : Operation H} {place : Nat}
    {t : AfterTask H} (h : (op.run hooks w).tasks[place]? = some t) :
    (∃ place', w.tasks[place']? = some t ∧ op.track place' = some place) ∨
      ∃ e, op = .entry e ∧ place = w.tasks.length ∧ (e.run hooks w).2.tasks = w.tasks ++ [t] ∧
        t.identity = e.actor.identity (w.performAll (e.effectsUntil hooks w .after)).sessions := by
  cases op with
  | entry e =>
    rcases e.tasks_run hooks w with hnone | ⟨t', hmade, hidentity⟩
    · exact .inl ⟨place, hnone ▸ h, rfl⟩
    · have hplace : (w.tasks ++ [t'])[place]? = some t := hmade ▸ h
      rw [List.getElem?_append] at hplace
      split at hplace
      · exact .inl ⟨place, hplace, rfl⟩
      · -- one task at most is added, so the place behind the old ones is that of the new one
        have hlast : place - w.tasks.length = 0 := by
          have := (List.getElem?_eq_some_iff.1 hplace).1
          simpa using this
        rw [hlast] at hplace
        obtain rfl : t' = t := Option.some.inj hplace
        exact .inr ⟨e, rfl, by omega, hmade, hidentity⟩
  | task i =>
    rw [Operation.tasks_run_task, List.getElem?_eraseIdx] at h
    split at h
    · next hlt =>
      refine .inl ⟨place, h, ?_⟩
      rw [Operation.track, if_neg (by omega), if_neg (by omega)]
    · next hge =>
      refine .inl ⟨place + 1, h, ?_⟩
      rw [Operation.track, if_pos (by omega)]
      rfl
  | effect e => exact .inl ⟨place, by simpa [Operation.run] using h, rfl⟩

theorem Operation.follow_concat (place : Nat) (ops : List (Operation H)) (op : Operation H) :
    follow place (ops ++ [op]) = (follow place ops).bind op.track := by
  induction ops generalizing place with
  | nil => exact Option.bind_fun_some _
  | cons op' ops ih =>
    show (op'.track place).bind (fun p => follow p (ops ++ [op])) = _
    simp only [ih]
    exact (Option.bind_assoc _ _ _).symm

/-- Where a waiting task comes from: some dispatch of the run has made it, behind those that waited
then, for its actor as of the beginning of its after stage. -/
inductive Origin (hooks : Hooks H) (w : World H) : List (Operation H) → Nat → AfterTask H → Prop
  | made {earlier between : List (Operation H)} {e : Entry H} {place : Nat} {t : AfterTask H}
    (htasks : (e.run hooks (Operation.runAll hooks earlier w)).2.tasks =
      (Operation.runAll hooks earlier w).tasks ++ [t])
    (hplace : Operation.follow (Operation.runAll hooks earlier w).tasks.length between = some place)
    (hidentity : t.identity = e.actor.identityAfter w.sessions
      (Operation.ledger hooks earlier w ++
        e.effectsUntil hooks (Operation.runAll hooks earlier w) .after)) :
    Origin hooks w (earlier ++ .entry e :: between) place t

theorem Operation.makes_run_task {hooks : Hooks H} {w : World H} {place : Nat} {t : AfterTask H}
    (h : w.tasks[place]? = some t) :
    ∃ c, Makes w (run hooks w (.task place)) [c] ∧ c.phase = .after ∧ c.kind = t.kind ∧
      c.hook = t.hook ∧ c.identity = t.identity := by
  rw [run_task_of_some h]
  exact ⟨_, plain_call?.runAfter { w with tasks := w.tasks.eraseIdx place } hooks t.hook t.kind
    t.message t.identity, rfl, rfl, rfl, rfl⟩

/-! ## Provenance -/

section

variable (hooks : Hooks H) (w : World H)

theorem Operation.runAll_concat (ops : List (Operation H)) (op : Operation H) :
    runAll hooks (ops ++ [op]) w = op.run hooks (runAll hooks ops w) :=
  List.foldl_concat ..

/-- After a run and some effects the ledger and these effects tell an actor's identity. -/
theorem Actor.identity_after_run (ops : List (Operation H)) (effects : List (Effect H))
    (a : Actor) :
    a.identity ((Operation.runAll hooks ops w).performAll effects).sessions =
      a.identityAfter w.sessions (Operation.ledger hooks ops w ++ effects) := by
  have hsetting := World.setting_performAll_congr (Operation.setting_runAll hooks w ops) effects
  rw [← World.performAll_append] at hsetting
  have hsessions := congrArg Prod.snd hsetting
  exact (congrArg a.identity hsessions).trans (a.identity_performAll w _)

variable {hooks w}

/-- A task keeps its origin while it waits. -/
theorem Origin.concat {ops : List (Operation H)} {place place' : Nat} {t : AfterTask H}
    {op : Operation H} (h : Origin hooks w ops place t) (hop : op.track place = some place') :
    Origin hooks w (ops ++ [op]) place' t := by
  obtain ⟨htasks, hplace, hidentity⟩ := h
  rw [List.append_assoc, List.cons_append]
  refine .made htasks ?_ hidentity
  rw [Operation.follow_concat, hplace]
  exact hop

/-- Every task that waits after a run has its origin in the run. -/
theorem origin_of_waiting (hw : w.tasks = []) {ops : List (Operation H)} {place : Nat}
    {t : AfterTask H} (h : (Operation.runAll hooks ops w).tasks[place]? = some t) :
    Origin hooks w ops place t := by
  induction ops using List.reverseRecOn generalizing place with
  | nil =>
    rw [Operation.runAll_nil, hw] at h
    cases h
  | append_singleton ops op ih =>
    rw [Operation.runAll_concat] at h
    rcases track_or_made h with ⟨place', hwaits, hop⟩ | ⟨e, rfl, rfl, hmade, hidentity⟩
    · exact (ih hwaits).concat hop
    · refine .made hmade rfl ?_
      rw [hidentity, Actor.identity_after_run]

end

/-- Why a call of an operation, which comes after a run, acts for its identity: it belongs to a
stage of a dispatch, and acts for the actor of the dispatch as of the beginning of the stage; or it
is the call of a task, and acts for the identity that the task was made with. -/
inductive Provenance (hooks : Hooks H) (w : World H) (ops : List (Operation H)) :
    Operation H → Call H → Prop
  | stage {e : Entry H} {c : Call H}
    (hidentity : c.identity = e.actor.identityAfter w.sessions (Operation.ledger hooks ops w ++
      e.effectsUntil hooks (Operation.runAll hooks ops w) c.phase)) :
    Provenance hooks w ops (.entry e) c
  | task {place : Nat} {t : AfterTask H} {c : Call H} (horigin : Origin hooks w ops place t)
    (hphase : c.phase = .after) (hkind : c.kind = t.kind) (hhook : c.hook = t.hook)
    (hidentity : c.identity = t.identity) : Provenance hooks w ops (.task place) c

/-- **Every call acts for whom it should**, in every run and with whatever hooks and processors: for
nobody before authentication and without a session, for whom the caller gives after authentication,
and else for the user of the session, by the handle that was set last before the stage began. And
users and expiries stay as they were constructed, while handles are changed by effects alone. -/
theorem calls_act_for (hooks : Hooks H) (registry : Registry H) (sessions : Sessions)
    (ops : List (Operation H)) (op : Operation H) :
    let w : World H := .fresh registry sessions
    let v := Operation.runAll hooks ops w
    let v' := op.run hooks v
    (∃ cs, callsIn v'.history = callsIn v.history ++ cs ∧
      ∀ c ∈ cs, Provenance hooks w ops op c) ∧
    ∀ name, v'.sessions.get? name = (v.sessions.get? name).map fun s =>
      ⟨s.userId, (lastHandle? name (op.effects hooks v)).getD s.handle, s.expiry⟩ := by
  intro w v v'
  constructor
  · cases op with
    | entry e =>
      obtain ⟨cs, hcs, hcalls⟩ := e.makes_run hooks v
      refine ⟨cs, hcs.filterMap_history, fun c hc => .stage ?_⟩
      rw [hcalls c hc, Actor.identity_after_run]
    | task place =>
      cases h : v.tasks[place]? with
      | none =>
        have hsame : v' = v := Operation.run_task_of_none h
        exact ⟨[], by rw [hsame, List.append_nil], nofun⟩
      | some t =>
        obtain ⟨c, hrun, hphase, hkind, hhook, hidentity⟩ :=
          Operation.makes_run_task h
        refine ⟨[c], hrun.filterMap_history, fun c' hc' => ?_⟩
        obtain rfl := List.mem_singleton.1 hc'
        exact .task (origin_of_waiting rfl h) hphase hkind hhook hidentity
    | effect e =>
      exact ⟨[], (plain_call?.performAll v [e]).filterMap_history, by simp⟩
  · intro name
    have hsessions := congrArg Prod.snd (Operation.setting_run hooks v op)
    exact (congrArg (·.get? name) hsessions).trans (World.get?_sessions_performAll v _ name)

/-- A before hook that renames its session is told the old handle, and the after hook the new
one. -/
example :
    let hooks : Hooks Bool := fun renames =>
      Script.observerHook (if renames then [.effect (.rename "s" "bob")] else [])
    let registry := (Registry.empty.register .before "Rpc" true).register .after "Rpc" false
    let pipeline : Entry Bool := .pipeline .inline "Rpc" (.ofPayload (.rpc ⟨"id", "payload"⟩))
      (some "s") (ProcessorScript.mk none none none none).toProcessor
    let w : World Bool := .fresh registry (SortedMap.empty.insert "s" ⟨.nil, "ann", 7⟩)
    (callsIn (pipeline.run hooks w).2.history).map (·.identity.handle) = ["ann", "bob"] := by
  decide +kernel

end MessageHooks
