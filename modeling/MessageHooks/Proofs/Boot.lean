import MessageHooks.Boot
import MessageHooks.Message.Authentication
import MessageHooks.Message.Envelope
import MessageHooks.Proofs.Registry
import Mathlib.Data.Set.Card

/-!
# What lets a runtime start

A runtime starts with a supported configuration. What hooks are bound to kinds that no message has
is told in the log, one line for each of them in the order of the registry, and in strict mode the
first of them ends the start. A runtime that starts says last how many hooks there are.

* `Boot.Stray`: a binding of a kind that no message has; `Boot.strays`: all of them, in order.
* `Boot.Logs`: the warnings of a start and its summary.
* `Boot.Gated`: the rules of a start, by what is bound; `Boot.start_is_gated`: they hold of every
  configuration and registry, however its hooks came to be bound.
-/

namespace MessageHooks.Boot

variable {H : Type}

/-! ## Bindings of unknown kinds -/

/-- Some message is of the kind. -/
def Known (kind : String) : Prop :=
  kind ∈ Family.names Request ∨ kind ∈ Family.names Credential

instance (kind : String) : Decidable (Known kind) := inferInstanceAs (Decidable (_ ∨ _))

theorem isKnownKind_iff {kind : String} : isKnownKind kind = true ↔ Known kind := by
  simp [isKnownKind, Known]

/-- A hook is bound there, and no message will ever reach it. -/
def Stray (r : Registry H) (b : Phase × String) : Prop :=
  (r.lookup b.1 b.2).isSome ∧ ¬Known b.2

/-- The bindings that no message will ever reach, in the order of the registry. -/
def strays (r : Registry H) : List (Phase × String) := r.registered.filter fun b => ¬Known b.2

theorem mem_strays_iff {r : Registry H} {b : Phase × String} : b ∈ strays r ↔ Stray r b := by
  rw [strays, List.mem_filter, Registry.mem_registered_iff, decide_eq_true_iff, Stray]

theorem strays_eq_nil_iff {r : Registry H} : strays r = [] ↔ ∀ b, ¬Stray r b := by
  simp only [List.eq_nil_iff_forall_not_mem, mem_strays_iff]

theorem pairwise_strays (r : Registry H) : (strays r).Pairwise Registry.Precedes :=
  r.pairwise_registered.filter _

/-- The first binding of an unknown kind: all others come after it. -/
def FirstStray (r : Registry H) (b : Phase × String) : Prop :=
  Stray r b ∧ ∀ b', Stray r b' → b' = b ∨ Registry.Precedes b b'

theorem firstStray_of_cons {r : Registry H} {b : Phase × String} {bs : List (Phase × String)}
    (h : strays r = b :: bs) : FirstStray r b := by
  have hpairwise := pairwise_strays r
  rw [h, List.pairwise_cons] at hpairwise
  refine ⟨mem_strays_iff.1 (h ▸ List.mem_cons_self), fun b' hb' => ?_⟩
  rw [← mem_strays_iff, h, List.mem_cons] at hb'
  exact hb'.imp_right (hpairwise.1 b')

theorem FirstStray.unique {r : Registry H} {b b' : Phase × String} (h : FirstStray r b)
    (h' : FirstStray r b') : b' = b := by
  rcases h.2 b' h'.1 with heq | hlt
  · exact heq
  · rcases h'.2 b h.1 with heq | hlt'
    · exact heq.symm
    · exact absurd hlt' (Registry.asymm_precedes hlt)

/-! ## The walk over the bindings -/

/-- The line in the log about a binding that no message will ever reach. -/
def warning (b : Phase × String) : Event := .unknownKind b.1 b.2

/-- A lenient walk tells of all bindings of unknown kinds. -/
theorem checkKinds_lenient (bound : List (Phase × String)) :
    checkKinds false bound = ((bound.filter fun b => ¬Known b.2).map warning, .ok ()) := by
  induction bound with
  | nil => rfl
  | cons b bound ih =>
    obtain ⟨phase, kind⟩ := b
    rw [checkKinds, ih]
    by_cases hknown : Known kind
    · rw [if_pos (isKnownKind_iff.2 hknown), List.filter_cons_of_neg (by simpa using hknown)]
    · rw [if_neg (mt isKnownKind_iff.1 hknown), List.filter_cons_of_pos (by simpa using hknown)]
      rfl

/-- A strict walk gets to the end where there are none. -/
theorem checkKinds_strict_of_nil {bound : List (Phase × String)}
    (h : (bound.filter fun b => ¬Known b.2) = []) : checkKinds true bound = ([], .ok ()) := by
  induction bound with
  | nil => rfl
  | cons b bound ih =>
    obtain ⟨phase, kind⟩ := b
    rw [List.filter_eq_nil_iff, List.forall_mem_cons, ← List.filter_eq_nil_iff] at h
    have hknown : Known kind := by simpa using h.1
    rw [checkKinds, if_pos (isKnownKind_iff.2 hknown), ih h.2]

theorem checkKinds_strict_of_cons {bound rest : List (Phase × String)} {b : Phase × String}
    (h : (bound.filter fun b => ¬Known b.2) = b :: rest) :
    checkKinds true bound = ([warning b], .error (unknownKindError b.1 b.2)) := by
  induction bound with
  | nil => cases h
  | cons b' bound ih =>
    obtain ⟨phase, kind⟩ := b'
    rw [checkKinds]
    by_cases hknown : Known kind
    · rw [List.filter_cons_of_neg (by simpa using hknown)] at h
      rw [if_pos (isKnownKind_iff.2 hknown), ih h]
    · rw [List.filter_cons_of_pos (by simpa using hknown)] at h
      obtain ⟨rfl, -⟩ := List.cons.inj h
      rw [if_neg (mt isKnownKind_iff.1 hknown)]
      rfl

/-! ## Start -/

variable {config : Config} {r : Registry H}

theorem validate_eq (h : config.version = 1) : config.validate = .ok () := if_pos h

theorem start_of_version_ne (h : config.version ≠ 1) (bound : List (Phase × String)) :
    start config bound = ([], .error .unsupportedVersion) := by
  have hvalidate : config.validate = .error .unsupportedVersion := if_neg h
  rw [start, hvalidate]

theorem start_lenient (h : config.version = 1)
    (hlenient : config.dispatch.failOnUnknownKind = false) :
    start config r.registered =
      ((strays r).map warning ++ [readyEvent config.dispatch.afterMode r.registered], .ok ()) := by
  rw [start, validate_eq h, hlenient, checkKinds_lenient]
  rfl

theorem start_strict_of_nil (h : config.version = 1)
    (hstrict : config.dispatch.failOnUnknownKind = true) (hnone : strays r = []) :
    start config r.registered =
      ([readyEvent config.dispatch.afterMode r.registered], .ok ()) := by
  rw [start, validate_eq h, hstrict, checkKinds_strict_of_nil hnone]
  rfl

theorem start_strict_of_cons (h : config.version = 1)
    (hstrict : config.dispatch.failOnUnknownKind = true) {b : Phase × String}
    {bs : List (Phase × String)} (hstrays : strays r = b :: bs) :
    start config r.registered = ([warning b], .error (unknownKindError b.1 b.2)) := by
  rw [start, validate_eq h, hstrict, checkKinds_strict_of_cons hstrays]

/-! ## What is told at the end -/

/-- The hooks of a phase are counted kind by kind. -/
theorem countP_registered (r : Registry H) (phase : Phase) :
    r.registered.countP (fun b => b.1 == phase) =
      {kind | (r.lookup phase kind).isSome}.ncard := by
  let kinds := (r.registered.filter fun b => b.1 == phase).map Prod.snd
  have hmem : ∀ kind, kind ∈ kinds ↔ (r.lookup phase kind).isSome := by
    intro kind
    rw [← Registry.mem_registered_iff]
    simp [kinds]
  have hnodup : kinds.Nodup := by
    -- Of one phase no kind comes twice, as the pair would come before itself.
    refine List.pairwise_map.2 ((r.pairwise_registered.filter _).imp_of_mem ?_)
    intro a b ha hb hlt heq
    have hphase : a.1 = b.1 := by
      rw [List.mem_filter, beq_iff_eq] at ha hb
      rw [ha.2, hb.2]
    obtain rfl : a = b := Prod.ext hphase heq
    exact Registry.asymm_precedes hlt hlt
  have hset : {kind | (r.lookup phase kind).isSome} = (kinds.toFinset : Set String) := by
    ext kind
    simp [hmem]
  rw [hset, Set.ncard_coe_finset, List.toFinset_card_of_nodup hnodup, List.length_map,
    List.countP_eq_length_filter]

/-- The line in the log of a runtime that starts: how many hooks there are of each phase. -/
noncomputable def summary (r : Registry H) (mode : AfterMode) : Event :=
  .ready {kind | (r.lookup .before kind).isSome}.ncard
    {kind | (r.lookup .after kind).isSome}.ncard mode

theorem readyEvent_registered (r : Registry H) (mode : AfterMode) :
    readyEvent mode r.registered = summary r mode := by
  rw [readyEvent, countP_registered, countP_registered, summary]

/-! ## The rules of a start -/

def atLevel (level : Level) (events : List Event) : List Event :=
  events.filter fun e => e.level = level

/-- The log of a start: a warning for each of some bindings, then the summary, if there is one. -/
structure Logs (events : List Event) (warned : List (Phase × String)) (last : Option Event) :
    Prop where
  inOrder : events = warned.map warning ++ last.toList
  warnings : atLevel .warn events = warned.map warning
  summaries : atLevel .info events = last.toList

theorem logs_of_eq {events : List Event} {warned : List (Phase × String)} {last : Option Event}
    (h : events = warned.map warning ++ last.toList) (hlast : ∀ e ∈ last, e.level = .info) :
    Logs events warned last := by
  have hwarned : ∀ e ∈ warned.map warning, e.level = .warn := by
    intro e he
    obtain ⟨b, -, rfl⟩ := List.mem_map.1 he
    rfl
  have hlast' : ∀ e ∈ last.toList, e.level = .info := fun e he => hlast e (Option.mem_toList.1 he)
  refine ⟨h, ?_, ?_⟩
  · rw [h, atLevel, List.filter_append, List.filter_eq_self.2 fun e he => by simp [hwarned e he],
      List.filter_eq_nil_iff.2 fun e he => by simp [hlast' e he], List.append_nil]
  · rw [h, atLevel, List.filter_append,
      List.filter_eq_nil_iff.2 fun e he => by simp [hwarned e he],
      List.filter_eq_self.2 fun e he => by simp [hlast' e he], List.nil_append]

/-- The rules of a start, by the configuration and by what is bound. -/
structure Gated (config : Config) (r : Registry H) (events : List Event)
    (result : Except Error Unit) : Prop where
  starts_iff : result = .ok () ↔ config.version = 1 ∧
    (config.dispatch.failOnUnknownKind = false ∨
      ∀ phase kind, (r.lookup phase kind).isSome → Known kind)
  unsupported : config.version ≠ 1 → events = [] ∧ result = .error .unsupportedVersion
  lenient : config.version = 1 → config.dispatch.failOnUnknownKind = false →
    Logs events (strays r) (some (summary r config.dispatch.afterMode))
  strict : config.version = 1 → config.dispatch.failOnUnknownKind = true → (∀ b, ¬Stray r b) →
    Logs events [] (some (summary r config.dispatch.afterMode))
  refused : config.version = 1 → config.dispatch.failOnUnknownKind = true →
    ∀ phase kind, FirstStray r (phase, kind) →
      Logs events [(phase, kind)] none ∧
        result =
          .error (.badRequest (phase.text ++ " hook bound to unknown message kind: " ++ kind))
  exists_first : (∃ b, Stray r b) → ∃ b, FirstStray r b

theorem forall_not_stray_iff {r : Registry H} : (∀ b, ¬Stray r b) ↔
    ∀ phase kind, (r.lookup phase kind).isSome → Known kind := by
  simp only [Stray, not_and, not_not, Prod.forall]

theorem exists_firstStray {r : Registry H} (h : ∃ b, Stray r b) : ∃ b, FirstStray r b := by
  cases hstrays : strays r with
  | nil => exact absurd h (not_exists.2 (strays_eq_nil_iff.1 hstrays))
  | cons b bs => exact ⟨b, firstStray_of_cons hstrays⟩

theorem gated_of_unsupported (h : config.version ≠ 1) :
    Gated config r [] (.error .unsupportedVersion) where
  starts_iff := iff_of_false nofun fun hstart => h hstart.1
  unsupported _ := ⟨rfl, rfl⟩
  lenient hversion := absurd hversion h
  strict hversion := absurd hversion h
  refused hversion := absurd hversion h
  exists_first := exists_firstStray

theorem gated_of_lenient (h : config.version = 1)
    (hlenient : config.dispatch.failOnUnknownKind = false) :
    Gated config r ((strays r).map warning ++ [summary r config.dispatch.afterMode]) (.ok ()) where
  starts_iff := iff_of_true rfl ⟨h, .inl hlenient⟩
  unsupported hversion := absurd h hversion
  lenient _ _ := logs_of_eq rfl fun _ he => by cases he; rfl
  strict _ hstrict := by rw [hlenient] at hstrict; cases hstrict
  refused _ hstrict := by rw [hlenient] at hstrict; cases hstrict
  exists_first := exists_firstStray

theorem gated_of_strict (h : config.version = 1)
    (hstrict : config.dispatch.failOnUnknownKind = true) (hnone : strays r = []) :
    Gated config r [summary r config.dispatch.afterMode] (.ok ()) where
  starts_iff := iff_of_true rfl ⟨h, .inr (forall_not_stray_iff.1 (strays_eq_nil_iff.1 hnone))⟩
  unsupported hversion := absurd h hversion
  lenient _ hlenient := by rw [hstrict] at hlenient; cases hlenient
  strict _ _ _ := logs_of_eq rfl fun _ he => by cases he; rfl
  refused _ _ phase kind hfirst := absurd hfirst.1 (strays_eq_nil_iff.1 hnone (phase, kind))
  exists_first := exists_firstStray

theorem gated_of_refused (h : config.version = 1)
    (hstrict : config.dispatch.failOnUnknownKind = true) {b : Phase × String}
    {bs : List (Phase × String)} (hstrays : strays r = b :: bs) :
    Gated config r [warning b] (.error (unknownKindError b.1 b.2)) where
  starts_iff := by
    have hstray : Stray r b := (firstStray_of_cons hstrays).1
    refine iff_of_false nofun ?_
    rintro ⟨-, hlenient | hknown⟩
    · rw [hstrict] at hlenient
      cases hlenient
    · exact forall_not_stray_iff.2 hknown b hstray
  unsupported hversion := absurd h hversion
  lenient _ hlenient := by rw [hstrict] at hlenient; cases hlenient
  strict _ _ hnone := absurd (firstStray_of_cons hstrays).1 (hnone b)
  refused _ _ phase kind hfirst := by
    obtain rfl := hfirst.unique (firstStray_of_cons hstrays)
    exact ⟨logs_of_eq rfl nofun, rfl⟩
  exists_first := exists_firstStray

/-- **What lets a runtime start**, and what is told of it: the configuration and what is bound
decide, and registries that have hooks bound at the same places are treated alike, in whatever order
they were bound. -/
theorem start_is_gated (config : Config) (r : Registry H) :
    Gated config r (start config r.registered).1 (start config r.registered).2 ∧
      ∀ r' : Registry H,
        (∀ phase kind, (r'.lookup phase kind).isSome = (r.lookup phase kind).isSome) →
        start config r'.registered = start config r.registered := by
  refine ⟨?_, fun r' h => by rw [Registry.registered_congr h]⟩
  by_cases hversion : config.version = 1
  · cases hmode : config.dispatch.failOnUnknownKind with
    | false =>
      rw [start_lenient hversion hmode, readyEvent_registered]
      exact gated_of_lenient hversion hmode
    | true =>
      cases hstrays : strays r with
      | nil =>
        rw [start_strict_of_nil hversion hmode hstrays, readyEvent_registered]
        exact gated_of_strict hversion hmode hstrays
      | cons b bs =>
        rw [start_strict_of_cons hversion hmode hstrays]
        exact gated_of_refused hversion hmode hstrays
  · rw [start_of_version_ne hversion]
    exact gated_of_unsupported hversion

/-- Of two hooks for logins, which are bound before others, the one that runs after is refused. -/
theorem login_hook_stops_strict_start :
    let config : Config := ⟨1, ⟨.inline, true⟩⟩
    let r : Registry Unit := (((Registry.empty.register .before "Logins" ()).register
      .before "Login" ()).register .after "Login" ()).register .before "ChatMessage" ()
    start config r.registered = ([.unknownKind .after "Login"],
      .error (.badRequest "after hook bound to unknown message kind: Login")) := by
  intro config r
  have hfirst : FirstStray r (.after, "Login") :=
    firstStray_of_cons
      (by decide : strays r = (.after, "Login") :: [(.before, "Login"), (.before, "Logins")])
  obtain ⟨hlogs, hresult⟩ := (start_is_gated config r).1.refused rfl rfl _ _ hfirst
  exact Prod.ext hlogs.inOrder hresult

end MessageHooks.Boot
