import Mathlib
import MessageHooks.Proofs.Config.Scalar
import MessageHooks.Proofs.Config.Section

/-!
# Strict configurations

Which documents are configurations: two sections, one in the other, whose entries say values of
their own kinds. What is not written has its default, except the version.

* `SaysConfig root config`: the document says the configuration.
* `ConfigFlaw root`: what is wrong with a document that says none, flaw by flaw.
* `configurations_are_strict`: a text is read as the supported configuration it says; another
  version is reported as such, and every flaw as a bad request.
-/

namespace MessageHooks.Config

open Yaml

/-! ## Configurations -/

/-- The section of the dispatch. -/
def SaysDispatch (n : Node) (config : DispatchConfig) : Prop :=
  ∃ mark entries, n = .mapping mark none entries ∧
    Strict ["after_mode", "fail_on_unknown_kind"] entries ∧
    HoldsOr entries "after_mode" SaysMode .inline config.afterMode ∧
    HoldsOr entries "fail_on_unknown_kind" SaysFlag false config.failOnUnknownKind

/-- A configuration, of whatever version. -/
def SaysConfig (root : Node) (config : Config) : Prop :=
  ∃ mark entries, root = .mapping mark none entries ∧
    Strict ["version", "dispatch"] entries ∧
    Holds entries "version" SaysNumber config.version ∧
    HoldsOr entries "dispatch" SaysDispatch ⟨.inline, false⟩ config.dispatch

/-- What is wrong with the section of the dispatch. -/
inductive DispatchFlaw : Node → Prop
  | layout {n : Node} (h : SectionFlaw ["after_mode", "fail_on_unknown_kind"] n) : DispatchFlaw n
  | mode {mark : Option Nat} {entries : List (Node × Node)} {n : Node}
    (h : Under entries "after_mode" n) (hn : ∀ mode, ¬SaysMode n mode) :
    DispatchFlaw (.mapping mark none entries)
  | flag {mark : Option Nat} {entries : List (Node × Node)} {n : Node}
    (h : Under entries "fail_on_unknown_kind" n) (hn : ∀ b, ¬SaysFlag n b) :
    DispatchFlaw (.mapping mark none entries)

/-- What is wrong with a configuration. -/
inductive ConfigFlaw : Node → Prop
  | layout {n : Node} (h : SectionFlaw ["version", "dispatch"] n) : ConfigFlaw n
  | noVersion {mark : Option Nat} {entries : List (Node × Node)}
    (h : ∀ n, ¬Under entries "version" n) : ConfigFlaw (.mapping mark none entries)
  | version {mark : Option Nat} {entries : List (Node × Node)} {n : Node}
    (h : Under entries "version" n) (hn : NumberFlaw n) : ConfigFlaw (.mapping mark none entries)
  | dispatch {mark : Option Nat} {entries : List (Node × Node)} {n : Node}
    (h : Under entries "dispatch" n) (hn : DispatchFlaw n) :
    ConfigFlaw (.mapping mark none entries)

theorem dispatchFlaw_iff {n : Node} : DispatchFlaw n ↔ ∀ config, ¬SaysDispatch n config := by
  constructor
  · rintro h config ⟨mark, entries, rfl, hstrict, hmode, hflag⟩
    cases h with
    | layout h => exact sectionFlaw_iff.1 h mark entries rfl hstrict
    | mode h hn =>
      obtain ⟨mode, hmode⟩ := (exists_holdsOr_iff hstrict).1 ⟨_, hmode⟩ _ h
      exact hn mode hmode
    | flag h hn =>
      obtain ⟨flag, hflag⟩ := (exists_holdsOr_iff hstrict).1 ⟨_, hflag⟩ _ h
      exact hn flag hflag
  · intro h
    by_contra hflaw
    obtain ⟨mark, entries, rfl, hstrict⟩ :=
      strict_of_not_sectionFlaw fun hlayout => hflaw (.layout hlayout)
    obtain ⟨mode, hmode⟩ := (exists_holdsOr_iff hstrict).2 fun n hn =>
      not_forall_not.1 fun hno => hflaw (.mode hn hno)
    obtain ⟨flag, hflag⟩ := (exists_holdsOr_iff hstrict).2 fun n hn =>
      not_forall_not.1 fun hno => hflaw (.flag hn hno)
    exact h ⟨mode, flag⟩ ⟨mark, entries, rfl, hstrict, hmode, hflag⟩

/-- **Flaws are all that keeps a document from saying a configuration.** -/
theorem configFlaw_iff {n : Node} : ConfigFlaw n ↔ ∀ config, ¬SaysConfig n config := by
  constructor
  · rintro h config ⟨mark, entries, rfl, hstrict, hversion, hdispatch⟩
    obtain ⟨⟨_, hgiven⟩, hversion⟩ := (exists_holds_iff hstrict).1 ⟨_, hversion⟩
    cases h with
    | layout h => exact sectionFlaw_iff.1 h mark entries rfl hstrict
    | noVersion h => exact h _ hgiven
    | version h hn =>
      obtain ⟨v, hv⟩ := hversion _ h
      exact numberFlaw_iff.1 hn v hv
    | dispatch h hn =>
      obtain ⟨c, hc⟩ := (exists_holdsOr_iff hstrict).1 ⟨_, hdispatch⟩ _ h
      exact dispatchFlaw_iff.1 hn c hc
  · intro h
    by_contra hflaw
    obtain ⟨mark, entries, rfl, hstrict⟩ :=
      strict_of_not_sectionFlaw fun hlayout => hflaw (.layout hlayout)
    have hgiven : ∃ n, Under entries "version" n :=
      not_forall_not.1 fun hno => hflaw (.noVersion hno)
    obtain ⟨version, hversion⟩ := (exists_holds_iff hstrict).2 ⟨hgiven, fun n hn =>
      not_forall_not.1 fun hno => hflaw (.version hn (numberFlaw_iff.2 hno))⟩
    obtain ⟨dispatch, hdispatch⟩ := (exists_holdsOr_iff hstrict).2 fun n hn =>
      not_forall_not.1 fun hno => hflaw (.dispatch hn (dispatchFlaw_iff.2 hno))
    exact h ⟨version, dispatch⟩ ⟨mark, entries, rfl, hstrict, hversion, hdispatch⟩

/-! ## Reading -/

namespace DispatchDraft

/-- The entries of the section. -/
inductive Entry where
  | afterMode
  | failOnUnknownKind
  deriving DecidableEq

namespace Entry

def all : List Entry := [.afterMode, .failOnUnknownKind]

theorem mem_all (e : Entry) : e ∈ all := by
  cases e <;> decide

def field : Entry → Field DispatchDraft
  | .afterMode => fields.get ⟨0, by decide⟩
  | .failOnUnknownKind => fields.get ⟨1, by decide⟩

def Value : Entry → Type
  | .afterMode => AfterMode
  | .failOnUnknownKind => Bool

def Says : (e : Entry) → Node → e.Value → Prop
  | .afterMode => SaysMode
  | .failOnUnknownKind => SaysFlag

def draft (slots : (e : Entry) → Option e.Value) : DispatchDraft :=
  ⟨slots .afterMode, slots .failOnUnknownKind⟩

/-- Each entry has its own slot of the draft. -/
theorem faithful : Faithful field Says draft where
  injective := by
    intro e e' h
    cases e <;> cases e' <;> first | rfl | exact absurd h (by decide)
  isGiven := by
    intro e slots
    cases e <;> rfl
  read := by
    intro e p n slots t hbare hfilled
    cases e with
    | afterMode =>
      refine Except.map_eq_ok.trans ?_
      simp only [readMode_eq_ok_iff hbare]
      exact Iff.rfl
    | failOnUnknownKind =>
      refine Except.map_eq_ok.trans ?_
      simp only [readFlag_eq_ok_iff hbare]
      exact Iff.rfl

end Entry

/-- From an empty draft, each slot is filled by its own entry alone. -/
theorem readSection_eq_ok_iff {d : Document} {kind : String} {path : List String} {n : Node}
    (hbare : n.Bare) (hfilled : n.Filled) {t : DispatchDraft} :
    readSection d kind fields path n ⟨none, none⟩ = .ok t ↔
      ∃ mark entries, n = .mapping mark none entries ∧
        Strict ["after_mode", "fail_on_unknown_kind"] entries ∧
        Fills entries "after_mode" SaysMode none t.afterMode ∧
        Fills entries "fail_on_unknown_kind" SaysFlag none t.failOnUnknownKind := by
  have hsection := Config.readSection_eq_ok_iff Entry.faithful Entry.mem_all hbare hfilled d kind
    path (fun _ => none) t
  constructor
  · intro hread
    obtain ⟨mark, entries, hn, hstrict, new, rfl, hfills⟩ := hsection.1 hread
    exact ⟨mark, entries, hn, hstrict, hfills .afterMode, hfills .failOnUnknownKind⟩
  · rintro ⟨mark, entries, hn, hstrict, hmode, hflag⟩
    let new : (e : Entry) → Option e.Value
      | .afterMode => t.afterMode
      | .failOnUnknownKind => t.failOnUnknownKind
    refine hsection.2 ⟨mark, entries, hn, hstrict, new, rfl, ?_⟩
    rintro (_ | _)
    · exact hmode
    · exact hflag

end DispatchDraft

theorem readDispatch_eq_ok_iff {d : Document} {path : List String} {n : Node} (hbare : n.Bare)
    (hfilled : n.Filled) {config : DispatchConfig} :
    readDispatch d path n = .ok config ↔ SaysDispatch n config := by
  refine Except.map_eq_ok.trans ?_
  simp only [DispatchDraft.readSection_eq_ok_iff hbare hfilled]
  constructor
  · rintro ⟨t, ⟨mark, entries, rfl, hstrict, hmode, hflag⟩, rfl⟩
    exact ⟨mark, entries, rfl, hstrict, holdsOr_iff_fills.2 ⟨_, hmode, rfl⟩,
      holdsOr_iff_fills.2 ⟨_, hflag, rfl⟩⟩
  · rintro ⟨mark, entries, rfl, hstrict, hmode, hflag⟩
    obtain ⟨mode, hmode, hmode'⟩ := holdsOr_iff_fills.1 hmode
    obtain ⟨flag, hflag, hflag'⟩ := holdsOr_iff_fills.1 hflag
    refine ⟨⟨mode, flag⟩, ⟨mark, entries, rfl, hstrict, hmode, hflag⟩, ?_⟩
    show (⟨mode.getD .inline, flag.getD false⟩ : DispatchConfig) = config
    rw [hmode', hflag']

namespace Draft

inductive Entry where
  | version
  | dispatch
  deriving DecidableEq

namespace Entry

def all : List Entry := [.version, .dispatch]

theorem mem_all (e : Entry) : e ∈ all := by
  cases e <;> decide

def field (d : Document) : Entry → Field Draft
  | .version => (fields d).get ⟨0, Nat.zero_lt_two⟩
  | .dispatch => (fields d).get ⟨1, Nat.one_lt_two⟩

def Value : Entry → Type
  | .version => UInt32
  | .dispatch => DispatchConfig

def Says : (e : Entry) → Node → e.Value → Prop
  | .version => SaysNumber
  | .dispatch => SaysDispatch

def draft (slots : (e : Entry) → Option e.Value) : Draft := ⟨slots .version, slots .dispatch⟩

theorem faithful (d : Document) : Faithful (field d) Says draft where
  injective := by
    rintro (_ | _) (_ | _) h
    · rfl
    · exact absurd (show "version" = "dispatch" from h) (by decide)
    · exact absurd (show "dispatch" = "version" from h) (by decide)
    · rfl
  isGiven := by
    intro e slots
    cases e <;> rfl
  read := by
    intro e p n slots t hbare hfilled
    cases e with
    | version =>
      refine Except.map_eq_ok.trans ?_
      simp only [readNumber_eq_ok_iff hbare]
      exact Iff.rfl
    | dispatch =>
      refine Except.map_eq_ok.trans ?_
      simp only [readDispatch_eq_ok_iff hbare hfilled]
      exact Iff.rfl

end Entry

theorem readSection_eq_ok_iff {d : Document} {kind : String} {path : List String} {n : Node}
    (hbare : n.Bare) (hfilled : n.Filled) {t : Draft} :
    readSection d kind (fields d) path n ⟨none, none⟩ = .ok t ↔
      ∃ mark entries, n = .mapping mark none entries ∧ Strict ["version", "dispatch"] entries ∧
        Fills entries "version" SaysNumber none t.version ∧
        Fills entries "dispatch" SaysDispatch none t.dispatch := by
  have hsection := Config.readSection_eq_ok_iff (Entry.faithful d) Entry.mem_all hbare hfilled d
    kind path (fun _ => none) t
  constructor
  · intro hread
    obtain ⟨mark, entries, hn, hstrict, new, rfl, hfills⟩ := hsection.1 hread
    exact ⟨mark, entries, hn, hstrict, hfills .version, hfills .dispatch⟩
  · rintro ⟨mark, entries, hn, hstrict, hversion, hdispatch⟩
    let new : (e : Entry) → Option e.Value
      | .version => t.version
      | .dispatch => t.dispatch
    refine hsection.2 ⟨mark, entries, hn, hstrict, new, rfl, ?_⟩
    rintro (_ | _)
    · exact hversion
    · exact hdispatch

end Draft

/-- **A configuration is read from the node that says it**, and only from that. -/
theorem ofNode_eq_ok_iff {d : Document} {n : Node} (hbare : n.Bare) (hfilled : n.Filled)
    {config : Config} : ofNode d n = .ok config ↔ SaysConfig n config := by
  refine Except.bind_eq_ok.trans ?_
  simp only [Draft.readSection_eq_ok_iff hbare hfilled]
  constructor
  · rintro ⟨⟨version, dispatch⟩, ⟨mark, entries, rfl, hstrict, hversion, hdispatch⟩, hfinish⟩
    cases version with
    | none => cases hfinish
    | some v =>
      cases hfinish
      exact ⟨mark, entries, rfl, hstrict, holds_iff_fills.2 hversion,
        holdsOr_iff_fills.2 ⟨dispatch, hdispatch, rfl⟩⟩
  · rintro ⟨mark, entries, rfl, hstrict, hversion, hdispatch⟩
    obtain ⟨dispatch, hdispatch, hdispatch'⟩ := holdsOr_iff_fills.1 hdispatch
    refine ⟨⟨some config.version, dispatch⟩,
      ⟨mark, entries, rfl, hstrict, holds_iff_fills.1 hversion, hdispatch⟩, ?_⟩
    show Except.ok (⟨config.version, dispatch.getD ⟨.inline, false⟩⟩ : Config) = .ok config
    rw [hdispatch']

/-! ## Texts -/

section Texts

variable {s : String} {root : Node} {config : Config}
  (hread : Document.ofTokens (tokens s) = ⟨root, true⟩) (hbare : root.Bare) (hfilled : root.Filled)

include hread hbare

theorem ofText_eq :
    ofText s = ((ofNode ⟨root, true⟩ root).mapError Refusal.toError).bind fun config =>
      config.validate.map fun _ => config := by
  have halone : ofDocument ⟨root, true⟩ = ofNode ⟨root, true⟩ root := by
    show (ofNode ⟨root, true⟩ (Document.target ⟨root, true⟩ root)).bind Except.ok = _
    rw [Document.target_of_bare _ hbare]
    cases ofNode ⟨root, true⟩ root <;> rfl
  rw [ofText, hread, halone]

include hfilled

/-- If the document says a configuration, its version is all that is left to look at. -/
theorem ofText_of_saysConfig (hsay : SaysConfig root config) :
    ofText s = if config.version = 1 then .ok config else .error .unsupportedVersion := by
  rw [ofText_eq hread hbare, (ofNode_eq_ok_iff hbare hfilled).2 hsay]
  show (config.validate.map fun _ => config) = _
  unfold validate
  split <;> rfl

theorem ofText_of_not_saysConfig (hsay : ∀ config, ¬SaysConfig root config) :
    ∃ cause, ofText s = .error (.badRequest cause) := by
  obtain ⟨refusal, hrefusal⟩ := Except.exists_error_of_ne_ok fun config hconfig =>
    hsay config ((ofNode_eq_ok_iff (d := ⟨root, true⟩) hbare hfilled).1 hconfig)
  rw [ofText_eq hread hbare, hrefusal]
  exact ⟨refusal.message, rfl⟩

theorem ofText_eq_ok_iff : ofText s = .ok config ↔ SaysConfig root config ∧ config.version = 1 := by
  constructor
  · intro hok
    obtain ⟨config', hsay⟩ | hno := exists_or_forall_not (SaysConfig root)
    · rw [ofText_of_saysConfig hread hbare hfilled hsay] at hok
      split at hok
      · cases hok
        exact ⟨hsay, ‹_›⟩
      · cases hok
    · obtain ⟨cause, hbad⟩ := ofText_of_not_saysConfig hread hbare hfilled hno
      rw [hbad] at hok
      cases hok
  · rintro ⟨hsay, hversion⟩
    rw [ofText_of_saysConfig hread hbare hfilled hsay, if_pos hversion]

theorem ofText_eq_unsupported_iff : ofText s = .error .unsupportedVersion ↔
    ∃ config, SaysConfig root config ∧ config.version ≠ 1 := by
  constructor
  · intro herror
    obtain ⟨config, hsay⟩ | hno := exists_or_forall_not (SaysConfig root)
    · rw [ofText_of_saysConfig hread hbare hfilled hsay] at herror
      split at herror
      · cases herror
      · exact ⟨config, hsay, ‹_›⟩
    · obtain ⟨cause, hbad⟩ := ofText_of_not_saysConfig hread hbare hfilled hno
      rw [hbad] at herror
      cases herror
  · rintro ⟨config, hsay, hversion⟩
    rw [ofText_of_saysConfig hread hbare hfilled hsay, if_neg hversion]

theorem exists_badRequest_iff : (∃ cause, ofText s = .error (.badRequest cause)) ↔
    ∀ config, ¬SaysConfig root config := by
  refine ⟨?_, ofText_of_not_saysConfig hread hbare hfilled⟩
  rintro ⟨cause, hbad⟩ config hsay
  rw [ofText_of_saysConfig hread hbare hfilled hsay] at hbad
  split at hbad <;> cases hbad

end Texts

/-- **Configurations are read strictly.** Of a text that is one document, without aliases, tags and
values left out, the configuration it says is read, and no other, if its version is the first; any
other version is unsupported. Whatever else stands there is a bad request, and it has a flaw. -/
theorem configurations_are_strict {s : String} {root : Node}
    (hread : Document.ofTokens (tokens s) = ⟨root, true⟩) (hbare : root.Bare)
    (hfilled : root.Filled) :
    (∀ config, ofText s = .ok config ↔ SaysConfig root config ∧ config.version = 1) ∧
      (ofText s = .error .unsupportedVersion ↔
        ∃ config, SaysConfig root config ∧ config.version ≠ 1) ∧
      ((∃ cause, ofText s = .error (.badRequest cause)) ↔ ∀ config, ¬SaysConfig root config) ∧
      ((∀ config, ¬SaysConfig root config) ↔ ConfigFlaw root) :=
  ⟨fun _ => ofText_eq_ok_iff hread hbare hfilled, ofText_eq_unsupported_iff hread hbare hfilled,
    exists_badRequest_iff hread hbare hfilled, configFlaw_iff.symm⟩

/-- Values in any order and spelling, and a key in quotes. -/
theorem full_configuration_is_read :
    ofText "version: 0x1\ndispatch:\n  fail_on_unknown_kind: True\n  'after_mode': detached\n" =
      .ok ⟨1, .detached, true⟩ := by
  let word (text : String) : Node := .scalar none none .plain text
  let inner : List (Node × Node) := [(word "fail_on_unknown_kind", word "True"),
    (.scalar none none .quoted "after_mode", word "detached")]
  let outer : List (Node × Node) := [(word "version", word "0x1"),
    (word "dispatch", .mapping none none inner)]
  have hread : Document.ofTokens (tokens
      "version: 0x1\ndispatch:\n  fail_on_unknown_kind: True\n  'after_mode': detached\n") =
      ⟨.mapping none none outer, true⟩ := by
    cbv
  have hbare : (Node.mapping none none outer).Bare := by
    have hinner : (Node.mapping none none inner).Bare :=
      .mapping (by simp [inner, word, Node.Bare.scalar]) (by simp [inner, word, Node.Bare.scalar])
    exact .mapping (by simp [outer, word, Node.Bare.scalar])
      (by simp [outer, word, Node.Bare.scalar, hinner])
  have hfilled : (Node.mapping none none outer).Filled := by
    have hinner : (Node.mapping none none inner).Filled :=
      .mapping (by simp [inner, word, Node.Filled.scalar])
    exact .mapping (by simp [outer, word, Node.Filled.scalar, hinner])
  have hdispatch : SaysDispatch (.mapping none none inner) ⟨.detached, true⟩ := by
    refine ⟨none, inner, rfl, ⟨?_, ?_⟩, .inl ⟨word "detached", ?_, none, .plain, rfl⟩,
      .inl ⟨word "True", ?_, none, "True", rfl, by decide⟩⟩
    · simp [inner, word, isName_scalar_iff]
    · simp [inner, word, isName_scalar_iff]
    · exact ⟨_, isName_scalar_iff.2 rfl, .tail _ (.head _)⟩
    · exact ⟨_, isName_scalar_iff.2 rfl, .head _⟩
  have hversion : SaysNumber (word "0x1") 1 := by
    refine ⟨⟨none, "0x1", rfl, by decide⟩, ?_⟩
    rintro ⟨_, _, _, _, heq, h⟩
    cases heq
    exact absurd h (by decide)
  have hsay : SaysConfig (.mapping none none outer) ⟨1, .detached, true⟩ := by
    refine ⟨none, outer, rfl, ⟨?_, ?_⟩, ⟨word "0x1", ?_, hversion⟩, .inl ⟨_, ?_, hdispatch⟩⟩
    · simp [outer, word, isName_scalar_iff]
    · simp [outer, word, isName_scalar_iff]
    · exact ⟨_, isName_scalar_iff.2 rfl, .head _⟩
    · exact ⟨_, isName_scalar_iff.2 rfl, .tail _ (.head _)⟩
  exact ((configurations_are_strict hread hbare hfilled).1 _).2 ⟨hsay, rfl⟩

end MessageHooks.Config
