import Mathlib.Data.List.Pairwise
import Mathlib.Logic.Function.Basic
import Mathlib.Tactic.ByContra
import MessageHooks.Config.Reader
import MessageHooks.Proofs.Except
import MessageHooks.Proofs.Yaml

/-!
# Sections of a configuration

What a section holds, told apart from the order in which it is read. It is a mapping whose keys are
declared and all different, and what is written under a name is read for itself. So there is one
lemma about a section of any fields, each with a slot of its own in a draft.

* `Strict declared entries`: declared keys, and none twice; `SectionFlaw`: what else there may be.
* `Holds`, `HoldsOr`: what is written under a name says a value, or is left to a default.
* `Faithful field Says draft`: the fields read what values say, each into its own slot.
* `readSection_eq_ok_iff`: a section is read if it is strict and all its values say something.
-/

namespace MessageHooks.Config

open Yaml

/-! ## Entries -/

variable {α : Type} {declared : List String} {entries : List (Node × Node)}
  {key value n n' : Node} {name name' : String} {Says : Node → α → Prop}

/-- The key is a scalar, in any style, whose text is the name. -/
def IsName (key : Node) (name : String) : Prop :=
  ∃ mark style, key = .scalar mark none style name

theorem isName_scalar_iff {mark : Option Nat} {style : Style} {text name : String} :
    IsName (.scalar mark none style text) name ↔ text = name := by
  constructor
  · rintro ⟨_, _, heq⟩
    cases heq
    rfl
  · rintro rfl
    exact ⟨mark, style, rfl⟩

theorem IsName.unique (h : IsName key name) (h' : IsName key name') : name = name' := by
  obtain ⟨mark, style, rfl⟩ := h
  obtain ⟨mark', style', h'⟩ := h'
  cases h'
  rfl

/-- The node is written under the name. -/
def Under (entries : List (Node × Node)) (name : String) (n : Node) : Prop :=
  ∃ key, IsName key name ∧ (key, n) ∈ entries

theorem Under.cons (h : Under entries name n) (e : Node × Node) : Under (e :: entries) name n := by
  obtain ⟨key, hkey, hmem⟩ := h
  exact ⟨key, hkey, List.mem_cons_of_mem _ hmem⟩

theorem under_cons_iff : Under ((key, value) :: entries) name n ↔
    IsName key name ∧ n = value ∨ Under entries name n := by
  constructor
  · rintro ⟨key', hkey, hmem⟩
    rcases List.mem_cons.1 hmem with heq | hmem
    · cases heq
      exact .inl ⟨hkey, rfl⟩
    · exact .inr ⟨key', hkey, hmem⟩
  · rintro (⟨hkey, rfl⟩ | h)
    · exact ⟨key, hkey, List.mem_cons_self⟩
    · exact h.cons _

/-- Every key is a declared name, and no name comes twice. -/
structure Strict (declared : List String) (entries : List (Node × Node)) : Prop where
  declared : ∀ e ∈ entries, ∃ name ∈ declared, IsName e.1 name
  distinct : entries.Pairwise fun e e' => ∀ name, IsName e.1 name → ¬IsName e'.1 name

/-- A name that stands before is not written again. -/
theorem strict_cons_iff (hkey : IsName key name) :
    Strict declared ((key, value) :: entries) ↔
      name ∈ declared ∧ (∀ n, ¬Under entries name n) ∧ Strict declared entries := by
  constructor
  · rintro ⟨hdeclared, hdistinct⟩
    rw [List.forall_mem_cons] at hdeclared
    rw [List.pairwise_cons] at hdistinct
    obtain ⟨name', hname', hkey'⟩ := hdeclared.1
    refine ⟨hkey'.unique hkey ▸ hname', ?_, hdeclared.2, hdistinct.2⟩
    rintro n ⟨key', hkey', hmem⟩
    exact hdistinct.1 _ hmem name hkey hkey'
  · rintro ⟨hname, hnone, hdeclared, hdistinct⟩
    refine ⟨List.forall_mem_cons.2 ⟨⟨name, hname, hkey⟩, hdeclared⟩,
      List.pairwise_cons.2 ⟨fun e he name' hkey' he' => ?_, hdistinct⟩⟩
    rw [hkey'.unique hkey] at he'
    exact hnone e.2 ⟨e.1, he', he⟩

theorem Strict.unique (hstrict : Strict declared entries) (h : Under entries name n)
    (h' : Under entries name n') : n = n' := by
  obtain ⟨key, hkey, hmem⟩ := h
  obtain ⟨key', hkey', hmem'⟩ := h'
  by_contra hne
  have hsymm : Std.Symm fun e e' : Node × Node => ∀ name, IsName e.1 name → ¬IsName e'.1 name :=
    ⟨fun _ _ h name he' he => h name he he'⟩
  exact hstrict.distinct.forall hmem hmem' (fun heq => hne (congrArg Prod.snd heq)) name hkey hkey'

/-! ## Values -/

/-- What is written under the name says `x`. -/
def Holds (entries : List (Node × Node)) (name : String) (Says : Node → α → Prop)
    (x : α) : Prop :=
  ∃ n, Under entries name n ∧ Says n x

/-- What is written under the name says `x`, or nothing is and `x` is the default. -/
def HoldsOr (entries : List (Node × Node)) (name : String) (Says : Node → α → Prop)
    (default x : α) : Prop :=
  Holds entries name Says x ∨ (∀ n, ¬Under entries name n) ∧ x = default

theorem exists_holds_iff (hstrict : Strict declared entries) :
    (∃ x, Holds entries name Says x) ↔
      (∃ n, Under entries name n) ∧ ∀ n, Under entries name n → ∃ x, Says n x := by
  constructor
  · rintro ⟨x, n, hn, hx⟩
    exact ⟨⟨n, hn⟩, fun n' hn' => ⟨x, hstrict.unique hn hn' ▸ hx⟩⟩
  · rintro ⟨⟨n, hn⟩, hsay⟩
    obtain ⟨x, hx⟩ := hsay n hn
    exact ⟨x, n, hn, hx⟩

theorem exists_holdsOr_iff {default : α} (hstrict : Strict declared entries) :
    (∃ x, HoldsOr entries name Says default x) ↔ ∀ n, Under entries name n → ∃ x, Says n x := by
  constructor
  · rintro ⟨x, h | ⟨hnone, -⟩⟩
    · exact ((exists_holds_iff hstrict).1 ⟨x, h⟩).2
    · exact fun n hn => absurd hn (hnone n)
  · intro h
    by_cases hwritten : ∃ n, Under entries name n
    · obtain ⟨x, hx⟩ := (exists_holds_iff hstrict).2 ⟨hwritten, h⟩
      exact ⟨x, .inl hx⟩
    · exact ⟨default, .inr ⟨not_exists.1 hwritten, rfl⟩⟩

/-! ## Flaws -/

/-- What is wrong with a section, whatever its values say. -/
inductive SectionFlaw (declared : List String) : Node → Prop
  | shape {n : Node} (h : ∀ mark entries, n ≠ .mapping mark none entries) : SectionFlaw declared n
  | key {mark : Option Nat} {entries : List (Node × Node)} {key n : Node} (h : (key, n) ∈ entries)
    (hkey : ∀ name, ¬IsName key name) : SectionFlaw declared (.mapping mark none entries)
  | unknown {mark : Option Nat} {entries : List (Node × Node)} {name : String} {n : Node}
    (h : Under entries name n) (hname : name ∉ declared) :
    SectionFlaw declared (.mapping mark none entries)
  | repeated {mark : Option Nat} {entries : List (Node × Node)} {name : String}
    {key n key' n' : Node} (h : [(key, n), (key', n')].Sublist entries) (hkey : IsName key name)
    (hkey' : IsName key' name) : SectionFlaw declared (.mapping mark none entries)

/-- Flaws are all that keeps entries from being strict. -/
theorem sectionFlaw_iff : SectionFlaw declared n ↔
    ∀ mark entries, n = .mapping mark none entries → ¬Strict declared entries := by
  constructor
  · intro h mark entries heq hstrict
    cases h with
    | shape h => exact h mark entries heq
    | key h hkey =>
      cases heq
      obtain ⟨name, -, hname⟩ := hstrict.declared _ h
      exact hkey name hname
    | unknown h hname =>
      cases heq
      obtain ⟨key, hkey, hmem⟩ := h
      obtain ⟨name', hname', hkey'⟩ := hstrict.declared _ hmem
      exact hname (hkey'.unique hkey ▸ hname')
    | repeated h hkey hkey' =>
      cases heq
      exact List.pairwise_iff_forall_sublist.1 hstrict.distinct h _ hkey hkey'
  · intro h
    by_contra hflaw
    by_cases hshape : ∃ mark entries, n = .mapping mark none entries
    · obtain ⟨mark, entries, rfl⟩ := hshape
      refine h mark entries rfl ⟨fun e he => ?_, List.pairwise_iff_forall_sublist.2
        fun hsub name hkey hkey' => hflaw (.repeated hsub hkey hkey')⟩
      by_contra hno
      by_cases hkey : ∃ name, IsName e.1 name
      · obtain ⟨name, hkey⟩ := hkey
        exact hflaw (.unknown ⟨e.1, hkey, he⟩ fun hname => hno ⟨name, hname, hkey⟩)
      · exact hflaw (.key he (not_exists.1 hkey))
    · exact hflaw (.shape fun mark entries heq => hshape ⟨mark, entries, heq⟩)

theorem strict_of_not_sectionFlaw (h : ¬SectionFlaw declared n) :
    ∃ mark entries, n = .mapping mark none entries ∧ Strict declared entries := by
  by_contra hno
  exact h (sectionFlaw_iff.2 fun mark entries heq hstrict => hno ⟨mark, entries, heq, hstrict⟩)

/-! ## Slots -/

/-- What entries make of one slot of a draft: an entry of the name fills it, which must be empty,
with what it says; without such an entry it stays as it is. -/
def Fills (entries : List (Node × Node)) (name : String) (Says : Node → α → Prop)
    (old new : Option α) : Prop :=
  (∃ x, Holds entries name Says x ∧ old = none ∧ new = some x) ∨
    (∀ n, ¬Under entries name n) ∧ new = old

theorem holds_iff_fills {x : α} :
    Holds entries name Says x ↔ Fills entries name Says none (some x) := by
  constructor
  · exact fun h => .inl ⟨x, h, rfl, rfl⟩
  · rintro (⟨x', h, -, heq⟩ | ⟨-, heq⟩)
    · cases heq
      exact h
    · cases heq

theorem holdsOr_iff_fills {default x : α} :
    HoldsOr entries name Says default x ↔
      ∃ new, Fills entries name Says none new ∧ new.getD default = x := by
  constructor
  · rintro (h | ⟨hnone, rfl⟩)
    · exact ⟨some x, holds_iff_fills.1 h, rfl⟩
    · exact ⟨none, .inr ⟨hnone, rfl⟩, rfl⟩
  · rintro ⟨new, ⟨x', h, -, rfl⟩ | ⟨hnone, rfl⟩, rfl⟩
    · exact .inl h
    · exact .inr ⟨hnone, rfl⟩

theorem fills_nil_iff {old new : Option α} : Fills [] name Says old new ↔ new = old := by
  have hnone : ∀ n, ¬Under [] name n := by
    rintro n ⟨key, -, hmem⟩
    cases hmem
  constructor
  · rintro (⟨x, ⟨n, hn, -⟩, -⟩ | ⟨-, h⟩)
    · exact absurd hn (hnone n)
    · exact h
  · exact fun h => .inr ⟨hnone, h⟩

/-- A full slot stays full, and no entry comes for it. -/
theorem fills_some_iff {x : α} {new : Option α} :
    Fills entries name Says (some x) new ↔ (∀ n, ¬Under entries name n) ∧ new = some x := by
  constructor
  · rintro (⟨_, -, hold, -⟩ | h)
    · cases hold
    · exact h
  · exact .inr

theorem fills_cons_self_iff {old new : Option α} (hkey : IsName key name)
    (hnone : ∀ n, ¬Under entries name n) :
    Fills ((key, value) :: entries) name Says old new ↔
      old = none ∧ ∃ x, Says value x ∧ new = some x := by
  constructor
  · rintro (⟨x, ⟨n, hn, hx⟩, hold, hnew⟩ | ⟨h, -⟩)
    · rcases under_cons_iff.1 hn with ⟨-, rfl⟩ | hn
      · exact ⟨hold, x, hx, hnew⟩
      · exact absurd hn (hnone n)
    · exact absurd (under_cons_iff.2 (.inl ⟨hkey, rfl⟩)) (h value)
  · rintro ⟨hold, x, hx, hnew⟩
    exact .inl ⟨x, ⟨value, under_cons_iff.2 (.inl ⟨hkey, rfl⟩), hx⟩, hold, hnew⟩

theorem fills_cons_of_ne_iff {old new : Option α} (hkey : IsName key name) (hname : name ≠ name') :
    Fills ((key, value) :: entries) name' Says old new ↔ Fills entries name' Says old new := by
  have hunder (n : Node) : Under ((key, value) :: entries) name' n ↔ Under entries name' n := by
    rw [under_cons_iff, or_iff_right]
    rintro ⟨hkey', -⟩
    exact hname (hkey.unique hkey')
  unfold Fills Holds
  simp only [hunder]

/-! ## Sections of any fields -/

variable {ι δ : Type} [DecidableEq ι] {V : ι → Type}

/-- Each field has a name of its own, and reads what its value says into its own slot of a draft. -/
structure Faithful (field : ι → Field δ) (Says : (i : ι) → Node → V i → Prop)
    (draft : ((i : ι) → Option (V i)) → δ) : Prop where
  injective : Function.Injective fun i => (field i).name
  isGiven : ∀ i slots, (field i).isGiven (draft slots) = (slots i).isSome
  read : ∀ i p n slots t, n.Bare → n.Filled →
    ((field i).read p n (draft slots) = .ok t ↔
      ∃ x, Says i n x ∧ draft (Function.update slots i (some x)) = t)

variable {field : ι → Field δ} {Says : (i : ι) → Node → V i → Prop}
  {draft : ((i : ι) → Option (V i)) → δ} {all : List ι} {d : Document} {path : List String}

theorem Faithful.find?_field (h : Faithful field Says draft) {i : ι} (hi : i ∈ all) :
    (all.map field).find? (fun f => f.name = (field i).name) = some (field i) := by
  cases hfind : (all.map field).find? (fun f => f.name = (field i).name) with
  | none =>
    have hne := List.find?_eq_none.1 hfind _ (List.mem_map_of_mem hi)
    exact absurd (decide_eq_true rfl) hne
  | some f =>
    obtain ⟨j, -, rfl⟩ := List.mem_map.1 (List.mem_of_find?_eq_some hfind)
    have hname := List.find?_some hfind
    rw [h.injective (of_decide_eq_true hname)]

theorem entryName_eq_ok_iff (h : key.Bare) {step : String} :
    entryName d path key = .ok (name, step) ↔ IsName key name ∧ step = name := by
  cases h with
  | @scalar mark style text =>
    constructor
    · intro h
      cases h
      exact ⟨⟨mark, style, rfl⟩, rfl⟩
    · rintro ⟨⟨_, _, heq⟩, rfl⟩
      cases heq
      rfl
  | _ => exact ⟨nofun, fun ⟨⟨_, _, heq⟩, _⟩ => nomatch heq⟩

/-- The first of some entries is of a declared field, whose slot is empty and takes what the value
says. -/
theorem readEntries_cons_eq_ok_iff (h : Faithful field Says draft) (hall : ∀ i, i ∈ all)
    (hkey : key.Bare) (hbare : value.Bare) (hfilled : value.Filled) {rest : List (Node × Node)}
    {slots : (i : ι) → Option (V i)} {t : δ} :
    readEntries d (all.map field) path ((key, value) :: rest) (draft slots) = .ok t ↔
      ∃ i, IsName key (field i).name ∧ slots i = none ∧ ∃ x, Says i value x ∧
        readEntries d (all.map field) path rest (draft (Function.update slots i (some x))) =
          .ok t := by
  rw [readEntries, Except.bind_eq_ok, d.target_of_bare hbare]
  constructor
  · rintro ⟨⟨name, step⟩, hname, hread⟩
    obtain ⟨hname, rfl⟩ := (entryName_eq_ok_iff hkey).1 hname
    dsimp only at hread
    cases hfind : (all.map field).find? (fun f => f.name = step) with
    | none =>
      rw [hfind] at hread
      cases hread
    | some f =>
      obtain ⟨i, -, rfl⟩ := List.mem_map.1 (List.mem_of_find?_eq_some hfind)
      have hstep := List.find?_some hfind
      rw [decide_eq_true_eq] at hstep
      rw [hfind] at hread
      dsimp only at hread
      rw [h.isGiven] at hread
      split at hread
      · cases hread
      · rename_i hempty
        obtain ⟨t', ht', hrest⟩ := Except.bind_eq_ok.1 hread
        obtain ⟨x, hx, rfl⟩ := (h.read _ _ _ _ _ hbare hfilled).1 ht'
        exact ⟨i, hstep ▸ hname, Option.not_isSome_iff_eq_none.1 hempty, x, hx, hrest⟩
  · rintro ⟨i, hname, hempty, x, hx, hrest⟩
    refine ⟨((field i).name, (field i).name), (entryName_eq_ok_iff hkey).2 ⟨hname, rfl⟩, ?_⟩
    dsimp only
    rw [h.find?_field (hall i)]
    dsimp only
    rw [h.isGiven, hempty, Option.isSome_none, if_neg Bool.false_ne_true, Except.bind_eq_ok]
    exact ⟨_, (h.read _ _ _ _ _ hbare hfilled).2 ⟨x, hx, rfl⟩, hrest⟩

/-- The same step, for what entries make of the slots. -/
theorem fills_cons_iff (h : Faithful field Says draft) (hall : ∀ i, i ∈ all)
    {rest : List (Node × Node)} {i : ι} (hkey : IsName key (field i).name)
    {slots new : (i : ι) → Option (V i)} :
    (Strict (all.map fun i => (field i).name) ((key, value) :: rest) ∧
        ∀ j, Fills ((key, value) :: rest) (field j).name (Says j) (slots j) (new j)) ↔
      slots i = none ∧ ∃ x, Says i value x ∧ Strict (all.map fun i => (field i).name) rest ∧
        ∀ j, Fills rest (field j).name (Says j) (Function.update slots i (some x) j) (new j) := by
  rw [strict_cons_iff hkey]
  constructor
  · rintro ⟨⟨-, hnone, hstrict⟩, hfills⟩
    obtain ⟨hold, x, hx, hnew⟩ := (fills_cons_self_iff hkey hnone).1 (hfills i)
    refine ⟨hold, x, hx, hstrict, fun j => ?_⟩
    -- The other slots see only the rest of the entries.
    by_cases hj : j = i
    · subst hj
      rw [Function.update_self, fills_some_iff]
      exact ⟨hnone, hnew⟩
    · rw [Function.update_of_ne hj]
      exact (fills_cons_of_ne_iff hkey fun hname => hj (h.injective hname).symm).1 (hfills j)
  · rintro ⟨hold, x, hx, hstrict, hfills⟩
    have hi := hfills i
    rw [Function.update_self, fills_some_iff] at hi
    refine ⟨⟨List.mem_map_of_mem (hall i), hi.1, hstrict⟩, fun j => ?_⟩
    by_cases hj : j = i
    · subst hj
      exact (fills_cons_self_iff hkey hi.1).2 ⟨hold, x, hx, hi.2⟩
    · have hfill := hfills j
      rw [Function.update_of_ne hj] at hfill
      exact (fills_cons_of_ne_iff hkey fun hname => hj (h.injective hname).symm).2 hfill

/-- **Entries fill the slots that their names stand for**, in whatever order they come. -/
theorem readEntries_eq_ok_iff (h : Faithful field Says draft) (hall : ∀ i, i ∈ all)
    (hkeys : ∀ e ∈ entries, e.1.Bare) (hbare : ∀ e ∈ entries, e.2.Bare)
    (hfilled : ∀ e ∈ entries, e.2.Filled) {slots : (i : ι) → Option (V i)} {t : δ} :
    readEntries d (all.map field) path entries (draft slots) = .ok t ↔
      Strict (all.map fun i => (field i).name) entries ∧
        ∃ new, draft new = t ∧ ∀ i, Fills entries (field i).name (Says i) (slots i) (new i) := by
  -- By induction on the entries, whatever slots are filled before.
  induction entries generalizing slots with
  | nil =>
    simp only [readEntries, fills_nil_iff, Except.ok.injEq]
    constructor
    · rintro rfl
      exact ⟨⟨nofun, .nil⟩, slots, rfl, fun _ => rfl⟩
    · rintro ⟨-, new, rfl, hnew⟩
      rw [funext hnew]
  | cons e rest ih =>
    obtain ⟨key, value⟩ := e
    rw [List.forall_mem_cons] at hkeys hbare hfilled
    rw [readEntries_cons_eq_ok_iff h hall hkeys.1 hbare.1 hfilled.1]
    constructor
    · rintro ⟨i, hkey, hold, x, hx, hrest⟩
      obtain ⟨hstrict, new, rfl, hfills⟩ := (ih hkeys.2 hbare.2 hfilled.2).1 hrest
      obtain ⟨hstrict, hfills⟩ := (fills_cons_iff h hall hkey).2 ⟨hold, x, hx, hstrict, hfills⟩
      exact ⟨hstrict, new, rfl, hfills⟩
    · rintro ⟨hstrict, new, rfl, hfills⟩
      obtain ⟨name, hname, hkey⟩ := hstrict.declared _ List.mem_cons_self
      obtain ⟨i, -, rfl⟩ := List.mem_map.1 hname
      obtain ⟨hold, x, hx, hstrict, hfills⟩ := (fills_cons_iff h hall hkey).1 ⟨hstrict, hfills⟩
      exact ⟨i, hkey, hold, x, hx, (ih hkeys.2 hbare.2 hfilled.2).2 ⟨hstrict, new, rfl, hfills⟩⟩

theorem readSection_eq_ok_iff (h : Faithful field Says draft) (hall : ∀ i, i ∈ all)
    (hbare : n.Bare) (hfilled : n.Filled) (d : Document) (kind : String)
    (path : List String) (slots : (i : ι) → Option (V i)) (t : δ) :
    readSection d kind (all.map field) path n (draft slots) = .ok t ↔
      ∃ mark entries, n = .mapping mark none entries ∧
        Strict (all.map fun i => (field i).name) entries ∧
        ∃ new, draft new = t ∧ ∀ i, Fills entries (field i).name (Says i) (slots i) (new i) := by
  cases hbare with
  | @mapping mark entries hkeys hbare =>
    refine (readEntries_eq_ok_iff h hall hkeys hbare hfilled.values).trans ⟨fun hentries =>
      ⟨mark, entries, rfl, hentries⟩, ?_⟩
    rintro ⟨_, _, heq, hentries⟩
    cases heq
    exact hentries
  | @scalar mark style text =>
    have hread : ∃ x, readSection d kind (all.map field) path (.scalar mark none style text)
        (draft slots) = .error x := by
      unfold readSection
      split
      · rename_i heq
        cases heq
      · rename_i heq
        cases heq
        exact absurd rfl hfilled.text_ne
      · exact ⟨_, rfl⟩
    obtain ⟨x, hread⟩ := hread
    rw [hread]
    exact ⟨nofun, fun ⟨_, _, heq, _⟩ => nomatch heq⟩
  | _ => exact ⟨nofun, fun ⟨_, _, heq, _⟩ => nomatch heq⟩

end MessageHooks.Config
