import MessageHooks.Proofs.Schema.Int64
import MessageHooks.Proofs.Schema.Proper
import Mathlib.Data.List.Forall2

/-!
# Spellings of typed values

A typed value has one written form and may be read from many. This module says which: `Spells f v x`
is the grammar of a format together with the value that each of its words stands for. Null members
of objects count as left out, at every depth; null elements of arrays do not.

* `Spells`: by recursion on the format; a record is spelled by an object (`SpellsMembers`), member
  by member, or by an array (`SpellsElements`), position by position.
* `decode_prune_eq_ok_iff`: reading accepts exactly the spellings, with exactly their values.
-/

namespace MessageHooks.Schema

mutual

/-- The dynamic value is a spelling of the typed one. -/
def Spells : {α : Type} → Format α → Json → α → Prop
  | _, .text, v, s => v = .str s
  | _, .flag, v, b => v = .bool b
  | _, .bytes, v, bs => ∃ s, v = .str s ∧ Base64.IsStrict s ∧ Base64.encodeText bs = s
  | _, .int64, v, n => SpellsInt v n.toInt
  | _, .list item, v, xs => ∃ vs, v = .arr vs ∧ List.Forall₂ (Spells item) vs xs
  | _, .optional _, v, none => v = .null
  | _, .optional inner, v, some x => v ≠ .null ∧ Spells inner v x
  | _, .record _ fields shape, v, x =>
    (∃ ms, v = .obj ms ∧ (∀ p ∈ Json.given ms, p.1 ∈ fields.names) ∧
      SpellsMembers fields (Json.given ms) (shape.toRow x)) ∨
    (∃ vs, v = .arr vs ∧ vs.length ≤ fields.names.length ∧
      SpellsElements fields vs (shape.toRow x))
  | _, .oneOf tags payload shape, v, x =>
    ∃ ms w, v = .obj ms ∧ Json.given ms = [(tags.key (shape.toRow x).1, w)] ∧
      Spells (payload (shape.toRow x).1) w (shape.toRow x).2

/-- The members spell the row: each field the member of its name, or its blank without one. -/
def SpellsMembers : {ρ : Type} → Fields ρ → Json.Object → ρ → Prop
  | _, .nil, _, _ => True
  | _, .cons name format absent rest, ms, (x, row) =>
    (match Entries.get? name ms with
      | some v => Spells format v x
      | none => x = absent.blank) ∧ SpellsMembers rest ms row

/-- The elements spell the row: each field the element in its place, or its blank without one. -/
def SpellsElements : {ρ : Type} → Fields ρ → List Json → ρ → Prop
  | _, .nil, _, _ => True
  | _, .cons _ _ absent rest, [], (x, row) => x = absent.blank ∧ SpellsElements rest [] row
  | _, .cons _ format _ rest, v :: vs, (x, row) => Spells format v x ∧ SpellsElements rest vs row

end

/-! ## Members -/

/-- Only the members a record names matter to it. -/
theorem spellsMembers_congr {ms ms' : Json.Object} : {ρ : Type} → (fs : Fields ρ) →
    (∀ k ∈ fs.names, Entries.get? k ms = Entries.get? k ms') → (row : ρ) →
    (SpellsMembers fs ms row ↔ SpellsMembers fs ms' row)
  | _, .nil, _, _ => Iff.rfl
  | _, .cons name _ _ rest, h, (_, row) => by
    have ih := spellsMembers_congr rest (fun k hk => h k (List.mem_cons_of_mem name hk)) row
    simp only [SpellsMembers, h name List.mem_cons_self, ih]

/-- Put the members, without their null members, into a row. -/
def fillPruned {ρ : Type} (declared : List String) (fs : Fields ρ) (ms : Json.Object)
    (row : ρ) : Except Fault ρ :=
  fill (fun k v => putMember declared fs k v.prune) ms row

theorem fillPruned_cons {ρ : Type} (declared : List String) (fs : Fields ρ) (k : String) (v : Json)
    (ms : Json.Object) (row : ρ) :
    fillPruned declared fs ((k, v) :: ms) row =
      (putMember declared fs k v.prune row).bind (fillPruned declared fs ms) := rfl

theorem fill_map {ρ : Type} (put : String → Json → ρ → Except Fault ρ) (g : Json → Json)
    (ms : Json.Object) (row : ρ) :
    fill put (ms.map fun p => (p.1, g p.2)) row = fill (fun k v => put k (g v)) ms row := by
  induction ms generalizing row with
  | nil => rfl
  | cons p ms ih =>
    simp only [List.map_cons, fill]
    congr 1
    exact funext ih

theorem fillPruned_cons_eq_ok_iff {α ρ : Type} {declared : List String} {name : String}
    {f : Format α} {absent : Blank α} {rest : Fields ρ} {ms : Json.Object}
    (hs : Entries.Sorted ms) {x₀ x : α} {row₀ row : ρ} :
    fillPruned declared (.cons name f absent rest) ms (x₀, row₀) = .ok (x, row) ↔
      (match Entries.get? name ms with
        | some v => decode f v.prune = .ok x
        | none => x = x₀) ∧ fillPruned declared rest (Entries.erase name ms) row₀ = .ok row := by
  induction ms generalizing x₀ row₀ with
  | nil => simp [fillPruned, fill, Entries.erase, eq_comm]
  | cons p ms ih =>
    obtain ⟨k, v⟩ := p
    have hms := (List.pairwise_cons.1 hs).2
    by_cases hk : name = k
    · subst hk
      have hnone : Entries.get? name ms = none :=
        Entries.get?_eq_none_of_lt (List.pairwise_cons.1 hs).1
      -- No later member has this name, so what is read for it stays.
      have step : ∀ y, fillPruned declared (.cons name f absent rest) ms (y, row₀) = .ok (x, row) ↔
          x = y ∧ fillPruned declared rest ms row₀ = .ok row := fun y => by
        rw [ih hms, hnone, Entries.erase_eq_self hms hnone]
      rw [Entries.get?_cons_self, Entries.erase_cons_self]
      simp only [fillPruned_cons, putMember, ↓reduceIte, Except.bind_eq_ok, Except.map_eq_ok]
      constructor
      · rintro ⟨_, ⟨y, hy, rfl⟩, hfill⟩
        obtain ⟨rfl, hrest⟩ := (step y).1 hfill
        exact ⟨hy, hrest⟩
      · rintro ⟨hx, hrest⟩
        exact ⟨_, ⟨x, hx, rfl⟩, (step x).2 ⟨rfl, hrest⟩⟩
    · rw [Entries.get?_cons_of_ne hs hk, Entries.erase_cons_of_ne hs hk]
      simp only [fillPruned_cons, putMember, hk, ↓reduceIte, Except.bind_eq_ok, Except.map_eq_ok]
      constructor
      · rintro ⟨_, ⟨row₁, hput, rfl⟩, hfill⟩
        obtain ⟨hx, hrest⟩ := (ih hms).1 hfill
        exact ⟨hx, row₁, hput, hrest⟩
      · rintro ⟨hx, row₁, hput, hrest⟩
        exact ⟨_, ⟨row₁, hput, rfl⟩, (ih hms).2 ⟨hx, hrest⟩⟩

theorem fillPruned_nil_eq_ok_iff {declared : List String} {ms : Json.Object} :
    fillPruned declared .nil ms () = .ok () ↔ ms = [] := by
  cases ms <;> simp [fillPruned, fill, putMember, Except.bind]

/-! ## Bytes -/

theorem readBytes_eq_ok_iff {v : Json} {bs : List UInt8} : readBytes v = .ok bs ↔
    ∃ s, v = .str s ∧ Base64.IsStrict s ∧ Base64.encodeText bs = s := by
  cases v with
  | str s =>
    simp only [readBytes, readText, Except.bind, Except.mapError_eq_ok, Json.str.injEq,
      exists_eq_left']
    constructor
    · intro h
      have e := Base64.encodeText_of_decodeText h
      exact ⟨Base64.isStrict_iff.2 ⟨bs, e⟩, e⟩
    · rintro ⟨-, rfl⟩
      exact Base64.decodeText_encodeText bs
  | _ => simp [readBytes, readText, Except.bind]

/-! ## Lists -/

theorem readAll_map_eq_ok_iff {α : Type} {read : Json → Except Fault α} {g : Json → Json}
    {R : Json → α → Prop} {vs : List Json} (h : ∀ v ∈ vs, ∀ x, read (g v) = .ok x ↔ R v x)
    {xs : List α} : readAll read (vs.map g) = .ok xs ↔ List.Forall₂ R vs xs := by
  induction vs generalizing xs with
  | nil => simp [readAll, eq_comm]
  | cons v vs ih =>
    obtain ⟨hv, hvs⟩ := List.forall_mem_cons.1 h
    simp only [List.map_cons, readAll, Except.bind_eq_ok, Except.map_eq_ok, hv, ih hvs,
      List.forall₂_cons_left_iff]
    constructor
    · rintro ⟨x, hx, xs, hxs, rfl⟩
      exact ⟨x, xs, hx, hxs, rfl⟩
    · rintro ⟨x, xs, hx, hxs, rfl⟩
      exact ⟨x, hx, xs, hxs, rfl⟩

/-! ## Reading -/

theorem readRow_nil {ρ : Type} (fs : Fields ρ) : readRow fs [] = .ok fs.blankRow := by
  cases fs <;> rfl

theorem map_ofRow_eq_ok_iff {α ρ : Type} (shape : Shape α ρ) {r : Except Fault ρ} {x : α} :
    r.map shape.ofRow = .ok x ↔ r = .ok (shape.toRow x) := by
  rw [Except.map_eq_ok]
  constructor
  · rintro ⟨row, h, rfl⟩
    rw [h, shape.toRow_ofRow]
  · intro h
    exact ⟨_, h, shape.ofRow_toRow x⟩

theorem decode_oneOf_eq_ok_iff {α ι : Type} {τ : ι → Type} {tags : Tags ι}
    {payload : (i : ι) → Format (τ i)} {shape : Shape α (Sigma τ)} {ms : Json.Object} {x : α} :
    decode (.oneOf tags payload shape) (.obj ms) = .ok x ↔
      ∃ w, ms = [(tags.key (shape.toRow x).1, w)] ∧
        decode (payload (shape.toRow x).1) w = .ok (shape.toRow x).2 := by
  match ms with
  | [] => simp [decode]
  | [(k, v)] =>
    simp only [decode, List.cons.injEq, Prod.mk.injEq, and_true]
    cases hk : tags.find? k with
    | none =>
      have hne : ∀ i, k ≠ tags.key i := fun i e => by
        rw [e, tags.find?_key] at hk
        cases hk
      simp [hne]
    | some i =>
      obtain rfl := tags.find?_eq_some_iff.1 hk
      simp only [Except.map_eq_ok]
      constructor
      · rintro ⟨y, hy, rfl⟩
        rw [shape.toRow_ofRow]
        exact ⟨v, ⟨rfl, rfl⟩, hy⟩
      · rintro ⟨_, ⟨hkey, rfl⟩, hy⟩
        have hx := shape.ofRow_toRow x
        generalize shape.toRow x = r at hkey hy hx
        obtain ⟨j, z⟩ := r
        obtain rfl := tags.key_injective hkey
        exact ⟨z, hy, hx⟩
  | _ :: _ :: _ => simp [decode]

mutual

/-- **Reading accepts exactly the spellings**, each with the value it stands for. -/
theorem decode_prune_eq_ok_iff : {α : Type} → (f : Format α) → f.Proper → (v : Json) →
    v.WellFormed → (x : α) → (decode f v.prune = .ok x ↔ Spells f v x)
  | _, .text, _, v, _, s => by
    cases v <;> simp [decode, readText, Json.prune, Spells]
  | _, .flag, _, v, _, b => by
    cases v <;> simp [decode, Json.prune, Spells]
  | _, .bytes, _, v, _, bs => by
    rw [Spells, ← readBytes_eq_ok_iff]
    cases v <;> simp [decode, readBytes, readText, Json.prune, Except.bind]
  | _, .int64, _, v, _, n => by
    rw [Spells, ← readInt64_eq_ok_iff]
    cases v <;> simp [decode, readInt64, Json.prune]
  | _, .list item, hf, v, hv, xs => by
    cases v with
    | arr vs =>
      simp only [decode, Json.prune, Json.pruneItems_eq, Spells, Json.arr.injEq, exists_eq_left']
      exact readAll_map_eq_ok_iff fun w hw y =>
        decode_prune_eq_ok_iff item hf.2 w (Json.wellFormed_arr.1 hv w hw) y
    | _ => simp [decode, Json.prune, Spells]
  | _, .optional inner, hf, v, hv, x => by
    simp only [decode, Json.isNull_prune]
    cases hn : v.isNull with
    | true =>
      obtain rfl := Json.isNull_iff.1 hn
      cases x <;> simp [Spells]
    | false =>
      have hne : v ≠ .null := fun e => by simp [e, Json.isNull] at hn
      cases x with
      | none => simp [Spells, Except.map_eq_ok, hne]
      | some x => simp [Spells, Except.map_eq_ok, hne, decode_prune_eq_ok_iff inner hf.2 v hv x]
  | _, .record name fields shape, hf, v, hv, x => by
    cases v with
    | obj ms =>
      obtain ⟨hs, hms⟩ := Json.wellFormed_obj.1 hv
      -- pruning leaves the given members, and these are put into the row one by one
      have ih := fillPruned_eq_ok_iff fields.names fields hf (Json.given ms)
        (Json.sorted_given hs) (fun p hp => hms p (Json.mem_given.1 hp).1) (shape.toRow x)
      simp only [decode, Json.prune, Json.pruneMembers_eq, fill_map, map_ofRow_eq_ok_iff, Spells]
      rw [← fillPruned, ih]
      simp
    | arr vs =>
      have ih := readRow_eq_ok_iff fields hf vs (Json.wellFormed_arr.1 hv) (shape.toRow x)
      simp only [decode, Json.prune, Json.pruneItems_eq, Except.bind_eq_ok, List.length_map, Spells]
      by_cases hlen : vs.length ≤ fields.names.length
      · simp only [hlen, ↓reduceIte, Except.ok.injEq]
        rw [← Except.map_eq_ok, map_ofRow_eq_ok_iff, ih]
        simp [hlen]
      · simp [hlen]
    | _ => simp [decode, Json.prune, Spells]
  | _, .oneOf tags payload shape, hf, v, hv, x => by
    cases v with
    | obj ms =>
      obtain ⟨hs, hms⟩ := Json.wellFormed_obj.1 hv
      rw [Json.prune, Json.pruneMembers_eq, decode_oneOf_eq_ok_iff, Spells]
      obtain ⟨i, y⟩ := shape.toRow x
      have ih : ∀ w, (tags.key i, w) ∈ Json.given ms →
          (decode (payload i) w.prune = .ok y ↔ Spells (payload i) w y) := fun w hw =>
        decode_prune_eq_ok_iff (payload i) (hf i).2 w (hms _ (Json.mem_given.1 hw).1) y
      simp only [List.map_eq_singleton_iff, Prod.mk.injEq, Json.obj.injEq]
      constructor
      · rintro ⟨_, ⟨⟨k, w⟩, hw, rfl, rfl⟩, hy⟩
        exact ⟨ms, w, rfl, hw, (ih w (by simp [hw])).1 hy⟩
      · rintro ⟨_, w, rfl, hw, hy⟩
        exact ⟨_, ⟨_, hw, rfl, rfl⟩, (ih w (by simp [hw])).2 hy⟩
    | str s =>
      simp only [decode, Json.prune, Spells]
      split <;> simp
    | _ => simp [decode, Json.prune, Spells]

theorem fillPruned_eq_ok_iff (declared : List String) : {ρ : Type} → (fs : Fields ρ) →
    fs.Proper → (ms : Json.Object) → Entries.Sorted ms → (∀ p ∈ ms, p.2.WellFormed) → (row : ρ) →
    (fillPruned declared fs ms fs.blankRow = .ok row ↔
      (∀ p ∈ ms, p.1 ∈ fs.names) ∧ SpellsMembers fs ms row)
  | _, .nil, _, ms, _, _, row => by
    rw [Fields.blankRow, fillPruned_nil_eq_ok_iff]
    simp [SpellsMembers, Fields.names, List.eq_nil_iff_forall_not_mem]
  | _, .cons name f absent rest, hfs, ms, hs, hms, (x, row) => by
    obtain ⟨hname, hf, -, hrest⟩ := hfs
    -- The rest is read from the other members; as it has no field of this name, they are all it
    -- looks at.
    have hmem : ∀ p, p ∈ Entries.erase name ms ↔ p ∈ ms ∧ p.1 ≠ name := fun p =>
      Entries.mem_erase_iff hs
    have ih := fillPruned_eq_ok_iff declared rest hrest (Entries.erase name ms)
      (hs.erase name) (fun p hp => hms p ((hmem p).1 hp).1) row
    have hcongr : SpellsMembers rest (Entries.erase name ms) row ↔ SpellsMembers rest ms row :=
      spellsMembers_congr rest (fun k hk =>
        Entries.get?_erase_of_ne hs fun (e : k = name) => hname (e ▸ hk)) row
    have hnames : (∀ p ∈ Entries.erase name ms, p.1 ∈ rest.names) ↔
        ∀ p ∈ ms, p.1 ∈ name :: rest.names := by
      simp only [hmem, and_imp, List.mem_cons, or_iff_not_imp_left]
    rw [Fields.blankRow, fillPruned_cons_eq_ok_iff hs, ih, hcongr, hnames, Fields.names,
      SpellsMembers, and_left_comm]
    cases hv : Entries.get? name ms with
    | none => rfl
    | some v =>
      have hwf : v.WellFormed := hms (name, v) ((Entries.get?_eq_some_iff hs).1 hv)
      simp only [decode_prune_eq_ok_iff f hf v hwf x]

theorem readRow_eq_ok_iff : {ρ : Type} → (fs : Fields ρ) → fs.Proper → (vs : List Json) →
    (∀ v ∈ vs, v.WellFormed) → (row : ρ) →
    (readRow fs (vs.map Json.prune) = .ok row ↔ SpellsElements fs vs row)
  | _, .nil, _, vs, _, row => by
    simp [readRow, SpellsElements]
  | _, .cons name f absent rest, hfs, [], _, (x, row) => by
    obtain ⟨-, -, -, hrest⟩ := hfs
    have ih := readRow_eq_ok_iff rest hrest [] (by simp) row
    rw [List.map_nil, readRow_nil, Except.ok.injEq] at ih ⊢
    rw [SpellsElements, ← ih, Fields.blankRow, Prod.mk.injEq, eq_comm (a := absent.blank)]
  | _, .cons name f absent rest, hfs, v :: vs, hvs, (x, row) => by
    obtain ⟨-, hf, -, hrest⟩ := hfs
    obtain ⟨hv, hvs⟩ := List.forall_mem_cons.1 hvs
    have ih := readRow_eq_ok_iff rest hrest vs hvs row
    simp only [List.map_cons, readRow, Except.bind_eq_ok, Except.map_eq_ok, SpellsElements,
      ← decode_prune_eq_ok_iff f hf v hv, ← ih, Prod.mk.injEq]
    constructor
    · rintro ⟨_, hx, _, hrow, rfl, rfl⟩
      exact ⟨hx, hrow⟩
    · rintro ⟨hx, hrow⟩
      exact ⟨x, hx, row, hrow, rfl, rfl⟩

end

end MessageHooks.Schema
