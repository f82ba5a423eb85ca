import MessageHooks.Proofs.Schema.Spelling
import Mathlib.Data.Set.List

/-!
# Canonical forms of typed values

Of the spellings of a typed value one is written. This module says which values are ever written,
without mention of writing: `Canonical f v` is the grammar of the written forms of a format.

* `Canonical`: by recursion on the format. Objects only, in order, every member declared and none
  of them a default; integers as such and in range; strict base64.
* `canonical_encode`, `exists_encode_eq`: exactly the canonical forms are written.
* `spells_encode`: what is written is a spelling of the value it is written for.
-/

namespace MessageHooks.Schema

mutual

/-- The dynamic value is in the form in which values of the format are written. -/
def Canonical : {α : Type} → Format α → Json → Prop
  | _, .text, v => ∃ s, v = .str s
  | _, .flag, v => ∃ b, v = .bool b
  | _, .bytes, v => ∃ s, v = .str s ∧ Base64.IsStrict s
  | _, .int64, v => ∃ n : Int, v = .int n ∧ -2 ^ 63 ≤ n ∧ n < 2 ^ 63
  | _, .list item, v => ∃ vs, v = .arr vs ∧ ∀ w ∈ vs, Canonical item w
  | _, .optional inner, v => Canonical inner v
  | _, .record _ fields _, v => ∃ ms, v = .obj ms ∧ Entries.Sorted ms ∧
      ∀ p ∈ ms, p.2.isDefault = false ∧ CanonicalMember fields p.1 p.2
  | _, .oneOf tags payload _, v => ∃ i w, v = .obj [(tags.key i, w)] ∧ Canonical (payload i) w

/-- The record declares a member of that name, with the value in canonical form. -/
def CanonicalMember : {ρ : Type} → Fields ρ → String → Json → Prop
  | _, .nil, _, _ => False
  | _, .cons name format _ rest, k, v => (k = name ∧ Canonical format v) ∨ CanonicalMember rest k v

end

theorem CanonicalMember.mem_names {k : String} {v : Json} : {ρ : Type} → (fs : Fields ρ) →
    CanonicalMember fs k v → k ∈ fs.names
  | _, .nil, h => h.elim
  | _, .cons name f absent rest, h => by
    rw [CanonicalMember] at h
    rcases h with ⟨rfl, -⟩ | h
    · exact List.mem_cons_self
    · exact List.mem_cons_of_mem _ (mem_names rest h)

mutual

theorem Canonical.wellFormed : {α : Type} → (f : Format α) → (v : Json) → Canonical f v →
    v.WellFormed
  | _, .text, _, h | _, .flag, _, h => by
    rw [Canonical] at h
    obtain ⟨_, rfl⟩ := h
    trivial
  | _, .bytes, _, h | _, .int64, _, h => by
    rw [Canonical] at h
    obtain ⟨_, rfl, -⟩ := h
    trivial
  | _, .list item, _, h => by
    rw [Canonical] at h
    obtain ⟨vs, rfl, hvs⟩ := h
    exact Json.wellFormed_arr.2 fun w hw => Canonical.wellFormed item w (hvs w hw)
  | _, .optional inner, v, h => by
    rw [Canonical] at h
    exact Canonical.wellFormed inner v h
  | _, .record _ fields _, _, h => by
    rw [Canonical] at h
    obtain ⟨ms, rfl, hs, hms⟩ := h
    exact Json.wellFormed_obj.2 ⟨hs, fun p hp => CanonicalMember.wellFormed fields p.2 (hms p hp).2⟩
  | _, .oneOf _ payload _, _, h => by
    rw [Canonical] at h
    obtain ⟨i, w, rfl, hw⟩ := h
    exact Json.wellFormed_obj.2
      ⟨List.pairwise_singleton _ _, by simpa using Canonical.wellFormed (payload i) w hw⟩

theorem CanonicalMember.wellFormed {k : String} : {ρ : Type} → (fs : Fields ρ) → (v : Json) →
    CanonicalMember fs k v → v.WellFormed
  | _, .nil, _, h => h.elim
  | _, .cons _ f _ rest, v, h => by
    rw [CanonicalMember] at h
    rcases h with ⟨-, h⟩ | h
    · exact Canonical.wellFormed f v h
    · exact CanonicalMember.wellFormed rest v h

end

/-! ## Members of a row -/

theorem names_nodup : {ρ : Type} → {fs : Fields ρ} → fs.Proper → fs.names.Nodup
  | _, .nil, _ => List.nodup_nil
  | _, .cons _ _ _ _, h => List.nodup_cons.2 ⟨h.1, names_nodup h.2.2.2⟩

theorem keys_encodeRow_sublist : {ρ : Type} → (fs : Fields ρ) → (row : ρ) →
    ((encodeRow fs row).map Prod.fst).Sublist fs.names
  | _, .nil, _ => List.Sublist.refl _
  | _, .cons name _ absent rest, (x, row) => by
    rw [encodeRow, Fields.names]
    split
    · exact (keys_encodeRow_sublist rest row).cons name
    · exact (keys_encodeRow_sublist rest row).cons_cons name

theorem keys_encodeRow_nodup {ρ : Type} {fs : Fields ρ} (hfs : fs.Proper) (row : ρ) :
    ((encodeRow fs row).map Prod.fst).Nodup :=
  (names_nodup hfs).sublist (keys_encodeRow_sublist fs row)

theorem mem_names_of_mem_encodeRow {ρ : Type} {fs : Fields ρ} {row : ρ} {p : String × Json}
    (h : p ∈ encodeRow fs row) : p.1 ∈ fs.names :=
  (keys_encodeRow_sublist fs row).subset (List.mem_map_of_mem h)

theorem mem_encodeRow_cons {α ρ : Type} {name : String} {f : Format α} {absent : Blank α}
    {rest : Fields ρ} (h : ∀ x, absent.isBlank x = (encode f x).isDefault) {x : α} {row : ρ}
    {p : String × Json} : p ∈ encodeRow (.cons name f absent rest) (x, row) ↔
      (p = (name, encode f x) ∧ p.2.isDefault = false) ∨ p ∈ encodeRow rest row := by
  rw [encodeRow, h]
  cases hb : (encode f x).isDefault with
  | true =>
    have : ¬(p = (name, encode f x) ∧ p.2.isDefault = false) := by
      rintro ⟨rfl, hp⟩
      rw [hb] at hp
      cases hp
    simp [this]
  | false =>
    have : p = (name, encode f x) ∧ p.2.isDefault = false ↔ p = (name, encode f x) :=
      and_iff_left_of_imp fun e => e ▸ hb
    simp [this]

/-! ## Writing -/

mutual

/-- **Only canonical forms are written.** -/
theorem canonical_encode : {α : Type} → (f : Format α) → f.Proper → (x : α) →
    (encode f x).isNull = false → Canonical f (encode f x)
  | _, .text, _, s, _ => ⟨s, rfl⟩
  | _, .flag, _, b, _ => ⟨b, rfl⟩
  | _, .bytes, _, bs, _ => ⟨_, rfl, Base64.isStrict_iff.2 ⟨bs, rfl⟩⟩
  | _, .int64, _, n, _ => ⟨n.toInt, rfl, n.le_toInt, n.toInt_lt⟩
  | _, .list item, hf, xs, _ => by
    rw [Format.Proper] at hf
    refine ⟨xs.map (encode item), rfl, fun w hw => ?_⟩
    obtain ⟨x, -, rfl⟩ := List.mem_map.1 hw
    exact canonical_encode item hf.2 x (isNull_encode hf.1 x)
  | _, .optional inner, hf, x, hx => by
    rw [Format.Proper] at hf
    cases x with
    | none => cases hx
    | some x => exact canonical_encode inner hf.2 x hx
  | _, .record _ fields shape, hf, x, _ => by
    rw [Format.Proper] at hf
    refine ⟨_, rfl, Entries.sorted_ofList _, fun p hp => ?_⟩
    rw [Entries.mem_ofList_iff (keys_encodeRow_nodup hf _)] at hp
    exact canonical_encodeRow fields hf (shape.toRow x) p hp
  | _, .oneOf tags payload shape, hf, x, _ => by
    rw [Format.Proper] at hf
    let i := (shape.toRow x).1
    exact ⟨i, _, rfl, canonical_encode (payload i) (hf i).2 _ (isNull_encode (hf i).1 _)⟩

theorem canonical_encodeRow : {ρ : Type} → (fs : Fields ρ) → fs.Proper → (row : ρ) →
    ∀ p ∈ encodeRow fs row, p.2.isDefault = false ∧ CanonicalMember fs p.1 p.2
  | _, .nil, _, _ => fun _ hp => by cases hp
  | _, .cons name f absent rest, hfs, (x, row) => by
    obtain ⟨-, hf, hblank, hrest⟩ := hfs
    intro p hp
    rcases (mem_encodeRow_cons hblank).1 hp with ⟨rfl, hb⟩ | hp
    · exact ⟨hb, .inl ⟨rfl, canonical_encode f hf x (Json.isNull_of_isDefault hb)⟩⟩
    · obtain ⟨hb, hp⟩ := canonical_encodeRow rest hrest row p hp
      exact ⟨hb, .inr hp⟩

end

mutual

/-- **Every canonical form is written** for some value. -/
theorem exists_encode_eq : {α : Type} → (f : Format α) → f.Proper → (v : Json) →
    Canonical f v → ∃ x, encode f x = v
  | _, .text, _, _, h => by
    obtain ⟨s, rfl⟩ := h
    exact ⟨s, rfl⟩
  | _, .flag, _, _, h => by
    obtain ⟨b, rfl⟩ := h
    exact ⟨b, rfl⟩
  | _, .bytes, _, _, h => by
    obtain ⟨s, rfl, hs⟩ := h
    obtain ⟨bs, rfl⟩ := Base64.isStrict_iff.1 hs
    exact ⟨bs, rfl⟩
  | _, .int64, _, _, h => by
    obtain ⟨n, rfl, hlo, hhi⟩ := h
    exact ⟨.ofInt n, congrArg Json.int (Int64.toInt_ofInt_of_le hlo hhi)⟩
  | _, .list item, hf, _, h => by
    rw [Format.Proper] at hf
    obtain ⟨vs, rfl, hvs⟩ := h
    have hrange : vs ∈ Set.range (List.map (encode item)) := by
      rw [Set.range_list_map]
      exact fun w hw => exists_encode_eq item hf.2 w (hvs w hw)
    obtain ⟨xs, rfl⟩ := hrange
    exact ⟨xs, rfl⟩
  | _, .optional inner, hf, v, h => by
    rw [Format.Proper] at hf
    obtain ⟨x, hx⟩ := exists_encode_eq inner hf.2 v h
    exact ⟨some x, hx⟩
  | _, .record _ fields shape, hf, _, h => by
    rw [Format.Proper] at hf
    obtain ⟨ms, rfl, hs, hms⟩ := h
    obtain ⟨row, hrow⟩ := exists_encodeRow fields hf ms hs hms
    refine ⟨shape.ofRow row, ?_⟩
    rw [encode, shape.toRow_ofRow, Json.ofMembers,
      Entries.ofList_eq_of_mem_iff (keys_encodeRow_nodup hf row) hs hrow]
  | _, .oneOf tags payload shape, hf, _, h => by
    rw [Format.Proper] at hf
    obtain ⟨i, w, rfl, hw⟩ := h
    obtain ⟨y, rfl⟩ := exists_encode_eq (payload i) (hf i).2 w hw
    refine ⟨shape.ofRow ⟨i, y⟩, ?_⟩
    rw [encode, shape.toRow_ofRow]

theorem exists_encodeRow : {ρ : Type} → (fs : Fields ρ) → fs.Proper → (ms : Json.Object) →
    Entries.Sorted ms → (∀ p ∈ ms, p.2.isDefault = false ∧ CanonicalMember fs p.1 p.2) →
    ∃ row, ∀ p, p ∈ encodeRow fs row ↔ p ∈ ms
  | _, .nil, _, ms, _, hms => by
    have hnil : ms = [] := List.eq_nil_iff_forall_not_mem.2 fun p hp => (hms p hp).2
    exact ⟨(), fun p => by simp [encodeRow, hnil]⟩
  | _, .cons name f absent rest, hfs, ms, hs, hms => by
    obtain ⟨hname, hf, hblank, hrest⟩ := hfs
    have hmem : ∀ p, p ∈ Entries.erase name ms ↔ p ∈ ms ∧ p.1 ≠ name := fun p =>
      Entries.mem_erase_iff hs
    -- The fields of the rest make up the members of other names, and this field its own.
    obtain ⟨row, hrow⟩ := exists_encodeRow rest hrest (Entries.erase name ms) (hs.erase name)
      fun p hp => by
        obtain ⟨hp, hne⟩ := (hmem p).1 hp
        exact ⟨(hms p hp).1, (hms p hp).2.resolve_left fun h => hne h.1⟩
    cases hv : Entries.get? name ms with
    | none =>
      refine ⟨(absent.blank, row), fun p => ?_⟩
      have hb : absent.isBlank absent.blank = true := (absent.isBlank_iff _).2 rfl
      rw [encodeRow, if_pos hb, hrow, Entries.erase_eq_self hs hv]
    | some v =>
      have hvm : (name, v) ∈ ms := (Entries.get?_eq_some_iff hs).1 hv
      obtain ⟨hb, hc⟩ := hms (name, v) hvm
      obtain ⟨x, rfl⟩ : ∃ x, encode f x = v := by
        rcases hc with ⟨-, hc⟩ | hc
        · exact exists_encode_eq f hf v hc
        · exact absurd (CanonicalMember.mem_names rest hc) hname
      refine ⟨(x, row), fun p => ?_⟩
      rw [mem_encodeRow_cons hblank, hrow, hmem]
      constructor
      · rintro (⟨rfl, -⟩ | ⟨hp, -⟩)
        · exact hvm
        · exact hp
      · intro hp
        by_cases hne : p.1 = name
        · obtain ⟨k, w⟩ := p
          obtain rfl : k = name := hne
          have hw := (Entries.get?_eq_some_iff hs).2 hp
          rw [hv, Option.some.injEq] at hw
          exact .inl ⟨by rw [hw], hw ▸ hb⟩
        · exact .inr ⟨hp, hne⟩

end

/-! ## Writing and spelling -/

mutual

theorem spells_encode : {α : Type} → (f : Format α) → f.Proper → (x : α) →
    Spells f (encode f x) x
  | _, .text, _, _ | _, .flag, _, _ | _, .int64, _, _ => rfl
  | _, .bytes, _, bs => ⟨_, rfl, Base64.isStrict_iff.2 ⟨bs, rfl⟩, rfl⟩
  | _, .list item, hf, xs => by
    rw [Format.Proper] at hf
    refine ⟨xs.map (encode item), rfl, ?_⟩
    rw [List.forall₂_map_left_iff, List.forall₂_same]
    exact fun x _ => spells_encode item hf.2 x
  | _, .optional inner, hf, x => by
    rw [Format.Proper] at hf
    cases x with
    | none => rfl
    | some x =>
      refine ⟨fun h => ?_, spells_encode inner hf.2 x⟩
      have hnull := isNull_encode hf.1 x
      rw [encode] at h
      rw [h] at hnull
      cases hnull
  | _, .record _ fields shape, hf, x => by
    rw [Format.Proper] at hf
    have hmem : ∀ p, p ∈ Entries.ofList (encodeRow fields (shape.toRow x)) ↔
        p ∈ encodeRow fields (shape.toRow x) := fun p =>
      Entries.mem_ofList_iff (keys_encodeRow_nodup hf _)
    have hgiven : Json.given (Entries.ofList (encodeRow fields (shape.toRow x))) =
        Entries.ofList (encodeRow fields (shape.toRow x)) := Json.given_eq_self fun p hp =>
      Json.isNull_of_isDefault (canonical_encodeRow fields hf _ p ((hmem p).1 hp)).1
    refine .inl ⟨_, rfl, ?_⟩
    rw [hgiven]
    exact ⟨fun p hp => mem_names_of_mem_encodeRow ((hmem p).1 hp),
      spellsMembers_encodeRow fields hf _ _ (Entries.sorted_ofList _) fun p _ => hmem p⟩
  | _, .oneOf tags payload shape, hf, x => by
    rw [Format.Proper] at hf
    let i := (shape.toRow x).1
    refine ⟨_, _, rfl, Json.given_eq_self fun p hp => ?_, spells_encode (payload i) (hf i).2 _⟩
    obtain rfl := List.mem_singleton.1 hp
    exact isNull_encode (hf i).1 _

/-- The written members of a row spell it, with any members of other names beside them. -/
theorem spellsMembers_encodeRow : {ρ : Type} → (fs : Fields ρ) → fs.Proper → (row : ρ) →
    (ms : Json.Object) → Entries.Sorted ms →
    (∀ p, p.1 ∈ fs.names → (p ∈ ms ↔ p ∈ encodeRow fs row)) → SpellsMembers fs ms row
  | _, .nil, _, _, _, _, _ => trivial
  | _, .cons name f absent rest, hfs, (x, row), ms, hs, hms => by
    obtain ⟨hname, hf, hblank, hrest⟩ := hfs
    -- A member of this name stands there exactly when the field is not blank.
    have hget : ∀ v, Entries.get? name ms = some v ↔ v = encode f x ∧ v.isDefault = false := by
      intro v
      have hv : (name, v) ∉ encodeRow rest row := fun h => hname (mem_names_of_mem_encodeRow h)
      rw [Entries.get?_eq_some_iff hs, hms _ List.mem_cons_self, mem_encodeRow_cons hblank,
        or_iff_left hv, Prod.mk.injEq, and_iff_right rfl]
    refine ⟨?_, spellsMembers_encodeRow rest hrest row ms hs fun p hp => ?_⟩
    · cases hv : Entries.get? name ms with
      | some v =>
        obtain ⟨rfl, -⟩ := (hget v).1 hv
        exact spells_encode f hf x
      | none =>
        have hb : (encode f x).isDefault = true := by
          by_contra hb
          have h := (hget (encode f x)).2 ⟨rfl, by simpa using hb⟩
          rw [hv] at h
          cases h
        exact (absent.isBlank_iff x).1 ((hblank x).trans hb)
    · have hne : ¬(p = (name, encode f x) ∧ p.2.isDefault = false) := by
        rintro ⟨rfl, -⟩
        exact hname hp
      rw [hms p (List.mem_cons_of_mem name hp), mem_encodeRow_cons hblank, or_iff_right hne]

end

/-! ## Both directions -/

/-- **The written forms of a format are its canonical forms.** -/
theorem exists_encode_eq_iff {α : Type} {f : Format α} (hf : f.Proper) (ho : f.isOptional = false)
    {v : Json} : (∃ x, encode f x = v) ↔ Canonical f v := by
  constructor
  · rintro ⟨x, rfl⟩
    exact canonical_encode f hf x (isNull_encode ho x)
  · exact exists_encode_eq f hf v

theorem wellFormed_encode {α : Type} {f : Format α} (hf : f.Proper) (ho : f.isOptional = false)
    (x : α) : (encode f x).WellFormed :=
  Canonical.wellFormed f _ (canonical_encode f hf x (isNull_encode ho x))

end MessageHooks.Schema
