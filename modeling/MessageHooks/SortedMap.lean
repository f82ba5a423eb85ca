import MessageHooks.Order

/-!
# Maps listed by key

A finite map is the list of its entries in strictly increasing order of keys. Equal maps are equal
lists, so what is printed or enumerated from a map depends on its contents alone.

* `Entries`: the bare list, for types that nest it; `Entries.Sorted` is its order.
* `SortedMap`: a list with its order; `SortedMap.ext_get?` says that lookups determine the map.
-/

namespace MessageHooks

variable {κ ν : Type} [KeyOrder κ]

/-- Keyed values in a fixed order. -/
abbrev Entries (κ ν : Type) := List (κ × ν)

namespace Entries

/-- The keys increase strictly. -/
def Sorted (m : Entries κ ν) : Prop := m.Pairwise (fun p q => KeyOrder.lt p.1 q.1 = true)

instance (m : Entries κ ν) : Decidable (Sorted m) :=
  inferInstanceAs (Decidable (m.Pairwise fun p q => KeyOrder.lt p.1 q.1 = true))

def get? (k : κ) : Entries κ ν → Option ν
  | [] => none
  | (k', v) :: m =>
    if KeyOrder.lt k k' then none else if KeyOrder.lt k' k then get? k m else some v

/-- Set `k` to `v`: an entry of that key gives way, all others stay. -/
def insert (k : κ) (v : ν) : Entries κ ν → Entries κ ν
  | [] => [(k, v)]
  | (k', v') :: m =>
    if KeyOrder.lt k k' then (k, v) :: (k', v') :: m
    else if KeyOrder.lt k' k then (k', v') :: insert k v m
    else (k, v) :: m

def erase (k : κ) : Entries κ ν → Entries κ ν
  | [] => []
  | (k', v') :: m =>
    if KeyOrder.lt k k' then (k', v') :: m
    else if KeyOrder.lt k' k then (k', v') :: erase k m
    else m

/-- Entries given in any order; of a repeated key the last value stays. -/
def ofList (m : List (κ × ν)) : Entries κ ν :=
  m.foldl (fun acc p => insert p.1 p.2 acc) []

/-! ## Order -/

theorem sorted_nil : Sorted ([] : Entries κ ν) := List.Pairwise.nil

theorem sorted_iff_pairwise_keys {m : Entries κ ν} :
    Sorted m ↔ (m.map Prod.fst).Pairwise fun k l => KeyOrder.lt k l = true := by
  rw [List.pairwise_map, Sorted]

theorem mem_insert {k : κ} {v : ν} {m : Entries κ ν} {p : κ × ν} (h : p ∈ insert k v m) :
    p = (k, v) ∨ p ∈ m := by
  induction m with
  | nil => simpa [insert] using h
  | cons q m ih =>
    simp only [insert] at h
    split at h
    · simpa using h
    · split at h
      · rcases List.mem_cons.1 h with h | h
        · exact .inr (h ▸ List.mem_cons_self)
        · exact (ih h).imp id (List.mem_cons_of_mem _)
      · rcases List.mem_cons.1 h with h | h
        · exact .inl h
        · exact .inr (List.mem_cons_of_mem _ h)

theorem Sorted.insert {m : Entries κ ν} (h : Sorted m) (k : κ) (v : ν) :
    Sorted (insert k v m) := by
  induction m with
  | nil => exact List.pairwise_singleton _ _
  | cons q m ih =>
    obtain ⟨hq, hm⟩ := List.pairwise_cons.1 h
    simp only [Entries.insert]
    split
    · rename_i hk
      refine List.pairwise_cons.2 ⟨fun p hp => ?_, h⟩
      rcases List.mem_cons.1 hp with rfl | hp
      · exact hk
      · exact KeyOrder.trans hk (hq p hp)
    · rename_i hk
      split
      · rename_i hk'
        refine List.pairwise_cons.2 ⟨fun p hp => ?_, ih hm⟩
        rcases mem_insert hp with rfl | hp
        · exact hk'
        · exact hq p hp
      · rename_i hk'
        have e : k = q.1 := KeyOrder.connected (by simpa using hk) (by simpa using hk')
        exact List.pairwise_cons.2 ⟨fun p hp => e ▸ hq p hp, hm⟩

theorem erase_sublist (k : κ) (m : Entries κ ν) : (erase k m).Sublist m := by
  induction m with
  | nil => exact List.Sublist.refl _
  | cons q m ih =>
    simp only [erase]
    split
    · exact List.Sublist.refl _
    · split
      · exact ih.cons_cons q
      · exact List.sublist_cons_self q m

theorem Sorted.erase {m : Entries κ ν} (h : Sorted m) (k : κ) : Sorted (erase k m) :=
  List.Pairwise.sublist (erase_sublist k m) h

theorem sorted_ofList (m : List (κ × ν)) : Sorted (ofList m) := by
  suffices ∀ acc : Entries κ ν, Sorted acc →
      Sorted (m.foldl (fun acc p => Entries.insert p.1 p.2 acc) acc) from this [] sorted_nil
  induction m with
  | nil => exact fun _ h => h
  | cons p m ih => exact fun acc h => ih _ (h.insert p.1 p.2)

/-! ## Lookup -/

@[simp] theorem get?_nil (k : κ) : get? k ([] : Entries κ ν) = none := rfl

theorem get?_eq_none_of_lt {k : κ} {m : Entries κ ν}
    (h : ∀ p ∈ m, KeyOrder.lt k p.1 = true) : get? k m = none := by
  cases m with
  | nil => rfl
  | cons q m => simp [get?, h q List.mem_cons_self]

theorem get?_cons_self (k : κ) (v : ν) (m : Entries κ ν) : get? k ((k, v) :: m) = some v := by
  simp [get?, KeyOrder.irrefl]

theorem get?_cons_of_gt {k k' : κ} {v : ν} {m : Entries κ ν} (h : KeyOrder.lt k' k = true) :
    get? k ((k', v) :: m) = get? k m := by
  simp [get?, h, KeyOrder.asymm h]

theorem get?_eq_some_iff {m : Entries κ ν} (h : Sorted m) {k : κ} {v : ν} :
    get? k m = some v ↔ (k, v) ∈ m := by
  induction m with
  | nil => simp
  | cons q m ih =>
    obtain ⟨hq, hm⟩ := List.pairwise_cons.1 h
    obtain ⟨k', v'⟩ := q
    simp only [get?, List.mem_cons, Prod.mk.injEq]
    split
    · rename_i hk
      simp only [reduceCtorEq, false_iff, not_or, not_and]
      refine ⟨fun e => absurd e (KeyOrder.ne_of_lt hk), fun hp => ?_⟩
      exact KeyOrder.ne_of_lt (KeyOrder.trans hk (hq _ hp)) rfl
    · rename_i hk
      split
      · rename_i hk'
        rw [ih hm]
        refine ⟨.inr, fun hp => hp.resolve_left fun e => ?_⟩
        exact KeyOrder.ne_of_lt hk' e.1.symm
      · rename_i hk'
        have e : k = k' := KeyOrder.connected (by simpa using hk) (by simpa using hk')
        subst e
        simp only [Option.some.injEq, true_and]
        refine ⟨fun hv => .inl hv.symm, fun hp => ?_⟩
        rcases hp with hp | hp
        · exact hp.symm
        · exact absurd rfl (KeyOrder.ne_of_lt (hq (k, v) hp))

theorem get?_insert_self {m : Entries κ ν} (h : Sorted m) (k : κ) (v : ν) :
    get? k (insert k v m) = some v := by
  induction m with
  | nil => exact get?_cons_self k v []
  | cons q m ih =>
    simp only [insert]
    split
    · exact get?_cons_self k v _
    · split
      · rename_i hk'
        rw [get?_cons_of_gt hk', ih (List.pairwise_cons.1 h).2]
      · exact get?_cons_self k v _

theorem get?_insert_of_ne {m : Entries κ ν} (h : Sorted m) {k k' : κ} (v : ν) (hk : k' ≠ k) :
    get? k' (insert k v m) = get? k' m := by
  have mem : ∀ w, (k', w) ∈ insert k v m ↔ (k', w) ∈ m := by
    intro w
    clear h
    induction m with
    | nil => simp [insert, hk]
    | cons q m ih =>
      obtain ⟨kq, vq⟩ := q
      simp only [insert]
      split
      · simp [hk]
      · split
        · simp [ih]
        · rename_i hq hq'
          have e : k = kq := KeyOrder.connected (by simpa using hq) (by simpa using hq')
          simp only [List.mem_cons, Prod.mk.injEq, hk, false_and, false_or, iff_or_self]
          exact fun h => absurd (h.1.trans e.symm) hk
  apply Option.ext
  intro w
  rw [get?_eq_some_iff (h.insert k v), get?_eq_some_iff h, mem]

theorem get?_erase_self {m : Entries κ ν} (h : Sorted m) (k : κ) : get? k (erase k m) = none := by
  induction m with
  | nil => rfl
  | cons q m ih =>
    obtain ⟨hq, hm⟩ := List.pairwise_cons.1 h
    simp only [erase]
    split
    · rename_i hk
      simp [get?, hk]
    · split
      · rename_i hk'
        rw [get?_cons_of_gt hk', ih hm]
      · rename_i hk hk'
        have e : k = q.1 := KeyOrder.connected (by simpa using hk) (by simpa using hk')
        exact get?_eq_none_of_lt fun p hp => e ▸ hq p hp

theorem get?_erase_of_ne {m : Entries κ ν} (h : Sorted m) {k k' : κ} (hk : k' ≠ k) :
    get? k' (erase k m) = get? k' m := by
  have mem : ∀ w, (k', w) ∈ erase k m ↔ (k', w) ∈ m := by
    intro w
    clear h
    induction m with
    | nil => simp [erase]
    | cons q m ih =>
      obtain ⟨kq, vq⟩ := q
      simp only [erase]
      split
      · exact Iff.rfl
      · split
        · simp [ih]
        · rename_i hq hq'
          have e : k = kq := KeyOrder.connected (by simpa using hq) (by simpa using hq')
          simp only [List.mem_cons, Prod.mk.injEq, iff_or_self]
          exact fun h => absurd (h.1.trans e.symm) hk
  apply Option.ext
  intro w
  rw [get?_eq_some_iff (h.erase k), get?_eq_some_iff h, mem]

theorem get?_cons_of_ne {k k' : κ} {v : ν} {m : Entries κ ν} (h : Sorted ((k', v) :: m))
    (hk : k ≠ k') : get? k ((k', v) :: m) = get? k m := by
  cases hlt : KeyOrder.lt k' k with
  | true => exact get?_cons_of_gt hlt
  | false =>
    have hk' : KeyOrder.lt k k' = true := KeyOrder.lt_of_not_lt hlt hk.symm
    have hm : ∀ p ∈ m, KeyOrder.lt k p.1 = true := fun p hp =>
      KeyOrder.trans hk' ((List.pairwise_cons.1 h).1 p hp)
    rw [get?_eq_none_of_lt hm]
    simp [get?, hk']

theorem get?_eq_none_iff {m : Entries κ ν} (h : Sorted m) {k : κ} :
    get? k m = none ↔ ∀ p ∈ m, p.1 ≠ k := by
  rw [Option.eq_none_iff_forall_ne_some]
  refine ⟨fun hk p hp e => hk p.2 ((get?_eq_some_iff h).2 (e ▸ hp)), fun hk v hv => ?_⟩
  exact hk (k, v) ((get?_eq_some_iff h).1 hv) rfl

theorem mem_erase_iff {m : Entries κ ν} (h : Sorted m) {k : κ} {p : κ × ν} :
    p ∈ erase k m ↔ p ∈ m ∧ p.1 ≠ k := by
  obtain ⟨k', v⟩ := p
  rw [← get?_eq_some_iff (h.erase k), ← get?_eq_some_iff h]
  by_cases hk : k' = k
  · subst hk
    simp [get?_erase_self h]
  · simp [get?_erase_of_ne h hk, hk]

theorem Sorted.ext {m m' : Entries κ ν} (h : Sorted m) (h' : Sorted m')
    (e : ∀ k, get? k m = get? k m') : m = m' := by
  have mem : ∀ p : κ × ν, p ∈ m ↔ p ∈ m' := fun p => by
    rw [← get?_eq_some_iff h, e, get?_eq_some_iff h']
  clear e
  induction m generalizing m' with
  | nil =>
    cases m' with
    | nil => rfl
    | cons q m' => simpa using mem q
  | cons p m ih =>
    cases m' with
    | nil => simpa using mem p
    | cons q m' =>
      obtain ⟨hp, hm⟩ := List.pairwise_cons.1 h
      obtain ⟨hq, hm'⟩ := List.pairwise_cons.1 h'
      have epq : p = q := by
        rcases List.mem_cons.1 ((mem p).1 List.mem_cons_self) with e | hpm
        · exact e
        rcases List.mem_cons.1 ((mem q).2 List.mem_cons_self) with e | hqm
        · exact e.symm
        · exact absurd (KeyOrder.trans (hq p hpm) (hp q hqm)) (by simp [KeyOrder.irrefl])
      subst epq
      congr 1
      refine ih hm hm' fun r => ⟨fun hr => ?_, fun hr => ?_⟩
      · rcases List.mem_cons.1 ((mem r).1 (List.mem_cons_of_mem _ hr)) with rfl | hr'
        · exact absurd rfl (KeyOrder.ne_of_lt (hp _ hr))
        · exact hr'
      · rcases List.mem_cons.1 ((mem r).2 (List.mem_cons_of_mem _ hr)) with rfl | hr'
        · exact absurd rfl (KeyOrder.ne_of_lt (hq _ hr))
        · exact hr'

theorem erase_eq_self {m : Entries κ ν} (h : Sorted m) {k : κ} (hk : get? k m = none) :
    erase k m = m := by
  refine Sorted.ext (h.erase k) h fun k' => ?_
  by_cases e : k' = k
  · rw [e, get?_erase_self h, hk]
  · exact get?_erase_of_ne h e

theorem insert_erase {m : Entries κ ν} (h : Sorted m) {k : κ} {v : ν} (hk : get? k m = some v) :
    insert k v (erase k m) = m := by
  refine Sorted.ext ((h.erase k).insert k v) h fun k' => ?_
  by_cases e : k' = k
  · rw [e, get?_insert_self (h.erase k), hk]
  · rw [get?_insert_of_ne (h.erase k) v e, get?_erase_of_ne h e]

theorem erase_insert {m : Entries κ ν} (h : Sorted m) {k : κ} (v : ν) (hk : get? k m = none) :
    erase k (insert k v m) = m := by
  refine Sorted.ext ((h.insert k v).erase k) h fun k' => ?_
  by_cases e : k' = k
  · rw [e, get?_erase_self (h.insert k v), hk]
  · rw [get?_erase_of_ne (h.insert k v) e, get?_insert_of_ne h v e]

theorem erase_insert_of_ne {m : Entries κ ν} (h : Sorted m) {k l : κ} (v : ν) (hne : k ≠ l) :
    erase k (insert l v m) = insert l v (erase k m) := by
  refine ((h.insert l v).erase k).ext ((h.erase k).insert l v) fun k' => ?_
  by_cases hk : k' = k
  · rw [hk, get?_erase_self (h.insert l v), get?_insert_of_ne (h.erase k) v hne, get?_erase_self h]
  · rw [get?_erase_of_ne (h.insert l v) hk]
    by_cases hl : k' = l
    · rw [hl, get?_insert_self h, get?_insert_self (h.erase k)]
    · rw [get?_insert_of_ne h v hl, get?_insert_of_ne (h.erase k) v hl, get?_erase_of_ne h hk]

/-! ## Changed values -/

theorem get?_map {μ : Type} (g : ν → μ) (k : κ) (m : Entries κ ν) :
    get? k (m.map fun p => (p.1, g p.2)) = (get? k m).map g := by
  induction m with
  | nil => rfl
  | cons p m ih =>
    simp only [List.map_cons, get?]
    split
    · rfl
    · split
      · exact ih
      · rfl

theorem erase_map {μ : Type} (g : ν → μ) (k : κ) (m : Entries κ ν) :
    erase k (m.map fun p => (p.1, g p.2)) = (erase k m).map fun p => (p.1, g p.2) := by
  induction m with
  | nil => rfl
  | cons p m ih =>
    simp only [List.map_cons, erase]
    split
    · rfl
    · split
      · rw [ih, List.map_cons]
      · rfl

/-! ## Lists of entries -/

theorem erase_cons_self (k : κ) (v : ν) (m : Entries κ ν) : erase k ((k, v) :: m) = m := by
  simp [erase, KeyOrder.irrefl]

theorem erase_cons_of_ne {k k' : κ} {v : ν} {m : Entries κ ν} (h : Sorted ((k', v) :: m))
    (hk : k ≠ k') : erase k ((k', v) :: m) = (k', v) :: erase k m := by
  cases hlt : KeyOrder.lt k' k with
  | true => simp [erase, hlt, KeyOrder.asymm hlt]
  | false =>
    have hk' : KeyOrder.lt k k' = true := KeyOrder.lt_of_not_lt hlt hk.symm
    obtain ⟨hq, hm⟩ := List.pairwise_cons.1 h
    have hnone : get? k m = none :=
      get?_eq_none_of_lt fun p hp => KeyOrder.trans hk' (hq p hp)
    rw [erase_eq_self hm hnone]
    simp [erase, hk']

theorem mem_insert_iff {m : Entries κ ν} (h : Sorted m) {k : κ} {v : ν} (hk : get? k m = none)
    {p : κ × ν} : p ∈ insert k v m ↔ p = (k, v) ∨ p ∈ m := by
  refine ⟨mem_insert, fun hp => ?_⟩
  rw [← get?_eq_some_iff (h.insert k v)]
  rcases hp with rfl | hp
  · exact get?_insert_self h k v
  · rw [get?_insert_of_ne h v ((get?_eq_none_iff h).1 hk p hp)]
    exact (get?_eq_some_iff h).2 hp

/-- A list with distinct keys has the same entries when it is put in order. -/
theorem mem_ofList_iff {m : List (κ × ν)} (h : (m.map Prod.fst).Nodup) {p : κ × ν} :
    p ∈ ofList m ↔ p ∈ m := by
  suffices gen : ∀ acc : Entries κ ν, Sorted acc → (∀ q ∈ m, get? q.1 acc = none) →
      (p ∈ m.foldl (fun acc q => insert q.1 q.2 acc) acc ↔ p ∈ acc ∨ p ∈ m) by
    rw [ofList, gen [] sorted_nil (fun _ _ => rfl)]
    simp
  induction m with
  | nil => simp
  | cons q m ih =>
    intro acc hacc hnone
    obtain ⟨hq, hm⟩ := List.nodup_cons.1 h
    have hnone' : ∀ r ∈ m, get? r.1 (insert q.1 q.2 acc) = none := by
      intro r hr
      have hne : r.1 ≠ q.1 := fun e => hq (e ▸ List.mem_map_of_mem hr)
      rw [get?_insert_of_ne hacc q.2 hne]
      exact hnone r (List.mem_cons_of_mem q hr)
    rw [List.foldl_cons, ih hm _ (hacc.insert q.1 q.2) hnone',
      mem_insert_iff hacc (hnone q List.mem_cons_self), List.mem_cons, or_comm (a := p = _),
      or_assoc]

/-- A sorted list is what its entries make in any order. -/
theorem ofList_eq_of_mem_iff {l : List (κ × ν)} (hl : (l.map Prod.fst).Nodup) {m : Entries κ ν}
    (hm : Sorted m) (h : ∀ p, p ∈ l ↔ p ∈ m) : ofList l = m := by
  refine Sorted.ext (sorted_ofList l) hm fun k => Option.ext fun v => ?_
  rw [get?_eq_some_iff (sorted_ofList l), get?_eq_some_iff hm, mem_ofList_iff hl, h]

end Entries

/-! ## Maps -/

/-- A finite map from keys to values. -/
structure SortedMap (κ ν : Type) [KeyOrder κ] where
  toList : Entries κ ν
  sorted : toList.Sorted

namespace SortedMap

variable (m : SortedMap κ ν)

def empty : SortedMap κ ν := ⟨[], Entries.sorted_nil⟩

instance : Inhabited (SortedMap κ ν) := ⟨empty⟩

def get? (k : κ) : Option ν := Entries.get? k m.toList

def insert (k : κ) (v : ν) : SortedMap κ ν := ⟨Entries.insert k v m.toList, m.sorted.insert k v⟩

def erase (k : κ) : SortedMap κ ν := ⟨Entries.erase k m.toList, m.sorted.erase k⟩

/-- Change the value under `k`, which is `start` where there is none yet. -/
def adjust (k : κ) (start : ν) (f : ν → ν) : SortedMap κ ν :=
  m.insert k (f ((m.get? k).getD start))

def keys : List κ := m.toList.map Prod.fst

@[simp] theorem get?_empty (k : κ) : (empty : SortedMap κ ν).get? k = none := rfl

@[simp] theorem get?_insert_self (k : κ) (v : ν) : (m.insert k v).get? k = some v :=
  Entries.get?_insert_self m.sorted k v

theorem get?_insert_of_ne {k k' : κ} (v : ν) (h : k' ≠ k) :
    (m.insert k v).get? k' = m.get? k' :=
  Entries.get?_insert_of_ne m.sorted v h

@[simp] theorem get?_erase_self (k : κ) : (m.erase k).get? k = none :=
  Entries.get?_erase_self m.sorted k

theorem get?_erase_of_ne {k k' : κ} (h : k' ≠ k) : (m.erase k).get? k' = m.get? k' :=
  Entries.get?_erase_of_ne m.sorted h

@[simp] theorem get?_adjust_self (k : κ) (start : ν) (f : ν → ν) :
    (m.adjust k start f).get? k = some (f ((m.get? k).getD start)) :=
  m.get?_insert_self k _

theorem get?_adjust_of_ne {k k' : κ} (start : ν) (f : ν → ν) (h : k' ≠ k) :
    (m.adjust k start f).get? k' = m.get? k' :=
  m.get?_insert_of_ne _ h

theorem get?_eq_some_iff {k : κ} {v : ν} : m.get? k = some v ↔ (k, v) ∈ m.toList :=
  Entries.get?_eq_some_iff m.sorted

theorem keys_ascending : m.keys.Pairwise fun k l => KeyOrder.lt k l = true :=
  Entries.sorted_iff_pairwise_keys.1 m.sorted

theorem mem_keys_iff {k : κ} : k ∈ m.keys ↔ ∃ v, m.get? k = some v := by
  simp only [keys, List.mem_map, get?_eq_some_iff]
  constructor
  · rintro ⟨p, hp, rfl⟩
    exact ⟨p.2, hp⟩
  · rintro ⟨v, hv⟩
    exact ⟨(k, v), hv, rfl⟩

/-- A changed value is a row of its own where there was none. -/
theorem mem_keys_adjust_iff {k l : κ} {start : ν} {f : ν → ν} :
    l ∈ (m.adjust k start f).keys ↔ l = k ∨ l ∈ m.keys := by
  by_cases h : l = k
  · subst h
    simp [mem_keys_iff]
  · rw [mem_keys_iff, get?_adjust_of_ne m start f h, ← mem_keys_iff, or_iff_right h]

theorem mem_keys_of_mem_keys_adjust {k l : κ} {start : ν} {f : ν → ν}
    (h : l ∈ (m.adjust k start f).keys) : l = k ∨ l ∈ m.keys :=
  m.mem_keys_adjust_iff.1 h

/-- What holds of all entries, and of a changed value, holds of all entries after the change. -/
theorem forall_mem_adjust {P : κ → ν → Prop} (h : ∀ p ∈ m.toList, P p.1 p.2) {k : κ} {start : ν}
    {f : ν → ν} (hstart : P k start) (hstep : ∀ v, P k v → P k (f v)) :
    ∀ p ∈ (m.adjust k start f).toList, P p.1 p.2 := by
  intro p hp
  have hget := (get?_eq_some_iff _).2 hp
  by_cases hk : p.1 = k
  · rw [hk, get?_adjust_self, Option.some.injEq] at hget
    rw [hk, ← hget]
    refine hstep _ ?_
    cases hold : m.get? k with
    | none => exact hstart
    | some v => exact h _ (m.get?_eq_some_iff.1 hold)
  · rw [get?_adjust_of_ne m start f hk] at hget
    exact h _ (m.get?_eq_some_iff.1 hget)

theorem ext_get? {m m' : SortedMap κ ν} (h : ∀ k, m.get? k = m'.get? k) : m = m' := by
  cases m
  cases m'
  congr 1
  exact Entries.Sorted.ext ‹_› ‹_› h

theorem ext_toList {m m' : SortedMap κ ν} (h : m.toList = m'.toList) : m = m' := by
  cases m
  cases m'
  congr

/-- Two changes may be made in either order, if they may be where they meet. -/
theorem adjust_adjust_comm (k l : κ) (start : ν) {f g : ν → ν} (h : ∀ v, f (g v) = g (f v)) :
    (m.adjust k start f).adjust l start g = (m.adjust l start g).adjust k start f := by
  refine ext_get? fun j => ?_
  by_cases hk : j = k
  · subst hk
    by_cases hl : j = l
    · subst hl
      simp [h]
    · simp [get?_adjust_of_ne _ _ _ hl]
  · rw [get?_adjust_of_ne _ _ _ hk]
    by_cases hl : j = l
    · subst hl
      simp [get?_adjust_of_ne _ _ _ hk]
    · rw [get?_adjust_of_ne _ _ _ hl, get?_adjust_of_ne _ _ _ hl, get?_adjust_of_ne _ _ _ hk]

end SortedMap

end MessageHooks
