import MessageHooks.Yaml.Document
import MessageHooks.Yaml.Plain

/-!
# Nodes that say what they are

A document may leave things to be looked up or filled in: an alias stands for another node, a tag
overrides what a scalar is, and where no value is written there is an empty scalar. A document
without these says all by its kinds of nodes and by the texts of its scalars.

* `Node.Bare`: a tree without aliases and tags; `Node.Filled`: one that leaves no value out.
* `Plain.value_eq_int_iff`, `Plain.value_eq_bool_iff`: which plain texts are integers and truth
  values.
* `Plain.unsigned?_eq_some_iff`: unsigned integers are those without a minus sign.
-/

namespace MessageHooks.Yaml

/-! ## Trees -/

namespace Node

/-- No alias and no tag is in the tree. -/
inductive Bare : Node → Prop
  | cut : Bare .cut
  | scalar {mark : Option Nat} {style : Style} {text : String} : Bare (.scalar mark none style text)
  | sequence {mark : Option Nat} {items : List Node} (hitems : ∀ n ∈ items, Bare n) :
    Bare (.sequence mark none items)
  | mapping {mark : Option Nat} {entries : List (Node × Node)} (hkeys : ∀ e ∈ entries, Bare e.1)
    (hvalues : ∀ e ∈ entries, Bare e.2) : Bare (.mapping mark none entries)

/-- No value in the tree is left out. -/
inductive Filled : Node → Prop
  | cut : Filled .cut
  | alias (number : Nat) : Filled (.alias number)
  | scalar {mark : Option Nat} {tag : Option Tag} {style : Style} {text : String}
    (h : style = .plain → text ≠ "") : Filled (.scalar mark tag style text)
  | sequence {mark : Option Nat} {tag : Option Tag} {items : List Node}
    (hitems : ∀ n ∈ items, Filled n) : Filled (.sequence mark tag items)
  | mapping {mark : Option Nat} {tag : Option Tag} {entries : List (Node × Node)}
    (hvalues : ∀ e ∈ entries, Filled e.2) : Filled (.mapping mark tag entries)

theorem Filled.values {mark : Option Nat} {tag : Option Tag} {entries : List (Node × Node)}
    (h : (Node.mapping mark tag entries).Filled) : ∀ e ∈ entries, e.2.Filled := by
  cases h with
  | mapping hvalues => exact hvalues

theorem Filled.text_ne {mark : Option Nat} {tag : Option Tag} {text : String}
    (h : (Node.scalar mark tag .plain text).Filled) : text ≠ "" := by
  cases h with
  | scalar htext => exact htext rfl

end Node

/-- A node that is no alias stands for itself. -/
theorem Document.target_of_bare (d : Document) {n : Node} (h : n.Bare) : d.target n = n := by
  cases h <;> rfl

/-! ## Plain scalars -/

namespace Plain

theorem natural?_minus (cs : List Char) : natural? ('-' :: cs) = none := by
  have hminus : Digits.inBase? 10 '-' = none := by decide
  show Digits.read? 10 ('-' :: cs) = none
  rw [Digits.read?, List.mapM_cons, hminus]
  rfl

theorem unsigned?_minus {s : String} (h : s.toList.head? = some '-') : unsigned? s = none := by
  obtain ⟨cs, hcs⟩ := List.head?_eq_some_iff.1 h
  rw [unsigned?, hcs]
  exact natural?_minus cs

theorem negative?_of_no_minus {s : String} (h : s.toList.head? ≠ some '-') :
    negative? s = none := by
  unfold negative?
  split
  · rename_i cs hcs
    rw [hcs] at h
    exact absurd rfl h
  · rfl

/-- A text that means nothing is neither a truth value nor a number. -/
theorem no_value_of_null {s : String} (h : (s.isEmpty || isNull s) = true) :
    bool? s = none ∧ signed? s = none := by
  have hwords : ∀ s ∈ ["", "~", "null", "Null", "NULL"], bool? s = none ∧ signed? s = none := by
    decide
  exact hwords s (by simpa [isNull] using h)

theorem signed?_of_bool {s : String} {b : Bool} (h : bool? s = some b) : signed? s = none := by
  have htrue : ∀ s ∈ ["true", "True", "TRUE"], signed? s = none := by decide
  have hfalse : ∀ s ∈ ["false", "False", "FALSE"], signed? s = none := by decide
  unfold bool? at h
  split at h
  · exact htrue s (List.mem_of_elem_eq_true ‹_›)
  · split at h
    · exact hfalse s (List.mem_of_elem_eq_true ‹_›)
    · cases h

theorem value_eq_bool_iff {s : String} {b : Bool} : value s = .bool b ↔ bool? s = some b := by
  unfold value
  split
  · rename_i h
    rw [(no_value_of_null h).1]
    exact ⟨nofun, nofun⟩
  · cases bool? s with
    | some b' => simp
    | none =>
      refine ⟨fun h => ?_, nofun⟩
      dsimp only at h
      repeat' split at h
      all_goals cases h

theorem value_eq_int_iff {s : String} {n : Int} : value s = .int n ↔ signed? s = some n := by
  unfold value
  split
  · rename_i h
    rw [(no_value_of_null h).2]
    exact ⟨nofun, nofun⟩
  · cases hb : bool? s with
    | some b =>
      rw [signed?_of_bool hb]
      exact ⟨nofun, nofun⟩
    | none =>
      cases signed? s with
      | some k => simp
      | none =>
        refine ⟨fun h => ?_, nofun⟩
        dsimp only at h
        repeat' split at h
        all_goals cases h

/-- An unsigned integer is an integer that is written without a minus sign. -/
theorem unsigned?_eq_some_iff {s : String} {v : Nat} (hv : v < 2 ^ 128) :
    unsigned? s = some v ↔ value s = .int v ∧ s.toList.head? ≠ some '-' := by
  constructor
  · intro h
    refine ⟨?_, fun hminus => ?_⟩
    · rw [value_eq_int_iff, signed?, h]
      exact if_pos hv
    · rw [unsigned?_minus hminus] at h
      cases h
  · rintro ⟨hvalue, hminus⟩
    rw [value_eq_int_iff, signed?, negative?_of_no_minus hminus] at hvalue
    cases hu : unsigned? s with
    | none =>
      rw [hu] at hvalue
      cases hvalue
    | some k =>
      simp only [hu, Option.ite_none_right_eq_some, Option.some.injEq, Int.natCast_inj] at hvalue
      rw [hvalue.2]

end Plain

end MessageHooks.Yaml
