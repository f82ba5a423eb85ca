import MessageHooks.Proofs.Schema.FirstFault
import Mathlib.Logic.Relation

/-!
# What is read later does not matter

Two values that differ at one spot have the same faults at all spots before it. So a value keeps its
first fault, whatever else is put for members and elements that are read after it.

* `Json.Differ`: two values that differ at one spot; members stay given.
* `Rule.Local`: a rule that looks at nothing that is read later; `local_faultAt`: so it is with the
  faults under any format.
* `Later`: one value is changed at a spot after some other; `First.of_later`: the first fault stays.
-/

namespace MessageHooks

open Schema

/-! ## Values that differ at one spot -/

namespace Json

/-- Two values that differ at one spot only, where either has any value; but a member is null in
neither, as it would count as left out. -/
inductive Differ : Spot → Json → Json → Prop
  | here {v w : Json} : Differ .value v w
  | element {before after : List Json} {v w : Json} {spot : Spot} (h : Differ spot v w) :
    Differ (.inside (.element before.length) spot) (.arr (before ++ v :: after))
      (.arr (before ++ w :: after))
  | member {before after : Object} {k : String} {v w : Json} {spot : Spot} (hv : v ≠ .null)
    (hw : w ≠ .null) (h : Differ spot v w) :
    Differ (.inside (.member k) spot) (.obj (before ++ (k, v) :: after))
      (.obj (before ++ (k, w) :: after))

theorem Differ.exists_arr {s : Step} {spot : Spot} {vs : List Json} {w : Json}
    (h : Differ (.inside s spot) (.arr vs) w) : ∃ ws, w = .arr ws ∧ ws.length = vs.length := by
  cases h
  exact ⟨_, rfl, by simp⟩

theorem Differ.symm {spot : Spot} {v w : Json} (h : Differ spot v w) : Differ spot w v := by
  induction h with
  | here => exact .here
  | element _ ih => exact .element ih
  | member hv hw _ ih => exact .member hw hv ih

/-! ### What stands beside -/

theorem wellFormed_element {before after : List Json} {v : Json}
    (h : (Json.arr (before ++ v :: after)).WellFormed) : v.WellFormed :=
  wellFormed_arr.1 h v (by simp)

theorem getElem?_element (before after : List Json) (v : Json) :
    (before ++ v :: after)[before.length]? = some v := by simp

theorem getElem?_beside {before after : List Json} {i : Nat} {u v : Json} (w : Json)
    (hu : (before ++ v :: after)[i]? = some u) :
    (i = before.length ∧ u = v) ∨
      (i ≠ before.length ∧ (before ++ w :: after)[i]? = some u) := by
  rcases Nat.lt_trichotomy i before.length with hlt | rfl | hlt
  · rw [List.getElem?_append_left hlt] at hu ⊢
    exact .inr ⟨Nat.ne_of_lt hlt, hu⟩
  · rw [getElem?_element] at hu
    exact .inl ⟨rfl, (Option.some.inj hu).symm⟩
  · refine .inr ⟨Nat.ne_of_gt hlt, ?_⟩
    rw [List.getElem?_append_right (Nat.le_of_lt hlt),
      List.getElem?_cons, if_neg (by omega)] at hu ⊢
    exact hu

theorem wellFormed_member {before after : Object} {k : String} {v : Json}
    (h : (Json.obj (before ++ (k, v) :: after)).WellFormed) : v.WellFormed :=
  (wellFormed_obj.1 h).2 (k, v) (by simp)

theorem given_member (before after : Object) (k : String) {v : Json} (hv : v ≠ .null) :
    given (before ++ (k, v) :: after) = given before ++ (k, v) :: given after := by
  have hnull : v.isNull = false := by
    rw [← Bool.not_eq_true, isNull_iff]
    exact hv
  rw [given, List.filter_append, List.filter_cons_of_pos (by rw [hnull]; rfl)]
  rfl

theorem mem_given_member {before after : Object} {k : String} {v : Json} (hv : v ≠ .null) :
    (k, v) ∈ given (before ++ (k, v) :: after) := by
  rw [given_member before after k hv]
  simp

/-- A single member that is given is the one that differs, and is given alone in either. -/
theorem given_singleton {before after : Object} {k l : String} {u v w : Json} (hv : v ≠ .null)
    (hw : w ≠ .null) (hu : given (before ++ (k, v) :: after) = [(l, u)]) :
    k = l ∧ v = u ∧ given (before ++ (k, w) :: after) = [(k, w)] := by
  rw [given_member before after k hv, List.append_eq_singleton_iff] at hu
  rw [given_member before after k hw]
  rcases hu with ⟨hbefore, hafter⟩ | ⟨-, hnil⟩
  · obtain ⟨hhead, htail⟩ := List.cons.inj hafter
    obtain ⟨rfl, rfl⟩ := Prod.mk.inj hhead
    exact ⟨rfl, rfl, by rw [hbefore, htail]; rfl⟩
  · cases hnil

theorem mem_given_beside {before after : Object} {k l : String} {u v : Json}
    (h : (Json.obj (before ++ (k, v) :: after)).WellFormed) (w : Json)
    (hu : (l, u) ∈ given (before ++ (k, v) :: after)) :
    (l = k ∧ u = v) ∨ (l ≠ k ∧ (l, u) ∈ given (before ++ (k, w) :: after)) := by
  obtain ⟨hs, -⟩ := wellFormed_obj.1 h
  obtain ⟨hmem, hnull⟩ := mem_given.1 hu
  by_cases hl : l = k
  · subst hl
    have hv : (l, v) ∈ before ++ (l, v) :: after := by simp
    have heq := ((Entries.get?_eq_some_iff hs).2 hmem).symm.trans
      ((Entries.get?_eq_some_iff hs).2 hv)
    exact .inl ⟨rfl, Option.some.inj heq⟩
  · refine .inr ⟨hl, mem_given.2 ⟨?_, hnull⟩⟩
    simp only [List.mem_append, List.mem_cons, Prod.mk.injEq, hl, false_and, false_or] at hmem ⊢
    exact hmem

end Json

namespace Schema

/-! ## Rules that do not look ahead -/

/-- What is wrong at a spot does not depend on what is read after it. -/
structure Rule.Local (R : Rule) : Prop where
  keep : ∀ {q a : Spot} {v w : Json} {fault : Fault}, v.WellFormed → w.WellFormed →
    Json.Differ q v w → a.Before q → R v a fault → R w a fault

theorem local_text : Rule.Local TextFault := by
  refine ⟨fun {q a v w fault} hv hw hd ha h => ?_⟩
  cases h with | kind h =>
  cases ha
  cases hd <;> exact .kind nofun

theorem local_flag : Rule.Local FlagFault := by
  refine ⟨fun {q a v w fault} hv hw hd ha h => ?_⟩
  cases h with | kind h =>
  cases ha
  cases hd <;> exact .kind nofun

theorem local_bytes : Rule.Local BytesFault := by
  refine ⟨fun {q a v w fault} hv hw hd ha h => ?_⟩
  cases h with
  | kind h =>
    cases ha
    cases hd <;> exact .kind nofun
  | base64 =>
    cases ha
    cases hd

theorem local_int64 : Rule.Local Int64Fault := by
  refine ⟨fun {q a v w fault} hv hw hd ha h => ?_⟩
  cases h with
  | kind h =>
    cases ha
    cases hd <;> exact .kind not_false
  | value h =>
    cases ha
    cases hd <;> exact h.elim

theorem local_list {R : Rule} (hR : R.Local) : Rule.Local (ListFault R) := by
  refine ⟨fun {q a v w fault} hv hw hd ha h => ?_⟩
  cases h with
  | kind h =>
    cases ha
    cases hd with
    | element => exact absurd rfl (h _)
    | member => exact .kind nofun
  | element hu hp =>
    cases ha with
    | step hstep =>
      cases hd with
      | element =>
        rcases Json.getElem?_beside _ hu with ⟨rfl, -⟩ | ⟨-, hu⟩
        · exact absurd hstep (Step.before_irrefl _)
        · exact .element hu hp
    | inside ha =>
      cases hd with
      | element hd =>
        rcases Json.getElem?_beside .null hu with ⟨-, rfl⟩ | ⟨hne, -⟩
        · exact .element (Json.getElem?_element ..)
            (hR.keep (Json.wellFormed_element hv) (Json.wellFormed_element hw) hd ha hp)
        · exact absurd rfl hne

theorem local_optional {R : Rule} (hR : R.Local) (hentry : ∀ v fault, ¬R v .entry fault) :
    Rule.Local (OptionalFault R) := by
  refine ⟨fun {q a v w fault} hv hw hd ha h => ?_⟩
  cases h with
  | given hne hp =>
    refine .given ?_ (hR.keep hv hw hd ha hp)
    cases hd with
    | here =>
      cases ha
      exact absurd hp (hentry _ _)
    | element | member => nofun

theorem local_record {ρ : Type} {name : String} {fs : Fields ρ} {field : fs.Place → Rule}
    (hfield : ∀ p, (field p).Local) : Rule.Local (RecordFault name fs field) := by
  refine ⟨fun {q a v w fault} hv hw hd ha h => ?_⟩
  -- for each fault, the change is in a part that is read later, or later in the same part
  cases h with
  | kind hobj harr =>
    cases ha
    cases hd with
    | element => exact absurd rfl (harr _)
    | member => exact absurd rfl (hobj _)
  | undeclared hu hk =>
    cases ha with
    | step hstep =>
      cases hd with
      | member =>
        rcases Json.mem_given_beside hv _ hu with ⟨rfl, -⟩ | ⟨-, hu⟩
        · exact absurd hstep (Step.before_irrefl _)
        · exact .undeclared hu hk
    | inside ha =>
      cases hd with
      | member _ hne => exact .undeclared (Json.mem_given_member hne) hk
  | @member _ p _ _ _ _ hk hu hp =>
    cases ha with
    | step hstep =>
      cases hd with
      | member =>
        rcases Json.mem_given_beside hv _ hu with ⟨rfl, -⟩ | ⟨-, hu⟩
        · exact absurd hstep (Step.before_irrefl _)
        · exact .member hk hu hp
    | inside ha =>
      cases hd with
      | member _ hne hd =>
        rcases Json.mem_given_beside hv .null hu with ⟨-, rfl⟩ | ⟨hne, -⟩
        · exact .member hk (Json.mem_given_member hne)
            ((hfield p).keep (Json.wellFormed_member hv) (Json.wellFormed_member hw) hd ha hp)
        · exact absurd rfl hne
  | @element _ p _ _ _ _ hi hu hp =>
    cases ha with
    | step hstep =>
      cases hd with
      | element =>
        rcases Json.getElem?_beside _ hu with ⟨rfl, -⟩ | ⟨-, hu⟩
        · exact absurd hstep (Step.before_irrefl _)
        · exact .element hi hu hp
    | inside ha =>
      cases hd with
      | element hd =>
        rcases Json.getElem?_beside .null hu with ⟨-, rfl⟩ | ⟨hne, -⟩
        · exact .element hi (Json.getElem?_element ..)
            ((hfield p).keep (Json.wellFormed_element hv) (Json.wellFormed_element hw) hd ha hp)
        · exact absurd rfl hne
  | @surplus vs hlt =>
    have harr : ∃ ws, w = .arr ws ∧ ws.length = vs.length := by
      cases ha with | step | inside => exact hd.exists_arr
    obtain ⟨ws, rfl, hlength⟩ := harr
    rw [← hlength] at hlt ⊢
    exact .surplus hlt

theorem local_oneOf {ι : Type} {tags : Tags ι} {payload : ι → Rule}
    (hpayload : ∀ i, (payload i).Local) : Rule.Local (OneOfFault tags payload) := by
  refine ⟨fun {q a v w fault} hv hw hd ha h => ?_⟩
  cases h with
  | kind hobj =>
    cases ha
    cases hd with
    | element => exact .kind nofun nofun
    | member => exact absurd rfl (hobj _)
  | count hcount =>
    -- a changed member is given as before, so that as many are given
    cases ha
    cases hd with
    | member hv' hw' =>
      rw [Json.given_member _ _ _ hv', List.length_append, List.length_cons] at hcount
      refine .count ?_
      rw [Json.given_member _ _ _ hw', List.length_append, List.length_cons]
      exact hcount
  | unknown hu hk =>
    cases hd with
    | here => cases ha
    | member hv' hw' =>
      obtain ⟨rfl, rfl, hgiven⟩ := Json.given_singleton hv' hw' hu
      exact .unknown hgiven hk
  | @payload _ i _ _ _ hu hp =>
    cases hd with
    | here => cases ha
    | member hv' hw' hd =>
      obtain ⟨rfl, rfl, hgiven⟩ := Json.given_singleton hv' hw' hu
      cases ha with
      | step hstep => exact absurd hstep (Step.before_irrefl _)
      | inside ha =>
        exact .payload hgiven
          ((hpayload i).keep (Json.wellFormed_member hv) (Json.wellFormed_member hw) hd ha hp)
  | bare =>
    cases ha
    cases hd
  | unknownBare =>
    cases ha
    cases hd

/-! ## Faults of a format -/

/-- Nothing is wrong at an entry to the value itself. -/
theorem not_faultAt_entry : {α : Type} → (f : Format α) → (v : Json) → (fault : Fault) →
    ¬FaultAt f v .entry fault
  | _, .optional inner, v, fault => fun h => by
    cases h with | given _ hp => exact not_faultAt_entry inner v fault hp
  | _, .text, _, _ | _, .flag, _, _ | _, .bytes, _, _ | _, .int64, _, _ | _, .list _, _, _
  | _, .record _ _ _, _, _ | _, .oneOf _ _ _, _, _ => nofun

mutual

/-- What is wrong at a spot does not depend on what is read after it. -/
theorem local_faultAt : {α : Type} → (f : Format α) → Rule.Local (FaultAt f)
  | _, .text => local_text
  | _, .flag => local_flag
  | _, .bytes => local_bytes
  | _, .int64 => local_int64
  | _, .list item => local_list (local_faultAt item)
  | _, .optional inner => local_optional (local_faultAt inner) (not_faultAt_entry inner)
  | _, .record _ fields _ => local_record fun p => local_faultIn fields p
  | _, .oneOf _ payload _ => local_oneOf fun i => local_faultAt (payload i)

theorem local_faultIn : {ρ : Type} → (fs : Fields ρ) → (p : fs.Place) → Rule.Local (FaultIn fs p)
  | _, .nil, p => Empty.elim p
  | _, .cons _ format _ rest, p =>
    match (p : Option rest.Place) with
    | none => local_faultAt format
    | some p => local_faultIn rest p

end

/-! ## The first fault stays -/

/-- A value is changed to another at a spot that is read after the given one. -/
def Later (spot : Spot) (v w : Json) : Prop :=
  w.WellFormed ∧ ∃ q, spot.Before q ∧ Json.Differ q v w

theorem First.of_differ {R : Rule} (hR : R.Local) {spot q : Spot} {fault : Fault} {v w : Json}
    (h : First (R v) spot fault) (hv : v.WellFormed) (hw : w.WellFormed) (hd : Json.Differ q v w)
    (hq : spot.Before q) : First (R w) spot fault where
  holds := hR.keep hv hw hd hq h.holds
  least b x hx := by
    rcases spot.trichotomy b with hlt | hle
    · exact .inr hlt
    · -- Up to this spot the other value has no other faults.
      have hbq : b.Before q := by
        rcases hle with rfl | hlt
        · exact hq
        · exact hlt.trans hq
      exact h.least b x (hR.keep hw hv hd.symm hbq hx)

/-- **The first fault stays** when values are put in places that are read after it. -/
theorem First.of_later {R : Rule} (hR : R.Local) {spot : Spot} {fault : Fault} {v w : Json}
    (h : First (R v) spot fault) (hv : v.WellFormed) (hw : Relation.ReflTransGen (Later spot) v w) :
    First (R w) spot fault := by
  suffices hboth : w.WellFormed ∧ First (R w) spot fault from hboth.2
  induction hw with
  | refl => exact ⟨hv, h⟩
  | tail _ hstep ih =>
    obtain ⟨hwf, q, hq, hd⟩ := hstep
    exact ⟨hwf, ih.2.of_differ hR ih.1 hwf hd hq⟩

end Schema

end MessageHooks
