import MessageHooks.Proofs.ByteOrder
import MessageHooks.Schema.Fault

/-!
# Spots of a value, in reading order

A value is read depth first, the members of an object in the byte order of their keys and the
elements of an array by index. What can be wrong with it has a spot in this order; a reading is
right if it succeeds where nothing is wrong, and else has what is wrong at the first spot.

* `Spot`: a place in a value; `Spot.Before`: the order in which places are read.
* `First`: what is wrong at the first spot.
* `Verdict`: a reading is right. Readings in sequence are right if each of them is
  (`Verdict.bind`), and so is the reading of what stands inside a value (`Verdict.inside`).
-/

namespace MessageHooks.Schema

/-! ## Spots -/

/-- The way from a value to one that it contains. -/
inductive Step where
  | member (key : String)
  | element (index : Nat)

/-- A spot of a value: the value itself, a spot of one that it contains, or the entry to such a one,
which is met before it: the key of a member, or the place of an element. -/
inductive Spot where
  | entry
  | value
  | inside (step : Step) (spot : Spot)

/-- The order of what a value contains. No value has both members and elements. -/
def Step.Before : Step → Step → Prop
  | .member k, .member l => bytesOf k < bytesOf l
  | .element i, .element j => i < j
  | .member _, .element _ => True
  | .element _, .member _ => False

/-- The order of reading: an entry before its value, a value before what it contains, and all of
what one step leads to before the next. -/
inductive Spot.Before : Spot → Spot → Prop
  | entry_value : Before .entry .value
  | entry_inside {s : Step} {p : Spot} : Before .entry (.inside s p)
  | value_inside {s : Step} {p : Spot} : Before .value (.inside s p)
  | step {s t : Step} {p q : Spot} (h : s.Before t) : Before (.inside s p) (.inside t q)
  | inside {s : Step} {p q : Spot} (h : Before p q) : Before (.inside s p) (.inside s q)

namespace Step

theorem before_irrefl (s : Step) : ¬s.Before s := by
  cases s with
  | member k => exact List.lt_irrefl _
  | element i => exact Nat.lt_irrefl i

theorem Before.trans {r s t : Step} (h : r.Before s) (h' : s.Before t) : r.Before t := by
  cases r <;> cases s <;> cases t <;> simp only [Step.Before] at h h' ⊢
  · exact List.lt_trans h h'
  · exact Nat.lt_trans h h'

theorem trichotomy (s t : Step) : s.Before t ∨ s = t ∨ t.Before s := by
  cases s with
  | member k =>
    cases t with
    | member l =>
      simp only [Step.Before, ← lt_iff_bytesOf_lt]
      cases hlt : KeyOrder.lt k l with
      | true => exact .inl rfl
      | false =>
        cases hgt : KeyOrder.lt l k with
        | true => exact .inr (.inr rfl)
        | false => exact .inr (.inl (congrArg member (KeyOrder.connected hlt hgt)))
    | element => exact .inl trivial
  | element i =>
    cases t with
    | member => exact .inr (.inr trivial)
    | element j =>
      rcases Nat.lt_trichotomy i j with h | rfl | h
      · exact .inl h
      · exact .inr (.inl rfl)
      · exact .inr (.inr h)

end Step

namespace Spot

theorem Before.trans {a b c : Spot} (h : a.Before b) (h' : b.Before c) : a.Before c := by
  induction h generalizing c with
  | entry_value =>
    cases h'
    exact .entry_inside
  | entry_inside => cases h' <;> exact .entry_inside
  | value_inside => cases h' <;> exact .value_inside
  | step hstep =>
    cases h' with
    | step hstep' => exact .step (hstep.trans hstep')
    | inside => exact .step hstep
  | inside _ ih =>
    cases h' with
    | step hstep => exact .step hstep
    | inside h' => exact .inside (ih h')

theorem before_irrefl (a : Spot) : ¬a.Before a := by
  induction a with
  | entry => nofun
  | value => nofun
  | inside s p ih =>
    intro h
    cases h with
    | step h => exact s.before_irrefl h
    | inside h => exact ih h

theorem trichotomy (a b : Spot) : a.Before b ∨ a = b ∨ b.Before a := by
  induction a generalizing b with
  | entry =>
    cases b with
    | entry => exact .inr (.inl rfl)
    | value => exact .inl .entry_value
    | inside => exact .inl .entry_inside
  | value =>
    cases b with
    | entry => exact .inr (.inr .entry_value)
    | value => exact .inr (.inl rfl)
    | inside => exact .inl .value_inside
  | inside s p ih =>
    cases b with
    | entry => exact .inr (.inr .entry_inside)
    | value => exact .inr (.inr .value_inside)
    | inside t q =>
      rcases s.trichotomy t with h | rfl | h
      · exact .inl (.step h)
      · rcases ih q with h | rfl | h
        · exact .inl (.inside h)
        · exact .inr (.inl rfl)
        · exact .inr (.inr (.inside h))
      · exact .inr (.inr (.step h))

end Spot

/-! ## The first fault -/

/-- What is wrong with a value, and where. -/
abbrev Faults : Type := Spot → Fault → Prop

/-- All else that is wrong is met later. -/
structure First (F : Faults) (spot : Spot) (fault : Fault) : Prop where
  holds : F spot fault
  least : ∀ spot' fault', F spot' fault' → spot' = spot ∧ fault' = fault ∨ spot.Before spot'

theorem First.unique {F : Faults} {a b : Spot} {x y : Fault} (h : First F a x)
    (h' : First F b y) : b = a ∧ y = x := by
  rcases h.least b y h'.holds with heq | hlt
  · exact heq
  · rcases h'.least a x h.holds with ⟨rfl, rfl⟩ | hgt
    · exact ⟨rfl, rfl⟩
    · exact absurd (hlt.trans hgt) a.before_irrefl

/-- What comes after anything that is wrong comes after what is wrong first. -/
theorem First.before_of {F : Faults} {a b q : Spot} {x y : Fault} (h : First F a x) (hb : F b y)
    (hq : b.Before q) : a.Before q := by
  rcases h.least b y hb with ⟨rfl, -⟩ | hlt
  · exact hq
  · exact hlt.trans hq

/-- The faults of a value that a step leads to. -/
def Inside (s : Step) (F : Faults) : Faults := fun spot fault => ∃ p, spot = .inside s p ∧ F p fault

/-! ## Verdicts -/

/-- The result of a reading is right about what is wrong: it is a value if there is nothing, and
else the first fault. -/
inductive Verdict {α : Type} (F : Faults) : Except Fault α → Prop
  | sound {a : α} (h : ∀ spot fault, ¬F spot fault) : Verdict F (.ok a)
  | faulty {spot : Spot} {fault : Fault} (h : First F spot fault) : Verdict F (.error fault)

namespace Verdict

variable {α β : Type} {F G : Faults} {r : Except Fault α}

theorem eq_error_iff (h : Verdict F r) {fault : Fault} :
    r = .error fault ↔ ∃ spot, First F spot fault := by
  cases h with
  | sound h => exact iff_of_false nofun fun ⟨_, hfirst⟩ => h _ _ hfirst.holds
  | @faulty spot fault' h =>
    rw [Except.error.injEq]
    constructor
    · rintro rfl
      exact ⟨spot, h⟩
    · rintro ⟨_, h'⟩
      exact (h'.unique h).2

theorem congr (hFG : ∀ spot fault, F spot fault ↔ G spot fault) (h : Verdict F r) :
    Verdict G r := by
  obtain rfl : F = G := funext fun spot => funext fun fault => propext (hFG spot fault)
  exact h

theorem map (g : α → β) (h : Verdict F r) : Verdict F (r.map g) := by
  cases h with
  | sound h => exact .sound h
  | faulty h => exact .faulty h

/-- A reading that stops at the value itself, with all that is wrong with it. -/
theorem stop {fault : Fault} (hF : F .value fault)
    (honly : ∀ spot x, F spot x → spot = .value ∧ x = fault) :
    Verdict F (.error fault : Except Fault α) :=
  .faulty ⟨hF, fun spot x h => .inl (honly spot x h)⟩

theorem inside (s : Step) (h : Verdict F r) : Verdict (Inside s F) r := by
  cases h with
  | sound h => exact .sound fun _ _ ⟨_, _, hp⟩ => h _ _ hp
  | faulty h =>
    refine .faulty ⟨⟨_, rfl, h.holds⟩, fun spot fault => ?_⟩
    rintro ⟨p, rfl, hp⟩
    rcases h.least p fault hp with ⟨rfl, rfl⟩ | hlt
    · exact .inl ⟨rfl, rfl⟩
    · exact .inr (.inside hlt)

/-- Two readings in sequence, of which the first is done with all that comes first. -/
theorem bind {f : α → Except Fault β} (h : Verdict F r) (h' : ∀ a, Verdict G (f a))
    (hFG : ∀ a x b y, F a x → G b y → a.Before b) :
    Verdict (fun spot fault => F spot fault ∨ G spot fault) (r.bind f) := by
  cases h with
  | @sound a h =>
    exact (h' a).congr fun spot fault => ⟨.inr, fun hF => hF.resolve_left (h spot fault)⟩
  | faulty h =>
    refine .faulty ⟨.inl h.holds, fun spot fault => ?_⟩
    rintro (hF | hG)
    · exact h.least spot fault hF
    · exact .inr (hFG _ _ _ _ h.holds hG)

end Verdict

end MessageHooks.Schema
