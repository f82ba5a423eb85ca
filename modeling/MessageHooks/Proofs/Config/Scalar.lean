import Mathlib.Tactic.ByContra
import MessageHooks.Config.Reader
import MessageHooks.Proofs.Yaml

/-!
# Scalars of a configuration

Which scalars say a number, a truth value or a mode. A number has no sign, so none is written with a
minus, and one that does not fit in 32 bits is none.

* `SaysNumber`, `SaysFlag`, `SaysMode`: what a scalar says, by its text and style.
* `NumberFlaw`: why a node says no number.
* `readNumber_eq_ok_iff`, `readFlag_eq_ok_iff`, `readMode_eq_ok_iff`: what is said is read, and
  nothing else.
-/

namespace MessageHooks

theorem AfterMode.ofText?_eq_some_iff {s : String} {mode : AfterMode} :
    ofText? s = some mode ↔ s = mode.text := by
  constructor
  · intro h
    obtain ⟨htext, -⟩ := List.find?_eq_some_iff_append.1 h
    exact (beq_iff_eq.1 htext).symm
  · rintro rfl
    cases mode <;> rfl

namespace Config

open Yaml

/-! ## What scalars say -/

/-- A plain scalar that is an integer. -/
def SaysInteger (n : Node) (v : Int) : Prop :=
  ∃ mark text, n = .scalar mark none .plain text ∧ Plain.value text = .int v

/-- A scalar whose text begins with a minus sign. -/
def HasMinus (n : Node) : Prop :=
  ∃ mark tag style text, n = .scalar mark tag style text ∧ text.toList.head? = some '-'

/-- A number of 32 bits. As it has no sign, it is written without a minus, even if it is zero. -/
def SaysNumber (n : Node) (v : UInt32) : Prop := SaysInteger n v.toNat ∧ ¬HasMinus n

/-- A plain scalar that is a truth value. -/
def SaysFlag (n : Node) (b : Bool) : Prop :=
  ∃ mark text, n = .scalar mark none .plain text ∧ Plain.value text = .bool b

/-- A scalar, in any style, that names the mode. -/
def SaysMode (n : Node) (mode : AfterMode) : Prop :=
  ∃ mark style, n = .scalar mark none style mode.text

variable {n : Node} {mark : Option Nat} {style : Style} {text : String}

theorem SaysInteger.unique {v v' : Int} (h : SaysInteger n v) (h' : SaysInteger n v') :
    v = v' := by
  obtain ⟨mark, text, rfl, hvalue⟩ := h
  obtain ⟨_, _, heq, hvalue'⟩ := h'
  cases heq
  rw [hvalue] at hvalue'
  cases hvalue'
  rfl

theorem saysNumber_scalar_iff {v : UInt32} : SaysNumber (.scalar mark none style text) v ↔
    style = .plain ∧ Plain.unsigned? text = some v.toNat := by
  have hv : v.toNat < 2 ^ 128 := by
    have := v.toNat_lt
    omega
  rw [Plain.unsigned?_eq_some_iff hv]
  constructor
  · rintro ⟨⟨_, _, heq, hvalue⟩, hminus⟩
    cases heq
    exact ⟨rfl, hvalue, fun h => hminus ⟨mark, none, .plain, text, rfl, h⟩⟩
  · rintro ⟨rfl, hvalue, hminus⟩
    refine ⟨⟨mark, text, rfl, hvalue⟩, ?_⟩
    rintro ⟨_, _, _, _, heq, h⟩
    cases heq
    exact hminus h

theorem saysFlag_scalar_iff {b : Bool} : SaysFlag (.scalar mark none style text) b ↔
    style = .plain ∧ Plain.bool? text = some b := by
  rw [← Plain.value_eq_bool_iff]
  constructor
  · rintro ⟨_, _, heq, hvalue⟩
    cases heq
    exact ⟨rfl, hvalue⟩
  · rintro ⟨rfl, hvalue⟩
    exact ⟨mark, text, rfl, hvalue⟩

theorem saysMode_scalar_iff {mode : AfterMode} :
    SaysMode (.scalar mark none style text) mode ↔ text = mode.text := by
  constructor
  · rintro ⟨_, _, heq⟩
    cases heq
    rfl
  · rintro rfl
    exact ⟨mark, style, rfl⟩

/-- What is wrong with a number of 32 bits: it is none at all, out of range, or has a minus. -/
inductive NumberFlaw (n : Node) : Prop
  | type (h : ∀ v, ¬SaysInteger n v)
  | range {v : Int} (h : SaysInteger n v) (hv : v < 0 ∨ 2 ^ 32 ≤ v)
  | minus (h : HasMinus n)

theorem numberFlaw_iff : NumberFlaw n ↔ ∀ v, ¬SaysNumber n v := by
  constructor
  · rintro h v ⟨hv, hminus⟩
    cases h with
    | type h => exact h _ hv
    | range h hrange =>
      have hlt := v.toNat_lt
      have heq := h.unique hv
      omega
    | minus h => exact hminus h
  · intro h
    by_contra hflaw
    by_cases hsay : ∃ v, SaysInteger n v
    · obtain ⟨v, hv⟩ := hsay
      by_cases hrange : v < 0 ∨ 2 ^ 32 ≤ v
      · exact hflaw (.range hv hrange)
      · have hlt : v.toNat < 2 ^ 32 := by omega
        have htoNat : ((UInt32.ofNat v.toNat).toNat : Int) = v := by
          rw [UInt32.toNat_ofNat_of_lt' hlt]
          omega
        exact h (.ofNat v.toNat) ⟨htoNat.symm ▸ hv, fun hminus => hflaw (.minus hminus)⟩
    · exact hflaw (.type (not_exists.1 hsay))

/-! ## Reading -/

theorem speaks_none (kind : String) (style : Style) :
    speaks kind none style = decide (style = .plain) := by
  simp [speaks]

theorem readFlag_eq_ok_iff {path : List String} (h : n.Bare) {b : Bool} :
    readFlag path n = .ok b ↔ SaysFlag n b := by
  cases h with
  | @scalar mark style text =>
    rw [saysFlag_scalar_iff]
    simp only [readFlag, speaks_none]
    by_cases hplain : style = .plain
    · cases Plain.bool? text <;> simp [hplain]
    · simp [hplain]
  | _ => exact ⟨nofun, fun ⟨_, _, heq, _⟩ => nomatch heq⟩

theorem ofNat_eq_iff {k : Nat} (hk : k < 2 ^ 32) {v : UInt32} :
    UInt32.ofNat k = v ↔ k = v.toNat := by
  constructor
  · rintro rfl
    exact (UInt32.toNat_ofNat_of_lt' hk).symm
  · rintro rfl
    exact UInt32.ofNat_toNat

theorem readNumber_eq_ok_iff {path : List String} (h : n.Bare) {v : UInt32} :
    readNumber path n = .ok v ↔ SaysNumber n v := by
  cases h with
  | @scalar mark style text =>
    rw [saysNumber_scalar_iff]
    simp only [readNumber, speaks_none]
    by_cases hplain : style = .plain
    · cases Plain.unsigned? text with
      | none => simp [hplain]
      | some k =>
        have hv := v.toNat_lt
        simp only [hplain, decide_true, if_true, Option.filter_some, decide_eq_true_eq, true_and,
          Option.some.injEq]
        -- What is longer than 64 bits is no number to begin with, and what is longer than 32 bits
        -- is one out of range.
        by_cases hlong : k < 2 ^ 64
        · rw [if_pos hlong]
          dsimp only
          by_cases hk : k < 2 ^ 32
          · rw [if_pos hk, Except.ok.injEq, ofNat_eq_iff hk]
          · rw [if_neg hk]
            exact ⟨nofun, fun h => absurd (h ▸ hv) hk⟩
        · rw [if_neg hlong]
          exact ⟨nofun, fun h => by omega⟩
    · simp [hplain]
  | _ => exact ⟨nofun, fun ⟨⟨_, _, heq, _⟩, _⟩ => nomatch heq⟩

theorem variantName?_of_bare (h : n.Bare) : variantName? n = none := by
  cases h <;> rfl

theorem readMode_eq_ok_iff {p : Place} (h : n.Bare) {mode : AfterMode} :
    readMode p n = .ok mode ↔ SaysMode n mode := by
  unfold readMode
  rw [variantName?_of_bare h]
  cases h with
  | @scalar mark style text =>
    rw [saysMode_scalar_iff, ← AfterMode.ofText?_eq_some_iff]
    simp only [modeOf]
    cases AfterMode.ofText? text <;> simp
  | _ => exact ⟨nofun, fun ⟨_, _, heq⟩ => nomatch heq⟩

end Config

end MessageHooks
