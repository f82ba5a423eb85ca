import MessageHooks.Proofs.Schema.Int64
import Mathlib.Algebra.Field.Rat
import Mathlib.Algebra.Order.Ring.Cast
import Mathlib.Algebra.Order.Ring.Rat
import Mathlib.Data.Int.Cast.Lemmas

/-!
# Integers and the values that stand for them

What a floating-point number is worth, told by its exponent and fraction bits, and which dynamic
values have an integer for their value: that integer, a floating-point number worth it, and a text
of its decimal digits with or without a sign. Every integer has a text of digits.

* `Binary64.value`: the exact value, a rational; `Binary64.equals_iff`: equality with an integer is
  equality of values.
* `HasInteger v n`: the dynamic value `v` has the integer `n` for its value.
* `NoInt64 v`: all other values than null, kind by kind.
* `decode_int64_eq_ok_iff`, `exists_decode_int64_error_iff`: a 64-bit integer is read from the
  values that have one in range, and nothing else is.
-/

namespace MessageHooks

/-! ## Exact values -/

namespace Binary64

def exponent (x : Binary64) : Nat := x.magnitude / 2 ^ 52

def fraction (x : Binary64) : Nat := x.magnitude % 2 ^ 52

/-- The absolute value: the fraction alone when the exponent bits are zero, and with a leading one
otherwise. -/
def absolute (x : Binary64) : ℚ :=
  if x.exponent = 0 then x.fraction * (2 : ℚ) ^ (-1074 : ℤ)
  else (2 ^ 52 + x.fraction) * (2 : ℚ) ^ ((x.exponent : ℤ) - 1075)

def value (x : Binary64) : ℚ := if x.negative then -x.absolute else x.absolute

theorem units_eq (x : Binary64) : x.units =
    if x.exponent = 0 then x.fraction else (2 ^ 52 + x.fraction) * 2 ^ (x.exponent - 1) := by
  unfold units unitsAt exponent fraction
  by_cases h : x.magnitude < 2 ^ 52
  · rw [if_pos h, if_pos (Nat.div_eq_of_lt h), Nat.mod_eq_of_lt h]
  · rw [if_neg h, if_neg]
    omega

/-- The absolute value counts the units, each `2 ^ -1074`. -/
theorem absolute_eq (x : Binary64) : x.absolute = x.units * (2 : ℚ) ^ (-1074 : ℤ) := by
  rw [units_eq, absolute]
  split
  · rfl
  · rename_i h
    have hexponent : (x.exponent : ℤ) - 1075 = ((x.exponent - 1 : ℕ) : ℤ) + -1074 := by omega
    rw [hexponent, zpow_add₀ two_ne_zero, zpow_natCast, ← mul_assoc, Nat.cast_mul, Nat.cast_add,
      Nat.cast_pow, Nat.cast_pow, Nat.cast_two]

theorem one_mul_unit : (one : ℚ) * (2 : ℚ) ^ (-1074 : ℤ) = 1 := by
  unfold one
  generalize hk : 1074 = k
  have hexponent : (-1074 : ℤ) = -(k : ℤ) := by omega
  rw [hexponent, Nat.cast_pow, Nat.cast_two, ← zpow_natCast, ← zpow_add₀ two_ne_zero,
    add_neg_cancel, zpow_zero]

theorem equals_iff {x : Binary64} {n : Int} : x.Equals n ↔ x.value = n := by
  let signed : Int := if x.negative then -(x.units : Int) else x.units
  have hvalue : x.value = signed * (2 : ℚ) ^ (-1074 : ℤ) := by
    unfold value signed
    rw [absolute_eq]
    split
    · rw [Int.cast_neg, neg_mul, Int.cast_natCast]
    · rw [Int.cast_natCast]
  have hunit : (2 : ℚ) ^ (-1074 : ℤ) ≠ 0 := zpow_ne_zero _ two_ne_zero
  have hcast : signed = n * (one : Int) ↔ (signed : ℚ) = n * (one : ℚ) := by
    rw [← Int.cast_natCast (R := ℚ) one, ← Int.cast_mul, Int.cast_inj]
  calc x.Equals n ↔ signed = n * (one : Int) := Iff.rfl
    _ ↔ (signed : ℚ) = n * (one : ℚ) := hcast
    _ ↔ signed * (2 : ℚ) ^ (-1074 : ℤ) = n * (one : ℚ) * (2 : ℚ) ^ (-1074 : ℤ) :=
      (mul_left_inj' hunit).symm
    _ ↔ x.value = n := by rw [hvalue, mul_assoc (n : ℚ), one_mul_unit, mul_one]

end Binary64

/-! ## Decimal digits -/

namespace Digits

theorem isDecimal_of_mem_toDigits {n : Nat} {c : Char} (h : c ∈ Nat.toDigits 10 n) :
    isDecimal c = true := by
  have hdigit := Nat.isDigit_of_mem_toDigits (by decide) (by decide) h
  simp only [Char.isDigit, Bool.and_eq_true, decide_eq_true_eq] at hdigit
  simp only [isDecimal, Bool.and_eq_true, decide_eq_true_eq, Char.le_def]
  exact hdigit

theorem ofDecimal_toDigits (n : Nat) : ofDecimal (Nat.toDigits 10 n) = n :=
  Nat.ofDigitChars_toDigits (by decide) (by decide)

end Digits

namespace Schema

theorem spellsDecimal_toString (n : Int) : SpellsDecimal (toString n) n := by
  rw [Int.toString_eq_repr, Int.repr_eq_if]
  split
  · rename_i hn
    refine ⟨Nat.toDigits 10 n.toNat, Nat.toDigits_ne_nil,
      fun _ => Digits.isDecimal_of_mem_toDigits, .inl ⟨?_, ?_⟩⟩
    · rw [Nat.repr_eq_ofList_toDigits, String.toList_ofList]
    · rw [Digits.ofDecimal_toDigits, Int.toNat_of_nonneg hn]
  · rename_i hn
    refine ⟨Nat.toDigits 10 (-n).toNat, Nat.toDigits_ne_nil,
      fun _ => Digits.isDecimal_of_mem_toDigits, .inr (.inr ⟨?_, ?_⟩)⟩
    · rw [String.toList_append, Nat.repr_eq_ofList_toDigits]
      exact congrArg ('-' :: ·) String.toList_ofList
    · rw [Digits.ofDecimal_toDigits]
      omega

/-! ## Values that stand for integers -/

/-- The dynamic value has the integer `n` for its value. -/
inductive HasInteger : Json → Int → Prop
  | number (n : Int) : HasInteger (.int n) n
  | float {x : Binary64} {n : Int} (h : x.value = n) : HasInteger (.float x) n
  | text {s : String} {n : Int} (h : SpellsDecimal s n) : HasInteger (.str s) n

theorem HasInteger.ne_null {v : Json} {n : Int} (h : HasInteger v n) : v ≠ .null := by
  rintro rfl
  cases h

theorem HasInteger.isNull_eq {v : Json} {n : Int} (h : HasInteger v n) : v.isNull = false := by
  cases h <;> rfl

theorem HasInteger.wellFormed {v : Json} {n : Int} (h : HasInteger v n) : v.WellFormed := by
  cases h <;> trivial

theorem spellsInt_iff {v : Json} {n : Int} : SpellsInt v n ↔ HasInteger v n := by
  constructor
  · intro h
    cases v with
    | int k => exact h ▸ .number k
    | float x => exact .float (Binary64.equals_iff.1 h)
    | str s => exact .text h
    | _ => cases h
  · rintro (n | h | h)
    · exact rfl
    · exact Binary64.equals_iff.2 h
    · exact h

/-- What no 64-bit integer is read from: what is neither a number nor a text, numbers out of range,
fractions, and texts that are not the decimal digits of a number in range. -/
inductive NoInt64 : Json → Prop
  | bool (b : Bool) : NoInt64 (.bool b)
  | arr (items : List Json) : NoInt64 (.arr items)
  | obj (members : List (String × Json)) : NoInt64 (.obj members)
  | number {n : Int} (h : n < -2 ^ 63 ∨ 2 ^ 63 ≤ n) : NoInt64 (.int n)
  | large {x : Binary64} (h : x.value < -2 ^ 63 ∨ 2 ^ 63 ≤ x.value) : NoInt64 (.float x)
  | fraction {x : Binary64} (h : ∀ n : Int, x.value ≠ n) : NoInt64 (.float x)
  | text {s : String} (h : ∀ n, ¬SpellsDecimal s n) : NoInt64 (.str s)
  | long {s : String} {n : Int} (hs : SpellsDecimal s n) (h : n < -2 ^ 63 ∨ 2 ^ 63 ≤ n) :
    NoInt64 (.str s)

theorem cast_outside_iff {n : Int} :
    ((n : ℚ) < -2 ^ 63 ∨ 2 ^ 63 ≤ (n : ℚ)) ↔ n < -2 ^ 63 ∨ 2 ^ 63 ≤ n := by
  have hbound : (2 : ℚ) ^ 63 = ((2 ^ 63 : Int) : ℚ) := by
    rw [Int.cast_pow, Int.cast_two]
  rw [hbound, ← Int.cast_neg, Int.cast_lt, Int.cast_le]

theorem SpellsDecimal.unique {s : String} {n k : Int} (hn : SpellsDecimal s n)
    (hk : SpellsDecimal s k) : n = k := by
  rw [← decimal?_eq_some_iff] at hn hk
  exact Option.some.inj (hn.symm.trans hk)

/-- These are the values other than null that have no integer in range. -/
theorem noInt64_iff {v : Json} (hv : v ≠ .null) :
    NoInt64 v ↔ ∀ n, HasInteger v n → n < -2 ^ 63 ∨ 2 ^ 63 ≤ n := by
  constructor
  · rintro (b | items | ms | h | h | h | h | ⟨hs, h⟩) n hn
    · cases hn
    · cases hn
    · cases hn
    · obtain _ | _ | _ := hn
      exact h
    · obtain _ | hn | _ := hn
      rw [hn, cast_outside_iff] at h
      exact h
    · obtain _ | hn | _ := hn
      exact absurd hn (h n)
    · obtain _ | _ | hn := hn
      exact absurd hn (h n)
    · obtain _ | _ | hn := hn
      rw [← hs.unique hn]
      exact h
  · intro h
    -- whether a number is whole, or a text a numeral, is decided classically
    cases v with
    | null => exact absurd rfl hv
    | bool b => exact .bool b
    | arr items => exact .arr items
    | obj ms => exact .obj ms
    | int n => exact .number (h n (.number n))
    | float x =>
      by_cases hx : ∃ n : Int, x.value = n
      · obtain ⟨n, hn⟩ := hx
        refine .large ?_
        rw [hn, cast_outside_iff]
        exact h n (.float hn)
      · exact .fraction fun n hn => hx ⟨n, hn⟩
    | str s =>
      by_cases hs : ∃ n, SpellsDecimal s n
      · obtain ⟨n, hn⟩ := hs
        exact .long hn (h n (.text hn))
      · exact .text fun n hn => hs ⟨n, hn⟩

/-! ## Reading -/

/-- **An integer is read from the values that have it**, if it is in range. -/
theorem decode_int64_iff {v : Json} {k : Int} :
    (∃ n : Int64, decode .int64 v = .ok n ∧ n.toInt = k) ↔
      HasInteger v k ∧ -2 ^ 63 ≤ k ∧ k < 2 ^ 63 := by
  constructor
  · rintro ⟨n, hn, rfl⟩
    rw [decode, readInt64_eq_ok_iff, spellsInt_iff] at hn
    exact ⟨hn, n.le_toInt, n.toInt_lt⟩
  · rintro ⟨hv, hlo, hhi⟩
    have hk : (Int64.ofInt k).toInt = k := Int64.toInt_ofInt_of_le hlo hhi
    refine ⟨.ofInt k, ?_, hk⟩
    rw [decode, readInt64_eq_ok_iff, hk]
    exact spellsInt_iff.2 hv

theorem exists_decode_int64_error_iff {v : Json} (hv : v ≠ .null) :
    (∃ fault, decode .int64 v = .error fault) ↔ NoInt64 v := by
  rw [noInt64_iff hv]
  constructor
  · rintro ⟨fault, hfault⟩ k hk
    by_contra hrange
    obtain ⟨n, hn, -⟩ := decode_int64_iff.2 ⟨hk, by omega⟩
    rw [hfault] at hn
    cases hn
  · intro h
    refine Except.exists_error_of_ne_ok fun n hn => ?_
    obtain ⟨hk, hlo, hhi⟩ := decode_int64_iff.1 ⟨n, hn, rfl⟩
    have hout := h _ hk
    omega

example : ∀ s ∈ ["", "-", " 1", "1.0", "9223372036854775808"],
    (decode .int64 (.str s)).toOption = none := by
  decide

end Schema

end MessageHooks
