import MessageHooks.Proofs.Except
import MessageHooks.Schema.Decode

/-!
# Spellings of 64-bit integers

A 64-bit integer is written as an integer and may be read from two more spellings: a floating-point
number that is equal to it, and a text of decimal digits, with or without a sign.

* `SpellsInt v n`: the dynamic value `v` is a spelling of the integer `n`.
* `readInt64_eq_ok_iff`: what is read is what is spelled, for exactly the integers of 64 bits.
-/

namespace MessageHooks

/-! ## Decimal digits -/

namespace Digits

theorem inBase?_ten (c : Char) :
    inBase? 10 c = if isDecimal c then some (decimalValue c) else none := by
  unfold inBase? value?
  split
  · rename_i h
    have hlt : decimalValue c < 10 := by
      simp only [isDecimal, Bool.and_eq_true, decide_eq_true_eq, Char.le_def,
        UInt32.le_iff_toNat_le] at h
      simp only [decimalValue, Char.toNat]
      have h9 : ('9' : Char).val.toNat = 57 := rfl
      have h0 : ('0' : Char).val.toNat = 48 := rfl
      omega
    simp [hlt]
  · split
    · simp [Option.filter]
    · split <;> simp [Option.filter]

theorem mapM_inBase?_ten {ds : List Char} {ns : List Nat} :
    ds.mapM (inBase? 10) = some ns ↔
      (∀ c ∈ ds, isDecimal c = true) ∧ ns = ds.map decimalValue := by
  induction ds generalizing ns with
  | nil => exact ⟨fun h => ⟨by simp, (Option.some.inj h).symm⟩, fun h => h.2 ▸ rfl⟩
  | cons c ds ih =>
    rw [List.mapM_cons, inBase?_ten]
    by_cases hc : isDecimal c = true
    · simp only [hc, ↓reduceIte, Option.bind_eq_bind, Option.bind_some, Option.bind_eq_some_iff, ih,
        List.forall_mem_cons, true_and, List.map_cons]
      constructor
      · rintro ⟨ms, ⟨hds, rfl⟩, h⟩
        exact ⟨hds, (Option.some.inj h).symm⟩
      · rintro ⟨hds, rfl⟩
        exact ⟨_, ⟨hds, rfl⟩, rfl⟩
    · simp [hc]

theorem read?_ten_eq_some_iff {ds : List Char} {n : Nat} :
    read? 10 ds = some n ↔
      ds ≠ [] ∧ (∀ c ∈ ds, isDecimal c = true) ∧ n = ofDecimal ds := by
  unfold read?
  split
  · rename_i h
    simp [List.isEmpty_iff.1 h]
  · rename_i h
    have hne : ds ≠ [] := by simpa using h
    simp only [Option.map_eq_some_iff, mapM_inBase?_ten, and_assoc, exists_and_left,
      exists_eq_left, List.foldl_map, ofDecimal, ne_eq, hne, not_false_eq_true, true_and,
      eq_comm (a := n)]

end Digits

/-! ## Exact values -/

namespace Binary64

/-- The number is equal to the integer `n`. -/
def Equals (x : Binary64) (n : Int) : Prop :=
  (if x.negative then -(x.units : Int) else x.units) = n * (one : Int)

theorem one_pos : 0 < one := by
  unfold one
  generalize 1074 = n
  exact Nat.two_pow_pos n

theorem toInt?_eq_some_iff {x : Binary64} {n : Int} : x.toInt? = some n ↔ x.Equals n := by
  have hone : 0 < (one : Int) := by exact_mod_cast one_pos
  unfold toInt? Equals
  generalize one = d at *
  split
  · rename_i hz
    have hu : (x.units : Int) = (x.units / d : Nat) * (d : Int) := by
      exact_mod_cast (Nat.div_mul_cancel (Nat.dvd_of_mod_eq_zero hz)).symm
    simp only [Option.some.injEq, hu]
    generalize ((x.units / d : Nat) : Int) = q
    have hcancel : ∀ a : Int, a * (d : Int) = n * (d : Int) ↔ a = n := fun a =>
      Int.mul_eq_mul_right_iff (by omega)
    cases x.negative with
    | false => simp only [Bool.false_eq_true, ↓reduceIte, hcancel]
    | true => simp only [↓reduceIte, ← Int.neg_mul, hcancel]
  · rename_i hz
    simp only [reduceCtorEq, false_iff]
    intro h
    have hdvd : (d : Int) ∣ x.units := by
      split at h
      · exact Int.dvd_neg.1 ⟨n, by rw [h, Int.mul_comm]⟩
      · exact ⟨n, by rw [h, Int.mul_comm]⟩
    exact hz (Nat.mod_eq_zero_of_dvd (Int.natCast_dvd_natCast.1 hdvd))

end Binary64

namespace Schema

/-! ## Spellings -/

/-- Decimal digits, with or without a sign, that make the integer `n`. -/
def SpellsDecimal (s : String) (n : Int) : Prop :=
  ∃ ds : List Char, ds ≠ [] ∧ (∀ c ∈ ds, Digits.isDecimal c = true) ∧
    (s.toList = ds ∧ n = Digits.ofDecimal ds ∨
      s.toList = '+' :: ds ∧ n = Digits.ofDecimal ds ∨
      s.toList = '-' :: ds ∧ n = -Digits.ofDecimal ds)

/-- The value is a spelling of the integer `n`. -/
def SpellsInt : Json → Int → Prop
  | .int k, n => k = n
  | .float x, n => x.Equals n
  | .str s, n => SpellsDecimal s n
  | _, _ => False

theorem decimal?_eq_some_iff {s : String} {n : Int} :
    decimal? s = some n ↔ SpellsDecimal s n := by
  unfold decimal? SpellsDecimal
  split
  · rename_i ds hs
    simp only [Option.map_eq_some_iff, Digits.read?_ten_eq_some_iff, hs]
    constructor
    · rintro ⟨k, ⟨hne, hds, rfl⟩, rfl⟩
      exact ⟨ds, hne, hds, .inr (.inr ⟨rfl, rfl⟩)⟩
    · rintro ⟨ds', hne, hds, ⟨rfl, -⟩ | ⟨h, -⟩ | ⟨h, rfl⟩⟩
      · exact absurd (hds '-' List.mem_cons_self) (by decide)
      · cases h
      · cases h
        exact ⟨_, ⟨hne, hds, rfl⟩, rfl⟩
  · rename_i ds hs
    simp only [Option.map_eq_some_iff, Digits.read?_ten_eq_some_iff, hs]
    constructor
    · rintro ⟨k, ⟨hne, hds, rfl⟩, rfl⟩
      exact ⟨ds, hne, hds, .inr (.inl ⟨rfl, rfl⟩)⟩
    · rintro ⟨ds', hne, hds, ⟨rfl, -⟩ | ⟨h, rfl⟩ | ⟨h, -⟩⟩
      · exact absurd (hds '+' List.mem_cons_self) (by decide)
      · cases h
        exact ⟨_, ⟨hne, hds, rfl⟩, rfl⟩
      · cases h
  · rename_i hminus hplus
    simp only [Option.map_eq_some_iff, Digits.read?_ten_eq_some_iff]
    constructor
    · rintro ⟨k, ⟨hne, hds, rfl⟩, rfl⟩
      exact ⟨_, hne, hds, .inl ⟨rfl, rfl⟩⟩
    · rintro ⟨ds', hne, hds, ⟨rfl, rfl⟩ | ⟨h, -⟩ | ⟨h, -⟩⟩
      · exact ⟨_, ⟨hne, hds, rfl⟩, rfl⟩
      · exact (hplus ds' h).elim
      · exact (hminus ds' h).elim

theorem toInt64?_eq_some_iff {k : Int} {n : Int64} : toInt64? k = some n ↔ k = n.toInt := by
  unfold toInt64?
  have hlo := n.le_toInt
  have hhi := n.toInt_lt
  split
  · rename_i hk
    rw [Option.some.injEq, ← Int64.toInt_inj, Int64.toInt_ofInt_of_le hk.1 hk.2]
  · simp only [reduceCtorEq, false_iff]
    omega

theorem bind_toInt64?_eq_some_iff {k? : Option Int} {n : Int64} :
    k?.bind toInt64? = some n ↔ k? = some n.toInt := by
  cases k? with
  | none => simp
  | some k => rw [Option.bind_some, toInt64?_eq_some_iff, Option.some.injEq]

/-- **An integer is read exactly from its spellings**, and only within 64 bits. -/
theorem readInt64_eq_ok_iff {v : Json} {n : Int64} :
    readInt64 v = .ok n ↔ SpellsInt v n.toInt := by
  cases v with
  | int k =>
    rw [SpellsInt, ← Option.some.injEq k, ← bind_toInt64?_eq_some_iff]
    simp only [readInt64]
    cases (some k).bind toInt64? <;> simp
  | float x =>
    rw [SpellsInt, ← Binary64.toInt?_eq_some_iff, ← bind_toInt64?_eq_some_iff]
    simp only [readInt64]
    cases x.toInt?.bind toInt64? <;> simp
  | str s =>
    rw [SpellsInt, ← decimal?_eq_some_iff, ← bind_toInt64?_eq_some_iff]
    simp only [readInt64]
    cases (decimal? s).bind toInt64? <;> simp
  | _ => simp [readInt64, SpellsInt]

end Schema

end MessageHooks
