/-!
# Orders on keys

Members of an object, rows of a metric and bindings of a registry are listed in one fixed order,
so that equal contents have equal listings.

* `KeyOrder`: a strict total order with a decidable test; `KeyOrder.le` is its weak form.
* Texts are ordered by code points, which is the byte order of their UTF-8 form.
* Pairs and lists are ordered lexicographically; a proper beginning of a list comes before it.
-/

namespace MessageHooks

/-- A strict total order on keys, with the test that decides it. -/
class KeyOrder (κ : Type) where
  lt : κ → κ → Bool
  irrefl : ∀ a, lt a a = false
  trans : ∀ {a b c}, lt a b = true → lt b c = true → lt a c = true
  connected : ∀ {a b}, lt a b = false → lt b a = false → a = b

namespace KeyOrder

variable {κ : Type} [KeyOrder κ]

theorem asymm {a b : κ} (h : lt a b = true) : lt b a = false := by
  cases hba : lt b a with
  | false => rfl
  | true => simpa [irrefl] using trans h hba

theorem ne_of_lt {a b : κ} (h : lt a b = true) : a ≠ b := by
  rintro rfl
  simp [irrefl] at h

theorem lt_of_not_lt {a b : κ} (h : lt a b = false) (hne : a ≠ b) : lt b a = true := by
  cases hba : lt b a with
  | true => rfl
  | false => exact absurd (connected h hba) hne

/-! ## The weak order -/

def le (a b : κ) : Bool := !lt b a

theorem le_trans (a b c : κ) (h : le a b = true) (h' : le b c = true) : le a c = true := by
  simp only [le, Bool.not_eq_true'] at *
  cases hca : lt c a with
  | false => rfl
  | true =>
    cases hbc : lt b c with
    | true => rw [trans hbc hca] at h; exact h
    | false =>
      rw [connected hbc h', hca] at h
      exact h

theorem le_total (a b : κ) : (le a b || le b a) = true := by
  cases hba : lt b a with
  | false => simp [le, hba]
  | true => simp [le, asymm hba]

theorem le_antisymm {a b : κ} (h : le a b = true) (h' : le b a = true) : a = b := by
  simp only [le, Bool.not_eq_true'] at h h'
  exact connected h' h

theorem le_of_lt {a b : κ} (h : lt a b = true) : le a b = true := by simp [le, asymm h]

/-! ## Lists and pairs -/

def ltList : List κ → List κ → Bool
  | _, [] => false
  | [], _ :: _ => true
  | a :: as, b :: bs => lt a b || (!lt b a && ltList as bs)

theorem ltList_irrefl (as : List κ) : ltList as as = false := by
  induction as with
  | nil => rfl
  | cons a as ih => simp [ltList, irrefl, ih]

theorem ltList_connected {as bs : List κ} (h : ltList as bs = false) (h' : ltList bs as = false) :
    as = bs := by
  induction as generalizing bs with
  | nil => cases bs with
    | nil => rfl
    | cons => simp [ltList] at h
  | cons a as ih => cases bs with
    | nil => simp [ltList] at h'
    | cons b bs =>
      simp only [ltList, Bool.or_eq_false_iff] at h h'
      rw [connected h.1 h'.1]
      simp only [h.1, h'.1, Bool.not_false, Bool.true_and] at h h'
      rw [ih h.2 h'.2]

theorem ltList_cons {a b : κ} {as bs : List κ} :
    ltList (a :: as) (b :: bs) = true ↔ lt a b = true ∨ (a = b ∧ ltList as bs = true) := by
  simp only [ltList, Bool.or_eq_true, Bool.and_eq_true, Bool.not_eq_true']
  constructor
  · rintro (h | ⟨h, h'⟩)
    · exact .inl h
    · by_cases hab : lt a b = true
      · exact .inl hab
      · exact .inr ⟨connected (by simpa using hab) h, h'⟩
  · rintro (h | ⟨rfl, h'⟩)
    · exact .inl h
    · exact .inr ⟨irrefl a, h'⟩

theorem ltList_trans {as bs cs : List κ} (h : ltList as bs = true) (h' : ltList bs cs = true) :
    ltList as cs = true := by
  induction as generalizing bs cs with
  | nil => cases cs with
    | nil => cases bs <;> simp [ltList] at h'
    | cons => rfl
  | cons a as ih => cases bs with
    | nil => simp [ltList] at h
    | cons b bs => cases cs with
      | nil => simp [ltList] at h'
      | cons c cs =>
        rw [ltList_cons] at *
        rcases h with h | ⟨rfl, h⟩ <;> rcases h' with h' | ⟨rfl, h'⟩
        · exact .inl (trans h h')
        · exact .inl h
        · exact .inl h'
        · exact .inr ⟨rfl, ih h h'⟩

instance instList : KeyOrder (List κ) where
  lt := ltList
  irrefl := ltList_irrefl
  trans := ltList_trans
  connected := ltList_connected

variable {ν : Type} [KeyOrder ν]

def ltPair (p q : κ × ν) : Bool :=
  lt p.1 q.1 || (!lt q.1 p.1 && lt p.2 q.2)

theorem ltPair_iff {p q : κ × ν} :
    ltPair p q = true ↔ lt p.1 q.1 = true ∨ (p.1 = q.1 ∧ lt p.2 q.2 = true) := by
  simp only [ltPair, Bool.or_eq_true, Bool.and_eq_true, Bool.not_eq_true']
  constructor
  · rintro (h | ⟨h, h'⟩)
    · exact .inl h
    · by_cases hpq : lt p.1 q.1 = true
      · exact .inl hpq
      · exact .inr ⟨connected (by simpa using hpq) h, h'⟩
  · rintro (h | ⟨h, h'⟩)
    · exact .inl h
    · exact .inr ⟨h ▸ irrefl q.1, h'⟩

instance instPair : KeyOrder (κ × ν) where
  lt := ltPair
  irrefl p := by simp [ltPair, irrefl]
  trans := by
    intro p q r h h'
    rw [ltPair_iff] at *
    rcases h with h | ⟨e, h⟩ <;> rcases h' with h' | ⟨e', h'⟩
    · exact .inl (trans h h')
    · exact .inl (e' ▸ h)
    · exact .inl (e ▸ h')
    · exact .inr ⟨e.trans e', trans h h'⟩
  connected := by
    intro p q h h'
    simp only [ltPair, Bool.or_eq_false_iff] at h h'
    have e := connected h.1 h'.1
    simp only [h.1, h'.1, Bool.not_false, Bool.true_and] at h h'
    exact Prod.ext e (connected h.2 h'.2)

end KeyOrder

/-! ## Numbers and texts -/

instance : KeyOrder Nat where
  lt a b := decide (a < b)
  irrefl a := by simp
  trans h h' := by simp only [decide_eq_true_eq] at *; omega
  connected h h' := by simp only [decide_eq_false_iff_not] at *; omega

def codePoints (s : String) : List Nat := s.toList.map Char.toNat

theorem codePoints_injective {s t : String} (h : codePoints s = codePoints t) : s = t :=
  String.toList_inj.1 (List.map_inj_right (fun _ _ => Char.toNat_inj.1) |>.1 h)

instance : KeyOrder String where
  lt s t := KeyOrder.lt (codePoints s) (codePoints t)
  irrefl s := KeyOrder.irrefl (codePoints s)
  trans h h' := KeyOrder.trans h h'
  connected h h' := codePoints_injective (KeyOrder.connected h h')

end MessageHooks
