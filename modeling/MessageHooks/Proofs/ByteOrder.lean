import MessageHooks.Order

/-!
# The byte order of texts

Texts are compared by their code points. This is the order of their UTF-8 bytes: of two characters,
the one with the larger code point has the larger byte where their bytes first differ.

* `Encoded`: the bytes of one code point.
* `Encoded.append_lt`: they are in the order of the code points.
* `lt_iff_bytesOf_lt`: so are the bytes of texts.
-/

namespace MessageHooks

/-- The UTF-8 bytes of a text. -/
def bytesOf (s : String) : List UInt8 := s.toUTF8.data.toList

theorem bytesOf_eq (s : String) : bytesOf s = s.toList.flatMap String.utf8EncodeChar := by
  have h : (String.ofList s.toList).toByteArray.data.toList =
      s.toList.flatMap String.utf8EncodeChar := by
    rw [String.toByteArray_ofList, List.utf8Encode, List.toList_data_toByteArray]
  rw [String.ofList_toList] at h
  rw [bytesOf, String.toUTF8_eq_toByteArray, h]

/-! ## One character -/

theorem toNat_lt (c : Char) : c.toNat < 0x110000 := by
  have hvalid := c.valid
  simp only [UInt32.isValidChar, Nat.isValidChar] at hvalid
  have hval : c.val.toNat = c.toNat := rfl
  omega

/-- A character has one byte, two, three or four. -/
inductive Encoded (v : Nat) : List UInt8 → Prop
  | one (h : v < 0x80) : Encoded v [.ofNat v]
  | two (h : 0x80 ≤ v) (h' : v < 0x800) :
    Encoded v [.ofNat (v / 64 % 32 + 192), .ofNat (v % 64 + 128)]
  | three (h : 0x800 ≤ v) (h' : v < 0x10000) :
    Encoded v [.ofNat (v / 4096 % 16 + 224), .ofNat (v / 64 % 64 + 128), .ofNat (v % 64 + 128)]
  | four (h : 0x10000 ≤ v) (h' : v < 0x110000) :
    Encoded v [.ofNat (v / 262144 % 8 + 240), .ofNat (v / 4096 % 64 + 128),
      .ofNat (v / 64 % 64 + 128), .ofNat (v % 64 + 128)]

theorem encoded_utf8EncodeChar (c : Char) : Encoded c.toNat (String.utf8EncodeChar c) := by
  have hlt := toNat_lt c
  unfold String.utf8EncodeChar
  change Encoded c.toNat (if c.toNat ≤ 127 then _ else if c.toNat ≤ 2047 then _ else
    if c.toNat ≤ 65535 then _ else _)
  split
  · exact .one (by omega)
  · split
    · exact .two (by omega) (by omega)
    · split
      · exact .three (by omega) (by omega)
      · exact .four (by omega) hlt

/-- Of two characters, the one with the larger code point has the larger bytes, whatever follows. -/
theorem Encoded.append_lt {v w : Nat} {bs cs : List UInt8} (hb : Encoded v bs) (hc : Encoded w cs)
    (h : v < w) (xs ys : List UInt8) : bs ++ xs < cs ++ ys := by
  -- More bytes begin with a larger one, and as many are compared like digits to the base 64.
  cases hb <;> cases hc <;>
    simp only [List.cons_append, List.nil_append, List.cons_lt_cons_iff, UInt8.lt_iff_toNat_lt,
      ← UInt8.toNat_inj, UInt8.toNat_ofNat'] <;>
    simp (disch := omega) only [Nat.mod_eq_of_lt] <;>
    omega

theorem Encoded.exists_cons {v : Nat} {bs : List UInt8} (h : Encoded v bs) :
    ∃ b tail, bs = b :: tail := by
  cases h <;> exact ⟨_, _, rfl⟩

/-! ## Texts -/

theorem bytes_lt_of_ltList {cs ds : List Char}
    (h : KeyOrder.lt (cs.map Char.toNat) (ds.map Char.toNat) = true) :
    cs.flatMap String.utf8EncodeChar < ds.flatMap String.utf8EncodeChar := by
  induction cs generalizing ds with
  | nil =>
    cases ds with
    | nil => cases h
    | cons d ds =>
      obtain ⟨b, tail, hbytes⟩ := (encoded_utf8EncodeChar d).exists_cons
      rw [List.flatMap_nil, List.flatMap_cons, hbytes]
      exact List.nil_lt_cons ..
  | cons c cs ih =>
    cases ds with
    | nil => cases h
    | cons d ds =>
      rw [List.flatMap_cons, List.flatMap_cons]
      rcases KeyOrder.ltList_cons.1 h with hlt | ⟨heq, hrest⟩
      · exact (encoded_utf8EncodeChar c).append_lt (encoded_utf8EncodeChar d)
          (of_decide_eq_true hlt) _ _
      · obtain rfl : c = d := Char.toNat_inj.1 heq
        exact List.append_left_lt (ih hrest)

/-- **Texts are in the order of their bytes.** -/
theorem lt_iff_bytesOf_lt {s t : String} : KeyOrder.lt s t = true ↔ bytesOf s < bytesOf t := by
  have hbytes {s t : String} (h : KeyOrder.lt s t = true) : bytesOf s < bytesOf t := by
    rw [bytesOf_eq, bytesOf_eq]
    exact bytes_lt_of_ltList h
  refine ⟨hbytes, fun h => ?_⟩
  cases hlt : KeyOrder.lt s t with
  | true => rfl
  | false =>
    by_cases heq : s = t
    · exact absurd (heq ▸ h) (List.lt_irrefl _)
    · exact absurd h (List.lt_asymm (hbytes (KeyOrder.lt_of_not_lt hlt heq)))

end MessageHooks
