import MessageHooks.Base64
import MessageHooks.Number.Power
import MessageHooks.Proofs.Except

/-!
# One written form for each list of bytes

`Base64.decode` and `Base64.encode` undo each other: what was written is read back, and a list of
symbols that can be read at all is the one that would be written. Neither padding nor the unused
bits of a last symbol leave a choice.

* `decode_encode`, `encode_of_decode`: the two directions, on symbols.
* `decodeText_encodeText`, `encodeText_of_decodeText`: the same on texts.
* `isStrict_iff`: the texts written for bytes are the strict ones, said without reading or writing.
-/

namespace MessageHooks.Base64

/-! ## Alphabet -/

theorem value?_symbol : ∀ n < 64, value? (symbol n) = some n := by decide

theorem symbol_ne_pad : ∀ n < 64, symbol n ≠ pad := by decide

theorem symbol_lt : ∀ n < 64, (symbol n).toNat < 128 := by decide

theorem symbol_of_value? {b : UInt8} {n : Nat} (h : value? b = some n) :
    n < 64 ∧ symbol n = b := by
  have all : ∀ m < 256, ∀ n ∈ value? (UInt8.ofNat m), n < 64 ∧ symbol n = UInt8.ofNat m := by
    decide +kernel
  have := all b.toNat b.toNat_lt n
  rw [UInt8.ofNat_toNat] at this
  exact this h

theorem read_symbol (place : Nat) {n : Nat} (h : n < 64) : read place (symbol n) = .ok n := by
  simp [read, value?_symbol n h]

theorem read_ok {place n : Nat} {b : UInt8} (h : read place b = .ok n) :
    n < 64 ∧ symbol n = b := by
  unfold read at h
  split at h
  · rename_i hv
    cases h
    exact symbol_of_value? hv
  · cases h

/-! ## Groups of four -/

theorem decodeGroups_four (start : Nat) {a b c d : Nat} (ha : a < 64) (hb : b < 64) (hc : c < 64)
    (hd : d < 64) (rest : List UInt8) :
    decodeGroups start (symbol a :: symbol b :: symbol c :: symbol d :: rest) =
      (decodeGroups (start + 4) rest).map (bytesOfFour a b c d ++ ·) := by
  cases rest with
  | nil =>
    simp [decodeGroups, decodeLast, readLast, symbol_ne_pad, read_symbol, bytesOfLast, Except.bind,
      Except.map, ha, hb, hc, hd]
  | cons e rest =>
    simp only [decodeGroups, read_symbol, ha, hb, hc, hd]
    rfl

/-- Four numbers make three bytes, and the three bytes the four numbers. -/
theorem bytesOfFour_digits (a b c : UInt8) :
    let n := a.toNat * 65536 + b.toNat * 256 + c.toNat
    bytesOfFour (n / 262144) (n / 4096 % 64) (n / 64 % 64) (n % 64) = [a, b, c] := by
  have ha := a.toNat_lt
  have hb := b.toNat_lt
  have hc := c.toNat_lt
  intro n
  simp only [bytesOfFour, List.cons.injEq, and_true, ← UInt8.toNat_inj, UInt8.toNat_ofNat']
  omega

theorem encode_bytesOfFour {a b c d : Nat} (ha : a < 64) (hb : b < 64) (hc : c < 64) (hd : d < 64)
    (rest : List UInt8) :
    encode (bytesOfFour a b c d ++ rest) =
      symbol a :: symbol b :: symbol c :: symbol d :: encode rest := by
  simp only [bytesOfFour, List.cons_append, List.nil_append, encode, UInt8.toNat_ofNat']
  have e : (a * 262144 + b * 4096 + c * 64 + d) / 65536 % 2 ^ 8 * 65536 +
      (a * 262144 + b * 4096 + c * 64 + d) / 256 % 256 % 2 ^ 8 * 256 +
      (a * 262144 + b * 4096 + c * 64 + d) % 256 % 2 ^ 8 = a * 262144 + b * 4096 + c * 64 + d := by
    omega
  rw [e, show (a * 262144 + b * 4096 + c * 64 + d) / 262144 = a by omega,
    show (a * 262144 + b * 4096 + c * 64 + d) / 4096 % 64 = b by omega,
    show (a * 262144 + b * 4096 + c * 64 + d) / 64 % 64 = c by omega,
    show (a * 262144 + b * 4096 + c * 64 + d) % 64 = d by omega]

theorem decodeGroups_single (start : Nat) {a b : Nat} (ha : a < 64) (hb : b < 64)
    (hz : b % 16 = 0) :
    decodeGroups start [symbol a, symbol b, pad, pad] = .ok [UInt8.ofNat (a * 4 + b / 16)] := by
  simp [decodeGroups, decodeLast, readLast, symbol_ne_pad, read_symbol, bytesOfLast, Except.bind,
    Except.map, ha, hb, hz]

theorem decodeGroups_pair (start : Nat) {a b c : Nat} (ha : a < 64) (hb : b < 64) (hc : c < 64)
    (hz : c % 4 = 0) :
    decodeGroups start [symbol a, symbol b, symbol c, pad] =
      .ok [UInt8.ofNat (a * 4 + b / 16), UInt8.ofNat (b % 16 * 16 + c / 4)] := by
  simp [decodeGroups, decodeLast, readLast, symbol_ne_pad, read_symbol, bytesOfLast, Except.bind,
    Except.map, ha, hb, hc, hz]

theorem encode_single {a b : Nat} (ha : a < 64) (hb : b < 64) (hz : b % 16 = 0) :
    encode [UInt8.ofNat (a * 4 + b / 16)] = [symbol a, symbol b, pad, pad] := by
  simp only [encode, UInt8.toNat_ofNat']
  rw [show (a * 4 + b / 16) % 2 ^ 8 / 4 = a by omega,
    show (a * 4 + b / 16) % 2 ^ 8 % 4 * 16 = b by omega]

theorem encode_pair {a b c : Nat} (ha : a < 64) (hb : b < 64) (hc : c < 64) (hz : c % 4 = 0) :
    encode [UInt8.ofNat (a * 4 + b / 16), UInt8.ofNat (b % 16 * 16 + c / 4)] =
      [symbol a, symbol b, symbol c, pad] := by
  simp only [encode, UInt8.toNat_ofNat']
  have e : (a * 4 + b / 16) % 2 ^ 8 * 1024 + (b % 16 * 16 + c / 4) % 2 ^ 8 * 4 =
      a * 4096 + b * 64 + c := by omega
  rw [e, show (a * 4096 + b * 64 + c) / 4096 = a by omega,
    show (a * 4096 + b * 64 + c) / 64 % 64 = b by omega,
    show (a * 4096 + b * 64 + c) % 64 = c by omega]

/-! ## The last group -/

theorem readLast_padding {start i p : Nat} {group : List UInt8} {ns : List Nat} {pads : Nat}
    (h : readLast start i (some p) group = .ok (ns, pads)) :
    ns = [] ∧ group = List.replicate group.length pad ∧ pads = i + group.length - p := by
  induction group generalizing i with
  | nil =>
    cases h
    simp
  | cons b rest ih =>
    simp only [readLast] at h
    split at h
    · rename_i hb
      split at h
      · cases h
      · obtain ⟨hns, hrest, hpads⟩ := ih h
        refine ⟨hns, ?_, ?_⟩
        · rw [List.length_cons, List.replicate_succ, ← hrest, hb]
        · rw [hpads, List.length_cons]
          omega
    · cases h

/-- The symbols of a last group: those of its numbers, and then the padding. -/
theorem readLast_ok {start i : Nat} {group : List UInt8} {ns : List Nat} {pads : Nat}
    (h : readLast start i none group = .ok (ns, pads)) :
    (∀ n ∈ ns, n < 64) ∧ group = ns.map symbol ++ List.replicate pads pad := by
  induction group generalizing i ns with
  | nil =>
    cases h
    simp
  | cons b rest ih =>
    simp only [readLast] at h
    split at h
    · rename_i hb
      split at h
      · cases h
      · obtain ⟨rfl, hrest, hpads⟩ := readLast_padding h
        refine ⟨by simp, ?_⟩
        rw [show pads = rest.length + 1 by omega, List.replicate_succ, ← hrest, hb]
        rfl
    · obtain ⟨n, hn, h⟩ := Except.bind_eq_ok.1 h
      obtain ⟨⟨ns', pads'⟩, hrest, e⟩ := Except.map_eq_ok.1 h
      cases e
      obtain ⟨hlt, hgroup⟩ := ih hrest
      obtain ⟨hn, hb⟩ := read_ok hn
      refine ⟨by simpa [hn] using hlt, ?_⟩
      rw [hgroup, ← hb]
      rfl

theorem encode_of_decodeLast {start : Nat} {group bytes : List UInt8} (hlen : group.length ≤ 4)
    (h : decodeLast start group = .ok bytes) : encode bytes = group := by
  unfold decodeLast at h
  split at h
  · rename_i he
    cases h
    rw [List.isEmpty_iff.1 he]
    rfl
  obtain ⟨⟨ns, pads⟩, hread, h⟩ := Except.bind_eq_ok.1 h
  obtain ⟨hlt, hgroup⟩ := readLast_ok hread
  have hsum : ns.length + pads = group.length := by simp [hgroup]
  simp only [bytesOfLast] at h
  split at h
  · cases h
  split at h
  · cases h
  -- the numbers and the padding fill exactly one group of four
  have hpads : ns.length + pads = 4 := by omega
  rw [hgroup]
  match ns, hlt with
  | [a, b], hlt =>
    simp only at h
    split at h
    · cases h
    rename_i hz
    cases h
    obtain rfl : pads = 2 := by simp at hpads; omega
    exact encode_single (hlt a (by simp)) (hlt b (by simp)) (by simpa using hz)
  | [a, b, c], hlt =>
    simp only at h
    split at h
    · cases h
    rename_i hz
    cases h
    obtain rfl : pads = 1 := by simp at hpads; omega
    exact encode_pair (hlt a (by simp)) (hlt b (by simp)) (hlt c (by simp)) (by simpa using hz)
  | [a, b, c, d], hlt =>
    cases h
    obtain rfl : pads = 0 := by simp at hpads; omega
    simpa [encode] using
      encode_bytesOfFour (hlt a (by simp)) (hlt b (by simp)) (hlt c (by simp)) (hlt d (by simp)) []

/-! ## Symbols -/

/-- What a run of groups is read as is written as that run. -/
theorem encode_of_decodeGroups {start : Nat} {symbols bytes : List UInt8}
    (h : decodeGroups start symbols = .ok bytes) : encode bytes = symbols := by
  fun_induction decodeGroups start symbols generalizing bytes with
  | case1 start a b c d e rest ih =>
    obtain ⟨a', ha, h⟩ := Except.bind_eq_ok.1 h
    obtain ⟨b', hb, h⟩ := Except.bind_eq_ok.1 h
    obtain ⟨c', hc, h⟩ := Except.bind_eq_ok.1 h
    obtain ⟨d', hd, h⟩ := Except.bind_eq_ok.1 h
    obtain ⟨bytes', hrest, h⟩ := Except.bind_eq_ok.1 h
    cases h
    obtain ⟨a_lt, rfl⟩ := read_ok ha
    obtain ⟨b_lt, rfl⟩ := read_ok hb
    obtain ⟨c_lt, rfl⟩ := read_ok hc
    obtain ⟨d_lt, rfl⟩ := read_ok hd
    rw [encode_bytesOfFour a_lt b_lt c_lt d_lt, ih hrest]
  | case2 start group hgroup =>
    refine encode_of_decodeLast ?_ h
    match group, hgroup with
    | [], _ | [_], _ | [_, _], _ | [_, _, _], _ | [_, _, _, _], _ => simp
    | a :: b :: c :: d :: e :: rest, hgroup => exact (hgroup a b c d e rest rfl).elim

theorem decodeGroups_encode (start : Nat) (bytes : List UInt8) :
    decodeGroups start (encode bytes) = .ok bytes := by
  fun_induction encode bytes generalizing start with
  | case1 a b c rest n ih =>
    have hn : n < 2 ^ 24 := by
      have ha := a.toNat_lt
      have hb := b.toNat_lt
      have hc := c.toNat_lt
      omega
    rw [decodeGroups_four start (by omega) (by omega) (by omega) (by omega), ih,
      bytesOfFour_digits]
    rfl
  | case2 a b n =>
    have ha := a.toNat_lt
    have hb := b.toNat_lt
    have hn : n = a.toNat * 1024 + b.toNat * 4 := rfl
    rw [decodeGroups_pair start (by omega) (by omega) (by omega) (by omega)]
    simp only [Except.ok.injEq, List.cons.injEq, and_true, ← UInt8.toNat_inj, UInt8.toNat_ofNat']
    omega
  | case3 a =>
    have ha := a.toNat_lt
    rw [decodeGroups_single start (by omega) (by omega) (by omega)]
    simp only [Except.ok.injEq, List.cons.injEq, and_true, ← UInt8.toNat_inj, UInt8.toNat_ofNat']
    omega
  | case4 => rfl

theorem length_encode (bytes : List UInt8) : (encode bytes).length % 4 = 0 := by
  fun_induction encode bytes with simp_all [Nat.add_mod]

theorem decode_encode (bytes : List UInt8) : decode (encode bytes) = .ok bytes := by
  have : strayLast? (encode bytes) = none := by simp [strayLast?, length_encode]
  rw [decode, this]
  exact decodeGroups_encode 0 bytes

theorem encode_of_decode {symbols bytes : List UInt8} (h : decode symbols = .ok bytes) :
    encode bytes = symbols := by
  unfold decode at h
  split at h
  · cases h
  · exact encode_of_decodeGroups h

/-! ## Texts -/

theorem encode_lt (bytes : List UInt8) : ∀ b ∈ encode bytes, b.toNat < 128 := by
  have hpad : pad.toNat < 128 := by decide
  fun_induction encode bytes with
  | case1 a b c rest n ih =>
    have ha := a.toNat_lt
    have hn : n = a.toNat * 65536 + b.toNat * 256 + c.toNat := rfl
    have hb := b.toNat_lt
    have hc := c.toNat_lt
    simp only [List.forall_mem_cons]
    exact ⟨symbol_lt _ (by omega), symbol_lt _ (by omega), symbol_lt _ (by omega),
      symbol_lt _ (by omega), ih⟩
  | case2 a b n =>
    have ha := a.toNat_lt
    have hb := b.toNat_lt
    have hn : n = a.toNat * 1024 + b.toNat * 4 := rfl
    simp only [List.forall_mem_cons]
    exact ⟨symbol_lt _ (by omega), symbol_lt _ (by omega), symbol_lt _ (by omega), hpad, by simp⟩
  | case3 a =>
    have ha := a.toNat_lt
    simp only [List.forall_mem_cons]
    exact ⟨symbol_lt _ (by omega), symbol_lt _ (by omega), hpad, hpad, by simp⟩
  | case4 => simp

theorem utf8EncodeChar_ofNat {b : UInt8} (h : b.toNat < 128) :
    String.utf8EncodeChar (Char.ofNat b.toNat) = [b] := by
  have ascii : ∀ n < 128, (Char.ofNat n).val.toNat = n := by decide
  have e := ascii b.toNat h
  simp [String.utf8EncodeChar, e, show b.toNat ≤ 127 by omega]

theorem toUTF8_ofList {bs : List UInt8} (h : ∀ b ∈ bs, b.toNat < 128) :
    (String.ofList (bs.map fun b => Char.ofNat b.toNat)).toUTF8 = bs.toByteArray := by
  have e : (bs.map fun b => Char.ofNat b.toNat).flatMap String.utf8EncodeChar = bs := by
    rw [List.flatMap_map, List.flatMap_def,
      List.map_congr_left fun b hb => utf8EncodeChar_ofNat (h b hb)]
    exact List.flatMap_singleton' bs
  rw [String.toUTF8_eq_toByteArray, String.toByteArray_ofList, List.utf8Encode, e]

theorem toList_loop (bs : ByteArray) (i : Nat) (r : List UInt8) :
    ByteArray.toList.loop bs i r = r.reverse ++ bs.data.toList.drop i := by
  fun_induction ByteArray.toList.loop bs i r with
  | case1 i r hlt ih =>
    have hi : i < bs.data.toList.length := by simpa using hlt
    have hget : bs.get! i = bs.data.toList[i] := by
      show bs.data[i]! = _
      rw [getElem!_pos bs.data i hlt, Array.getElem_toList]
    rw [ih, List.drop_eq_getElem_cons hi, List.reverse_cons, List.append_assoc, hget]
    rfl
  | case2 i r hlt =>
    rw [List.drop_eq_nil_of_le (by simpa using Nat.le_of_not_lt hlt), List.append_nil]

theorem toList_eq_data (bs : ByteArray) : bs.toList = bs.data.toList := by
  simp [ByteArray.toList, toList_loop]

theorem toUTF8_encodeText (bytes : List UInt8) :
    (encodeText bytes).toUTF8.toList = encode bytes := by
  rw [encodeText, toUTF8_ofList (encode_lt bytes), toList_eq_data, List.toList_data_toByteArray]

theorem decodeText_encodeText (bytes : List UInt8) : decodeText (encodeText bytes) = .ok bytes := by
  rw [decodeText, toUTF8_encodeText, decode_encode]

theorem encodeText_of_decodeText {s : String} {bytes : List UInt8}
    (h : decodeText s = .ok bytes) : encodeText bytes = s := by
  have e : (encodeText bytes).toUTF8.toList = s.toUTF8.toList := by
    rw [toUTF8_encodeText]
    exact encode_of_decode h
  rw [toList_eq_data, toList_eq_data, Array.toList_inj] at e
  exact String.toByteArray_inj.1 (ByteArray.ext e)

theorem encodeText_injective {bs bs' : List UInt8} (h : encodeText bs = encodeText bs') :
    bs = bs' := by
  have e := decodeText_encodeText bs
  rw [h, decodeText_encodeText] at e
  exact (Except.ok.inj e).symm

theorem encodeText_eq_empty_iff {bs : List UInt8} : encodeText bs = "" ↔ bs = [] := by
  have e : encodeText [] = "" := rfl
  rw [← e]
  exact ⟨encodeText_injective, fun h => by rw [h]⟩

/-! ## Strict texts -/

/-- The standard alphabet: each six-bit number has its character in its place. -/
def alphabet : String := "ABCDEFGHIJKLMNOPQRSTUVWXYZabcdefghijklmnopqrstuvwxyz0123456789+/"

/-- The character of a six-bit number. -/
def letter (n : Nat) : Char := alphabet.toList.getD n '='

/-- Six-bit numbers that make up whole groups of four together with at most two padding symbols.
Each padding symbol takes two bits off the last number, which are zero. -/
structure Grouped (ns : List Nat) (pads : Nat) : Prop where
  lt : ∀ n ∈ ns, n < 64
  pads_le : pads ≤ 2
  whole : 4 ∣ ns.length + pads
  unused : ∀ n ∈ ns.getLast?, 4 ^ pads ∣ n

/-- A strict text: characters of the alphabet, and padding where it belongs. -/
def IsStrict (s : String) : Prop :=
  ∃ ns pads, Grouped ns pads ∧ s.toList = ns.map letter ++ List.replicate pads '='

theorem letter_eq_symbol : ∀ n < 64, Char.ofNat (symbol n).toNat = letter n := by decide

theorem Grouped.cons {a b c d : Nat} (ha : a < 64) (hb : b < 64) (hc : c < 64) (hd : d < 64)
    {ns : List Nat} {pads : Nat} (h : Grouped ns pads) :
    Grouped (a :: b :: c :: d :: ns) pads := by
  have hwhole := h.whole
  have hpads := h.pads_le
  refine ⟨by simpa [ha, hb, hc, hd] using h.lt, hpads, by simp; omega, ?_⟩
  cases ns with
  | nil =>
    obtain rfl : pads = 0 := by simp at hwhole; omega
    simp
  | cons n ns => simpa [List.getLast?_cons_cons] using h.unused

theorem Grouped.tail {a b c d : Nat} {ns : List Nat} {pads : Nat}
    (h : Grouped (a :: b :: c :: d :: ns) pads) : Grouped ns pads := by
  have hwhole := h.whole
  refine ⟨fun n hn => h.lt n (by simp [hn]), h.pads_le, by simp at hwhole; omega, ?_⟩
  cases ns with
  | nil => simp
  | cons n ns => simpa [List.getLast?_cons_cons] using h.unused

theorem Grouped.exists_encode_eq {ns : List Nat} {pads : Nat} (h : Grouped ns pads) :
    ∃ bytes, encode bytes = ns.map symbol ++ List.replicate pads pad := by
  have hwhole := h.whole
  have hpads := h.pads_le
  match ns, h with
  | [], _ =>
    obtain rfl : pads = 0 := by simp at hwhole; omega
    exact ⟨[], rfl⟩
  | [a], _ => simp at hwhole; omega
  | [a, b], h =>
    obtain rfl : pads = 2 := by simp at hwhole; omega
    have hz : 16 ∣ b := h.unused b (by simp)
    exact ⟨_, encode_single (h.lt a (by simp)) (h.lt b (by simp)) (Nat.mod_eq_zero_of_dvd hz)⟩
  | [a, b, c], h =>
    obtain rfl : pads = 1 := by simp at hwhole; omega
    have hz : 4 ∣ c := h.unused c (by simp)
    exact ⟨_, encode_pair (h.lt a (by simp)) (h.lt b (by simp)) (h.lt c (by simp))
      (Nat.mod_eq_zero_of_dvd hz)⟩
  | a :: b :: c :: d :: rest, h =>
    obtain ⟨bytes, hbytes⟩ := h.tail.exists_encode_eq
    refine ⟨bytesOfFour a b c d ++ bytes, ?_⟩
    rw [encode_bytesOfFour (h.lt a (by simp)) (h.lt b (by simp)) (h.lt c (by simp))
      (h.lt d (by simp)), hbytes]
    rfl

/-- Bytes are written in whole groups. -/
theorem encode_eq_grouped (bytes : List UInt8) :
    ∃ ns pads, Grouped ns pads ∧ encode bytes = ns.map symbol ++ List.replicate pads pad := by
  fun_induction encode bytes with
  | case1 a b c rest n ih =>
    obtain ⟨ns, pads, h, e⟩ := ih
    have hn : n = a.toNat * 65536 + b.toNat * 256 + c.toNat := rfl
    have ha := a.toNat_lt
    have hb := b.toNat_lt
    have hc := c.toNat_lt
    refine ⟨n / 262144 :: n / 4096 % 64 :: n / 64 % 64 :: n % 64 :: ns, pads,
      h.cons (by omega) (by omega) (by omega) (by omega), ?_⟩
    rw [e]
    rfl
  | case2 a b n =>
    have hn : n = a.toNat * 1024 + b.toNat * 4 := rfl
    have ha := a.toNat_lt
    have hb := b.toNat_lt
    refine ⟨[n / 4096, n / 64 % 64, n % 64], 1, ⟨?_, by omega, by simp, ?_⟩, rfl⟩
    · simp only [List.forall_mem_cons]
      exact ⟨by omega, by omega, by omega, by simp⟩
    · simp
      omega
  | case3 a =>
    have ha := a.toNat_lt
    refine ⟨[a.toNat / 4, a.toNat % 4 * 16], 2, ⟨?_, by omega, by simp, ?_⟩, rfl⟩
    · simp only [List.forall_mem_cons]
      exact ⟨by omega, by omega, by simp⟩
    · simp only [List.getLast?_cons_cons, List.getLast?_singleton, Option.mem_some_iff, forall_eq']
      omega
  | case4 => exact ⟨[], 0, ⟨by simp, by omega, by simp, by simp⟩, rfl⟩

theorem toList_encodeText {bytes : List UInt8} {ns : List Nat} {pads : Nat} (h : Grouped ns pads)
    (e : encode bytes = ns.map symbol ++ List.replicate pads pad) :
    (encodeText bytes).toList = ns.map letter ++ List.replicate pads '=' := by
  have hsymbols : (ns.map symbol).map (fun b => Char.ofNat b.toNat) = ns.map letter := by
    rw [List.map_map]
    exact List.map_congr_left fun n hn => letter_eq_symbol n (h.lt n hn)
  rw [encodeText, String.toList_ofList, e, List.map_append, hsymbols, List.map_replicate]
  rfl

/-- **The strict texts are those that bytes are written as.** -/
theorem isStrict_iff {s : String} : IsStrict s ↔ ∃ bytes, encodeText bytes = s := by
  constructor
  · rintro ⟨ns, pads, h, hs⟩
    obtain ⟨bytes, e⟩ := h.exists_encode_eq
    exact ⟨bytes, String.toList_inj.1 ((toList_encodeText h e).trans hs.symm)⟩
  · rintro ⟨bytes, rfl⟩
    obtain ⟨ns, pads, h, e⟩ := encode_eq_grouped bytes
    exact ⟨ns, pads, h, toList_encodeText h e⟩

end MessageHooks.Base64
