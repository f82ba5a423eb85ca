import MessageHooks.Proofs.Base64
import Mathlib.Logic.Basic

/-!
# Texts that stand for no bytes

Strict texts are told by how they are put together; here is what can be wrong with a text, one
defect at a time. A text without any of them is strict, so these are all.

* `Base64.Padded`: a text as its symbols and the padding after them.
* `Base64.Malformed`: the defects of a text; `Base64.malformed_iff`: the texts without one are the
  strict ones.
-/

namespace MessageHooks.Base64

/-! ## Alphabet -/

theorem letter_ne_pad : ∀ n < 64, letter n ≠ '=' := by decide +kernel

theorem letter_mem_alphabet : ∀ n < 64, letter n ∈ alphabet.toList := by decide +kernel

theorem letter_injective : ∀ m < 64, ∀ n < 64, letter m = letter n → m = n := by decide +kernel

theorem exists_letter {c : Char} (h : c ∈ alphabet.toList) : ∃ n < 64, letter n = c := by
  have hlength : alphabet.toList.length = 64 := by decide
  obtain ⟨n, hn, rfl⟩ := List.mem_iff_getElem.1 h
  refine ⟨n, hlength ▸ hn, ?_⟩
  rw [letter, List.getD_eq_getElem?_getD, List.getElem?_eq_getElem hn, Option.getD_some]

/-- Neither white space nor what other alphabets have in the places of the last two symbols. -/
theorem not_mem_alphabet {c : Char} (h : c ∈ alphabet.toList) :
    c.isWhitespace = false ∧ c ≠ '-' ∧ c ≠ '_' := by
  have hletters : ∀ n < 64, (letter n).isWhitespace = false ∧ letter n ≠ '-' ∧ letter n ≠ '_' := by
    decide +kernel
  obtain ⟨n, hn, rfl⟩ := exists_letter h
  exact hletters n hn

theorem exists_letters {cs : List Char} (h : ∀ c ∈ cs, c ∈ alphabet.toList) :
    ∃ ns : List Nat, (∀ n ∈ ns, n < 64) ∧ ns.map letter = cs := by
  induction cs with
  | nil => exact ⟨[], nofun, rfl⟩
  | cons c cs ih =>
    obtain ⟨hc, hcs⟩ := List.forall_mem_cons.1 h
    obtain ⟨n, hn, hletter⟩ := exists_letter hc
    obtain ⟨ns, hns, hletters⟩ := ih hcs
    exact ⟨n :: ns, List.forall_mem_cons.2 ⟨hn, hns⟩, by rw [List.map_cons, hletter, hletters]⟩

/-! ## Padding -/

/-- A text as its symbols and the padding after them. -/
structure Padded (s : String) (body : List Char) (pads : Nat) : Prop where
  eq : s.toList = body ++ List.replicate pads '='
  bare : ∀ c ∈ body, c ≠ '='

/-- How many padding symbols belong after some symbols: as many as fill the last group. -/
def due (body : List Char) : Nat := (4 - body.length % 4) % 4

theorem Padded.unique {s : String} {body body' : List Char} {pads pads' : Nat}
    (h : Padded s body pads) (h' : Padded s body' pads') : body = body' ∧ pads = pads' := by
  have hcut : ∀ {body : List Char} {pads : Nat}, Padded s body pads →
      s.toList.filter (· ≠ '=') = body := fun {body pads} h => by
    rw [h.eq, List.filter_append, List.filter_eq_self.2 fun c hc => by simpa using h.bare c hc,
      List.filter_eq_nil_iff.2 fun c hc => by simp [List.eq_of_mem_replicate hc], List.append_nil]
  obtain rfl : body = body' := (hcut h).symm.trans (hcut h')
  have hlength := congrArg List.length (h.eq.symm.trans h'.eq)
  simp only [List.length_append, List.length_replicate] at hlength
  exact ⟨rfl, by omega⟩

/-- Characters that have nothing but padding after the first padding symbol. -/
theorem exists_padding {cs : List Char}
    (h : ∀ (i j : Nat) (c : Char), i < j → cs[i]? = some '=' → cs[j]? = some c → c = '=') :
    ∃ body pads, cs = body ++ List.replicate pads '=' ∧ ∀ c ∈ body, c ≠ '=' := by
  induction cs with
  | nil => exact ⟨[], 0, rfl, nofun⟩
  | cons c cs ih =>
    by_cases hc : c = '='
    · subst hc
      refine ⟨[], cs.length + 1, List.eq_replicate_iff.2 ⟨rfl, ?_⟩, nofun⟩
      refine List.forall_mem_cons.2 ⟨rfl, fun d hd => ?_⟩
      obtain ⟨j, hj⟩ := List.mem_iff_getElem?.1 hd
      exact h 0 (j + 1) d (Nat.zero_lt_succ j) rfl hj
    · obtain ⟨body, pads, rfl, hbare⟩ := ih fun i j d hlt hi hj =>
        h (i + 1) (j + 1) d (Nat.succ_lt_succ hlt) hi hj
      exact ⟨c :: body, pads, rfl, List.forall_mem_cons.2 ⟨hc, hbare⟩⟩

/-! ## Defects -/

/-- What is wrong with a text: a character that is no symbol, padding before the third place of a
group or before other characters, too little or too much of it, a last group that is not whole, or
bits of the last symbol that belong to no byte and are not zero. -/
inductive Malformed (s : String) : Prop
  | foreign {c : Char} (h : c ∈ s.toList) (hpad : c ≠ '=') (halphabet : c ∉ alphabet.toList)
  | early {i : Nat} (h : s.toList[i]? = some '=') (hplace : i % 4 < 2)
  | inside {i j : Nat} {c : Char} (hlt : i < j) (h : s.toList[i]? = some '=')
    (hc : s.toList[j]? = some c) (hpad : c ≠ '=')
  | missing {body : List Char} {pads : Nat} (h : Padded s body pads) (hlt : pads < due body)
  | surplus {body : List Char} {pads : Nat} (h : Padded s body pads) (hlt : due body < pads)
  | length (h : ¬4 ∣ s.length)
  | unused {body : List Char} {pads n : Nat} (h : Padded s body pads) (hn : n < 64)
    (hlast : body.getLast? = some (letter n)) (hbits : ¬4 ^ pads ∣ n)

theorem Grouped.padded {s : String} {ns : List Nat} {pads : Nat} (h : Grouped ns pads)
    (hs : s.toList = ns.map letter ++ List.replicate pads '=') : Padded s (ns.map letter) pads :=
  ⟨hs, List.forall_mem_map.2 fun n hn => letter_ne_pad n (h.lt n hn)⟩

theorem Grouped.due_eq {ns : List Nat} {pads : Nat} (h : Grouped ns pads) :
    due (ns.map letter) = pads := by
  have hwhole := h.whole
  have hpads := h.pads_le
  rw [due, List.length_map]
  omega

theorem Padded.le_of_pad {s : String} {body : List Char} {pads i : Nat} (h : Padded s body pads)
    (hi : s.toList[i]? = some '=') : body.length ≤ i ∧ i < body.length + pads := by
  have hlt : i < body.length + pads := by
    obtain ⟨hlt, -⟩ := List.getElem?_eq_some_iff.1 hi
    rw [h.eq, List.length_append, List.length_replicate] at hlt
    exact hlt
  refine ⟨Nat.le_of_not_lt fun hbody => ?_, hlt⟩
  rw [h.eq, List.getElem?_append_left hbody] at hi
  exact h.bare '=' (List.mem_of_getElem? hi) rfl

theorem IsStrict.not_malformed {s : String} (h : IsStrict s) : ¬Malformed s := by
  obtain ⟨ns, pads, hgrouped, hs⟩ := h
  have hwhole := hgrouped.whole
  have hle := hgrouped.pads_le
  have hpadded := hgrouped.padded hs
  intro hbad
  -- a text falls into symbols and padding in one way, so a defect speaks of those at hand
  cases hbad with
  | foreign hc hpad halphabet =>
    rw [hs, List.mem_append, List.mem_map] at hc
    rcases hc with ⟨n, hn, rfl⟩ | hc
    · exact halphabet (letter_mem_alphabet n (hgrouped.lt n hn))
    · exact hpad (List.eq_of_mem_replicate hc)
  | early hi hplace =>
    obtain ⟨hfrom, hto⟩ := hpadded.le_of_pad hi
    rw [List.length_map] at hfrom hto
    omega
  | inside hlt hi hc hpad =>
    have hfrom := (hpadded.le_of_pad hi).1
    rw [hs, List.getElem?_append_right (Nat.le_trans hfrom (Nat.le_of_lt hlt))] at hc
    exact hpad (List.eq_of_mem_replicate (List.mem_of_getElem? hc))
  | missing hp hlt =>
    obtain ⟨rfl, rfl⟩ := hp.unique hpadded
    rw [hgrouped.due_eq] at hlt
    exact Nat.lt_irrefl _ hlt
  | surplus hp hlt =>
    obtain ⟨rfl, rfl⟩ := hp.unique hpadded
    rw [hgrouped.due_eq] at hlt
    exact Nat.lt_irrefl _ hlt
  | length hlength =>
    refine hlength ?_
    rw [← String.length_toList, hs, List.length_append, List.length_map, List.length_replicate]
    exact hwhole
  | unused hp hn hlast hbits =>
    obtain ⟨rfl, rfl⟩ := hp.unique hpadded
    rw [List.getLast?_map, Option.map_eq_some_iff] at hlast
    obtain ⟨m, hm, hletter⟩ := hlast
    obtain rfl := letter_injective m (hgrouped.lt m (List.mem_of_getLast? hm)) _ hn hletter
    exact hbits (hgrouped.unused m hm)

theorem isStrict_of_not_malformed {s : String} (h : ¬Malformed s) : IsStrict s := by
  have hend : ∀ (i j : Nat) (c : Char), i < j → s.toList[i]? = some '=' →
      s.toList[j]? = some c → c = '=' := fun i j c hlt hi hc =>
    by_contra fun hpad => h (.inside hlt hi hc hpad)
  obtain ⟨body, pads, hs, hbare⟩ := exists_padding hend
  have hpadded : Padded s body pads := ⟨hs, hbare⟩
  have halphabet : ∀ c ∈ body, c ∈ alphabet.toList := fun c hc => by
    have hmem : c ∈ s.toList := by
      rw [hpadded.eq]
      exact List.mem_append_left _ hc
    exact by_contra fun hnot => h (.foreign hmem (hpadded.bare c hc) hnot)
  obtain ⟨ns, hlt, rfl⟩ := exists_letters halphabet
  have hpads : pads = (4 - ns.length % 4) % 4 := by
    have hmissing : ¬pads < due (ns.map letter) := fun hlt => h (.missing hpadded hlt)
    have hsurplus : ¬due (ns.map letter) < pads := fun hlt => h (.surplus hpadded hlt)
    rw [due, List.length_map] at hmissing hsurplus
    omega
  -- Three padding symbols would begin at the second place of their group.
  have hle : pads ≤ 2 := by
    refine Nat.le_of_not_lt fun hmany => h (.early (i := ns.length) ?_ (by omega))
    rw [hpadded.eq, List.getElem?_append_right (Nat.le_of_eq (List.length_map _)),
      List.length_map, Nat.sub_self, List.getElem?_replicate, if_pos (by omega)]
  refine ⟨ns, pads, ⟨hlt, hle, by omega, fun n hn => ?_⟩, hpadded.eq⟩
  have hlast : (ns.map letter).getLast? = some (letter n) := by
    rw [List.getLast?_map, Option.mem_def.1 hn]
    rfl
  exact by_contra fun hbits => h (.unused hpadded (hlt n (List.mem_of_getLast? hn)) hlast hbits)

/-- **The texts with a defect are those that are not strict.** -/
theorem malformed_iff {s : String} : Malformed s ↔ ¬IsStrict s :=
  ⟨fun h hs => hs.not_malformed h, fun h => by_contra fun hno => h (isStrict_of_not_malformed hno)⟩

/-- White space is a defect, and so are the symbols of other alphabets. -/
theorem malformed_of_mem {s : String} {c : Char} (h : c ∈ s.toList)
    (hc : c.isWhitespace = true ∨ c = '-' ∨ c = '_') : Malformed s := by
  have halphabet : c ∉ alphabet.toList := fun hmem => by
    obtain ⟨hspace, hminus, hunderscore⟩ := not_mem_alphabet hmem
    rcases hc with hc | hc | hc
    · rw [hspace] at hc
      cases hc
    · exact hminus hc
    · exact hunderscore hc
  refine .foreign h (fun hpad => ?_) halphabet
  subst hpad
  revert hc
  decide

end MessageHooks.Base64
