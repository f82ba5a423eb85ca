import MessageHooks.Metrics.Exposition
import MessageHooks.Proofs.Number
import Mathlib.Data.List.Basic
import Mathlib.Data.List.TakeWhile

/-!
# Reading the exposition

Whoever scrapes the metrics reads lines again, and in them names, labels and numbers. This reader
gets back what was shown, so the text says one thing only: whatever kinds are called, quotation
marks, line breaks and all, no label's value ends its line, and none is taken for another label or
for a sample.

* `readValue`, `readLabels`, `readSample?`: a value, labels, and the sample of a line; `scrape`: the
  samples of a text.
* `toList_escape`: the three replacements of an escape make one pass, character by character.
* `readValue_escape`: a value is read as it was before it was escaped.
* `Sample.readSample?_line`, `splitOn_ofLines`: a line is read as its sample, and a text as its
  lines.
* `filterMap_section`: a section is read as its samples.
-/

namespace MessageHooks

namespace Exposition

/-! ## Escapes -/

/-- What an escape makes of one character. -/
def escapeChar (c : Char) : List Char :=
  if c = '\\' then ['\\', '\\']
  else if c = '"' then ['\\', '"']
  else if c = '\n' then ['\\', 'n']
  else [c]

theorem replaceChar_flatMap {α : Type} (old : Char) (new : List Char) (f : α → List Char)
    (xs : List α) :
    replaceChar old new (xs.flatMap f) = xs.flatMap fun x => replaceChar old new (f x) :=
  List.flatMap_assoc

/-- On one character the replacements do not meet: the backslashes that the later ones bring are
never seen by the first, and their other characters are replaced by none. -/
theorem replaceChar_singleton (c : Char) :
    replaceChar '\n' ['\\', 'n'] (replaceChar '"' ['\\', '"']
      (replaceChar '\\' ['\\', '\\'] [c])) = escapeChar c := by
  unfold escapeChar
  by_cases hslash : c = '\\'
  · subst hslash
    rfl
  · by_cases hquote : c = '"'
    · subst hquote
      rfl
    · by_cases hbreak : c = '\n'
      · subst hbreak
        rfl
      · simp [replaceChar, hslash, hquote, hbreak]

theorem toList_escape (s : String) : (escape s).toList = s.toList.flatMap escapeChar := by
  have hchars : s.toList = s.toList.flatMap fun c => [c] := (List.flatMap_singleton' _).symm
  rw [escape, String.toList_ofList, hchars, replaceChar_flatMap, replaceChar_flatMap,
    replaceChar_flatMap, ← hchars]
  exact List.flatMap_congr fun c _ => replaceChar_singleton c

/-! ## Values -/

/-- A label's value after its opening quotation mark: what was escaped, up to the mark that closes
it, and what follows. -/
def readValue : List Char → Option (List Char × List Char)
  | [] => none
  | '"' :: rest => some ([], rest)
  | '\\' :: c :: rest =>
    (readValue rest).map fun r => ((if c = 'n' then '\n' else c) :: r.1, r.2)
  | c :: rest => (readValue rest).map fun r => (c :: r.1, r.2)

theorem readValue_escapeChar (c : Char) (rest : List Char) :
    readValue (escapeChar c ++ rest) = (readValue rest).map fun r => (c :: r.1, r.2) := by
  unfold escapeChar
  by_cases hslash : c = '\\'
  · subst hslash
    simp [readValue]
  · by_cases hquote : c = '"'
    · subst hquote
      simp [readValue]
    · by_cases hbreak : c = '\n'
      · subst hbreak
        simp [readValue]
      · simp [readValue, hslash, hquote, hbreak]

/-- **Reading undoes escaping**, whatever the value holds and whatever follows it. -/
theorem readValue_escape (cs rest : List Char) :
    readValue (cs.flatMap escapeChar ++ '"' :: rest) = some (cs, rest) := by
  induction cs with
  | nil => rfl
  | cons c cs ih =>
    rw [List.flatMap_cons, List.append_assoc, readValue_escapeChar, ih]
    rfl

theorem length_readValue {cs value rest : List Char} (h : readValue cs = some (value, rest)) :
    rest.length < cs.length := by
  induction cs using readValue.induct generalizing value with
  | case1 => simp [readValue] at h
  | case2 tail =>
    simp only [readValue, Option.some.injEq, Prod.mk.injEq] at h
    simp [h.2]
  | case3 c tail ih =>
    simp only [readValue, Option.map_eq_some_iff, Prod.mk.injEq] at h
    obtain ⟨r, hr, -, rfl⟩ := h
    exact Nat.lt_succ_of_lt (Nat.lt_succ_of_lt (ih hr))
  | case4 c tail hquote hescape ih =>
    simp only [readValue, Option.map_eq_some_iff, Prod.mk.injEq] at h
    obtain ⟨r, hr, -, rfl⟩ := h
    exact Nat.lt_succ_of_lt (ih hr)

/-! ## Labels -/

/-- A name that needs no quotation marks: it is not empty, and has none of the characters that end a
name, a label, the labels or a line. -/
def IsPlain (name : String) : Prop :=
  name ≠ "" ∧ '=' ∉ name.toList ∧ ',' ∉ name.toList ∧ '\x7d' ∉ name.toList ∧ '\n' ∉ name.toList

instance (name : String) : Decidable (IsPlain name) :=
  inferInstanceAs (Decidable (name ≠ "" ∧ _))

/-- The labels have plain names. Of their values nothing is asked. -/
def PlainNames (labels : Labels) : Prop := ∀ p ∈ labels, IsPlain p.1

/-- A label, and what follows. -/
def readLabel (cs : List Char) : Option ((String × String) × List Char) :=
  match cs.dropWhile (· != '=') with
  | '=' :: '"' :: rest =>
    (readValue rest).map fun r =>
      ((String.ofList (cs.takeWhile (· != '=')), String.ofList r.1), r.2)
  | _ => none

theorem length_readLabel {cs rest : List Char} {p : String × String}
    (h : readLabel cs = some (p, rest)) : rest.length < cs.length := by
  have hdrop := (List.dropWhile_suffix (· != '=') (l := cs)).length_le
  unfold readLabel at h
  split at h
  · rename_i tail htail
    simp only [Option.map_eq_some_iff, Prod.mk.injEq] at h
    obtain ⟨r, hr, -, rfl⟩ := h
    have := length_readValue hr
    simp only [htail, List.length_cons] at hdrop
    omega
  · cases h

/-- Labels up to the brace that closes them, and what follows. -/
def readLabels : List Char → Option (Labels × List Char)
  | [] => none
  | '\x7d' :: rest => some ([], rest)
  | ',' :: rest => readLabels rest
  | c :: cs =>
    match _h : readLabel (c :: cs) with
    | none => none
    | some (p, rest) => (readLabels rest).map fun r => (p :: r.1, r.2)
termination_by cs => cs.length
decreasing_by
  · exact Nat.lt_succ_self _
  · exact length_readLabel _h

theorem labelList_cons_cons (p q : String × String) (labels : Labels) :
    labelList (p :: q :: labels) = label p ++ "," ++ labelList (q :: labels) := by
  simp [labelList, String.intercalate_cons_cons]

theorem toList_label (p : String × String) :
    (label p).toList = p.1.toList ++ '=' :: '"' :: (p.2.toList.flatMap escapeChar ++ ['"']) := by
  simp [label, toList_escape]

theorem readLabel_label {p : String × String} (h : IsPlain p.1) (rest : List Char) :
    readLabel ((label p).toList ++ rest) = some (p, rest) := by
  have hname : ∀ c ∈ p.1.toList, (c != '=') = true := fun c hc => by
    simpa using fun e : c = '=' => h.2.1 (e ▸ hc)
  have hline : (label p).toList ++ rest =
      p.1.toList ++ '=' :: '"' :: (p.2.toList.flatMap escapeChar ++ '"' :: rest) := by
    simp [toList_label]
  rw [hline, readLabel, List.dropWhile_append_of_pos hname, List.takeWhile_append_of_pos hname]
  simp [readValue_escape]

theorem readLabels_label {p : String × String} (h : IsPlain p.1) (rest : List Char) :
    readLabels ((label p).toList ++ rest) =
      (readLabels rest).map fun r => (p :: r.1, r.2) := by
  have hread := readLabel_label h rest
  -- A plain name has a first character, with which neither the labels nor a label end.
  obtain ⟨c, cs, hcs⟩ : ∃ c cs, p.1.toList = c :: cs :=
    List.exists_cons_of_ne_nil fun e => h.1 (String.toList_inj.1 e)
  have hfirst : c ∈ p.1.toList := hcs ▸ List.mem_cons_self
  have hcomma : c ≠ ',' := fun e => h.2.2.1 (e ▸ hfirst)
  have hbrace : c ≠ '\x7d' := fun e => h.2.2.2.1 (e ▸ hfirst)
  obtain ⟨tail, htail⟩ : ∃ tail, (label p).toList ++ rest = c :: tail := by
    rw [toList_label, hcs]
    exact ⟨_, rfl⟩
  rw [htail] at hread ⊢
  rw [readLabels.eq_4 _ _ hbrace hcomma]
  split
  · rename_i hnone
    rw [hread] at hnone
    cases hnone
  · rename_i hsome
    rw [hread] at hsome
    cases hsome
    rfl

/-- **Labels are read as they were given**, whatever their values. -/
theorem readLabels_labelList {labels : Labels} (h : PlainNames labels) (rest : List Char) :
    readLabels ((labelList labels).toList ++ '\x7d' :: rest) = some (labels, rest) := by
  induction labels with
  | nil => simp [labelList, readLabels]
  | cons p labels ih =>
    obtain ⟨hp, hlabels⟩ := List.forall_mem_cons.1 h
    cases labels with
    | nil =>
      have hlist : labelList [p] = label p := by simp [labelList]
      rw [hlist, readLabels_label hp]
      simp [readLabels]
    | cons q labels =>
      have hlist : (labelList (p :: q :: labels)).toList ++ '\x7d' :: rest =
          (label p).toList ++ ',' :: ((labelList (q :: labels)).toList ++ '\x7d' :: rest) := by
        simp [labelList_cons_cons]
      rw [hlist, readLabels_label hp, readLabels, ih hlabels]
      rfl

/-! ## Samples -/

/-- A sample: the name of its metric, its labels and its number. -/
structure Sample where
  name : String
  labels : Labels
  value : Nat
  deriving DecidableEq

namespace Sample

/-- The line that shows a sample. -/
def line (s : Sample) : String :=
  s.name ++ "\x7b" ++ labelList s.labels ++ "\x7d " ++ toString s.value

/-- The names in a sample can be told from what stands around them: the metric's name ends at the
brace, and those of labels are plain. -/
structure IsPlain (s : Sample) : Prop where
  name : '\x7b' ∉ s.name.toList ∧ '\n' ∉ s.name.toList
  labels : PlainNames s.labels

end Sample

/-- The sample of a line, if it shows one. -/
def readSample? (line : List Char) : Option Sample :=
  match line.dropWhile (· != '\x7b') with
  | '\x7b' :: rest =>
    match readLabels rest with
    | some (labels, ' ' :: digits) => (Digits.read? 10 digits).map fun n =>
        ⟨String.ofList (line.takeWhile (· != '\x7b')), labels, n⟩
    | _ => none
  | _ => none

theorem read?_toDigits (n : Nat) : Digits.read? 10 (Nat.toDigits 10 n) = some n :=
  Digits.read?_ten_eq_some_iff.2
    ⟨Nat.toDigits_ne_nil, fun _ => Digits.isDecimal_of_mem_toDigits,
      (Digits.ofDecimal_toDigits n).symm⟩

theorem Sample.toList_line (s : Sample) : s.line.toList =
    s.name.toList ++ '\x7b' :: ((labelList s.labels).toList ++
      '\x7d' :: ' ' :: Nat.toDigits 10 s.value) := by
  simp [line, Nat.repr_eq_ofList_toDigits]

/-- **A line is read as its sample.** -/
theorem Sample.readSample?_line {s : Sample} (h : s.IsPlain) :
    readSample? s.line.toList = some s := by
  have hname : ∀ c ∈ s.name.toList, (c != '\x7b') = true := fun c hc => by
    simpa using fun e : c = '\x7b' => h.name.1 (e ▸ hc)
  rw [toList_line, readSample?, List.dropWhile_append_of_pos hname,
    List.takeWhile_append_of_pos hname]
  simp [readLabels_labelList h.labels, read?_toDigits]

theorem readSample?_eq_none {line : List Char} (h : '\x7b' ∉ line) : readSample? line = none := by
  have hdrop : line.dropWhile (· != '\x7b') = [] :=
    List.dropWhile_eq_nil_iff.2 fun c hc => by
      simpa using fun e : c = '\x7b' => h (e ▸ hc)
  rw [readSample?, hdrop]

/-! ## Lines -/

theorem break_notMem_escapeChar (c : Char) : '\n' ∉ escapeChar c := by
  unfold escapeChar
  by_cases hslash : c = '\\'
  · simp [hslash]
  · by_cases hquote : c = '"'
    · simp [hquote]
    · by_cases hbreak : c = '\n'
      · simp [hbreak]
      · simp [hslash, hquote, hbreak, Ne.symm hbreak]

theorem break_notMem_labelList {labels : Labels} (h : PlainNames labels) :
    '\n' ∉ (labelList labels).toList := by
  induction labels with
  | nil => simp [labelList]
  | cons p labels ih =>
    obtain ⟨hp, hlabels⟩ := List.forall_mem_cons.1 h
    have hlabel : '\n' ∉ (label p).toList := by
      simp [toList_label, hp.2.2.2.2, break_notMem_escapeChar]
    cases labels with
    | nil => simpa [labelList] using hlabel
    | cons q labels =>
      simp [labelList_cons_cons, hlabel, ih hlabels]

/-- **A sample is shown in one line**: nothing in it breaks the line. -/
theorem Sample.break_notMem_line {s : Sample} (h : s.IsPlain) : '\n' ∉ s.line.toList := by
  have hdigits : '\n' ∉ Nat.toDigits 10 s.value := fun hc =>
    absurd (Digits.isDecimal_of_mem_toDigits hc) (by decide)
  simp [toList_line, h.name.2, hdigits, break_notMem_labelList h.labels]

/-- A text is split into its lines, and nothing is after the last break. -/
theorem splitOn_ofLines {lines : List String} (h : ∀ line ∈ lines, '\n' ∉ line.toList) :
    (ofLines lines).toList.splitOn '\n' = lines.map String.toList ++ [[]] := by
  have htext : (ofLines lines).toList = ['\n'].intercalate (lines.map String.toList ++ [[]]) := by
    unfold ofLines
    clear h
    induction lines with
    | nil => rfl
    | cons line lines ih =>
      rw [String.toList_join] at ih ⊢
      rw [List.map_cons, List.flatMap_cons, ih, List.map_cons, List.cons_append]
      cases lines with
      | nil => simp [List.intercalate]
      | cons line' lines =>
        rw [List.map_cons, List.cons_append, List.intercalate_cons_cons]
        simp
  rw [htext]
  refine List.splitOn_intercalate '\n' (fun l hl => ?_) (by simp)
  rcases List.mem_append.1 hl with hl | hl
  · obtain ⟨line, hline, rfl⟩ := List.mem_map.1 hl
    exact h line hline
  · obtain rfl := List.mem_singleton.1 hl
    exact List.not_mem_nil

/-- The samples of a text, in the order of its lines. -/
def scrape (text : String) : List Sample := (text.toList.splitOn '\n').filterMap readSample?

theorem scrape_ofLines {lines : List String} (h : ∀ line ∈ lines, '\n' ∉ line.toList) :
    scrape (ofLines lines) = (lines.map String.toList).filterMap readSample? := by
  rw [scrape, splitOn_ofLines h, List.filterMap_append]
  simp [readSample?_eq_none]

/-! ## Sections -/

section

variable {head : String} {samples : List Sample}

theorem break_notMem_section (hhead : '\n' ∉ head.toList) (h : ∀ s ∈ samples, s.IsPlain) :
    ∀ line ∈ head :: samples.map Sample.line, '\n' ∉ line.toList := by
  refine List.forall_mem_cons.2 ⟨hhead, fun line hline => ?_⟩
  obtain ⟨s, hs, rfl⟩ := List.mem_map.1 hline
  exact Sample.break_notMem_line (h s hs)

/-- A section is read as its samples. Its head shows none. -/
theorem filterMap_section (hhead : '\x7b' ∉ head.toList) (h : ∀ s ∈ samples, s.IsPlain) :
    ((head :: samples.map Sample.line).map String.toList).filterMap readSample? = samples := by
  rw [List.map_cons, List.filterMap_cons_none (readSample?_eq_none hhead), List.map_map,
    List.filterMap_map]
  exact (List.filterMap_congr fun s hs => Sample.readSample?_line (h s hs)).trans
    List.filterMap_some

end

end Exposition

end MessageHooks
