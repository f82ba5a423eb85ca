import MessageHooks.Proofs.Schema.Part
import MessageHooks.Proofs.Schema.Spot

/-!
# The first fault of a value

`FaultAt f v` is all that is wrong with a value under a format, each fault with its spot: it looks
at every member and every element, whatever is wrong with others. Reading reports the first of these
faults, in the order of spots.

* `TextFault` to `OneOfFault`: the faults of each kind of format, given those of its parts.
* `FaultAt`: by recursion on the format. Null members of objects count as left out.
* `verdict_decode`: reading is right about what is wrong.
-/

namespace MessageHooks.Schema

/-! ## Faults of each kind of format -/

/-- What is wrong with each value. -/
abbrev Rule : Type := Json → Faults

inductive TextFault : Rule
  | kind {v : Json} (h : ∀ s, v ≠ .str s) : TextFault v .value (.wrongType (.ofJson v) textKind)

inductive FlagFault : Rule
  | kind {v : Json} (h : ∀ b, v ≠ .bool b) :
    FlagFault v .value (.wrongType (.ofJson v) "a boolean")

inductive BytesFault : Rule
  | kind {v : Json} (h : ∀ s, v ≠ .str s) : BytesFault v .value (.wrongType (.ofJson v) textKind)
  | base64 {s : String} {fault : Base64.Fault} (h : Base64.decodeText s = .error fault) :
    BytesFault (.str s) .value (.base64 fault)

/-- A number or a text, which may stand for an integer. -/
def IsNumeral : Json → Prop
  | .int _ | .float _ | .str _ => True
  | _ => False

inductive Int64Fault : Rule
  | kind {v : Json} (h : ¬IsNumeral v) : Int64Fault v .value (.wrongType (.ofJson v) int64Kind)
  | value {v : Json} (h : IsNumeral v) (hno : ∀ n : Int64, ¬SpellsInt v n.toInt) :
    Int64Fault v .value (.wrongValue (.ofJson v) int64Kind)

/-- Faults of a list are those of its elements, if it is one. -/
inductive ListFault (item : Rule) : Rule
  | kind {v : Json} (h : ∀ vs, v ≠ .arr vs) :
    ListFault item v .value (.wrongType (.ofJson v) "a sequence")
  | element {vs : List Json} {i : Nat} {v : Json} {spot : Spot} {fault : Fault}
    (hv : vs[i]? = some v) (h : item v spot fault) :
    ListFault item (.arr vs) (.inside (.element i) spot) fault

inductive OptionalFault (inner : Rule) : Rule
  | given {v : Json} {spot : Spot} {fault : Fault} (hv : v ≠ .null) (h : inner v spot fault) :
    OptionalFault inner v spot fault

/-- A record is an object or an array. What it has for a field may be at fault, and so is an
undeclared member, at its key, and the first element after those declared. -/
inductive RecordFault {ρ : Type} (name : String) (fields : Fields ρ) (field : fields.Place → Rule) :
    Rule
  | kind {v : Json} (hobj : ∀ ms, v ≠ .obj ms) (harr : ∀ vs, v ≠ .arr vs) :
    RecordFault name fields field v .value (.wrongType (.ofJson v) ("struct " ++ name))
  | undeclared {ms : Json.Object} {k : String} {v : Json} (hv : (k, v) ∈ Json.given ms)
    (hk : k ∉ fields.names) :
    RecordFault name fields field (.obj ms) (.inside (.member k) .entry)
      (.unknownField k fields.names)
  | member {ms : Json.Object} {p : fields.Place} {k : String} {v : Json} {spot : Spot}
    {fault : Fault} (hk : fields.name p = k) (hv : (k, v) ∈ Json.given ms)
    (h : field p v spot fault) :
    RecordFault name fields field (.obj ms) (.inside (.member k) spot) fault
  | element {vs : List Json} {p : fields.Place} {i : Nat} {v : Json} {spot : Spot} {fault : Fault}
    (hi : fields.position p = i) (hv : vs[i]? = some v) (h : field p v spot fault) :
    RecordFault name fields field (.arr vs) (.inside (.element i) spot) fault
  | surplus {vs : List Json} (h : fields.names.length < vs.length) :
    RecordFault name fields field (.arr vs) (.inside (.element fields.names.length) .entry)
      (.tooLong vs.length)

/-- A variant is an object with a single member, whose key marks it. -/
inductive OneOfFault {ι : Type} (tags : Tags ι) (payload : ι → Rule) : Rule
  | kind {v : Json} (hobj : ∀ ms, v ≠ .obj ms) (hstr : ∀ s, v ≠ .str s) :
    OneOfFault tags payload v .value (.wrongType (.ofJson v) "string or map")
  | count {ms : Json.Object} (h : (Json.given ms).length ≠ 1) :
    OneOfFault tags payload (.obj ms) .value (.wrongValue .map "map with a single key")
  | unknown {ms : Json.Object} {k : String} {v : Json} (hv : Json.given ms = [(k, v)])
    (hk : ∀ i, tags.key i ≠ k) :
    OneOfFault tags payload (.obj ms) (.inside (.member k) .entry) (.unknownVariant k tags.keys)
  | payload {ms : Json.Object} {i : ι} {v : Json} {spot : Spot} {fault : Fault}
    (hv : Json.given ms = [(tags.key i, v)]) (h : payload i v spot fault) :
    OneOfFault tags payload (.obj ms) (.inside (.member (tags.key i)) spot) fault
  | bare {k : String} {i : ι} (hk : tags.key i = k) :
    OneOfFault tags payload (.str k) .value (.wrongType .bareVariant "newtype variant")
  | unknownBare {k : String} (hk : ∀ i, tags.key i ≠ k) :
    OneOfFault tags payload (.str k) .value (.unknownVariant k tags.keys)

mutual

/-- The faults of a value under a format. -/
def FaultAt : {α : Type} → Format α → Rule
  | _, .text => TextFault
  | _, .flag => FlagFault
  | _, .bytes => BytesFault
  | _, .int64 => Int64Fault
  | _, .list item => ListFault (FaultAt item)
  | _, .optional inner => OptionalFault (FaultAt inner)
  | _, .record name fields _ => RecordFault name fields (FaultIn fields)
  | _, .oneOf tags payload _ => OneOfFault tags fun i => FaultAt (payload i)

/-- The faults of a value that a record has for a field. -/
def FaultIn : {ρ : Type} → (fs : Fields ρ) → fs.Place → Rule
  | _, .nil, p => Empty.elim p
  | _, .cons _ format _ rest, p =>
    match (p : Option rest.Place) with
    | none => FaultAt format
    | some p => FaultIn rest p

end

/-! ## Scalars -/

theorem verdict_text (v : Json) : Verdict (TextFault v) (readText v.prune) := by
  cases v with
  | str s => exact .sound fun _ _ h => by cases h with | kind h => exact h s rfl
  | _ => exact .stop (.kind nofun) fun _ _ h => by cases h; exact ⟨rfl, rfl⟩

theorem verdict_flag (v : Json) : Verdict (FlagFault v) (decode .flag v.prune) := by
  cases v with
  | bool b => exact .sound fun _ _ h => by cases h with | kind h => exact h b rfl
  | _ => exact .stop (.kind nofun) fun _ _ h => by cases h; exact ⟨rfl, rfl⟩

theorem verdict_bytes (v : Json) : Verdict (BytesFault v) (readBytes v.prune) := by
  cases v with
  | str s =>
    have hread : readBytes (Json.str s).prune = (Base64.decodeText s).mapError .base64 := rfl
    rw [hread]
    cases hdecode : Base64.decodeText s with
    | ok bytes =>
      refine .sound fun _ _ h => ?_
      cases h with
      | kind h => exact h s rfl
      | base64 h =>
        rw [hdecode] at h
        cases h
    | error fault =>
      refine .stop (.base64 hdecode) fun _ _ h => ?_
      cases h with
      | kind h => exact absurd rfl (h s)
      | base64 h =>
        rw [hdecode, Except.error.injEq] at h
        exact ⟨rfl, by rw [h]⟩
  | _ => exact .stop (.kind nofun) fun _ _ h => by cases h; exact ⟨rfl, rfl⟩

/-- A numeral that stands for no integer in range is at fault itself. -/
theorem readInt64_numeral {v : Json} (hv : IsNumeral v) :
    (∃ n, readInt64 v = .ok n) ∨ readInt64 v = .error (.wrongValue (.ofJson v) int64Kind) := by
  cases v with
  | int | float | str =>
    simp only [readInt64]
    split
    · exact .inl ⟨_, rfl⟩
    · exact .inr rfl
  | _ => exact hv.elim

theorem verdict_int64 (v : Json) : Verdict (Int64Fault v) (readInt64 v.prune) := by
  by_cases hv : IsNumeral v
  · have hprune : v.prune = v := by cases v <;> first | rfl | exact hv.elim
    rw [hprune]
    rcases readInt64_numeral hv with ⟨n, hn⟩ | herror
    · rw [hn]
      refine .sound fun _ _ h => ?_
      cases h with
      | kind h => exact h hv
      | value _ hno => exact hno n (readInt64_eq_ok_iff.1 hn)
    · rw [herror]
      refine .stop (.value hv fun n hn => ?_) fun _ _ h => ?_
      · rw [readInt64_eq_ok_iff.2 hn] at herror
        cases herror
      · cases h with
        | kind h => exact absurd hv h
        | value => exact ⟨rfl, rfl⟩
  · cases v with
    | int | float | str => exact absurd trivial hv
    | _ =>
      refine .stop (.kind hv) fun _ _ h => ?_
      cases h with
      | kind => exact ⟨rfl, rfl⟩
      | value h => exact absurd h hv

/-! ## Sequences of readings -/

theorem verdict_readAll {α : Type} {read : Json → Except Fault α} {R : Rule} {vs : List Json}
    (h : ∀ v ∈ vs, Verdict (R v) (read v.prune)) (n : Nat) :
    Verdict (fun spot fault => ∃ i v, vs[i]? = some v ∧ Inside (.element (n + i)) (R v) spot fault)
      (readAll read (vs.map Json.prune)) := by
  induction vs generalizing n with
  | nil => exact .sound fun _ _ ⟨_, _, hv, _⟩ => by cases hv
  | cons v vs ih =>
    obtain ⟨hv, hvs⟩ := List.forall_mem_cons.1 h
    refine ((hv.inside (.element n)).bind (fun x => (ih hvs (n + 1)).map (x :: ·)) ?_).congr ?_
    · rintro a x b y ⟨p, rfl, -⟩ ⟨i, w, -, q, rfl, -⟩
      exact .step (show n < n + 1 + i by omega)
    · intro spot fault
      constructor
      · rintro (h | ⟨i, w, hw, h⟩)
        · exact ⟨0, v, rfl, h⟩
        · exact ⟨i + 1, w, hw, by rwa [Nat.add_assoc, Nat.add_comm 1] at h⟩
      · rintro ⟨i, w, hw, h⟩
        cases i with
        | zero =>
          obtain rfl := Option.some.inj hw
          exact .inl h
        | succ i => exact .inr ⟨i, w, hw, by rwa [Nat.add_assoc, Nat.add_comm 1]⟩

theorem verdict_readRow : {ρ : Type} → (fs : Fields ρ) → {R : fs.Place → Rule} → (vs : List Json) →
    (∀ p, ∀ v ∈ vs, Verdict (R p v) (decode (fs.format p) v.prune)) → (n : Nat) →
    Verdict (fun spot fault => ∃ p v, vs[fs.position p]? = some v ∧
      Inside (.element (n + fs.position p)) (R p v) spot fault) (readRow fs (vs.map Json.prune))
  | _, .nil, _, _, _, _ => .sound fun _ _ ⟨p, _⟩ => Empty.elim p
  | _, .cons _ _ _ rest, _, [], _, _ => .sound fun _ _ ⟨_, _, hv, _⟩ => by cases hv
  | _, .cons _ format _ rest, R, v :: vs, h, n => by
    have hv : Verdict (R (none : Option rest.Place) v) (decode format v.prune) :=
      h (none : Option rest.Place) v List.mem_cons_self
    have hvs := verdict_readRow rest vs (R := fun p => R (some p : Option rest.Place))
      (fun p w hw => h (some p : Option rest.Place) w (List.mem_cons_of_mem v hw)) (n + 1)
    refine ((hv.inside (.element n)).bind (fun x => hvs.map (x, ·)) ?_).congr ?_
    · rintro a x b y ⟨p, rfl, -⟩ ⟨i, w, -, q, rfl, -⟩
      exact .step (show n < n + 1 + rest.position i by omega)
    · intro spot fault
      constructor
      · rintro (h | ⟨p, w, hw, h⟩)
        · exact ⟨(none : Option rest.Place), v, rfl, h⟩
        · refine ⟨(some p : Option rest.Place), w, hw, ?_⟩
          rwa [Nat.add_assoc, Nat.add_comm 1] at h
      · rintro ⟨p, w, hw, h⟩
        match (p : Option rest.Place), hw, h with
        | none, hw, h =>
          obtain rfl := Option.some.inj hw
          exact .inl h
        | some p, hw, h =>
          refine .inr ⟨p, w, hw, ?_⟩
          rwa [Nat.add_assoc, Nat.add_comm 1]

/-- Members are put into a row in the order of their keys. -/
theorem verdict_fill {ρ : Type} (put : String → Json → ρ → Except Fault ρ)
    {F : String → Json → Faults} {ms : Json.Object} (hs : Entries.Sorted ms)
    (h : ∀ p ∈ ms, ∀ row, Verdict (F p.1 p.2) (put p.1 p.2 row)) (row : ρ) :
    Verdict (fun spot fault => ∃ k v, (k, v) ∈ ms ∧ Inside (.member k) (F k v) spot fault)
      (fill put ms row) := by
  induction ms generalizing row with
  | nil => exact .sound fun _ _ ⟨_, _, hv, _⟩ => by cases hv
  | cons p ms ih =>
    obtain ⟨k, v⟩ := p
    obtain ⟨hlt, hms⟩ := List.pairwise_cons.1 hs
    obtain ⟨hp, hps⟩ := List.forall_mem_cons.1 h
    refine (((hp row).inside (.member k)).bind (fun row => ih hms hps row) ?_).congr ?_
    · rintro a x b y ⟨p, rfl, -⟩ ⟨l, w, hw, q, rfl, -⟩
      exact .step (lt_iff_bytesOf_lt.1 (hlt _ hw))
    · intro spot fault
      constructor
      · rintro (hF | ⟨l, w, hw, hF⟩)
        · exact ⟨k, v, List.mem_cons_self, hF⟩
        · exact ⟨l, w, List.mem_cons_of_mem _ hw, hF⟩
      · rintro ⟨l, w, hw, hF⟩
        rcases List.mem_cons.1 hw with heq | hw
        · obtain ⟨rfl, rfl⟩ := Prod.mk.inj heq
          exact .inl hF
        · exact .inr ⟨l, w, hw, hF⟩

/-! ## Members of a record -/

theorem putMember_name (declared : List String) : {ρ : Type} → {fs : Fields ρ} → fs.Proper →
    (p : fs.Place) → (v : Json) → (row : ρ) →
    putMember declared fs (fs.name p) v row =
      (decode (fs.format p) v).map fun y => fs.set p y row
  | _, .nil, _, p, _, _ => Empty.elim p
  | _, .cons name format _ rest, hfs, p, v, (x, row) => by
    rw [Fields.Proper] at hfs
    obtain ⟨hname, -, -, hrest⟩ := hfs
    obtain _ | p := p
    · exact if_pos rfl
    · have hne : name ≠ rest.name p := fun h => hname (h ▸ rest.name_mem_names p)
      have hput := putMember_name declared hrest p v row
      show putMember declared (.cons name format _ rest) (rest.name p) v (x, row) = _
      rw [putMember, if_neg hne, hput, Except.map_map]
      rfl

theorem putMember_undeclared (declared : List String) {k : String} : {ρ : Type} →
    {fs : Fields ρ} → k ∉ fs.names → (v : Json) → (row : ρ) →
    putMember declared fs k v row = .error (.unknownField k declared)
  | _, .nil, _, _, _ => rfl
  | _, .cons name _ _ rest, hk, v, (x, row) => by
    rw [Fields.names, List.mem_cons, not_or] at hk
    have hput := putMember_undeclared declared hk.2 v row
    rw [putMember, if_neg (Ne.symm hk.1), hput]
    rfl

/-- What is wrong with a member: its name, or its value. -/
def MemberFault {ρ : Type} (fs : Fields ρ) (field : fs.Place → Rule) (k : String) (v : Json) :
    Faults :=
  fun spot fault => (k ∉ fs.names ∧ spot = .entry ∧ fault = .unknownField k fs.names) ∨
    ∃ p, fs.name p = k ∧ field p v spot fault

theorem verdict_putMember {ρ : Type} {fs : Fields ρ} (hfs : fs.Proper) {field : fs.Place → Rule}
    {v : Json} (h : ∀ p, Verdict (field p v) (decode (fs.format p) v.prune)) (k : String)
    (row : ρ) : Verdict (MemberFault fs field k v) (putMember fs.names fs k v.prune row) := by
  by_cases hk : k ∈ fs.names
  · obtain ⟨p, rfl⟩ := fs.mem_names_iff.1 hk
    rw [putMember_name _ hfs]
    refine ((h p).map _).congr fun spot fault => ⟨fun hp => .inr ⟨p, rfl, hp⟩, ?_⟩
    rintro (⟨hno, -⟩ | ⟨q, hq, hp⟩)
    · exact absurd hk hno
    · obtain rfl := Fields.name_injective hfs hq
      exact hp
  · rw [putMember_undeclared _ hk]
    refine .faulty ⟨.inl ⟨hk, rfl, rfl⟩, ?_⟩
    rintro spot fault (⟨-, hspot, hfault⟩ | ⟨p, rfl, -⟩)
    · exact .inl ⟨hspot, hfault⟩
    · exact absurd (fs.name_mem_names p) hk

/-! ## Reading -/

theorem Tags.find?_eq_none_iff {ι : Type} (tags : Tags ι) {k : String} :
    tags.find? k = none ↔ ∀ i, tags.key i ≠ k := by
  rw [Option.eq_none_iff_forall_ne_some]
  exact forall_congr' fun i => not_congr tags.find?_eq_some_iff

section

variable {α : Type} {v : Json}

theorem verdict_optional {inner : Format α} {R : Rule}
    (h : Verdict (R v) (decode inner v.prune)) :
    Verdict (OptionalFault R v) (decode (.optional inner) v.prune) := by
  rw [decode, Json.isNull_prune]
  cases hnull : v.isNull with
  | true =>
    refine .sound fun _ _ hF => ?_
    cases hF with | given hne => exact hne (Json.isNull_iff.1 hnull)
  | false =>
    have hne : v ≠ .null := fun heq => by rw [heq] at hnull; cases hnull
    refine (h.map some).congr fun spot fault => ⟨.given hne, fun hF => ?_⟩
    cases hF with | given _ hp => exact hp

variable (hv : v.WellFormed)
include hv

theorem verdict_list {item : Format α} {R : Rule}
    (h : ∀ w : Json, w.WellFormed → Verdict (R w) (decode item w.prune)) :
    Verdict (ListFault R v) (decode (.list item) v.prune) := by
  cases v with
  | arr vs =>
    have hread := verdict_readAll (fun w hw => h w (Json.wellFormed_arr.1 hv w hw)) 0
    rw [← Json.pruneItems_eq] at hread
    refine hread.congr fun spot fault => ?_
    simp only [Nat.zero_add]
    constructor
    · rintro ⟨i, w, hw, p, rfl, hp⟩
      exact .element hw hp
    · intro hF
      cases hF with
      | kind hno => exact absurd rfl (hno vs)
      | element hw hp => exact ⟨_, _, hw, _, rfl, hp⟩
  | _ => exact .stop (.kind nofun) fun _ _ h => by cases h; exact ⟨rfl, rfl⟩

theorem verdict_record {ρ : Type} {name : String} {fs : Fields ρ} {shape : Shape α ρ}
    (hfs : fs.Proper) {field : fs.Place → Rule}
    (h : ∀ p, ∀ w : Json, w.WellFormed → Verdict (field p w) (decode (fs.format p) w.prune)) :
    Verdict (RecordFault name fs field v) (decode (.record name fs shape) v.prune) := by
  cases v with
  | obj ms =>
    obtain ⟨hs, hms⟩ := Json.wellFormed_obj.1 hv
    have hmember : ∀ m ∈ Json.given ms, ∀ row,
        Verdict (MemberFault fs field m.1 m.2) (putMember fs.names fs m.1 m.2.prune row) :=
      fun m hm => verdict_putMember hfs (fun p => h p m.2 (hms m (Json.mem_given.1 hm).1)) m.1
    have hfill := verdict_fill (fun k v => putMember fs.names fs k v.prune)
      (F := MemberFault fs field) (Json.sorted_given hs) hmember fs.blankRow
    have hdecode : decode (.record name fs shape) (Json.obj ms).prune =
        (fill (fun k v => putMember fs.names fs k v.prune) (Json.given ms) fs.blankRow).map
          shape.ofRow := by
      simp only [decode, Json.prune, Json.pruneMembers_eq, fill_map]
    rw [hdecode]
    refine (hfill.map shape.ofRow).congr fun spot fault => ⟨?_, fun hF => ?_⟩
    · rintro ⟨k, w, hw, q, rfl, ⟨hk, rfl, rfl⟩ | ⟨p, rfl, hp⟩⟩
      · exact .undeclared hw hk
      · exact .member rfl hw hp
    · cases hF with
      | kind hobj => exact absurd rfl (hobj ms)
      | undeclared hw hk => exact ⟨_, _, hw, _, rfl, .inl ⟨hk, rfl, rfl⟩⟩
      | member hk hw hp => exact ⟨_, _, hw, _, rfl, .inr ⟨_, hk, hp⟩⟩
  | arr vs =>
    have hrow := verdict_readRow fs vs
      (fun p w hw => h p w (Json.wellFormed_arr.1 hv w hw)) 0
    have hdecode : decode (.record name fs shape) (Json.arr vs).prune =
        (readRow fs (vs.map Json.prune)).bind fun row =>
          if vs.length ≤ fs.names.length then .ok (shape.ofRow row)
          else .error (.tooLong vs.length) := by
      simp only [decode, Json.prune, Json.pruneItems_eq, List.length_map]
    -- surplus elements are met last, so their fault comes after all those of the row
    let Surplus : Faults := fun spot fault => fs.names.length < vs.length ∧
      spot = .inside (.element fs.names.length) .entry ∧ fault = .tooLong vs.length
    have hlength : ∀ row, Verdict Surplus (if vs.length ≤ fs.names.length then
        .ok (shape.ofRow row) else .error (.tooLong vs.length)) := fun row => by
      by_cases hlen : vs.length ≤ fs.names.length
      · rw [if_pos hlen]
        exact .sound fun _ _ hF => Nat.not_lt_of_le hlen hF.1
      · rw [if_neg hlen]
        exact .faulty ⟨⟨Nat.lt_of_not_le hlen, rfl, rfl⟩, fun _ _ hF => .inl hF.2⟩
    rw [hdecode]
    refine (hrow.bind hlength ?_).congr fun spot fault => ⟨?_, fun hF => ?_⟩
    · rintro a x b y ⟨p, w, -, q, rfl, -⟩ ⟨-, rfl, -⟩
      rw [Nat.zero_add]
      exact .step (fs.position_lt p)
    · simp only [Nat.zero_add]
      rintro (⟨p, w, hw, q, rfl, hp⟩ | ⟨hlt, rfl, rfl⟩)
      · exact .element rfl hw hp
      · exact .surplus hlt
    · simp only [Nat.zero_add]
      cases hF with
      | kind _ harr => exact absurd rfl (harr vs)
      | element hi hw hp =>
        subst hi
        exact .inl ⟨_, _, hw, _, rfl, hp⟩
      | surplus hlt => exact .inr ⟨hlt, rfl, rfl⟩
  | _ => exact .stop (.kind nofun nofun) fun _ _ h => by cases h; exact ⟨rfl, rfl⟩

omit hv in
theorem verdict_count {ι : Type} {tags : Tags ι} {R : ι → Rule} {ms : Json.Object}
    (h : (Json.given ms).length ≠ 1) :
    Verdict (OneOfFault tags R (.obj ms))
      (.error (.wrongValue .map "map with a single key") : Except Fault α) := by
  refine .stop (.count h) fun _ _ hF => ?_
  cases hF with
  | kind hobj => exact absurd rfl (hobj ms)
  | count => exact ⟨rfl, rfl⟩
  | unknown hw | payload hw => exact absurd (congrArg List.length hw) h

omit hv in
theorem verdict_unknown {ι : Type} {tags : Tags ι} {R : ι → Rule} {ms : Json.Object} {k : String}
    {w : Json} (hw : Json.given ms = [(k, w)]) (hk : ∀ i, tags.key i ≠ k) :
    Verdict (OneOfFault tags R (.obj ms))
      (.error (.unknownVariant k tags.keys) : Except Fault α) := by
  refine .faulty ⟨.unknown hw hk, fun spot fault hF => ?_⟩
  cases hF with
  | kind hobj => exact absurd rfl (hobj ms)
  | count hcount => exact absurd (congrArg List.length hw) hcount
  | unknown hw' =>
    obtain ⟨rfl, -⟩ := Prod.mk.inj (List.singleton_inj.1 (hw.symm.trans hw'))
    exact .inl ⟨rfl, rfl⟩
  | @payload _ i _ _ _ hw' =>
    obtain ⟨hkey, -⟩ := Prod.mk.inj (List.singleton_inj.1 (hw.symm.trans hw'))
    exact absurd hkey.symm (hk i)

omit hv in
theorem verdict_payload {ι : Type} {tags : Tags ι} {R : ι → Rule} {ms : Json.Object} {i : ι}
    {w : Json} (hw : Json.given ms = [(tags.key i, w)]) {r : Except Fault α}
    (h : Verdict (R i w) r) : Verdict (OneOfFault tags R (.obj ms)) r := by
  refine (h.inside (.member (tags.key i))).congr fun spot fault => ⟨?_, fun hF => ?_⟩
  · rintro ⟨p, rfl, hp⟩
    exact .payload hw hp
  · cases hF with
    | kind hobj => exact absurd rfl (hobj ms)
    | count hcount => exact absurd (congrArg List.length hw) hcount
    | unknown hw' hk =>
      obtain ⟨hkey, -⟩ := Prod.mk.inj (List.singleton_inj.1 (hw.symm.trans hw'))
      exact absurd hkey (hk i)
    | payload hw' hp =>
      obtain ⟨hkey, rfl⟩ := Prod.mk.inj (List.singleton_inj.1 (hw.symm.trans hw'))
      obtain rfl := tags.key_injective hkey
      exact ⟨_, rfl, hp⟩

theorem verdict_oneOf {ι : Type} {τ : ι → Type} {tags : Tags ι} {payload : (i : ι) → Format (τ i)}
    {shape : Shape α (Sigma τ)} {R : ι → Rule}
    (h : ∀ i, ∀ w : Json, w.WellFormed → Verdict (R i w) (decode (payload i) w.prune)) :
    Verdict (OneOfFault tags R v) (decode (.oneOf tags payload shape) v.prune) := by
  cases v with
  | obj ms =>
    have hms := (Json.wellFormed_obj.1 hv).2
    rw [Json.prune, Json.pruneMembers_eq]
    cases hgiven : Json.given ms with
    | nil => exact verdict_count (by rw [hgiven]; exact Nat.zero_ne_one)
    | cons m rest =>
      obtain ⟨k, w⟩ := m
      cases rest with
      | nil =>
        have hw : w.WellFormed := hms (k, w) (Json.mem_given.1 (by rw [hgiven]; simp)).1
        rw [List.map_singleton, decode]
        cases hfind : tags.find? k with
        | none => exact verdict_unknown hgiven (tags.find?_eq_none_iff.1 hfind)
        | some i =>
          obtain rfl := tags.find?_eq_some_iff.1 hfind
          exact verdict_payload hgiven ((h i w hw).map _)
      | cons m' rest => exact verdict_count (by rw [hgiven]; simp)
  | str k =>
    rw [Json.prune, decode]
    cases hfind : tags.find? k with
    | none =>
      have hk := tags.find?_eq_none_iff.1 hfind
      refine .stop (.unknownBare hk) fun _ _ hF => ?_
      cases hF with
      | kind _ hstr => exact absurd rfl (hstr k)
      | bare hi => exact absurd hi (hk _)
      | unknownBare => exact ⟨rfl, rfl⟩
    | some i =>
      have hi := tags.find?_eq_some_iff.1 hfind
      refine .stop (.bare hi) fun _ _ hF => ?_
      cases hF with
      | kind _ hstr => exact absurd rfl (hstr k)
      | bare => exact ⟨rfl, rfl⟩
      | unknownBare hk => exact absurd hi (hk i)
  | _ => exact .stop (.kind nofun nofun) fun _ _ h => by cases h; exact ⟨rfl, rfl⟩

end

mutual

/-- **Reading is right about what is wrong**: it succeeds where nothing is, and else reports the
first fault. -/
theorem verdict_decode : {α : Type} → (f : Format α) → f.Proper → (v : Json) → v.WellFormed →
    Verdict (FaultAt f v) (decode f v.prune)
  | _, .text, _, v, _ => verdict_text v
  | _, .flag, _, v, _ => verdict_flag v
  | _, .bytes, _, v, _ => verdict_bytes v
  | _, .int64, _, v, _ => verdict_int64 v
  | _, .list item, hf, _, hv => verdict_list hv fun w hw => verdict_decode item hf.2 w hw
  | _, .optional inner, hf, v, hv => verdict_optional (verdict_decode inner hf.2 v hv)
  | _, .record _ fields _, hf, _, hv =>
    verdict_record hv hf fun p w hw => verdict_field fields hf p w hw
  | _, .oneOf _ payload _, hf, _, hv =>
    verdict_oneOf hv fun i w hw => verdict_decode (payload i) (hf i).2 w hw

theorem verdict_field : {ρ : Type} → (fs : Fields ρ) → fs.Proper → (p : fs.Place) → (v : Json) →
    v.WellFormed → Verdict (FaultIn fs p v) (decode (fs.format p) v.prune)
  | _, .nil, _, p, _, _ => Empty.elim p
  | _, .cons _ format _ rest, hfs, p, v, hv =>
    match (p : Option rest.Place) with
    | none => verdict_decode format hfs.2.1 v hv
    | some p => verdict_field rest hfs.2.2.2 p v hv

end

end MessageHooks.Schema
