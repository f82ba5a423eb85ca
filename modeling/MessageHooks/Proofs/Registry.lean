import MessageHooks.Proofs.ByteOrder
import MessageHooks.Registry
import Mathlib.Data.List.Induction
import Mathlib.Data.List.Sort

/-!
# The registry as a partial map

A registry is told to bind hooks and to take bindings away, and is asked what is bound. It answers
as a partial map from phase and kind to hook: what is found under a key is what the last command
that wrote to this key put there.

* `Registry.Command`, `Registry.answer`: everything a registry is told, and what it answers.
* `Registry.LastBound`: the last command that wrote to a key bound a hook there.
* `Registry.lookup_after`: this hook is found, and nothing else.
* `Registry.Due`: the answer that is due after the commands so far; `Registry.answer_due`: it is
  given.
* `Registry.Listing`: tables of kinds in no order; `Registry.Listing.sorted_eq`: they are listed in
  the order of `registered`.
-/

namespace MessageHooks

variable {H : Type}

namespace Registry

/-! ## Commands -/

/-- A command to a registry. The last two only ask. -/
inductive Command (H : Type) where
  | register (phase : Phase) (kind : String) (hook : H)
  | registerBefore (kind : String) (hook : H)
  | registerAfter (kind : String) (hook : H)
  | unregister (phase : Phase) (kind : String)
  | lookup (phase : Phase) (kind : String)
  | registered

/-- What a registry answers: nothing, the hook that was bound before, whether one was, the hook that
is bound, or all bound pairs. -/
inductive Answer (H : Type) where
  | nothing
  | previous (hook : Option H)
  | removed (bound : Bool)
  | found (hook : Option H)
  | pairs (bound : List (Phase × String))

/-- The key that a command writes to, and the hook that is bound there from then on, if any. -/
def Command.write? : Command H → Option ((Phase × String) × Option H)
  | .register phase kind hook => some ((phase, kind), some hook)
  | .registerBefore kind hook => some ((.before, kind), some hook)
  | .registerAfter kind hook => some ((.after, kind), some hook)
  | .unregister phase kind => some ((phase, kind), none)
  | .lookup .. | .registered => none

def answer (r : Registry H) : Command H → Answer H × Registry H
  | .register phase kind hook => (.previous (r.lookup phase kind), r.register phase kind hook)
  | .registerBefore kind hook => (.nothing, r.register .before kind hook)
  | .registerAfter kind hook => (.nothing, r.register .after kind hook)
  | .unregister phase kind => (.removed (r.lookup phase kind).isSome, r.unregister phase kind)
  | .lookup phase kind => (.found (r.lookup phase kind), r)
  | .registered => (.pairs r.registered, r)

/-- The registry after commands in order. -/
def after (r : Registry H) (cs : List (Command H)) : Registry H :=
  cs.foldl (fun r c => (r.answer c).2) r

theorem after_append (r : Registry H) (cs cs' : List (Command H)) :
    r.after (cs ++ cs') = (r.after cs).after cs' :=
  List.foldl_append

def transcript (r : Registry H) : List (Command H) → List (Command H × Answer H)
  | [] => []
  | c :: cs => (c, (r.answer c).1) :: (r.answer c).2.transcript cs

theorem transcript_append (r : Registry H) (cs cs' : List (Command H)) :
    r.transcript (cs ++ cs') = r.transcript cs ++ (r.after cs).transcript cs' := by
  induction cs generalizing r with
  | nil => rfl
  | cons c cs ih => exact congrArg (_ :: ·) (ih _)

theorem map_fst_transcript (r : Registry H) (cs : List (Command H)) :
    (r.transcript cs).map Prod.fst = cs := by
  induction cs generalizing r with
  | nil => rfl
  | cons c cs ih => exact congrArg (c :: ·) (ih _)

theorem answer_of_read {r : Registry H} {c : Command H} (h : c.write? = none) :
    (r.answer c).2 = r := by
  cases c with
  | lookup | registered => rfl
  | register | registerBefore | registerAfter | unregister => cases h

/-- What is only asked in between makes no difference. -/
theorem after_filter_writes (r : Registry H) (cs : List (Command H)) :
    r.after (cs.filter fun c => c.write?.isSome) = r.after cs := by
  induction cs generalizing r with
  | nil => rfl
  | cons c cs ih =>
    show _ = (r.answer c).2.after cs
    cases h : c.write? with
    | none => rw [List.filter_cons_of_neg (by simp [h]), ih, answer_of_read h]
    | some write =>
      rw [List.filter_cons_of_pos (by simp [h])]
      exact ih _

/-! ## One step -/

theorem lookup_answer_self (r : Registry H) {c : Command H} {phase : Phase} {kind : String}
    {o : Option H} (h : c.write? = some ((phase, kind), o)) :
    (r.answer c).2.lookup phase kind = o := by
  cases c with
  | register | registerBefore | registerAfter =>
    cases h
    exact r.lookup_register_self _ _ _
  | unregister =>
    cases h
    exact r.lookup_unregister_self _ _
  | lookup | registered => cases h

/-- **A command leaves every other key alone**, of the same phase or of the other. -/
theorem lookup_answer_of_ne (r : Registry H) {c : Command H} {phase : Phase} {kind : String}
    (h : ∀ o, c.write? ≠ some ((phase, kind), o)) :
    (r.answer c).2.lookup phase kind = r.lookup phase kind := by
  have hne {key : Phase × String} {o : Option H} (hc : c.write? = some (key, o)) :
      (phase, kind) ≠ key := fun e => h o (e ▸ hc)
  cases c with
  | register | registerBefore | registerAfter => exact r.lookup_register_of_ne _ (hne rfl)
  | unregister => exact r.lookup_unregister_of_ne (hne rfl)
  | lookup | registered => rfl

/-! ## All steps -/

/-- The last command that wrote to a key bound this hook there. -/
def LastBound (cs : List (Command H)) (phase : Phase) (kind : String) (hook : H) : Prop :=
  ∃ earlier c later, cs = earlier ++ c :: later ∧
    c.write? = some ((phase, kind), some hook) ∧
    ∀ c' ∈ later, ∀ o, c'.write? ≠ some ((phase, kind), o)

theorem not_lastBound_nil (phase : Phase) (kind : String) (hook : H) :
    ¬ LastBound [] phase kind hook := by
  rintro ⟨earlier, c, later, h, -⟩
  simp at h

/-- One more command binds the hook, or leaves the key to those before it. -/
theorem lastBound_concat_iff {cs : List (Command H)} {c : Command H} {phase : Phase}
    {kind : String} {hook : H} : LastBound (cs ++ [c]) phase kind hook ↔
      c.write? = some ((phase, kind), some hook) ∨
        (∀ o, c.write? ≠ some ((phase, kind), o)) ∧ LastBound cs phase kind hook := by
  constructor
  · rintro ⟨earlier, c', later, h, hbinds, hlater⟩
    rcases later.eq_nil_or_concat' with rfl | ⟨later, last, rfl⟩
    · obtain ⟨-, hc⟩ := List.append_inj' h rfl
      exact .inl ((List.cons.inj hc).1 ▸ hbinds)
    · rw [← List.cons_append, ← List.append_assoc] at h
      obtain ⟨rfl, hlast⟩ := List.append_inj' h rfl
      obtain rfl := (List.cons.inj hlast).1
      obtain ⟨hrest, hc⟩ := List.forall_mem_append.1 hlater
      exact .inr ⟨hc c List.mem_cons_self, earlier, c', later, rfl, hbinds, hrest⟩
  · rintro (hbinds | ⟨hc, earlier, c', later, rfl, hbinds, hlater⟩)
    · exact ⟨cs, c, [], rfl, hbinds, nofun⟩
    · refine ⟨earlier, c', later ++ [c], by simp, hbinds, List.forall_mem_append.2 ⟨hlater, ?_⟩⟩
      simpa using hc

/-- **What is found is what was bound last.** -/
theorem lookup_after (cs : List (Command H)) (phase : Phase) (kind : String) (hook : H) :
    (empty.after cs).lookup phase kind = some hook ↔ LastBound cs phase kind hook := by
  -- From the last command back: whatever it is, it decides about the keys that it writes to.
  induction cs using List.reverseRecOn with
  | nil => exact iff_of_false nofun (not_lastBound_nil phase kind hook)
  | append_singleton cs c ih =>
    have hstep : empty.after (cs ++ [c]) = ((empty.after cs).answer c).2 := after_append _ _ _
    rw [hstep, lastBound_concat_iff, ← ih]
    by_cases hc : ∃ o, c.write? = some ((phase, kind), o)
    · obtain ⟨o, hc⟩ := hc
      rw [lookup_answer_self _ hc, hc]
      simp
    · have hother : ∀ o, c.write? ≠ some ((phase, kind), o) := not_exists.1 hc
      rw [lookup_answer_of_ne _ hother]
      simp [hother]

theorem isSome_lookup_after (cs : List (Command H)) (phase : Phase) (kind : String) :
    ((empty.after cs).lookup phase kind).isSome ↔ ∃ hook, LastBound cs phase kind hook := by
  simp only [Option.isSome_iff_exists, lookup_after]

/-! ## The bound pairs -/

/-- A pair comes before another: by the bytes of its kind, and of one kind the after hook first. -/
def Precedes (a b : Phase × String) : Prop :=
  bytesOf a.2 < bytesOf b.2 ∨ a.2 = b.2 ∧ a.1 = .after ∧ b.1 = .before

theorem mem_registered_iff (r : Registry H) {phase : Phase} {kind : String} :
    (phase, kind) ∈ r.registered ↔ (r.lookup phase kind).isSome := by
  simp only [registered, List.mem_map, Prod.mk.injEq, Prod.exists, lookup,
    Option.isSome_iff_exists, ← SortedMap.mem_keys_iff]
  constructor
  · rintro ⟨kind', phase', h, rfl, rfl⟩
    exact h
  · exact fun h => ⟨kind, phase, h, rfl, rfl⟩

theorem pairwise_registered (r : Registry H) : r.registered.Pairwise Precedes := by
  rw [registered, List.pairwise_map]
  refine r.bindings.keys_ascending.imp fun {k l} h => ?_
  rcases KeyOrder.ltPair_iff.1 h with hkind | ⟨hkind, hphase⟩
  · exact .inl (lt_iff_bytesOf_lt.1 hkind)
  · refine .inr ⟨hkind, ?_⟩
    obtain ⟨kind, phase⟩ := k
    obtain ⟨kind', phase'⟩ := l
    cases phase <;> cases phase' <;> first | exact ⟨rfl, rfl⟩ | cases hphase

theorem asymm_precedes {a b : Phase × String} (h : Precedes a b) : ¬Precedes b a := by
  rcases h with hlt | ⟨heq, hafter, hbefore⟩
  · rintro (hlt' | ⟨heq', -⟩)
    · exact List.lt_asymm hlt hlt'
    · rw [heq'] at hlt
      exact List.lt_irrefl _ hlt
  · rintro (hlt' | ⟨-, hafter', -⟩)
    · rw [heq] at hlt'
      exact List.lt_irrefl _ hlt'
    · cases hbefore.symm.trans hafter'

/-- What is listed depends on what is bound alone, not on how it came to be bound. -/
theorem registered_congr {r r' : Registry H}
    (h : ∀ phase kind, (r'.lookup phase kind).isSome = (r.lookup phase kind).isSome) :
    r'.registered = r.registered := by
  have : Std.Irrefl Precedes := ⟨fun a ha => asymm_precedes ha ha⟩
  have : Std.Antisymm Precedes := ⟨fun a b hab hba => absurd hba (asymm_precedes hab)⟩
  refine r'.pairwise_registered.eq_of_mem_iff r.pairwise_registered fun (phase, kind) => ?_
  rw [mem_registered_iff, mem_registered_iff, h]

/-! ## Answers -/

/-- The answer that is due after some commands. -/
def Due (cs : List (Command H)) : Command H → Answer H → Prop
  | .register phase kind _, .previous o => ∀ hook, o = some hook ↔ LastBound cs phase kind hook
  | .registerBefore .., .nothing | .registerAfter .., .nothing => True
  | .unregister phase kind, .removed bound =>
    bound = true ↔ ∃ hook, LastBound cs phase kind hook
  | .lookup phase kind, .found o => ∀ hook, o = some hook ↔ LastBound cs phase kind hook
  | .registered, .pairs bound =>
    (∀ phase kind, (phase, kind) ∈ bound ↔ ∃ hook, LastBound cs phase kind hook) ∧
      bound.Pairwise Precedes
  | _, _ => False

/-- **Each command has the answer that is due.** -/
theorem answer_due (cs : List (Command H)) (c : Command H) :
    Due cs c ((empty.after cs).answer c).1 := by
  cases c with
  | register phase kind | lookup phase kind => exact lookup_after cs phase kind
  | registerBefore | registerAfter => trivial
  | unregister phase kind => exact isSome_lookup_after cs phase kind
  | registered =>
    refine ⟨fun phase kind => ?_, pairwise_registered _⟩
    rw [mem_registered_iff, isSome_lookup_after]

theorem due_of_transcript {cs : List (Command H)} {earlier later : List (Command H × Answer H)}
    {c : Command H} {a : Answer H} (h : empty.transcript cs = earlier ++ (c, a) :: later) :
    Due (earlier.map Prod.fst) c a := by
  have hcs := map_fst_transcript empty cs
  rw [h, List.map_append, List.map_cons] at hcs
  -- Both sides now begin with the answers to the same commands.
  rw [← hcs, transcript_append] at h
  have hlength : (empty.transcript (earlier.map Prod.fst)).length = earlier.length := by
    rw [← List.length_map Prod.fst, map_fst_transcript, List.length_map]
  obtain ⟨-, hrest⟩ := List.append_inj h hlength
  obtain ⟨hanswer, -⟩ := List.cons.inj hrest
  rw [← (Prod.mk.inj hanswer).2]
  exact answer_due _ c

/-! ## Tables in no order -/

/-- The bound kinds of each phase as tables without an order may list them. -/
structure Listing (r : Registry H) where
  before : List String
  after : List String
  before_nodup : before.Nodup
  after_nodup : after.Nodup
  mem_before : ∀ kind, kind ∈ before ↔ (r.lookup .before kind).isSome
  mem_after : ∀ kind, kind ∈ after ↔ (r.lookup .after kind).isSome

namespace Listing

variable {r : Registry H} (l : r.Listing)

def pairs : List (Phase × String) := l.before.map (.before, ·) ++ l.after.map (.after, ·)

/-- Not after, by kind and then by the text of the phase. -/
def le (a b : Phase × String) : Bool := KeyOrder.le (a.2, a.1.text) (b.2, b.1.text)

/-- The pairs of both tables, put in order. -/
def sorted : List (Phase × String) := l.pairs.mergeSort le

theorem mem_pairs_iff {phase : Phase} {kind : String} :
    (phase, kind) ∈ l.pairs ↔ (r.lookup phase kind).isSome := by
  cases phase with
  | before => simp [pairs, l.mem_before]
  | after => simp [pairs, l.mem_after]

theorem nodup_pairs : l.pairs.Nodup := by
  refine List.nodup_append'.2 ⟨?_, ?_, ?_⟩
  · exact l.before_nodup.map fun _ _ e => (Prod.mk.inj e).2
  · exact l.after_nodup.map fun _ _ e => (Prod.mk.inj e).2
  · simp [List.disjoint_left]

theorem le_of_precedes {a b : Phase × String} (h : Precedes a b) : le a b = true := by
  refine KeyOrder.le_of_lt (KeyOrder.ltPair_iff.2 ?_)
  rcases h with hkind | ⟨hkind, hafter, hbefore⟩
  · exact .inl (lt_iff_bytesOf_lt.2 hkind)
  · have htext : KeyOrder.lt Phase.after.text Phase.before.text = true := by decide
    rw [hafter, hbefore]
    exact .inr ⟨hkind, htext⟩

theorem le_antisymm {a b : Phase × String} (h : le a b = true) (h' : le b a = true) : a = b := by
  obtain ⟨hkind, htext⟩ := Prod.mk.inj (KeyOrder.le_antisymm h h')
  exact Prod.ext (Phase.text_injective htext) hkind

theorem pairwise_sorted : l.sorted.Pairwise fun a b => le a b = true :=
  List.pairwise_mergeSort (fun a b _ => KeyOrder.le_trans (a.2, a.1.text) (b.2, b.1.text) _)
    (fun a b => KeyOrder.le_total (a.2, a.1.text) (b.2, b.1.text)) _

theorem irrefl_precedes (a : Phase × String) : ¬ Precedes a a := by
  rintro (h | ⟨-, hafter, hbefore⟩)
  · exact List.lt_irrefl _ h
  · cases hafter.symm.trans hbefore

/-- **Whatever the order in which the tables list their kinds**, the pairs are listed in one. -/
theorem sorted_eq : l.sorted = r.registered := by
  have hnodup : r.registered.Nodup := by
    refine r.pairwise_registered.imp ?_
    rintro a b h rfl
    exact irrefl_precedes a h
  have hperm : l.pairs.Perm r.registered :=
    (List.perm_ext_iff_of_nodup l.nodup_pairs hnodup).2 fun ⟨phase, kind⟩ => by
      rw [l.mem_pairs_iff, mem_registered_iff]
  exact ((List.mergeSort_perm _ _).trans hperm).eq_of_pairwise
    (fun _ _ _ _ => le_antisymm) l.pairwise_sorted (r.pairwise_registered.imp le_of_precedes)

end Listing

end Registry

end MessageHooks
