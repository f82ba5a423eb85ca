import MessageHooks.SortedMap

/-!
# Hook registry

At most one hook is bound to each phase and kind of message. Binding again replaces the hook.

* `Registry.lookup`: the bound hook; kinds are compared exactly.
* `Registry.registered`: all bound pairs, by kind, and of one kind the after hook first.
-/

namespace MessageHooks

/-- When a hook runs: before a message is processed, or after. -/
inductive Phase where
  | before
  | after
  deriving DecidableEq, Repr

namespace Phase

def all : List Phase := [.before, .after]

def text : Phase → String
  | .before => "before"
  | .after => "after"

theorem text_injective {p q : Phase} (h : p.text = q.text) : p = q := by
  cases p <;> cases q <;> simp_all [text]

def rank : Phase → Nat
  | .after => 0
  | .before => 1

instance : KeyOrder Phase where
  lt p q := decide (p.rank < q.rank)
  irrefl p := by simp
  trans h h' := by simp only [decide_eq_true_eq] at *; omega
  connected {p q} h h' := by cases p <;> cases q <;> simp_all [rank]

end Phase

/-- Which hook is bound where. `H` names hooks. -/
structure Registry (H : Type) where
  bindings : SortedMap (String × Phase) H

namespace Registry

variable {H : Type} (r : Registry H)

def empty : Registry H := ⟨.empty⟩

instance : Inhabited (Registry H) := ⟨empty⟩

def lookup (phase : Phase) (kind : String) : Option H := r.bindings.get? (kind, phase)

def register (phase : Phase) (kind : String) (hook : H) : Registry H :=
  ⟨r.bindings.insert (kind, phase) hook⟩

def unregister (phase : Phase) (kind : String) : Registry H :=
  ⟨r.bindings.erase (kind, phase)⟩

/-- Every bound phase and kind, by kind and then by phase. -/
def registered : List (Phase × String) := r.bindings.keys.map fun k => (k.2, k.1)

@[simp] theorem lookup_empty (phase : Phase) (kind : String) :
    (empty : Registry H).lookup phase kind = none := rfl

@[simp] theorem lookup_register_self (phase : Phase) (kind : String) (hook : H) :
    (r.register phase kind hook).lookup phase kind = some hook :=
  r.bindings.get?_insert_self _ _

theorem lookup_register_of_ne {phase phase' : Phase} {kind kind' : String} (hook : H)
    (h : (phase', kind') ≠ (phase, kind)) :
    (r.register phase kind hook).lookup phase' kind' = r.lookup phase' kind' := by
  refine r.bindings.get?_insert_of_ne _ fun e => h ?_
  simp only [Prod.mk.injEq] at e
  rw [e.1, e.2]

@[simp] theorem lookup_unregister_self (phase : Phase) (kind : String) :
    (r.unregister phase kind).lookup phase kind = none :=
  r.bindings.get?_erase_self _

theorem lookup_unregister_of_ne {phase phase' : Phase} {kind kind' : String}
    (h : (phase', kind') ≠ (phase, kind)) :
    (r.unregister phase kind).lookup phase' kind' = r.lookup phase' kind' := by
  refine r.bindings.get?_erase_of_ne fun e => h ?_
  simp only [Prod.mk.injEq] at e
  rw [e.1, e.2]

end Registry

end MessageHooks
