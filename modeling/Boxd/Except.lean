import Mathlib.Tactic.Lemma
import Mathlib.Algebra.Order.Ring.Nat

/-!
# `Except` as the model's error monad

The functions of the model that can fail in Go return `Except`: the script decoder and
interpreter, and the collaborators of the chain engine.  These are the reading lemmas for it.
-/

namespace Boxd

section ExceptLemmas

variable {ε α β : Type}

@[simp] lemma except_ok_bind (a : α) (f : α → Except ε β) : (Except.ok a >>= f) = f a := rfl

@[simp] lemma except_error_bind (e : ε) (f : α → Except ε β) :
    (Except.error e >>= f : Except ε β) = .error e := rfl

@[simp] lemma except_map_ok (f : α → β) (a : α) : (f <$> Except.ok a : Except ε β) = .ok (f a) :=
  rfl

@[simp] lemma except_map_error (f : α → β) (e : ε) :
    (f <$> Except.error e : Except ε β) = .error e := rfl

@[simp] lemma except_throw (e : ε) : (throw e : Except ε α) = .error e := rfl

@[simp] lemma except_mapError_ok {ε' : Type} (f : ε → ε') (a : α) :
    (Except.ok a : Except ε α).mapError f = .ok a :=
  rfl

@[simp] lemma except_mapError_error {ε' : Type} (f : ε → ε') (e : ε) :
    (Except.error e : Except ε α).mapError f = .error (f e) :=
  rfl

/-- A bind that succeeds is one whose first computation succeeds. -/
lemma except_bind_eq_ok {x : Except ε α} {f : α → Except ε β} {b : β} :
    x >>= f = .ok b ↔ ∃ a, x = .ok a ∧ f a = .ok b := by
  cases x <;> simp

end ExceptLemmas

end Boxd
