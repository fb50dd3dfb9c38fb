/-!
# Outcomes

A step that succeeds hands its value on, and one that fails ends what it is part of.
-/

namespace Strongroom

section

variable {ε α β : Type}

theorem bind_eq_ok {x : Except ε α} {f : α → Except ε β} {b : β} :
    (x >>= f) = .ok b ↔ ∃ a, x = .ok a ∧ f a = .ok b := by
  cases x <;> simp [bind, Except.bind]

@[simp] theorem ok_bind (a : α) (f : α → Except ε β) : (Except.ok a >>= f) = f a := rfl

@[simp] theorem error_bind (failure : ε) (f : α → Except ε β) :
    (Except.error failure >>= f) = .error failure := rfl

@[simp] theorem pure_eq_ok (a : α) : (pure a : Except ε α) = .ok a := rfl

@[simp] theorem throw_eq_error (failure : ε) : (throw failure : Except ε α) = .error failure := rfl

end

end Strongroom
