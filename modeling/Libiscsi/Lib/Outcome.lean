import Mathlib

/-!
# Computations that may fail

Inversion of the monadic operations of `Except`: a sequence of steps that returned a result is
taken apart into the results of its steps, so that a proof about a whole computation is assembled
from the specifications of the steps.
-/

namespace Outcome

variable {ε α β : Type}

/-- A sequence returned `r` exactly when its first step returned some `a` and the rest returned
`r` from `a`. -/
@[simp] theorem bind_eq_ok {x : Except ε α} {f : α → Except ε β} {r : β} :
    (x >>= f) = .ok r ↔ ∃ a, x = .ok a ∧ f a = .ok r := by
  cases x with
  | error e =>
    constructor
    · intro h; cases h
    · rintro ⟨_, h, _⟩; cases h
  | ok a =>
    constructor
    · intro h; exact ⟨a, rfl, h⟩
    · rintro ⟨_, h, hf⟩; cases h; exact hf

/-- A sequence whose first step returned `a` goes on from `a`. -/
@[simp] theorem ok_bind {a : α} {f : α → Except ε β} : (Except.ok a >>= f) = f a := rfl

/-- A sequence whose first step failed fails. -/
@[simp] theorem error_bind {e : ε} {f : α → Except ε β} :
    (Except.error e >>= f) = .error e := rfl

/-- A sequence failed exactly when its first step failed, or the rest did. -/
theorem bind_eq_error {x : Except ε α} {f : α → Except ε β} {e : ε} :
    (x >>= f) = .error e ↔ x = .error e ∨ ∃ a, x = .ok a ∧ f a = .error e := by
  cases x <;> simp

/-- A loop over a list whose turns all return a result returns the results. -/
theorem mapM_eq_ok {f : α → Except ε β} {g : α → β} : ∀ {l : List α},
    (∀ a ∈ l, f a = .ok (g a)) → l.mapM f = .ok (l.map g)
  | [], _ => rfl
  | a :: l, h => by
    rw [List.mapM_cons, h a List.mem_cons_self, ok_bind,
      mapM_eq_ok fun b hb => h b (List.mem_cons_of_mem a hb)]
    rfl

@[simp] theorem pure_eq_ok {a b : α} : (pure a : Except ε α) = .ok b ↔ a = b := by
  simp [pure, Except.pure]

end Outcome
