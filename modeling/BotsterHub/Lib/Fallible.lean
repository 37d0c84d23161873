import Mathlib.Data.List.Forall2

/-!
Functions that can fail.

A function that returns `Except ε α` and succeeds has succeeded in each of its steps; one that fails
has failed in one of them.
-/

namespace Except

universe u v

variable {ε ε' : Type u} {α β : Type v} {x : Except ε α} {f : α → Except ε β}

theorem bind_eq_ok {b : β} : x >>= f = .ok b ↔ ∃ a, x = .ok a ∧ f a = .ok b := by
  cases x with
  | error =>
    constructor
    · nofun
    · rintro ⟨_, h, -⟩
      cases h
  | ok a =>
    constructor
    · exact fun h => ⟨a, rfl, h⟩
    rintro ⟨_, h, hf⟩
    cases h
    exact hf

theorem bind_eq_error {e : ε} :
    x >>= f = .error e ↔ x = .error e ∨ ∃ a, x = .ok a ∧ f a = .error e := by
  cases x with
  | error =>
    constructor
    · exact fun h => .inl (by rw [Except.error.inj h])
    rintro (h | ⟨_, h, -⟩)
    · rw [Except.error.inj h]
      rfl
    · cases h
  | ok a =>
    constructor
    · exact fun h => .inr ⟨a, rfl, h⟩
    rintro (h | ⟨_, h, hf⟩)
    · cases h
    · cases h
      exact hf

theorem bind_congr_ok {f g : α → Except ε β}
    (h : ∀ a, x = .ok a → f a = g a) : x >>= f = x >>= g := by
  cases x with
  | error => rfl
  | ok a => exact h a rfl

@[simp] theorem mapError_eq_ok {f : ε → ε'} {a : α} : x.mapError f = .ok a ↔ x = .ok a := by
  cases x with
  | error => constructor <;> nofun
  | ok => simp [Except.mapError]

theorem guard_eq_ok {p : Prop} [Decidable p] {e : ε} {x : α → Except ε β} {y : Except ε β}
    {b : β} : (if p then throw e >>= x else y) = .ok b ↔ ¬p ∧ y = .ok b := by
  split
  · next h =>
    constructor
    · nofun
    · exact fun hn => absurd h hn.1
  · next h => exact ⟨fun hy => ⟨h, hy⟩, fun hy => hy.2⟩

end Except
