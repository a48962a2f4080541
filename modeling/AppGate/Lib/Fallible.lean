import Mathlib.Tactic.Common

/-!
# Fallible computations

Computations in `Except`: how a chain of steps runs, and what it says when the chain succeeds.

* `ok_bind`, `error_bind`, `bind_ok`, `map_ok`, `map_error`: the simp set;
* **`bind_eq_ok`**, `seq_eq_ok`, `map_eq_ok`: a chain succeeds if and only if its steps do;
* `map_eq_map`: two computations with the same visible result.
-/

set_option autoImplicit false

namespace Fallible

variable {ε α β : Type}

@[simp] theorem pure_eq (a : α) : (pure a : Except ε α) = .ok a := rfl

@[simp] theorem ok_bind {f : α → Except ε β} (a : α) : (Except.ok a >>= f) = f a := rfl

@[simp] theorem error_bind {f : α → Except ε β} (e : ε) : (Except.error e >>= f) = .error e := rfl

@[simp] theorem bind_ok {f : α → β} (x : Except ε α) : (x >>= fun a => .ok (f a)) = x.map f := by
  cases x <;> rfl

@[simp] theorem map_ok {f : α → β} (a : α) : Except.map f (.ok a : Except ε α) = .ok (f a) := rfl

@[simp] theorem map_error {f : α → β} (e : ε) :
    Except.map f (.error e : Except ε α) = .error e := rfl

@[simp] theorem map_eq {f : α → β} (x : Except ε α) : f <$> x = x.map f := rfl

/-- **Chains of steps.** Each step of a chain that succeeds has succeeded. -/
theorem bind_eq_ok {x : Except ε α} {f : α → Except ε β} {b : β} :
    (x >>= f) = .ok b ↔ ∃ a, x = .ok a ∧ f a = .ok b := by
  cases x with
  | error e => simp
  | ok a => simp

theorem seq_eq_ok {x : Except ε Unit} {y : Except ε β} {b : β} :
    (x >>= fun _ => y) = .ok b ↔ x = .ok () ∧ y = .ok b := by
  cases x with
  | error e => simp
  | ok u => simp

theorem map_eq_ok {x : Except ε α} {f : α → β} {b : β} :
    x.map f = .ok b ↔ ∃ a, x = .ok a ∧ f a = b := by
  cases x with
  | error e => simp
  | ok a => simp

/-- Two computations with the same results up to `f` fail alike or succeed together. -/
theorem map_eq_map {x y : Except ε α} {f : α → β} (h : x.map f = y.map f) :
    (∃ e, x = .error e ∧ y = .error e) ∨ ∃ a b, x = .ok a ∧ y = .ok b ∧ f a = f b := by
  cases x with
  | error e =>
      cases y with
      | error e' => exact .inl ⟨e, rfl, congrArg _ (Except.error.inj h).symm⟩
      | ok b => cases h
  | ok a =>
      cases y with
      | error e' => cases h
      | ok b => exact .inr ⟨a, b, rfl, rfl, Except.ok.inj h⟩

end Fallible
