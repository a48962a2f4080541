import Mathlib.Data.List.Basic
import Mathlib.Tactic.Common

/-!
# Slices

A slice is a view of the first `len` cells of a backing array. Appending within the capacity
writes the next cell in place, and reslicing to length `0` keeps the array with its old contents.

* `make`, `append`, `clear`: `make([]T, 0, cap)`, `append(s, a)` and `s[:0]`.
* **`elems_append`**: whatever an earlier use left in the array, the elements of a slice after an
  append are the elements before it and the new one.
-/

set_option autoImplicit false

namespace Golang

/-- A slice of a backing array; the cells from `len` on are not part of it. -/
structure Slice (α : Type) where
  backing : List α
  len : ℕ
  len_le : len ≤ backing.length
  deriving DecidableEq

namespace Slice

variable {α : Type}

/-- The elements of a slice. -/
def elems (s : Slice α) : List α := s.backing.take s.len

/-- `make([]T, 0, cap)`: the cells hold the zero value. -/
def make (zero : α) (cap : ℕ) : Slice α := ⟨List.replicate cap zero, 0, Nat.zero_le _⟩

/-- `append(s, a)`: in place within the capacity, else into a new array. -/
def append (s : Slice α) (a : α) : Slice α :=
  if h : s.len < s.backing.length then
    ⟨s.backing.set s.len a, s.len + 1, by rw [List.length_set]; exact h⟩
  else ⟨s.elems ++ [a], s.len + 1, by simp [elems, s.len_le]⟩

/-- `s[:0]`. -/
def clear (s : Slice α) : Slice α := ⟨s.backing, 0, Nat.zero_le _⟩

@[simp] theorem elems_make (zero : α) (cap : ℕ) : (make zero cap).elems = [] := by
  simp [make, elems]

@[simp] theorem elems_clear (s : Slice α) : s.clear.elems = [] := by
  simp [clear, elems]

@[simp] theorem length_elems (s : Slice α) : s.elems.length = s.len := by
  simp [elems, s.len_le]

@[simp] theorem len_append (s : Slice α) (a : α) : (s.append a).len = s.len + 1 := by
  unfold append
  split_ifs <;> rfl

/-- **What an append leaves.** Old contents of the backing array do not show. -/
@[simp] theorem elems_append (s : Slice α) (a : α) : (s.append a).elems = s.elems ++ [a] := by
  unfold append
  split_ifs with h
  · simp only [elems]
    rw [List.take_add_one, List.take_set_of_le (Nat.le_refl _)]
    simp [h]
  · simp only [elems]
    rw [List.take_of_length_le]
    simp [s.len_le]

end Slice

end Golang
