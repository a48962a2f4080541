import Mathlib.Data.List.Infix
import Mathlib.Data.List.TakeWhile
import Mathlib.Tactic.Common

/-!
# Splitting at a separator

`List.splitOn` cuts a list at every separator, as `str::split(char)` does; `splitn` makes at most
`n` pieces, as `str::splitn(n, char)` does.

* **`splitOn_suffix_iff`**: a suffix of pieces is a suffix of the list behind a separator;
* `splitn_append_cons`, **`length_splitn`**: the pieces of a bounded split.
-/

set_option autoImplicit false

namespace Split

variable {α : Type}

/-! ## Suffixes of pieces -/

theorem intercalate_append {x : α} {ls ms : List (List α)} (hl : ls ≠ []) (hm : ms ≠ []) :
    [x].intercalate (ls ++ ms) = [x].intercalate ls ++ x :: [x].intercalate ms := by
  induction ls with
  | nil => exact absurd rfl hl
  | cons l ls ih =>
      rcases eq_or_ne ls [] with rfl | hne
      · rw [List.singleton_append, List.intercalate_cons_of_ne_nil hm]
        simp
      · rw [List.cons_append, List.intercalate_cons_of_ne_nil (by simp [hne]), ih hne,
          List.intercalate_cons_of_ne_nil hne]
        simp

variable [DecidableEq α]

/-- The pieces of `xs` are the last pieces of `ys` if `ys` is `xs`, or ends in a separator and
then `xs`. -/
theorem splitOn_suffix_iff (x : α) (xs ys : List α) :
    xs.splitOn x <:+ ys.splitOn x ↔ xs = ys ∨ x :: xs <:+ ys := by
  constructor
  · rintro ⟨ls, hls⟩
    have hy : ys = [x].intercalate (ls ++ xs.splitOn x) := by rw [hls, List.intercalate_splitOn]
    rcases eq_or_ne ls [] with rfl | hne
    · left
      rw [hy, List.nil_append, List.intercalate_splitOn]
    · right
      rw [intercalate_append hne (List.splitOn_ne_nil x xs), List.intercalate_splitOn] at hy
      exact ⟨_, hy.symm⟩
  · rintro (rfl | ⟨l, rfl⟩)
    · exact List.suffix_rfl
    · rw [List.splitOn_append_cons_self]
      exact List.suffix_append _ _

/-! ## Bounded splits -/

/-- `xs.splitn(n, x)`: the last of the `n` pieces is what is left. -/
def splitn (x : α) : ℕ → List α → List (List α)
  | 0, _ => []
  | 1, xs => [xs]
  | n + 2, xs =>
      match xs.dropWhile (· ≠ x) with
      | [] => [xs]
      | _ :: rest => xs.takeWhile (· ≠ x) :: splitn x (n + 1) rest

theorem splitn_of_notMem {x : α} {xs : List α} (h : x ∉ xs) (n : ℕ) :
    splitn x (n + 1) xs = [xs] := by
  cases n with
  | zero => rfl
  | succ n =>
      have hd : xs.dropWhile (· ≠ x) = [] :=
        List.dropWhile_eq_nil_iff.mpr fun y hy => decide_eq_true (ne_of_mem_of_not_mem hy h)
      simp only [splitn, hd]

theorem splitn_append_cons {x : α} {xs : List α} (h : x ∉ xs) (ys : List α) (n : ℕ) :
    splitn x (n + 2) (xs ++ x :: ys) = xs :: splitn x (n + 1) ys := by
  have hne : ∀ y ∈ xs, decide (y ≠ x) = true :=
    fun y hy => decide_eq_true (ne_of_mem_of_not_mem hy h)
  have hd : (xs ++ x :: ys).dropWhile (· ≠ x) = x :: ys := by
    rw [List.dropWhile_append_of_pos hne, List.dropWhile_cons_of_neg (by simp)]
  have ht : (xs ++ x :: ys).takeWhile (· ≠ x) = xs := by
    rw [List.takeWhile_append_of_pos hne, List.takeWhile_cons_of_neg (by simp), List.append_nil]
  simp only [splitn, hd, ht]

/-- There is one piece more than there are separators, up to the bound. -/
theorem length_splitn (x : α) (n : ℕ) (xs : List α) :
    (splitn x (n + 1) xs).length = min (n + 1) (xs.count x + 1) := by
  induction n generalizing xs with
  | zero => simp [splitn]
  | succ n ih =>
      by_cases hx : x ∈ xs
      · obtain ⟨l, r, rfl, hl⟩ := List.eq_append_cons_of_mem hx
        rw [splitn_append_cons hl, List.length_cons, ih, List.count_append, List.count_cons_self,
          List.count_eq_zero_of_not_mem hl]
        omega
      · rw [splitn_of_notMem hx, List.count_eq_zero_of_not_mem hx]
        simp

end Split
