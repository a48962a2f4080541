import Mathlib.Algebra.BigOperators.Group.List.Basic
import Mathlib.Algebra.Order.Group.Int
import Mathlib.Algebra.Order.Group.MinMax
import Mathlib.Data.List.Induction
import Mathlib.Data.List.Infix
import Mathlib.Order.Bounds.Basic

/-!
# Walks reflected at zero

A counter that adds its increments and never falls below zero forgets what it was owed, so its
value is a maximum over the suffixes of what it has seen.

* `walk`: the counter after a list of increments.
* **`isGreatest_walk`**: its value is the greatest sum of a suffix.
* **`exists_le_walk_iff`**: it reached a level exactly when some block of increments sums to it.
-/

set_option autoImplicit false

namespace Reflected

variable {α : Type} [AddCommGroup α] [LinearOrder α] [IsOrderedAddMonoid α]

/-- One increment, stopped at zero. -/
def bump (x d : α) : α := max 0 (x + d)

/-- The walk from zero. -/
def walk (ds : List α) : α := ds.foldl bump 0

omit [IsOrderedAddMonoid α] in
@[simp] theorem walk_snoc (ds : List α) (d : α) : walk (ds ++ [d]) = max 0 (walk ds + d) := by
  simp [walk, bump]

/-- **The walk is the greatest sum of a suffix.** -/
theorem isGreatest_walk (ds : List α) :
    IsGreatest {v | ∃ l, l <:+ ds ∧ v = l.sum} (walk ds) := by
  induction ds using List.reverseRecOn with
  | nil =>
      refine ⟨⟨[], List.suffix_rfl, rfl⟩, ?_⟩
      rintro v ⟨l, hl, rfl⟩
      rw [List.suffix_nil.mp hl]
      exact le_rfl
  | append_singleton ds d ih =>
      obtain ⟨⟨l, hl, hw⟩, hub⟩ := ih
      rw [walk_snoc]
      constructor
      · -- either the walk was stopped, or the best suffix is extended by `d`
        rcases max_choice 0 (walk ds + d) with h | h
        · exact ⟨[], List.nil_suffix, h⟩
        · refine ⟨l ++ [d], List.suffix_append_self_iff.mpr hl, ?_⟩
          rw [h, hw, List.sum_append, List.sum_singleton]
      · rintro v ⟨l', hl', rfl⟩
        rcases List.suffix_concat_iff.mp hl' with rfl | ⟨t, rfl, ht⟩
        · exact le_max_left _ _
        · rw [List.sum_append, List.sum_singleton]
          have h := hub ⟨t, ht, rfl⟩
          exact le_max_of_le_right (add_le_add_left h d)

/-- **The walk reaches a level** exactly when some block of increments sums to at least it. -/
theorem exists_le_walk_iff (ds : List α) (θ : α) :
    (∃ p, p <+: ds ∧ θ ≤ walk p) ↔ ∃ l, l <:+: ds ∧ θ ≤ l.sum := by
  constructor
  · rintro ⟨p, hp, hθ⟩
    obtain ⟨⟨l, hl, hw⟩, -⟩ := isGreatest_walk p
    exact ⟨l, hl.isInfix.trans hp.isInfix, hw ▸ hθ⟩
  · rintro ⟨l, hl, hθ⟩
    obtain ⟨p, hlp, hp⟩ := List.infix_iff_suffix_prefix.mp hl
    exact ⟨p, hp, hθ.trans ((isGreatest_walk p).2 ⟨l, hlp, rfl⟩)⟩

end Reflected
