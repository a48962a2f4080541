import Mathlib.Data.List.Basic
import Mathlib.Data.List.Perm.Subperm
import Mathlib.Data.Nat.Basic
import Mathlib.Tactic.Common

/-!
# Counting in lists

* `countP_le_length_of_index`, `countP_le_add`: counting by positions, and in two parts;
* `countP_set_add`, `filterMap_set`, `filterMap_set_perm`: counts and values after one element is
  replaced;
* **`countP_le_iff_of_capped`**: when every class of a list has exactly its first `b` elements
  marked, at most `b` elements are marked exactly when there is one class or at most `b` elements.
-/

set_option autoImplicit false

namespace Counting

variable {α κ : Type}

/-- When the positions of the counted elements all occur in `m`, there are at most `m.length`. -/
theorem countP_le_length_of_index {l : List α} {p : α → Bool} {m : List ℕ}
    (h : ∀ i a, l[i]? = some a → p a = true → i ∈ m) : l.countP p ≤ m.length := by
  have hcount : l.countP p = ((l.zipIdx.filter fun x => p x.1).map Prod.snd).length := by
    conv_lhs => rw [← List.zipIdx_map_fst 0 l]
    rw [List.countP_map, List.length_map, List.countP_eq_length_filter]
    rfl
  have hnodup : ((l.zipIdx.filter fun x => p x.1).map Prod.snd).Nodup := by
    apply List.Nodup.sublist (List.filter_sublist.map _)
    rw [List.zipIdx_map_snd]
    exact List.nodup_range'
  rw [hcount]
  refine (List.subperm_of_subset hnodup ?_).length_le
  intro i hi
  obtain ⟨x, hx, rfl⟩ := List.mem_map.mp hi
  obtain ⟨hmem, hp⟩ := List.mem_filter.mp hx
  exact h x.2 x.1 (List.mem_zipIdx_iff_getElem?.mp hmem) hp

theorem countP_le_add {l : List α} {p q r : α → Bool}
    (h : ∀ a, p a = true → q a = true ∨ r a = true) : l.countP p ≤ l.countP q + l.countP r := by
  induction l with
  | nil => exact Nat.le_refl 0
  | cons a l ih =>
      simp only [List.countP_cons]
      have ha := h a
      split_ifs <;> first | omega | simp_all

/-- Replacing an element moves a count by what the old and the new element weigh. -/
theorem countP_set_add {l : List α} {i : ℕ} {a : α} (h : l[i]? = some a) (b : α) (p : α → Bool) :
    (l.set i b).countP p + (p a).toNat = l.countP p + (p b).toNat := by
  obtain ⟨hi, rfl⟩ := List.getElem?_eq_some_iff.mp h
  rw [List.countP_set hi]
  have hpos : p l[i] = true → 0 < l.countP p :=
    fun hp => List.countP_pos_iff.mpr ⟨l[i], List.getElem_mem hi, hp⟩
  cases hp : p l[i] with
  | false => cases p b <;> simp
  | true =>
      have := hpos hp
      cases p b <;> simp <;> omega

/-- Replacing an element by one with the same value keeps the values. -/
theorem filterMap_set {l : List α} {i : ℕ} {a b : α} {f : α → Option κ} (h : l[i]? = some a)
    (hf : f b = f a) : (l.set i b).filterMap f = l.filterMap f := by
  induction l generalizing i with
  | nil => cases h
  | cons c l ih =>
      cases i with
      | zero =>
          cases h
          rw [List.set_cons_zero, List.filterMap_cons, List.filterMap_cons, hf]
      | succ i =>
          rw [List.set_cons_succ, List.filterMap_cons, List.filterMap_cons, ih h]

/-- Replacing an element without a value adds the value of the new one. -/
theorem filterMap_set_perm {l : List α} {i : ℕ} {a b : α} {f : α → Option κ} {x : κ}
    (h : l[i]? = some a) (ha : f a = none) (hb : f b = some x) :
    ((l.set i b).filterMap f).Perm (l.filterMap f ++ [x]) := by
  induction l generalizing i with
  | nil => cases h
  | cons c l ih =>
      cases i with
      | zero =>
          cases h
          rw [List.set_cons_zero, List.filterMap_cons, List.filterMap_cons, ha, hb]
          exact (List.perm_append_singleton _ _).symm
      | succ i =>
          rw [List.set_cons_succ, List.filterMap_cons, List.filterMap_cons]
          cases f c with
          | none => exact ih h
          | some y => exact (ih h).cons y

variable [DecidableEq κ]

theorem countP_le_of_one_class {A : List α} {cls : α → κ} {ok : α → Bool} {b : ℕ}
    (hcap : ∀ k, (A.filter (cls · = k)).countP ok = min b (A.filter (cls · = k)).length)
    (hone : ∀ x ∈ A, ∀ y ∈ A, cls x = cls y) : A.countP ok ≤ b := by
  cases A with
  | nil => exact Nat.zero_le b
  | cons x A =>
      have hall : (x :: A).filter (cls · = cls x) = x :: A := by
        rw [List.filter_eq_self]
        intro y hy
        simpa using hone y hy x List.mem_cons_self
      have h := hcap (cls x)
      rw [hall] at h
      exact h ▸ Nat.min_le_left _ _

theorem lt_countP_of_full_class {A : List α} {cls : α → κ} {ok : α → Bool} {b : ℕ} (hb : 0 < b)
    (hcap : ∀ k, (A.filter (cls · = k)).countP ok = min b (A.filter (cls · = k)).length) {k : κ}
    (hk : b ≤ (A.filter (cls · = k)).length) {z : α} (hz : z ∈ A) (hzk : cls z ≠ k) :
    b < A.countP ok := by
  have hfull : (A.filter (cls · = k)).countP ok = b := by rw [hcap, Nat.min_eq_left hk]
  have hz' : z ∈ A.filter (cls · = cls z) := List.mem_filter.mpr ⟨hz, by simp⟩
  have hpos : 0 < (A.filter (cls · = cls z)).countP ok := by
    rw [hcap]
    have := List.length_pos_of_mem hz'
    omega
  -- the class of `z` lies outside the full one
  have hle : (A.filter (cls · = cls z)).countP ok ≤
      (A.filter fun x => !decide (cls x = k)).countP ok := by
    rw [List.countP_filter, List.countP_filter]
    apply List.countP_mono_left
    intro x _ hx
    simp only [Bool.and_eq_true, decide_eq_true_eq] at hx
    simp [hx.1, hx.2, hzk]
  have hsplit := List.countP_eq_countP_filter_add A ok (cls · = k)
  omega

/-- **Capped classes.** -/
theorem countP_le_iff_of_capped {A : List α} {cls : α → κ} {ok : α → Bool} {b : ℕ} (hb : 0 < b)
    (hcap : ∀ k, (A.filter (cls · = k)).countP ok = min b (A.filter (cls · = k)).length) :
    A.countP ok ≤ b ↔ (∀ x ∈ A, ∀ y ∈ A, cls x = cls y) ∨ A.length ≤ b := by
  refine ⟨?_, ?_⟩
  · intro hle
    by_contra hnot
    obtain ⟨hclasses, hlen⟩ := not_or.mp hnot
    simp only [not_forall] at hclasses
    obtain ⟨x, hx, y, hy, hxy⟩ := hclasses
    by_cases hbig : ∃ k, b ≤ (A.filter (cls · = k)).length
    · obtain ⟨k, hk⟩ := hbig
      have hlt : b < A.countP ok := by
        by_cases hxk : cls x = k
        · exact lt_countP_of_full_class hb hcap hk hy fun hyk => hxy (hxk.trans hyk.symm)
        · exact lt_countP_of_full_class hb hcap hk hx hxk
      omega
    · -- every class is small, so everything is marked
      have hall : A.countP ok = A.length := by
        rw [List.countP_eq_length]
        intro z hz
        have hsmall : (A.filter (cls · = cls z)).length < b :=
          Nat.lt_of_not_le fun h => hbig ⟨_, h⟩
        have hcls := hcap (cls z)
        rw [Nat.min_eq_right (Nat.le_of_lt hsmall), List.countP_eq_length] at hcls
        exact hcls z (List.mem_filter.mpr ⟨hz, by simp⟩)
      omega
  · rintro (hone | hlen)
    · exact countP_le_of_one_class hcap hone
    · exact Nat.le_trans List.countP_le_length hlen

end Counting
