import Mathlib.Data.List.Basic
import Mathlib.Tactic.Common

/-!
# Numbers and separators in texts

* **`toString_inj`**, `isDigit_of_mem_toString`: the decimal text of a number;
* `append_sep_inj`, `append_sep_inj_last`: a separator splits a list in one way when it does not
  occur before it, or does not occur after it.
-/

set_option autoImplicit false

namespace Text

/-- **A decimal text determines its number.** -/
theorem toString_inj {m n : ℕ} (h : toString m = toString n) : m = n := by
  have hdigits : Nat.toDigits 10 m = Nat.toDigits 10 n := by
    simpa [Nat.toString_eq_ofList_toDigits] using congrArg String.toList h
  simpa using congrArg (Nat.ofDigitChars 10 · 0) hdigits

theorem isDigit_of_mem_toString {n : ℕ} {ch : Char} (h : ch ∈ (toString n).toList) :
    ch.isDigit = true := by
  rw [Nat.toString_eq_ofList_toDigits, String.toList_ofList] at h
  exact Nat.isDigit_of_mem_toDigits (by decide) (by decide) h

theorem notMem_toString {ch : Char} (h : ch.isDigit = false) (n : ℕ) :
    ch ∉ (toString n).toList := by
  intro hmem
  rw [isDigit_of_mem_toString hmem] at h
  cases h

variable {α : Type} {sep : α} {a b c d : List α}

theorem append_sep_inj (ha : sep ∉ a) (hb : sep ∉ b) (h : a ++ sep :: c = b ++ sep :: d) :
    a = b ∧ c = d := by
  induction a generalizing b with
  | nil =>
      cases b with
      | nil => exact ⟨rfl, (List.cons.inj h).2⟩
      | cons y b => exact absurd (by simp [(List.cons.inj h).1]) hb
  | cons x a ih =>
      cases b with
      | nil => exact absurd (by simp [(List.cons.inj h).1]) ha
      | cons y b =>
          obtain ⟨rfl, htail⟩ := List.cons.inj h
          obtain ⟨rfl, rfl⟩ := ih (fun hm => ha (List.mem_cons_of_mem _ hm))
            (fun hm => hb (List.mem_cons_of_mem _ hm)) htail
          exact ⟨rfl, rfl⟩

theorem append_sep_inj_last (hc : sep ∉ c) (hd : sep ∉ d) (h : a ++ sep :: c = b ++ sep :: d) :
    a = b ∧ c = d := by
  have hrev : c.reverse ++ sep :: a.reverse = d.reverse ++ sep :: b.reverse := by
    simpa using congrArg List.reverse h
  obtain ⟨hcd, hab⟩ := append_sep_inj (by simpa using hc) (by simpa using hd) hrev
  exact ⟨List.reverse_injective hab, List.reverse_injective hcd⟩

end Text
