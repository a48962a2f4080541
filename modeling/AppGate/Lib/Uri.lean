import Mathlib.Data.List.DropRight
import Mathlib.Data.List.TakeWhile
import Mathlib.Tactic.Common

/-!
# The authority of a URI

A URI is cut at its first `://`; the authority is what follows, up to the next delimiter. HTTP
clients take a backslash for a slash there.

* `splitAuthority`: scheme and authority of a URI;
* **`splitAuthority_append_iff`**: text after an authority leaves it alone exactly when it starts
  with a delimiter;
* `trimEnd`: `str::trim_end_matches`, and `trimEnd_append`.
-/

set_option autoImplicit false

namespace Uri

/-! ## Trimming -/

/-- `s.trim_end_matches(c)`. -/
def trimEnd (c : Char) (s : List Char) : List Char := s.rdropWhile (· = c)

theorem trimEnd_eq_nil_iff {c : Char} {s : List Char} : trimEnd c s = [] ↔ ∀ d ∈ s, d = c := by
  simp [trimEnd]

/-- Nothing is trimmed before a last character that is not `c`. -/
theorem trimEnd_append {c : Char} {s : List Char} (hlast : s.getLast? ≠ some c) (t : List Char) :
    trimEnd c (s ++ t) = s ++ trimEnd c t := by
  unfold trimEnd
  induction t using List.reverseRecOn with
  | nil =>
      rw [List.append_nil, List.rdropWhile_nil, List.append_nil, List.rdropWhile_eq_self_iff]
      intro hne h
      apply hlast
      rw [List.getLast?_eq_some_getLast hne, decide_eq_true_eq.mp h]
  | append_singleton t d ih =>
      rw [← List.append_assoc, List.rdropWhile_concat, List.rdropWhile_concat]
      split_ifs
      · exact ih
      · rw [List.append_assoc]

/-- Trimming leaves the first character alone, if it leaves any. -/
theorem head?_of_head?_trimEnd {c d : Char} {s : List Char} (h : (trimEnd c s).head? = some d) :
    s.head? = some d := by
  have hsplit : trimEnd c s ++ s.rtakeWhile (· = c) = s := List.rdropWhile_append_rtakeWhile ..
  rw [← hsplit, List.head?_append, h]
  rfl

/-! ## Authorities -/

/-- The characters that end an authority. -/
def isDelimiter (c : Char) : Bool := c = '/' || c = '?' || c = '#' || c = '\\'

/-- The scheme and the authority of a URI. -/
def splitAuthority (uri : List Char) : Option (List Char × List Char) :=
  match uri.dropWhile (· ≠ ':') with
  | ':' :: '/' :: '/' :: rest =>
    some (uri.takeWhile (· ≠ ':'), rest.takeWhile fun c => !isDelimiter c)
  | _ => none

theorem splitAuthority_append {scheme authority : List Char} (hs : ':' ∉ scheme)
    (ha : ∀ c ∈ authority, isDelimiter c = false) (tail : List Char) :
    splitAuthority (scheme ++ ':' :: '/' :: '/' :: (authority ++ tail)) =
      some (scheme, authority ++ tail.takeWhile fun c => !isDelimiter c) := by
  have hne : ∀ c ∈ scheme, decide (c ≠ ':') = true :=
    fun c hc => decide_eq_true (ne_of_mem_of_not_mem hc hs)
  have hin : ∀ c ∈ authority, (!isDelimiter c) = true := by simpa using ha
  unfold splitAuthority
  rw [List.dropWhile_append_of_pos hne, List.dropWhile_cons_of_neg (by decide),
    List.takeWhile_append_of_pos hne, List.takeWhile_cons_of_neg (by decide), List.append_nil]
  simp only [List.takeWhile_append_of_pos hin]

/-- **Where an authority ends.** -/
theorem splitAuthority_append_iff {scheme authority : List Char} (hs : ':' ∉ scheme)
    (ha : ∀ c ∈ authority, isDelimiter c = false) (tail : List Char) :
    splitAuthority (scheme ++ ':' :: '/' :: '/' :: (authority ++ tail)) = some (scheme, authority) ↔
      ∀ c ∈ tail.head?, isDelimiter c = true := by
  rw [splitAuthority_append hs ha]
  cases tail with
  | nil => simp
  | cons c tail => cases hc : isDelimiter c <;> simp [hc]

end Uri
