import AppGate.Lib.Split
import AppGate.Ssrf.Model

/-!
# Approved domains, label by label

The approved-domain test of `validate_upstream` compares characters: the host is `d` or ends with
`"." + d`. DNS names are lists of labels, and a domain contains the names its labels are a suffix
of.

* `labels`: the labels of a host;
* **`approves_iff_labels`**: the test on characters is the test on labels, whatever dots the host
  and the domain have.
-/

set_option autoImplicit false

namespace AppGate.Ssrf

/-- The labels of a host: what is between its dots, empty labels included. -/
def labels (host : String) : List (List Char) := host.toList.splitOn '.'

theorem labels_suffix_iff (d host : String) :
    labels d <:+ labels host ↔ host = d ∨ ("." ++ d).toList <:+ host.toList := by
  rw [labels, labels, Split.splitOn_suffix_iff, String.toList_inj, String.toList_append,
    eq_comm (a := host)]
  rfl

/-- A host that ends in the characters of `d` has the labels of `d` at its end only behind a dot. -/
theorem labels_suffix_append_iff (d pre : String) :
    labels d <:+ labels (pre ++ d) ↔ pre = "" ∨ pre.toList.getLast? = some '.' := by
  rw [labels_suffix_iff, String.toList_append, String.toList_append]
  refine or_congr ?_ ?_
  · rw [← String.toList_inj, String.toList_append, ← String.toList_inj]
    simp
  · rw [List.getLast?_eq_some_iff]
    constructor
    · rintro ⟨l, hl⟩
      have hcancel : pre.toList ++ d.toList = (l ++ ['.']) ++ d.toList := by
        rw [← hl, List.append_assoc]
        rfl
      exact ⟨l, List.append_cancel_right hcancel⟩
    · rintro ⟨l, hl⟩
      rw [hl]
      exact ⟨l, by simp⟩

namespace SSRFDefense

theorem approves_iff_exists (self : SSRFDefense) (host : String) :
    self.approves host = true ↔ ∃ d ∈ self.approvedDomains, labels d <:+ labels host := by
  simp only [approves, List.any_eq_true, Bool.or_eq_true, decide_eq_true_eq,
    List.isSuffixOf_iff_suffix, labels_suffix_iff]

/-- **Label boundaries.** A host is approved exactly when the labels of some approved domain are its
last labels. With one approved domain `d`, a host that ends in the characters of `d` is approved
only if nothing or a dot comes before them. -/
theorem approves_iff_labels (self : SSRFDefense) (host : String) :
    (self.approves host = true ↔ ∃ d ∈ self.approvedDomains, labels d <:+ labels host) ∧
      ∀ d pre enabled, SSRFDefense.approves ⟨[d], enabled⟩ (pre ++ d) = true ↔
        pre = "" ∨ pre.toList.getLast? = some '.' := by
  refine ⟨self.approves_iff_exists host, fun d pre enabled => ?_⟩
  rw [approves_iff_exists, ← labels_suffix_append_iff d pre]
  simp

example : newWithDefaults.approves "evil-api.openai.com" = false := by decide

end SSRFDefense

end AppGate.Ssrf
