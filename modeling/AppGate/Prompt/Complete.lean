import AppGate.Prompt.Redact

/-!
# What is detected after redaction

Redacting a string also replaces its other occurrences, in the middle of words too, and each marker
ends in bytes that are no word bytes. A stretch of the prompt that was no match can become one.
Of two occurrences that overlap, the one that is replaced first spoils the other.

* `Replaced`: the places that an order of the strings replaces, each occurrence from the left that
  meets no place replaced before;
* `Edge`, `Exposed`: a stretch outside replaced places that stands between word boundaries once
  those places count as other bytes;
* `detectPII_render_iff`: what is detected in a redacted prompt, on its places;
* **`complete_iff`**: nothing is detected after redaction if and only if no order of the categories
  leaves an exposed stretch;
* `Reported`, `replaced_iff`, `complete_iff_of_noOverlap`: where no two occurrences of reported
  strings overlap, every order replaces all of them;
* `Whole`, **`complete_of_whole`**: then nothing is exposed if every occurrence begins and ends at a
  word boundary.
-/

set_option autoImplicit false

namespace AppGate.Prompt

open Mask

/-- After redaction in any order nothing is detected. -/
def Complete (prompt : Bytes) : Prop :=
  ∀ order : PII, order.Perm (detectPII prompt) → detectPII (redactPII prompt order) = []

/-- The byte at `i` is replaced when the strings are replaced one after the other. -/
def Replaced (prompt : Bytes) (us : List Bytes) (i : ℕ) : Prop := Hides (places prompt us) i

/-- At `i` stands a word byte that is not replaced. -/
def WordAt (prompt : Bytes) (R : ℕ → Prop) (i : ℕ) : Prop :=
  ∃ c, prompt[i]? = some c ∧ isWordByte c = true ∧ ¬ R i

/-- Before `i` is a word boundary, if the replaced bytes count as no word bytes. -/
def Edge (prompt : Bytes) (R : ℕ → Prop) (i : ℕ) : Prop :=
  ¬ ((∃ j, i = j + 1 ∧ WordAt prompt R j) ↔ WordAt prompt R i)

/-- A stretch without replaced bytes matches a pattern between two such boundaries. -/
def Exposed (prompt : Bytes) (R : ℕ → Prop) : Prop :=
  ∃ p ∈ patterns, ∃ a w, w ∈ p.body.lang ∧ Occurs prompt w a ∧
    (∀ j, a ≤ j → j < a + w.length → ¬ R j) ∧ Edge prompt R a ∧ Edge prompt R (a + w.length)

/-! ## Boundaries of a masked text -/

/-- A word byte that is shown. -/
def wordCell (x : Cell UInt8) : Bool := decide (x.mark = .kept) && isWordByte x.val

/-- Before `i` is a boundary of what is shown. -/
def edge (X : List (Cell UInt8)) (i : ℕ) : Bool :=
  (X.take i).getLast?.any wordCell != (X.drop i).head?.any wordCell

theorem atBoundary_render {A B : List (Cell UInt8)} (hA : Follows false A) (hB : Follows false B) :
    Cursor.atBoundary ⟨(render marker A).reverse, render marker B⟩ = edge (A ++ B) A.length := by
  have hopening : isWordByte marker.opening = false := by decide
  have hclosing : isWordByte marker.closing = false := by decide
  rw [Cursor.atBoundary, edge, List.head?_reverse, any_getLast?_render hclosing hA,
    any_head?_render hopening hB, List.take_left, List.drop_left]
  rfl

theorem nil_notMem_lang {p : Pattern} (hp : p ∈ patterns) : [] ∉ p.body.lang :=
  fun h => (foreign_of_mem_lang hp h).ne_nil rfl

theorem detectPII_ne_nil_iff {text : Bytes} :
    detectPII text ≠ [] ↔ ∃ p ∈ patterns, p.regexp.findAll text ≠ [] := by
  constructor
  · intro h
    obtain ⟨entry, he⟩ := List.exists_mem_of_ne_nil _ h
    obtain ⟨⟨p, hp, rfl⟩, hne⟩ := mem_detectPII.mp he
    exact ⟨p, hp, hne⟩
  · rintro ⟨p, hp, hne⟩
    exact List.ne_nil_of_mem (mem_detectPII.mpr ⟨⟨p, hp, rfl⟩, hne⟩)

/-- The two boundaries of a text that is kept. -/
theorem atBoundary_kept {A B : List (Cell UInt8)} {w : Bytes} (hw : w ≠ [])
    (hX : Follows false (A ++ cells w ++ B)) :
    Cursor.atBoundary ⟨(render marker A).reverse, w ++ render marker B⟩ =
        edge (A ++ cells w ++ B) A.length ∧
      Cursor.atBoundary ⟨(render marker A ++ w).reverse, render marker B⟩ =
        edge (A ++ cells w ++ B) (A.length + w.length) := by
  have hAw : Follows false (A ++ cells w) := hX.left
  rw [List.append_assoc] at hX
  obtain ⟨q, hq⟩ : ∃ q, Follows q (cells w ++ B) := hX.suffix
  have hB : Follows false B := follows_of_cells_append hw hq
  have hwB : Follows false (cells w ++ B) := follows_cells_append w hB
  constructor
  · rw [← render_cells_append, atBoundary_render hX.left hwB, List.append_assoc]
  · have hr : render marker (A ++ cells w) = render marker A ++ w := by
      rw [render_append]
      simpa [render] using render_cells_append (m := marker) (X := []) w
    rw [← hr, atBoundary_render hAw hB, List.length_append, cells, List.length_map]

/-- **What is detected in a redacted prompt**: a kept text between boundaries of what is shown. -/
theorem detectPII_render_iff {X : List (Cell UInt8)} (hX : Follows false X) :
    detectPII (render marker X) ≠ [] ↔
      ∃ p ∈ patterns, ∃ A w B, w ∈ p.body.lang ∧ X = A ++ cells w ++ B ∧
        edge X A.length = true ∧ edge X (A.length + w.length) = true := by
  rw [detectPII_ne_nil_iff]
  constructor
  · rintro ⟨p, hp, hne⟩
    obtain ⟨x, w, y, hr, hw, hb, hb'⟩ :=
      (Regexp.findAll_word_ne_nil_iff p.plain (nil_notMem_lang hp)).mp hne
    have hforeign := foreign_of_mem_lang hp hw
    obtain ⟨A, B, rfl, rfl, rfl⟩ := exists_of_render_eq hforeign hX hr
    obtain ⟨h₁, h₂⟩ := atBoundary_kept hforeign.ne_nil hX
    exact ⟨p, hp, A, w, B, hw, rfl, h₁ ▸ hb, h₂ ▸ hb'⟩
  · rintro ⟨p, hp, A, w, B, hw, rfl, he, he'⟩
    obtain ⟨h₁, h₂⟩ := atBoundary_kept (foreign_of_mem_lang hp hw).ne_nil hX
    refine ⟨p, hp, (Regexp.findAll_word_ne_nil_iff p.plain (nil_notMem_lang hp)).mpr ?_⟩
    refine ⟨render marker A, w, render marker B, ?_, hw, h₁ ▸ he, h₂ ▸ he'⟩
    rw [List.append_assoc, render_append, render_cells_append, List.append_assoc]

/-! ## Boundaries of the prompt -/

theorem any_getLast?_take {β : Type} {l : List β} {q : β → Bool} {i : ℕ} (hi : i ≤ l.length) :
    (l.take i).getLast?.any q = true ↔ ∃ j, i = j + 1 ∧ l[j]?.any q = true := by
  cases i with
  | zero => simp
  | succ j =>
      have hlast : (l.take (j + 1)).getLast? = l[j]? := by
        rw [List.getLast?_eq_getElem?, List.length_take, Nat.min_eq_left hi,
          List.getElem?_take_of_lt (by omega)]
        rfl
      rw [hlast]
      simp

section

variable {prompt : Bytes} {X : List (Cell UInt8)} (hplain : plain X = prompt)

include hplain

theorem any_wordCell_iff (i : ℕ) : X[i]?.any wordCell = true ↔ WordAt prompt (Hides X) i := by
  subst hplain
  have hget : (plain X)[i]? = X[i]?.map Cell.val := List.getElem?_map
  rw [WordAt, hget]
  cases hx : X[i]? with
  | none => simp
  | some x =>
      have hkept : ¬ Hides X i ↔ x.mark = .kept := by
        simp [Hides, hx]
      rw [hkept]
      simp [wordCell, and_comm]

theorem edge_iff {i : ℕ} (hi : i ≤ X.length) : edge X i = true ↔ Edge prompt (Hides X) i := by
  have hbefore : (X.take i).getLast?.any wordCell = true ↔
      ∃ j, i = j + 1 ∧ WordAt prompt (Hides X) j := by
    simp only [any_getLast?_take hi, any_wordCell_iff hplain]
  have hafter : (X.drop i).head?.any wordCell = true ↔ WordAt prompt (Hides X) i := by
    rw [List.head?_drop, any_wordCell_iff hplain]
  rw [edge, Edge, bne_iff_ne, ne_eq, Bool.eq_iff_iff, hbefore, hafter]

/-- An exposed stretch is a kept text between boundaries. -/
theorem exposed_iff :
    Exposed prompt (Hides X) ↔
      ∃ p ∈ patterns, ∃ A w B, w ∈ p.body.lang ∧ X = A ++ cells w ++ B ∧
        edge X A.length = true ∧ edge X (A.length + w.length) = true := by
  constructor
  · rintro ⟨p, hp, a, w, hw, hocc, hfree, he, he'⟩
    obtain ⟨B, hB⟩ : cells w <+: X.drop a :=
      prefix_cells_of_occurs (hplain ▸ hocc) hfree
    have hpos : 0 < w.length := List.length_pos_iff.mpr (foreign_of_mem_lang hp hw).ne_nil
    have hlen : w.length + B.length = X.length - a := by
      rw [← List.length_drop, ← hB, List.length_append, cells, List.length_map]
    have hA : (X.take a).length = a := List.length_take_of_le (by omega)
    refine ⟨p, hp, X.take a, w, B, hw, ?_, ?_, ?_⟩
    · rw [List.append_assoc, hB, List.take_append_drop]
    · rw [hA, edge_iff hplain (by omega)]
      exact he
    · rw [hA, edge_iff hplain (by omega)]
      exact he'
  · rintro ⟨p, hp, A, w, B, hw, hAB, he, he'⟩
    have hlen : X.length = A.length + w.length + B.length := by
      rw [hAB, List.length_append, List.length_append, cells, List.length_map]
    refine ⟨p, hp, A.length, w, hw, ?_, fun j hj hj' => ?_, ?_, ?_⟩
    · have hsplit : prompt = plain A ++ (w ++ plain B) := by
        rw [← hplain, hAB, plain_append, plain_append, plain_cells, List.append_assoc]
      have hAlen : A.length = (plain A).length := (List.length_map _).symm
      rw [Occurs, hsplit, hAlen, List.drop_left]
      exact List.prefix_append w _
    · rintro ⟨x, hx, hm⟩
      obtain ⟨k, rfl⟩ := Nat.exists_eq_add_of_le hj
      have hk : k < (cells w).length := by
        rw [cells, List.length_map]
        omega
      rw [hAB, List.append_assoc, List.getElem?_append_right hj, Nat.add_sub_cancel_left,
        List.getElem?_append_left hk] at hx
      exact not_hides_cells ⟨x, hx, hm⟩
    · exact (edge_iff hplain (by omega)).mp he
    · exact (edge_iff hplain (by omega)).mp he'

end

/-! ## Completeness -/

/-- In whatever order a prompt is redacted, the stretches it exposes are what is detected. -/
theorem detectPII_redactPII_iff {prompt : Bytes} {order : PII}
    (horder : order.Perm (detectPII prompt)) :
    detectPII (redactPII prompt order) ≠ [] ↔ Exposed prompt (Replaced prompt (strings order)) := by
  have hforeign := foreign_of_perm horder
  have hne : ∀ u ∈ strings order, u ≠ [] := fun u hu => (hforeign u hu).ne_nil
  have hplain : plain (places prompt (strings order)) = prompt := by
    rw [places, plain_coverAll hne, plain_cells]
  have hfollows : Follows false (places prompt (strings order)) :=
    follows_coverAll hne (follows_cells prompt)
  rw [redactPII_eq hforeign, detectPII_render_iff hfollows]
  exact (exposed_iff hplain).symm

/-- **What redaction leaves to detect**: nothing, if and only if no order of the categories exposes
a stretch. -/
theorem complete_iff (prompt : Bytes) :
    Complete prompt ↔
      ∀ order : PII, order.Perm (detectPII prompt) →
        ¬ Exposed prompt (Replaced prompt (strings order)) := by
  constructor
  · intro hcomplete order horder hexposed
    exact (detectPII_redactPII_iff horder).mpr hexposed (hcomplete order horder)
  · intro h order horder
    by_contra hfound
    exact h order horder ((detectPII_redactPII_iff horder).mp hfound)

/-- Replacing a number in front of another one leaves the other one between boundaries. -/
theorem redaction_exposes_ssn : ¬ ∀ prompt : Bytes, Complete prompt := by
  intro h
  have hnone := h (Utf8.bytes "123-45-6789 123-45-6789987-65-4321") _ (List.Perm.refl _)
  revert hnone
  decide +kernel

/-! ## Prompts without overlapping occurrences -/

/-- The byte at `i` lies in an occurrence of a string that is reported. -/
def Reported (prompt : Bytes) (i : ℕ) : Prop := Within (strings (detectPII prompt)) prompt i

theorem NoOverlap.congr {us vs : List Bytes} {s : Bytes} (h : ∀ u, u ∈ us ↔ u ∈ vs)
    (hno : NoOverlap us s) : NoOverlap vs s :=
  fun u hu v hv => hno u ((h u).mpr hu) v ((h v).mpr hv)

/-- Every order replaces all occurrences if no two of them overlap. -/
theorem replaced_iff {prompt : Bytes} (hno : NoOverlap (strings (detectPII prompt)) prompt)
    {order : PII} (horder : order.Perm (detectPII prompt)) (i : ℕ) :
    Replaced prompt (strings order) i ↔ Reported prompt i := by
  have hmem : ∀ u, u ∈ strings (detectPII prompt) ↔ u ∈ strings order := fun u =>
    (strings_perm horder).mem_iff.symm
  have hne : ∀ u ∈ strings order, u ≠ [] := fun u hu => (foreign_of_perm horder u hu).ne_nil
  rw [Replaced, places, hides_coverAll_iff hne (NoOverlap.congr hmem hno)]
  simp only [Within, Reported, hmem]

theorem complete_iff_of_noOverlap {prompt : Bytes}
    (hno : NoOverlap (strings (detectPII prompt)) prompt) :
    Complete prompt ↔ ¬ Exposed prompt (Reported prompt) := by
  have hsame : ∀ order : PII, order.Perm (detectPII prompt) →
      Replaced prompt (strings order) = Reported prompt :=
    fun order horder => funext fun i => propext (replaced_iff hno horder i)
  constructor
  · intro hcomplete
    rw [← hsame _ (List.Perm.refl _)]
    exact (complete_iff prompt).mp hcomplete _ (List.Perm.refl _)
  · intro h
    refine (complete_iff prompt).mpr fun order horder => ?_
    rw [hsame order horder]
    exact h

/-! ## Occurrences at word boundaries -/

/-- `\b` before `i`. -/
def boundary (prompt : Bytes) (i : ℕ) : Bool :=
  Cursor.atBoundary ⟨(prompt.take i).reverse, prompt.drop i⟩

/-- Every occurrence of a reported string begins and ends at a word boundary. -/
def Whole (prompt : Bytes) : Prop :=
  ∀ u ∈ strings (detectPII prompt), ∀ a, Occurs prompt u a →
    boundary prompt a = true ∧ boundary prompt (a + u.length) = true

/-- At an end of a stretch without reported bytes, the boundaries are those of the prompt. -/
theorem Whole.boundary_of_edge {prompt : Bytes} (h : Whole prompt) {i : ℕ}
    (hi : i ≤ prompt.length) (he : Edge prompt (Reported prompt) i)
    (hfree : ¬ Reported prompt i ∨ ∃ j, i = j + 1 ∧ ¬ Reported prompt j) :
    boundary prompt i = true := by
  by_cases hR : Reported prompt i
  · -- the occurrence at `i` begins there
    obtain ⟨j, rfl, hj⟩ := hfree.resolve_left (not_not_intro hR)
    obtain ⟨u, hu, a, ha, haj, hja⟩ := hR
    obtain rfl : a = j + 1 := by
      by_contra hne
      exact hj ⟨u, hu, a, ha, by omega, by omega⟩
    exact (h u hu _ ha).1
  · by_cases hL : ∃ j, i = j + 1 ∧ Reported prompt j
    · -- the occurrence before `i` ends there
      obtain ⟨j, rfl, u, hu, a, ha, haj, hja⟩ := hL
      obtain hend : a + u.length = j + 1 := by
        by_contra hne
        exact hR ⟨u, hu, a, ha, by omega, by omega⟩
      exact hend ▸ (h u hu a ha).2
    · have hword : ∀ j, ¬ Reported prompt j →
          (prompt[j]?.any isWordByte = true ↔ WordAt prompt (Reported prompt) j) := by
        intro j hj
        cases hc : prompt[j]? <;> simp [WordAt, hc, hj]
      have hbefore : (prompt.take i).getLast?.any isWordByte = true ↔
          ∃ j, i = j + 1 ∧ WordAt prompt (Reported prompt) j := by
        rw [any_getLast?_take hi]
        constructor
        · rintro ⟨j, hij, hj⟩
          exact ⟨j, hij, (hword j fun hRj => hL ⟨j, hij, hRj⟩).mp hj⟩
        · rintro ⟨j, hij, hj⟩
          exact ⟨j, hij, (hword j fun hRj => hL ⟨j, hij, hRj⟩).mpr hj⟩
      rw [boundary, Cursor.atBoundary, List.head?_reverse, List.head?_drop, bne_iff_ne, ne_eq,
        Bool.eq_iff_iff, hbefore, hword i hR]
      exact he

/-- **Redaction is complete where reported strings stand between word boundaries** and do not
overlap. -/
theorem complete_of_whole {prompt : Bytes} (hno : NoOverlap (strings (detectPII prompt)) prompt)
    (hwhole : Whole prompt) : Complete prompt := by
  refine (complete_iff_of_noOverlap hno).mpr ?_
  rintro ⟨p, hp, a, w, hw, ⟨y, hy⟩, hfree, he, he'⟩
  have hpos : 0 < w.length := List.length_pos_iff.mpr (foreign_of_mem_lang hp hw).ne_nil
  have hlen : w.length + y.length = prompt.length - a := by
    rw [← List.length_drop, ← hy, List.length_append]
  have hA : (prompt.take a).length = a := List.length_take_of_le (by omega)
  have hleft : boundary prompt a = true :=
    hwhole.boundary_of_edge (by omega) he (Or.inl (hfree a (Nat.le_refl _) (by omega)))
  have hright : boundary prompt (a + w.length) = true := by
    refine hwhole.boundary_of_edge (by omega) he' (Or.inr ⟨a + w.length - 1, by omega, ?_⟩)
    exact hfree _ (by omega) (by omega)
  have hread : Cursor.Reads ⟨[], prompt⟩ (prompt.take a) ⟨(prompt.take a).reverse, prompt.drop a⟩ :=
    ⟨(List.take_append_drop a prompt).symm, (List.append_nil _).symm⟩
  have hdrop : prompt.drop (a + w.length) = y := by
    rw [← List.drop_drop, ← hy, List.drop_left]
  have htake : prompt.take (a + w.length) = prompt.take a ++ w := by
    rw [List.take_add, ← hy, List.take_left]
  have hrun : (⟨(prompt.take (a + w.length)).reverse, prompt.drop (a + w.length)⟩ : Cursor) ∈
      p.regexp.run ⟨(prompt.take a).reverse, prompt.drop a⟩ := by
    refine (Regexp.mem_run_word p.plain).mpr ⟨hleft, hright, w, hw, ?_, ?_⟩
    · rw [hdrop, hy]
    · rw [htake, List.reverse_append]
  obtain ⟨x, u, z, hxz, hu, hxa, hax⟩ := Regexp.exists_of_run_ne_nil
    (p.lang_regexp ▸ nil_notMem_lang hp) hread (List.ne_nil_of_mem hrun)
  rw [hA] at hxa hax
  refine hfree a (Nat.le_refl _) (by omega) ⟨u, ?_, x.length, ?_, hxa, hax⟩
  · exact mem_strings_detectPII.mpr ⟨p, hp, hu⟩
  · rw [Occurs, hxz, List.append_assoc, List.drop_left]
    exact List.prefix_append u z

end AppGate.Prompt
