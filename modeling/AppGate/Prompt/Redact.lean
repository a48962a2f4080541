import AppGate.Lib.Places
import AppGate.Prompt.Engine

/-!
# Redaction

The strings that `detectPII` reports do not meet the marker, so redacting a prompt is followed on
the places it replaces.

* `foreign_of_mem_strings`, **`redactPII_eq`**: redaction on places;
* **`not_infix_redactPII`**: no reported string is left;
* `Separate`, **`redactPII_perm`**: where no two categories hide a common place, the order in which
  they are visited does not matter.
-/

set_option autoImplicit false

namespace AppGate.Prompt

open Mask

/-- `[REDACTED]`. -/
def marker : Marker UInt8 := ⟨91, Utf8.bytes "REDACTED", 93⟩

theorem marker_text : marker.text = redacted := by decide

/-- The strings of a map, in the order in which `RedactPII` replaces them. -/
def strings (pii : PII) : List Bytes := pii.flatMap Prod.snd

theorem mem_strings {pii : PII} {u : Bytes} : u ∈ strings pii ↔ ∃ entry ∈ pii, u ∈ entry.2 :=
  List.mem_flatMap

theorem strings_perm {pii pii' : PII} (h : pii.Perm pii') : (strings pii).Perm (strings pii') :=
  h.flatMap_right _

theorem Pattern.lang_regexp (p : Pattern) : p.regexp.lang = p.body.lang :=
  p.body.lang_word

/-- A category is reported with the matches of its pattern. -/
theorem mem_detectPII {prompt : Bytes} {entry : String × List Bytes} :
    entry ∈ detectPII prompt ↔
      (∃ p ∈ patterns, entry = (p.category, p.regexp.findAll prompt)) ∧ entry.2 ≠ [] := by
  have hne : (!entry.2.isEmpty) = true ↔ entry.2 ≠ [] := by simp
  rw [detectPII, List.mem_filter, List.mem_map, hne]
  simp only [eq_comm]

theorem mem_strings_detectPII {prompt u : Bytes} :
    u ∈ strings (detectPII prompt) ↔ ∃ p ∈ patterns, u ∈ p.regexp.findAll prompt := by
  rw [mem_strings]
  constructor
  · rintro ⟨entry, he, hu⟩
    obtain ⟨⟨p, hp, rfl⟩, -⟩ := mem_detectPII.mp he
    exact ⟨p, hp, hu⟩
  · rintro ⟨p, hp, hu⟩
    exact ⟨_, mem_detectPII.mpr ⟨⟨p, hp, rfl⟩, List.ne_nil_of_mem hu⟩, hu⟩

set_option maxRecDepth 4000 in
/-- No pattern matches brackets, and each one needs a byte that is not a capital. -/
theorem patterns_kinds : ∀ p ∈ patterns,
    p.body.within (fun c => !(c == 91 || c == 93)) = true ∧
      p.body.requires (fun c => !Strings.isUpper c) = true := by
  have havoids : (patterns.all fun p => p.body.avoids 91 && p.body.avoids 93) = true := by
    decide
  have hrequires : (patterns.all fun p => p.body.requires fun c => !Strings.isUpper c) = true := by
    decide
  simp only [List.all_eq_true, Bool.and_eq_true] at havoids hrequires
  refine fun p hp => ⟨Regexp.within_of_avoids fun c hc => ?_, hrequires p hp⟩
  simp only [Bool.not_eq_false', Bool.or_eq_true, beq_iff_eq] at hc
  rcases hc with rfl | rfl
  · exact (havoids p hp).1
  · exact (havoids p hp).2

theorem foreign_of_mem_lang {p : Pattern} {u : Bytes} (hp : p ∈ patterns) (hu : u ∈ p.body.lang) :
    Foreign marker u := by
  obtain ⟨hwithin, hrequires⟩ := patterns_kinds p hp
  have hbracket := Regexp.of_within hwithin hu
  obtain ⟨c, hc, hlow⟩ := Regexp.of_requires hrequires hu
  refine ⟨List.ne_nil_of_mem hc, fun h => ?_, fun h => ?_, fun h => ?_⟩
  · exact absurd (hbracket _ h) (by decide)
  · exact absurd (hbracket _ h) (by decide)
  · have hupper : marker.body.all Strings.isUpper = true := by decide
    rw [List.all_eq_true.mp hupper c (h.mem hc)] at hlow
    cases hlow

theorem foreign_of_mem_strings {prompt u : Bytes} (h : u ∈ strings (detectPII prompt)) :
    Foreign marker u := by
  obtain ⟨p, hp, hu⟩ := mem_strings_detectPII.mp h
  exact foreign_of_mem_lang hp (p.lang_regexp ▸ Regexp.mem_lang_of_mem_findAll hu)

/-- The places that replacing the strings one after the other replaces. -/
def places (prompt : Bytes) (us : List Bytes) : List (Cell UInt8) := coverAll us (cells prompt)

/-- **Redaction on places.** -/
theorem redactPII_eq {prompt : Bytes} {pii : PII} (h : ∀ u ∈ strings pii, Foreign marker u) :
    redactPII prompt pii = render marker (places prompt (strings pii)) := by
  have hreplace : redactPII prompt pii =
      (strings pii).foldl (fun s u => Strings.replace s u redacted) prompt := by
    rw [strings, List.foldl_flatMap]
    rfl
  have hcells : render marker (cells prompt) = prompt := by
    simpa [render] using render_cells_append (m := marker) (X := []) prompt
  have hstep : ∀ u ∈ strings pii, ∀ s, Strings.replace s u redacted =
      Strings.replaceFrom u marker.text 0 s := by
    intro u hu s
    rw [marker_text, Strings.replace, if_neg (h u hu).ne_nil]
  rw [hreplace, places, render_coverAll h (follows_cells prompt), hcells]
  exact List.foldl_ext _ _ _ fun s u hu => hstep u hu s

theorem foreign_of_perm {prompt : Bytes} {order : PII} (h : order.Perm (detectPII prompt)) :
    ∀ u ∈ strings order, Foreign marker u :=
  fun _ hu => foreign_of_mem_strings ((strings_perm h).mem_iff.mp hu)

/-- **No reported string is left**, whatever the order of the categories. -/
theorem not_infix_redactPII (prompt : Bytes) (order : PII) (horder : order.Perm (detectPII prompt))
    (entry : String × List Bytes) (hentry : entry ∈ detectPII prompt) (u : Bytes)
    (hu : u ∈ entry.2) : ¬ u <:+: redactPII prompt order := by
  have hin : u ∈ strings order :=
    (strings_perm horder).mem_iff.mpr (mem_strings.mpr ⟨entry, hentry, hu⟩)
  rw [redactPII_eq (foreign_of_perm horder)]
  exact not_infix_render_coverAll (foreign_of_perm horder) hin

theorem not_infix_redactPII_ssn :
    ¬ Utf8.bytes "123-45-6789" <:+:
      redactPII (Utf8.bytes "me: 123-45-6789, me@mail.com")
        (detectPII (Utf8.bytes "me: 123-45-6789, me@mail.com")).reverse :=
  not_infix_redactPII _ _ (List.reverse_perm _) ("ssn", [Utf8.bytes "123-45-6789"])
    (by decide +kernel) _ List.mem_cons_self

/-! ## The order of the categories -/

/-- No place of the prompt would be hidden by two categories, each replaced alone. -/
def Separate (prompt : Bytes) : Prop :=
  (detectPII prompt).Pairwise fun a b => Beside (places prompt a.2) (places prompt b.2)

instance (prompt : Bytes) : Decidable (Separate prompt) := by
  unfold Separate Beside
  infer_instance

theorem places_perm {prompt : Bytes} (h : Separate prompt) {order : PII}
    (horder : order.Perm (detectPII prompt)) :
    places prompt (strings order) = places prompt (strings (detectPII prompt)) := by
  refine (coverAll_perm (horder.map Prod.snd).symm ?_ ?_).symm
  · intro v hv u hu
    obtain ⟨entry, he, rfl⟩ := List.mem_map.mp hv
    exact (foreign_of_mem_strings (mem_strings.mpr ⟨entry, he, hu⟩)).ne_nil
  · exact List.pairwise_map.mpr h

/-- **The order of the categories does not matter** where they hide no common place. -/
theorem redactPII_perm (prompt : Bytes) (h : Separate prompt) (order order' : PII)
    (horder : order.Perm (detectPII prompt)) (horder' : order'.Perm (detectPII prompt)) :
    redactPII prompt order = redactPII prompt order' := by
  rw [redactPII_eq (foreign_of_perm horder), redactPII_eq (foreign_of_perm horder'),
    places_perm h horder, places_perm h horder']

theorem redactPII_perm_reverse :
    redactPII (Utf8.bytes "me: 123-45-6789, me@mail.com")
        (detectPII (Utf8.bytes "me: 123-45-6789, me@mail.com")) =
      redactPII (Utf8.bytes "me: 123-45-6789, me@mail.com")
        (detectPII (Utf8.bytes "me: 123-45-6789, me@mail.com")).reverse :=
  redactPII_perm _ (by decide +kernel) _ _ (List.Perm.refl _) (List.reverse_perm _)

/-- A social security number that is the name of a mailbox. -/
theorem redactPII_mailbox :
    ¬ ∀ (prompt : Bytes) (order order' : PII), order.Perm (detectPII prompt) →
      order'.Perm (detectPII prompt) → redactPII prompt order = redactPII prompt order' := by
  intro h
  have heq := h (Utf8.bytes "123-45-6789@example.com") _
    (detectPII (Utf8.bytes "123-45-6789@example.com")).reverse (List.Perm.refl _)
    (List.reverse_perm _)
  revert heq
  decide +kernel

end AppGate.Prompt
