import Mathlib.Data.List.Count
import Mathlib.Tactic.NormNum
import Mathlib.Tactic.Positivity
import AppGate.Prompt.Engine

/-!
# Scores and checks of a prompt

* `injectionScore_eq`: a score is three tenths for each marker found and what delimiters and
  newlines add, cut off at ten tenths;
* **`injectionScore_lt_iff`**: a marker whose letters occur in a prompt counts if and only if it is
  spelled without capitals;
* `Scale.Growing`: the additions that keep the order of scores, exact and rounded ones alike;
* **`detectPromptInjection_padded`**: text around a prompt does not lower its score, nor does it
  save it from being rejected;
* **`allowed_eq_false_iff`**: the prompts over the limit that are rejected.
-/

set_option autoImplicit false

namespace AppGate.Prompt

open Strings (Lowering contains count toLower lowerByte isUpper)

/-! ## Scores -/

/-- How many of the markers are found. -/
def hits (L : Lowering) (ms : List String) (prompt : Bytes) : ℕ :=
  ms.countP fun marker => contains (toLower L prompt) (Utf8.bytes marker)

/-- What delimiters and newlines add. -/
def layout (prompt : Bytes) : ℕ :=
  (if 20 < count prompt (Utf8.bytes "\"") ∨ 20 < count prompt (Utf8.bytes "'") then 2 else 0) +
    if 10 < count prompt (Utf8.bytes "\n") then 1 else 0

variable {L : Lowering} {ms : List String} {prompt : Bytes}

theorem foldl_markers (ms : List String) (found : String → Bool) (score : ℕ) :
    ms.foldl (fun score marker => if found marker then score + 3 else score) score =
      score + 3 * ms.countP found := by
  induction ms generalizing score with
  | nil => rfl
  | cons marker ms ih =>
      rw [List.foldl_cons, ih]
      by_cases hf : found marker = true
      · rw [if_pos hf, List.countP_cons_of_pos hf]
        omega
      · rw [if_neg hf, List.countP_cons_of_neg hf]

theorem injectionScore_eq (L : Lowering) (ms : List String) (prompt : Bytes) :
    injectionScore L ms prompt = min 10 (3 * hits L ms prompt + layout prompt) := by
  have hfold := foldl_markers ms
    (fun marker => contains (toLower L prompt) (Utf8.bytes marker)) 0
  unfold injectionScore Scale.score hits layout
  dsimp only [tenths] at hfold ⊢
  rw [hfold]
  split_ifs <;> omega

/-- A marker of the list counts three tenths where it is found. -/
theorem hits_erase {m : String} (hm : m ∈ ms) :
    hits L ms prompt =
      hits L (ms.erase m) prompt + if contains (toLower L prompt) (Utf8.bytes m) then 1 else 0 := by
  unfold hits
  rw [(List.perm_cons_erase hm).countP_eq, List.countP_cons]

/-! ## Letter case -/

/-- `v` differs from `m` in the case of ASCII letters only. -/
def CaseVariant (m v : Bytes) : Prop := v.map lowerByte = m.map lowerByte

instance (m v : Bytes) : Decidable (CaseVariant m v) :=
  inferInstanceAs (Decidable (v.map lowerByte = m.map lowerByte))

theorem lowerByte_of_not_upper {b : UInt8} (h : isUpper b = false) : lowerByte b = b := by
  simp [lowerByte, h]

theorem lt_of_lowerByte_lt {b : UInt8} (h : lowerByte b < 128) : b < 128 := by
  unfold lowerByte at h
  split at h
  case isTrue hu =>
    rw [isUpper, Bool.and_eq_true, decide_eq_true_eq, decide_eq_true_eq] at hu
    exact UInt8.lt_of_le_of_lt hu.2 (by decide)
  case isFalse => exact h

theorem CaseVariant.ascii {m v : Bytes} (h : CaseVariant m v) (hm : ∀ b ∈ m, b < 128) :
    ∀ b ∈ v, b < 128 := by
  intro b hb
  have hlow : lowerByte b ∈ m.map lowerByte := by
    rw [← h]
    exact List.mem_map_of_mem hb
  obtain ⟨d, hd, hdb⟩ := List.mem_map.mp hlow
  exact lt_of_lowerByte_lt (hdb ▸ Strings.lowerByte_lt (hm d hd))

/-- Lower-casing finds every spelling of a text without capitals. -/
theorem contains_of_variant {m v : Bytes} (hne : m ≠ []) (hm : ∀ b ∈ m, b < 128)
    (hlow : ∀ b ∈ m, isUpper b = false) (hv : CaseVariant m v) (hin : v <:+: prompt) :
    contains (toLower L prompt) m = true := by
  obtain ⟨s, t, rfl⟩ := hin
  have hvne : v ≠ [] := by
    rintro rfl
    exact hne (List.map_eq_nil_iff.mp hv.symm)
  have hmap : v.map lowerByte = m := by
    rw [hv, List.map_congr_left fun b hb => lowerByte_of_not_upper (hlow b hb), List.map_id']
  rw [List.append_assoc, Strings.toLower_append_ascii hvne (hv.ascii hm), hmap, contains,
    decide_eq_true_eq]
  exact ⟨_, _, by rw [List.append_assoc]⟩

/-- No capital is found in a lower-cased prompt. -/
theorem not_contains_of_upper {m : Bytes} {b : UInt8} (hb : b ∈ m) (hu : isUpper b = true) :
    contains (toLower L prompt) m = false := by
  rw [contains, decide_eq_false_iff_not]
  intro hin
  have hlow := Strings.not_upper_of_mem_toLower (hin.mem hb)
  rw [hu] at hlow
  cases hlow

theorem markers_ascii : ∀ m ∈ markers, Utf8.bytes m ≠ [] ∧ ∀ b ∈ Utf8.bytes m, b < 128 := by
  have h : (markers.all fun m =>
      !(Utf8.bytes m).isEmpty && (Utf8.bytes m).all fun b => b < 128) = true := by
    decide
  simpa only [List.all_eq_true, Bool.and_eq_true, Bool.not_eq_true', List.isEmpty_eq_false_iff,
    decide_eq_true_eq] using h

/-- **A marker counts if and only if it is spelled without capitals**, in a prompt that contains
its letters in any case and whose score is not at the cap without it. -/
theorem injectionScore_lt_iff (L : Lowering) {m : String} (hm : m ∈ markers) {prompt v : Bytes}
    (hv : CaseVariant (Utf8.bytes m) v) (hin : v <:+: prompt)
    (hcap : injectionScore L (markers.erase m) prompt < 10) :
    injectionScore L (markers.erase m) prompt < detectPromptInjection L prompt ↔
      ∀ b ∈ Utf8.bytes m, isUpper b = false := by
  obtain ⟨hne, hascii⟩ := markers_ascii m hm
  rw [detectPromptInjection, injectionScore_eq, injectionScore_eq, hits_erase hm] at *
  constructor
  · intro hlt b hb
    by_contra hu
    rw [not_contains_of_upper hb (Bool.eq_true_of_not_eq_false hu)] at hlt
    simp at hlt
  · intro hlow
    rw [contains_of_variant hne hascii hlow hv hin]
    simp only [if_true]
    omega

theorem injectionScore_lt_jailbreak :
    injectionScore Strings.asciiLowering (markers.erase "jailbreak") (Utf8.bytes "a JailBreak!") <
      detectPromptInjection Strings.asciiLowering (Utf8.bytes "a JailBreak!") :=
  (injectionScore_lt_iff Strings.asciiLowering (m := "jailbreak") (v := Utf8.bytes "JailBreak")
    (by decide) (by decide) (by decide) (by decide)).mpr (by decide +kernel)

/-- `DAN mode` is looked for in lower-cased text. -/
theorem dan_mode_not_counted :
    ¬ ∀ m ∈ markers, ∀ prompt v : Bytes, CaseVariant (Utf8.bytes m) v → v <:+: prompt →
      injectionScore Strings.asciiLowering (markers.erase m) prompt <
          detectPromptInjection Strings.asciiLowering prompt ∨
        injectionScore Strings.asciiLowering (markers.erase m) prompt = 10 := by
  intro h
  have hdan := h "DAN mode" (by decide) (Utf8.bytes "DAN mode") (Utf8.bytes "DAN mode") rfl
    (List.infix_refl _)
  revert hdan
  decide

/-! ## Padding -/

theorem infix_of_append {a p b : Bytes} : p <:+: a ++ p ++ b := ⟨a, b, rfl⟩

theorem count_le_of_isInfix {s t : Bytes} {b : UInt8} (h : s <:+: t) :
    count s [b] ≤ count t [b] := by
  rw [Strings.count_singleton, Strings.count_singleton]
  exact h.sublist.count_le b

/-- What is lower-cased in the middle of a valid string is found there. -/
theorem toLower_isInfix (L : Lowering) (a p b : String) :
    toLower L (Utf8.bytes p) <:+: toLower L (Utf8.bytes (a ++ p ++ b)) := by
  rw [Strings.toLower_bytes_append, Strings.toLower_bytes_append]
  exact ⟨_, _, rfl⟩

/-- Sums keep the order, and nothing that is added lowers a score. -/
structure Scale.Growing {α : Type} [LinearOrder α] (S : Scale α) : Prop where
  add_mono : ∀ {x y : α}, x ≤ y → ∀ z, S.add x z ≤ S.add y z
  le_add : ∀ x y : α, x ≤ S.add x y

theorem tenths_growing : tenths.Growing where
  add_mono := Nat.add_le_add_right
  le_add := Nat.le_add_right

/-- **Rounded sums keep the order**: `float64` addition is monotone. -/
theorem float64_growing : float64.Growing where
  add_mono := Binary64.Stored.add_le_add_right
  le_add := Binary64.Stored.le_add

section

variable {α : Type} [LinearOrder α] {S : Scale α}

theorem Scale.Growing.add_if_mono (h : S.Growing) {x y : α} (hxy : x ≤ y) {p q : Prop}
    [Decidable p] [Decidable q] (hpq : p → q) (z : α) :
    (if p then S.add x z else x) ≤ if q then S.add y z else y := by
  split_ifs with hp hq hq
  · exact h.add_mono hxy z
  · exact absurd (hpq hp) hq
  · exact le_trans hxy (h.le_add y z)
  · exact hxy

theorem Scale.Growing.foldl_mono (h : S.Growing) {found found' : String → Bool}
    (hf : ∀ m, found m = true → found' m = true) (ms : List String) {x y : α} (hxy : x ≤ y) :
    ms.foldl (fun score m => if found m then S.add score S.marker else score) x ≤
      ms.foldl (fun score m => if found' m then S.add score S.marker else score) y := by
  induction ms generalizing x y with
  | nil => exact hxy
  | cons m ms ih =>
      rw [List.foldl_cons, List.foldl_cons]
      exact ih (h.add_if_mono hxy (hf m) S.marker)

theorem capped_mono {x y cap : α} (h : x ≤ y) :
    (if cap < x then cap else x) ≤ if cap < y then cap else y := by
  split_ifs with hx hy hy
  · exact le_refl cap
  · exact absurd (lt_of_lt_of_le hx h) hy
  · exact le_of_not_gt hx
  · exact h

/-- A text that contains another one has no lower score. -/
theorem Scale.Growing.score_mono (h : S.Growing) (ms : List String) {s t : Bytes}
    (hlow : toLower L s <:+: toLower L t) (hin : s <:+: t) :
    S.score L ms s ≤ S.score L ms t := by
  have hfound : ∀ m, contains (toLower L s) (Utf8.bytes m) = true →
      contains (toLower L t) (Utf8.bytes m) = true := by
    intro m hm
    rw [contains, decide_eq_true_eq] at hm ⊢
    exact hm.trans hlow
  have hquote : count s (Utf8.bytes "\"") ≤ count t (Utf8.bytes "\"") := count_le_of_isInfix hin
  have happ : count s (Utf8.bytes "'") ≤ count t (Utf8.bytes "'") := count_le_of_isInfix hin
  have hline : count s (Utf8.bytes "\n") ≤ count t (Utf8.bytes "\n") := count_le_of_isInfix hin
  have hmarkers := h.foldl_mono hfound ms (le_refl S.zero)
  have hdelimiters := h.add_if_mono hmarkers
    (p := 20 < count s (Utf8.bytes "\"") ∨ 20 < count s (Utf8.bytes "'"))
    (q := 20 < count t (Utf8.bytes "\"") ∨ 20 < count t (Utf8.bytes "'")) (by omega) S.delimiters
  have hnewlines := h.add_if_mono hdelimiters (p := 10 < count s (Utf8.bytes "\n"))
    (q := 10 < count t (Utf8.bytes "\n")) (by omega) S.newlines
  exact capped_mono hnewlines

theorem Scale.Growing.score_padded (h : S.Growing) (L : Lowering) (ms : List String)
    (a p b : String) :
    S.score L ms (Utf8.bytes p) ≤ S.score L ms (Utf8.bytes (a ++ p ++ b)) := by
  refine h.score_mono ms (toLower_isInfix L a p b) ?_
  rw [Utf8.bytes_append, Utf8.bytes_append]
  exact infix_of_append

end

theorem Float64.below_mono {t : Float64} {x y : Binary64.Stored} (hxy : x ≤ y)
    (h : t.below x = true) : t.below y = true := by
  cases t with
  | finite q =>
      rw [below, decide_eq_true_eq] at h ⊢
      have hcast : (x.val : ℚ) ≤ y.val := by exact_mod_cast hxy
      have hle : (x.val : ℚ) / 2 ^ 56 ≤ (y.val : ℚ) / 2 ^ 56 := by gcongr
      exact lt_of_lt_of_le h hle
  | posInf => exact h
  | negInf => exact h
  | nan => exact h

theorem checkLength_reason (cfg : Config) (prompt : Bytes) (v : Violations) (e : List Effect) :
    (checkLength cfg prompt v e).reason ≠ "prompt_injection_detected" := by
  unfold checkLength
  split <;> simp

theorem checkPII_reason (cfg : Config) (projectID : String) (prompt : Bytes) :
    (checkPII cfg projectID prompt).reason ≠ "prompt_injection_detected" := by
  unfold checkPII
  dsimp only
  split_ifs
  · exact checkLength_reason _ _ _ _
  · simp
  · simp
  · exact checkLength_reason _ _ _ _
  · exact checkLength_reason _ _ _ _
  · exact checkLength_reason _ _ _ _

section

variable (L : Lowering) (order : List (String × Regexp)) (cfg : Config) (projectID : String)

/-- The first check alone gives this reason. -/
theorem reason_eq_iff (prompt : Bytes) :
    (inspectPrompt L order cfg projectID prompt).reason = "prompt_injection_detected" ↔
      cfg.promptInjectionEnabled = true ∧
        cfg.promptInjectionThreshold.below (detectPromptInjection64 L prompt) = true := by
  unfold inspectPrompt
  dsimp only
  split
  case isTrue h => exact ⟨fun _ => h, fun _ => rfl⟩
  case isFalse h => exact ⟨fun hr => absurd hr (checkPII_reason cfg projectID prompt), (absurd · h)⟩

theorem allowed_of_reason {prompt : Bytes}
    (h : (inspectPrompt L order cfg projectID prompt).reason = "prompt_injection_detected") :
    (inspectPrompt L order cfg projectID prompt).allowed = false := by
  have hc := (reason_eq_iff L order cfg projectID prompt).mp h
  unfold inspectPrompt
  rw [if_pos hc]

end

/-- **Text around a prompt does not lower its score**, and a prompt that is rejected as an injection
is rejected as one with any text around it. -/
theorem detectPromptInjection_padded (L : Lowering) (a p b : String) :
    detectPromptInjection L (Utf8.bytes p) ≤
        detectPromptInjection L (Utf8.bytes (a ++ p ++ b)) ∧
      ∀ (order order' : List (String × Regexp)) (cfg : Config) (projectID : String),
        cfg.promptInjectionEnabled = true →
        (inspectPrompt L order cfg projectID (Utf8.bytes p)).allowed = false →
        (inspectPrompt L order cfg projectID (Utf8.bytes p)).reason =
          "prompt_injection_detected" →
        (inspectPrompt L order' cfg projectID (Utf8.bytes (a ++ p ++ b))).allowed = false ∧
          (inspectPrompt L order' cfg projectID (Utf8.bytes (a ++ p ++ b))).reason =
            "prompt_injection_detected" := by
  refine ⟨tenths_growing.score_padded L markers a p b, fun order order' cfg projectID _ _ hreason => ?_⟩
  obtain ⟨hen, hbelow⟩ := (reason_eq_iff L order cfg projectID _).mp hreason
  have hpadded : (inspectPrompt L order' cfg projectID (Utf8.bytes (a ++ p ++ b))).reason =
      "prompt_injection_detected" :=
    (reason_eq_iff L order' cfg projectID _).mpr
      ⟨hen, Float64.below_mono (float64_growing.score_padded L markers a p b) hbelow⟩
  exact ⟨allowed_of_reason L order' cfg projectID hpadded, hpadded⟩

/-- A configuration in which one marker is enough. -/
def oneMarker : Config where
  promptInjectionEnabled := true
  promptInjectionThreshold := .finite (1 / 5)
  piiDetectionEnabled := true
  piiRedactionMode := "mask"
  maxPromptLength := 5

/-- One marker is not above a threshold of `0.3`. -/
example : (Float64.finite (21617278211378380 / 2 ^ 56)).below float64.marker = false := by
  norm_num [Float64.below, float64]

theorem reason_jailbreak :
    (inspectPrompt Strings.asciiLowering injectionPatterns oneMarker "project"
      (Utf8.bytes "jailbreak")).reason = "prompt_injection_detected" := by
  have hscore : detectPromptInjection64 Strings.asciiLowering (Utf8.bytes "jailbreak") =
      float64.marker := by
    decide
  refine (reason_eq_iff _ _ _ _ _).mpr ⟨rfl, ?_⟩
  rw [hscore, oneMarker, Float64.below, float64]
  norm_num

theorem jailbreak_padded :
    (inspectPrompt Strings.asciiLowering injectionPatterns oneMarker "project"
      (Utf8.bytes ("hello " ++ "jailbreak" ++ " and bye"))).reason = "prompt_injection_detected" :=
  ((detectPromptInjection_padded Strings.asciiLowering "hello " "jailbreak" " and bye").2
    injectionPatterns injectionPatterns oneMarker "project" rfl
    (allowed_of_reason _ _ _ _ reason_jailbreak) reason_jailbreak).2

/-! ## Long prompts -/

theorem checkLength_allowed {cfg : Config} {prompt : Bytes} (hmax : 0 < cfg.maxPromptLength)
    (hlen : cfg.maxPromptLength < prompt.length) (v : Violations) (e : List Effect) :
    (checkLength cfg prompt v e).allowed = false := by
  rw [checkLength, if_pos ⟨hmax, hlen⟩]

/-- A long prompt passes the last two checks only if it is masked. -/
theorem checkPII_allowed_iff {cfg : Config} {prompt : Bytes} (hmax : 0 < cfg.maxPromptLength)
    (hlen : cfg.maxPromptLength < prompt.length) (projectID : String) :
    (checkPII cfg projectID prompt).allowed = false ↔
      cfg.piiDetectionEnabled = false ∨ detectPII prompt = [] ∨ cfg.piiRedactionMode ≠ "mask" := by
  have hcheck := checkLength_allowed hmax hlen
  unfold checkPII
  dsimp only
  split_ifs with hen hnil hblock hmask hlog
  · simp [hcheck, List.isEmpty_iff.mp hnil]
  · simp [hblock]
  · simp [hen, hmask, List.isEmpty_iff] at hnil ⊢
    exact hnil
  · simp [hcheck, hmask]
  · simp [hcheck, hmask]
  · simp [hcheck, hen]

/-- **Prompts over the limit.** One is rejected if and only if it is rejected as an injection, or
the check for personal data does not end in the branch that masks. -/
theorem allowed_eq_false_iff (L : Lowering) (order : List (String × Regexp)) (cfg : Config)
    (projectID : String) (prompt : Bytes) (hmax : 0 < cfg.maxPromptLength)
    (hlen : cfg.maxPromptLength < prompt.length) :
    (inspectPrompt L order cfg projectID prompt).allowed = false ↔
      (cfg.promptInjectionEnabled = true ∧
          cfg.promptInjectionThreshold.below (detectPromptInjection64 L prompt) = true) ∨
        cfg.piiDetectionEnabled = false ∨ detectPII prompt = [] ∨
          cfg.piiRedactionMode ≠ "mask" := by
  unfold inspectPrompt
  dsimp only
  split
  case isTrue h => exact ⟨fun _ => Or.inl h, fun _ => rfl⟩
  case isFalse h =>
    rw [checkPII_allowed_iff hmax hlen projectID]
    exact ⟨Or.inr, fun hc => hc.resolve_left h⟩

theorem allowed_eq_false_long :
    (inspectPrompt Strings.asciiLowering injectionPatterns oneMarker "project"
      (Utf8.bytes "hello there")).allowed = false :=
  (allowed_eq_false_iff Strings.asciiLowering injectionPatterns oneMarker "project"
    (Utf8.bytes "hello there") (by decide) (by decide)).mpr (.inr (.inr (.inl (by decide))))

/-- A prompt of eleven bytes is masked and allowed where five are the limit. -/
theorem long_prompt_masked :
    ¬ ∀ (cfg : Config) (prompt : Bytes), 0 < cfg.maxPromptLength →
      cfg.maxPromptLength < prompt.length →
      (inspectPrompt Strings.asciiLowering injectionPatterns cfg "project" prompt).allowed =
        false := by
  intro h
  have hmasked := h { oneMarker with promptInjectionEnabled := false }
    (Utf8.bytes "123-45-6789") (by decide) (by decide)
  revert hmasked
  decide

end AppGate.Prompt
