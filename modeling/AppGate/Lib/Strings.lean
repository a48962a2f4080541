import Mathlib.Data.List.Infix
import AppGate.Lib.Utf8

/-!
# Searching, replacing and lower-casing

* `contains`, `count`, `replace`: `strings.Contains`, `strings.Count` and `strings.Replace` with a
  negative bound;
* **`replaceFrom_append`**, `replaceFrom_cons_of_absent`: what replacing does at one place;
* `Lowering`, `toLower`: `strings.ToLower` over `unicode.ToLower`;
* **`toLower_append_ascii`**, **`toLower_bytes_append`**: lower-casing goes piecewise around ASCII
  text and in valid strings;
* `not_upper_of_mem_toLower`: no ASCII capital is left.
-/

set_option autoImplicit false

namespace Strings

/-! ## Searching and replacing -/

section

variable {α : Type}

/-- A text without `c` starts before `c` only if it ends before it. -/
theorem prefix_of_prefix_append_cons {u t s : List α} {c : α} (hc : c ∉ u) (h : u <+: t ++ c :: s) :
    u <+: t := by
  rcases Nat.lt_or_ge t.length u.length with hlt | hle
  · obtain ⟨v, hv⟩ := h
    have hget : u[t.length]? = some c := by
      rw [← List.getElem?_append_left hlt, hv]
      simp
    exact absurd (List.mem_of_getElem? hget) hc
  · exact List.prefix_of_prefix_length_le h (List.prefix_append t _) hle

theorem infix_of_infix_append_cons {u t s : List α} {c : α} (hc : c ∉ u) (h : u <:+: t ++ c :: s) :
    u <:+: t ∨ u <:+: s := by
  induction t with
  | nil =>
      rcases List.infix_cons_iff.mp h with h | h
      · exact Or.inl (prefix_of_prefix_append_cons (t := []) hc h).isInfix
      · exact Or.inr h
  | cons d t ih =>
      rcases List.infix_cons_iff.mp h with h | h
      · exact Or.inl (prefix_of_prefix_append_cons (t := d :: t) hc h).isInfix
      · rcases ih h with h | h
        · exact Or.inl (h.trans (List.suffix_cons d t).isInfix)
        · exact Or.inr h

variable [DecidableEq α]

def contains (s sub : List α) : Bool := decide (sub <:+: s)

def countFrom (sub : List α) : ℕ → List α → ℕ
  | _, [] => 0
  | k + 1, _ :: s => countFrom sub k s
  | 0, c :: s =>
      if sub <+: c :: s then countFrom sub (sub.length - 1) s + 1 else countFrom sub 0 s

/-- The occurrences of a text that is not empty, without overlaps. -/
def count (s sub : List α) : ℕ := countFrom sub 0 s

/-- Behind the next `k` elements, every occurrence of `old` is replaced, the leftmost first. -/
def replaceFrom (old new : List α) : ℕ → List α → List α
  | _, [] => []
  | k + 1, _ :: s => replaceFrom old new k s
  | 0, c :: s =>
      if old <+: c :: s then new ++ replaceFrom old new (old.length - 1) s
      else c :: replaceFrom old new 0 s

variable {old new s : List α} {c : α}

theorem count_singleton : count s [c] = s.count c := by
  induction s with
  | nil => rfl
  | cons d s ih =>
      have hpre : [c] <+: d :: s ↔ d = c := by simp [List.cons_prefix_cons, eq_comm]
      have hstep : count (d :: s) [c] = if [c] <+: d :: s then count s [c] + 1 else count s [c] :=
        rfl
      rw [hstep, ih, List.count_cons]
      by_cases hd : d = c
      · rw [if_pos (hpre.mpr hd), if_pos (beq_iff_eq.mpr hd)]
      · rw [if_neg (mt hpre.mp hd), if_neg (mt beq_iff_eq.mp hd)]
        rfl

theorem replaceFrom_skip (t : List α) : replaceFrom old new t.length (t ++ s) =
    replaceFrom old new 0 s := by
  induction t with
  | nil => rfl
  | cons d t ih => exact ih

/-- **An occurrence at the start is replaced.** -/
theorem replaceFrom_append (h : old ≠ []) :
    replaceFrom old new 0 (old ++ s) = new ++ replaceFrom old new 0 s := by
  obtain ⟨d, t, rfl⟩ := List.exists_cons_of_ne_nil h
  have hpre : d :: t <+: d :: (t ++ s) := List.prefix_append (d :: t) s
  rw [List.cons_append, replaceFrom, if_pos hpre, List.length_cons, Nat.add_sub_cancel,
    replaceFrom_skip]

theorem replaceFrom_cons_of_absent (h : ¬ old <+: c :: s) :
    replaceFrom old new 0 (c :: s) = c :: replaceFrom old new 0 s := if_neg h

/-- A text that ends outside `old` and holds no occurrence of it stays. -/
theorem replaceFrom_append_of_absent {t : List α} (hc : c ∉ old) (hne : old ≠ [])
    (ht : ¬ old <:+: t) :
    replaceFrom old new 0 (t ++ c :: s) = t ++ c :: replaceFrom old new 0 s := by
  induction t with
  | nil =>
      refine replaceFrom_cons_of_absent fun h => hne ?_
      exact List.prefix_nil.mp (prefix_of_prefix_append_cons (t := []) hc h)
  | cons d t ih =>
      have hstep : replaceFrom old new 0 (d :: (t ++ c :: s)) =
          d :: replaceFrom old new 0 (t ++ c :: s) := by
        refine replaceFrom_cons_of_absent fun h => ht ?_
        exact (prefix_of_prefix_append_cons (t := d :: t) hc h).isInfix
      have ht' : ¬ old <:+: t := fun h => ht (h.trans (List.suffix_cons d t).isInfix)
      rw [List.cons_append, hstep, ih ht', List.cons_append]

end

/-- `new` before every rune and at the end. -/
def insertFrom (new : List UInt8) : ℕ → List UInt8 → List UInt8
  | _, [] => new
  | k + 1, b :: s => b :: insertFrom new k s
  | 0, b :: s => new ++ b :: insertFrom new ((Utf8.decodeRune (b :: s)).2 - 1) s

/-- `strings.Replace(s, old, new, -1)`. -/
def replace (s old new : List UInt8) : List UInt8 :=
  if old = [] then insertFrom new 0 s else replaceFrom old new 0 s

/-! ## Lower case -/

def isUpper (b : UInt8) : Bool := 65 ≤ b && b ≤ 90

def lowerByte (b : UInt8) : UInt8 := if isUpper b then b + 32 else b

/-- `unicode.ToLower`, by what it does to ASCII: there it is the ASCII lower-casing, and it maps no
rune to a capital of ASCII. -/
structure Lowering where
  map : Char → Char
  map_ascii : ∀ b : UInt8, b < 128 → map (Utf8.ascii b) = Utf8.ascii (lowerByte b)
  not_upper : ∀ c b, isUpper b = true → map c ≠ Utf8.ascii b

/-- `strings.ToLower`: byte by byte where every byte is ASCII. -/
def toLower (L : Lowering) (s : List UInt8) : List UInt8 :=
  if s.all (· < 128) then s.map lowerByte else Utf8.encode ((Utf8.runes s).map L.map)

variable {L : Lowering} {b : UInt8} {s t : List UInt8}

theorem lowerByte_lt (h : b < 128) : lowerByte b < 128 := by
  unfold lowerByte isUpper
  split
  case isTrue hu =>
    rw [Bool.and_eq_true, decide_eq_true_eq, decide_eq_true_eq, UInt8.le_iff_toNat_le,
      UInt8.le_iff_toNat_le] at hu
    rw [UInt8.lt_iff_toNat_lt, UInt8.toNat_add]
    have h90 : b.toNat ≤ 90 := hu.2
    show (b.toNat + 32) % 256 < 128
    omega
  case isFalse => exact h

/-- Byte by byte is rune by rune where every byte is ASCII. -/
theorem encode_map_ascii (h : ∀ b ∈ s, b < 128) :
    Utf8.encode ((s.map Utf8.ascii).map L.map) = s.map lowerByte := by
  induction s with
  | nil => rfl
  | cons b s ih =>
      have hb : b < 128 := h b List.mem_cons_self
      rw [List.map_cons, List.map_cons, Utf8.encode_cons, L.map_ascii b hb,
        Utf8.utf8EncodeChar_ascii (lowerByte_lt hb), ih fun d hd => h d (List.mem_cons_of_mem _ hd)]
      rfl

theorem toLower_eq : toLower L s = Utf8.encode ((Utf8.runes s).map L.map) := by
  unfold toLower
  split
  case isTrue h =>
    have hs : ∀ b ∈ s, b < 128 := by simpa using h
    have hruns : Utf8.runes (s ++ []) = s.map Utf8.ascii ++ Utf8.runes [] :=
      Utf8.runes_ascii_append hs
    rw [List.append_nil, show Utf8.runes [] = [] from rfl, List.append_nil] at hruns
    rw [hruns, encode_map_ascii hs]
  case isFalse => rfl

/-- **ASCII text is lower-cased where it stands.** -/
theorem toLower_append_ascii {w : List UInt8} (hne : w ≠ []) (hw : ∀ b ∈ w, b < 128) :
    toLower L (s ++ (w ++ t)) = toLower L s ++ (w.map lowerByte ++ toLower L t) := by
  have hruns : Utf8.runes (s ++ (w ++ t)) = Utf8.runes s ++ Utf8.runes (w ++ t) := by
    obtain ⟨b, w', rfl⟩ := List.exists_cons_of_ne_nil hne
    have hb : b < 128 := hw b List.mem_cons_self
    have hhead : Utf8.runes (b :: (w' ++ t)) = Utf8.ascii b :: Utf8.runes (w' ++ t) :=
      Utf8.runes_append_ascii (a := []) hb
    rw [List.cons_append, Utf8.runes_append_ascii hb, hhead]
  simp only [toLower_eq]
  rw [hruns, Utf8.runes_ascii_append hw, List.map_append, List.map_append, Utf8.encode_append,
    Utf8.encode_append, encode_map_ascii hw]

/-- **Lower-casing a valid string goes piecewise.** -/
theorem toLower_bytes_append {x y : String} :
    toLower L (Utf8.bytes (x ++ y)) = toLower L (Utf8.bytes x) ++ toLower L (Utf8.bytes y) := by
  simp only [toLower_eq, Utf8.runes_bytes, String.toList_append, List.map_append,
    Utf8.encode_append]

theorem charToLower_ascii (h : b < 128) : (Utf8.ascii b).toLower = Utf8.ascii (lowerByte b) := by
  have hall : ∀ n : Fin 128, (Utf8.ascii (UInt8.ofNat n)).toLower =
      Utf8.ascii (lowerByte (UInt8.ofNat n)) := by decide
  simpa using hall ⟨b.toNat, UInt8.lt_iff_toNat_lt.mp h⟩

theorem charToLower_ne {c : Char} (h : isUpper b = true) : c.toLower ≠ Utf8.ascii b := by
  rw [isUpper, Bool.and_eq_true, decide_eq_true_eq, decide_eq_true_eq, UInt8.le_iff_toNat_le,
    UInt8.le_iff_toNat_le] at h
  obtain ⟨h65, h90⟩ : 65 ≤ b.toNat ∧ b.toNat ≤ 90 := h
  intro hc
  have hval : c.toLower.val.toNat = b.toNat := by
    rw [hc, Utf8.toNat_val_ascii (UInt8.lt_iff_toNat_lt.mpr (Nat.lt_of_le_of_lt h90 (by decide)))]
  unfold Char.toLower at hval
  split at hval
  case isTrue hu =>
    obtain ⟨hA, hZ⟩ : 65 ≤ c.val.toNat ∧ c.val.toNat ≤ 90 := hu
    have hsum : (c.val + ('a'.val - 'A'.val)).toNat = (c.val.toNat + 32) % 2 ^ 32 :=
      UInt32.toNat_add c.val 32
    rw [hsum] at hval
    omega
  case isFalse hu =>
    exact hu ⟨show 65 ≤ c.val.toNat by omega, show c.val.toNat ≤ 90 by omega⟩

/-- The lower-casing that knows the letters of ASCII only. -/
def asciiLowering : Lowering where
  map := Char.toLower
  map_ascii _ := charToLower_ascii
  not_upper _ _ := charToLower_ne

theorem not_upper_of_mem_toLower (h : b ∈ toLower L s) : isUpper b = false := by
  by_contra hu
  rw [Bool.not_eq_false] at hu
  have hlt : b < 128 := by
    rw [isUpper, Bool.and_eq_true, decide_eq_true_eq, decide_eq_true_eq] at hu
    exact UInt8.lt_of_le_of_lt hu.2 (by decide)
  rw [toLower_eq] at h
  obtain ⟨c, hc, hb⟩ := List.mem_flatMap.mp h
  obtain ⟨d, -, rfl⟩ := List.mem_map.mp hc
  exact L.not_upper d b hu (Utf8.eq_ascii_of_mem_utf8EncodeChar hlt hb)

end Strings
