import Mathlib.Data.List.Basic
import Mathlib.Tactic.Common

/-!
# Base64 for URLs

The alphabet with `-` and `_`, without padding. The decoder is strict: the unused bits of the last
digit must be zero. That of Go's `RawURLEncoding` is not, and it skips the ends of lines.

* `digit`, `index`: the alphabet;
* `encode`, `decode`, `decodeLoose`, `decodeRawURL`;
* **`decode_encode`**, `decodeRawURL_encode`: the round trips;
* `dot_notMem_encode`: no dot in a text.
-/

set_option autoImplicit false

namespace Base64

/-- The digit of a value below `64`. -/
def digit (n : ℕ) : Char :=
  if n < 26 then Char.ofNat (65 + n)
  else if n < 52 then Char.ofNat (71 + n)
  else if n < 62 then Char.ofNat (n - 4)
  else if n = 62 then '-'
  else '_'

/-- The value of a digit. -/
def index (c : Char) : Option ℕ :=
  if c.isUpper then some (c.toNat - 65)
  else if c.isLower then some (c.toNat - 71)
  else if c.isDigit then some (c.toNat + 4)
  else if c = '-' then some 62
  else if c = '_' then some 63
  else none

theorem index_digit {n : ℕ} (h : n < 64) : index (digit n) = some n := by
  have : ∀ n : Fin 64, index (digit n.val) = some n.val := by decide
  exact this ⟨n, h⟩

theorem index_dot : index '.' = none := by decide

/-- Three bytes are four digits. -/
def encode : List UInt8 → List Char
  | a :: b :: c :: bs =>
    digit (a.toNat / 4) :: digit (a.toNat % 4 * 16 + b.toNat / 16) ::
      digit (b.toNat % 16 * 4 + c.toNat / 64) :: digit (c.toNat % 64) :: encode bs
  | [a, b] =>
    [digit (a.toNat / 4), digit (a.toNat % 4 * 16 + b.toNat / 16), digit (b.toNat % 16 * 4)]
  | [a] => [digit (a.toNat / 4), digit (a.toNat % 4 * 16)]
  | [] => []

/-- The first of the bytes that two digits overlap. -/
def byte₁ (w x : ℕ) : UInt8 := UInt8.ofNat (w * 4 + x / 16)

def byte₂ (x y : ℕ) : UInt8 := UInt8.ofNat (x % 16 * 16 + y / 4)

def byte₃ (y z : ℕ) : UInt8 := UInt8.ofNat (y % 4 * 64 + z)

def decode : List Char → Option (List UInt8)
  | w :: x :: y :: z :: cs =>
    match index w, index x, index y, index z with
    | some w, some x, some y, some z =>
      (decode cs).map fun bs => byte₁ w x :: byte₂ x y :: byte₃ y z :: bs
    | _, _, _, _ => none
  | [w, x, y] =>
    match index w, index x, index y with
    | some w, some x, some y => if y % 4 = 0 then some [byte₁ w x, byte₂ x y] else none
    | _, _, _ => none
  | [w, x] =>
    match index w, index x with
    | some w, some x => if x % 16 = 0 then some [byte₁ w x] else none
    | _, _ => none
  | [_] => none
  | [] => some []

theorem byte₁_eq (a : UInt8) {r : ℕ} (hr : r < 16) :
    byte₁ (a.toNat / 4) (a.toNat % 4 * 16 + r) = a := by
  have h : a.toNat / 4 * 4 + (a.toNat % 4 * 16 + r) / 16 = a.toNat := by omega
  rw [byte₁, h, UInt8.ofNat_toNat]

theorem byte₂_eq (q : ℕ) (b : UInt8) {r : ℕ} (hr : r < 4) :
    byte₂ (q * 16 + b.toNat / 16) (b.toNat % 16 * 4 + r) = b := by
  have hb := b.toNat_lt
  have h : (q * 16 + b.toNat / 16) % 16 * 16 + (b.toNat % 16 * 4 + r) / 4 = b.toNat := by omega
  rw [byte₂, h, UInt8.ofNat_toNat]

theorem byte₃_eq (q : ℕ) (c : UInt8) : byte₃ (q * 4 + c.toNat / 64) (c.toNat % 64) = c := by
  have hc := c.toNat_lt
  have h : (q * 4 + c.toNat / 64) % 4 * 64 + c.toNat % 64 = c.toNat := by omega
  rw [byte₃, h, UInt8.ofNat_toNat]

/-- **Bytes survive encoding.** -/
theorem decode_encode (bs : List UInt8) : decode (encode bs) = some bs := by
  fun_induction encode bs with
  | case1 a b c bs ih =>
      have ha := a.toNat_lt
      have hb := b.toNat_lt
      have hc := c.toNat_lt
      simp only [decode, index_digit (show a.toNat / 4 < 64 by omega),
        index_digit (show a.toNat % 4 * 16 + b.toNat / 16 < 64 by omega),
        index_digit (show b.toNat % 16 * 4 + c.toNat / 64 < 64 by omega),
        index_digit (show c.toNat % 64 < 64 by omega), ih, Option.map_some,
        byte₁_eq a (show b.toNat / 16 < 16 by omega), byte₂_eq _ b (show c.toNat / 64 < 4 by omega),
        byte₃_eq]
  | case2 a b =>
      have ha := a.toNat_lt
      have hb := b.toNat_lt
      have h2 := byte₂_eq (a.toNat % 4) b (show 0 < 4 by decide)
      rw [Nat.add_zero] at h2
      simp only [decode, index_digit (show a.toNat / 4 < 64 by omega),
        index_digit (show a.toNat % 4 * 16 + b.toNat / 16 < 64 by omega),
        index_digit (show b.toNat % 16 * 4 < 64 by omega),
        byte₁_eq a (show b.toNat / 16 < 16 by omega), h2, Nat.mul_mod_left, if_true]
  | case3 a =>
      have ha := a.toNat_lt
      have h1 := byte₁_eq a (show 0 < 16 by decide)
      rw [Nat.add_zero] at h1
      simp only [decode, index_digit (show a.toNat / 4 < 64 by omega),
        index_digit (show a.toNat % 4 * 16 < 64 by omega), h1, Nat.mul_mod_left, if_true]
  | case4 => rfl

theorem digit_ne_of_index {c : Char} (h : index c = none) (h' : c ≠ '_') (n : ℕ) :
    digit n ≠ c := by
  by_cases hn : n < 64
  · intro hd
    have := index_digit hn
    rw [hd, h] at this
    cases this
  · rw [digit, if_neg (by omega), if_neg (by omega), if_neg (by omega), if_neg (by omega)]
    exact h'.symm

theorem digit_ne_dot (n : ℕ) : digit n ≠ '.' := digit_ne_of_index index_dot (by decide) n

theorem exists_digit_of_mem_encode {bs : List UInt8} {c : Char} (h : c ∈ encode bs) :
    ∃ n, c = digit n := by
  fun_induction encode bs with
  | case1 a b c' bs ih =>
      simp only [List.mem_cons] at h
      rcases h with h | h | h | h | h
      · exact ⟨_, h⟩
      · exact ⟨_, h⟩
      · exact ⟨_, h⟩
      · exact ⟨_, h⟩
      · exact ih h
  | case2 a b =>
      simp only [List.mem_cons, List.not_mem_nil, or_false] at h
      rcases h with h | h | h
      · exact ⟨_, h⟩
      · exact ⟨_, h⟩
      · exact ⟨_, h⟩
  | case3 a =>
      simp only [List.mem_cons, List.not_mem_nil, or_false] at h
      rcases h with h | h
      · exact ⟨_, h⟩
      · exact ⟨_, h⟩
  | case4 => cases h

/-- A text in base64 has no dot. -/
theorem dot_notMem_encode (bs : List UInt8) : '.' ∉ encode bs := by
  intro h
  obtain ⟨n, hn⟩ := exists_digit_of_mem_encode h
  exact digit_ne_dot n hn.symm

/-! ## Without strictness -/

def decodeLoose : List Char → Option (List UInt8)
  | w :: x :: y :: z :: cs =>
    match index w, index x, index y, index z with
    | some w, some x, some y, some z =>
      (decodeLoose cs).map fun bs => byte₁ w x :: byte₂ x y :: byte₃ y z :: bs
    | _, _, _, _ => none
  | [w, x, y] =>
    match index w, index x, index y with
    | some w, some x, some y => some [byte₁ w x, byte₂ x y]
    | _, _, _ => none
  | [w, x] =>
    match index w, index x with
    | some w, some x => some [byte₁ w x]
    | _, _ => none
  | [_] => none
  | [] => some []

/-- `base64.RawURLEncoding.DecodeString`. -/
def decodeRawURL (cs : List Char) : Option (List UInt8) :=
  decodeLoose (cs.filter fun c => c ≠ '\r' ∧ c ≠ '\n')

theorem decodeLoose_of_decode {cs : List Char} {bs : List UInt8} (h : decode cs = some bs) :
    decodeLoose cs = some bs := by
  fun_induction decode cs generalizing bs with
  | case1 w x y z cs w' x' y' z' hw hx hy hz ih =>
      obtain ⟨bs', hbs, rfl⟩ := Option.map_eq_some_iff.mp h
      simp only [decodeLoose, hw, hx, hy, hz, ih hbs, Option.map_some]
  | case3 w x y w' x' y' hw hx hy hbits => simpa only [decodeLoose, hw, hx, hy] using h
  | case6 w x w' x' hw hx hbits => simpa only [decodeLoose, hw, hx] using h
  | case10 => exact h
  | _ => cases h

/-- **Go reads back what is encoded.** -/
theorem decodeRawURL_encode (bs : List UInt8) : decodeRawURL (encode bs) = some bs := by
  have hline : ∀ c ∈ encode bs, (decide (c ≠ '\r' ∧ c ≠ '\n')) = true := by
    intro c hc
    obtain ⟨n, rfl⟩ := exists_digit_of_mem_encode hc
    exact decide_eq_true ⟨digit_ne_of_index (by decide) (by decide) n,
      digit_ne_of_index (by decide) (by decide) n⟩
  rw [decodeRawURL, List.filter_eq_self.mpr hline]
  exact decodeLoose_of_decode (decode_encode bs)

end Base64
