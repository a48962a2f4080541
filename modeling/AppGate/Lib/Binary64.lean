import Mathlib.Algebra.Group.Int.Defs
import Mathlib.Algebra.Group.Nat.Defs
import Mathlib.Data.Int.Notation
import Mathlib.Data.Nat.Log
import Mathlib.Order.Basic
import Mathlib.Tactic.Common
import Mathlib.Tactic.Positivity
import Mathlib.Tactic.Ring

/-!
# Integers in binary64

An integer stored in a binary64 is rounded to a 53-bit significand, to nearest with ties to even.
The values stay integers, so the result is again an integer.

* `roundNat`, `round`;
* `roundNat_of_lt`, `round_of_lt`: integers below `2 ^ 53` are stored exactly;
* `roundNat_mono`: rounding is monotone; `lt_round_iff`: it keeps an integer above or below a bound
  less than `2 ^ 53`;
* `roundNat_roundNat`: a rounded integer is stored as it is; `Stored`: the natural numbers that are,
  with the sum of two rounded to one of them, monotone and never less than what is added to;
* `shortestNat`, `shortest`: the integer with the fewest digits that is stored as a given one;
* **`shortest_round_of_lt`**: an integer below `2 ^ 53` is stored and shown as it is.
-/

set_option autoImplicit false

namespace Binary64

/-- The nearest binary64 of a natural number. -/
def roundNat (n : ℕ) : ℕ :=
  if n < 2 ^ 53 then n
  else
    let ulp := 2 ^ (n.log2 - 52)
    let q := n / ulp
    let r := n % ulp
    if 2 * r < ulp ∨ 2 * r = ulp ∧ q % 2 = 0 then q * ulp else (q + 1) * ulp

/-- The nearest binary64 of an integer. -/
def round : ℤ → ℤ
  | .ofNat n => roundNat n
  | .negSucc n => -(roundNat (n + 1) : ℤ)

example : roundNat (2 ^ 53 + 1) = 2 ^ 53 := by decide

example : roundNat (2 ^ 53 + 3) = 2 ^ 53 + 4 := by decide

theorem roundNat_of_lt {n : ℕ} (h : n < 2 ^ 53) : roundNat n = n := if_pos h

theorem round_of_lt {n : ℤ} (h : n.natAbs < 2 ^ 53) : round n = n := by
  cases n with
  | ofNat n =>
      show ((roundNat n : ℕ) : ℤ) = n
      rw [roundNat_of_lt (show n < 2 ^ 53 from h)]
  | negSucc n =>
      show -((roundNat (n + 1) : ℕ) : ℤ) = Int.negSucc n
      rw [roundNat_of_lt (show n + 1 < 2 ^ 53 from h)]
      rfl

theorem lt_two_pow {n k : ℕ} (h : n < 2 ^ 53) (hk : 53 ≤ k) : n < 2 ^ k :=
  Nat.lt_of_lt_of_le h (Nat.pow_le_pow_right (by decide) hk)

/-! ## Bounds -/

/-- The nearest multiple of `ulp`, and between two of them the even one. -/
def nearest (ulp n : ℕ) : ℕ :=
  if 2 * (n % ulp) < ulp ∨ 2 * (n % ulp) = ulp ∧ n / ulp % 2 = 0 then n / ulp * ulp
  else (n / ulp + 1) * ulp

theorem roundNat_of_le {n : ℕ} (h : 2 ^ 53 ≤ n) : roundNat n = nearest (2 ^ (n.log2 - 52)) n :=
  if_neg (Nat.not_lt.mpr h)

theorem div_mul_le_nearest (ulp n : ℕ) : n / ulp * ulp ≤ nearest ulp n := by
  unfold nearest
  split_ifs
  · exact Nat.le_refl _
  · exact Nat.mul_le_mul_right ulp (Nat.le_succ _)

theorem nearest_le_succ_mul (ulp n : ℕ) : nearest ulp n ≤ (n / ulp + 1) * ulp := by
  unfold nearest
  split_ifs
  · exact Nat.mul_le_mul_right ulp (Nat.le_succ _)
  · exact Nat.le_refl _

theorem nearest_mono (ulp : ℕ) {m n : ℕ} (h : m ≤ n) : nearest ulp m ≤ nearest ulp n := by
  rcases Nat.lt_or_eq_of_le (Nat.div_le_div_right (c := ulp) h) with hlt | heq
  · calc nearest ulp m ≤ (m / ulp + 1) * ulp := nearest_le_succ_mul ulp m
      _ ≤ n / ulp * ulp := Nat.mul_le_mul_right ulp hlt
      _ ≤ nearest ulp n := div_mul_le_nearest ulp n
  · -- between the same two multiples the remainders decide
    have hmod : m % ulp ≤ n % ulp := by
      have hm := Nat.div_add_mod m ulp
      have hn := Nat.div_add_mod n ulp
      rw [heq] at hm
      omega
    unfold nearest
    rw [heq]
    split_ifs
    · exact Nat.le_refl _
    · exact Nat.mul_le_mul_right ulp (Nat.le_succ _)
    · omega
    · exact Nat.le_refl _

theorem log2_split {n : ℕ} (h : 2 ^ 53 ≤ n) : 2 ^ n.log2 = 2 ^ 52 * 2 ^ (n.log2 - 52) := by
  have hlog : 53 ≤ n.log2 := (Nat.le_log2 (by omega)).mpr h
  rw [← Nat.pow_add]
  congr 1
  omega

theorem log2_succ_split {n : ℕ} (h : 2 ^ 53 ≤ n) :
    2 ^ (n.log2 + 1) = 2 ^ 53 * 2 ^ (n.log2 - 52) := by
  have hsucc : 2 ^ (n.log2 + 1) = 2 ^ n.log2 * 2 := Nat.pow_succ _ _
  rw [hsucc, log2_split h]
  omega

theorem two_pow_log2_le_roundNat {n : ℕ} (h : 2 ^ 53 ≤ n) : 2 ^ n.log2 ≤ roundNat n := by
  have hquot : 2 ^ 52 ≤ n / 2 ^ (n.log2 - 52) := by
    rw [Nat.le_div_iff_mul_le (Nat.two_pow_pos _), ← log2_split h]
    exact Nat.log2_self_le (by omega)
  rw [roundNat_of_le h]
  calc 2 ^ n.log2 = 2 ^ 52 * 2 ^ (n.log2 - 52) := log2_split h
    _ ≤ n / 2 ^ (n.log2 - 52) * 2 ^ (n.log2 - 52) := Nat.mul_le_mul_right _ hquot
    _ ≤ nearest (2 ^ (n.log2 - 52)) n := div_mul_le_nearest _ n

theorem roundNat_le_two_pow {n : ℕ} (h : 2 ^ 53 ≤ n) : roundNat n ≤ 2 ^ (n.log2 + 1) := by
  have hquot : n / 2 ^ (n.log2 - 52) < 2 ^ 53 := by
    rw [Nat.div_lt_iff_lt_mul (Nat.two_pow_pos _)]
    calc n < 2 ^ (n.log2 + 1) := Nat.lt_log2_self
      _ = 2 ^ 53 * 2 ^ (n.log2 - 52) := log2_succ_split h
  rw [roundNat_of_le h]
  calc nearest (2 ^ (n.log2 - 52)) n ≤ (n / 2 ^ (n.log2 - 52) + 1) * 2 ^ (n.log2 - 52) :=
        nearest_le_succ_mul _ n
    _ ≤ 2 ^ 53 * 2 ^ (n.log2 - 52) := Nat.mul_le_mul_right _ hquot
    _ = 2 ^ (n.log2 + 1) := (log2_succ_split h).symm

/-- What does not fit into 53 bits is not rounded to less. -/
theorem le_roundNat {n : ℕ} (h : 2 ^ 53 ≤ n) : 2 ^ 53 ≤ roundNat n :=
  calc 2 ^ 53 ≤ 2 ^ n.log2 := Nat.pow_le_pow_right (by decide) ((Nat.le_log2 (by omega)).mpr h)
    _ ≤ roundNat n := two_pow_log2_le_roundNat h

/-- **Rounding is monotone.** -/
theorem roundNat_mono {m n : ℕ} (h : m ≤ n) : roundNat m ≤ roundNat n := by
  by_cases hm : m < 2 ^ 53
  · by_cases hn : n < 2 ^ 53
    · rwa [roundNat_of_lt hm, roundNat_of_lt hn]
    · have hle := le_roundNat (Nat.not_lt.mp hn)
      rw [roundNat_of_lt hm]
      omega
  · have hm' : 2 ^ 53 ≤ m := Nat.not_lt.mp hm
    have hn' : 2 ^ 53 ≤ n := Nat.le_trans hm' h
    have hlog : m.log2 ≤ n.log2 :=
      (Nat.le_log2 (by omega)).mpr (Nat.le_trans (Nat.log2_self_le (by omega)) h)
    rcases Nat.lt_or_eq_of_le hlog with hlt | heq
    · -- a power of two lies between them
      calc roundNat m ≤ 2 ^ (m.log2 + 1) := roundNat_le_two_pow hm'
        _ ≤ 2 ^ n.log2 := Nat.pow_le_pow_right (by decide) hlt
        _ ≤ roundNat n := two_pow_log2_le_roundNat hn'
    · rw [roundNat_of_le hm', roundNat_of_le hn', heq]
      exact nearest_mono _ h

/-! ## Stored numbers -/

theorem nearest_mul (k : ℕ) {ulp : ℕ} (hu : 0 < ulp) : nearest ulp (k * ulp) = k * ulp := by
  unfold nearest
  rw [Nat.mul_mod_left, if_pos (Or.inl (by omega)), Nat.mul_div_cancel k hu]

theorem nearest_eq_mul (ulp n : ℕ) :
    nearest ulp n = n / ulp * ulp ∨ nearest ulp n = (n / ulp + 1) * ulp := by
  unfold nearest
  split_ifs
  · exact Or.inl rfl
  · exact Or.inr rfl

/-- A multiple of `2 ^ e` with a quotient of 53 bits is stored. -/
theorem roundNat_mul {k e : ℕ} (hlow : 2 ^ 52 ≤ k) (hk : k < 2 ^ 53) :
    roundNat (k * 2 ^ (e + 1)) = k * 2 ^ (e + 1) := by
  have hlog : (k * 2 ^ (e + 1)).log2 = e + 53 := by
    refine (Nat.log2_eq_iff (by positivity)).mpr ⟨?_, ?_⟩
    · calc 2 ^ (e + 53) = 2 ^ 52 * 2 ^ (e + 1) := by ring
        _ ≤ k * 2 ^ (e + 1) := Nat.mul_le_mul_right _ hlow
    · calc k * 2 ^ (e + 1) < 2 ^ 53 * 2 ^ (e + 1) := Nat.mul_lt_mul_of_pos_right hk (by positivity)
        _ = 2 ^ (e + 53 + 1) := by ring
  have hge : 2 ^ 53 ≤ k * 2 ^ (e + 1) :=
    calc 2 ^ 53 ≤ 2 ^ 52 * 2 ^ (e + 1) := by
          rw [← Nat.pow_add]
          exact Nat.pow_le_pow_right (by decide) (by omega)
      _ ≤ k * 2 ^ (e + 1) := Nat.mul_le_mul_right _ hlow
  rw [roundNat_of_le hge, hlog, show e + 53 - 52 = e + 1 by omega]
  exact nearest_mul k (by positivity)

/-- **What is rounded is stored as it is.** -/
theorem roundNat_roundNat (n : ℕ) : roundNat (roundNat n) = roundNat n := by
  by_cases hn : n < 2 ^ 53
  · rw [roundNat_of_lt hn, roundNat_of_lt hn]
  · have hle := Nat.not_lt.mp hn
    have hlog : 53 ≤ n.log2 := (Nat.le_log2 (by omega)).mpr hle
    obtain ⟨e, he⟩ : ∃ e, n.log2 - 52 = e + 1 := ⟨n.log2 - 53, by omega⟩
    have hlow : 2 ^ 52 ≤ n / 2 ^ (e + 1) := by
      rw [Nat.le_div_iff_mul_le (Nat.two_pow_pos _), ← he, ← log2_split hle]
      exact Nat.log2_self_le (by omega)
    have hup : n / 2 ^ (e + 1) < 2 ^ 53 := by
      rw [Nat.div_lt_iff_lt_mul (Nat.two_pow_pos _), ← he, ← log2_succ_split hle]
      exact Nat.lt_log2_self
    rw [roundNat_of_le hle, he]
    rcases nearest_eq_mul (2 ^ (e + 1)) n with h | h
    · rw [h, roundNat_mul hlow hup]
    · rw [h]
      by_cases hcarry : n / 2 ^ (e + 1) + 1 < 2 ^ 53
      · exact roundNat_mul (by omega) hcarry
      · -- the carry into the next power of two
        rw [show n / 2 ^ (e + 1) + 1 = 2 ^ 52 * 2 by omega, Nat.mul_assoc, ← Nat.pow_succ']
        exact roundNat_mul (Nat.le_refl _) (by decide)

/-- A natural number that is stored exactly. -/
def Stored : Type := { n : ℕ // roundNat n = n }

namespace Stored

instance : LinearOrder Stored := inferInstanceAs (LinearOrder { n : ℕ // roundNat n = n })

/-- The sum of two stored numbers, rounded. -/
def add (x y : Stored) : Stored := ⟨roundNat (x.val + y.val), roundNat_roundNat _⟩

theorem add_le_add_right {x y : Stored} (h : x ≤ y) (z : Stored) : x.add z ≤ y.add z :=
  roundNat_mono (Nat.add_le_add_right h z.val)

theorem le_add (x y : Stored) : x ≤ x.add y :=
  calc x.val = roundNat x.val := x.property.symm
    _ ≤ roundNat (x.val + y.val) := roundNat_mono (Nat.le_add_right _ _)

end Stored

/-! ## Bounds that rounding keeps -/

theorem roundNat_lt_iff {n : ℕ} : roundNat n < 2 ^ 53 ↔ n < 2 ^ 53 := by
  constructor
  · intro h
    by_contra hn
    exact absurd (le_roundNat (Nat.not_lt.mp hn)) (Nat.not_le.mpr h)
  · intro h
    rwa [roundNat_of_lt h]

theorem lt_roundNat_iff {k n : ℕ} (hk : k < 2 ^ 53) : k < roundNat n ↔ k < n := by
  by_cases hn : n < 2 ^ 53
  · rw [roundNat_of_lt hn]
  · have hle := le_roundNat (Nat.not_lt.mp hn)
    omega

theorem lt_round_iff {k : ℕ} {n : ℤ} (hk : k < 2 ^ 53) : (k : ℤ) < round n ↔ (k : ℤ) < n := by
  cases n with
  | ofNat n =>
      show (k : ℤ) < (roundNat n : ℕ) ↔ (k : ℤ) < (n : ℕ)
      rw [Int.ofNat_lt, Int.ofNat_lt, lt_roundNat_iff hk]
  | negSucc n =>
      show (k : ℤ) < -((roundNat (n + 1) : ℕ) : ℤ) ↔ (k : ℤ) < Int.negSucc n
      omega

/-! ## Decimals -/

/-- The multiple of `p` next to `x` that is stored as `x`. Of two such multiples it is the closer
one, and between equally close ones the even one. -/
def candidate (x p : ℕ) : Option ℕ :=
  let lo := x / p * p
  let hi := lo + p
  if roundNat lo = x then
    if roundNat hi = x ∧ (hi - x < x - lo ∨ hi - x = x - lo ∧ x / p % 2 = 1) then some hi
    else some lo
  else if roundNat hi = x then some hi
  else none

/-- The number stored as `x` that is a multiple of the highest power of ten, up to the exponent
`e`. -/
def shortestFrom (x : ℕ) : ℕ → ℕ
  | 0 => x
  | e + 1 => (candidate x (10 ^ (e + 1))).getD (shortestFrom x e)

/-- The number with the fewest significant digits that is stored as `x`. -/
def shortestNat (x : ℕ) : ℕ := shortestFrom x (Nat.log 10 x)

/-- The integer with the fewest significant digits that is stored as `x`. -/
def shortest : ℤ → ℤ
  | .ofNat x => shortestNat x
  | .negSucc x => -(shortestNat (x + 1) : ℤ)

theorem roundNat_candidate {x p c : ℕ} (h : candidate x p = some c) : roundNat c = x := by
  unfold candidate at h
  dsimp only at h
  split_ifs at h with hlo hhi hhi
  · cases h
    exact hhi.1
  · cases h
    exact hlo
  · cases h
    exact hhi

/-- **The shortest number reads back.** -/
theorem roundNat_shortestFrom {x : ℕ} (hx : roundNat x = x) (e : ℕ) :
    roundNat (shortestFrom x e) = x := by
  induction e with
  | zero => exact hx
  | succ e ih =>
      rw [shortestFrom]
      cases hc : candidate x (10 ^ (e + 1)) with
      | none => exact ih
      | some c => exact roundNat_candidate hc

theorem shortestNat_of_lt {x : ℕ} (h : x < 2 ^ 53) : shortestNat x = x := by
  have hback : roundNat (shortestNat x) = x := roundNat_shortestFrom (roundNat_of_lt h) _
  have hlt : shortestNat x < 2 ^ 53 := roundNat_lt_iff.mp (by rw [hback]; exact h)
  rwa [roundNat_of_lt hlt] at hback

/-- **Integers below `2 ^ 53` are shown as they are.** -/
theorem shortest_round_of_lt {n : ℤ} (h : n.natAbs < 2 ^ 53) : shortest (round n) = n := by
  rw [round_of_lt h]
  cases n with
  | ofNat n =>
      show ((shortestNat n : ℕ) : ℤ) = n
      rw [shortestNat_of_lt (show n < 2 ^ 53 from h)]
  | negSucc n =>
      show -((shortestNat (n + 1) : ℕ) : ℤ) = Int.negSucc n
      rw [shortestNat_of_lt (show n + 1 < 2 ^ 53 from h)]
      rfl

end Binary64
