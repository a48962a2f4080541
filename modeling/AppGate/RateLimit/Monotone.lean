import AppGate.RateLimit.Gateway

/-!
# Larger limits and shorter windows

`check_redis` on one sorted set at one time, with different limits and windows. The limit is
compared after the cast `limit as i64`, and `EXPIRE` takes only windows whose end fits in 64 bits.

* `Admits`, `Fits`, **`admits_iff`**: when a check admits;
* `isFull_eq_false`, `windowStart_anti`, `zcard_prune_anti`: what a larger limit and a shorter
  window do;
* **`monotone_iff`**: when raising the limit and shortening the window keep an admission.
-/

set_option autoImplicit false

namespace AppGate.RateLimiterService

open Redis

/-- The call is admitted. -/
def Admits (k : Window) (c : Call) : Prop := (checkRedisKey k c).1 = .ok true

instance (k : Window) (c : Call) : Decidable (Admits k c) :=
  inferInstanceAs (Decidable ((checkRedisKey k c).1 = .ok true))

/-- `EXPIRE` at `clock` takes the window, as `window as i64`. -/
def Fits (clock : ℕ) (window : UInt64) : Prop :=
  -2 ^ 63 ≤ asI64 window * 1000 ∧ asI64 window * 1000 + clock < 2 ^ 63

instance (clock : ℕ) (window : UInt64) : Decidable (Fits clock window) :=
  inferInstanceAs (Decidable (_ ∧ _))

/-- **When a check admits**: the set is not full after pruning, and `EXPIRE` takes the window. -/
theorem admits_iff {k : Window} {c : Call} :
    Admits k c ↔ isFull c.clock c.limit (prune c.clock (nowAt c.clock) c.window k) = false ∧
      Fits c.clock c.window := by
  have hfits : (∃ k', touch c.clock c.window (add c.clock (nowAt c.clock) c.uuid
      (prune c.clock (nowAt c.clock) c.window k)) = .ok k') ↔ Fits c.clock c.window :=
    exists_expire_eq_ok
  unfold Admits checkRedisKey
  dsimp only
  rw [← hfits]
  cases isFull c.clock c.limit (prune c.clock (nowAt c.clock) c.window k) with
  | true => simp
  | false =>
      cases touch c.clock c.window (add c.clock (nowAt c.clock) c.uuid
        (prune c.clock (nowAt c.clock) c.window k)) <;> simp

/-! ## Casts -/

theorem asI64_of_le {x : UInt64} (h : 2 ^ 63 ≤ x.toNat) : asI64 x = x.toNat - 2 ^ 64 := by
  have hx : asI64 x = x.toBitVec.toInt := rfl
  rw [hx, BitVec.toInt_eq_toNat_cond, if_neg (by show ¬ 2 * x.toNat < 2 ^ 64; omega)]
  rfl

/-- `x as i64` is negative from `2 ^ 63` on. -/
theorem asI64_cases (x : UInt64) :
    x.toNat < 2 ^ 63 ∧ asI64 x = x.toNat ∨ 2 ^ 63 ≤ x.toNat ∧ asI64 x = x.toNat - 2 ^ 64 := by
  rcases Nat.lt_or_ge x.toNat (2 ^ 63) with h | h
  · exact .inl ⟨h, asI64_of_lt h⟩
  · exact .inr ⟨h, asI64_of_le h⟩

/-- The milliseconds of a window that `EXPIRE` takes: it is short, or wraps to the upper half. -/
theorem millis_cases {clock : ℕ} {window : UInt64} (h : Fits clock window) :
    ((window * 1000).toNat = window.toNat * 1000 ∧ window.toNat * 1000 + clock < 2 ^ 63) ∨
      ((window * 1000).toNat + (2 ^ 64 - window.toNat) * 1000 = 2 ^ 64 ∧
        2 ^ 63 ≤ (window * 1000).toNat ∧ 2 ^ 63 ≤ window.toNat) := by
  have hmul : (window * 1000).toNat = window.toNat * 1000 % 2 ^ 64 := UInt64.toNat_mul _ _
  have hlt := window.toNat_lt
  obtain ⟨hlow, hhigh⟩ := h
  rcases asI64_cases window with ⟨hc, he⟩ | ⟨hc, he⟩
  · rw [he] at hhigh
    left
    rw [hmul]
    exact ⟨Nat.mod_eq_of_lt (by omega), by omega⟩
  · rw [he] at hlow
    right
    have hsplit : window.toNat * 1000 = 2 ^ 64 - (2 ^ 64 - window.toNat) * 1000 + 2 ^ 64 * 999 := by
      omega
    rw [hmul, hsplit, Nat.add_mul_mod_self_left, Nat.mod_eq_of_lt (by omega)]
    omega

theorem windowStart_anti {clock : ℕ} {window window' : UInt64} (hw : window ≤ window')
    (h : Fits clock window) (h' : Fits clock window') :
    (windowStart (nowAt clock) window').toNat ≤ (windowStart (nowAt clock) window).toNat ∧
      (windowStart (nowAt clock) window).toNat < 2 ^ 63 := by
  have hnow : (nowAt clock).toNat = clock % 2 ^ 64 := UInt64.toNat_ofNat'
  have hlt := window.toNat_lt
  have hlt' := window'.toNat_lt
  have hmod : clock % 2 ^ 64 < 2 ^ 64 := Nat.mod_lt _ (Nat.two_pow_pos 64)
  have hle : clock % 2 ^ 64 ≤ clock := Nat.mod_le _ _
  rw [UInt64.le_iff_toNat_le] at hw
  rw [toNat_windowStart, toNat_windowStart, hnow]
  rcases millis_cases h with ⟨hm, hc⟩ | ⟨hm, hc, hu⟩ <;>
    rcases millis_cases h' with ⟨hm', hc'⟩ | ⟨hm', hc', hu'⟩ <;> omega

/-! ## What the checks do -/

/-- A shorter window prunes more. -/
theorem zcard_prune_anti {clock : ℕ} {window window' : UInt64} (hw : window ≤ window')
    (h : Fits clock window) (h' : Fits clock window') (k : Window) :
    zcard clock (prune clock (nowAt clock) window k) ≤
      zcard clock (prune clock (nowAt clock) window' k) := by
  obtain ⟨hle, hlt⟩ := windowStart_anti hw h h'
  refine zcard_zremrangebyscore_anti clock 0 ?_ k
  rw [asI64_of_lt hlt, asI64_of_lt (Nat.lt_of_le_of_lt hle hlt)]
  exact Int.ofNat_le.mpr (Binary64.roundNat_mono hle)

/-- A set that is not full has a limit below `2 ^ 63`. -/
theorem isFull_eq_false {clock : ℕ} {limit : UInt64} {k : Window} :
    isFull clock limit k = false ↔ limit.toNat < 2 ^ 63 ∧ zcard clock k < limit.toNat := by
  rw [isFull, decide_eq_false_iff_not]
  have hlt := limit.toNat_lt
  rcases asI64_cases limit with ⟨hc, he⟩ | ⟨hc, he⟩ <;> rw [he] <;> omega

/-- **Monotone within 63 bits.** For a call that is admitted, raising the limit and shortening the
window both keep the admission exactly when the larger limit is below `2 ^ 63` and `EXPIRE` takes
the shorter window. -/
theorem monotone_iff {k : Window} {c : Call} {limit' window : UInt64} (h : Admits k c)
    (hlimit : c.limit ≤ limit') (hwindow : window ≤ c.window) (uuid' uuid'' : ℕ) :
    Admits k { c with limit := limit', uuid := uuid' } ∧
        Admits k { c with window := window, uuid := uuid'' } ↔
      limit'.toNat < 2 ^ 63 ∧ Fits c.clock window := by
  rw [UInt64.le_iff_toNat_le] at hlimit
  obtain ⟨hfull, hfits⟩ := admits_iff.mp h
  obtain ⟨-, hcard⟩ := isFull_eq_false.mp hfull
  rw [admits_iff, admits_iff, isFull_eq_false, isFull_eq_false]
  constructor
  · rintro ⟨⟨⟨hl, -⟩, -⟩, -, hf⟩
    exact ⟨hl, hf⟩
  · rintro ⟨hl, hf⟩
    have hprune := zcard_prune_anti hwindow hf hfits k
    exact ⟨⟨⟨hl, Nat.lt_of_lt_of_le hcard hlimit⟩, hfits⟩,
      ⟨Nat.lt_of_le_of_lt hlimit hl, Nat.lt_of_le_of_lt hprune hcard⟩, hf⟩

/-- A set with one admission of ten seconds ago. -/
def oneAdmission : Window := some ⟨[((90000, 0), 90000)], some 150000⟩

theorem monotone_iff_minute :
    Admits oneAdmission ⟨"a", 5, 60, 100000, 2⟩ ∧ Admits oneAdmission ⟨"a", 2, 30, 100000, 3⟩ :=
  have h : Admits oneAdmission ⟨"a", 2, 60, 100000, 1⟩ := by decide
  have hlimit : (2 : UInt64) ≤ 5 := by decide
  have hwindow : (30 : UInt64) ≤ 60 := by decide
  (monotone_iff h hlimit hwindow 2 3).mpr (by decide)

/-- A limit of `2 ^ 63` is negative after the cast. -/
theorem raised_limit_refuses :
    ¬ ∀ (k : Window) (c : Call) (limit' window : UInt64) (uuid' uuid'' : ℕ), Admits k c →
      c.limit ≤ limit' → window ≤ c.window →
        Admits k { c with limit := limit', uuid := uuid' } ∧
          Admits k { c with window := window, uuid := uuid'' } := by
  intro h
  have hraised := (h oneAdmission ⟨"a", 2, 60, 100000, 1⟩ 9223372036854775808 60 2 3 (by decide)
    (by decide) (by decide)).1
  have hlt : (9223372036854775808 : UInt64).toNat < 2 ^ 63 :=
    (isFull_eq_false.mp (admits_iff.mp hraised).1).1
  revert hlt
  decide

end AppGate.RateLimiterService
