import Mathlib.Algebra.Ring.Int.Defs
import AppGate.Breaker.Model
import AppGate.Lib.Reflected

/-!
# The failure counter of a closed breaker

A success takes one failure off the counter and the subtraction saturates, so `failures` is a walk
reflected at zero, and the breaker trips when the walk reaches `failure_threshold`.

* `Result`, `results`, `balance`: the results recorded along a sequence of calls, and failures minus
  successes;
* `tracks_step`: what one call does to the walk;
* **`leaky_counter`**: which histories trip the breaker, and what `failures` is while they do not.
-/

set_option autoImplicit false

namespace AppGate.Breaker

/-- A recorded result. -/
inductive Result where
  | success
  | failure
  deriving DecidableEq, Repr

/-- The result a call records, if it records one. -/
def Op.result : Op → Option Result
  | .allow _ => none
  | .recordSuccess _ => some .success
  | .recordFailure _ => some .failure

/-- The results recorded along a sequence of calls. -/
def results (ops : List Op) : List Result := ops.filterMap Op.result

/-- Failures minus successes. -/
def balance (rs : List Result) : ℤ := rs.count .failure - rs.count .success

/-- No call of `ops` closes the breaker again. -/
def StaysTripped (b : CircuitBreaker) (ops : List Op) : Prop :=
  ∀ p op, p ++ [op] <+: ops → (p.foldl step b).state ≠ .closed →
    ((p ++ [op]).foldl step b).state ≠ .closed

/-! ## The counter as a walk -/

/-- What a result adds to the counter. -/
def Result.weight : Result → ℤ
  | .success => -1
  | .failure => 1

theorem sum_weight (rs : List Result) : (rs.map Result.weight).sum = balance rs := by
  induction rs with
  | nil => rfl
  | cons r rs ih =>
      rw [List.map_cons, List.sum_cons, ih, balance, balance, List.count_cons, List.count_cons]
      cases r with
      | success =>
          have hne : (Result.success == Result.failure) = false := rfl
          simp only [Result.weight, hne, beq_self_eq_true, if_true, Bool.false_eq_true, if_false]
          omega
      | failure =>
          have hne : (Result.failure == Result.success) = false := rfl
          simp only [Result.weight, hne, beq_self_eq_true, if_true, Bool.false_eq_true, if_false]
          omega

/-- The walk of the results of `ops`. -/
def level (ops : List Op) : ℤ := Reflected.walk ((results ops).map Result.weight)

theorem level_snoc (ops : List Op) (op : Op) :
    level (ops ++ [op]) = match op.result with
      | none => level ops
      | some r => max 0 (level ops + r.weight) := by
  cases h : op.result with
  | none => simp [level, results, h]
  | some r => simp [level, results, h]

/-- The breaker is closed with the walk in its counter, and the walk never reached the threshold;
or it is not closed, and the walk did. -/
inductive Tracks (θ : ℤ) (ops : List Op) (b : CircuitBreaker) : Prop
  | below (hs : b.state = .closed) (hf : (b.failures.toNat : ℤ) = level ops)
      (hlt : ∀ p, p <+: ops → level p < θ)
  | tripped (hs : b.state ≠ .closed) (hge : ∃ p, p <+: ops ∧ θ ≤ level p)

theorem below_snoc {θ : ℤ} {ops : List Op} {op : Op} (h : ∀ p, p <+: ops → level p < θ)
    (hlt : level (ops ++ [op]) < θ) : ∀ p, p <+: ops ++ [op] → level p < θ := by
  intro p hp
  rcases List.prefix_concat_iff.mp hp with rfl | hp
  · exact hlt
  · exact h p hp

/-- A failure of a closed breaker below its threshold: the counter does not wrap. -/
theorem recordFailure_of_below {b : CircuitBreaker} {θ : ℤ}
    (hθ : (b.config.failureThreshold.toNat : ℤ) = θ) (hlt : (b.failures.toNat : ℤ) < θ) :
    ((b.failures + 1).toNat : ℤ) = b.failures.toNat + 1 ∧
      (b.config.failureThreshold ≤ b.failures + 1 ↔ θ ≤ b.failures.toNat + 1) := by
  have hbound := b.config.failureThreshold.toNat_lt
  have hroom : (b.failures + 1).toNat = b.failures.toNat + 1 := toNat_succ_of_room (by omega)
  rw [UInt32.le_iff_toNat_le, hroom]
  omega

/-- **What a call does to the walk.** -/
theorem tracks_step {θ : ℤ} {ops : List Op} {op : Op} {b : CircuitBreaker}
    (hθ : (b.config.failureThreshold.toNat : ℤ) = θ) (h : Tracks θ ops b)
    (hstay : b.state ≠ .closed → (step b op).state ≠ .closed) :
    Tracks θ (ops ++ [op]) (step b op) := by
  rcases h with ⟨hs, hf, hlt⟩ | ⟨hs, p, hp, hge⟩
  · have hnow := hlt ops List.prefix_rfl
    have hl := level_snoc ops op
    cases op with
    | allow t =>
        have hl : level (ops ++ [.allow t]) = level ops := hl
        rw [step, allow_of_closed hs]
        exact .below hs (by rw [hf, hl]) (below_snoc hlt (by rw [hl]; exact hnow))
    | recordSuccess t =>
        have hl : level (ops ++ [.recordSuccess t]) = max 0 (level ops - 1) := hl
        rw [step, recordSuccess_of_closed hs]
        refine .below hs ?_ (below_snoc hlt ?_)
        · dsimp only
          rw [toNat_saturatingPred, hl]
          omega
        · rw [hl]
          omega
    | recordFailure t =>
        have hl : level (ops ++ [.recordFailure t]) = max 0 (level ops + 1) := hl
        obtain ⟨hsucc, hiff⟩ := recordFailure_of_below hθ (by rw [hf]; exact hnow)
        rw [step, recordFailure]
        split_ifs with hc
        · refine .tripped (by simp) ⟨_, List.prefix_rfl, ?_⟩
          have := hiff.mp hc
          omega
        · have hnot : ¬ θ ≤ b.failures.toNat + 1 := fun hle => hc (hiff.mpr hle)
          refine .below hs ?_ (below_snoc hlt ?_)
          · dsimp only
            omega
          · omega
  · exact .tripped (hstay hs) ⟨p, hp.trans (List.prefix_append ops [op]), hge⟩

/-- **The counter follows the walk** until the breaker closes again. -/
theorem tracks_run {b : CircuitBreaker} (hft : 1 ≤ b.config.failureThreshold)
    (hs : b.state = .closed) (hf : b.failures = 0) (ops : List Op) (hstay : StaysTripped b ops) :
    Tracks b.config.failureThreshold.toNat ops (ops.foldl step b) := by
  induction ops using List.reverseRecOn with
  | nil =>
      refine .below hs (by rw [List.foldl_nil, hf]; rfl) ?_
      intro p hp
      rw [UInt32.le_iff_toNat_le, UInt32.toNat_one] at hft
      rw [List.prefix_nil.mp hp]
      have h0 : level [] = 0 := rfl
      omega
  | append_singleton ops op ih =>
      have h := ih fun p op' hp => hstay p op' (hp.trans (List.prefix_append ops [op]))
      have hlast := hstay ops op List.prefix_rfl
      rw [List.foldl_append, List.foldl_cons, List.foldl_nil] at hlast ⊢
      exact tracks_step (by rw [foldl_config]) h hlast

/-! ## The closed form -/

theorem exists_prefix_level (ops : List Op) (θ : ℤ) :
    (∃ p, p <+: ops ∧ θ ≤ level p) ↔
      ∃ q, q <+: (results ops).map Result.weight ∧ θ ≤ Reflected.walk q := by
  constructor
  · rintro ⟨p, hp, h⟩
    exact ⟨_, (hp.filterMap Op.result).map Result.weight, h⟩
  · rintro ⟨q, hq, h⟩
    obtain ⟨rs, hrs, rfl⟩ := List.prefix_map_iff.mp hq
    obtain ⟨p, hp, rfl⟩ := List.prefix_filterMap_iff.mp hrs
    exact ⟨p, hp, h⟩

/-- Some block of the results has at least `θ` more failures than successes. -/
theorem exists_le_level_iff (ops : List Op) (θ : ℤ) :
    (∃ p, p <+: ops ∧ θ ≤ level p) ↔ ∃ l, l <:+: results ops ∧ θ ≤ balance l := by
  rw [exists_prefix_level, Reflected.exists_le_walk_iff]
  constructor
  · rintro ⟨q, hq, h⟩
    obtain ⟨l, hl, rfl⟩ := List.infix_map_iff.mp hq
    exact ⟨l, hl, by rwa [← sum_weight]⟩
  · rintro ⟨l, hl, h⟩
    exact ⟨l.map Result.weight, hl.map Result.weight, by rwa [sum_weight]⟩

theorem isGreatest_level (ops : List Op) :
    IsGreatest {v | ∃ l, l <:+ results ops ∧ v = balance l} (level ops) := by
  obtain ⟨⟨q, hq, hw⟩, hub⟩ := Reflected.isGreatest_walk ((results ops).map Result.weight)
  constructor
  · obtain ⟨l, hl, rfl⟩ := List.suffix_map_iff.mp hq
    exact ⟨l, hl, by rw [← sum_weight]; exact hw⟩
  · rintro v ⟨l, hl, rfl⟩
    rw [← sum_weight]
    exact hub ⟨l.map Result.weight, hl.map Result.weight, rfl⟩

/-- **The leaky failure counter.** Since a breaker was closed with `failures = 0`, and until it
closes again: it has left the closed state exactly when some block of the recorded results has
`failure_threshold` more failures than successes, and while it is closed `failures` is the greatest
failures-minus-successes of a suffix of the results. -/
theorem leaky_counter (b : CircuitBreaker) (hft : 1 ≤ b.config.failureThreshold)
    (hs : b.state = .closed) (hf : b.failures = 0) (ops : List Op) (hstay : StaysTripped b ops) :
    ((ops.foldl step b).state ≠ .closed ↔
      ∃ l, l <:+: results ops ∧ (b.config.failureThreshold.toNat : ℤ) ≤ balance l) ∧
    ((ops.foldl step b).state = .closed →
      IsGreatest {v | ∃ l, l <:+ results ops ∧ v = balance l}
        ((ops.foldl step b).failures.toNat : ℤ)) := by
  rw [← exists_le_level_iff]
  rcases tracks_run hft hs hf ops hstay with ⟨hc, hfail, hlt⟩ | ⟨hc, hge⟩
  · refine ⟨⟨fun hne => absurd hc hne, ?_⟩, fun _ => ?_⟩
    · rintro ⟨p, hp, hge⟩
      have := hlt p hp
      omega
    · rw [hfail]
      exact isGreatest_level ops
  · exact ⟨⟨fun _ => hge, fun _ => hc⟩, fun hcl => absurd hcl hc⟩

theorem staysTripped_of_closed {b : CircuitBreaker} {ops : List Op}
    (h : ∀ p ∈ ops.inits, (p.foldl step b).state = .closed) : StaysTripped b ops := by
  intro p op hp hne
  have hpre : p <+: ops := (List.prefix_append p [op]).trans hp
  exact absurd (h p ((List.mem_inits p ops).mpr hpre)) hne

/-- Three failures with a success and a probe in between stay below a threshold of three. -/
theorem leaky_counter_interleaved :
    IsGreatest {v | ∃ l, l <:+ [.failure, .success, .failure, .failure] ∧ v = balance l} 2 :=
  (leaky_counter (new ⟨3, 0, 1⟩) (by decide) rfl rfl
    [.recordFailure 0, .recordSuccess 1, .allow 2, .recordFailure 3, .recordFailure 4]
    (staysTripped_of_closed (by decide))).2 (by decide)

end AppGate.Breaker
