import AppGate.Breaker.Episode

/-!
# Whether a breaker can lock an upstream out for good

A half-open breaker admits while `success_count < half_open_max_calls`. The result of a probe may
never be recorded, and then nothing but this test decides about every later call.

* `NeverLockedOut`: after the recovery timeout every call is admitted, in every state a run reaches;
* `lastFailure_of_open`: an open breaker knows when it last failed;
* `run_tripped`: every configuration has a run that ends half-open with its probe unanswered;
* **`neverLockedOut_iff`**: the configurations that never lock out.
-/

set_option autoImplicit false

namespace AppGate.Breaker

/-- In every state a run reaches, `allow` returns `true` at every time later than
`last_failure + recovery_timeout_ms`. -/
def NeverLockedOut (cfg : CircuitBreakerConfig) : Prop :=
  ∀ ops now,
    (∀ last, (run cfg ops).lastFailure = some last →
      last + cfg.recoveryTimeoutMs.toNat * 1000000 < now) →
    (allow now (run cfg ops)).1 = true

/-- `CircuitBreakerConfig::default()`, as derived. -/
def CircuitBreakerConfig.default : CircuitBreakerConfig := ⟨0, 0, 0⟩

/-- The values that deserialization puts in for absent fields. -/
def CircuitBreakerConfig.serdeDefault : CircuitBreakerConfig := ⟨5, 30000, 3⟩

variable {cfg : CircuitBreakerConfig}

/-! ## Open breakers -/

/-- **An open breaker knows when it last failed**, whatever the counters do. -/
theorem lastFailure_of_open (ops : List Op) (h : (run cfg ops).state ≠ .closed) :
    (run cfg ops).lastFailure.isSome := by
  induction ops using List.reverseRecOn with
  | nil => exact absurd rfl h
  | append_singleton ops op ih =>
      rw [run_snoc] at h ⊢
      cases op with
      | allow t =>
          rcases allow_state t (run cfg ops) with e | ⟨hs, -, e⟩
          · rw [step, e] at h ⊢
            exact ih h
          · rw [step, e]
            exact ih (by simp [hs])
      | recordSuccess t =>
          rw [step, recordSuccess] at h ⊢
          split at h
          · rename_i hs
            split_ifs at h ⊢ with hc
            · exact absurd rfl h
            · exact ih (by simp [hs])
          · exact absurd ‹_› h
          · exact ih h
      | recordFailure t =>
          rw [step, recordFailure]
          split_ifs <;> rfl

theorem recovered_of_later {last now : ℕ}
    (h : last + cfg.recoveryTimeoutMs.toNat * 1000000 < now) : recovered cfg last now = true := by
  rw [recovered, decide_eq_true_eq]
  omega

/-- **With `half_open_max_calls ≥ 1` every call after the timeout is admitted.** -/
theorem allow_after_timeout (hmax : 1 ≤ cfg.halfOpenMaxCalls) (ops : List Op) (now : ℕ)
    (hlater : ∀ last, (run cfg ops).lastFailure = some last →
      last + cfg.recoveryTimeoutMs.toNat * 1000000 < now) :
    (allow now (run cfg ops)).1 = true := by
  cases hs : (run cfg ops).state with
  | closed => rw [allow_of_closed hs]
  | «open» =>
      have hne : (run cfg ops).state ≠ .closed := by simp [hs]
      have hsome := lastFailure_of_open ops hne
      obtain ⟨last, hl⟩ := Option.isSome_iff_exists.mp hsome
      have hr := recovered_of_later (hlater last hl)
      rw [allow_of_open hs hl (by rwa [run_config])]
  | halfOpen =>
      obtain ⟨pre, t, mid, rfl, hep⟩ := exists_episode ops hs
      have hlt := successCount_lt hmax hep
      rw [allow_of_halfOpen hs, run_config]
      exact decide_eq_true hlt

theorem neverLockedOut_serdeDefault : NeverLockedOut .serdeDefault :=
  allow_after_timeout (by decide)

/-! ## The run that locks out -/

theorem failures_replicate (cfg : CircuitBreakerConfig) (k : ℕ) (hk : k < 2 ^ 32) :
    (run cfg (List.replicate k (.recordFailure 0))).failures.toNat = k := by
  induction k with
  | zero => rfl
  | succ k ih =>
      have h := ih (by omega)
      rw [List.replicate_succ', run_snoc, step, recordFailure]
      have hsucc := toNat_succ_of_room (by rw [h]; exact hk)
      rw [h] at hsucc
      split_ifs <;> exact hsucc

/-- Failures up to the threshold. -/
def trip (cfg : CircuitBreakerConfig) : List Op :=
  List.replicate (cfg.failureThreshold.toNat - 1) (.recordFailure 0) ++ [.recordFailure 0]

theorem run_trip (cfg : CircuitBreakerConfig) :
    (run cfg (trip cfg)).state = .open ∧ (run cfg (trip cfg)).lastFailure = some 0 := by
  have hbound := cfg.failureThreshold.toNat_lt
  have hf := failures_replicate cfg (cfg.failureThreshold.toNat - 1) (by omega)
  rw [trip, run_snoc, step, recordFailure, if_pos]
  · exact ⟨rfl, rfl⟩
  · rw [run_config, UInt32.le_iff_toNat_le, toNat_succ_of_room (by omega), hf]
    omega

/-- **Every configuration has an abandoned probe**: a run that ends half-open with no success. -/
theorem run_tripped (cfg : CircuitBreakerConfig) :
    (run cfg (trip cfg ++ [.allow (cfg.recoveryTimeoutMs.toNat * 1000000 + 1)])).state = .halfOpen ∧
    (run cfg (trip cfg ++ [.allow (cfg.recoveryTimeoutMs.toNat * 1000000 + 1)])).lastFailure =
      some 0 := by
  obtain ⟨hs, hl⟩ := run_trip cfg
  have hr : recovered cfg 0 (cfg.recoveryTimeoutMs.toNat * 1000000 + 1) = true :=
    recovered_of_later (by omega)
  rw [run_snoc, step, allow_of_open hs hl (by rwa [run_config])]
  exact ⟨rfl, hl⟩

/-- **The breaker never locks an upstream out** exactly when `half_open_max_calls ≥ 1`. -/
theorem neverLockedOut_iff (cfg : CircuitBreakerConfig) :
    NeverLockedOut cfg ↔ 1 ≤ cfg.halfOpenMaxCalls := by
  constructor
  · intro h
    -- the probe of `run_tripped` is never answered, and the next call comes at the same time
    obtain ⟨hs, hl⟩ := run_tripped cfg
    have hallow := h _ (cfg.recoveryTimeoutMs.toNat * 1000000 + 1) fun last hlast => by
      rw [hl] at hlast
      cases hlast
      omega
    rw [allow_of_halfOpen hs, run_config] at hallow
    have hlt := UInt32.lt_iff_toNat_lt.mp (of_decide_eq_true hallow)
    rw [UInt32.le_iff_toNat_le, UInt32.toNat_one]
    omega
  · exact allow_after_timeout

/-- With the derived defaults one failure and one unanswered probe lock the upstream out. -/
theorem not_neverLockedOut_default : ¬ NeverLockedOut .default := by
  intro h
  have hallow := h [.recordFailure 0, .allow 1] 2 (by decide)
  revert hallow
  decide

end AppGate.Breaker
