import Mathlib.Data.List.Infix
import AppGate.Breaker.Episode

/-!
# Recovery of the circuit breaker

* `episode_spec`, **`recovery_episodes`**: a half-open episode ends at its first failure, or at its
  `half_open_max_calls`-th success.
* `admissions_episode`, **`halfOpenCap_iff`**: inside an episode every `allow` is admitted, so the
  cap holds exactly when the callers keep to it.
-/

set_option autoImplicit false

namespace AppGate.Breaker

variable {cfg : CircuitBreakerConfig}

/-- Inside an episode no failure was recorded and `success_count` counts the successes. -/
theorem episode_spec {pre : List Op} {t : ℕ} {mid : List Op} (hft : 1 ≤ cfg.failureThreshold)
    (hmax : 1 ≤ cfg.halfOpenMaxCalls)
    (hlt : (pre ++ .allow t :: mid).countP Op.isFailure < 2 ^ 32) (h : Episode cfg pre t mid) :
    (∀ o ∈ mid, o.isFailure = false) ∧
      (run cfg (pre ++ .allow t :: mid)).successCount.toNat = mid.countP Op.isSuccess := by
  induction mid using List.reverseRecOn with
  | nil => exact ⟨fun o ho => by simp at ho, by rw [episode_entry h]; rfl⟩
  | append_singleton mid op ih =>
      have he := h.shrink (List.prefix_append mid [op])
      have hlt' : (pre ++ .allow t :: mid).countP Op.isFailure + (if op.isFailure then 1 else 0)
          < 2 ^ 32 := by
        rwa [← List.cons_append, ← List.append_assoc, List.countP_append,
          List.countP_singleton] at hlt
      obtain ⟨hno, hcnt⟩ := ih (by omega) he
      have hs := h.state
      rw [run_episode_snoc] at hs ⊢
      rw [List.countP_append, List.countP_singleton, List.forall_mem_append,
        List.forall_mem_singleton]
      cases op with
      | allow u =>
          refine ⟨⟨hno, rfl⟩, ?_⟩
          simpa [step, allow_of_halfOpen he.state, Op.isSuccess] using hcnt
      | recordSuccess u =>
          refine ⟨⟨hno, rfl⟩, ?_⟩
          simp only [step, recordSuccess_of_halfOpen he.state, run_config] at hs ⊢
          split_ifs at hs with hc
          -- the counter is below `half_open_max_calls`, so it does not wrap
          have hroom : (run cfg (pre ++ .allow t :: mid)).successCount.toNat + 1 < 2 ^ 32 := by
            have h1 := UInt32.lt_iff_toNat_lt.mp (successCount_lt hmax he)
            have h2 := cfg.halfOpenMaxCalls.toNat_lt
            omega
          rw [if_neg hc]
          simp only [Op.isSuccess, if_true, toNat_succ_of_room hroom, hcnt]
      | recordFailure u =>
          -- a failure leaves the half-open state
          exfalso
          have hc := counters_run hft _ (Nat.lt_of_le_of_lt (Nat.le_add_right _ _) hlt')
          have hle := failures_le cfg (pre ++ .allow t :: mid)
          simp only [Op.isFailure, if_true] at hlt'
          rw [step, recordFailure_of_tripped hc (by simp [he.state]) (by omega)] at hs
          exact CircuitState.noConfusion hs

/-- How a half-open episode with calls `mid` ends at `op`: at a failure, open again, or at its
`half_open_max_calls`-th success, closed with the failures forgotten. -/
inductive EpisodeEnd (cfg : CircuitBreakerConfig) (mid : List Op) (after : CircuitBreaker) :
    Op → Prop
  | failed (u : ℕ) (hopen : after.state = .open) : EpisodeEnd cfg mid after (.recordFailure u)
  | recovered (u : ℕ) (hclosed : after.state = .closed) (hreset : after.failures = 0)
      (hcount : mid.countP Op.isSuccess + 1 = cfg.halfOpenMaxCalls.toNat) :
      EpisodeEnd cfg mid after (.recordSuccess u)

/-- Leaving the half-open state ends the episode in one of the two ways. -/
theorem episode_end {pre : List Op} {t : ℕ} {mid : List Op} (hft : 1 ≤ cfg.failureThreshold)
    (hmax : 1 ≤ cfg.halfOpenMaxCalls) (op : Op)
    (hlt : (pre ++ .allow t :: (mid ++ [op])).countP Op.isFailure < 2 ^ 32)
    (h : Episode cfg pre t mid)
    (hout : (step (run cfg (pre ++ .allow t :: mid)) op).state ≠ .halfOpen) :
    EpisodeEnd cfg mid (step (run cfg (pre ++ .allow t :: mid)) op) op := by
  rw [← List.cons_append, ← List.append_assoc, List.countP_append, List.countP_singleton] at hlt
  obtain ⟨-, hcnt⟩ := episode_spec hft hmax (by omega) h
  cases op with
  | allow u =>
      rw [step, allow_of_halfOpen h.state] at hout
      exact absurd h.state hout
  | recordSuccess u =>
      have hlt := UInt32.lt_iff_toNat_lt.mp (successCount_lt hmax h)
      have hbound := cfg.halfOpenMaxCalls.toNat_lt
      rw [step, recordSuccess_of_halfOpen h.state, run_config] at hout ⊢
      split_ifs at hout ⊢ with hc
      · rw [UInt32.le_iff_toNat_le, toNat_succ_of_room (by omega)] at hc
        exact .recovered u rfl rfl (by omega)
      · exact absurd h.state hout
  | recordFailure u =>
      have hc := counters_run hft (pre ++ .allow t :: mid) (by omega)
      have hle := failures_le cfg (pre ++ .allow t :: mid)
      simp only [Op.isFailure, if_true] at hlt
      rw [step, recordFailure_of_tripped hc (by simp [h.state]) (by omega)]
      exact .failed u rfl

/-- **Recovery episodes.** In every state of a run with fewer than `2 ^ 32` failures the failure
counter is on the right side of the threshold, and a half-open episode, which has no failure inside,
is left only at its first failure or at its `half_open_max_calls`-th success. -/
theorem recovery_episodes (cfg : CircuitBreakerConfig) (hft : 1 ≤ cfg.failureThreshold)
    (hmax : 1 ≤ cfg.halfOpenMaxCalls) (ops : List Op) (hlt : ops.countP Op.isFailure < 2 ^ 32) :
    (∀ p, p <+: ops →
      ((run cfg p).state = .open ∨ (run cfg p).state = .halfOpen →
        cfg.failureThreshold ≤ (run cfg p).failures ∧ (run cfg p).lastFailure.isSome) ∧
      ((run cfg p).state = .closed → (run cfg p).failures < cfg.failureThreshold)) ∧
    ∀ p op rest, ops = p ++ op :: rest → (run cfg p).state = .halfOpen →
      (run cfg (p ++ [op])).state ≠ .halfOpen →
      ∃ pre t mid, p = pre ++ .allow t :: mid ∧ Episode cfg pre t mid ∧
        (∀ o ∈ mid, o.isFailure = false) ∧ EpisodeEnd cfg mid (run cfg (p ++ [op])) op := by
  refine ⟨fun p hp => ?_, fun p op rest he hs hout => ?_⟩
  · have hc := counters_run hft p (Nat.lt_of_le_of_lt hp.sublist.countP_le hlt)
    have htrip := hc.tripped
    have hclosed := hc.closed
    rw [run_config] at htrip hclosed
    refine ⟨fun hs => htrip ?_, hclosed⟩
    rcases hs with hs | hs <;> simp [hs]
  · obtain ⟨pre, t, mid, rfl, hep⟩ := exists_episode p hs
    have hle : (pre ++ .allow t :: (mid ++ [op])).countP Op.isFailure < 2 ^ 32 := by
      rw [he, List.append_cons, List.countP_append] at hlt
      rw [← List.cons_append, ← List.append_assoc]
      omega
    have hle' : (pre ++ .allow t :: mid).countP Op.isFailure < 2 ^ 32 := by
      rw [← List.cons_append, ← List.append_assoc, List.countP_append] at hle
      omega
    rw [run_snoc] at hout ⊢
    exact ⟨pre, t, mid, rfl, hep, (episode_spec hft hmax hle' hep).1,
      episode_end hft hmax op hle hep hout⟩

/-- One failure opens the breaker, one probe enters an episode and its success ends it. -/
theorem recovery_episodes_one_probe :
    ∃ pre t mid, [.recordFailure 0, .allow 1] = pre ++ .allow t :: mid ∧
      Episode ⟨1, 0, 1⟩ pre t mid ∧ (∀ o ∈ mid, o.isFailure = false) ∧
      EpisodeEnd ⟨1, 0, 1⟩ mid (run ⟨1, 0, 1⟩ [.recordFailure 0, .allow 1, .recordSuccess 2])
        (.recordSuccess 2) :=
  (recovery_episodes ⟨1, 0, 1⟩ (by decide) (by decide)
    [.recordFailure 0, .allow 1, .recordSuccess 2] (by decide)).2 [.recordFailure 0, .allow 1]
    (.recordSuccess 2) [] rfl (by decide) (by decide)

/-! ## The half-open cap -/

theorem admissions_append (b : CircuitBreaker) (ops ops' : List Op) :
    admissions b (ops ++ ops') = admissions b ops + admissions (ops.foldl step b) ops' := by
  induction ops generalizing b with
  | nil => simp [admissions]
  | cons op ops ih =>
      simp only [List.cons_append, admissions, List.foldl_cons, ih]
      omega

theorem admits_eq_isAllow {b : CircuitBreaker} (hs : b.state = .halfOpen)
    (hlt : b.successCount < b.config.halfOpenMaxCalls) (op : Op) : admits b op = op.isAllow := by
  cases op with
  | allow u => simp [admits, allow_of_halfOpen hs, Op.isAllow, hlt]
  | recordSuccess u => rfl
  | recordFailure u => rfl

/-- **A half-open breaker refuses nothing**: every `allow` of an episode is admitted. -/
theorem admissions_episode {pre : List Op} {t : ℕ} {mid : List Op}
    (hmax : 1 ≤ cfg.halfOpenMaxCalls) (h : Episode cfg pre t mid) :
    admissions (run cfg pre) (.allow t :: mid) = allowCalls (.allow t :: mid) := by
  induction mid using List.reverseRecOn with
  | nil =>
      -- the entering call moved the breaker, so it returned `true`
      have hs := h.inside [] List.nil_prefix
      rw [run_snoc, step] at hs
      rcases allow_state t (run cfg pre) with e | ⟨-, e, -⟩
      · rw [e, h.entered] at hs
        exact CircuitState.noConfusion hs
      · simp [admissions, allowCalls, admits, e, Op.isAllow]
  | append_singleton mid op ih =>
      have he := h.shrink (List.prefix_append mid [op])
      have hlt := successCount_lt hmax he
      rw [← List.cons_append, admissions_append, ih he, allowCalls, allowCalls, List.countP_append,
        List.countP_singleton, ← run_append]
      simp only [admissions, Nat.add_zero]
      rw [admits_eq_isAllow he.state (by rw [run_config]; exact hlt)]

/-- In every half-open episode of the run at most `half_open_max_calls` calls are admitted. -/
def HalfOpenCap (cfg : CircuitBreakerConfig) (ops : List Op) : Prop :=
  ∀ pre t mid post, ops = pre ++ .allow t :: (mid ++ post) → Episode cfg pre t mid →
    admissions (run cfg pre) (.allow t :: mid) ≤ cfg.halfOpenMaxCalls.toNat

/-- **The cap holds exactly when the callers keep to it**: `success_count` counts recorded
successes, not admissions, so no `allow` of an episode is ever refused. -/
theorem halfOpenCap_iff (cfg : CircuitBreakerConfig) (hmax : 1 ≤ cfg.halfOpenMaxCalls)
    (ops : List Op) :
    HalfOpenCap cfg ops ↔ ∀ pre t mid post, ops = pre ++ .allow t :: (mid ++ post) →
      Episode cfg pre t mid → allowCalls (.allow t :: mid) ≤ cfg.halfOpenMaxCalls.toNat := by
  constructor
  · intro h pre t mid post he hep
    rw [← admissions_episode hmax hep]
    exact h pre t mid post he hep
  · intro h pre t mid post he hep
    rw [admissions_episode hmax hep]
    exact h pre t mid post he hep

theorem episode_two_probes : Episode ⟨1, 0, 1⟩ [.recordFailure 0] 1 [.allow 1] where
  entered := by decide
  inside p hp := by
    revert p
    simp only [← List.mem_inits]
    decide

/-- Two probes admitted before either result comes back, with `half_open_max_calls = 1`. -/
theorem not_halfOpenCap_two_probes :
    ¬ HalfOpenCap ⟨1, 0, 1⟩ [.recordFailure 0, .allow 1, .allow 1] := by
  intro h
  have := h [.recordFailure 0] 1 [.allow 1] [] rfl episode_two_probes
  revert this
  decide

/-- The same run breaks the callers' side of the equivalence. -/
theorem halfOpenCap_iff_two_probes :
    ¬ (∀ pre t mid post, ([.recordFailure 0, .allow 1, .allow 1] : List Op) =
        pre ++ .allow t :: (mid ++ post) →
      Episode ⟨1, 0, 1⟩ pre t mid → allowCalls (.allow t :: mid) ≤ 1) :=
  fun h => absurd ((halfOpenCap_iff ⟨1, 0, 1⟩ (by decide) _).mpr h
    [.recordFailure 0] 1 [.allow 1] [] rfl episode_two_probes) (by decide)

end AppGate.Breaker
