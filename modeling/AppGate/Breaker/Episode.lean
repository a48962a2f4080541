import AppGate.Breaker.Model

/-!
# Half-open episodes

An episode starts with the `allow` that moves the breaker from open to half-open and lasts while
it stays half-open.

* `Counters`: the failure counter is at the threshold outside the closed state and below it inside;
* `exists_episode`: a half-open breaker is inside an episode;
* `episode_spec`: inside an episode there was no failure, and `success_count` counts its successes.
-/

set_option autoImplicit false

namespace AppGate.Breaker

/-! ## The failure counter -/

/-- The failure counter against the threshold, in each state. -/
structure Counters (b : CircuitBreaker) : Prop where
  tripped : b.state ≠ .closed → b.config.failureThreshold ≤ b.failures ∧ b.lastFailure.isSome
  closed : b.state = .closed → b.failures < b.config.failureThreshold

theorem counters_new {cfg : CircuitBreakerConfig} (h : 1 ≤ cfg.failureThreshold) :
    Counters (new cfg) where
  tripped hs := absurd rfl hs
  closed _ := by
    rw [UInt32.le_iff_toNat_le] at h
    rw [UInt32.lt_iff_toNat_lt]
    exact h

theorem counters_allow {b : CircuitBreaker} (h : Counters b) (now : ℕ) :
    Counters (allow now b).2 := by
  rcases allow_state now b with e | ⟨hs, -, e⟩ <;> rw [e]
  · exact h
  · exact ⟨fun _ => h.tripped (by simp [hs]), fun hc => CircuitState.noConfusion hc⟩

theorem counters_recordSuccess {b : CircuitBreaker} (hft : 1 ≤ b.config.failureThreshold)
    (h : Counters b) : Counters (recordSuccess b) := by
  unfold recordSuccess
  split
  · rename_i hs
    split
    · refine ⟨fun hc => absurd rfl hc, fun _ => ?_⟩
      rw [UInt32.le_iff_toNat_le] at hft
      rw [UInt32.lt_iff_toNat_lt]
      exact hft
    · exact ⟨fun _ => h.tripped (by simp [hs]), fun hc => h.closed hc⟩
  · rename_i hs
    refine ⟨fun hc => absurd hs hc, fun _ => ?_⟩
    have hlt := h.closed hs
    rw [UInt32.lt_iff_toNat_lt] at hlt ⊢
    dsimp only
    rw [toNat_saturatingPred]
    omega
  · exact h

theorem counters_recordFailure {b : CircuitBreaker} (h : Counters b) (now : ℕ)
    (hroom : b.failures.toNat + 1 < 2 ^ 32) : Counters (recordFailure now b) := by
  unfold recordFailure
  split
  · rename_i hle
    exact ⟨fun _ => ⟨hle, rfl⟩, fun hc => CircuitState.noConfusion hc⟩
  · rename_i hnot
    -- the threshold was not reached, so the breaker was closed and stays closed
    have hs : b.state = .closed := by
      by_contra hne
      have := (h.tripped hne).1
      rw [UInt32.le_iff_toNat_le] at this hnot
      rw [toNat_succ_of_room hroom] at hnot
      omega
    exact ⟨fun hc => absurd hs hc, fun _ => UInt32.not_le.mp hnot⟩

theorem counters_step {b : CircuitBreaker} (hft : 1 ≤ b.config.failureThreshold) (h : Counters b)
    (op : Op) (hroom : op.isFailure = true → b.failures.toNat + 1 < 2 ^ 32) :
    Counters (step b op) := by
  cases op with
  | allow now => exact counters_allow h now
  | recordSuccess now => exact counters_recordSuccess hft h
  | recordFailure now => exact counters_recordFailure h now (hroom rfl)

theorem step_failures_le (b : CircuitBreaker) (op : Op) :
    (step b op).failures.toNat ≤ b.failures.toNat + if op.isFailure then 1 else 0 := by
  cases op with
  | allow now =>
      rcases allow_state now b with e | ⟨-, -, e⟩ <;> simp [step, e]
  | recordSuccess now =>
      simp only [step, recordSuccess, Op.isFailure, Bool.false_eq_true, if_false, Nat.add_zero]
      split
      · split
        · exact Nat.zero_le _
        · exact le_rfl
      · dsimp only
        rw [toNat_saturatingPred]
        omega
      · exact le_rfl
  | recordFailure now =>
      simp only [step, recordFailure, Op.isFailure, if_true]
      split <;> exact toNat_succ_le _

/-- The failure counter never exceeds the number of failures recorded. -/
theorem failures_le (cfg : CircuitBreakerConfig) (ops : List Op) :
    (run cfg ops).failures.toNat ≤ ops.countP Op.isFailure := by
  induction ops using List.reverseRecOn with
  | nil => exact le_rfl
  | append_singleton ops op ih =>
      have h := step_failures_le (run cfg ops) op
      rw [run_snoc, List.countP_append, List.countP_singleton]
      omega

/-- **Counters along a run.** -/
theorem counters_run {cfg : CircuitBreakerConfig} (hft : 1 ≤ cfg.failureThreshold) (ops : List Op)
    (hlt : ops.countP Op.isFailure < 2 ^ 32) : Counters (run cfg ops) := by
  induction ops using List.reverseRecOn with
  | nil => exact counters_new hft
  | append_singleton ops op ih =>
      rw [List.countP_append, List.countP_singleton] at hlt
      rw [run_snoc]
      have hle := failures_le cfg ops
      refine counters_step (by simpa using hft) (ih (by omega)) op fun hf => ?_
      rw [if_pos hf] at hlt
      omega

/-! ## Entering and leaving the half-open state -/

theorem enters_halfOpen {b : CircuitBreaker} {op : Op} (h : b.state ≠ .halfOpen)
    (h' : (step b op).state = .halfOpen) :
    ∃ t, op = .allow t ∧ b.state = .open ∧ (step b op).successCount = 0 := by
  cases op with
  | allow t =>
      rcases allow_state t b with e | ⟨hs, -, e⟩
      · simp only [step, e] at h'
        exact absurd h' h
      · exact ⟨t, rfl, hs, by simp only [step, e]⟩
  | recordSuccess t =>
      simp only [step, recordSuccess] at h'
      split at h'
      · exact absurd ‹_› h
      · exact absurd h' h
      · exact absurd h' h
  | recordFailure t =>
      simp only [step, recordFailure] at h'
      split at h'
      · exact CircuitState.noConfusion h'
      · exact absurd h' h

theorem recordFailure_of_tripped {b : CircuitBreaker} (hc : Counters b) (hs : b.state ≠ .closed)
    (hroom : b.failures.toNat + 1 < 2 ^ 32) (t : ℕ) :
    recordFailure t b =
      { b with failures := b.failures + 1, lastFailure := some t, state := .open } := by
  have h := (hc.tripped hs).1
  rw [recordFailure, if_pos]
  rw [UInt32.le_iff_toNat_le] at h ⊢
  rw [toNat_succ_of_room hroom]
  omega

/-! ## Episodes -/

/-- `mid` is spent in the half-open state that the call `allow t` after `pre` entered. -/
structure Episode (cfg : CircuitBreakerConfig) (pre : List Op) (t : ℕ) (mid : List Op) : Prop where
  entered : (run cfg pre).state = .open
  inside : ∀ p, p <+: mid → (run cfg (pre ++ .allow t :: p)).state = .halfOpen

variable {cfg : CircuitBreakerConfig}

theorem Episode.shrink {pre mid mid' : List Op} {t : ℕ} (h : Episode cfg pre t mid)
    (hp : mid' <+: mid) : Episode cfg pre t mid' :=
  ⟨h.entered, fun p hpp => h.inside p (hpp.trans hp)⟩

theorem Episode.state {pre mid : List Op} {t : ℕ} (h : Episode cfg pre t mid) :
    (run cfg (pre ++ .allow t :: mid)).state = .halfOpen := h.inside mid List.prefix_rfl

theorem run_episode_snoc (pre mid : List Op) (t : ℕ) (op : Op) :
    run cfg (pre ++ .allow t :: (mid ++ [op])) = step (run cfg (pre ++ .allow t :: mid)) op := by
  rw [← List.cons_append, ← List.append_assoc, run_snoc]

/-- **A half-open breaker is inside an episode.** -/
theorem exists_episode (ops : List Op) (h : (run cfg ops).state = .halfOpen) :
    ∃ pre t mid, ops = pre ++ .allow t :: mid ∧ Episode cfg pre t mid := by
  induction ops using List.reverseRecOn with
  | nil => exact CircuitState.noConfusion h
  | append_singleton ops op ih =>
      rw [run_snoc] at h
      by_cases hs : (run cfg ops).state = .halfOpen
      · obtain ⟨pre, t, mid, rfl, he⟩ := ih hs
        refine ⟨pre, t, mid ++ [op], by simp, he.entered, fun p hp => ?_⟩
        rcases List.prefix_concat_iff.mp hp with rfl | hp
        · rwa [run_episode_snoc]
        · exact he.inside p hp
      · obtain ⟨t, rfl, ho, -⟩ := enters_halfOpen hs h
        refine ⟨ops, t, [], rfl, ho, fun p hp => ?_⟩
        rw [List.prefix_nil.mp hp, run_snoc]
        exact h

theorem episode_entry {pre : List Op} {t : ℕ} {mid : List Op} (h : Episode cfg pre t mid) :
    (run cfg (pre ++ [.allow t])).successCount = 0 := by
  have hs := h.inside [] (List.nil_prefix)
  rw [run_snoc] at hs ⊢
  obtain ⟨-, -, -, h0⟩ := enters_halfOpen (by simp [h.entered]) hs
  exact h0

/-- **Inside an episode** `success_count` stays below `half_open_max_calls`, so every `allow`
returns `true`. -/
theorem successCount_lt {pre : List Op} {t : ℕ} {mid : List Op} (hmax : 1 ≤ cfg.halfOpenMaxCalls)
    (h : Episode cfg pre t mid) :
    (run cfg (pre ++ .allow t :: mid)).successCount < cfg.halfOpenMaxCalls := by
  induction mid using List.reverseRecOn with
  | nil =>
      rw [episode_entry h, UInt32.lt_iff_toNat_lt]
      rw [UInt32.le_iff_toNat_le] at hmax
      exact hmax
  | append_singleton mid op ih =>
      have he := h.shrink (List.prefix_append mid [op])
      have hlt := ih he
      have hs := h.state
      rw [run_episode_snoc] at hs ⊢
      cases op with
      | allow u => simpa only [step, allow_of_halfOpen he.state] using hlt
      | recordSuccess u =>
          simp only [step, recordSuccess_of_halfOpen he.state, run_config] at hs ⊢
          split_ifs at hs with hc
          rw [if_neg hc]
          exact UInt32.not_le.mp hc
      | recordFailure u =>
          simp only [step, recordFailure] at hs ⊢
          split_ifs at hs with hc
          rwa [if_neg hc]

end AppGate.Breaker
