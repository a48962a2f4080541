import Mathlib.Algebra.Group.Nat.Defs
import Mathlib.Data.List.Induction
import Mathlib.Data.Nat.Basic
import Mathlib.Tactic.Common

/-!
# The circuit breaker

`rust-gateway/src/circuit_breaker.rs`. Counters are `u32` and wrap as in a release build; an
`Instant` is a number of nanoseconds.

* `allow`, `recordSuccess`, `recordFailure`: the three operations;
* `Op`, `step`, `run`: a breaker driven by a sequence of calls;
* `allow_of_closed`, `allow_of_open`, `allow_of_halfOpen`: what a call does in each state;
* `admissions`, `allowCalls`: the calls let through, and the calls made, along a sequence.
-/

set_option autoImplicit false

namespace AppGate.Breaker

/-- `CircuitState`. -/
inductive CircuitState where
  | closed
  | «open»
  | halfOpen
  deriving DecidableEq, Repr

/-- `CircuitBreakerConfig`. -/
structure CircuitBreakerConfig where
  failureThreshold : UInt32
  recoveryTimeoutMs : UInt64
  halfOpenMaxCalls : UInt32
  deriving DecidableEq, Repr

/-- `CircuitBreaker`. -/
structure CircuitBreaker where
  state : CircuitState
  failures : UInt32
  lastFailure : Option ℕ
  successCount : UInt32
  config : CircuitBreakerConfig
  deriving DecidableEq, Repr

/-- `CircuitBreaker::new`. -/
def new (config : CircuitBreakerConfig) : CircuitBreaker where
  state := .closed
  failures := 0
  lastFailure := none
  successCount := 0
  config := config

/-- `last.elapsed() > Duration::from_millis(recovery_timeout_ms)` at time `now`; `elapsed`
saturates at zero. -/
def recovered (cfg : CircuitBreakerConfig) (last now : ℕ) : Bool :=
  decide (cfg.recoveryTimeoutMs.toNat * 1000000 < now - last)

/-- `CircuitBreaker::allow` at time `now`. -/
def allow (now : ℕ) (b : CircuitBreaker) : Bool × CircuitBreaker :=
  match b.state with
  | .closed => (true, b)
  | .open =>
    match b.lastFailure with
    | some last =>
      if recovered b.config last now then (true, { b with state := .halfOpen, successCount := 0 })
      else (false, b)
    | none => (false, b)
  | .halfOpen => (decide (b.successCount < b.config.halfOpenMaxCalls), b)

/-- `n.saturating_sub(1)`. -/
def saturatingPred (n : UInt32) : UInt32 := if n = 0 then 0 else n - 1

/-- `CircuitBreaker::record_success`. -/
def recordSuccess (b : CircuitBreaker) : CircuitBreaker :=
  match b.state with
  | .halfOpen =>
    if b.config.halfOpenMaxCalls ≤ b.successCount + 1 then
      { b with state := .closed, failures := 0, successCount := 0 }
    else { b with successCount := b.successCount + 1 }
  | .closed => { b with failures := saturatingPred b.failures }
  | .open => b

/-- `CircuitBreaker::record_failure` at time `now`. -/
def recordFailure (now : ℕ) (b : CircuitBreaker) : CircuitBreaker :=
  if b.config.failureThreshold ≤ b.failures + 1 then
    { b with failures := b.failures + 1, lastFailure := some now, state := .open }
  else { b with failures := b.failures + 1, lastFailure := some now }

/-! ## Runs -/

/-- A call on a breaker, with its time. -/
inductive Op where
  | allow (now : ℕ)
  | recordSuccess (now : ℕ)
  | recordFailure (now : ℕ)
  deriving DecidableEq, Repr

/-- The call is an `allow`. -/
def Op.isAllow : Op → Bool
  | .allow _ => true
  | _ => false

/-- The call is a `record_success`. -/
def Op.isSuccess : Op → Bool
  | .recordSuccess _ => true
  | _ => false

/-- The call is a `record_failure`. -/
def Op.isFailure : Op → Bool
  | .recordFailure _ => true
  | _ => false

/-- The breaker after one call. -/
def step (b : CircuitBreaker) : Op → CircuitBreaker
  | .allow now => (allow now b).2
  | .recordSuccess _ => recordSuccess b
  | .recordFailure now => recordFailure now b

/-- The call is an `allow` that returns `true`. -/
def admits (b : CircuitBreaker) : Op → Bool
  | .allow now => (allow now b).1
  | _ => false

/-- A fresh breaker after a sequence of calls. -/
def run (cfg : CircuitBreakerConfig) (ops : List Op) : CircuitBreaker := ops.foldl step (new cfg)

/-- The number of `allow` calls of a sequence that return `true`. -/
def admissions : CircuitBreaker → List Op → ℕ
  | _, [] => 0
  | b, op :: ops => (if admits b op then 1 else 0) + admissions (step b op) ops

/-- The number of `allow` calls of a sequence. -/
def allowCalls (ops : List Op) : ℕ := ops.countP Op.isAllow

@[simp] theorem run_nil (cfg : CircuitBreakerConfig) : run cfg [] = new cfg := rfl

theorem run_append (cfg : CircuitBreakerConfig) (ops ops' : List Op) :
    run cfg (ops ++ ops') = ops'.foldl step (run cfg ops) := List.foldl_append ..

@[simp] theorem run_snoc (cfg : CircuitBreakerConfig) (ops : List Op) (op : Op) :
    run cfg (ops ++ [op]) = step (run cfg ops) op := run_append cfg ops [op]

@[simp] theorem allowCalls_cons (op : Op) (ops : List Op) :
    allowCalls (op :: ops) = allowCalls ops + if op.isAllow then 1 else 0 := List.countP_cons ..

/-! ## Counter arithmetic -/

@[simp] theorem toNat_saturatingPred (n : UInt32) : (saturatingPred n).toNat = n.toNat - 1 := by
  unfold saturatingPred
  split_ifs with h
  · rw [h]; rfl
  · have h1 : 1 ≤ n := by
      rw [UInt32.le_iff_toNat_le]
      exact Nat.one_le_iff_ne_zero.mpr fun hz => h (UInt32.toNat_inj.mp hz)
    rw [UInt32.toNat_sub_of_le _ _ h1]
    rfl

theorem toNat_succ_of_room {n : UInt32} (h : n.toNat + 1 < 2 ^ 32) :
    (n + 1).toNat = n.toNat + 1 := by
  rw [UInt32.toNat_add, UInt32.toNat_one, Nat.mod_eq_of_lt h]

theorem toNat_succ_le (n : UInt32) : (n + 1).toNat ≤ n.toNat + 1 := by
  rw [UInt32.toNat_add]
  exact Nat.mod_le _ _

/-! ## What a call can do -/

theorem allow_state (now : ℕ) (b : CircuitBreaker) :
    (allow now b).2 = b ∨ (b.state = .open ∧ (allow now b).1 = true ∧
      (allow now b).2 = { b with state := .halfOpen, successCount := 0 }) := by
  unfold allow
  split
  · exact .inl rfl
  · split
    · split
      · exact .inr ⟨‹_›, rfl, rfl⟩
      · exact .inl rfl
    · exact .inl rfl
  · exact .inl rfl

theorem allow_of_closed {b : CircuitBreaker} (h : b.state = .closed) (t : ℕ) :
    allow t b = (true, b) := by
  simp only [allow, h]

theorem recordSuccess_of_closed {b : CircuitBreaker} (h : b.state = .closed) :
    recordSuccess b = { b with failures := saturatingPred b.failures } := by
  simp only [recordSuccess, h]

theorem allow_of_open {b : CircuitBreaker} {last now : ℕ} (hs : b.state = .open)
    (hl : b.lastFailure = some last) (hr : recovered b.config last now = true) :
    allow now b = (true, { b with state := .halfOpen, successCount := 0 }) := by
  simp only [allow, hs, hl, hr, if_true]

theorem allow_of_halfOpen {b : CircuitBreaker} (h : b.state = .halfOpen) (t : ℕ) :
    allow t b = (decide (b.successCount < b.config.halfOpenMaxCalls), b) := by
  simp only [allow, h]

/-- A success of a half-open breaker, which may close it. -/
theorem recordSuccess_of_halfOpen {b : CircuitBreaker} (h : b.state = .halfOpen) :
    recordSuccess b = if b.config.halfOpenMaxCalls ≤ b.successCount + 1 then
      { b with state := .closed, failures := 0, successCount := 0 }
    else { b with successCount := b.successCount + 1 } := by
  simp only [recordSuccess, h]

@[simp] theorem step_config (b : CircuitBreaker) (op : Op) : (step b op).config = b.config := by
  cases op with
  | allow now =>
      rcases allow_state now b with h | ⟨-, -, h⟩ <;> simp only [step] <;> rw [h]
  | recordSuccess now =>
      simp only [step, recordSuccess]
      split
      · split <;> rfl
      · rfl
      · rfl
  | recordFailure now =>
      simp only [step, recordFailure]
      split <;> rfl

@[simp] theorem foldl_config (b : CircuitBreaker) (ops : List Op) :
    (ops.foldl step b).config = b.config := by
  induction ops using List.reverseRecOn with
  | nil => rfl
  | append_singleton ops op ih =>
      rw [List.foldl_append, List.foldl_cons, List.foldl_nil, step_config, ih]

@[simp] theorem run_config (cfg : CircuitBreakerConfig) (ops : List Op) :
    (run cfg ops).config = cfg := foldl_config (new cfg) ops

end AppGate.Breaker
