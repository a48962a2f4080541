import AppGate.Lib.Machine
import AppGate.RateLimit.Proxy

/-!
# Concurrent calls of the proxy limiter

Any number of clients run `Limiter.checkLimit` of `internal/ratelimit/limiter.go` against one Redis
server. The two commands of a pipeline are two steps of the server, between which it may serve other
clients; a common clock in milliseconds moves between steps.

* `step`, `limiter`: the interleaving; `exec_alone`: a call nobody interrupts computes `checkKey`;
* `Move`, `move_of_step`: everything a step can do;
* `Timely`: no Redis error, and both commands within a second of the window key;
* `Inv`, `inv_step`, **`fixed_window_exact`**.
-/

set_option autoImplicit false

namespace AppGate.LLMProxy.FixedWindow

open Redis Lts

/-- Where a call of `checkLimit` is. -/
inductive Phase where
  /-- The window key is computed; before `INCR`. -/
  | keyed
  /-- Before `EXPIRE`, with the reply to `INCR`. -/
  | incremented (reply : Except String ℤ)
  | returned (verdict : Verdict)
  /-- `pipe.Exec` returned an error, and the call `true, 0, 0`. -/
  | failed
  deriving DecidableEq, Repr

/-- A call: its project key, the time it computed its window key at, and its position. -/
structure Call where
  project : String
  start : ℕ
  phase : Phase
  deriving DecidableEq, Repr

/-- The clock, the database and the calls so far. -/
structure State where
  clock : ℕ
  db : Db String ℤ
  calls : List Call

/-- A step. -/
inductive Act where
  /-- Time passes. -/
  | tick (d : ℕ)
  /-- A new call computes its window key. -/
  | begin (project : String)
  /-- The server runs the `INCR` of the `i`-th call. -/
  | incr (i : ℕ)
  /-- The server runs the `EXPIRE` of the `i`-th call, which returns. -/
  | expire (i : ℕ)
  /-- The connection of the `i`-th call fails. -/
  | fail (i : ℕ)
  deriving DecidableEq, Repr

/-- What `checkLimit` returns for a count, at time `clock`. -/
def verdict (l : Limiter) (count : ℤ) (clock : ℕ) : Verdict where
  allowed := count ≤ l.burst
  remaining := if l.rps - count < 0 then 0 else l.rps - count
  reset := clock / 1000 + l.window

/-- The counter key of a call. -/
def Call.key (l : Limiter) (c : Call) : String := l.windowKey c.project c.start

/-- How a call ends after its `EXPIRE` ran. -/
def finish (l : Limiter) (clock : ℕ) : Except String ℤ → Phase
  | .ok count => .returned (verdict l count clock)
  | .error _ => .failed

/-- One step. -/
def step (l : Limiter) (s : State) : Act → Option State
  | .tick d => some { s with clock := s.clock + d }
  | .begin project => some { s with calls := s.calls ++ [⟨project, s.clock, .keyed⟩] }
  | .incr i =>
    match s.calls[i]? with
    | some ⟨project, start, .keyed⟩ =>
      let key := l.windowKey project start
      match Redis.incr s.clock (s.db key) with
      | .ok (count, k) => some { s with
          db := Function.update s.db key k
          calls := s.calls.set i ⟨project, start, .incremented (.ok count)⟩ }
      | .error err => some { s with
          calls := s.calls.set i ⟨project, start, .incremented (.error err)⟩ }
    | _ => none
  | .expire i =>
    match s.calls[i]? with
    | some ⟨project, start, .incremented reply⟩ =>
      let key := l.windowKey project start
      match Redis.expire s.clock (l.window + 1) (s.db key) with
      | .ok k => some { s with
          db := Function.update s.db key k
          calls := s.calls.set i ⟨project, start, finish l s.clock reply⟩ }
      | .error _ => some { s with calls := s.calls.set i ⟨project, start, .failed⟩ }
    | _ => none
  | .fail i =>
    match s.calls[i]? with
    | some ⟨project, start, .keyed⟩ => some { s with
        calls := s.calls.set i ⟨project, start, .failed⟩ }
    | some ⟨project, start, .incremented _⟩ => some { s with
        calls := s.calls.set i ⟨project, start, .failed⟩ }
    | _ => none

/-- The clients of a limiter, from an empty database. -/
def limiter (l : Limiter) : Machine State Act := ⟨⟨0, fun _ => none, []⟩, step l⟩

/-- What the call returned, if it has. -/
def Phase.answer : Phase → Option Verdict
  | .returned v => some v
  | .failed => some ⟨true, 0, 0⟩
  | _ => none

/-- The call returned `allowed = true`. -/
def Phase.allowed (p : Phase) : Bool := p.answer.any Verdict.allowed

/-- The call is for project key `P` and computed its key in the aligned window `w`. -/
def Call.isOf (l : Limiter) (P : String) (w : ℕ) (c : Call) : Bool :=
  c.project = P && c.start / 1000 / l.window = w

/-- No Redis error, and both commands of a pipeline run less than a second after the window key was
computed. -/
def Timely (l : Limiter) (s : State) : Act → Prop
  | .incr i => ∀ c, s.calls[i]? = some c →
      s.clock < c.start + 1000 ∧ (Redis.incr s.clock (s.db (c.key l))).isOk
  | .expire i => ∀ c, s.calls[i]? = some c →
      s.clock < c.start + 1000 ∧ (Redis.expire s.clock (l.window + 1) (s.db (c.key l))).isOk
  | .fail _ => False
  | _ => True

instance (l : Limiter) (s : State) (a : Act) : Decidable (Timely l s a) := by
  cases a <;> unfold Timely <;> infer_instance

/-! ## What a step can do -/

/-- The steps of the clients that meet no error. -/
inductive Move (l : Limiter) (s : State) : Act → State → Prop
  | tick (d : ℕ) : Move l s (.tick d) { s with clock := s.clock + d }
  | begin (project : String) :
      Move l s (.begin project) { s with calls := s.calls ++ [⟨project, s.clock, .keyed⟩] }
  | incr {i : ℕ} {c : Call} {count : ℤ} {k : Option (Slot ℤ)} : s.calls[i]? = some c →
      c.phase = .keyed → s.clock < c.start + 1000 →
      Redis.incr s.clock (s.db (c.key l)) = .ok (count, k) →
      Move l s (.incr i) { s with
        db := Function.update s.db (c.key l) k
        calls := s.calls.set i { c with phase := .incremented (.ok count) } }
  | expire {i : ℕ} {c : Call} {reply : Except String ℤ} {k : Option (Slot ℤ)} :
      s.calls[i]? = some c → c.phase = .incremented reply → s.clock < c.start + 1000 →
      Redis.expire s.clock (l.window + 1) (s.db (c.key l)) = .ok k →
      Move l s (.expire i) { s with
        db := Function.update s.db (c.key l) k
        calls := s.calls.set i { c with phase := finish l s.clock reply } }

theorem move_of_step {l : Limiter} {s t : State} {a : Act} (ha : Timely l s a)
    (h : (limiter l).step s a = some t) : Move l s a t := by
  simp only [limiter] at h
  cases a with
  | tick d =>
      cases h
      exact .tick d
  | begin project =>
      cases h
      exact .begin project
  | incr i =>
      simp only [step] at h
      split at h
      · rename_i project start hc
        obtain ⟨hclock, hok⟩ := ha _ hc
        split at h
        · rename_i count k hr
          have hmove := Move.incr (l := l) hc rfl hclock hr
          cases h
          exact hmove
        · rename_i err hr
          rw [Call.key, hr] at hok
          cases hok
      · cases h
  | expire i =>
      simp only [step] at h
      split at h
      · rename_i project start reply hc
        obtain ⟨hclock, hok⟩ := ha _ hc
        split at h
        · rename_i k hr
          have hmove := Move.expire hc rfl hclock hr
          cases h
          exact hmove
        · rename_i err hr
          rw [Call.key, hr] at hok
          cases hok
      · cases h
  | fail i => exact absurd ha id

/-- A call nobody interrupts computes `checkKey`. -/
theorem exec_alone {l : Limiter} {s : State} {i : ℕ} {c : Call} (hc : s.calls[i]? = some c)
    (hp : c.phase = .keyed) :
    ∃ p : Phase, p.answer = some (l.checkKey (s.db (c.key l)) s.clock).1 ∧
      (limiter l).exec s [.incr i, .expire i] = some { s with
        db := Function.update s.db (c.key l) (l.checkKey (s.db (c.key l)) s.clock).2
        calls := s.calls.set i { c with phase := p } } := by
  obtain ⟨project, start, phase⟩ := c
  subst hp
  obtain ⟨hi, hci⟩ := List.getElem?_eq_some_iff.mp hc
  simp only [Call.key, Limiter.checkKey]
  cases hr : Redis.incr s.clock (s.db (l.windowKey project start)) with
  | error err =>
      cases he : Redis.expire s.clock (l.window + 1) (s.db (l.windowKey project start)) with
      | error err' =>
          refine ⟨.failed, rfl, ?_⟩
          simp [Machine.exec, limiter, step, hci, hi, hr, he]
      | ok k =>
          refine ⟨.failed, rfl, ?_⟩
          simp [Machine.exec, limiter, step, hci, hi, hr, he, finish]
  | ok r =>
      obtain ⟨count, k⟩ := r
      cases he : Redis.expire s.clock (l.window + 1) k with
      | error err' =>
          refine ⟨.failed, by simp [Phase.answer, he], ?_⟩
          simp [Machine.exec, limiter, step, hci, hi, hr, he]
      | ok k' =>
          refine ⟨.returned (verdict l count s.clock), by simp [Phase.answer, he, verdict], ?_⟩
          simp [Machine.exec, limiter, step, hci, hi, hr, he, finish]

/-! ## One counter -/

/-- A counter that was incremented `n` times and does not expire before `till`. -/
def Counter (n till : ℕ) (k : Option (Slot ℤ)) : Prop :=
  (n = 0 ∧ k = none) ∨ ∃ e, k = some ⟨n, e⟩ ∧ ∀ t, e = some t → till ≤ t

theorem Counter.live {n till clock : ℕ} {k : Option (Slot ℤ)} (h : Counter n till k)
    (hc : clock ≤ till) : live clock k = k := by
  rcases h with ⟨-, rfl⟩ | ⟨e, rfl, he⟩
  · rfl
  · refine Option.filter_eq_some_iff.mpr ⟨rfl, ?_⟩
    cases e with
    | none => rfl
    | some t => simpa using Nat.le_trans hc (he t rfl)

theorem Counter.incr {n till clock : ℕ} {count : ℤ} {k k' : Option (Slot ℤ)}
    (h : Counter n till k) (hc : clock ≤ till) (hr : Redis.incr clock k = .ok (count, k')) :
    count = n + 1 ∧ Counter (n + 1) till k' := by
  rw [Redis.incr, h.live hc] at hr
  rcases h with ⟨rfl, rfl⟩ | ⟨e, rfl, he⟩
  · cases hr
    exact ⟨rfl, .inr ⟨none, rfl, fun t ht => nomatch ht⟩⟩
  · dsimp only at hr
    split_ifs at hr
    cases hr
    exact ⟨rfl, .inr ⟨e, rfl, he⟩⟩

theorem Counter.expire {n till clock secs : ℕ} {k k' : Option (Slot ℤ)} (h : Counter n till k)
    (hc : clock ≤ till) (htill : till ≤ clock + (secs + 1) * 1000)
    (hr : Redis.expire clock (secs + 1) k = .ok k') : Counter n till k' := by
  rcases expire_ok hr with ⟨hs, -⟩ | ⟨-, rfl⟩
  · omega
  · rw [h.live hc]
    rcases h with ⟨rfl, rfl⟩ | ⟨e, rfl, he⟩
    · exact .inl ⟨rfl, rfl⟩
    · refine .inr ⟨_, rfl, fun t ht => ?_⟩
      have := Option.some.inj ht
      omega

/-! ## All counters -/

/-- The call has run its `INCR`. -/
def Phase.isIncremented : Phase → Bool
  | .keyed => false
  | _ => true

/-- The call is going to return `allowed = true`, or has. -/
def Phase.passes (l : Limiter) : Phase → Bool
  | .keyed => false
  | .incremented (.ok count) => count ≤ l.burst
  | .incremented (.error _) => true
  | .returned v => v.allowed
  | .failed => true

theorem passes_finish (l : Limiter) (clock : ℕ) (reply : Except String ℤ) :
    (finish l clock reply).passes l = (Phase.incremented reply).passes l := by
  cases reply <;> rfl

theorem isIncremented_finish (l : Limiter) (clock : ℕ) (reply : Except String ℤ) :
    (finish l clock reply).isIncremented = (Phase.incremented reply).isIncremented := by
  cases reply <;> rfl

/-- The number of `INCR` commands that ran for project `P` in window `w`. -/
def State.increments (l : Limiter) (s : State) (P : String) (w : ℕ) : ℕ :=
  s.calls.countP fun c => c.isOf l P w && c.phase.isIncremented

/-- The number of these calls that return `allowed = true`. -/
def State.passing (l : Limiter) (s : State) (P : String) (w : ℕ) : ℕ :=
  s.calls.countP fun c => c.isOf l P w && c.phase.passes l

/-- The counter key of project `P` in window `w`. -/
def counterKey (l : Limiter) (P : String) (w : ℕ) : String := l.windowKey P (w * l.window * 1000)

/-- The last time a command of window `w` can run at. -/
def windowTill (l : Limiter) (w : ℕ) : ℕ := (w + 1) * l.window * 1000 + 1000

/-- The counter of the window holds the number of its `INCR`s, outlives the commands of its window,
and has let through the first `burst`. -/
structure Exact (l : Limiter) (s : State) (P : String) (w : ℕ) : Prop where
  counter : Counter (s.increments l P w) (windowTill l w) (s.db (counterKey l P w))
  passing : s.passing l P w = min l.burst.toNat (s.increments l P w)

/-- Every counter is exact. -/
structure Inv (l : Limiter) (s : State) : Prop where
  past : ∀ c ∈ s.calls, c.start ≤ s.clock
  windows : ∀ P w, Exact l s P w

variable {l : Limiter}

theorem key_eq_iff (hw : 0 < l.window) (c : Call) (P : String) (w : ℕ) :
    c.key l = counterKey l P w ↔ c.isOf l P w = true := by
  have hdiv : w * l.window * 1000 / 1000 / l.window = w := by
    rw [Nat.mul_div_cancel _ (by decide), Nat.mul_div_cancel _ hw]
  unfold Call.key counterKey Call.isOf
  rw [windowKey_inj, hdiv]
  simp

/-- A timely command of a window runs before its counter expires, and its `EXPIRE` keeps it so. -/
theorem timely_bounds (hw : 0 < l.window) {clock start w : ℕ} (hstart : start ≤ clock)
    (hclock : clock < start + 1000) (hof : start / 1000 / l.window = w) :
    clock ≤ windowTill l w ∧ windowTill l w ≤ clock + (l.window + 1) * 1000 := by
  have hlow : w * l.window ≤ start / 1000 := by
    rw [← hof]
    exact Nat.div_mul_le_self _ _
  have hhigh : start / 1000 < (w + 1) * l.window :=
    (Nat.div_lt_iff_lt_mul hw).mp (by omega)
  rw [Nat.succ_mul] at hhigh
  rw [windowTill, Nat.succ_mul]
  omega

theorem increments_set {s : State} {i : ℕ} {c : Call} (hc : s.calls[i]? = some c) (p : Phase)
    (k : Db String ℤ) (P : String) (w : ℕ) :
    State.increments l { s with db := k, calls := s.calls.set i { c with phase := p } } P w +
        (c.isOf l P w && c.phase.isIncremented).toNat =
      s.increments l P w + (c.isOf l P w && p.isIncremented).toNat :=
  Counting.countP_set_add hc { c with phase := p } _

theorem passing_set {s : State} {i : ℕ} {c : Call} (hc : s.calls[i]? = some c) (p : Phase)
    (k : Db String ℤ) (P : String) (w : ℕ) :
    State.passing l { s with db := k, calls := s.calls.set i { c with phase := p } } P w +
        (c.isOf l P w && c.phase.passes l).toNat =
      s.passing l P w + (c.isOf l P w && p.passes l).toNat :=
  Counting.countP_set_add hc { c with phase := p } _

theorem past_set {s : State} (h : ∀ c ∈ s.calls, c.start ≤ s.clock) {i : ℕ} {c : Call}
    (hc : s.calls[i]? = some c) (p : Phase) :
    ∀ d ∈ s.calls.set i { c with phase := p }, d.start ≤ s.clock := by
  intro d hd
  rcases List.mem_or_eq_of_mem_set hd with hd | rfl
  · exact h d hd
  · exact h c (List.mem_of_getElem? hc)

/-- The window of a call, as `checkLimit` computes it. -/
theorem Call.window_of {c : Call} {P : String} {w : ℕ} (h : c.isOf l P w = true) :
    c.start / 1000 / l.window = w := by
  simp only [Call.isOf, Bool.and_eq_true, decide_eq_true_eq] at h
  exact h.2

/-- **Other projects and windows** are not affected by a command. -/
theorem exact_other (hw : 0 < l.window) {s : State} {P : String} {w : ℕ} (h : Exact l s P w)
    {i : ℕ} {c : Call} (hc : s.calls[i]? = some c) (hof : c.isOf l P w = false) (p : Phase)
    (k : Option (Slot ℤ)) :
    Exact l { s with
      db := Function.update s.db (c.key l) k
      calls := s.calls.set i { c with phase := p } } P w := by
  have hincr := increments_set (l := l) hc p (Function.update s.db (c.key l) k) P w
  have hpass := passing_set (l := l) hc p (Function.update s.db (c.key l) k) P w
  simp only [hof, Bool.false_and, Bool.toNat_false, Nat.add_zero] at hincr hpass
  have hkey : counterKey l P w ≠ c.key l := by
    intro he
    rw [(key_eq_iff hw c P w).mp he.symm] at hof
    cases hof
  refine ⟨?_, ?_⟩
  · rw [hincr]
    dsimp only
    rw [Function.update_of_ne hkey]
    exact h.counter
  · rw [hincr, hpass]
    exact h.passing

/-- **`INCR`** counts the call, and lets it through when it is among the first `burst`. -/
theorem exact_incr (hw : 0 < l.window) {s : State} {P : String} {w : ℕ} (h : Exact l s P w)
    {i : ℕ} {c : Call} {count : ℤ} {k : Option (Slot ℤ)} (hc : s.calls[i]? = some c)
    (hof : c.isOf l P w = true) (hp : c.phase = .keyed) (hstart : c.start ≤ s.clock)
    (hclock : s.clock < c.start + 1000)
    (hr : Redis.incr s.clock (s.db (c.key l)) = .ok (count, k)) :
    Exact l { s with
      db := Function.update s.db (c.key l) k
      calls := s.calls.set i { c with phase := .incremented (.ok count) } } P w := by
  have hkey := (key_eq_iff hw c P w).mpr hof
  have hincr := increments_set (l := l) hc (.incremented (.ok count))
    (Function.update s.db (c.key l) k) P w
  have hpass := passing_set (l := l) hc (.incremented (.ok count))
    (Function.update s.db (c.key l) k) P w
  simp only [hp, hof, Phase.isIncremented, Phase.passes, Bool.and_false, Bool.and_true,
    Bool.true_and, Bool.toNat_false, Bool.toNat_true, Nat.add_zero] at hincr hpass
  rw [hkey] at hr
  obtain ⟨hcount, hcounter⟩ :=
    h.counter.incr (timely_bounds hw hstart hclock (Call.window_of hof)).1 hr
  refine ⟨?_, ?_⟩
  · rw [hincr, hkey]
    dsimp only
    rw [Function.update_self]
    exact hcounter
  · have hold := h.passing
    rw [hincr]
    rw [hcount] at hpass
    by_cases hle : ((s.increments l P w : ℕ) : ℤ) + 1 ≤ l.burst
    · rw [decide_eq_true hle, Bool.toNat_true] at hpass
      rw [hcount, hpass]
      omega
    · rw [decide_eq_false hle, Bool.toNat_false] at hpass
      rw [hcount, hpass]
      omega

/-- **`EXPIRE`** prolongs the counter beyond the commands of its window. -/
theorem exact_expire (hw : 0 < l.window) {s : State} {P : String} {w : ℕ} (h : Exact l s P w)
    {i : ℕ} {c : Call} {reply : Except String ℤ} {k : Option (Slot ℤ)}
    (hc : s.calls[i]? = some c) (hof : c.isOf l P w = true) (hp : c.phase = .incremented reply)
    (hstart : c.start ≤ s.clock) (hclock : s.clock < c.start + 1000)
    (hr : Redis.expire s.clock (l.window + 1) (s.db (c.key l)) = .ok k) :
    Exact l { s with
      db := Function.update s.db (c.key l) k
      calls := s.calls.set i { c with phase := finish l s.clock reply } } P w := by
  have hkey := (key_eq_iff hw c P w).mpr hof
  have hincr := increments_set (l := l) hc (finish l s.clock reply)
    (Function.update s.db (c.key l) k) P w
  have hpass := passing_set (l := l) hc (finish l s.clock reply)
    (Function.update s.db (c.key l) k) P w
  rw [hp, passes_finish, Nat.add_right_cancel_iff] at hpass
  rw [hp, isIncremented_finish, Nat.add_right_cancel_iff] at hincr
  rw [hkey] at hr
  obtain ⟨hle, htill⟩ := timely_bounds hw hstart hclock (Call.window_of hof)
  refine ⟨?_, ?_⟩
  · rw [hincr, hkey]
    dsimp only
    rw [Function.update_self]
    exact h.counter.expire hle htill hr
  · rw [hincr, hpass]
    exact h.passing

theorem inv_step (hw : 0 < l.window) (s : State) (a : Act) (t : State) (hs : Inv l s)
    (ha : Timely l s a) (h : (limiter l).step s a = some t) : Inv l t := by
  cases move_of_step ha h with
  | tick d =>
      exact ⟨fun c hc => Nat.le_add_right_of_le (hs.past c hc), fun P w =>
        ⟨(hs.windows P w).counter, (hs.windows P w).passing⟩⟩
  | begin project =>
      refine ⟨?_, fun P w => ?_⟩
      · intro c hc
        rcases List.mem_append.mp hc with hc | hc
        · exact hs.past c hc
        · rw [List.mem_singleton.mp hc]
      · obtain ⟨hcounter, hpassing⟩ := hs.windows P w
        refine ⟨?_, ?_⟩
        · simpa [State.increments, Phase.isIncremented] using hcounter
        · simpa [State.increments, State.passing, Phase.isIncremented, Phase.passes] using hpassing
  | @incr i c count k hc hp hclock hr =>
      refine ⟨past_set hs.past hc _, fun P w => ?_⟩
      cases hof : c.isOf l P w with
      | true =>
          exact exact_incr hw (hs.windows P w) hc hof hp (hs.past c (List.mem_of_getElem? hc))
            hclock hr
      | false => exact exact_other hw (hs.windows P w) hc hof _ k
  | @expire i c reply k hc hp hclock hr =>
      refine ⟨past_set hs.past hc _, fun P w => ?_⟩
      cases hof : c.isOf l P w with
      | true =>
          exact exact_expire hw (hs.windows P w) hc hof hp (hs.past c (List.mem_of_getElem? hc))
            hclock hr
      | false => exact exact_other hw (hs.windows P w) hc hof _ k

theorem inv_init (l : Limiter) : Inv l (limiter l).init where
  past _ hc := absurd hc List.not_mem_nil
  windows _ _ := ⟨.inl ⟨rfl, rfl⟩, (Nat.min_zero _).symm⟩

theorem isIncremented_of_answer {p : Phase} (h : p.answer.isSome) : p.isIncremented = true := by
  cases p <;> first | rfl | cases h

theorem passes_of_answer {p : Phase} (h : p.answer.isSome) : p.passes l = p.allowed := by
  cases p <;> first | rfl | cases h

/-- **The fixed window is exact under concurrency.** In every state that timely calls without a
Redis error reach, once the calls of project `P` in the aligned window `w` have returned, exactly
the first `burst` of them were allowed, whatever other projects and windows did. -/
theorem fixed_window_exact (l : Limiter) (hw : 0 < l.window) (s : State)
    (hs : (limiter l).ReachVia (Timely l) s) (P : String) (w : ℕ)
    (hdone : ∀ c ∈ s.calls, c.isOf l P w = true → c.phase.answer.isSome) :
    (s.calls.countP fun c => c.isOf l P w && c.phase.allowed) =
      min l.burst.toNat (s.calls.countP (Call.isOf l P w)) := by
  have hinv : Inv l s := Machine.inv_reachVia (inv_init l) (inv_step hw) hs
  have hincr : s.increments l P w = s.calls.countP (Call.isOf l P w) := by
    apply List.countP_congr
    intro c hc
    rw [Bool.and_eq_true, and_iff_left_iff_imp]
    exact fun hof => isIncremented_of_answer (hdone c hc hof)
  have hpass : s.passing l P w = s.calls.countP fun c => c.isOf l P w && c.phase.allowed := by
    apply List.countP_congr
    intro c hc
    rw [Bool.and_eq_true, Bool.and_eq_true]
    exact and_congr_right fun hof => by rw [passes_of_answer (hdone c hc hof)]
  rw [← hpass, ← hincr]
  exact (hinv.windows P w).passing

/-- Two calls of one project, interleaved with each other and with a project whose name looks like
a counter key, around the end of a window of one second that allows one call. -/
def twoCalls : List Act :=
  [.tick 990, .begin "a", .begin "a", .begin "a:0", .incr 1, .tick 500, .incr 2, .incr 0,
    .expire 1, .expire 0, .expire 2]

/-- The `INCR` that came second is refused. -/
theorem fixed_window_exact_two :
    ∃ s, (limiter ⟨1, 1, 1⟩).exec (limiter ⟨1, 1, 1⟩).init twoCalls = some s ∧
      (s.calls.countP fun c => c.isOf ⟨1, 1, 1⟩ "a" 0 && c.phase.allowed) = min 1 2 :=
  ⟨_, rfl, fixed_window_exact ⟨1, 1, 1⟩ (by decide) _ ⟨twoCalls, by decide, rfl⟩ "a" 0 (by decide)⟩

end AppGate.LLMProxy.FixedWindow
