import AppGate.Lib.Counting
import AppGate.Lib.Machine
import AppGate.RateLimit.Gateway

/-!
# Concurrent checks of one identity

Any number of `check_redis` calls with one limit and window work on the sorted set of their
identity; every Redis command is one step, and a common clock in milliseconds moves between steps.
A call that fails on the way takes no further step. The `i`-th call draws the UUID `i`.

* `Task.next`, `step`, `limiter`: the interleaving; `exec_alone`: a call nobody interrupts computes
  `checkRedisKey`;
* `Move`, `move_of_step`: everything a step can do;
* `Quiet`: a passing `ZCARD` leaves room for the calls before it, and the key does not expire under
  a call;
* `Sound`, `sound_step`, **`admittedAt_le`**, `two_admitted`.
-/

set_option autoImplicit false

namespace AppGate.RateLimiterService

open Redis Lts

/-- Where a call of `check_redis` is. -/
inductive Phase where
  /-- Before `ZREMRANGEBYSCORE`. -/
  | started
  /-- Before `ZCARD`. -/
  | pruned
  /-- Below the limit, before `ZADD`. -/
  | counted
  /-- Before `EXPIRE`. -/
  | added
  /-- Returned `Ok(true)`. -/
  | admitted
  /-- Returned `Ok(false)`. -/
  | refused
  /-- Returned the error of `EXPIRE`. -/
  | failed (err : String)
  deriving DecidableEq, Repr

/-- A call: the `now` it has read, and its position. -/
structure Task where
  now : UInt64
  phase : Phase
  deriving DecidableEq, Repr

/-- The clock, the sorted set and the calls so far. -/
structure State where
  clock : ℕ
  key : Window
  tasks : List Task
  deriving DecidableEq, Repr

/-- A step. -/
inductive Act where
  /-- Time passes. -/
  | tick (d : ℕ)
  /-- A new call reads the clock. -/
  | begin
  /-- The `i`-th call runs its next command. -/
  | next (i : ℕ)
  deriving DecidableEq, Repr

variable (limit window : UInt64)

/-- The next command of a call with UUID `uuid`. -/
def Task.next (clock uuid : ℕ) (t : Task) (k : Window) : Option (Phase × Window) :=
  match t.phase with
  | .started => some (.pruned, prune clock t.now window k)
  | .pruned => some (if isFull clock limit k then .refused else .counted, k)
  | .counted => some (.added, add clock t.now uuid k)
  | .added =>
    match touch clock window k with
    | .error err => some (.failed err, k)
    | .ok k => some (.admitted, k)
  | .admitted | .refused | .failed _ => none

/-- One step. -/
def step (s : State) : Act → Option State
  | .tick d => some { s with clock := s.clock + d }
  | .begin => some { s with tasks := s.tasks ++ [⟨nowAt s.clock, .started⟩] }
  | .next i =>
    match s.tasks[i]? with
    | some t => (t.next limit window s.clock i s.key).map fun p =>
        { s with key := p.2, tasks := s.tasks.set i { t with phase := p.1 } }
    | none => none

/-- The calls of one identity, from an empty database. -/
def limiter : Machine State Act := ⟨⟨0, none, []⟩, step limit window⟩

/-- The `now` of the call lies in `(x - window * 1000, x]`. -/
def Task.inWindow (t : Task) (x : ℕ) : Bool :=
  t.now.toNat ≤ x && x < t.now.toNat + window.toNat * 1000

/-- The calls that returned `Ok(true)` with their `now` in `(x - window * 1000, x]`. -/
def admittedAt (s : State) (x : ℕ) : ℕ :=
  s.tasks.countP fun t => t.phase = .admitted && t.inWindow window x

/-! ## What a step can do -/

variable {limit window}

/-- The steps of the limiter. -/
inductive Move (limit window : UInt64) (s : State) : Act → State → Prop
  | tick (d : ℕ) : Move limit window s (.tick d) { s with clock := s.clock + d }
  | begin : Move limit window s .begin { s with tasks := s.tasks ++ [⟨nowAt s.clock, .started⟩] }
  | prune {i : ℕ} {t : Task} : s.tasks[i]? = some t → t.phase = .started →
      Move limit window s (.next i)
        { s with key := prune s.clock t.now window s.key, tasks := s.tasks.set i ⟨t.now, .pruned⟩ }
  | refuse {i : ℕ} {t : Task} : s.tasks[i]? = some t → t.phase = .pruned →
      Move limit window s (.next i) { s with tasks := s.tasks.set i ⟨t.now, .refused⟩ }
  | pass {i : ℕ} {t : Task} : s.tasks[i]? = some t → t.phase = .pruned →
      isFull s.clock limit s.key = false →
      Move limit window s (.next i) { s with tasks := s.tasks.set i ⟨t.now, .counted⟩ }
  | add {i : ℕ} {t : Task} : s.tasks[i]? = some t → t.phase = .counted →
      Move limit window s (.next i)
        { s with key := add s.clock t.now i s.key, tasks := s.tasks.set i ⟨t.now, .added⟩ }
  | finish {i : ℕ} {t : Task} {k : Window} : s.tasks[i]? = some t → t.phase = .added →
      touch s.clock window s.key = .ok k →
      Move limit window s (.next i) { s with key := k, tasks := s.tasks.set i ⟨t.now, .admitted⟩ }
  | fail {i : ℕ} {t : Task} {err : String} : s.tasks[i]? = some t → t.phase = .added →
      Move limit window s (.next i) { s with tasks := s.tasks.set i ⟨t.now, .failed err⟩ }

theorem move_of_step {s s' : State} {a : Act} (h : (limiter limit window).step s a = some s') :
    Move limit window s a s' := by
  simp only [limiter] at h
  cases a with
  | tick d =>
      cases h
      exact .tick d
  | begin =>
      cases h
      exact .begin
  | next i =>
      simp only [step] at h
      split at h
      · rename_i t ht
        obtain ⟨p, hp, h⟩ := Option.map_eq_some_iff.mp h
        cases h
        unfold Task.next at hp
        split at hp
        · rename_i hph
          cases hp
          exact .prune ht hph
        · rename_i hph
          cases hp
          cases hfull : isFull s.clock limit s.key with
          | true => exact .refuse ht hph
          | false => exact .pass ht hph hfull
        · rename_i hph
          cases hp
          exact .add ht hph
        · rename_i hph
          split at hp
          · cases hp
            exact .fail ht hph
          · rename_i k hk
            cases hp
            exact .finish ht hph hk
        · cases hp
        · cases hp
        · cases hp
      · cases h

/-! ## A call alone -/

/-- The position of a call that has returned. -/
def Phase.ofResult : Except String Bool → Phase
  | .ok true => .admitted
  | .ok false => .refused
  | .error err => .failed err

theorem step_begin (clock : ℕ) (k : Window) (ts : List Task) :
    step limit window ⟨clock, k, ts⟩ .begin =
      some ⟨clock, k, ts ++ [⟨nowAt clock, .started⟩]⟩ := rfl

theorem step_last (clock : ℕ) (k : Window) (ts : List Task) (t : Task) :
    step limit window ⟨clock, k, ts ++ [t]⟩ (.next ts.length) =
      (t.next limit window clock ts.length k).map fun p =>
        ⟨clock, p.2, ts ++ [{ t with phase := p.1 }]⟩ := by
  simp [step]

/-- **A call that nobody interrupts computes `checkRedisKey`.** -/
theorem exec_alone (limit window : UInt64) (s : State) (identity : String) :
    ∃ as, (limiter limit window).exec s (.begin :: as) =
      some ⟨s.clock, (checkRedisKey s.key ⟨identity, limit, window, s.clock, s.tasks.length⟩).2,
        s.tasks ++ [⟨nowAt s.clock, Phase.ofResult
          (checkRedisKey s.key ⟨identity, limit, window, s.clock, s.tasks.length⟩).1⟩]⟩ := by
  obtain ⟨clock, k, ts⟩ := s
  by_cases hfull : isFull clock limit (prune clock (nowAt clock) window k) = true
  · refine ⟨[.next ts.length, .next ts.length], ?_⟩
    simp [Machine.exec, limiter, step_begin, step_last, Task.next, checkRedisKey, hfull,
      Phase.ofResult]
  · refine ⟨[.next ts.length, .next ts.length, .next ts.length, .next ts.length], ?_⟩
    cases htouch : touch clock window
        (add clock (nowAt clock) ts.length (prune clock (nowAt clock) window k)) with
    | error err =>
        simp [Machine.exec, limiter, step_begin, step_last, Task.next, checkRedisKey, hfull, htouch,
          Phase.ofResult]
    | ok k' =>
        simp [Machine.exec, limiter, step_begin, step_last, Task.next, checkRedisKey, hfull, htouch,
          Phase.ofResult]

/-! ## Arithmetic -/

theorem toNat_nowAt {clock : ℕ} (h : clock < 2 ^ 53) : (nowAt clock).toNat = clock := by
  unfold nowAt
  rw [UInt64.toNat_ofNat']
  exact Nat.mod_eq_of_lt (by omega)

theorem toNat_windowStart_of_lt (now : UInt64) (hw : window.toNat * 1000 < 2 ^ 64) :
    (windowStart now window).toNat = now.toNat - window.toNat * 1000 := by
  have hmul : (window * 1000).toNat = window.toNat * 1000 := by
    rw [UInt64.toNat_mul]
    exact Nat.mod_eq_of_lt hw
  rw [toNat_windowStart, hmul]

/-- What pruning removes is out of the window of every later call. -/
theorem elems_prune (clock : ℕ) {now : UInt64} (k : Window) (hw : window.toNat * 1000 < 2 ^ 64)
    (hnow : now.toNat < 2 ^ 53) :
    elems clock (prune clock now window k) =
      (elems clock k).filter fun p =>
        ¬ (0 ≤ p.2 ∧ p.2 ≤ ((now.toNat - window.toNat * 1000 : ℕ) : ℤ)) := by
  have hstart := toNat_windowStart_of_lt now hw
  have hround : Binary64.round (asI64 (windowStart now window)) =
      ((now.toNat - window.toNat * 1000 : ℕ) : ℤ) := by
    rw [asI64_of_lt (by omega), hstart]
    exact Binary64.round_of_lt (by omega)
  unfold prune
  rw [elems_zremrangebyscore, hround]

/-! ## The list of calls -/

theorem getElem?_set_cases {l : List Task} {i j : ℕ} {b c : Task}
    (h : (l.set i b)[j]? = some c) : (j = i ∧ c = b) ∨ (j ≠ i ∧ l[j]? = some c) := by
  by_cases hij : i = j
  · subst hij
    rw [List.getElem?_set_self'] at h
    obtain ⟨_, _, rfl⟩ := Option.map_eq_some_iff.mp h
    exact .inl ⟨rfl, rfl⟩
  · rw [List.getElem?_set_ne hij] at h
    exact .inr ⟨Ne.symm hij, h⟩

theorem exists_getElem?_set {l : List Task} {i j : ℕ} {t c : Task} (ph : Phase)
    (hi : l[i]? = some t) (hj : l[j]? = some c) :
    ∃ c', (l.set i ⟨t.now, ph⟩)[j]? = some c' ∧ c'.now = c.now := by
  by_cases hij : i = j
  · subst hij
    rw [hi] at hj
    cases hj
    exact ⟨⟨t.now, ph⟩, by rw [List.getElem?_set_self', hi]; rfl, rfl⟩
  · exact ⟨c, by rw [List.getElem?_set_ne hij]; exact hj, rfl⟩

theorem forall_now_set {P : UInt64 → Prop} {l : List Task} {i : ℕ} {t : Task} (ph : Phase)
    (hi : l[i]? = some t) (h : ∀ c ∈ l, P c.now) : ∀ c ∈ l.set i ⟨t.now, ph⟩, P c.now := by
  intro c hc
  rcases List.mem_or_eq_of_mem_set hc with hc | rfl
  · exact h c hc
  · exact h t (List.mem_of_getElem? hi)

theorem countP_set_le {l : List Task} {i : ℕ} {t : Task} {p : Task → Bool} {ph : Phase}
    (hi : l[i]? = some t) (h : p ⟨t.now, ph⟩ = true → p t = true) :
    (l.set i ⟨t.now, ph⟩).countP p ≤ l.countP p := by
  have hcount := Counting.countP_set_add hi ⟨t.now, ph⟩ p
  have hweight : (p ⟨t.now, ph⟩).toNat ≤ (p t).toNat := by
    cases hnew : p ⟨t.now, ph⟩ with
    | false => exact Nat.zero_le _
    | true => rw [h hnew]
  omega

theorem countP_set_le_succ {l : List Task} {i : ℕ} {p : Task → Bool} (b : Task)
    (hi : i < l.length) : (l.set i b).countP p ≤ l.countP p + 1 := by
  rw [List.countP_set hi]
  split_ifs <;> omega

/-! ## The invariant -/

/-- The call has passed `ZCARD` and has not failed. -/
def Phase.holds : Phase → Bool
  | .counted => true
  | .added => true
  | .admitted => true
  | _ => false

/-- The call has run `ZADD` and has not failed. -/
def Phase.hasAdded : Phase → Bool
  | .added => true
  | .admitted => true
  | _ => false

/-- The call has not run `ZCARD` yet. -/
def Phase.beforeCount : Phase → Bool
  | .started => true
  | .pruned => true
  | _ => false

/-- A passing `ZCARD` finds room for itself and for the calls that passed and have not added their
member, after no call with a later `now` has pruned; and when the key expires, no call is before its
`ZCARD` or between `ZADD` and `EXPIRE`. -/
def Quiet (limit : UInt64) (s : State) : Act → Prop
  | .begin => 0 < s.clock ∧ s.clock < 2 ^ 53
  | .next i =>
    match s.tasks[i]? with
    | some t => t.phase = .pruned → isFull s.clock limit s.key = false →
        zcard s.clock s.key + s.tasks.countP (·.phase = .counted) < limit.toNat ∧
          ∀ c ∈ s.tasks, c.phase ≠ .started → c.now.toNat ≤ t.now.toNat
    | none => True
  | .tick d =>
    match expiry s.clock s.key with
    | some e => e < s.clock + d →
        ∀ t ∈ s.tasks, t.phase.beforeCount = false ∧ t.phase ≠ .added
    | none => True

instance (limit : UInt64) (s : State) (a : Act) : Decidable (Quiet limit s a) := by
  unfold Quiet
  split
  · infer_instance
  · split <;> infer_instance
  · split <;> infer_instance

/-- No call still to pass `ZCARD` counts an admission at time `a`. -/
def Lost (window : UInt64) (clock : ℕ) (tasks : List Task) (a : ℕ) : Prop :=
  (∃ t ∈ tasks, t.phase ≠ .started ∧ a + window.toNat * 1000 ≤ t.now.toNat) ∨
    (a + window.toNat * 1000 ≤ clock ∧
      ∀ t ∈ tasks, t.phase.beforeCount = true → a + window.toNat * 1000 ≤ t.now.toNat)

/-- A `now` that was read by `clock` and is stored exactly as a score. -/
def Timed (clock : ℕ) (now : UInt64) : Prop :=
  0 < now.toNat ∧ now.toNat < 2 ^ 53 ∧ now.toNat ≤ clock

/-- The calls that hold a place at time `x`. -/
def held (window : UInt64) (tasks : List Task) (x : ℕ) : ℕ :=
  tasks.countP fun t => t.phase.holds && t.inWindow window x

/-- The elements belong to calls and outlive their windows; what is gone is out of every window to
come; and no window holds more than `limit` calls. -/
structure Sound (limit window : UInt64) (s : State) : Prop where
  now : ∀ t ∈ s.tasks, Timed s.clock t.now
  owner : ∀ p ∈ elems s.clock s.key, ∃ t, s.tasks[p.1.2]? = some t ∧ p.2 = t.now.toNat
  expiring : ∀ p ∈ elems s.clock s.key, ∀ t, s.tasks[p.1.2]? = some t → t.phase = .admitted →
    ∃ e, expiry s.clock s.key = some e ∧ t.now.toNat + window.toNat * 1000 ≤ e
  kept : ∀ i t, s.tasks[i]? = some t → t.phase.hasAdded = true →
    (∃ p ∈ elems s.clock s.key, p.1.2 = i) ∨ Lost window s.clock s.tasks t.now.toNat
  bounded : ∀ x, held window s.tasks x ≤ limit.toNat

theorem Lost.later {clock clock' a : ℕ} {tasks : List Task} (h : Lost window clock tasks a)
    (hc : clock ≤ clock') : Lost window clock' tasks a := by
  rcases h with h | ⟨hle, h⟩
  · exact .inl h
  · exact .inr ⟨Nat.le_trans hle hc, h⟩

theorem Lost.begin {clock a : ℕ} {tasks : List Task} {t : Task} (h : Lost window clock tasks a)
    (ht : t.now.toNat = clock) : Lost window clock (tasks ++ [t]) a := by
  rcases h with ⟨c, hc, h⟩ | ⟨hle, h⟩
  · exact .inl ⟨c, List.mem_append_left _ hc, h⟩
  · refine .inr ⟨hle, ?_⟩
    intro c hc hph
    rcases List.mem_append.mp hc with hc | hc
    · exact h c hc hph
    · rw [List.mem_singleton.mp hc, ht]
      exact hle

/-- A call that goes on keeps what is lost lost. -/
theorem Lost.set {clock a i : ℕ} {tasks : List Task} {t : Task} {ph : Phase}
    (h : Lost window clock tasks a) (hi : tasks[i]? = some t) (hph : ph ≠ .started)
    (hcount : ph.beforeCount = true → t.phase.beforeCount = true) :
    Lost window clock (tasks.set i ⟨t.now, ph⟩) a := by
  rcases h with ⟨c, hc, hpruned, h⟩ | ⟨hle, h⟩
  · refine .inl ?_
    obtain ⟨j, hj⟩ := List.getElem?_of_mem hc
    by_cases hij : i = j
    · subst hij
      rw [hi] at hj
      cases hj
      exact ⟨⟨t.now, ph⟩, List.mem_of_getElem? (by rw [List.getElem?_set_self', hi]; rfl), hph, h⟩
    · exact ⟨c, List.mem_of_getElem? (by rw [List.getElem?_set_ne hij]; exact hj), hpruned, h⟩
  · refine .inr ⟨hle, ?_⟩
    intro c hc hbefore
    rcases List.mem_or_eq_of_mem_set hc with hc | rfl
    · exact h c hc hbefore
    · exact h t (List.mem_of_getElem? hi) (hcount hbefore)

/-! ## The steps -/

theorem Sound.tick {s : State} (hs : Sound limit window s) (d : ℕ) (hq : Quiet limit s (.tick d)) :
    Sound limit window { s with clock := s.clock + d } := by
  have hnow : ∀ t ∈ s.tasks, Timed (s.clock + d) t.now := by
    intro t ht
    obtain ⟨hpos, hlt, hle⟩ := hs.now t ht
    exact ⟨hpos, hlt, Nat.le_add_right_of_le hle⟩
  rcases elems_later (Nat.le_add_right s.clock d) s.key with ⟨hel, hexp⟩ | ⟨hel, e, hexp, hlt⟩
  · refine ⟨hnow, ?_, ?_, ?_, hs.bounded⟩
    · rw [hel]
      exact hs.owner
    · rw [hel, hexp]
      exact hs.expiring
    · intro i t hi hadded
      rw [hel]
      rcases hs.kept i t hi hadded with h | h
      · exact .inl h
      · exact .inr (h.later (Nat.le_add_right _ _))
  · -- the key has expired: every admission in it is out of the window of a call still to come
    have hsettled : ∀ t ∈ s.tasks, t.phase.beforeCount = false ∧ t.phase ≠ .added := by
      simp only [Quiet, hexp] at hq
      exact hq hlt
    refine ⟨hnow, ?_, ?_, ?_, hs.bounded⟩
    · rw [hel]
      exact fun p hp => absurd hp List.not_mem_nil
    · rw [hel]
      exact fun p hp => absurd hp List.not_mem_nil
    · intro i t hi hadded
      refine .inr ?_
      obtain ⟨-, hnot⟩ := hsettled t (List.mem_of_getElem? hi)
      have hadm : t.phase = .admitted := by
        cases hph : t.phase <;> simp_all [Phase.hasAdded]
      rcases hs.kept i t hi hadded with ⟨p, hp, rfl⟩ | h
      · obtain ⟨e', he', hle⟩ := hs.expiring p hp t hi hadm
        rw [hexp] at he'
        cases he'
        refine .inr ⟨Nat.le_of_lt (Nat.lt_of_le_of_lt hle hlt), ?_⟩
        intro c hc hbefore
        rw [(hsettled c hc).1] at hbefore
        cases hbefore
      · exact h.later (Nat.le_add_right _ _)

theorem Sound.begin {s : State} (hs : Sound limit window s) (hq : Quiet limit s .begin) :
    Sound limit window { s with tasks := s.tasks ++ [⟨nowAt s.clock, .started⟩] } := by
  obtain ⟨hpos, hlt⟩ := hq
  have hnow := toNat_nowAt hlt
  have hget : ∀ {i : ℕ} {t : Task}, s.tasks[i]? = some t →
      (s.tasks ++ [⟨nowAt s.clock, .started⟩])[i]? = some t := by
    intro i t hi
    rw [List.getElem?_append_left (List.getElem?_eq_some_iff.mp hi).1]
    exact hi
  have hback : ∀ {i : ℕ} {t : Task}, (s.tasks ++ [⟨nowAt s.clock, .started⟩])[i]? = some t →
      t.phase ≠ .started → s.tasks[i]? = some t := by
    intro i t hi hph
    rcases Nat.lt_or_ge i s.tasks.length with h | h
    · rwa [List.getElem?_append_left h] at hi
    · rw [List.getElem?_append_right h] at hi
      have := List.mem_singleton.mp (List.mem_of_getElem? hi)
      rw [this] at hph
      exact absurd rfl hph
  refine ⟨?_, ?_, ?_, ?_, ?_⟩
  · intro t ht
    rcases List.mem_append.mp ht with ht | ht
    · exact hs.now t ht
    · rw [List.mem_singleton.mp ht]
      unfold Timed
      rw [hnow]
      exact ⟨hpos, hlt, le_rfl⟩
  · intro p hp
    obtain ⟨t, ht, hscore⟩ := hs.owner p hp
    exact ⟨t, hget ht, hscore⟩
  · intro p hp t ht hadm
    exact hs.expiring p hp t (hback ht (by rw [hadm]; decide)) hadm
  · intro i t ht hadded
    have ht' := hback ht (by intro h; rw [h] at hadded; cases hadded)
    rcases hs.kept i t ht' hadded with h | h
    · exact .inl h
    · exact .inr (h.begin hnow)
  · intro x
    have h : held window (s.tasks ++ [⟨nowAt s.clock, .started⟩]) x = held window s.tasks x := by
      simp [held, List.countP_append, Phase.holds]
    rw [h]
    exact hs.bounded x

theorem Sound.owner_set {s : State} (hs : Sound limit window s) {i : ℕ} {t : Task} (ph : Phase)
    (hi : s.tasks[i]? = some t) : ∀ p ∈ elems s.clock s.key,
      ∃ c, (s.tasks.set i ⟨t.now, ph⟩)[p.1.2]? = some c ∧ p.2 = c.now.toNat := by
  intro p hp
  obtain ⟨c, hc, hscore⟩ := hs.owner p hp
  obtain ⟨c', hc', hnow⟩ := exists_getElem?_set ph hi hc
  exact ⟨c', hc', by rw [hscore, hnow]⟩

/-- A call goes on to `ph` and leaves the set as it is. -/
theorem Sound.next {s : State} (hs : Sound limit window s) {i : ℕ} {t : Task} {ph : Phase}
    (hi : s.tasks[i]? = some t) (hstarted : ph ≠ .started) (hcount : ph.beforeCount = false)
    (hadded : ph.hasAdded = false)
    (hbounded : ∀ x, held window (s.tasks.set i ⟨t.now, ph⟩) x ≤ limit.toNat) :
    Sound limit window { s with tasks := s.tasks.set i ⟨t.now, ph⟩ } := by
  refine ⟨forall_now_set (P := Timed s.clock) ph hi hs.now, hs.owner_set ph hi, ?_, ?_, hbounded⟩
  · intro p hp c hc hadm
    rcases getElem?_set_cases hc with ⟨-, rfl⟩ | ⟨-, hc⟩
    · rw [show ph = .admitted from hadm] at hadded
      cases hadded
    · exact hs.expiring p hp c hc hadm
  · intro j c hc hcadded
    rcases getElem?_set_cases hc with ⟨-, rfl⟩ | ⟨-, hc⟩
    · rw [show ph.hasAdded = true from hcadded] at hadded
      cases hadded
    · rcases hs.kept j c hc hcadded with h | h
      · exact .inl h
      · exact .inr (h.set hi hstarted fun hb => by rw [hcount] at hb; cases hb)

/-- A call that ends without passing frees what it held. -/
theorem Sound.held_le {s : State} (hs : Sound limit window s) {i : ℕ} {t : Task} {ph : Phase}
    (hi : s.tasks[i]? = some t) (h : ph.holds = true → t.phase.holds = true) (x : ℕ) :
    held window (s.tasks.set i ⟨t.now, ph⟩) x ≤ limit.toNat := by
  refine Nat.le_trans (countP_set_le hi ?_) (hs.bounded x)
  intro hp
  rw [Bool.and_eq_true] at hp ⊢
  exact ⟨h hp.1, hp.2⟩

/-- At a `ZCARD` of call `t`, everything held in a window with `t` is in the set or about to be
added. -/
theorem Sound.held_le_zcard {s : State} (hs : Sound limit window s) {t : Task} (ht : t ∈ s.tasks)
    (hph : t.phase = .pruned)
    (horder : ∀ c ∈ s.tasks, c.phase ≠ .started → c.now.toNat ≤ t.now.toNat) {x : ℕ}
    (hx : t.now.toNat ≤ x) :
    held window s.tasks x ≤ s.tasks.countP (·.phase = .counted) + zcard s.clock s.key := by
  have hsplit : held window s.tasks x ≤ s.tasks.countP (·.phase = .counted) +
      s.tasks.countP fun c => c.phase.hasAdded && c.inWindow window x := by
    apply Counting.countP_le_add
    intro c hc
    rw [Bool.and_eq_true] at hc ⊢
    obtain ⟨hholds, hin⟩ := hc
    cases hcp : c.phase <;> simp_all [Phase.holds, Phase.hasAdded]
  refine Nat.le_trans hsplit (Nat.add_le_add_left ?_ _)
  unfold zcard
  rw [← List.length_map (fun p => p.1.2)]
  apply Counting.countP_le_length_of_index
  intro j c hj hc
  rw [Bool.and_eq_true] at hc
  obtain ⟨hadded, hin⟩ := hc
  rcases hs.kept j c hj hadded with ⟨p, hp, rfl⟩ | hlost
  · exact List.mem_map_of_mem hp
  · -- a lost admission is not in the window of `t`
    have hout : c.now.toNat + window.toNat * 1000 ≤ t.now.toNat := by
      rcases hlost with ⟨c', hc', hpruned, hle⟩ | ⟨-, hall⟩
      · exact Nat.le_trans hle (horder c' hc' hpruned)
      · exact hall t ht (by rw [hph]; rfl)
    simp only [Task.inWindow, Bool.and_eq_true, decide_eq_true_eq] at hin
    omega

theorem Sound.pass {s : State} (hs : Sound limit window s) {i : ℕ} {t : Task}
    (hi : s.tasks[i]? = some t) (hph : t.phase = .pruned)
    (hfull : isFull s.clock limit s.key = false) (hq : Quiet limit s (.next i)) :
    Sound limit window { s with tasks := s.tasks.set i ⟨t.now, .counted⟩ } := by
  obtain ⟨hroom, horder⟩ : zcard s.clock s.key + s.tasks.countP (·.phase = .counted) < limit.toNat ∧
      ∀ c ∈ s.tasks, c.phase ≠ .started → c.now.toNat ≤ t.now.toNat := by
    simp only [Quiet, hi] at hq
    exact hq hph hfull
  apply hs.next hi (by decide) rfl rfl
  intro x
  by_cases hx : t.inWindow window x = true
  · have hle : t.now.toNat ≤ x := by
      simp only [Task.inWindow, Bool.and_eq_true, decide_eq_true_eq] at hx
      exact hx.1
    have hheld := hs.held_le_zcard (List.mem_of_getElem? hi) hph horder hle
    have hsucc : held window (s.tasks.set i ⟨t.now, .counted⟩) x ≤ held window s.tasks x + 1 :=
      countP_set_le_succ _ (List.getElem?_eq_some_iff.mp hi).1
    omega
  · refine Nat.le_trans (countP_set_le hi ?_) (hs.bounded x)
    intro hp
    rw [Bool.and_eq_true] at hp
    exact absurd hp.2 hx

theorem Sound.prune {s : State} (hs : Sound limit window s) (hw : window.toNat * 1000 < 2 ^ 64)
    {i : ℕ} {t : Task} (hi : s.tasks[i]? = some t) (hph : t.phase = .started) :
    Sound limit window { s with
      key := prune s.clock t.now window s.key, tasks := s.tasks.set i ⟨t.now, .pruned⟩ } := by
  have ht := (hs.now t (List.mem_of_getElem? hi)).2.1
  have hel := elems_prune s.clock s.key hw ht
  have hsub : ∀ p ∈ elems s.clock (RateLimiterService.prune s.clock t.now window s.key),
      p ∈ elems s.clock s.key := by
    intro p hp
    rw [hel] at hp
    exact List.mem_of_mem_filter hp
  refine ⟨forall_now_set (P := Timed s.clock) _ hi hs.now, ?_, ?_, ?_, ?_⟩
  · intro p hp
    exact hs.owner_set .pruned hi p (hsub p hp)
  · intro p hp c hc hadm
    rcases getElem?_set_cases hc with ⟨-, rfl⟩ | ⟨-, hc⟩
    · cases hadm
    · obtain ⟨e, he, hle⟩ := hs.expiring p (hsub p hp) c hc hadm
      refine ⟨e, ?_, hle⟩
      rw [← he]
      exact expiry_zremrangebyscore (List.ne_nil_of_mem hp)
  · intro j c hc hadded
    rcases getElem?_set_cases hc with ⟨-, rfl⟩ | ⟨-, hc⟩
    · cases hadded
    · rcases hs.kept j c hc hadded with ⟨p, hp, rfl⟩ | hlost
      · by_cases hkept : p ∈ elems s.clock (RateLimiterService.prune s.clock t.now window s.key)
        · exact .inl ⟨p, hkept, rfl⟩
        · -- what this call prunes is out of its own window
          refine .inr (.inl ⟨⟨t.now, .pruned⟩, ?_, Phase.noConfusion, ?_⟩)
          · exact List.mem_of_getElem? (by rw [List.getElem?_set_self', hi]; rfl)
          · obtain ⟨c', hc', hscore⟩ := hs.owner p hp
            rw [hc] at hc'
            cases hc'
            have hcnow := (hs.now c (List.mem_of_getElem? hc)).1
            have hremoved : 0 ≤ p.2 ∧ p.2 ≤ ((t.now.toNat - window.toNat * 1000 : ℕ) : ℤ) := by
              by_contra hnot
              exact hkept (by rw [hel]; exact List.mem_filter.mpr ⟨hp, decide_eq_true hnot⟩)
            show c.now.toNat + window.toNat * 1000 ≤ t.now.toNat
            omega
      · exact .inr (hlost.set hi (by decide) fun _ => by rw [hph]; rfl)
  · exact hs.held_le hi (by intro h; cases h)

theorem mem_elems_add {clock i : ℕ} {now : UInt64} {k : Window} {p : Member × ℤ} :
    p ∈ elems clock (add clock now i k) ↔
      (p ∈ elems clock k ∧ p.1 ≠ (now, i)) ∨ p = ((now, i), Binary64.round now.toNat) := by
  unfold add
  rw [elems_zadd]
  simp [List.mem_filter]

theorem Sound.add {s : State} (hs : Sound limit window s) {i : ℕ} {t : Task}
    (hi : s.tasks[i]? = some t) (hph : t.phase = .counted) :
    Sound limit window { s with
      key := add s.clock t.now i s.key, tasks := s.tasks.set i ⟨t.now, .added⟩ } := by
  have ht := (hs.now t (List.mem_of_getElem? hi)).2.1
  have hround : Binary64.round t.now.toNat = (t.now.toNat : ℤ) := Binary64.round_of_lt (by omega)
  refine ⟨forall_now_set (P := Timed s.clock) _ hi hs.now, ?_, ?_, ?_, ?_⟩
  · intro p hp
    rcases mem_elems_add.mp hp with ⟨hp, -⟩ | rfl
    · exact hs.owner_set .added hi p hp
    · obtain ⟨c', hc', hnow⟩ := exists_getElem?_set .added hi hi
      exact ⟨c', hc', by rw [hround, hnow]⟩
  · intro p hp c hc hadm
    rcases getElem?_set_cases hc with ⟨-, rfl⟩ | ⟨hne, hc⟩
    · cases hadm
    · rcases mem_elems_add.mp hp with ⟨hp, -⟩ | rfl
      · obtain ⟨e, he, hle⟩ := hs.expiring p hp c hc hadm
        refine ⟨e, ?_, hle⟩
        rw [← he]
        exact expiry_zadd (List.ne_nil_of_mem hp)
      · exact absurd rfl hne
  · intro j c hc hadded
    rcases getElem?_set_cases hc with ⟨rfl, -⟩ | ⟨hne, hc⟩
    · exact .inl ⟨_, mem_elems_add.mpr (.inr rfl), rfl⟩
    · rcases hs.kept j c hc hadded with ⟨p, hp, rfl⟩ | hlost
      · refine .inl ⟨p, mem_elems_add.mpr (.inl ⟨hp, ?_⟩), rfl⟩
        intro hmem
        exact hne (congrArg Prod.snd hmem)
      · exact .inr (hlost.set hi Phase.noConfusion fun h => by cases h)
  · exact hs.held_le hi (by intro _; rw [hph]; rfl)

theorem Sound.finish {s : State} (hs : Sound limit window s) (hw : window.toNat * 1000 < 2 ^ 64)
    (hpos : 0 < window.toNat) {i : ℕ} {t : Task} {k : Window} (hi : s.tasks[i]? = some t)
    (hph : t.phase = .added) (hk : touch s.clock window s.key = .ok k) :
    Sound limit window { s with key := k, tasks := s.tasks.set i ⟨t.now, .admitted⟩ } := by
  have hsecs : asI64 window = window.toNat := asI64_of_lt (by omega)
  have hel : elems s.clock k = elems s.clock s.key := elems_expire hk (by omega)
  refine ⟨forall_now_set (P := Timed s.clock) _ hi hs.now, ?_, ?_, ?_, ?_⟩
  · show ∀ p ∈ elems s.clock k, _
    rw [hel]
    exact hs.owner_set .admitted hi
  · show ∀ p ∈ elems s.clock k, _
    rw [hel]
    intro p hp c hc _
    refine ⟨s.clock + window.toNat * 1000, ?_, ?_⟩
    · show expiry s.clock k = _
      rw [expiry_expire hk (by omega) (List.ne_nil_of_mem hp), hsecs, Int.toNat_natCast]
    · have hcnow := forall_now_set (P := fun n => n.toNat ≤ s.clock) .admitted hi
        (fun c hc => (hs.now c hc).2.2) c (List.mem_of_getElem? hc)
      omega
  · intro j c hc hadded
    show (∃ p ∈ elems s.clock k, p.1.2 = j) ∨ _
    rw [hel]
    have hold : ∃ c', s.tasks[j]? = some c' ∧ c'.now = c.now ∧ c'.phase.hasAdded = true := by
      rcases getElem?_set_cases hc with ⟨rfl, rfl⟩ | ⟨-, hc⟩
      · exact ⟨t, hi, rfl, by rw [hph]; rfl⟩
      · exact ⟨c, hc, rfl, hadded⟩
    obtain ⟨c', hc', hnow, hadded'⟩ := hold
    rcases hs.kept j c' hc' hadded' with h | hlost
    · exact .inl h
    · rw [hnow] at hlost
      exact .inr (hlost.set hi Phase.noConfusion fun h => by cases h)
  · exact hs.held_le hi (by intro _; rw [hph]; rfl)

theorem sound_step (hw : window.toNat * 1000 < 2 ^ 64) (hpos : 0 < window.toNat) (s : State)
    (a : Act) (s' : State) (hs : Sound limit window s) (hq : Quiet limit s a)
    (h : (limiter limit window).step s a = some s') : Sound limit window s' := by
  cases move_of_step h with
  | tick d => exact hs.tick d hq
  | begin => exact hs.begin hq
  | prune hi hph => exact hs.prune hw hi hph
  | refuse hi hph =>
      exact hs.next hi (by decide) rfl rfl (hs.held_le hi (by intro h; cases h))
  | pass hi hph hfull => exact hs.pass hi hph hfull hq
  | add hi hph => exact hs.add hi hph
  | finish hi hph hk => exact hs.finish hw hpos hi hph hk
  | fail hi hph =>
      exact hs.next hi Phase.noConfusion rfl rfl (hs.held_le hi (by intro h; cases h))

theorem sound_init : Sound limit window (limiter limit window).init where
  now _ ht := absurd ht List.not_mem_nil
  owner _ hp := absurd hp List.not_mem_nil
  expiring _ hp := absurd hp List.not_mem_nil
  kept _ _ hi := by cases hi
  bounded _ := Nat.zero_le _

/-- **The limit under quiet interleavings.** In every state reached by quiet steps, for every
instant `x` at most `limit` calls that returned `Ok(true)` read their `now` in
`(x - window * 1000, x]`. -/
theorem admittedAt_le (limit window : UInt64) (hw : window.toNat * 1000 < 2 ^ 64) (s : State)
    (hs : (limiter limit window).ReachVia (Quiet limit) s) (x : ℕ) :
    admittedAt window s x ≤ limit.toNat := by
  rcases Nat.eq_zero_or_pos window.toNat with hzero | hpos
  · -- the window is empty
    have : admittedAt window s x = 0 := by
      unfold admittedAt
      rw [List.countP_eq_zero]
      intro t _
      simp only [Task.inWindow, hzero, Bool.and_eq_true, decide_eq_true_eq]
      omega
    omega
  · have hsound : Sound limit window s :=
      Machine.inv_reachVia sound_init (sound_step hw hpos) hs
    refine Nat.le_trans (List.countP_mono_left ?_) (hsound.bounded x)
    intro t _ ht
    rw [Bool.and_eq_true, decide_eq_true_eq] at ht
    rw [Bool.and_eq_true, ht.1]
    exact ⟨rfl, ht.2⟩

/-- A first call runs alone and is admitted, a second one runs after it and is refused. -/
theorem admittedAt_le_one_after_another :
    ∃ s, (limiter 1 60).exec (limiter 1 60).init [.tick 5000, .begin, .next 0, .next 0, .next 0,
        .next 0, .tick 1000, .begin, .next 1, .next 1] = some s ∧ admittedAt 60 s 6000 ≤ 1 :=
  ⟨_, rfl, admittedAt_le 1 60 (by decide) _ ⟨[.tick 5000, .begin, .next 0, .next 0, .next 0,
    .next 0, .tick 1000, .begin, .next 1, .next 1], by decide, rfl⟩ 6000⟩

/-- **Check, then act.** With a limit of one, two calls run `ZCARD` before either runs `ZADD`, and
both return `Ok(true)` at the same instant. -/
theorem two_admitted :
    ∃ s, (limiter 1 60).exec (limiter 1 60).init [.tick 5000, .begin, .begin, .next 0, .next 1,
        .next 0, .next 1, .next 0, .next 1, .next 0, .next 1] = some s ∧ admittedAt 60 s 5000 = 2 :=
  ⟨_, rfl, by decide⟩

end AppGate.RateLimiterService
