import Mathlib.Algebra.Group.Nat.Defs
import Mathlib.Data.List.AList
import AppGate.Lib.Machine

/-!
# Health of the upstreams

`rust-gateway/src/health.rs`. A background task takes the names from the map, then checks one after
the other without holding the lock; each result is applied under the write lock of its own. The task
that `new` spawns for the default URL, any number of background tasks and the calls of `register`
are interleaved.

* `HealthChecker`, `register`, `succeeded`, `failed`, `isHealthy`, `allHealthy`: the code;
* `Act`, `step`, `checker`: their interleaving;
* `failures`, `results`: what a run has reported about an upstream;
* `lookup_step`, `tracks_step`, **`health_follows_history`**: the map follows the reports.
-/

set_option autoImplicit false

namespace AppGate.Health

open Lts

/-- `HealthStatus`; `Instant`s are numbers. -/
structure HealthStatus where
  healthy : Bool
  lastCheck : ℕ
  latencyMs : UInt64
  consecutiveFailures : UInt32
  deriving DecidableEq, Repr

/-- The status that a registration inserts. -/
def HealthStatus.registered (now : ℕ) : HealthStatus := ⟨true, now, 0, 0⟩

/-- A successful check. -/
def HealthStatus.succeeded (elapsed : UInt64) (s : HealthStatus) : HealthStatus :=
  { s with healthy := true, latencyMs := elapsed, consecutiveFailures := 0 }

/-- A failed check: `u32` addition wraps. -/
def HealthStatus.failed (s : HealthStatus) : HealthStatus :=
  { s with
    healthy := if 3 ≤ s.consecutiveFailures + 1 then false else s.healthy
    consecutiveFailures := s.consecutiveFailures + 1 }

/-- The map under the lock of `HealthChecker`. -/
abbrev Upstreams := AList fun _ : String => HealthStatus

namespace Upstreams

/-- `HealthChecker::register`. -/
def register (map : Upstreams) (name : String) (now : ℕ) : Upstreams :=
  map.insert name (.registered now)

/-- `if let Some(status) = map.get_mut(&name)` with what is then done to the status. -/
def getMut (map : Upstreams) (name : String) (f : HealthStatus → HealthStatus) : Upstreams :=
  match map.lookup name with
  | some status => map.insert name (f status)
  | none => map

/-- `HealthChecker::is_healthy`. -/
def isHealthy (map : Upstreams) (name : String) : Bool :=
  ((map.lookup name).map HealthStatus.healthy).getD true

/-- `HealthChecker::all_healthy`, of the entries in the order the map is iterated. -/
def allHealthy (iter : List (Σ _ : String, HealthStatus)) : List String :=
  (iter.filter fun e => e.2.healthy).map Sigma.fst

theorem lookup_register (map : Upstreams) (name : String) (now : ℕ) (k : String) :
    (map.register name now).lookup k =
      if k = name then some (.registered now) else map.lookup k := by
  split_ifs with h
  · subst h
    exact AList.lookup_insert map
  · exact AList.lookup_insert_ne h

theorem lookup_getMut (map : Upstreams) (name : String) (f : HealthStatus → HealthStatus)
    (k : String) :
    (map.getMut name f).lookup k =
      if k = name then (map.lookup k).map f else map.lookup k := by
  unfold getMut
  split_ifs with h
  · subst h
    cases hl : map.lookup k with
    | some status => exact AList.lookup_insert map
    | none => exact hl
  · cases map.lookup name with
    | some status => exact AList.lookup_insert_ne h
    | none => rfl

/-- Whatever the order of the iteration, `all_healthy` returns the registered names that
`is_healthy` accepts. -/
theorem mem_allHealthy {map : Upstreams} {iter : List (Σ _ : String, HealthStatus)}
    (h : iter.Perm map.entries) (name : String) :
    name ∈ allHealthy iter ↔ name ∈ map ∧ map.isHealthy name = true := by
  have hmem : ∀ status, (⟨name, status⟩ : Σ _ : String, HealthStatus) ∈ iter ↔
      map.lookup name = some status := fun status =>
    h.mem_iff.trans AList.mem_lookup_iff.symm
  simp only [allHealthy, List.mem_map, List.mem_filter, Sigma.exists, exists_and_right,
    exists_eq_right, hmem, ← AList.lookup_isSome, isHealthy]
  cases map.lookup name <;> simp

theorem nodup_allHealthy {map : Upstreams} {iter : List (Σ _ : String, HealthStatus)}
    (h : iter.Perm map.entries) : (allHealthy iter).Nodup := by
  have hkeys : (iter.map Sigma.fst).Nodup := (h.map Sigma.fst).nodup_iff.mpr map.keys_nodup
  exact hkeys.sublist (List.filter_sublist.map Sigma.fst)

end Upstreams

/-! ## The interleaving -/

/-- `HealthChecker`, with the task that `new` has spawned and the names that each background task
still has to check. -/
structure HealthChecker where
  upstreams : Upstreams
  spawned : Option String
  tasks : List (List String)

/-- `HealthChecker::new`. -/
def HealthChecker.new (defaultUrl : String) : HealthChecker :=
  ⟨∅, if defaultUrl = "" then none else some defaultUrl, []⟩

/-- A check: its answer has a status, or there is none. -/
structure Check where
  name : String
  status : Option ℕ
  elapsed : UInt64
  deriving DecidableEq, Repr

/-- `Ok(resp) if resp.status().is_success()`. -/
def Check.isSuccess (c : Check) : Bool := c.status.any fun s => 200 ≤ s ∧ s < 300

/-- What a check does to the status of its upstream. -/
def Check.apply (c : Check) : HealthStatus → HealthStatus :=
  if c.isSuccess then .succeeded c.elapsed else .failed

inductive Act where
  /-- The task that `new` spawned inserts the default URL. -/
  | insertDefault (name : String) (now : ℕ)
  | register (name : String) (now : ℕ)
  /-- `start_background_checks`. -/
  | start
  /-- The `i`-th background task takes the names, in the order of the iteration. -/
  | tick (i : ℕ) (names : List String)
  /-- The `i`-th background task applies the result of its next check. -/
  | check (i : ℕ) (result : Check)
  deriving DecidableEq, Repr

def step (s : HealthChecker) : Act → Option HealthChecker
  | .insertDefault name now =>
    if s.spawned = some name then
      some { s with upstreams := s.upstreams.register name now, spawned := none }
    else none
  | .register name now => some { s with upstreams := s.upstreams.register name now }
  | .start => some { s with tasks := s.tasks ++ [[]] }
  | .tick i names =>
    if s.tasks[i]? = some [] ∧ names.Perm s.upstreams.keys then
      some { s with tasks := s.tasks.set i names }
    else none
  | .check i result =>
    match s.tasks[i]? with
    | some (name :: rest) =>
      if name = result.name then
        some { s with
          upstreams := s.upstreams.getMut name result.apply
          tasks := s.tasks.set i rest }
      else none
    | _ => none

/-- The checker that `new` returns, and its tasks. -/
def checker (defaultUrl : String) : Machine HealthChecker Act :=
  ⟨HealthChecker.new defaultUrl, step⟩

/-- What a step does to the status at a key. -/
def Act.effect (k : String) (status : Option HealthStatus) : Act → Option HealthStatus
  | .insertDefault name now => if k = name then some (.registered now) else status
  | .register name now => if k = name then some (.registered now) else status
  | .check _ result => if k = result.name then status.map result.apply else status
  | _ => status

/-- **Everything a step can do to the map.** -/
theorem lookup_step {s t : HealthChecker} {a : Act} (h : step s a = some t) (k : String) :
    t.upstreams.lookup k = a.effect k (s.upstreams.lookup k) := by
  cases a with
  | insertDefault name now =>
      simp only [step, Option.ite_none_right_eq_some] at h
      obtain ⟨-, h⟩ := h
      cases h
      exact Upstreams.lookup_register s.upstreams name now k
  | register name now =>
      cases h
      exact Upstreams.lookup_register s.upstreams name now k
  | start =>
      cases h
      rfl
  | tick i names =>
      simp only [step, Option.ite_none_right_eq_some] at h
      obtain ⟨-, h⟩ := h
      cases h
      rfl
  | check i result =>
      simp only [step] at h
      split at h
      next name rest ht =>
        split_ifs at h with hn
        subst hn
        cases h
        exact Upstreams.lookup_getMut s.upstreams result.name result.apply k
      next => cases h

/-! ## What a run has reported -/

/-- Whether a step reports a failure of the upstream; `none` if it reports nothing about it. -/
def Act.failed? (name : String) : Act → Option Bool
  | .insertDefault k _ => if name = k then some false else none
  | .register k _ => if name = k then some false else none
  | .check _ result => if name = result.name then some !result.isSuccess else none
  | _ => none

/-- The step applies a result of the upstream. -/
def Act.isResult (name : String) : Act → Bool
  | .check _ result => name = result.name
  | _ => false

/-- The failures of the upstream since its last registration or successful check. -/
def failures (name : String) (as : List Act) : ℕ :=
  ((as.filterMap (Act.failed? name)).reverse.takeWhile id).length

/-- The results of the upstream. -/
def results (name : String) (as : List Act) : ℕ := as.countP (Act.isResult name)

theorem failures_append (name : String) (as : List Act) (a : Act) :
    failures name (as ++ [a]) =
      match a.failed? name with
      | some true => failures name as + 1
      | some false => 0
      | none => failures name as := by
  unfold failures
  rw [List.filterMap_append, List.filterMap_cons]
  cases a.failed? name with
  | none => simp
  | some b => cases b <;> simp

theorem results_append (name : String) (as : List Act) (a : Act) :
    results name (as ++ [a]) = results name as + (a.isResult name).toNat := by
  unfold results
  rw [List.countP_append, List.countP_singleton]
  cases a.isResult name <;> rfl

theorem isResult_of_failed {name : String} {a : Act} (h : a.failed? name = some true) :
    a.isResult name = true := by
  cases a <;> simp_all [Act.failed?, Act.isResult]

theorem failures_le_results (name : String) (as : List Act) :
    failures name as ≤ results name as := by
  induction as using List.reverseRecOn with
  | nil => exact le_rfl
  | append_singleton as a ih =>
      rw [failures_append, results_append]
      cases hf : a.failed? name with
      | none => exact Nat.le_trans ih (Nat.le_add_right _ _)
      | some b =>
          cases b with
          | false => exact Nat.zero_le _
          | true =>
              rw [isResult_of_failed hf]
              exact Nat.add_le_add_right ih 1

/-- What a step does to a status is what it reports. -/
theorem effect_eq (a : Act) (k : String) (status : Option HealthStatus) :
    match a.failed? k with
    | some true => a.effect k status = status.map .failed
    | some false => ∀ st ∈ a.effect k status, st.consecutiveFailures = 0 ∧ st.healthy = true
    | none => a.effect k status = status := by
  cases a with
  | insertDefault name now | register name now =>
      by_cases hk : k = name <;> simp [Act.failed?, Act.effect, hk, HealthStatus.registered]
  | start | tick i names => rfl
  | check i result =>
      by_cases hk : k = result.name
      · cases hs : result.isSuccess with
        | true => simp [Act.failed?, Act.effect, hk, hs, Check.apply, HealthStatus.succeeded]
        | false => simp [Act.failed?, Act.effect, hk, hs, Check.apply]
      · simp [Act.failed?, Act.effect, hk]

/-! ## Whole runs -/

/-- The status counts `n` failures in a row and is healthy below three. -/
def HealthStatus.Counts (s : HealthStatus) (n : ℕ) : Prop :=
  s.consecutiveFailures.toNat = n ∧ s.healthy = decide (n < 3)

theorem HealthStatus.Counts.failed {s : HealthStatus} {n : ℕ} (h : s.Counts n)
    (hn : n + 1 < 2 ^ 32) : s.failed.Counts (n + 1) := by
  obtain ⟨hc, hh⟩ := h
  have hsucc : (s.consecutiveFailures + 1).toNat = n + 1 := by
    rw [UInt32.toNat_add, hc]
    exact Nat.mod_eq_of_lt hn
  refine ⟨hsucc, ?_⟩
  have hle : 3 ≤ s.consecutiveFailures + 1 ↔ 3 ≤ n + 1 := by
    rw [UInt32.le_iff_toNat_le, hsucc]
    rfl
  simp only [HealthStatus.failed, hle, hh]
  split_ifs with h3
  · exact (decide_eq_false (by omega)).symm
  · exact decide_eq_decide.mpr (by omega)

/-- The status of the upstream counts the failures reported, if there is one. -/
def Tracks (name : String) (as : List Act) (s : HealthChecker) : Prop :=
  results name as < 2 ^ 32 → ∀ st ∈ s.upstreams.lookup name, st.Counts (failures name as)

theorem tracks_step {name : String} {as : List Act} {s t : HealthChecker} {a : Act}
    (hs : Tracks name as s) (h : step s a = some t) : Tracks name (as ++ [a]) t := by
  intro hlt st hst
  have hle := failures_le_results name (as ++ [a])
  have heff := effect_eq a name (s.upstreams.lookup name)
  rw [lookup_step h] at hst
  rw [failures_append] at hle ⊢
  have hs' := hs (by rw [results_append] at hlt; omega)
  cases hf : a.failed? name with
  | none =>
      simp only [hf] at heff ⊢
      rw [heff] at hst
      exact hs' st hst
  | some b =>
      cases b with
      | true =>
          simp only [hf] at heff hle ⊢
          rw [heff] at hst
          obtain ⟨st', hst', rfl⟩ := Option.map_eq_some_iff.mp hst
          exact (hs' st' hst').failed (Nat.lt_of_le_of_lt hle hlt)
      | false =>
          simp only [hf] at heff ⊢
          obtain ⟨hc, hh⟩ := heff st hst
          exact ⟨by rw [hc]; rfl, by rw [hh]; rfl⟩

theorem tracks_new (defaultUrl name : String) : Tracks name [] (HealthChecker.new defaultUrl) := by
  intro _ st hst
  simp [HealthChecker.new] at hst

theorem tracks_exec {defaultUrl name : String} {as : List Act} {s : HealthChecker}
    (h : (checker defaultUrl).exec (checker defaultUrl).init as = some s) : Tracks name as s :=
  Machine.inv_trace (I := Tracks name) (tracks_new defaultUrl name)
    (fun _ _ _ _ hs hstep => tracks_step hs hstep) h

/-- **Health verdicts follow the history.** After every run with fewer than `2 ^ 32` results for
each upstream, the status of a registered upstream counts the failures since its last registration
or success, and `is_healthy` is false exactly when there are three or more; `all_healthy` returns
the registered names that `is_healthy` accepts; and a result for one upstream leaves the others
alone. -/
theorem health_follows_history {defaultUrl : String} {as : List Act} {s : HealthChecker}
    (h : (checker defaultUrl).exec (checker defaultUrl).init as = some s)
    (hlt : ∀ name, results name as < 2 ^ 32) :
    (∀ name ∈ s.upstreams,
        (∃ st, s.upstreams.lookup name = some st ∧
          st.consecutiveFailures.toNat = failures name as) ∧
        (s.upstreams.isHealthy name = false ↔ 3 ≤ failures name as)) ∧
      (∀ iter, iter.Perm s.upstreams.entries → (Upstreams.allHealthy iter).Nodup ∧
        ∀ name, name ∈ Upstreams.allHealthy iter ↔
          name ∈ s.upstreams ∧ s.upstreams.isHealthy name = true) ∧
      ∀ i result t other, step s (.check i result) = some t → other ≠ result.name →
        t.upstreams.lookup other = s.upstreams.lookup other := by
  refine ⟨fun name hmem => ?_,
    fun iter hi => ⟨Upstreams.nodup_allHealthy hi, Upstreams.mem_allHealthy hi⟩, ?_⟩
  · obtain ⟨st, hst⟩ := Option.isSome_iff_exists.mp (AList.lookup_isSome.mpr hmem)
    obtain ⟨hc, hh⟩ := tracks_exec h (hlt name) st hst
    refine ⟨⟨st, hst, hc⟩, ?_⟩
    simp [Upstreams.isHealthy, hst, hh]
  · intro i result t other hstep hne
    rw [lookup_step hstep, Act.effect, if_neg hne]

/-- An upstream fails three times, another one once. -/
def failingRun : List Act :=
  [.register "a" 0, .register "b" 1, .start, .tick 0 ["b", "a"],
    .check 0 ⟨"b", some 503, 4⟩, .check 0 ⟨"a", none, 9⟩, .tick 0 ["a", "b"],
    .check 0 ⟨"a", none, 9⟩, .check 0 ⟨"b", some 200, 4⟩, .tick 0 ["a", "b"],
    .check 0 ⟨"a", some 500, 9⟩]

theorem health_follows_history_failing :
    ∃ s, (checker "").exec (checker "").init failingRun = some s ∧
      (s.upstreams.isHealthy "a" = false ↔ 3 ≤ failures "a" failingRun) := by
  have hr : ∃ s, (checker "").exec (checker "").init failingRun = some s ∧ "a" ∈ s.upstreams := by
    refine ⟨_, rfl, ?_⟩
    decide
  obtain ⟨s, hs, hmem⟩ := hr
  refine ⟨s, hs, ((health_follows_history hs ?_).1 "a" hmem).2⟩
  intro name
  exact Nat.lt_of_le_of_lt List.countP_le_length (by decide)

end AppGate.Health
