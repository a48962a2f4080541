import AppGate.Leader.Model

/-!
# Readiness of a follower

`Run` clears the health flag when `createSession` or `Campaign` fails, and sets it only when it has
won an election; a session created after a failure leaves the flag as it is. The `/readyz` handler
of `control-plane/cmd/server/main.go` answers 200 for a leader or a healthy elector.

* `readyz`: the handler;
* `Act.verdict`, `sound`, `held`: what the calls of a run have reported;
* `healthStep_of_step`: what a step does to the health flag;
* **`ready_iff`**: an elector whose session stands is always ready exactly when no session is
  created after a failure that no election has followed.
-/

set_option autoImplicit false

namespace AppGate.Leader

open Lts

/-- The `/readyz` handler; the elector is `nil` when there is no etcd. -/
def readyz : Option Elector → ℕ × String
  | some e => if e.isLeader || e.isHealthy then (200, "ready\n") else (503, "not_ready\n")
  | none => (200, "ready_standalone\n")

/-! ## What a run has reported -/

/-- The health that the outcome of a call stands for. A created session stands for none. -/
def Act.verdict : Act → Option Bool
  | .createSession none => some false
  | .campaign ok => some ok
  | _ => none

/-- Nothing has failed since the last election won, or since the start. -/
def sound (as : List Act) : Bool := as.foldl (fun v a => a.verdict.getD v) true

/-- The last `createSession` succeeded and its `Campaign` has not failed. -/
def held (as : List Act) : Bool :=
  as.foldl (fun h a =>
    match a with
    | .createSession result => result.isSome
    | .campaign ok => h && ok
    | _ => h) false

theorem sound_append (as : List Act) (a : Act) :
    sound (as ++ [a]) = a.verdict.getD (sound as) := by
  simp [sound]

theorem held_append {as : List Act} {a : Act} (h : held (as ++ [a]) = true) :
    (∃ s, a = .createSession (some s)) ∨ a.verdict ≠ some false ∧ held as = true := by
  simp only [held, List.foldl_append, List.foldl_cons, List.foldl_nil] at h
  cases a with
  | createSession result =>
      obtain ⟨s, rfl⟩ := Option.isSome_iff_exists.mp h
      exact .inl ⟨s, rfl⟩
  | campaign ok =>
      rw [Bool.and_eq_true] at h
      exact .inr ⟨by simp [Act.verdict, h.2], h.1⟩
  | cancel | sessionDone | advance | wake | observeDone | observeCancel | callResign | resign _ _
  | ownResign _ => exact .inr ⟨nofun, h⟩

/-- The session that the step creates. -/
def Act.created : Act → Option SessionId
  | .createSession result => result
  | _ => none

/-! ## What a step does to the health flag -/

/-- The value that `Run` is about to give the flag. -/
def Run.pending : Run → Option Bool
  | .sessionFailed => some false
  | .campaignFailed => some false
  | .elected _ => some true
  | _ => none

/-- The health flag once `Run` has written it. -/
def Elector.settled (e : Elector) : Bool := e.run.pending.getD e.isHealthy

/-- What a step does to the flag, before and after it is settled. -/
structure HealthStep (e : Elector) (a : Act) (t : Elector) : Prop where
  settled : t.settled = a.verdict.getD e.settled
  isHealthy : t.isHealthy = e.isHealthy ∨ t.isHealthy = e.settled
  created : ∀ s ∈ a.created, t.isHealthy = e.settled

/-- A step that reports nothing and leaves the flag and what is pending alone. -/
theorem HealthStep.of_same {e t : Elector} {a : Act} (hv : a.verdict = none)
    (hp : t.run.pending = e.run.pending) (hh : t.isHealthy = e.isHealthy)
    (hc : e.run.pending = none ∨ a.created = none) : HealthStep e a t where
  settled := by rw [hv, Elector.settled, Elector.settled, hp, hh]; rfl
  isHealthy := .inl hh
  created s hs := by
    rcases hc with hc | hc
    · rw [hh, Elector.settled, hc]
      rfl
    · rw [hc] at hs
      cases hs

/-- A step that writes the flag. -/
theorem HealthStep.of_write {e t : Elector} {v : Bool} (he : e.run.pending = some v)
    (ht : t.run.pending = none) (hh : t.isHealthy = v) : HealthStep e .advance t where
  settled := by rw [Elector.settled, Elector.settled, he, ht, hh]; rfl
  isHealthy := .inr (by rw [Elector.settled, he, hh]; rfl)
  created s hs := by cases hs

/-- A call that reports its outcome. -/
theorem HealthStep.of_verdict {e t : Elector} {a : Act} {v : Bool} (hv : a.verdict = some v)
    (hc : a.created = none) (ht : t.run.pending = some v) (hh : t.isHealthy = e.isHealthy) :
    HealthStep e a t where
  settled := by rw [Elector.settled, ht, hv]; rfl
  isHealthy := .inl hh
  created s hs := by
    rw [hc] at hs
    cases hs

theorem healthStep_of_advance {e t : Elector} (h : advance e = some t) :
    HealthStep e .advance t := by
  have keep : ∀ {u : Elector}, u.run.pending = e.run.pending → u.isHealthy = e.isHealthy →
      HealthStep e .advance u := fun hp hh => .of_same rfl hp hh (.inr rfl)
  unfold advance at h
  split at h
  next hr =>
    cases h
    refine keep ?_ rfl
    rw [hr]
    dsimp only
    split_ifs <;> rfl
  next hr =>
    cases h
    exact .of_write (by rw [hr]; rfl) rfl rfl
  next s hr =>
    cases h
    exact keep (by rw [hr]; rfl) rfl
  next s hr =>
    cases h
    exact keep (by rw [hr]; rfl) rfl
  next hr =>
    cases h
    exact .of_write (by rw [hr]; rfl) rfl rfl
  next s hr =>
    cases h
    exact .of_write (by rw [hr]; rfl) rfl rfl
  next hr =>
    cases h
    exact keep (by rw [hr]; rfl) rfl
  next => cases h

theorem healthStep_of_step {e t : Elector} {a : Act} (h : elector.step e a = some t) :
    HealthStep e a t := by
  simp only [elector] at h
  cases a with
  | cancel | callResign =>
      cases h
      exact .of_same rfl rfl rfl (.inr rfl)
  | sessionDone =>
      simp only [step, Option.ite_none_right_eq_some] at h
      obtain ⟨-, h⟩ := h
      cases h
      exact .of_same rfl rfl rfl (.inr rfl)
  | advance => exact healthStep_of_advance h
  | createSession result =>
      simp only [step] at h
      split at h
      next hr =>
        cases h
        cases result with
        | some s => exact .of_same rfl (by rw [hr]; rfl) rfl (.inl (by rw [hr]; rfl))
        | none => exact .of_verdict rfl rfl rfl rfl
      next => cases h
  | campaign ok =>
      simp only [step] at h
      split at h
      next s hr =>
        cases h
        cases ok with
        | true | false => exact .of_verdict rfl rfl rfl rfl
      next => cases h
  | wake =>
      simp only [step, Option.ite_none_right_eq_some] at h
      obtain ⟨hr, h⟩ := h
      cases h
      exact .of_same rfl (by rw [hr]; rfl) rfl (.inr rfl)
  | observeDone | observeCancel =>
      simp only [step] at h
      split at h
      next s hr =>
        rw [Option.ite_none_right_eq_some] at h
        obtain ⟨-, h⟩ := h
        cases h
        exact .of_same rfl (by rw [hr]; rfl) rfl (.inr rfl)
      next => cases h
  | resign i ok =>
      simp only [step] at h
      split at h
      next r hr =>
        obtain ⟨p, -, h⟩ := Option.map_eq_some_iff.mp h
        cases h
        exact .of_same rfl rfl rfl (.inr rfl)
      next => cases h
  | ownResign ok =>
      simp only [step] at h
      split at h
      next r hr =>
        obtain ⟨p, -, h⟩ := Option.map_eq_some_iff.mp h
        cases h
        refine .of_same rfl ?_ rfl (.inr rfl)
        rw [hr]
        dsimp only
        split_ifs <;> rfl
      next => cases h

/-! ## Whole runs -/

/-- Once written, the flag says whether the run is sound. -/
theorem settled_exec {as : List Act} {e : Elector}
    (h : elector.exec elector.init as = some e) : e.settled = sound as := by
  refine Machine.inv_trace (I := fun as e => e.settled = sound as) rfl ?_ h
  intro as e a t he hstep
  rw [(healthStep_of_step hstep).settled, he, sound_append]

/-- No session of the run was created after a failure that no election had followed. -/
def CreatedSound (as : List Act) : Prop :=
  ∀ pre s, pre ++ [.createSession (some s)] <+: as → sound pre = true

/-- Whenever the session stands the elector is healthy, and the handler answers 200. -/
def AlwaysReady (as : List Act) : Prop :=
  ∀ pre e, pre <+: as → elector.exec elector.init pre = some e → held pre = true →
    e.isHealthy = true ∧ (readyz (some e)).1 = 200

theorem readyz_of_isHealthy {e : Elector} (h : e.isHealthy = true) :
    (readyz (some e)).1 = 200 := by
  simp [readyz, h]

theorem CreatedSound.of_append {as bs : List Act} (h : CreatedSound (as ++ bs)) :
    CreatedSound as :=
  fun pre s hpre => h pre s (hpre.trans (List.prefix_append as bs))

theorem isHealthy_of_held {as : List Act} {e : Elector}
    (h : elector.exec elector.init as = some e) (hs : CreatedSound as) (hheld : held as = true) :
    e.isHealthy = true ∧ sound as = true := by
  refine Machine.inv_trace (I := fun as e => e.settled = sound as ∧ (CreatedSound as →
    held as = true → e.isHealthy = true ∧ sound as = true)) ⟨rfl, nofun⟩ ?_ h |>.2 hs hheld
  rintro as e a t ⟨hset, hinv⟩ hstep
  have hh := healthStep_of_step hstep
  refine ⟨by rw [hh.settled, hset, sound_append], fun hc hld => ?_⟩
  rcases held_append hld with ⟨s, rfl⟩ | ⟨hv, hld'⟩
  · -- the flag is settled when a session is created
    have hsound := hc as s List.prefix_rfl
    exact ⟨by rw [hh.created s rfl, hset, hsound], by rw [sound_append]; exact hsound⟩
  · obtain ⟨hhe, hsound⟩ := hinv hc.of_append hld'
    refine ⟨?_, ?_⟩
    · rcases hh.isHealthy with ht | ht
      · rw [ht, hhe]
      · rw [ht, hset, hsound]
    · rw [sound_append, hsound]
      cases hav : a.verdict with
      | none => rfl
      | some v =>
          cases v with
          | true => rfl
          | false => exact absurd hav hv

theorem held_append_created (as : List Act) (s : SessionId) :
    held (as ++ [.createSession (some s)]) = true := by
  simp [held]

/-- **When a follower becomes ready again.** In every run, an elector whose session stands is ready
in every state exactly when no session is created after a failure of `createSession` or `Campaign`
that no election won has followed. -/
theorem ready_iff {as : List Act} {e : Elector} (h : elector.exec elector.init as = some e) :
    AlwaysReady as ↔ CreatedSound as := by
  constructor
  · rintro hr pre s ⟨rest, rfl⟩
    rw [Machine.exec_append] at h
    obtain ⟨u, hu, -⟩ := Option.bind_eq_some_iff.mp h
    obtain ⟨v, hv, hstep⟩ := Machine.exec_append_singleton hu
    obtain ⟨hhealthy, -⟩ := hr _ u (List.prefix_append _ rest) hu (held_append_created pre s)
    rw [(healthStep_of_step hstep).created s rfl, settled_exec hv] at hhealthy
    exact hhealthy
  · rintro hc pre t ⟨rest, rfl⟩ ht hheld
    have hhealthy := (isHealthy_of_held ht hc.of_append hheld).1
    exact ⟨hhealthy, readyz_of_isHealthy hhealthy⟩

/-- etcd fails once and comes back, and the elector waits in `Campaign`. -/
def recoveredRun : List Act :=
  [.advance, .createSession none, .advance, .wake, .advance, .createSession (some 0), .advance,
    .advance]

theorem ready_iff_recovered : ¬ AlwaysReady recoveredRun := by
  intro h
  have he : elector.exec elector.init recoveredRun =
      some { session := some 0, election := some 0, isHealthy := false, run := .campaigning 0 } :=
    rfl
  have hs := (ready_iff he).mp h [.advance, .createSession none, .advance, .wake, .advance] 0
    ⟨[.advance, .advance], rfl⟩
  cases hs

/-- The follower that waits after the recovery is not ready. -/
theorem recovered_follower_is_not_ready :
    ∃ e, elector.exec elector.init recoveredRun = some e ∧ e.run = .campaigning 0 ∧
      held recoveredRun = true ∧ e.isHealthy = false ∧ readyz (some e) = (503, "not_ready\n") :=
  ⟨_, rfl, by decide⟩

end AppGate.Leader
