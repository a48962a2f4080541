import AppGate.Lib.Fallible
import AppGate.RateLimit.Gateway

/-!
# Isolation between identities

Two runs with the same calls for an identity should give it the same verdicts, whatever the calls of
the others.

* `checkRedisKey_congr`, `run_checkRedisKey`: a check reads the scores and expiry of its own set,
  not the UUIDs in it;
* `isolated_of_redis`, `not_isolated_newLocal`, **`isolated_iff`**.
-/

set_option autoImplicit false

namespace AppGate.RateLimiterService

open Redis Fallible

/-- The arguments and the time of a call, without the UUID it draws. -/
def Call.args (c : Call) : String × UInt64 × UInt64 × ℕ := (c.identity, c.limit, c.window, c.clock)

/-! ## One sorted set -/

theorem stored_prune_subset (clock : ℕ) (now window : UInt64) (k : Window) :
    stored (prune clock now window k) ⊆ stored k := by
  intro p hp
  unfold prune at hp
  rw [stored_zremrangebyscore] at hp
  exact (elems_sublist_stored clock k).subset (List.mem_of_mem_filter hp)

theorem stored_add {clock : ℕ} {now : UInt64} {uuid : ℕ} {k : Window} {p : Member × ℤ}
    (hp : p ∈ stored (add clock now uuid k)) : p ∈ stored k ∨ p.1.2 = uuid := by
  unfold add at hp
  rw [stored_zadd] at hp
  rcases List.mem_append.mp hp with hp | hp
  · exact .inl ((elems_sublist_stored clock k).subset (List.mem_of_mem_filter hp))
  · rw [List.mem_singleton.mp hp]
    exact .inr rfl

theorem stored_touch_subset {clock : ℕ} {window : UInt64} {k k' : Window}
    (h : touch clock window k = .ok k') : stored k' ⊆ stored k := by
  rcases expire_ok h with ⟨-, rfl⟩ | ⟨-, rfl⟩
  · exact List.nil_subset _
  · intro p hp
    refine (elems_sublist_stored clock k).subset ?_
    rw [elems_eq_stored_live]
    cases hk : live clock k with
    | none => simp [hk, stored] at hp
    | some s => simpa [hk, stored] using hp

/-- A check keeps elements and adds at most its own. -/
theorem stored_checkRedisKey {k : Window} {c : Call} {p : Member × ℤ}
    (hp : p ∈ stored (checkRedisKey k c).2) : p ∈ stored k ∨ p.1.2 = c.uuid := by
  unfold checkRedisKey at hp
  dsimp only at hp
  split_ifs at hp
  · exact .inl (stored_prune_subset _ _ _ _ hp)
  · have hadd : p ∈ stored (add c.clock (nowAt c.clock) c.uuid
        (prune c.clock (nowAt c.clock) c.window k)) := by
      split at hp
      · exact hp
      · rename_i k' hk'
        exact stored_touch_subset hk' hp
    rcases stored_add hadd with hp | hp
    · exact .inl (stored_prune_subset _ _ _ _ hp)
    · exact .inr hp

/-- No element of the set carries the UUID. -/
def Unused (k : Window) (uuid : ℕ) : Prop := ∀ p ∈ stored k, p.1.2 ≠ uuid

/-- **One check reads only scores and expiry.** -/
theorem checkRedisKey_congr {k k' : Window} {c c' : Call} (hk : scores k = scores k')
    (hc : c.args = c'.args) (hu : Unused k c.uuid) (hu' : Unused k' c'.uuid) :
    (checkRedisKey k c).1 = (checkRedisKey k' c').1 ∧
      scores (checkRedisKey k c).2 = scores (checkRedisKey k' c').2 := by
  obtain ⟨identity, limit, window, clock, uuid⟩ := c
  obtain ⟨identity', limit', window', clock', uuid'⟩ := c'
  simp only [Call.args, Prod.mk.injEq] at hc
  obtain ⟨rfl, rfl, rfl, rfl⟩ := hc
  have hprune : scores (prune clock (nowAt clock) window k) =
      scores (prune clock (nowAt clock) window k') := by
    unfold prune
    rw [scores_zremrangebyscore, scores_zremrangebyscore, hk]
  have hfull : isFull clock limit (prune clock (nowAt clock) window k) =
      isFull clock limit (prune clock (nowAt clock) window k') := by
    unfold isFull
    rw [zcard_eq, zcard_eq, hprune]
  have hadd : scores (add clock (nowAt clock) uuid (prune clock (nowAt clock) window k)) =
      scores (add clock (nowAt clock) uuid' (prune clock (nowAt clock) window k')) := by
    unfold add
    rw [scores_zadd, scores_zadd, hprune]
    · intro p hp hmem
      exact hu' p (stored_prune_subset _ _ _ _ hp) (congrArg Prod.snd hmem)
    · intro p hp hmem
      exact hu p (stored_prune_subset _ _ _ _ hp) (congrArg Prod.snd hmem)
  have htouch := congrArg (expire clock (asI64 window)) hadd
  rw [← scores_expire, ← scores_expire] at htouch
  unfold checkRedisKey
  dsimp only
  rw [hfull]
  split_ifs
  · exact ⟨rfl, hprune⟩
  · unfold touch
    rcases map_eq_map htouch with ⟨err, he, he'⟩ | ⟨k₁, k₂, he, he', hk₁⟩
    · rw [he, he']
      exact ⟨rfl, hadd⟩
    · rw [he, he']
      exact ⟨rfl, hk₁⟩

/-- UUIDs drawn later stay unused. -/
theorem unused_checkRedisKey {k : Window} {c : Call} {l : List Call}
    (hc : c.uuid ∉ l.map Call.uuid) (hu : ∀ d ∈ l, Unused k d.uuid) :
    ∀ d ∈ l, Unused (checkRedisKey k c).2 d.uuid := by
  intro d hd p hp heq
  rcases stored_checkRedisKey hp with hp | hp
  · exact hu d hd p hp heq
  · apply hc
    rw [← hp, heq]
    exact List.mem_map_of_mem hd

/-- **Whole runs on one set.** -/
theorem run_checkRedisKey {l l' : List Call} {k k' : Window} (hk : scores k = scores k')
    (hargs : l.map Call.args = l'.map Call.args) (hu : ∀ c ∈ l, Unused k c.uuid)
    (hu' : ∀ c ∈ l', Unused k' c.uuid) (hnd : (l.map Call.uuid).Nodup)
    (hnd' : (l'.map Call.uuid).Nodup) :
    (Transducer.run checkRedisKey k l).map Prod.snd =
      (Transducer.run checkRedisKey k' l').map Prod.snd := by
  induction l generalizing l' k k' with
  | nil =>
      rw [List.map_eq_nil_iff.mp hargs.symm]
      rfl
  | cons c l ih =>
      cases l' with
      | nil => cases hargs
      | cons c' l' =>
          obtain ⟨hc, hl⟩ := List.cons.inj hargs
          rw [List.map_cons, List.nodup_cons] at hnd hnd'
          obtain ⟨hout, hscores⟩ := checkRedisKey_congr hk hc (hu c List.mem_cons_self)
            (hu' c' List.mem_cons_self)
          simp only [Transducer.run, List.map_cons, hout]
          exact congrArg _ (ih hscores hl
            (unused_checkRedisKey hnd.1 fun d hd => hu d (List.mem_cons_of_mem _ hd))
            (unused_checkRedisKey hnd'.1 fun d hd => hu' d (List.mem_cons_of_mem _ hd))
            hnd.2 hnd'.2)

/-! ## The service -/

section Service

variable {G : Type} (governor : Transducer G ℕ Bool)

/-- A run of non-overlapping calls: their times do not decrease, and every call draws a new UUID. -/
structure Proper (svc : Service G) (r : List Call) : Prop where
  sorted : r.Pairwise fun c d => c.clock ≤ d.clock
  distinct : (r.map Call.uuid).Nodup
  unused : ∀ db, svc.redis = some db → ∀ key, ∀ c ∈ r, Unused (db key) c.uuid

/-- What the calls for identity `A` return. -/
def verdicts (svc : Service G) (r : List Call) (A : String) : List (Except String Bool) :=
  ((Transducer.run (check governor) svc r).filter (·.1.identity = A)).map Prod.snd

/-- Runs that agree on the calls of an identity agree on their verdicts. -/
def Isolated (svc : Service G) : Prop :=
  ∀ (A : String) (r r' : List Call), Proper svc r → Proper svc r' →
    (r.filter (·.identity = A)).map Call.args = (r'.filter (·.identity = A)).map Call.args →
    verdicts governor svc r A = verdicts governor svc r' A

theorem run_check_redis (db : Db String (ZSet Member)) (g : Option G) (r : List Call) :
    Transducer.run (check governor) ⟨some db, g⟩ r = Transducer.run checkRedis db r := by
  induction r generalizing db with
  | nil => rfl
  | cons c r ih => exact congrArg _ (ih _)

theorem verdicts_redis (db : Db String (ZSet Member)) (g : Option G) (r : List Call) (A : String) :
    verdicts governor ⟨some db, g⟩ r A =
      (Transducer.run checkRedisKey (db (redisKey A))
        (r.filter (·.identity = A))).map Prod.snd := by
  have hkey : ∀ c : Call, redisKey c.identity = redisKey A ↔ c.identity = A := fun c =>
    String.append_right_inj _
  have h := Transducer.filter_run_keyed (fun c : Call => redisKey c.identity) checkRedisKey db r
    (redisKey A)
  simp only [hkey] at h
  unfold verdicts
  rw [run_check_redis, ← h]
  rfl

/-- **Redis mode isolates.** -/
theorem isolated_of_redis (db : Db String (ZSet Member)) (g : Option G) :
    Isolated governor ⟨some db, g⟩ := by
  intro A r r' hr hr' hargs
  rw [verdicts_redis, verdicts_redis]
  have hsub : ∀ l : List Call, (l.filter (·.identity = A)).Sublist l := fun l => List.filter_sublist
  refine run_checkRedisKey rfl hargs ?_ ?_ (hr.distinct.sublist ((hsub r).map _))
    (hr'.distinct.sublist ((hsub r').map _))
  · intro c hc
    exact hr.unused db rfl _ c ((hsub r).subset hc)
  · intro c hc
    exact hr'.unused db rfl _ c ((hsub r').subset hc)

/-! ## The local mode -/

theorem final_check_local (g : G) (r : List Call) :
    Transducer.final (check governor) ⟨none, some g⟩ r =
      ⟨none, some (Transducer.final governor g (r.map Call.clock))⟩ := by
  induction r generalizing g with
  | nil => rfl
  | cons c r ih => exact ih _

/-- A call for the identity `a`. -/
def callA : Call := ⟨"a", 100, 60, 0, 0⟩

/-- A thousand calls for the identity `b` at the same instant. -/
def crowd : List Call := (List.range 1000).map fun i => ⟨"b", 100, 60, 0, i + 1⟩

theorem clock_crowd : crowd.map Call.clock = List.replicate 1000 0 := by
  unfold crowd
  rw [List.map_map]
  show (List.range 1000).map (fun _ => 0) = List.replicate 1000 0
  rw [List.map_const', List.length_range]

theorem filter_run_crowd (svc : Service G) :
    (Transducer.run (check governor) svc crowd).filter (·.1.identity = "a") = [] := by
  rw [List.filter_eq_nil_iff]
  rintro ⟨c, o⟩ hc
  obtain ⟨i, -, rfl⟩ := List.mem_map.mp (Transducer.exists_mem_run.mp ⟨o, hc⟩)
  simp

theorem proper_local (g : G) {r : List Call} (hsorted : r.Pairwise fun c d => c.clock ≤ d.clock)
    (hnd : (r.map Call.uuid).Nodup) : Proper ⟨none, some g⟩ r :=
  ⟨hsorted, hnd, fun db hdb => by cases hdb⟩

theorem proper_crowd (g : G) : Proper ⟨none, some g⟩ (crowd ++ [callA]) := by
  have hclock : ∀ c ∈ crowd ++ [callA], c.clock = 0 := by
    intro c hc
    rcases List.mem_append.mp hc with hc | hc
    · obtain ⟨i, -, rfl⟩ := List.mem_map.mp hc
      rfl
    · rw [List.mem_singleton.mp hc]
      rfl
  refine proper_local g ?_ ?_
  · apply List.pairwise_of_forall_mem_list
    intro c hc d hd
    rw [hclock c hc]
    exact Nat.zero_le _
  · unfold crowd
    rw [List.map_append, List.map_map, List.nodup_append]
    refine ⟨?_, by simp, ?_⟩
    · refine List.Nodup.map ?_ List.nodup_range
      intro i j hij
      exact Nat.succ.inj hij
    · intro a ha b hb
      obtain ⟨i, -, rfl⟩ := List.mem_map.mp ha
      rw [show b = 0 by simpa [callA] using hb]
      exact Nat.succ_ne_zero i

variable {governor}

theorem verdicts_alone {fresh : G} (hfirst : (governor fresh 0).1 = true) :
    verdicts governor (newLocal fresh) [callA] "a" = [.ok true] := by
  simp [verdicts, Transducer.run, check, checkLocal, newLocal, callA, hfirst]

theorem verdicts_crowd {fresh : G}
    (hfull : (governor (Transducer.final governor fresh (List.replicate 1000 0)) 0).1 = false) :
    verdicts governor (newLocal fresh) (crowd ++ [callA]) "a" = [.ok false] := by
  unfold verdicts
  rw [Transducer.run_append, List.filter_append, filter_run_crowd, newLocal, final_check_local,
    clock_crowd]
  generalize Transducer.final governor fresh (List.replicate 1000 0) = g at hfull
  simp [Transducer.run, check, checkLocal, callA, hfull]

theorem args_crowd : ([callA].filter (·.identity = "a")).map Call.args =
    ((crowd ++ [callA]).filter (·.identity = "a")).map Call.args := by
  have hcrowd : crowd.filter (·.identity = "a") = [] := by
    rw [List.filter_eq_nil_iff]
    intro c hc
    obtain ⟨i, -, rfl⟩ := List.mem_map.mp hc
    simp
  rw [List.filter_append, hcrowd]
  rfl

/-- **Local mode does not isolate.** The cell admits a first check and is used up by a thousand
checks of others. -/
theorem not_isolated_newLocal {fresh : G} (hfirst : (governor fresh 0).1 = true)
    (hfull : (governor (Transducer.final governor fresh (List.replicate 1000 0)) 0).1 = false) :
    ¬ Isolated governor (newLocal fresh) := by
  intro h
  have hsame := h "a" [callA] (crowd ++ [callA]) (proper_local fresh (by simp) (by simp))
    (proper_crowd fresh) args_crowd
  rw [verdicts_alone hfirst, verdicts_crowd hfull] at hsame
  cases hsame

/-- **Isolation is the Redis mode.** For a limiter whose fresh cell admits a check and whose cell is
used up by a thousand checks at one instant, a service that `new` returns isolates identities
exactly when it was given a Redis URL. -/
theorem isolated_iff (governor : Transducer G ℕ Bool) (fresh : G)
    (hfirst : ∀ t, (governor fresh t).1 = true)
    (hfull : ∀ t, (governor (Transducer.final governor fresh (List.replicate 1000 t)) t).1 = false)
    (connect : String → Except String (Db String (ZSet Member))) (redisUrl : Option String)
    (svc : Service G) (hnew : new fresh connect redisUrl = .ok svc) :
    Isolated governor svc ↔ ∃ url, redisUrl = some url ∧ url ≠ "" := by
  cases redisUrl with
  | none =>
      cases hnew
      refine ⟨fun h => absurd h (not_isolated_newLocal (hfirst 0) (hfull 0)), ?_⟩
      rintro ⟨url, hurl, -⟩
      cases hurl
  | some url =>
      simp only [new] at hnew
      split_ifs at hnew with hurl
      · cases hconn : connect url with
        | error err =>
            rw [hconn] at hnew
            cases hnew
        | ok db =>
            rw [hconn] at hnew
            cases hnew
            exact ⟨fun _ => ⟨url, rfl, hurl⟩, fun _ => isolated_of_redis governor db none⟩
      · cases hnew
        refine ⟨fun h => absurd h (not_isolated_newLocal (hfirst 0) (hfull 0)), ?_⟩
        rintro ⟨url', hurl', hne⟩
        cases hurl'
        exact absurd hne hurl

end Service

/-! ## The limiter of the local mode -/

/-- A `governor` limiter of 1000 cells per second, in milliseconds: a check is refused while the
theoretical arrival time is more than a second ahead, and otherwise moves it by one cell. -/
def gcra : Transducer (Option ℕ) ℕ Bool := fun tat now =>
  let t := tat.getD (now + 1)
  if now < t - 1000 then (false, tat) else (true, some (max t now + 1))

theorem final_gcra {n t : ℕ} (hn : n ≤ 1000) :
    Transducer.final gcra (some (t + 1001 - n)) (List.replicate n t) = some (t + 1001) := by
  induction n with
  | zero => rfl
  | succ n ih =>
      have hstep : gcra (some (t + 1001 - (n + 1))) t = (true, some (t + 1001 - n)) := by
        simp only [gcra, Option.getD_some]
        rw [if_neg (by omega), Nat.max_eq_left (by omega)]
        congr 2
        omega
      rw [List.replicate_succ, Transducer.final, hstep]
      exact ih (by omega)

theorem gcra_full (t : ℕ) :
    (gcra (Transducer.final gcra none (List.replicate 1000 t)) t).1 = false := by
  have hstep : gcra none t = (true, some (t + 1001 - 999)) := by
    simp only [gcra, Option.getD_none]
    rw [if_neg (by omega), Nat.max_eq_left (by omega), show t + 1001 - 999 = t + 1 + 1 by omega]
  rw [List.replicate_succ, Transducer.final, hstep, final_gcra (by omega)]
  simp only [gcra, Option.getD_some]
  rw [if_pos (by omega)]

theorem gcra_first (t : ℕ) : (gcra none t).1 = true := by
  simp only [gcra, Option.getD_none]
  rw [if_neg (by omega)]

/-- Without a URL the service is local, with one it is not. -/
theorem isolated_iff_gcra :
    (Isolated gcra (newLocal none) ↔ ∃ url, (none : Option String) = some url ∧ url ≠ "") ∧
      (Isolated gcra ⟨some fun _ => none, none⟩ ↔
        ∃ url, some "redis://localhost" = some url ∧ url ≠ "") :=
  ⟨isolated_iff gcra none gcra_first gcra_full (fun _ => .ok fun _ => none) none _ rfl,
    isolated_iff gcra none gcra_first gcra_full (fun _ => .ok fun _ => none)
      (some "redis://localhost") _ rfl⟩

/-- **A crowd of others starves an identity.** Two runs with the same single call for `a`, which is
admitted in one and refused in the other. -/
theorem starved_by_crowd :
    Proper (newLocal (none : Option ℕ)) [callA] ∧
      Proper (newLocal (none : Option ℕ)) (crowd ++ [callA]) ∧
      ([callA].filter (·.identity = "a")).map Call.args =
        ((crowd ++ [callA]).filter (·.identity = "a")).map Call.args ∧
      verdicts gcra (newLocal none) [callA] "a" = [.ok true] ∧
      verdicts gcra (newLocal none) (crowd ++ [callA]) "a" = [.ok false] :=
  ⟨proper_local none (by simp) (by simp), proper_crowd none, args_crowd,
    verdicts_alone (gcra_first 0), verdicts_crowd (gcra_full 0)⟩

end AppGate.RateLimiterService
