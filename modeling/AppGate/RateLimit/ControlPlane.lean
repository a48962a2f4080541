import Mathlib.Data.List.Perm.Subperm
import AppGate.Lib.Binary64
import AppGate.Lib.NetHttp
import AppGate.Lib.Redis
import AppGate.Lib.Transducer

/-!
# The control-plane rate limiter

`control-plane/internal/ratelimit/ratelimit.go`. A check is one pipeline: `ZCARD`, then pruning,
then `ZADD` of the current second as score and as member, then `EXPIRE`. Times are Unix
milliseconds, and `time.Now().Unix()` is the second of the call.

* `check`, `middleware`;
* `Recent`, `check_recent`: the set holds at most one member for each of the last 60 seconds;
* `allowed_of_run`, `next_of_run`: so no call is ever refused;
* **`admitted_le_iff`**, `admitted_101`.
-/

set_option autoImplicit false

namespace AppGate.RedisRateLimiter

open Redis
open NetHttp (Response httpError)

/-- A call of `check`, and the time at which its pipeline runs. -/
structure Call where
  apiKey : String
  clock : ℕ
  deriving DecidableEq, Repr

/-- `time.Now().Unix()`. -/
def Call.now (c : Call) : ℕ := c.clock / 1000

/-- The results of `check`. -/
structure Verdict where
  allowed : Bool
  remaining : ℤ
  reset : ℤ
  deriving DecidableEq, Repr

/-- The sorted set of a key; its members are seconds. -/
abbrev Window := Option (Slot (ZSet ℕ))

/-- `RedisRateLimiter.check` on the sorted set of its key. -/
def checkKey : Transducer Window Call (Except String Verdict) := fun k c =>
  let window : ℤ := 60
  let count : ℤ := zcard c.clock k
  let k := zremrangebyscore c.clock 0 (Binary64.round (c.now - window)) k
  let k := zadd c.clock (Binary64.round c.now) c.now k
  match expire c.clock window k with
  | .error err => (.error err, k)
  | .ok k =>
    let limit : ℤ := 100
    let remaining := if limit - count < 0 then 0 else limit - count
    (.ok ⟨count < limit, remaining, c.now + window⟩, k)

/-- The Redis key of an API key. -/
def redisKey (apiKey : String) : String := "ratelimit:" ++ apiKey

/-- `RedisRateLimiter.check`. -/
def check : Transducer (Db String (ZSet ℕ)) Call (Except String Verdict) :=
  Transducer.keyed (fun c => redisKey c.apiKey) checkKey

/-- What the middleware does with a request. -/
inductive Reply where
  | reject (response : Response)
  /-- The next handler runs. -/
  | next (headers : List (String × String))
  deriving DecidableEq, Repr

/-- `RedisRateLimiter.Middleware`; an absent `X-API-Key` is the empty string. -/
def middleware : Transducer (Db String (ZSet ℕ)) Call Reply := fun db c =>
  if c.apiKey = "" then (.reject (httpError "\x7b\"error\":\"missing_api_key\"\x7d" 401), db)
  else
    match check db c with
    | (.error _, db) => (.next [], db)
    | (.ok v, db) =>
      let headers := [("RateLimit-Limit", "100"), ("RateLimit-Remaining", toString v.remaining),
        ("RateLimit-Reset", toString v.reset)]
      if v.allowed then (.next headers, db)
      else (.reject (httpError "\x7b\"error\":\"rate_limit_exceeded\"\x7d" 429 headers), db)

/-- The call's second lies in `(t - 60, t]`. -/
def Call.inWindow (c : Call) (t : ℕ) : Prop := c.now ≤ t ∧ t < c.now + 60

instance (c : Call) (t : ℕ) : Decidable (c.inWindow t) := by unfold Call.inWindow; infer_instance

/-- The answer of `check` lets the call through. -/
def isAllowed : Except String Verdict → Bool
  | .ok v => v.allowed
  | .error _ => false

/-- The calls of an API key let through in `(t - 60, t]`. -/
def admitted (r : List (Call × Except String Verdict)) (apiKey : String) (t : ℕ) : ℕ :=
  r.countP fun p => p.1.apiKey = apiKey ∧ p.1.inWindow t ∧ isAllowed p.2 = true

/-- The calls made for an API key in `(t - 60, t]`. -/
def made (calls : List Call) (apiKey : String) (t : ℕ) : ℕ :=
  calls.countP fun c => c.apiKey = apiKey ∧ c.inWindow t

/-! ## The set of a key -/

/-- Every member is its own score and one of the 60 seconds up to `n`. -/
structure Recent (n : ℕ) (l : ZSet ℕ) : Prop where
  score : ∀ p ∈ l, p.2 = p.1
  recent : ∀ p ∈ l, p.1 ≤ n ∧ n < p.1 + 60
  nodup : (l.map Prod.fst).Nodup

theorem Recent.length_le {n : ℕ} {l : ZSet ℕ} (h : Recent n l) : l.length ≤ 60 := by
  have hsub : l.map Prod.fst ⊆ List.range' (n - 59) 60 := by
    intro m hm
    obtain ⟨p, hp, rfl⟩ := List.mem_map.mp hm
    have := h.recent p hp
    rw [List.mem_range'_1]
    omega
  have hle := (List.subperm_of_subset h.nodup hsub).length_le
  simpa using hle

theorem Recent.sublist {n : ℕ} {l l' : ZSet ℕ} (h : Recent n l) (hs : l'.Sublist l) :
    Recent n l' where
  score p hp := h.score p (hs.subset hp)
  recent p hp := h.recent p (hs.subset hp)
  nodup := h.nodup.sublist (hs.map _)

/-- Pruning at second `m` and adding `m` leaves the 60 seconds up to `m`. -/
theorem Recent.advance {n m : ℕ} {l : ZSet ℕ} (h : Recent n l) (hnm : n ≤ m) :
    Recent m (((l.filter fun p => ¬ (0 ≤ p.2 ∧ p.2 ≤ (m : ℤ) - 60)).filter (·.1 ≠ m)) ++
      [(m, (m : ℤ))]) := by
  refine ⟨?_, ?_, ?_⟩
  · intro p hp
    simp only [List.mem_append, List.mem_filter, List.mem_singleton] at hp
    rcases hp with ⟨⟨hp, -⟩, -⟩ | rfl
    · exact h.score p hp
    · rfl
  · intro p hp
    simp only [List.mem_append, List.mem_filter, List.mem_singleton] at hp
    rcases hp with ⟨⟨hp, hkept⟩, -⟩ | rfl
    · have hs := h.score p hp
      have hr := h.recent p hp
      have hkept' : ¬ (0 ≤ p.2 ∧ p.2 ≤ (m : ℤ) - 60) := of_decide_eq_true hkept
      omega
    · exact ⟨le_rfl, by omega⟩
  · rw [List.map_append, List.nodup_append]
    refine ⟨?_, by simp, ?_⟩
    · exact h.nodup.sublist ((List.filter_sublist.trans List.filter_sublist).map _)
    · intro a ha b hb
      obtain ⟨p, hp, rfl⟩ := List.mem_map.mp ha
      obtain rfl : b = m := by simpa using hb
      simpa using (List.mem_filter.mp hp).2

/-- **One check.** On a set of recent seconds the call is let through and leaves one again. -/
theorem check_recent {n : ℕ} {k : Window} {c : Call} (hk : Recent n (stored k)) (hn : n ≤ c.now)
    (hc : c.now < 2 ^ 53) :
    isAllowed (checkKey k c).1 = true ∧ Recent c.now (stored (checkKey k c).2) := by
  have hel : Recent n (elems c.clock k) := hk.sublist (elems_sublist_stored _ _)
  have hsub : Binary64.round (c.now - 60) = (c.now : ℤ) - 60 := Binary64.round_of_lt (by omega)
  have hnow : Binary64.round c.now = (c.now : ℤ) := Binary64.round_of_lt (by omega)
  have hfit : (60 : ℤ) * 1000 + c.clock < 2 ^ 63 := by
    unfold Call.now at hc
    omega
  have hok := expire_eq_ok (by decide : (0 : ℤ) < 60) hfit
    (zadd c.clock (Binary64.round c.now) c.now
      (zremrangebyscore c.clock 0 (Binary64.round (c.now - 60)) k))
  have hcount : zcard c.clock k ≤ 60 := hel.length_le
  unfold checkKey
  simp only [hok]
  refine ⟨?_, ?_⟩
  · show decide ((zcard c.clock k : ℤ) < 100) = true
    simp
    omega
  · rw [stored_expire hok (by decide), elems_zadd, elems_zremrangebyscore, hsub,
      hnow]
    exact hel.advance hn

/-! ## Whole runs -/

theorem recent_empty (n : ℕ) : Recent n (stored (none : Window)) where
  score _ hp := absurd hp List.not_mem_nil
  recent _ hp := absurd hp List.not_mem_nil
  nodup := List.nodup_nil

/-- Every set holds recent seconds of some time up to `n`. -/
def AllRecent (n : ℕ) (db : Db String (ZSet ℕ)) : Prop :=
  ∀ key, ∃ m ≤ n, Recent m (stored (db key))

/-- **One check on the database.** -/
theorem check_allRecent {n : ℕ} {db : Db String (ZSet ℕ)} {c : Call} (hdb : AllRecent n db)
    (hn : n ≤ c.now) (hc : c.now < 2 ^ 53) :
    isAllowed (check db c).1 = true ∧ AllRecent c.now (check db c).2 := by
  obtain ⟨m, hm, hrecent⟩ := hdb (redisKey c.apiKey)
  obtain ⟨hallowed, hafter⟩ := check_recent hrecent (Nat.le_trans hm hn) hc
  refine ⟨hallowed, ?_⟩
  intro key
  unfold check Transducer.keyed
  by_cases hkey : key = redisKey c.apiKey
  · subst hkey
    exact ⟨c.now, le_rfl, by simpa using hafter⟩
  · obtain ⟨m', hm', hrecent'⟩ := hdb key
    exact ⟨m', Nat.le_trans hm' hn, by simpa [Function.update_of_ne hkey] using hrecent'⟩

theorem allRecent_empty : AllRecent 0 fun _ => none := fun _ => ⟨0, le_rfl, recent_empty 0⟩

theorem now_sorted {calls : List Call} (hsorted : calls.Pairwise fun c d => c.clock ≤ d.clock) :
    calls.Pairwise fun c d => c.now ≤ d.now := by
  apply hsorted.imp
  intro c d hcd
  exact Nat.div_le_div_right hcd

/-- **No call is refused.** -/
theorem allowed_of_run {calls : List Call} (hsorted : calls.Pairwise fun c d => c.clock ≤ d.clock)
    (hclock : ∀ c ∈ calls, c.now < 2 ^ 53) :
    ∀ p ∈ Transducer.run check (fun _ => none) calls, isAllowed p.2 = true :=
  Transducer.forall_run Call.now (P := fun _ o => isAllowed o = true)
    (fun _ _ _ hdb hn hc => check_allRecent hdb hn hc) allRecent_empty (fun _ _ => Nat.zero_le _)
    (now_sorted hsorted) hclock

/-- **The middleware never answers 429.** A request with a key always reaches the next handler. -/
theorem next_of_run {calls : List Call} (hsorted : calls.Pairwise fun c d => c.clock ≤ d.clock)
    (hclock : ∀ c ∈ calls, c.now < 2 ^ 53) :
    ∀ p ∈ Transducer.run middleware (fun _ => none) calls, p.1.apiKey ≠ "" →
      ∃ headers, p.2 = .next headers := by
  refine Transducer.forall_run Call.now (I := AllRecent) (G := fun c => c.now < 2 ^ 53)
    (P := fun c o => c.apiKey ≠ "" → ∃ headers, o = Reply.next headers) ?_ allRecent_empty
    (fun _ _ => Nat.zero_le _) (now_sorted hsorted) hclock
  intro n db c hdb hn hc
  obtain ⟨hallowed, hafter⟩ := check_allRecent hdb hn hc
  unfold middleware
  by_cases hkey : c.apiKey = ""
  · rw [if_pos hkey]
    refine ⟨fun h => absurd hkey h, ?_⟩
    intro key
    obtain ⟨m, hm, hrecent⟩ := hdb key
    exact ⟨m, Nat.le_trans hm hn, hrecent⟩
  · rw [if_neg hkey]
    cases hout : (check db c).1 with
    | error err =>
        rw [hout] at hallowed
        cases hallowed
    | ok v =>
        rw [hout] at hallowed
        rw [show check db c = (.ok v, (check db c).2) from Prod.ext hout rfl]
        dsimp only
        rw [if_pos (show v.allowed = true from hallowed)]
        exact ⟨fun _ => ⟨_, rfl⟩, hafter⟩

theorem admitted_eq_made {calls : List Call}
    (hsorted : calls.Pairwise fun c d => c.clock ≤ d.clock) (hclock : ∀ c ∈ calls, c.now < 2 ^ 53)
    (apiKey : String) (t : ℕ) :
    admitted (Transducer.run check (fun _ => none) calls) apiKey t = made calls apiKey t := by
  have hall := allowed_of_run hsorted hclock
  calc admitted (Transducer.run check (fun _ => none) calls) apiKey t
      = (Transducer.run check (fun _ => none) calls).countP
          fun p => p.1.apiKey = apiKey ∧ p.1.inWindow t := by
        apply List.countP_congr
        intro p hp
        simp [hall p hp]
    _ = ((Transducer.run check (fun _ => none) calls).map Prod.fst).countP
          fun c => c.apiKey = apiKey ∧ c.inWindow t := by
        rw [List.countP_map]
        rfl
    _ = made calls apiKey t := by rw [Transducer.run_map_fst]; rfl

/-- **The window bound holds only when it is not needed**: for every sequence of calls at
non-decreasing times, at most 100 calls of a key are let through in every `(t - 60, t]` exactly when
at most 100 are made. -/
theorem admitted_le_iff (calls : List Call)
    (hsorted : calls.Pairwise fun c d => c.clock ≤ d.clock) (hclock : ∀ c ∈ calls, c.now < 2 ^ 53)
    (apiKey : String) :
    (∀ t, admitted (Transducer.run check (fun _ => none) calls) apiKey t ≤ 100) ↔
      ∀ t, made calls apiKey t ≤ 100 := by
  refine ⟨?_, ?_⟩
  · intro h t
    rw [← admitted_eq_made hsorted hclock]
    exact h t
  · intro h t
    rw [admitted_eq_made hsorted hclock]
    exact h t

/-- Two calls in one second. -/
theorem admitted_le_iff_two :
    (∀ t, admitted (Transducer.run check (fun _ => none) [⟨"k", 5000⟩, ⟨"k", 5001⟩]) "k" t ≤ 100) ↔
      ∀ t, made [⟨"k", 5000⟩, ⟨"k", 5001⟩] "k" t ≤ 100 :=
  admitted_le_iff _ (by decide) (by decide) "k"

/-- **101 calls in one second are all let through.** -/
theorem admitted_101 :
    ∃ calls : List Call, (calls.Pairwise fun c d => c.clock ≤ d.clock) ∧
      admitted (Transducer.run check (fun _ => none) calls) "k" 1700000000 = 101 := by
  refine ⟨List.replicate 101 ⟨"k", 1700000000000⟩, ?_, ?_⟩
  · rw [List.pairwise_replicate]
    exact .inr le_rfl
  · rw [admitted_eq_made]
    · show List.countP _ _ = 101
      rw [List.countP_replicate]
      decide
    · rw [List.pairwise_replicate]
      exact .inr le_rfl
    · intro c hc
      rw [List.eq_of_mem_replicate hc]
      decide

end AppGate.RedisRateLimiter
