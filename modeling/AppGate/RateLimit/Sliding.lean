import AppGate.RateLimit.Concurrent
import AppGate.RateLimit.Isolation

/-!
# Checks one after another

When calls do not overlap, `check_redis` is an exact sliding window over the times it admitted. The
sorted set may hold less than the admission history: pruning and the expiry of the key take
elements away, but only elements that are out of every window to come.

* `Sliding.count`, `Sliding.check`: the window over the history, as a specification;
* `Tracks`: what a sorted set says about the history;
* `tracks_later`, `tracks_prune`, `tracks_touch`, **`checkRedisKey_tracks`**: one call;
* `run_tracks`, **`sliding_window_exact`**: whole runs.
-/

set_option autoImplicit false

namespace AppGate.RateLimiterService

open Redis

/-! ## The specification -/

namespace Sliding

/-- The times of the history in `(now - width, now]`, the subtraction stopped at zero. -/
def count (width now : ℕ) (history : List ℕ) : ℕ :=
  history.countP fun a => now - width < a && a ≤ now

/-- The history after a call at `now`, and what it returns. -/
def check (limit width : ℕ) : Transducer (List ℕ) ℕ Bool := fun history now =>
  if count width now history < limit then (true, history ++ [now]) else (false, history)

end Sliding

/-! ## What the sorted set remembers -/

/-- At time `n` the set `k` agrees with the history on every window from now on, and it lives as
long as any of its elements is in one. -/
structure Tracks (window : UInt64) (n : ℕ) (k : Window) (history : List ℕ) : Prop where
  past : ∀ a ∈ history, a ≤ n
  scores : ∀ p ∈ elems n k, 0 ≤ p.2 ∧ p.2 ≤ n
  agree : ∀ x, n ≤ x →
    (elems n k).countP (fun p => ((x - window.toNat * 1000 : ℕ) : ℤ) < p.2) =
      history.countP fun a => x - window.toNat * 1000 < a
  lives : elems n k ≠ [] → ∃ e, expiry n k = some e ∧
    ∀ p ∈ elems n k, p.2 + window.toNat * 1000 ≤ (e : ℤ)

variable {window : UInt64}

theorem tracks_none (window : UInt64) (n : ℕ) : Tracks window n none [] where
  past _ h := absurd h List.not_mem_nil
  scores _ h := absurd h List.not_mem_nil
  agree _ _ := rfl
  lives h := absurd rfl h

/-- **Time.** A set that expires was out of every window to come. -/
theorem tracks_later {n n' : ℕ} {k : Window} {history : List ℕ} (h : Tracks window n k history)
    (hn : n ≤ n') : Tracks window n' k history := by
  have hpast : ∀ a ∈ history, a ≤ n' := fun a ha => Nat.le_trans (h.past a ha) hn
  rcases elems_later hn k with ⟨hel, hexp⟩ | ⟨hel, e, hexp, hlt⟩
  · refine ⟨hpast, ?_, fun x hx => ?_, ?_⟩
    · intro p hp
      rw [hel] at hp
      have := h.scores p hp
      omega
    · rw [hel]
      exact h.agree x (Nat.le_trans hn hx)
    · rw [hel, hexp]
      exact h.lives
  · refine ⟨hpast, by simp [hel], fun x hx => ?_, fun hne => absurd hel hne⟩
    rw [hel, ← h.agree x (Nat.le_trans hn hx)]
    symm
    rw [List.countP_nil, List.countP_eq_zero]
    intro p hp
    obtain ⟨e', he', hlive⟩ := h.lives (List.ne_nil_of_mem hp)
    obtain rfl : e = e' := Option.some.inj (hexp.symm.trans he')
    have := hlive p hp
    rw [decide_eq_true_eq]
    omega

theorem Tracks.count_eq {n : ℕ} {k : Window} {history : List ℕ} (h : Tracks window n k history) :
    Sliding.count (window.toNat * 1000) n history =
      (elems n k).countP fun p => ((n - window.toNat * 1000 : ℕ) : ℤ) < p.2 := by
  rw [h.agree n (Nat.le_refl n)]
  apply List.countP_congr
  intro a ha
  simp [h.past a ha]

/-- **Pruning** takes away what is out of the window of this call and of every later one. -/
theorem tracks_prune {n : ℕ} {k : Window} {history : List ℕ} (h : Tracks window n k history)
    (hw : window.toNat * 1000 < 2 ^ 53) (hn : n < 2 ^ 53) :
    Tracks window n (prune n (nowAt n) window k) history ∧
      zcard n (prune n (nowAt n) window k) = Sliding.count (window.toNat * 1000) n history := by
  have hnow := toNat_nowAt hn
  have hel : elems n (prune n (nowAt n) window k) =
      (elems n k).filter fun p => ((n - window.toNat * 1000 : ℕ) : ℤ) < p.2 := by
    rw [elems_prune n k (by omega) (by omega), hnow]
    apply List.filter_congr
    intro p hp
    have := (h.scores p hp).1
    rw [decide_eq_decide]
    omega
  have hsub : ∀ p ∈ elems n (prune n (nowAt n) window k), p ∈ elems n k := by
    intro p hp
    rw [hel] at hp
    exact List.mem_of_mem_filter hp
  refine ⟨⟨h.past, fun p hp => h.scores p (hsub p hp), fun x hx => ?_, fun hne => ?_⟩, ?_⟩
  · rw [hel, List.countP_filter, ← h.agree x hx]
    apply List.countP_congr
    intro p _
    simp only [Bool.and_eq_true, decide_eq_true_eq]
    omega
  · have hexp := expiry_zremrangebyscore hne
    have hne' : elems n k ≠ [] := by
      obtain ⟨p, hp⟩ := List.exists_mem_of_ne_nil _ hne
      exact List.ne_nil_of_mem (hsub p hp)
    obtain ⟨e, he, hlive⟩ := h.lives hne'
    exact ⟨e, hexp.trans he, fun p hp => hlive p (hsub p hp)⟩
  · rw [zcard, hel, h.count_eq, List.countP_eq_length_filter]

/-- A fresh member goes to the end of the set. -/
theorem elems_add {n uuid : ℕ} {k : Window} (hn : n < 2 ^ 53)
    (hu : ∀ p ∈ elems n k, p.1.2 ≠ uuid) :
    elems n (add n (nowAt n) uuid k) = elems n k ++ [((nowAt n, uuid), (n : ℤ))] := by
  have hround : Binary64.round (nowAt n).toNat = (n : ℤ) := by
    rw [toNat_nowAt hn]
    exact Binary64.round_of_lt (by omega)
  unfold add
  rw [elems_zadd, hround, List.filter_eq_self.mpr]
  intro p hp
  rw [decide_eq_true_eq]
  exact fun he => hu p hp (congrArg Prod.snd he)

theorem Tracks.past_snoc {n : ℕ} {k : Window} {history : List ℕ} (h : Tracks window n k history) :
    ∀ a ∈ history ++ [n], a ≤ n := by
  intro a ha
  rcases List.mem_append.mp ha with ha | ha
  · exact h.past a ha
  · exact Nat.le_of_eq (List.mem_singleton.mp ha)

/-- A window of zero deletes the key, and every window to come is empty. -/
theorem tracks_touch_zero {n uuid : ℕ} {k : Window} {history : List ℕ}
    (h : Tracks window n k history) (hzero : window.toNat = 0) (hn : n < 2 ^ 53) :
    touch n window (add n (nowAt n) uuid k) = .ok none ∧
      Tracks window n none (history ++ [n]) := by
  have hsecs : asI64 window = window.toNat := asI64_of_lt (by omega)
  refine ⟨?_, h.past_snoc, by simp [elems, live], fun x hx => ?_, fun hne => absurd rfl hne⟩
  · simp [touch, hsecs, hzero, expire]
    omega
  · symm
    rw [show elems n (none : Window) = [] from rfl, List.countP_nil, List.countP_eq_zero]
    intro a ha
    have := h.past_snoc a ha
    rw [decide_eq_true_eq]
    omega

/-- **`EXPIRE`** on a set that was just added to. -/
theorem tracks_touch {n uuid : ℕ} {k : Window} {history : List ℕ} (h : Tracks window n k history)
    (hw : window.toNat * 1000 < 2 ^ 53) (hn : n < 2 ^ 53)
    (hu : ∀ p ∈ elems n k, p.1.2 ≠ uuid) :
    ∃ k', touch n window (add n (nowAt n) uuid k) = .ok k' ∧
      Tracks window n k' (history ++ [n]) := by
  by_cases hzero : window.toNat = 0
  · exact ⟨none, tracks_touch_zero h hzero hn⟩
  have hsecs : asI64 window = window.toNat := asI64_of_lt (by omega)
  have hadd := elems_add hn hu
  have hok := expire_eq_ok (show 0 < asI64 window by omega)
    (show asI64 window * 1000 + (n : ℤ) < 2 ^ 63 by omega) (add n (nowAt n) uuid k)
  have hel := elems_expire hok (by omega)
  have hexp := expiry_expire hok (by omega) (by simp [hadd])
  have hscores : ∀ p ∈ elems n k ++ [((nowAt n, uuid), (n : ℤ))], 0 ≤ p.2 ∧ p.2 ≤ n := by
    intro p hp
    rcases List.mem_append.mp hp with hp | hp
    · exact h.scores p hp
    · rw [List.mem_singleton.mp hp]
      exact ⟨Int.natCast_nonneg n, Int.le_refl _⟩
  refine ⟨_, hok, h.past_snoc, ?_, fun x hx => ?_, fun _ => ⟨_, hexp, ?_⟩⟩
  · rw [hel, hadd]
    exact hscores
  · rw [hel, hadd, List.countP_append, List.countP_append, h.agree x hx, List.countP_singleton,
      List.countP_singleton]
    simp
  · rw [hel, hadd]
    intro p hp
    have := (hscores p hp).2
    omega

/-- **One call** answers as the sliding window does, and keeps track of it. -/
theorem checkRedisKey_tracks {n : ℕ} {k : Window} {history : List ℕ} {c : Call}
    (h : Tracks c.window n k history) (hn : n ≤ c.clock) (hl : c.limit.toNat < 2 ^ 63)
    (hw : c.window.toNat * 1000 < 2 ^ 53) (hclock : c.clock < 2 ^ 53) (hu : Unused k c.uuid) :
    (checkRedisKey k c).1 =
        .ok (Sliding.check c.limit.toNat (c.window.toNat * 1000) history c.clock).1 ∧
      Tracks c.window c.clock (checkRedisKey k c).2
        (Sliding.check c.limit.toNat (c.window.toNat * 1000) history c.clock).2 := by
  obtain ⟨hpruned, hcard⟩ := tracks_prune (tracks_later h hn) hw hclock
  have hfull : isFull c.clock c.limit (prune c.clock (nowAt c.clock) c.window k) = true ↔
      ¬ Sliding.count (c.window.toNat * 1000) c.clock history < c.limit.toNat := by
    rw [isFull, hcard, asI64_of_lt hl, decide_eq_true_eq]
    omega
  unfold checkRedisKey Sliding.check
  by_cases hlt : Sliding.count (c.window.toNat * 1000) c.clock history < c.limit.toNat
  · have hunused : ∀ p ∈ elems c.clock (prune c.clock (nowAt c.clock) c.window k),
        p.1.2 ≠ c.uuid := fun p hp =>
      hu p (stored_prune_subset _ _ _ _ ((elems_sublist_stored _ _).subset hp))
    obtain ⟨k', htouch, htracks⟩ := tracks_touch hpruned hw hclock hunused
    dsimp only
    rw [if_neg (fun hf => hfull.mp hf hlt), if_pos hlt, htouch]
    exact ⟨rfl, htracks⟩
  · dsimp only
    rw [if_pos (hfull.mpr hlt), if_neg hlt]
    exact ⟨rfl, hpruned⟩

/-! ## Whole runs -/

/-- The time of a call, if it returned `Ok(true)`. -/
def admittedTime (p : Call × Except String Bool) : Option ℕ :=
  match p.2 with
  | .ok true => some p.1.clock
  | _ => none

/-- The history the specification continues with after a call. -/
theorem check_history (limit width : ℕ) (history : List ℕ) (c : Call) :
    (Sliding.check limit width history c.clock).2 = history ++
      [(c, .ok (Sliding.check limit width history c.clock).1)].filterMap admittedTime := by
  unfold Sliding.check
  split_ifs
  · rfl
  · exact (List.append_nil history).symm

/-- **Whole runs on one set**: every answer is that of the window over the times admitted before. -/
theorem run_tracks {limit window : UInt64} (hl : limit.toNat < 2 ^ 63)
    (hw : window.toNat * 1000 < 2 ^ 53) {l : List Call} {n : ℕ} {k : Window} {history : List ℕ}
    (h : Tracks window n k history) (hargs : ∀ c ∈ l, c.limit = limit ∧ c.window = window)
    (hn : ∀ c ∈ l, n ≤ c.clock) (hsorted : l.Pairwise fun c d => c.clock ≤ d.clock)
    (hclock : ∀ c ∈ l, c.clock < 2 ^ 53) (hu : ∀ c ∈ l, Unused k c.uuid)
    (hnd : (l.map Call.uuid).Nodup) (pre : List (Call × Except String Bool)) (c : Call)
    (out : Except String Bool) (post : List (Call × Except String Bool))
    (hrun : Transducer.run checkRedisKey k l = pre ++ (c, out) :: post) :
    out = .ok (Sliding.check limit.toNat (window.toNat * 1000)
      (history ++ pre.filterMap admittedTime) c.clock).1 := by
  induction l generalizing n k history pre with
  | nil => exact absurd hrun.symm (List.append_ne_nil_of_right_ne_nil _ (List.cons_ne_nil _ _))
  | cons d l ih =>
      obtain ⟨rfl, rfl⟩ := hargs d List.mem_cons_self
      obtain ⟨hle, hrest⟩ := List.pairwise_cons.mp hsorted
      rw [List.map_cons, List.nodup_cons] at hnd
      obtain ⟨hout, htracks⟩ := checkRedisKey_tracks h (hn d List.mem_cons_self) hl hw
        (hclock d List.mem_cons_self) (hu d List.mem_cons_self)
      rw [Transducer.run] at hrun
      cases pre with
      | nil =>
          obtain ⟨hhead, -⟩ := List.cons.inj hrun
          cases hhead
          rw [hout, List.filterMap_nil, List.append_nil]
      | cons q pre =>
          obtain ⟨hhead, htail⟩ := List.cons.inj hrun
          have hih := ih htracks (fun e he => hargs e (List.mem_cons_of_mem _ he)) hle hrest
            (fun e he => hclock e (List.mem_cons_of_mem _ he))
            (unused_checkRedisKey hnd.1 fun e he => hu e (List.mem_cons_of_mem _ he)) hnd.2
            pre htail
          rw [hih, check_history, List.append_assoc, ← List.filterMap_append, ← hout, hhead]
          rfl

theorem count_filterMap (identity : String) (width now : ℕ)
    (h : List (Call × Except String Bool)) :
    Sliding.count width now ((h.filter (·.1.identity = identity)).filterMap admittedTime) =
      h.countP fun p => p.1.identity = identity ∧ p.2 = .ok true ∧
        now - width < p.1.clock ∧ p.1.clock ≤ now := by
  unfold Sliding.count
  rw [List.countP_filterMap, List.countP_filter]
  apply List.countP_congr
  rintro ⟨c, out⟩ -
  match out with
  | .ok true => simp [admittedTime, and_comm]
  | .ok false => simp [admittedTime]
  | .error err => simp [admittedTime]

/-- **The sliding window is exact.** Calls run one after another at non-decreasing times below
`2 ^ 53` milliseconds; those of `identity` have one limit and window and find no key of theirs at
the start. Each of them succeeds, and returns `true` exactly when fewer than `limit` earlier ones
returned `Ok(true)` with their `now` in `(now - window * 1000, now]`. -/
theorem sliding_window_exact (identity : String) (limit window : UInt64)
    (hl : limit.toNat < 2 ^ 63) (hw : window.toNat * 1000 < 2 ^ 53)
    (db : Db String (ZSet Member)) (hdb : db (redisKey identity) = none) (r : List Call)
    (hargs : ∀ c ∈ r, c.identity = identity → c.limit = limit ∧ c.window = window)
    (hsorted : r.Pairwise fun c d => c.clock ≤ d.clock) (hclock : ∀ c ∈ r, c.clock < 2 ^ 53)
    (huuid : (r.map Call.uuid).Nodup) (pre : List (Call × Except String Bool)) (c : Call)
    (out : Except String Bool) (post : List (Call × Except String Bool))
    (hrun : Transducer.run checkRedis db r = pre ++ (c, out) :: post)
    (hc : c.identity = identity) :
    out = .ok (pre.countP (fun p => p.1.identity = identity ∧ p.2 = .ok true ∧
      c.clock - window.toNat * 1000 < p.1.clock ∧ p.1.clock ≤ c.clock) < limit.toNat) := by
  have hkey : ∀ d : Call, redisKey d.identity = redisKey identity ↔ d.identity = identity :=
    fun d => String.append_right_inj _
  have hfilter := Transducer.filter_run_keyed (fun c : Call => redisKey c.identity) checkRedisKey db
    r (redisKey identity)
  simp only [hkey, hdb] at hfilter
  have hsub : (r.filter (·.identity = identity)).Sublist r := List.filter_sublist
  have hrun' : Transducer.run checkRedisKey none (r.filter (·.identity = identity)) =
      pre.filter (·.1.identity = identity) ++
        (c, out) :: post.filter (·.1.identity = identity) := by
    rw [← hfilter, show Transducer.run (Transducer.keyed _ checkRedisKey) db r = _ from hrun,
      List.filter_append, List.filter_cons_of_pos (by simpa using hc)]
  have hmem : ∀ d ∈ r.filter (·.identity = identity), d ∈ r ∧ d.identity = identity := by
    intro d hd
    simpa using hd
  have hout := run_tracks hl hw (tracks_none window 0)
    (fun d hd => hargs d (hmem d hd).1 (hmem d hd).2) (fun d _ => Nat.zero_le d.clock)
    (hsorted.sublist hsub) (fun d hd => hclock d (hmem d hd).1)
    (fun d _ p hp => absurd hp List.not_mem_nil) (huuid.sublist (hsub.map _)) _ c out _ hrun'
  rw [hout, List.nil_append]
  unfold Sliding.check
  rw [count_filterMap]
  split_ifs with h
  · simp only [h, decide_true]
  · simp only [h, decide_false]

/-- A limit of one in a second, with a call of another identity in between. -/
def oneASecond : List Call :=
  [⟨"a", 1, 1, 5000, 0⟩, ⟨"b", 7, 0, 5500, 1⟩, ⟨"a", 1, 1, 5999, 2⟩, ⟨"a", 1, 1, 6000, 3⟩]

/-- What the first three of these calls return. -/
def oneASecondAnswers : List (Call × Except String Bool) :=
  [(⟨"a", 1, 1, 5000, 0⟩, .ok true), (⟨"b", 7, 0, 5500, 1⟩, .ok true),
    (⟨"a", 1, 1, 5999, 2⟩, .ok false)]

/-- The call at the end of the first one's window is admitted. -/
theorem sliding_window_exact_one :
    Transducer.run checkRedis (fun _ => none) oneASecond =
        oneASecondAnswers ++ [(⟨"a", 1, 1, 6000, 3⟩, .ok true)] ∧
      (.ok true : Except String Bool) = .ok (oneASecondAnswers.countP (fun p =>
        p.1.identity = "a" ∧ p.2 = .ok true ∧ 6000 - (1 : UInt64).toNat * 1000 < p.1.clock ∧
          p.1.clock ≤ 6000) < (1 : UInt64).toNat) :=
  ⟨by decide, sliding_window_exact "a" 1 1 (by decide) (by decide) (fun _ => none) rfl oneASecond
    (by decide) (by decide) (by decide) (by decide) oneASecondAnswers ⟨"a", 1, 1, 6000, 3⟩
    (.ok true) [] (by decide) rfl⟩

end AppGate.RateLimiterService
