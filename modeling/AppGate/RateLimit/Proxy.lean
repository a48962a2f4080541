import AppGate.Lib.Counting
import AppGate.Lib.NetHttp
import AppGate.Lib.Redis
import AppGate.Lib.Text
import AppGate.Lib.Transducer

/-!
# Authentication and rate limit of the proxy

`internal/auth/jwt.go`, `internal/ratelimit/limiter.go` and the order in which
`internal/proxy/handler.go` applies them. The token is checked first and its claims name the
project; the limiter then counts in fixed windows, under the project in the header
`X-AppGate-Project`. Times are Unix milliseconds; a request runs at one instant.

* `authenticate`, `Limiter.checkLimit`, `Limiter.middleware`, `api`;
* `windowKey_inj`: one counter for each header project and window;
* `countP_checkKey`: a counter lets exactly the first `burst` requests of its window through;
* **`passed_le_iff`**, `passed_151`.
-/

set_option autoImplicit false

namespace AppGate.LLMProxy

open Redis
open NetHttp (httpError)

/-! ## Authentication -/

/-- `Claims`, without the registered claims, which only the token library reads. -/
structure Claims where
  projectID : String
  userID : String
  team : String
  scopes : List String
  deriving DecidableEq, Repr

/-- The headers the two middlewares read, as `Header.Get` returns them, and the time of the
request. -/
structure Request where
  authorization : String
  project : String
  clock : ℕ
  deriving DecidableEq, Repr

/-- What the handlers and middlewares write. -/
abbrev Response := NetHttp.Response

/-- The scheme and the token of `strings.SplitN(authHeader, " ", 2)`, when there are two parts. -/
def splitAuth (authHeader : String) : Option (String × String) :=
  match authHeader.toList.span (· ≠ ' ') with
  | (scheme, _ :: token) => some (String.ofList scheme, String.ofList token)
  | (_, []) => none

/-- `strings.ToLower` on ASCII letters; no other letter has its lower case in `bearer`. -/
def toLower (s : String) : String := String.ofList (s.toList.map Char.toLower)

/-- `JWTValidator`: the configured key, and `jwt.ParseWithClaims` with the algorithm check of the
middleware; it returns the claims and `token.Valid`. -/
structure JWTValidator (Key : Type) where
  publicKey : Option Key
  parseWithClaims : Key → String → Except String (Claims × Bool)

/-- The optional claims with their defaults. -/
def Claims.fill (c : Claims) : Claims :=
  { c with
    projectID := if c.projectID = "" then "default" else c.projectID
    userID := if c.userID = "" then "anonymous" else c.userID }

/-- `JWTValidator.Middleware`: the error response, or the claims handed on. -/
def JWTValidator.authenticate {Key : Type} (v : JWTValidator Key) (authHeader : String) :
    Except Response Claims :=
  if authHeader = "" then .error (httpError "\x7b\"error\":\"missing authorization header\"\x7d" 401)
  else
    match splitAuth authHeader with
    | none => .error (httpError "\x7b\"error\":\"invalid authorization format\"\x7d" 401)
    | some (scheme, tokenStr) =>
      if toLower scheme ≠ "bearer" then
        .error (httpError "\x7b\"error\":\"invalid authorization format\"\x7d" 401)
      else
        match v.publicKey with
        | none => .error (httpError "\x7b\"error\":\"authentication not configured\"\x7d" 500)
        | some key =>
          match v.parseWithClaims key tokenStr with
          | .error _ => .error (httpError "\x7b\"error\":\"invalid token\"\x7d" 401)
          | .ok (claims, valid) =>
            if valid then .ok claims.fill
            else .error (httpError "\x7b\"error\":\"invalid token\"\x7d" 401)

/-! ## The limiter -/

/-- `Limiter`; the window is in seconds. -/
structure Limiter where
  rps : ℤ
  burst : ℤ
  window : ℕ
  deriving DecidableEq, Repr

/-- The limiter `New` returns. -/
def Limiter.new : Limiter := ⟨100, 150, 60⟩

/-- The results of `checkLimit`. -/
structure Verdict where
  allowed : Bool
  remaining : ℤ
  reset : ℤ
  deriving DecidableEq, Repr

/-- The counter key of `checkLimit`. -/
def Limiter.windowKey (l : Limiter) (key : String) (clock : ℕ) : String :=
  "ratelimit:" ++ key ++ ":" ++ toString (clock / 1000 / l.window)

/-- `checkLimit` on its counter. Both commands of the pipeline run; an error of either lets the
request through. -/
def Limiter.checkKey (l : Limiter) (k : Option (Slot ℤ)) (clock : ℕ) :
    Verdict × Option (Slot ℤ) :=
  match incr clock k with
  | .error _ =>
    match expire clock (l.window + 1) k with
    | .error _ => (⟨true, 0, 0⟩, k)
    | .ok k => (⟨true, 0, 0⟩, k)
  | .ok (count, k) =>
    match expire clock (l.window + 1) k with
    | .error _ => (⟨true, 0, 0⟩, k)
    | .ok k =>
      let remaining := if l.rps - count < 0 then 0 else l.rps - count
      (⟨count ≤ l.burst, remaining, clock / 1000 + l.window⟩, k)

/-- The project `Limiter.Middleware` counts a request under. -/
def Request.limitProject (r : Request) : String :=
  if r.project = "" then "default" else r.project

/-- `checkLimit`, as the middleware calls it. -/
def Limiter.checkLimit (l : Limiter) : Transducer (Db String ℤ) Request Verdict :=
  Transducer.keyed (fun r => l.windowKey r.limitProject r.clock) fun k r => l.checkKey k r.clock

/-- What the two middlewares do with a request. -/
inductive Reply where
  | reject (response : Response)
  /-- The next handler runs, with these claims and response headers. -/
  | next (claims : Claims) (headers : List (String × String))
  deriving DecidableEq, Repr

/-- `Limiter.Middleware`, behind the authentication. -/
def Limiter.middleware (l : Limiter) (claims : Claims) : Transducer (Db String ℤ) Request Reply :=
  fun db r =>
    let p := l.checkLimit db r
    if p.1.allowed then
      (.next claims [("X-RateLimit-Limit", toString l.rps),
        ("X-RateLimit-Remaining", toString p.1.remaining)], p.2)
    else
      (.reject (httpError "\x7b\"error\":\"rate limit exceeded\"\x7d" 429
        [("X-RateLimit-Limit", toString l.rps), ("X-RateLimit-Remaining", "0"),
          ("X-RateLimit-Reset", toString p.1.reset)]), p.2)

/-- The two middlewares in the order of `LLMProxy.routes`. -/
def api {Key : Type} (v : JWTValidator Key) (l : Limiter) :
    Transducer (Db String ℤ) Request Reply :=
  fun db r =>
    match v.authenticate r.authorization with
    | .error response => (.reject response, db)
    | .ok claims => l.middleware claims db r

/-! ## Counter keys -/

/-- **One counter for each project and window.** -/
theorem windowKey_inj {l : Limiter} {a b : String} {s t : ℕ} :
    l.windowKey a s = l.windowKey b t ↔ a = b ∧ s / 1000 / l.window = t / 1000 / l.window := by
  refine ⟨?_, ?_⟩
  · intro h
    unfold Limiter.windowKey at h
    rw [String.append_assoc, String.append_assoc, String.append_assoc, String.append_assoc,
      String.append_right_inj] at h
    have hlist : a.toList ++ ':' :: (toString (s / 1000 / l.window)).toList =
        b.toList ++ ':' :: (toString (t / 1000 / l.window)).toList := by
      simpa using congrArg String.toList h
    obtain ⟨hab, hw⟩ := Text.append_sep_inj_last (Text.notMem_toString (by decide) _)
      (Text.notMem_toString (by decide) _) hlist
    exact ⟨String.toList_inj.mp hab, Text.toString_inj (String.toList_inj.mp hw)⟩
  · rintro ⟨rfl, h⟩
    unfold Limiter.windowKey
    rw [h]

/-! ## One counter -/

/-- The aligned window of a request. -/
def Request.window (r : Request) : ℕ := r.clock / 1000 / Limiter.new.window

/-- The counter of window `w` after `n` requests. -/
def Counted (n w : ℕ) (k : Option (Slot ℤ)) : Prop :=
  (n = 0 ∧ k = none) ∨ ∃ e, k = some ⟨n, some e⟩ ∧ 60000 * (w + 1) ≤ e

theorem Counted.incr {n w clock : ℕ} {k : Option (Slot ℤ)} (hk : Counted n w k)
    (hw : clock / 1000 / 60 = w) (hn : n < 2 ^ 62) :
    ∃ e, incr clock k = .ok ((n : ℤ) + 1, some ⟨(n : ℤ) + 1, e⟩) ∧ e.all (clock ≤ ·) = true := by
  rcases hk with ⟨rfl, rfl⟩ | ⟨e, rfl, he⟩
  · exact ⟨none, rfl, rfl⟩
  · have hle : clock ≤ e := by omega
    have hlive : live clock (some (⟨n, some e⟩ : Slot ℤ)) = some ⟨n, some e⟩ := by
      simp [live, Option.filter, hle]
    refine ⟨some e, ?_, by simpa using hle⟩
    unfold Redis.incr
    rw [hlive]
    simp only
    rw [if_pos (by omega)]

/-- **One request on a counter.** -/
theorem checkKey_counted {n w clock : ℕ} {k : Option (Slot ℤ)} (hk : Counted n w k)
    (hw : clock / 1000 / 60 = w) (hn : n < 2 ^ 62) (hc : clock < 2 ^ 62) :
    (Limiter.new.checkKey k clock).1.allowed = decide (n < 150) ∧
      Counted (n + 1) w (Limiter.new.checkKey k clock).2 := by
  obtain ⟨e, hincr, he⟩ := hk.incr hw hn
  have hexp := expire_eq_ok (by decide : (0 : ℤ) < ((Limiter.new.window : ℕ) : ℤ) + 1)
    (show ((60 : ℕ) + 1 : ℤ) * 1000 + clock < 2 ^ 63 by omega)
    (some ⟨(n : ℤ) + 1, e⟩ : Option (Slot ℤ))
  have hlive : live clock (some ⟨(n : ℤ) + 1, e⟩ : Option (Slot ℤ)) = some ⟨(n : ℤ) + 1, e⟩ :=
    Option.filter_eq_some_iff.mpr ⟨rfl, he⟩
  rw [hlive] at hexp
  unfold Limiter.checkKey
  simp only [hincr, hexp]
  refine ⟨?_, .inr ⟨clock + 61 * 1000, by simp [Limiter.new], by omega⟩⟩
  show decide ((n : ℤ) + 1 ≤ 150) = decide (n < 150)
  rw [decide_eq_decide]
  omega

/-- **A counter lets the first `burst` requests through.** -/
theorem countP_checkKey {w : ℕ} {reqs : List Request} (hw : ∀ r ∈ reqs, r.window = w)
    (hclock : ∀ r ∈ reqs, r.clock < 2 ^ 62) {n : ℕ} {k : Option (Slot ℤ)} (hk : Counted n w k)
    (hn : n + reqs.length < 2 ^ 62) :
    (Transducer.run (fun k (r : Request) => Limiter.new.checkKey k r.clock) k reqs).countP
        (·.2.allowed) = min (150 - n) reqs.length := by
  induction reqs generalizing n k with
  | nil => simp [Transducer.run]
  | cons r reqs ih =>
      obtain ⟨hallowed, hk'⟩ := checkKey_counted hk (hw r List.mem_cons_self)
        (by simp only [List.length_cons] at hn; omega) (hclock r List.mem_cons_self)
      have ih' := ih (fun r' h => hw r' (List.mem_cons_of_mem _ h))
        (fun r' h => hclock r' (List.mem_cons_of_mem _ h)) hk'
        (by simp only [List.length_cons] at hn; omega)
      simp only [Transducer.run, List.countP_cons, ih', hallowed, List.length_cons,
        decide_eq_true_eq]
      split_ifs <;> omega

/-! ## All counters -/

/-- The request reaches the handlers behind the limiter. -/
def Reply.passes : Reply → Bool
  | .next _ _ => true
  | .reject _ => false

/-- The requests of window `w` that pass the rate-limit middleware. -/
def passed (r : List (Request × Reply)) (w : ℕ) : ℕ :=
  r.countP fun p => p.1.window = w ∧ p.2.passes = true

/-- The token of the request is valid and its claims name project `P`. -/
def Authenticated {Key : Type} (v : JWTValidator Key) (P : String) (r : Request) : Prop :=
  ∃ claims, v.authenticate r.authorization = .ok claims ∧ claims.projectID = P

theorem api_of_authenticated {Key : Type} {v : JWTValidator Key} {P : String} {r : Request}
    (h : Authenticated v P r) (l : Limiter) (db : Db String ℤ) :
    (api v l db r).2 = (l.checkLimit db r).2 ∧
      (api v l db r).1.passes = (l.checkLimit db r).1.allowed := by
  obtain ⟨claims, hc, -⟩ := h
  simp only [api, hc, Limiter.middleware]
  cases ha : (l.checkLimit db r).1.allowed <;> simp [Reply.passes]

theorem passed_api {Key : Type} {v : JWTValidator Key} {P : String} {reqs : List Request}
    (hauth : ∀ r ∈ reqs, Authenticated v P r) (l : Limiter) (db : Db String ℤ) (w : ℕ) :
    passed (Transducer.run (api v l) db reqs) w =
      ((Transducer.run l.checkLimit db reqs).filter (·.1.window = w)).countP (·.2.allowed) := by
  have h := Transducer.run_map_congr (a := Reply.passes) (b := Verdict.allowed)
    (fun r hr db => api_of_authenticated (hauth r hr) l db) db
  have hcount := congrArg (List.countP fun p => p.1.window = w ∧ p.2 = true) h
  rw [List.countP_map, List.countP_map] at hcount
  rw [List.countP_filter]
  apply hcount.trans
  refine List.countP_congr ?_
  intro p _
  simp [and_comm]

/-- The answers to the requests of one header project in one window. -/
theorem filter_checkLimit (reqs : List Request) (w : ℕ) (project : String) :
    ((Transducer.run Limiter.new.checkLimit (fun _ => none) reqs).filter (·.1.window = w)).filter
        (·.1.limitProject = project) =
      Transducer.run (fun k (r : Request) => Limiter.new.checkKey k r.clock) none
        (reqs.filter fun r => r.limitProject = project ∧ r.window = w) := by
  have hkey : ∀ r : Request, (Limiter.new.windowKey r.limitProject r.clock =
      Limiter.new.windowKey project (w * 60000)) ↔ r.limitProject = project ∧ r.window = w := by
    intro r
    rw [windowKey_inj]
    have : w * 60000 / 1000 / Limiter.new.window = w := by
      show w * 60000 / 1000 / 60 = w
      omega
    rw [this]
    rfl
  have h := Transducer.filter_run_keyed
    (fun r : Request => Limiter.new.windowKey r.limitProject r.clock)
    (fun k (r : Request) => Limiter.new.checkKey k r.clock) (fun _ => none) reqs
    (Limiter.new.windowKey project (w * 60000))
  simp only [hkey] at h
  rw [← h, List.filter_filter]
  apply List.filter_congr
  intro p _
  simp

theorem capped_checkLimit {reqs : List Request} (hclock : ∀ r ∈ reqs, r.clock < 2 ^ 62)
    (hlen : reqs.length < 2 ^ 62) (w : ℕ) (project : String) :
    (((Transducer.run Limiter.new.checkLimit (fun _ => none) reqs).filter (·.1.window = w)).filter
        (·.1.limitProject = project)).countP (·.2.allowed) =
      min 150 (((Transducer.run Limiter.new.checkLimit (fun _ => none) reqs).filter
        (·.1.window = w)).filter (·.1.limitProject = project)).length := by
  rw [filter_checkLimit, countP_checkKey (w := w) ?_ ?_ (.inl ⟨rfl, rfl⟩) ?_]
  · rw [← List.length_map Prod.fst, Transducer.run_map_fst]
  · intro r hr
    exact (of_decide_eq_true (List.mem_filter.mp hr).2).2
  · intro r hr
    exact hclock r (List.mem_of_mem_filter hr)
  · have := List.length_filter_le (fun r : Request => r.limitProject = project ∧ r.window = w) reqs
    omega

theorem one_project_iff {db : Db String ℤ} {reqs : List Request} {w : ℕ} :
    (∀ p ∈ (Transducer.run Limiter.new.checkLimit db reqs).filter (·.1.window = w),
      ∀ q ∈ (Transducer.run Limiter.new.checkLimit db reqs).filter (·.1.window = w),
        p.1.limitProject = q.1.limitProject) ↔
    ∀ r ∈ reqs, ∀ r' ∈ reqs, r.window = w → r'.window = w → r.limitProject = r'.limitProject := by
  simp only [List.mem_filter, decide_eq_true_eq]
  refine ⟨?_, ?_⟩
  · intro h r hr r' hr' hw hw'
    obtain ⟨o, ho⟩ := Transducer.exists_mem_run.mpr hr
    obtain ⟨o', ho'⟩ := Transducer.exists_mem_run.mpr hr'
    exact h (r, o) ⟨ho, hw⟩ (r', o') ⟨ho', hw'⟩
  · rintro h ⟨r, o⟩ ⟨ho, hw⟩ ⟨r', o'⟩ ⟨ho', hw'⟩
    exact h r (Transducer.exists_mem_run.mp ⟨o, ho⟩) r' (Transducer.exists_mem_run.mp ⟨o', ho'⟩)
      hw hw'

theorem passed_le_150_iff {Key : Type} {v : JWTValidator Key} {P : String} {reqs : List Request}
    (hauth : ∀ r ∈ reqs, Authenticated v P r) (hclock : ∀ r ∈ reqs, r.clock < 2 ^ 62)
    (hlen : reqs.length < 2 ^ 62) (w : ℕ) :
    passed (Transducer.run (api v Limiter.new) (fun _ => none) reqs) w ≤ 150 ↔
      (∀ r ∈ reqs, ∀ r' ∈ reqs, r.window = w → r'.window = w →
        r.limitProject = r'.limitProject) ∨
      reqs.countP (·.window = w) ≤ 150 := by
  rw [passed_api hauth]
  have hsize : ((Transducer.run Limiter.new.checkLimit (fun _ => none) reqs).filter
      (·.1.window = w)).length = reqs.countP (·.window = w) := by
    rw [← List.countP_eq_length_filter]
    conv_rhs => rw [← Transducer.run_map_fst Limiter.new.checkLimit (fun _ => none) reqs]
    rw [List.countP_map]
    rfl
  have hiff := Counting.countP_le_iff_of_capped (b := 150) (by decide)
    (capped_checkLimit hclock hlen w)
  rw [one_project_iff, hsize] at hiff
  exact hiff

/-- **The bound and the header.** For a sequence of requests with valid tokens of project `P`, at
most `burst` pass in an aligned window exactly when those of the window all name one project in the
header or there are at most `burst` of them. -/
theorem passed_le_iff {Key : Type} (v : JWTValidator Key) (P : String) (reqs : List Request)
    (hauth : ∀ r ∈ reqs, Authenticated v P r) (hclock : ∀ r ∈ reqs, r.clock < 2 ^ 62)
    (hlen : reqs.length < 2 ^ 62) (w : ℕ) :
    (passed (Transducer.run (api v Limiter.new) (fun _ => none) reqs) w : ℤ) ≤ Limiter.new.burst ↔
      (∀ r ∈ reqs, ∀ r' ∈ reqs, r.window = w → r'.window = w →
        r.limitProject = r'.limitProject) ∨
      (reqs.countP (·.window = w) : ℤ) ≤ Limiter.new.burst := by
  have hburst : Limiter.new.burst = ((150 : ℕ) : ℤ) := rfl
  rw [hburst, Int.ofNat_le, Int.ofNat_le]
  exact passed_le_150_iff hauth hclock hlen w

/-- A validator with one key that accepts the token `t` for project `p`. -/
def oneToken : JWTValidator Unit where
  publicKey := some ()
  parseWithClaims _ token :=
    if token = "t" then .ok (⟨"p", "u", "", []⟩, true) else .error "token is malformed"

/-- Requests of one second that carry the token `t` and name the project `project`. -/
def burstOf (n : ℕ) (project : String) : List Request :=
  List.replicate n ⟨"Bearer t", project, 0⟩

theorem authenticated_burstOf {n : ℕ} {project : String} :
    ∀ r ∈ burstOf n project, Authenticated oneToken "p" r := by
  intro r hr
  rw [List.eq_of_mem_replicate hr]
  exact ⟨⟨"p", "u", "", []⟩, show oneToken.authenticate "Bearer t" = _ by decide, rfl⟩

theorem clock_burstOf {n : ℕ} {project : String} :
    ∀ r ∈ burstOf n project, r.clock < 2 ^ 62 := by
  intro r hr
  rw [List.eq_of_mem_replicate hr]
  show 0 < 2 ^ 62
  decide

/-- Two requests under two header projects. -/
theorem passed_le_iff_two :
    (passed (Transducer.run (api oneToken Limiter.new) (fun _ => none)
        (burstOf 1 "a" ++ burstOf 1 "b")) 0 : ℤ) ≤ Limiter.new.burst ↔
      (∀ r ∈ burstOf 1 "a" ++ burstOf 1 "b", ∀ r' ∈ burstOf 1 "a" ++ burstOf 1 "b",
        r.window = 0 → r'.window = 0 → r.limitProject = r'.limitProject) ∨
      ((burstOf 1 "a" ++ burstOf 1 "b").countP (·.window = 0) : ℤ) ≤ Limiter.new.burst :=
  passed_le_iff oneToken "p" _
    (List.forall_mem_append.mpr ⟨authenticated_burstOf, authenticated_burstOf⟩) (by decide)
    (by decide) 0

/-- **One project, 151 requests.** Requests of project `p` pass 150 times under one header and once
more under another. -/
theorem passed_151 :
    (∀ r ∈ burstOf 150 "a" ++ burstOf 1 "b", Authenticated oneToken "p" r) ∧
      ¬ (passed (Transducer.run (api oneToken Limiter.new) (fun _ => none)
        (burstOf 150 "a" ++ burstOf 1 "b")) 0 : ℤ) ≤ Limiter.new.burst := by
  have hauth : ∀ r ∈ burstOf 150 "a" ++ burstOf 1 "b", Authenticated oneToken "p" r :=
    List.forall_mem_append.mpr ⟨authenticated_burstOf, authenticated_burstOf⟩
  refine ⟨hauth, ?_⟩
  have hburst : Limiter.new.burst = ((150 : ℕ) : ℤ) := rfl
  rw [hburst, Int.ofNat_le, passed_le_150_iff hauth
    (List.forall_mem_append.mpr ⟨clock_burstOf, clock_burstOf⟩) (by simp [burstOf])]
  rintro (hone | hfew)
  · have h := hone ⟨"Bearer t", "a", 0⟩ (by simp [burstOf]) ⟨"Bearer t", "b", 0⟩
      (by simp [burstOf]) rfl rfl
    revert h
    decide
  · rw [burstOf, burstOf, List.countP_append, List.countP_replicate, List.countP_replicate] at hfew
    revert hfew
    decide

end AppGate.LLMProxy
