import AppGate.Lib.Counting
import AppGate.Lib.Machine
import AppGate.Server.Proxy

/-!
# Answers, access log and metrics of the rust-gateway

`handle_request` in `rust-gateway/src/server.rs` routes a request, writes one line to the access log
and calls `record_request` of `metrics.rs`, which counts the request and then observes its duration.
Requests are handled at the same time on several threads; a request whose client goes away is
dropped while it is routed.

* `FromUpstream`, **`secured_iff`**: which answers carry the security headers;
* `Phase`, `Task`, `step`, `gateway`: any number of requests, interleaved at every effect;
* `Recorded`, `recorded_step`, **`metrics_follow_log`**: log, counter and histogram agree.
-/

set_option autoImplicit false

namespace AppGate.RustGateway

open Lts

/-! ## Security headers -/

/-- The response has every header that `with_security_headers` sets. -/
def Secured (resp : Response) : Prop := securityHeaders ⊆ resp.headers

instance (resp : Response) : Decidable (Secured resp) :=
  inferInstanceAs (Decidable (securityHeaders ⊆ resp.headers))

/-- The answer is the one of an upstream. -/
def FromUpstream (st : AppState) (req : Incoming) (requestId : RequestId) (status : ℕ)
    (body : Bytes) : Prop :=
  isProxyRoute req = true ∧ ∃ sentBody, Accepts st req sentBody ∧
    st.proxyClient.parseUrl (upstreamUrl st req.path) = .ok () ∧
    st.proxyClient.send (upstreamRequest
      (proxyRequest req.method (upstreamUrl st req.path) requestId sentBody)
      (upstreamUrl st req.path)) = .ok (status, body)

theorem secured_append (status : ℕ) (headers : Headers) (body : Bytes) :
    Secured ⟨status, securityHeaders ++ headers, body⟩ :=
  List.subset_append_left _ _

theorem forward_eq_ok {c : ProxyClient} {req : Request} {url : String} {resp : Response}
    (h : forward c req url = .ok resp) :
    c.parseUrl url = .ok () ∧ c.send (upstreamRequest req url) = .ok (resp.status, resp.body) ∧
      resp.headers = [("content-type", "application/json"), ("x-appgate-proxy", "1")] := by
  unfold forward at h
  split at h
  next => cases h
  next u hu =>
    split at h
    next => cases h
    next status body hs =>
      cases h
      exact ⟨hu, hs, rfl⟩

theorem forward_of_send {c : ProxyClient} {req : Request} {url : String} {status : ℕ} {body : Bytes}
    (hu : c.parseUrl url = .ok ()) (hs : c.send (upstreamRequest req url) = .ok (status, body)) :
    forward c req url =
      .ok ⟨status, [("content-type", "application/json"), ("x-appgate-proxy", "1")], body⟩ := by
  simp only [forward, hu, hs]

/-- An answer of `handle_proxy` is secured, or it is the upstream's. -/
theorem handleProxy_cases (st : AppState) (req : Incoming) (requestId : RequestId) :
    Secured (handleProxy st req requestId).2 ∨ ∃ body, Accepts st req body ∧
      forward st.proxyClient (proxyRequest req.method (upstreamUrl st req.path) requestId body)
        (upstreamUrl st req.path) = .ok (handleProxy st req requestId).2 := by
  unfold handleProxy
  split
  next => exact .inl (secured_append _ _ _)
  next body hb =>
    split_ifs with hl
    · exact .inl (secured_append _ _ _)
    · dsimp only
      split
      next => exact .inl (secured_append _ _ _)
      next u hu =>
        split
        next resp hf => exact .inr ⟨body, ⟨hb, Nat.not_lt.mp hl, hu⟩, hf⟩
        next => exact .inl (secured_append _ _ _)

/-- **Which answers carry the security headers.** An answer has all of them exactly when it is not
the answer of an upstream; that one has the status and the body of the upstream and no header of
`with_security_headers`. -/
theorem secured_iff (st : AppState) (metrics : String) (req : Incoming) (requestId : RequestId) :
    (Secured (routeRequest st metrics req requestId).2 ↔
      ¬ ∃ status body, FromUpstream st req requestId status body) ∧
    ∀ status body, FromUpstream st req requestId status body →
      (routeRequest st metrics req requestId).2 =
        ⟨status, [("content-type", "application/json"), ("x-appgate-proxy", "1")], body⟩ := by
  have hanswer : ∀ status body, FromUpstream st req requestId status body →
      (routeRequest st metrics req requestId).2 =
        ⟨status, [("content-type", "application/json"), ("x-appgate-proxy", "1")], body⟩ := by
    rintro status body ⟨hp, sentBody, ⟨hb, hl, huri⟩, hu, hs⟩
    rw [routeRequest_of_isProxyRoute hp]
    simp only [handleProxy, hb, if_neg (Nat.not_lt.mpr hl), huri, forward_of_send hu hs]
  refine ⟨⟨?_, fun hno => ?_⟩, hanswer⟩
  · rintro hsec ⟨status, body, hup⟩
    rw [Secured, hanswer status body hup] at hsec
    revert hsec
    simp [securityHeaders]
  · by_cases hp : isProxyRoute req = true
    · rw [routeRequest_of_isProxyRoute hp]
      rcases handleProxy_cases st req requestId with h | ⟨body, ha, hf⟩
      · exact h
      · obtain ⟨hu, hs, -⟩ := forward_eq_ok hf
        exact absurd ⟨_, _, hp, body, ha, hu, hs⟩ hno
    · unfold routeRequest
      split_ifs <;> exact secured_append _ _ _

/-! ## Requests in flight -/

/-- A line of the access log, without the duration and the peer. -/
structure Line where
  method : String
  path : String
  status : ℕ
  requestId : String
  deriving DecidableEq, Repr

/-- Where `handle_request` is. -/
inductive Phase where
  /-- In `route_request`. -/
  | routing
  /-- Before the line of the access log. -/
  | routed (resp : Response)
  /-- In `record_request`, before the counter. -/
  | logged (resp : Response)
  /-- In `record_request`, before the histogram. -/
  | counted (resp : Response)
  | answered (resp : Response)
  /-- The connection is gone, and the future with it. -/
  | dropped
  deriving DecidableEq, Repr

/-- The response of `route_request`, once it has returned. -/
def Phase.response : Phase → Option Response
  | .routing => none
  | .routed resp => some resp
  | .logged resp => some resp
  | .counted resp => some resp
  | .answered resp => some resp
  | .dropped => none

structure Task where
  req : Incoming
  requestId : RequestId
  phase : Phase

/-- The line that `handle_request` writes for a response. -/
def lineOf (req : Incoming) (requestId : RequestId) (resp : Response) : Line :=
  ⟨req.method, req.path, resp.status, requestId.text⟩

def Task.logged : Task → Option Line
  | ⟨req, requestId, .logged resp⟩ => some (lineOf req requestId resp)
  | ⟨req, requestId, .counted resp⟩ => some (lineOf req requestId resp)
  | ⟨req, requestId, .answered resp⟩ => some (lineOf req requestId resp)
  | _ => none

def Task.counted : Task → Option Line
  | ⟨req, requestId, .counted resp⟩ => some (lineOf req requestId resp)
  | ⟨req, requestId, .answered resp⟩ => some (lineOf req requestId resp)
  | _ => none

def Task.answered : Task → Option Line
  | ⟨req, requestId, .answered resp⟩ => some (lineOf req requestId resp)
  | _ => none

/-- The requests, the log and the two metrics, by their labels. -/
structure State where
  tasks : List Task
  log : List Line
  requestsTotal : String → String → ℕ
  requestDuration : String → ℕ

inductive Act where
  /-- hyper calls `handle_request`. -/
  | arrive (req : Incoming) (requestId : RequestId)
  /-- `route_request` returns, with the state of the components and the text of the metrics. -/
  | route (task : ℕ) (st : AppState) (metrics : String)
  | log (task : ℕ)
  | count (task : ℕ)
  | observe (task : ℕ)
  /-- hyper drops the future at an `await` of `route_request`. -/
  | drop (task : ℕ)

/-- `with_label_values(&[endpoint, status]).inc()`. -/
def inc (f : String → String → ℕ) (endpoint status : String) : String → String → ℕ :=
  fun e s => if e = endpoint ∧ s = status then f e s + 1 else f e s

/-- `with_label_values(&[endpoint]).observe(..)`: how many observations there are. -/
def observe (f : String → ℕ) (endpoint : String) : String → ℕ :=
  fun e => if e = endpoint then f e + 1 else f e

def step (s : State) : Act → Option State
  | .arrive req requestId => some { s with tasks := s.tasks ++ [⟨req, requestId, .routing⟩] }
  | .route task st metrics =>
    match s.tasks[task]? with
    | some ⟨req, requestId, .routing⟩ =>
      some { s with
        tasks := s.tasks.set task
          ⟨req, requestId, .routed (routeRequest st metrics req requestId).2⟩ }
    | _ => none
  | .log task =>
    match s.tasks[task]? with
    | some ⟨req, requestId, .routed resp⟩ =>
      some { s with
        tasks := s.tasks.set task ⟨req, requestId, .logged resp⟩
        log := s.log ++ [lineOf req requestId resp] }
    | _ => none
  | .count task =>
    match s.tasks[task]? with
    | some ⟨req, requestId, .logged resp⟩ =>
      some { s with
        tasks := s.tasks.set task ⟨req, requestId, .counted resp⟩
        requestsTotal := inc s.requestsTotal req.path (toString resp.status) }
    | _ => none
  | .observe task =>
    match s.tasks[task]? with
    | some ⟨req, requestId, .counted resp⟩ =>
      some { s with
        tasks := s.tasks.set task ⟨req, requestId, .answered resp⟩
        requestDuration := observe s.requestDuration req.path }
    | _ => none
  | .drop task =>
    match s.tasks[task]? with
    | some ⟨req, requestId, .routing⟩ =>
      some { s with tasks := s.tasks.set task ⟨req, requestId, .dropped⟩ }
    | _ => none

def gateway : Machine State Act := ⟨⟨[], [], fun _ _ => 0, fun _ => 0⟩, step⟩

/-- The line is counted under these labels. -/
def Line.labelled (endpoint status : String) (line : Line) : Bool :=
  line.path = endpoint && toString line.status = status

/-! ## What a step keeps -/

structure Recorded (s : State) : Prop where
  log : s.log.Perm (s.tasks.filterMap Task.logged)
  total : ∀ endpoint status, s.requestsTotal endpoint status =
    (s.tasks.filterMap Task.counted).countP (Line.labelled endpoint status)
  duration : ∀ endpoint, s.requestDuration endpoint =
    (s.tasks.filterMap Task.answered).countP fun line => line.path = endpoint
  routed : ∀ t ∈ s.tasks, ∀ resp, t.phase.response = some resp →
    ∃ st metrics, resp = (routeRequest st metrics t.req t.requestId).2

theorem recorded_init : Recorded gateway.init where
  log := .refl []
  total _ _ := rfl
  duration _ := rfl
  routed _ h := absurd h List.not_mem_nil

/-- The tasks after one of them went on. -/
theorem routed_set {s : State} (h : Recorded s) {i : ℕ} {t : Task}
    (ht : ∀ resp, t.phase.response = some resp →
      ∃ st metrics, resp = (routeRequest st metrics t.req t.requestId).2) :
    ∀ t' ∈ s.tasks.set i t, ∀ resp, t'.phase.response = some resp →
      ∃ st metrics, resp = (routeRequest st metrics t'.req t'.requestId).2 := by
  intro t' hmem
  rcases List.mem_or_eq_of_mem_set hmem with hmem | rfl
  · exact h.routed t' hmem
  · exact ht

section

variable {tasks : List Task} {i : ℕ} {t t' : Task} {log : List Line} {f : String → String → ℕ}
  {d : String → ℕ} (ht : tasks[i]? = some t)

include ht

theorem log_set (h : log.Perm (tasks.filterMap Task.logged)) (hl : t'.logged = t.logged) :
    log.Perm ((tasks.set i t').filterMap Task.logged) := by
  rw [Counting.filterMap_set ht hl]
  exact h

/-- The log after a task has written its line. -/
theorem log_append {line : Line} (h : log.Perm (tasks.filterMap Task.logged))
    (hnone : t.logged = none) (hsome : t'.logged = some line) :
    (log ++ [line]).Perm ((tasks.set i t').filterMap Task.logged) :=
  (h.append_right _).trans (Counting.filterMap_set_perm ht hnone hsome).symm

theorem total_set
    (h : ∀ endpoint status, f endpoint status =
      (tasks.filterMap Task.counted).countP (Line.labelled endpoint status))
    (hc : t'.counted = t.counted) (endpoint status : String) :
    f endpoint status =
      ((tasks.set i t').filterMap Task.counted).countP (Line.labelled endpoint status) := by
  rw [Counting.filterMap_set ht hc]
  exact h endpoint status

theorem duration_set
    (h : ∀ endpoint, d endpoint =
      (tasks.filterMap Task.answered).countP fun line => line.path = endpoint)
    (ha : t'.answered = t.answered) (endpoint : String) :
    d endpoint =
      ((tasks.set i t').filterMap Task.answered).countP fun line => line.path = endpoint := by
  rw [Counting.filterMap_set ht ha]
  exact h endpoint

/-- The counter after a task has counted its line. -/
theorem total_inc {line : Line}
    (h : ∀ endpoint status, f endpoint status =
      (tasks.filterMap Task.counted).countP (Line.labelled endpoint status))
    (hnone : t.counted = none) (hsome : t'.counted = some line) (endpoint status : String) :
    inc f line.path (toString line.status) endpoint status =
      ((tasks.set i t').filterMap Task.counted).countP (Line.labelled endpoint status) := by
  rw [(Counting.filterMap_set_perm ht hnone hsome).countP_eq, List.countP_append,
    List.countP_singleton, inc, h, Line.labelled]
  by_cases he : endpoint = line.path <;> by_cases hs : status = toString line.status <;>
    simp only [he, hs, eq_comm, and_self, and_true, and_false, if_true, if_false, decide_true,
      decide_false, Bool.and_true, Bool.and_false, Bool.false_eq_true, Nat.add_zero]

/-- The histogram after a task has observed its duration. -/
theorem duration_observe {line : Line}
    (h : ∀ endpoint, d endpoint =
      (tasks.filterMap Task.answered).countP fun line => line.path = endpoint)
    (hnone : t.answered = none) (hsome : t'.answered = some line) (endpoint : String) :
    observe d line.path endpoint =
      ((tasks.set i t').filterMap Task.answered).countP fun line => line.path = endpoint := by
  rw [(Counting.filterMap_set_perm ht hnone hsome).countP_eq, List.countP_append,
    List.countP_singleton, observe, h]
  by_cases he : endpoint = line.path <;> simp [he, eq_comm]

end

/-- A request that arrives adds to neither the log nor the metrics. -/
theorem recorded_arrive {s : State} (h : Recorded s) (req : Incoming) (requestId : RequestId) :
    Recorded { s with tasks := s.tasks ++ [⟨req, requestId, .routing⟩] } := by
  have hnew {f : Task → Option Line} (hf : f ⟨req, requestId, .routing⟩ = none) :
      (s.tasks ++ [(⟨req, requestId, .routing⟩ : Task)]).filterMap f = s.tasks.filterMap f := by
    rw [List.filterMap_append, List.filterMap_cons, hf, List.filterMap_nil, List.append_nil]
  have hlogged : Task.logged ⟨req, requestId, .routing⟩ = none := rfl
  have hcounted : Task.counted ⟨req, requestId, .routing⟩ = none := rfl
  have hanswered : Task.answered ⟨req, requestId, .routing⟩ = none := rfl
  refine ⟨?_, fun endpoint status => ?_, fun endpoint => ?_, fun t ht resp hr => ?_⟩
  · rw [hnew hlogged]
    exact h.log
  · rw [hnew hcounted]
    exact h.total endpoint status
  · rw [hnew hanswered]
    exact h.duration endpoint
  · rcases List.mem_append.mp ht with ht | ht
    · exact h.routed t ht resp hr
    · rw [List.mem_singleton.mp ht] at hr
      cases hr

theorem recorded_step (s : State) (a : Act) (t : State) (h : Recorded s)
    (hst : gateway.step s a = some t) : Recorded t := by
  cases a with
  | arrive req requestId =>
      cases hst
      exact recorded_arrive h req requestId
  | route task st metrics =>
      simp only [gateway, step] at hst
      split at hst
      next req requestId ht =>
        cases hst
        refine ⟨log_set ht h.log rfl, total_set ht h.total rfl, duration_set ht h.duration rfl,
          routed_set h ?_⟩
        · intro resp hr
          cases hr
          exact ⟨st, metrics, rfl⟩
      next => cases hst
  | log task =>
      simp only [gateway, step] at hst
      split at hst
      next req requestId resp ht =>
        cases hst
        have hrouted := h.routed _ (List.mem_of_getElem? ht)
        refine ⟨?_, total_set ht h.total rfl, duration_set ht h.duration rfl, routed_set h ?_⟩
        · exact log_append ht h.log rfl rfl
        · exact hrouted
      next => cases hst
  | count task =>
      simp only [gateway, step] at hst
      split at hst
      next req requestId resp ht =>
        cases hst
        have hrouted := h.routed _ (List.mem_of_getElem? ht)
        refine ⟨log_set ht h.log rfl, ?_, duration_set ht h.duration rfl, routed_set h ?_⟩
        · intro endpoint status
          have hsome : Task.counted ⟨req, requestId, .counted resp⟩ =
              some (lineOf req requestId resp) := rfl
          exact total_inc ht h.total rfl hsome endpoint status
        · exact hrouted
      next => cases hst
  | observe task =>
      simp only [gateway, step] at hst
      split at hst
      next req requestId resp ht =>
        cases hst
        have hrouted := h.routed _ (List.mem_of_getElem? ht)
        refine ⟨log_set ht h.log rfl, total_set ht h.total rfl, ?_, routed_set h ?_⟩
        · intro endpoint
          have hsome : Task.answered ⟨req, requestId, .answered resp⟩ =
              some (lineOf req requestId resp) := rfl
          exact duration_observe ht h.duration rfl hsome endpoint
        · exact hrouted
      next => cases hst
  | drop task =>
      simp only [gateway, step] at hst
      split at hst
      next req requestId ht =>
        cases hst
        refine ⟨log_set ht h.log rfl, total_set ht h.total rfl, duration_set ht h.duration rfl,
          routed_set h ?_⟩
        · intro resp hr
          cases hr
      next => cases hst

theorem recorded_of_reach {s : State} (hs : gateway.Reach s) : Recorded s :=
  Machine.inv_reach recorded_init recorded_step hs

theorem logged_of_counted {t : Task} {line : Line} (h : t.counted = some line) :
    t.logged = some line := by
  obtain ⟨req, requestId, phase⟩ := t
  cases phase <;> first | exact h | cases h

theorem counted_of_answered {t : Task} {line : Line} (h : t.answered = some line) :
    t.counted = some line := by
  obtain ⟨req, requestId, phase⟩ := t
  cases phase <;> first | exact h | cases h

theorem countP_filterMap_le {tasks : List Task} {f g : Task → Option Line}
    (h : ∀ t line, f t = some line → g t = some line) (p : Line → Bool) :
    (tasks.filterMap f).countP p ≤ (tasks.filterMap g).countP p := by
  rw [List.countP_filterMap, List.countP_filterMap]
  apply List.countP_mono_left
  intro t _ ht
  cases hf : f t with
  | none => simp [hf] at ht
  | some line => simpa [hf, h t line hf] using ht

/-- No request is between its line in the log and its observation. -/
def Quiet (s : State) : Prop := ∀ t ∈ s.tasks, t.logged = t.answered

/-- **Log, counter and histogram agree.** With any number of requests in flight, in any
interleaving and with any of them dropped: neither metric is ahead of the log; when no request is
between its line and its observation, the counter of each endpoint and status and the histogram of
each endpoint have exactly the requests of the log; and the log has exactly one line for each
request that was answered, with the status of what `route_request` returned. -/
theorem metrics_follow_log {s : State} (hs : gateway.Reach s) :
    (∀ endpoint status,
      s.requestsTotal endpoint status ≤ s.log.countP (Line.labelled endpoint status)) ∧
    (∀ endpoint, s.requestDuration endpoint ≤ s.log.countP fun line => line.path = endpoint) ∧
    (Quiet s →
      (∀ endpoint status,
        s.requestsTotal endpoint status = s.log.countP (Line.labelled endpoint status)) ∧
      (∀ endpoint, s.requestDuration endpoint = s.log.countP fun line => line.path = endpoint) ∧
      s.log.Perm (s.tasks.filterMap Task.answered)) ∧
    ∀ t ∈ s.tasks, ∀ resp, t.phase = .answered resp →
      ∃ st metrics, resp = (routeRequest st metrics t.req t.requestId).2 := by
  have h := recorded_of_reach hs
  refine ⟨fun endpoint status => ?_, fun endpoint => ?_, fun hq => ?_, fun t ht resp hr => ?_⟩
  · rw [h.total, h.log.countP_eq]
    exact countP_filterMap_le (fun _ _ => logged_of_counted) _
  · rw [h.duration, h.log.countP_eq]
    exact countP_filterMap_le (fun _ _ ha => logged_of_counted (counted_of_answered ha)) _
  · have hlogged : s.tasks.filterMap Task.logged = s.tasks.filterMap Task.answered :=
      List.filterMap_congr hq
    have hcounted : s.tasks.filterMap Task.counted = s.tasks.filterMap Task.answered := by
      apply List.filterMap_congr
      intro t ht
      cases ha : t.answered with
      | some line => exact counted_of_answered ha
      | none =>
          cases hc : t.counted with
          | none => rfl
          | some line =>
              have hl := logged_of_counted hc
              rw [hq t ht, ha] at hl
              cases hl
    refine ⟨fun endpoint status => ?_, fun endpoint => ?_, ?_⟩
    · rw [h.total, h.log.countP_eq, hlogged, hcounted]
    · rw [h.duration, h.log.countP_eq, hlogged]
    · exact hlogged ▸ h.log
  · exact h.routed t ht resp (by rw [hr]; rfl)

/-- A health check that is answered, and a chat request that is dropped. -/
def answeredRun : List Act :=
  [.arrive ⟨"GET", "/healthz", [], .ok []⟩ ⟨"r-1", by decide⟩,
    .arrive anonymousRequest ⟨"r-2", by decide⟩, .route 0 denyingState "", .log 0, .drop 1,
    .count 0, .observe 0]

theorem metrics_follow_log_answered : ∃ s, gateway.Reach s ∧
    s.requestsTotal "/healthz" "200" = 1 ∧
    s.requestsTotal "/healthz" "200" ≤ s.log.countP (Line.labelled "/healthz" "200") :=
  ⟨_, ⟨answeredRun, rfl⟩, by decide, (metrics_follow_log ⟨answeredRun, rfl⟩).1 _ _⟩

end AppGate.RustGateway
