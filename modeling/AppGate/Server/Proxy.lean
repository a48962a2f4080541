import Mathlib.Algebra.Group.Nat.Defs
import Mathlib.Data.List.Infix
import Mathlib.Tactic.Common

/-!
# Routing and forwarding in the rust-gateway

`route_request` and `handle_proxy` in `rust-gateway/src/server.rs`, `Router::select` in `router.rs`
and `ProxyClient::forward` in `proxy.rs`. Handling a request gives the calls it makes on the
components of `AppState`, in their order, with the response. Parsing of URIs and the upstream
servers are parameters.

* `Router.select`, `forward`, `handleProxy`, `routeRequest`: the code;
* `Forwards`, `handleProxy_calls`, `forward_notMem_routeRequest`: the requests that reach `forward`;
* `Mediated`, **`mediated_iff`**: when a forwarded request has passed the five gates;
* `FaithfulCopy`, **`faithfulCopy_iff`**: when the upstream receives what the client sent.
-/

set_option autoImplicit false

namespace AppGate.RustGateway

/-- The bytes of a body. -/
abbrev Bytes := List UInt8

/-- A header map, in the order of insertion. -/
abbrev Headers := List (String × String)

/-- The bytes of a text. -/
def utf8 (s : String) : Bytes := s.toUTF8.data.toList

/-- A request id. `handle_request` makes it from a UUID, so it is always a valid header value. -/
structure RequestId where
  text : String
  valid : text.toList.all fun c => c.isAlphanum || c = '-'

/-- A request with its body, as `Request::builder` makes it and as the client sends it. -/
structure Request where
  method : String
  uri : String
  headers : Headers
  body : Bytes
  deriving DecidableEq, Repr

/-- A request as hyper delivers it; reading the body may fail. -/
structure Incoming where
  method : String
  path : String
  headers : Headers
  body : Except String Bytes

structure Response where
  status : ℕ
  headers : Headers
  body : Bytes
  deriving DecidableEq, Repr

/-! ## The components -/

structure Route where
  pathPrefix : String
  upstream : String
  provider : String
  deriving DecidableEq, Repr

structure Router where
  defaultUpstream : String
  routes : List Route
  deriving DecidableEq, Repr

/-- `Router::select`: the first route whose prefix matches, else the default. -/
def Router.select (r : Router) (path : String) : Option String :=
  match r.routes.find? fun route => route.pathPrefix.toList.isPrefixOf path.toList with
  | some route => some route.upstream
  | none => some r.defaultUpstream

/-- `ProxyError`. -/
inductive ProxyError where
  | upstream (e : String)
  | internal (e : String)
  deriving DecidableEq, Repr

/-- The texts of `ProxyError`. -/
def ProxyError.text : ProxyError → String
  | .upstream e => "upstream error: " ++ e
  | .internal e => "internal error: " ++ e

/-- The HTTP client of `ProxyClient`: which URLs it can parse, and what the upstream answers. -/
structure ProxyClient where
  parseUrl : String → Except String Unit
  send : Request → Except String (ℕ × Bytes)

/-- `PolicyEngine`, which has no state. -/
structure PolicyEngine where
  deriving DecidableEq, Repr

/-- `PolicyEngine::evaluate`. -/
def PolicyEngine.evaluate (_ : PolicyEngine) (_identity _resource _action : String) : Bool := true

/-- The part of `AppState` that handling a request could consult: the verdicts of the five gates at
the time of the request, the router and the client; and `http`'s parser of URIs. -/
structure AppState where
  jwtValidator : String → Bool
  policyEngine : PolicyEngine
  rateLimiter : String → UInt64 → UInt64 → Bool
  ssrfGuard : String → Bool
  circuitBreaker : String → Bool
  router : Router
  proxyClient : ProxyClient
  parseUri : String → Except String Unit

/-- A call on a component of `AppState`, with its answer where it has one. -/
inductive Call where
  | validate (token : String) (accepted : Bool)
  | evaluate (identity resource action : String) (allowed : Bool)
  | check (identity : String) (limit window : UInt64) (admitted : Bool)
  | validateUrl (url : String) (accepted : Bool)
  | allow (upstream : String) (allowed : Bool)
  | select (path : String)
  | forward (req : Request) (upstreamUrl : String)
  deriving DecidableEq, Repr

/-! ## Forwarding -/

/-- The headers that `forward` copies. -/
def forwardedHeader (key : String) : Bool :=
  key = "authorization" || key = "content-type" || key = "x-request-id" || key = "accept"

/-- The request that `forward` builds: method, URL and the selected headers. -/
def upstreamRequest (req : Request) (upstreamUrl : String) : Request where
  method := req.method
  uri := upstreamUrl
  headers := req.headers.filter fun h => forwardedHeader h.1
  body := []

/-- What `forward` sends: nothing if the client cannot parse the URL. -/
def sent (c : ProxyClient) (req : Request) (upstreamUrl : String) : Option Request :=
  match c.parseUrl upstreamUrl with
  | .ok _ => some (upstreamRequest req upstreamUrl)
  | .error _ => none

/-- `ProxyClient::forward`. The method was parsed before, so `Method::from_bytes` accepts it. -/
def forward (c : ProxyClient) (req : Request) (upstreamUrl : String) :
    Except ProxyError Response :=
  match c.parseUrl upstreamUrl with
  | .error e => .error (.upstream e)
  | .ok _ =>
    match c.send (upstreamRequest req upstreamUrl) with
    | .error e => .error (.upstream e)
    | .ok (status, body) =>
      .ok ⟨status, [("content-type", "application/json"), ("x-appgate-proxy", "1")], body⟩

/-! ## Responses -/

/-- `with_security_headers`. -/
def securityHeaders : Headers :=
  [("x-content-type-options", "nosniff"), ("x-frame-options", "DENY"),
    ("x-xss-protection", "1; mode=block"),
    ("strict-transport-security", "max-age=31536000; includeSubDomains"),
    ("referrer-policy", "strict-origin-when-cross-origin"),
    ("permissions-policy", "geolocation=(), microphone=(), camera=()")]

def healthResponse : Response :=
  ⟨200, securityHeaders ++ [("content-type", "application/json")],
    utf8 "\x7b\"status\":\"healthy\"\x7d"⟩

def readyResponse : Response :=
  ⟨200, securityHeaders ++ [("content-type", "application/json")],
    utf8 "\x7b\"status\":\"ready\"\x7d"⟩

def metricsResponse (metrics : String) : Response :=
  ⟨200, securityHeaders ++ [("content-type", "text/plain; version=0.0.4")], utf8 metrics⟩

def notFoundResponse (requestId : RequestId) : Response :=
  ⟨404, securityHeaders ++ [("content-type", "application/json"), ("x-request-id", requestId.text)],
    utf8 ("\x7b\"error\":\"not_found\"," ++
      "\"message\":\"The requested resource was not found\"\x7d")⟩

/-- The body that `proxy_error_response` formats. -/
def proxyErrorBody (code message requestId : String) : String :=
  "\x7b\"error\":\"" ++ code ++ "\",\"message\":\"" ++ message ++ "\",\"request_id\":\"" ++
    requestId ++ "\"\x7d"

def proxyErrorResponse (status : ℕ) (code message : String) (requestId : RequestId) : Response :=
  ⟨status,
    securityHeaders ++ [("content-type", "application/json"), ("x-request-id", requestId.text)],
    utf8 (proxyErrorBody code message requestId.text)⟩

/-! ## The handler -/

/-- `10 * 1024 * 1024`. -/
def maxBodyBytes : ℕ := 10 * 1024 * 1024

/-- The URL that `handle_proxy` forwards to. -/
def upstreamUrl (st : AppState) (path : String) : String :=
  (st.router.select path).getD "http://localhost:8080"

/-- The request that `handle_proxy` builds for `forward`. -/
def proxyRequest (method url : String) (requestId : RequestId) (body : Bytes) : Request where
  method := method
  uri := url
  headers := [("content-type", "application/json"), ("x-request-id", requestId.text)]
  body := body

/-- `handle_proxy`, with the calls it makes. -/
def handleProxy (st : AppState) (req : Incoming) (requestId : RequestId) :
    List Call × Response :=
  match req.body with
  | .error _ =>
    ([], proxyErrorResponse 400 "bad_request" "Failed to read request body" requestId)
  | .ok body =>
    if body.length > maxBodyBytes then
      ([], proxyErrorResponse 413 "payload_too_large"
        ("Body exceeds " ++ toString maxBodyBytes ++ " bytes") requestId)
    else
      let url := upstreamUrl st req.path
      match st.parseUri url with
      | .error _ =>
        ([.select req.path],
          proxyErrorResponse 500 "internal_error" "Failed to build upstream request" requestId)
      | .ok _ =>
        let proxyReq := proxyRequest req.method url requestId body
        ([.select req.path, .forward proxyReq url],
          match forward st.proxyClient proxyReq url with
          | .ok resp => resp
          | .error e =>
            proxyErrorResponse 502 "upstream_error" ("Upstream request failed: " ++ e.text)
              requestId)

/-- The requests that `route_request` hands to `handle_proxy`. -/
def isProxyRoute (req : Incoming) : Bool :=
  req.method = "POST" && (req.path = "/v1/proxy" || req.path = "/v1/chat/completions")

/-- `route_request`, with the calls it makes; `metrics` is the text `gather_metrics` returns. -/
def routeRequest (st : AppState) (metrics : String) (req : Incoming) (requestId : RequestId) :
    List Call × Response :=
  if req.method = "GET" ∧ (req.path = "/healthz" ∨ req.path = "/health") then ([], healthResponse)
  else if req.method = "GET" ∧ (req.path = "/readyz" ∨ req.path = "/ready") then
    ([], readyResponse)
  else if req.method = "GET" ∧ req.path = "/metrics" then ([], metricsResponse metrics)
  else if isProxyRoute req then handleProxy st req requestId
  else ([], notFoundResponse requestId)

/-! ## The requests that reach `forward` -/

/-- `handle_proxy` accepts the request: its body is read, is not too long, and the URL builds. -/
def Accepts (st : AppState) (req : Incoming) (body : Bytes) : Prop :=
  req.body = .ok body ∧ body.length ≤ maxBodyBytes ∧ st.parseUri (upstreamUrl st req.path) = .ok ()

/-- The request is a POST to a proxy path that `handle_proxy` accepts. -/
def Forwards (st : AppState) (req : Incoming) : Prop :=
  isProxyRoute req = true ∧ ∃ body, Accepts st req body

theorem handleProxy_calls {st : AppState} {req : Incoming} {body : Bytes}
    (h : Accepts st req body) (requestId : RequestId) :
    (handleProxy st req requestId).1 =
      [.select req.path, .forward
        (proxyRequest req.method (upstreamUrl st req.path) requestId body)
        (upstreamUrl st req.path)] := by
  obtain ⟨hb, hl, hu⟩ := h
  simp only [handleProxy, hb, hu, if_neg (Nat.not_lt.mpr hl)]

theorem forward_notMem_handleProxy {st : AppState} {req : Incoming}
    (h : ¬ ∃ body, Accepts st req body) (requestId : RequestId) (r : Request) (url : String) :
    .forward r url ∉ (handleProxy st req requestId).1 := by
  unfold handleProxy
  split
  next => simp
  next body hb =>
    split_ifs with hl
    · simp
    · dsimp only
      split
      next => simp
      next u hu => exact absurd ⟨body, hb, Nat.not_lt.mp hl, hu⟩ h

theorem routeRequest_of_isProxyRoute {req : Incoming} (h : isProxyRoute req = true) (st : AppState)
    (metrics : String) (requestId : RequestId) :
    routeRequest st metrics req requestId = handleProxy st req requestId := by
  have hm : req.method = "POST" := by
    simp only [isProxyRoute, Bool.and_eq_true, decide_eq_true_eq] at h
    exact h.1
  simp [routeRequest, h, hm]

theorem forward_notMem_routeRequest {st : AppState} {req : Incoming} (h : ¬ Forwards st req)
    (metrics : String) (requestId : RequestId) (r : Request) (url : String) :
    .forward r url ∉ (routeRequest st metrics req requestId).1 := by
  by_cases hp : isProxyRoute req = true
  · rw [routeRequest_of_isProxyRoute hp]
    exact forward_notMem_handleProxy (fun ha => h ⟨hp, ha⟩) requestId r url
  · unfold routeRequest
    split_ifs <;> simp

/-! ## Mediation -/

/-- The token of an `Authorization: Bearer` header. -/
def Incoming.bearer (req : Incoming) : Option String :=
  (req.headers.lookup "authorization").bind fun value =>
    if "Bearer ".toList.isPrefixOf value.toList then some (String.ofList (value.toList.drop 7))
    else none

/-- The request carried an accepted token, and the other four gates were called and let it pass. -/
structure Gated (st : AppState) (req : Incoming) (before : List Call) (url : String) : Prop where
  token : ∃ token, req.bearer = some token ∧ st.jwtValidator token = true
  policy : ∃ identity resource action, .evaluate identity resource action true ∈ before
  rate : ∃ identity limit window, .check identity limit window true ∈ before
  ssrf : .validateUrl url true ∈ before
  breaker : .allow url true ∈ before

/-- Whenever `forward` is called, the gates were passed before. -/
def Mediated (st : AppState) (req : Incoming) (calls : List Call) : Prop :=
  ∀ before r url after, calls = before ++ .forward r url :: after → Gated st req before url

/-- **Only requests that are not forwarded are mediated.** Handling a request passes the five gates
before `forward` exactly when it does not call `forward`. -/
theorem mediated_iff (st : AppState) (metrics : String) (req : Incoming) (requestId : RequestId) :
    Mediated st req (routeRequest st metrics req requestId).1 ↔ ¬ Forwards st req := by
  constructor
  · rintro hm ⟨hp, body, ha⟩
    rw [routeRequest_of_isProxyRoute hp, handleProxy_calls ha] at hm
    -- the only call before `forward` is that of the router
    have hg := hm [.select req.path] _ _ [] rfl
    obtain ⟨identity, resource, action, hmem⟩ := hg.policy
    simp at hmem
  · intro hf before r url after hc
    refine absurd ?_ (forward_notMem_routeRequest hf metrics requestId r url)
    rw [hc]
    simp

/-- A state whose gates refuse whatever they can refuse, with one upstream. -/
def denyingState : AppState where
  jwtValidator _ := false
  policyEngine := ⟨⟩
  rateLimiter _ _ _ := false
  ssrfGuard _ := false
  circuitBreaker _ := false
  router := ⟨"http://127.0.0.1:9000", []⟩
  proxyClient := ⟨fun _ => .ok (), fun _ => .ok (200, [])⟩
  parseUri _ := .ok ()

/-- A chat request without credentials. -/
def anonymousRequest : Incoming := ⟨"POST", "/v1/chat/completions", [], .ok [123, 125]⟩

/-- A request without a token is forwarded to a loopback address that the guard refuses. -/
theorem anonymous_request_is_forwarded :
    ¬ Mediated denyingState anonymousRequest
      (routeRequest denyingState "" anonymousRequest ⟨"r-1", by decide⟩).1 := by
  intro h
  have hg := h [.select "/v1/chat/completions"]
    (proxyRequest "POST" "http://127.0.0.1:9000" ⟨"r-1", by decide⟩ [123, 125])
    "http://127.0.0.1:9000" [] rfl
  obtain ⟨token, ht, -⟩ := hg.token
  cases ht

/-! ## Fidelity -/

/-- The requests that a list of calls sends to an upstream. -/
def outgoing (c : ProxyClient) (calls : List Call) : List Request :=
  calls.filterMap fun call =>
    match call with
    | .forward req url => sent c req url
    | _ => none

/-- The upstream request has the method and the body received, and the two headers set. -/
structure FaithfulCopy (req : Incoming) (body : Bytes) (requestId : RequestId) (out : Request) :
    Prop where
  method : out.method = req.method
  body : out.body = body
  contentType : ("content-type", "application/json") ∈ out.headers
  requestId : ("x-request-id", requestId.text) ∈ out.headers

theorem outgoing_handleProxy {st : AppState} {req : Incoming} {body : Bytes}
    (h : Accepts st req body) (requestId : RequestId)
    (hu : st.proxyClient.parseUrl (upstreamUrl st req.path) = .ok ()) :
    outgoing st.proxyClient (handleProxy st req requestId).1 =
      [upstreamRequest (proxyRequest req.method (upstreamUrl st req.path) requestId body)
        (upstreamUrl st req.path)] := by
  rw [handleProxy_calls h]
  simp [outgoing, sent, hu]

/-- **The body does not survive.** Every accepted request gives one upstream request, and it is what
`handle_proxy` received exactly when the body is empty. -/
theorem faithfulCopy_iff {st : AppState} {req : Incoming} {body : Bytes}
    (h : Accepts st req body) (requestId : RequestId)
    (hu : st.proxyClient.parseUrl (upstreamUrl st req.path) = .ok ()) :
    ∃ out, outgoing st.proxyClient (handleProxy st req requestId).1 = [out] ∧
      (FaithfulCopy req body requestId out ↔ body = []) := by
  refine ⟨_, outgoing_handleProxy h requestId hu, fun hc => hc.body.symm, ?_⟩
  rintro rfl
  constructor
  · rfl
  · rfl
  · simp [upstreamRequest, proxyRequest, forwardedHeader]
  · simp [upstreamRequest, proxyRequest, forwardedHeader]

theorem faithfulCopy_iff_empty_post :
    ∃ out, outgoing denyingState.proxyClient
        (handleProxy denyingState ⟨"POST", "/v1/proxy", [], .ok []⟩ ⟨"r-1", by decide⟩).1 = [out] ∧
      FaithfulCopy ⟨"POST", "/v1/proxy", [], .ok []⟩ [] ⟨"r-1", by decide⟩ out := by
  obtain ⟨out, ho, hc⟩ := @faithfulCopy_iff denyingState ⟨"POST", "/v1/proxy", [], .ok []⟩ []
    ⟨rfl, by decide, rfl⟩ ⟨"r-1", by decide⟩ rfl
  exact ⟨out, ho, hc.mpr rfl⟩

/-- The two bytes of a chat request do not reach the upstream. -/
theorem chat_body_is_dropped :
    ∃ out, outgoing denyingState.proxyClient
        (handleProxy denyingState anonymousRequest ⟨"r-1", by decide⟩).1 = [out] ∧
      anonymousRequest.body = .ok [123, 125] ∧ out.body = [] ∧
      ¬ FaithfulCopy anonymousRequest [123, 125] ⟨"r-1", by decide⟩ out :=
  ⟨_, rfl, rfl, rfl, fun h => by cases h.body⟩

end AppGate.RustGateway
