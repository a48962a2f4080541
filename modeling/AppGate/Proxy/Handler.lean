import AppGate.Audit.Logger
import AppGate.Lib.Binary64
import AppGate.Lib.NetHttp
import AppGate.RateLimit.Proxy

/-!
# The handler of the proxy

`LLMProxy` in `internal/proxy/handler.go` with the middlewares of `internal/auth/jwt.go` and
`internal/ratelimit/limiter.go`: from the routes to the request sent upstream and the audit call.
The token library, the key parsers, the JSON codec and the parser of URLs are parameters; the times,
the outcome of Redis, the map order and the upstream's answer are inputs of a request.

* `parseWithClaims`, `keyFunc`, `newJWTValidator`: tokens and the configured key;
* `clampMaxTokens`, `selectUpstream`, `rewrite`, `extractUsage`, `handleChatCompletions`;
* `newLLMProxy`, `serveHTTP`: construction and routes;
* `Completes`, **`audited_iff`**: when a chat request is audited exactly once.
-/

set_option autoImplicit false

namespace AppGate.LLMProxy

open NetHttp

/-! ## Tokens -/

/-- The types of `token.Method`. -/
inductive SigningMethod where
  | hmac
  | rsa
  | rsaPSS
  | ecdsa
  | ed25519
  | unsecured
  deriving DecidableEq, Repr

/-- A decoded token: the method and name of its algorithm, its claims, whether the signature
verifies under a key, and whether `exp` and `nbf` allow a time in milliseconds. -/
structure Token (Key : Type) where
  method : SigningMethod
  alg : String
  claims : Claims
  verify : Key → Bool
  timely : ℕ → Bool

/-- `jwt.ParseWithClaims` behind its decoder: key function, signature, then claims. It returns the
claims and `token.Valid`. -/
def parseWithClaims {Key : Type} (decode : String → Except String (Token Key)) (clock : ℕ)
    (keyFunc : Token Key → Except String Key) (tokenStr : String) :
    Except String (Claims × Bool) :=
  match decode tokenStr with
  | .error e => .error e
  | .ok token =>
    match keyFunc token with
    | .error e => .error ("token is unverifiable: error while executing keyfunc: " ++ e)
    | .ok key =>
      if token.verify key then
        if token.timely clock then .ok (token.claims, true)
        else .error "token has invalid claims"
      else .error "token signature is invalid"

/-- The key function of `JWTValidator.Middleware`. -/
def keyFunc {Key : Type} (publicKey : Key) (token : Token Key) : Except String Key :=
  match token.method with
  | .rsa => .ok publicKey
  | .ecdsa => .ok publicKey
  | _ => .error ("unexpected signing method: " ++ token.alg)

/-- The types of public keys. -/
inductive KeyKind where
  | rsa
  | ecdsa
  | other (name : String)
  deriving DecidableEq, Repr

/-- `encoding/pem` and `crypto/x509`: the type and the bytes of a PEM block, and the parsers. -/
structure X509 (Key : Type) where
  decode : String → Option (String × Bytes)
  parsePKIXPublicKey : Bytes → Except String Key
  parsePKCS1PublicKey : Bytes → Except String Key
  parseCertificate : Bytes → Except String Key
  kind : Key → KeyKind

/-- An error with the text in front of it that `fmt.Errorf` adds. -/
def wrap {α : Type} (text : String) : Except String α → Except String α
  | .error e => .error (text ++ e)
  | .ok a => .ok a

/-- `NewJWTValidator`: the key it keeps, none for an empty PEM. -/
def newJWTValidator {Key : Type} (x : X509 Key) (pemStr : String) : Except String (Option Key) :=
  if pemStr = "" then .ok none
  else
    match x.decode pemStr with
    | none => .error "failed to decode PEM block"
    | some (type, bytes) => do
      let key ←
        if type = "PUBLIC KEY" then wrap "parse public key: " (x.parsePKIXPublicKey bytes)
        else if type = "RSA PUBLIC KEY" then
          wrap "parse public key: " (x.parsePKCS1PublicKey bytes)
        else if type = "CERTIFICATE" then wrap "parse certificate: " (x.parseCertificate bytes)
        else .error ("unsupported PEM block type: " ++ type)
      match x.kind key with
      | .rsa => .ok (some key)
      | .ecdsa => .ok (some key)
      | .other name => .error ("unsupported key type: " ++ name)

/-! ## The limiter -/

/-- What `pipe.Exec` of `checkLimit` gives on its counter: the count, or the error of a command. -/
def Limiter.pipeline (l : Limiter) (k : Option (Redis.Slot ℤ)) (clock : ℕ) : Except String ℤ :=
  match Redis.incr clock k with
  | .error e => .error e
  | .ok (count, k) =>
    match Redis.expire clock (l.window + 1) k with
    | .error e => .error e
    | .ok _ => .ok count

/-- `checkLimit` after `pipe.Exec`, whose error may also be one of the connection. -/
def Limiter.verdict (l : Limiter) (pipeline : Except String ℤ) (clock : ℕ) : Verdict :=
  match pipeline with
  | .error _ => ⟨true, 0, 0⟩
  | .ok count =>
    ⟨count ≤ l.burst, if l.rps - count < 0 then 0 else l.rps - count, clock / 1000 + l.window⟩

/-- The counter of a reachable Redis gives the verdict of `checkKey`. -/
theorem checkKey_fst (l : Limiter) (k : Option (Redis.Slot ℤ)) (clock : ℕ) :
    (l.checkKey k clock).1 = l.verdict (l.pipeline k clock) clock := by
  unfold Limiter.checkKey Limiter.pipeline
  cases Redis.incr clock k with
  | error e => cases Redis.expire clock (l.window + 1) k <;> rfl
  | ok p => cases h : Redis.expire clock (l.window + 1) p.2 <;> simp [Limiter.verdict, h]

/-- `Limiter.Middleware` after `checkLimit`. -/
def Limiter.reply (l : Limiter) (claims : Claims) (v : Verdict) : Reply :=
  if v.allowed then
    .next claims [("X-RateLimit-Limit", toString l.rps),
      ("X-RateLimit-Remaining", toString v.remaining)]
  else
    .reject (httpError "\x7b\"error\":\"rate limit exceeded\"\x7d" 429
      [("X-RateLimit-Limit", toString l.rps), ("X-RateLimit-Remaining", "0"),
        ("X-RateLimit-Reset", toString v.reset)])

theorem middleware_fst (l : Limiter) (claims : Claims) (db : Redis.Db String ℤ) (r : Request) :
    (l.middleware claims db r).1 = l.reply claims (l.checkLimit db r).1 := by
  unfold Limiter.middleware Limiter.reply
  dsimp only
  split_ifs <;> rfl

/-! ## JSON bodies -/

/-- A value of type `interface{}` as `encoding/json` makes it, and the `int` of the clamp. A
`float64` is its value. -/
inductive GoValue where
  | null
  | bool (b : Bool)
  | float64 (x : Rat)
  | int (n : ℤ)
  | string (s : String)
  | array (vs : List GoValue)
  | object (fields : List (String × GoValue))

/-- A `map[string]interface{}`, which may be nil. -/
abbrev GoMap := Option (List (String × GoValue))

/-- `m[key]`. -/
def GoMap.find (m : GoMap) (key : String) : Option GoValue := (m.getD []).lookup key

/-- `json.Unmarshal` into a map, and `json.Marshal` of a map. -/
structure Codec where
  unmarshal : Bytes → Except String GoMap
  marshal : GoMap → Except String Bytes

/-- The clamp of `max_tokens`. -/
def clampMaxTokens (m : GoMap) : GoMap :=
  match m.find "max_tokens" with
  | some (.float64 maxTokens) =>
    if maxTokens > 4096 then
      m.map fun fields => fields.map fun f => if f.1 = "max_tokens" then (f.1, .int 4096) else f
    else m
  | _ => m

/-- The model the request names. -/
def modelOf (m : GoMap) : String :=
  match m.find "model" with
  | some (.string name) => name
  | _ => ""

/-- `int(x)`; outside the range of `int` the value is that of amd64. -/
def goInt (x : Rat) : ℤ :=
  let n := x.num.tdiv x.den
  if -9223372036854775808 ≤ n ∧ n < 9223372036854775808 then n else -9223372036854775808

/-- A token count of the `usage` object. -/
def usageCount (usage : List (String × GoValue)) (key : String) : ℤ :=
  match usage.lookup key with
  | some (.float64 x) => goInt x
  | _ => 0

/-- The `float64` arithmetic of `extractUsage`, in units of `2 ^ -70`: the last place of `0.000005`,
the smaller of the two prices. -/
def costUSD (inputTokens outputTokens : ℤ) : ℤ :=
  Binary64.round
    (Binary64.round (Binary64.round inputTokens * 5902958103587057) +
      Binary64.round (Binary64.round outputTokens * 17708874310761170))

/-- `tokenUsage`. -/
structure TokenUsage where
  inputTokens : ℤ
  outputTokens : ℤ
  /-- In units of `2 ^ -70`. -/
  costUSD : ℤ
  deriving DecidableEq, Repr

/-- `extractUsage`. -/
def extractUsage (resp : GoMap) : TokenUsage :=
  let (input, output) :=
    match resp.find "usage" with
    | some (.object usage) =>
      (usageCount usage "prompt_tokens", usageCount usage "completion_tokens")
    | _ => (0, 0)
  ⟨input, output, costUSD input output⟩

/-! ## The proxy and its inputs -/

/-- The libraries the proxy uses. -/
structure Library (Key : Type) where
  x509 : X509 Key
  decodeToken : String → Except String (Token Key)
  json : Codec
  parseURL : String → Except String URL
  /-- `ratelimit.New` on an address and a password. -/
  connectRedis : String → String → Except String Unit
  /-- `audit.New` on a DSN. -/
  connectAudit : String → Except String Unit

/-- `Config`, without the policy configuration, which no handler reads. -/
structure Config where
  redisAddr : String
  redisPassword : String
  pgDSN : String
  jwtPublicKey : String
  upstreams : List (String × String)
  deriving DecidableEq, Repr

set_option linter.dupNamespace false in
structure LLMProxy (Key : Type) where
  upstreams : List (String × URL)
  rateLimiter : Limiter
  publicKey : Option Key

/-- The upstreams of `NewLLMProxy`. -/
def parseUpstreams (parseURL : String → Except String URL) :
    List (String × String) → Except String (List (String × URL))
  | [] => .ok []
  | (name, endpoint) :: rest => do
    let u ← wrap ("parse upstream " ++ name ++ ": ") (parseURL endpoint)
    let us ← parseUpstreams parseURL rest
    return (name, u) :: us

/-- `NewLLMProxy`. -/
def newLLMProxy {Key : Type} (lib : Library Key) (cfg : Config) :
    Except String (LLMProxy Key) := do
  let upstreams ← parseUpstreams lib.parseURL cfg.upstreams
  wrap "rate limiter: " (lib.connectRedis cfg.redisAddr cfg.redisPassword)
  wrap "audit logger: " (lib.connectAudit cfg.pgDSN)
  let publicKey ← wrap "jwt validator: " (newJWTValidator lib.x509 cfg.jwtPublicKey)
  return ⟨upstreams, Limiter.new, publicKey⟩

/-- The `http.Response` that `RoundTrip` of the transport returns. -/
structure UpstreamResponse where
  status : ℕ
  header : Header
  body : Stream

/-- What happens around one request: the time in milliseconds, the result of the limiter's pipeline,
the start time and latency of the audit event, the key a `range` over the upstreams visits first,
whether the transport speaks HTTP/2 with the upstream, the upstream's answer, the results of the
pings and the text of the metrics. -/
structure Env where
  clock : ℕ
  redis : Except String ℤ
  start : ℤ
  latencyMs : ℤ
  pick : ℕ
  http2 : Bool
  upstream : Except String UpstreamResponse
  redisPing : Bool
  auditPing : Bool
  metrics : String

/-- What is written to the `ResponseWriter`: a response of the proxy, or a copy of the upstream's. -/
inductive Answer where
  | own (response : Response)
  | copied (status : ℕ) (header : Header) (body : Bytes)

/-- The effects of handling a request: what goes to the transport, the audit calls, the headers the
middlewares set on the response, and the answer. -/
structure Handled where
  sent : List Outgoing
  logs : List Audit.Event
  headers : List (String × String)
  answer : Answer

/-- A handler that only answers. -/
def Handled.plain (response : Response) : Handled := ⟨[], [], [], .own response⟩

/-! ## Chat completions -/

section Chat

variable {Key : Type} (lib : Library Key) (p : LLMProxy Key) (env : Env)

/-- `10 << 20`. -/
def maxBytes : ℕ := 10 <<< 20

/-- `selectUpstream`. -/
def selectUpstream : String :=
  if (p.upstreams.lookup "openai").isSome then "openai"
  else ((p.upstreams.map Prod.fst)[env.pick % p.upstreams.length]?).getD ""

/-- `getEnv`, which returns its fallback. -/
def getEnv (_key fallback : String) : String := fallback

/-- `upstreamAPIKey`. -/
def upstreamAPIKey (name : String) : String :=
  if name = "openai" then getEnv "APPGATE_OPENAI_API_KEY" ""
  else if name = "anthropic" then getEnv "APPGATE_ANTHROPIC_API_KEY" ""
  else ""

/-- The request after the handler has set its body and headers. -/
def rewrite (r : NetHttp.Request) (upstreamName : String) (modifiedBody : Bytes) :
    NetHttp.Request :=
  { r with
    body := ⟨modifiedBody, none⟩
    header := ((r.header.set "Content-Length" (toString modifiedBody.length)).set
      "Authorization" ("Bearer " ++ upstreamAPIKey upstreamName)).del "X-AppGate-Project" }

/-- The audit event of `ModifyResponse`. -/
def auditEvent (claims : Claims) (r : NetHttp.Request) (model upstreamName : String)
    (resp : UpstreamResponse) (usage : TokenUsage) : Audit.Event where
  timestamp := env.start
  projectID := claims.projectID
  userID := claims.userID
  requestID := r.header.get "X-Request-ID"
  model := model
  upstream := upstreamName
  statusCode := resp.status
  latencyMs := env.latencyMs
  inputTokens := usage.inputTokens
  outputTokens := usage.outputTokens
  costUSD := usage.costUSD
  promptHash := ""
  responseHash := ""
  violation := ""

/-- The error handler of the reverse proxy. -/
def badGateway : Answer := .own ⟨502, "", []⟩

/-- `proxy.ServeHTTP` with the handler's `ModifyResponse`, on the rewritten request. -/
def serveProxy (claims : Claims) (r : NetHttp.Request) (model upstreamName : String) (target : URL)
    (modifiedBody : Bytes) : Handled :=
  match outgoing target r modifiedBody with
  | none => ⟨[], [], [], badGateway⟩
  | some out =>
    match env.upstream with
    | .error _ => ⟨[out], [], [], badGateway⟩
    | .ok resp =>
      match readAll maxBytes resp.body with
      | .error _ => ⟨[out], [], [], badGateway⟩
      | .ok respBody =>
        -- an error of `json.Unmarshal` is ignored and leaves a nil map
        let respData := (lib.json.unmarshal respBody).toOption.getD none
        ⟨[out], [auditEvent env claims r model upstreamName resp (extractUsage respData)], [],
          -- the replaced body of a `101` response cannot be upgraded
          if resp.status = 101 then badGateway
          else .copied resp.status (removeHopByHop resp.header) respBody⟩

/-- `handleChatCompletions`, with the claims of the request context. -/
def handleChatCompletions (claims : Claims) (r : NetHttp.Request) : Handled :=
  match readAll maxBytes r.body with
  | .error _ => .plain (httpError "\x7b\"error\":\"request too large\"\x7d" 413)
  | .ok body =>
    match lib.json.unmarshal body with
    | .error _ => .plain (httpError "\x7b\"error\":\"invalid json\"\x7d" 400)
    | .ok m =>
      let reqBody := clampMaxTokens m
      let upstreamName := selectUpstream p env
      match p.upstreams.lookup upstreamName with
      | none => .plain (httpError "\x7b\"error\":\"no available upstream\"\x7d" 503)
      | some upstreamURL =>
        match lib.json.marshal reqBody with
        | .error _ => .plain (httpError "\x7b\"error\":\"internal error\"\x7d" 500)
        | .ok modifiedBody =>
          serveProxy lib env claims (rewrite r upstreamName modifiedBody) (modelOf reqBody)
            upstreamName upstreamURL modifiedBody

/-- The ways through the handler: to the reverse proxy, or to an answer without any effect. -/
theorem handleChatCompletions_cases (claims : Claims) (r : NetHttp.Request) :
    (∃ body m upstreamURL modifiedBody, readAll maxBytes r.body = .ok body ∧
      lib.json.unmarshal body = .ok m ∧
      p.upstreams.lookup (selectUpstream p env) = some upstreamURL ∧
      lib.json.marshal (clampMaxTokens m) = .ok modifiedBody ∧
      handleChatCompletions lib p env claims r =
        serveProxy lib env claims (rewrite r (selectUpstream p env) modifiedBody)
          (modelOf (clampMaxTokens m)) (selectUpstream p env) upstreamURL modifiedBody) ∨
    (handleChatCompletions lib p env claims r).logs = [] ∧
      (handleChatCompletions lib p env claims r).sent = [] := by
  unfold handleChatCompletions
  split
  next => exact .inr ⟨rfl, rfl⟩
  next body hb =>
    split
    next => exact .inr ⟨rfl, rfl⟩
    next m hm =>
      dsimp only
      split
      next => exact .inr ⟨rfl, rfl⟩
      next url hu =>
        split
        next => exact .inr ⟨rfl, rfl⟩
        next modifiedBody hj => exact .inl ⟨body, m, url, modifiedBody, hb, hm, hu, hj, rfl⟩

/-! ## Routes -/

/-- `handleEmbeddings`. -/
def handleEmbeddings : Handled :=
  .plain (httpError "\x7b\"error\":\"not yet implemented\"\x7d" 501)

/-- `handleModels`. -/
def handleModels : Handled :=
  .plain ⟨200, "\x7b\"data\":[" ++
    "\x7b\"id\":\"gpt-4o\",\"object\":\"model\"\x7d," ++
    "\x7b\"id\":\"gpt-4o-mini\",\"object\":\"model\"\x7d," ++
    "\x7b\"id\":\"claude-3-5-sonnet\",\"object\":\"model\"\x7d," ++
    "\x7b\"id\":\"claude-3-haiku\",\"object\":\"model\"\x7d],\"object\":\"list\"\x7d\n",
    [("Content-Type", "application/json")]⟩

/-- `handleReady`. -/
def handleReady : Handled :=
  if env.redisPing && env.auditPing then .plain ⟨200, "\x7b\"status\":\"ready\"\x7d", []⟩
  else .plain (httpError "\x7b\"status\":\"not ready\"\x7d" 503)

/-- The validator of the proxy at the time of the request. -/
def validator : JWTValidator Key :=
  ⟨p.publicKey, fun key token => parseWithClaims lib.decodeToken env.clock (keyFunc key) token⟩

/-- The middlewares of the subrouter before a handler. Those of the policy engine and of the audit
call the next handler unchanged. -/
def apiChain (r : NetHttp.Request) (next : Claims → Handled) : Handled :=
  match (validator lib p env).authenticate (r.header.get "Authorization") with
  | .error response => ⟨[], [], [], .own response⟩
  | .ok claims =>
    match p.rateLimiter.reply claims (p.rateLimiter.verdict env.redis env.clock) with
    | .reject response => ⟨[], [], [], .own response⟩
    | .next claims headers => { next claims with headers := headers }

/-- `ServeHTTP`. A request without a route gets the answer `fallback` of the router. -/
def serveHTTP (fallback : NetHttp.Request → Response) (r : NetHttp.Request) : Handled :=
  if r.method = "GET" ∧ r.path = "/healthz" then
    .plain ⟨200, "\x7b\"status\":\"healthy\"\x7d", []⟩
  else if r.method = "GET" ∧ r.path = "/readyz" then handleReady env
  else if r.method = "GET" ∧ r.path = "/metrics" then .plain ⟨200, env.metrics, []⟩
  else if r.method = "POST" ∧ r.path = "/v1/chat/completions" then
    apiChain lib p env r fun claims => handleChatCompletions lib p env claims r
  else if r.method = "POST" ∧ r.path = "/v1/embeddings" then
    apiChain lib p env r fun _ => handleEmbeddings
  else if r.method = "GET" ∧ r.path = "/v1/models" then apiChain lib p env r fun _ => handleModels
  else ⟨[], [], [], .own (fallback r)⟩

end Chat

/-! ## Auditing -/

section Auditing

variable {Key : Type} {lib : Library Key} {p : LLMProxy Key} {env : Env}

theorem lookup_isSome_of_mem {α : Type} {name : String} {us : List (String × α)}
    (h : name ∈ us.map Prod.fst) : (us.lookup name).isSome = true := by
  induction us with
  | nil => simp at h
  | cons u us ih =>
      rw [List.map_cons, List.mem_cons] at h
      rw [List.lookup_cons]
      split
      · rfl
      · next hne =>
          refine ih (h.resolve_left ?_)
          rintro rfl
          simp at hne

theorem exists_lookup_selectUpstream_iff :
    (∃ u, p.upstreams.lookup (selectUpstream p env) = some u) ↔ p.upstreams ≠ [] := by
  rw [← Option.isSome_iff_exists]
  constructor
  · rintro h hnil
    simp [hnil] at h
  · intro hne
    unfold selectUpstream
    split_ifs with ho
    · exact ho
    · have hlt : env.pick % p.upstreams.length < (p.upstreams.map Prod.fst).length := by
        rw [List.length_map]
        exact Nat.mod_lt _ (List.length_pos_of_ne_nil hne)
      rw [List.getElem?_eq_getElem hlt, Option.getD_some]
      exact lookup_isSome_of_mem (List.getElem_mem hlt)

/-- The rewriting does not touch the headers that ask for an upgrade. -/
theorem upgradeType_rewrite (r : NetHttp.Request) (upstreamName : String) (modifiedBody : Bytes) :
    upgradeType (rewrite r upstreamName modifiedBody).header = upgradeType r.header := by
  have h (n : String) (h₁ : n ≠ lower "Content-Length") (h₂ : n ≠ lower "Authorization")
      (h₃ : n ≠ lower "X-AppGate-Project") :
      (rewrite r upstreamName modifiedBody).header.values n = r.header.values n := by
    simp [rewrite, Header.set, Header.del, h₁, h₂, h₃]
  have hc := h "connection" (by decide) (by decide) (by decide)
  have hu := h (lower "Upgrade") (by decide) (by decide) (by decide)
  simp only [upgradeType, Header.get, hc, hu]

/-- The request gets an answer of the upstream that the handler can read: its body is read and
decoded, an upstream is configured, the body is encoded again, an upgrade asked for is printable,
and the upstream answers with a readable body. -/
structure Completes (lib : Library Key) (p : LLMProxy Key) (env : Env) (r : NetHttp.Request) :
    Prop where
  body : ∃ body m modifiedBody, readAll maxBytes r.body = .ok body ∧
    lib.json.unmarshal body = .ok m ∧ lib.json.marshal (clampMaxTokens m) = .ok modifiedBody
  upstream : p.upstreams ≠ []
  upgrade : isPrint (upgradeType r.header) = true
  answer : ∃ resp respBody, env.upstream = .ok resp ∧ readAll maxBytes resp.body = .ok respBody

/-- Exactly one audit call was made, with the project and the user of the claims. -/
def Audited (claims : Claims) (h : Handled) : Prop :=
  ∃ e, h.logs = [e] ∧ e.projectID = claims.projectID ∧ e.userID = claims.userID

theorem not_audited_of_logs_eq_nil {claims : Claims} {h : Handled} (hl : h.logs = []) :
    ¬ Audited claims h := by
  rintro ⟨e, he, -⟩
  rw [hl] at he
  cases he

theorem serveProxy_audited_iff (claims : Claims) (r : NetHttp.Request) (model name : String)
    (target : URL) (modifiedBody : Bytes) :
    Audited claims (serveProxy lib env claims r model name target modifiedBody) ↔
      isPrint (upgradeType r.header) = true ∧
        ∃ resp respBody, env.upstream = .ok resp ∧ readAll maxBytes resp.body = .ok respBody := by
  unfold serveProxy outgoing
  by_cases hp : isPrint (upgradeType r.header) = true
  · simp only [hp, if_true, true_and]
    cases hu : env.upstream with
    | error e => simpa using not_audited_of_logs_eq_nil rfl
    | ok resp =>
        cases hb : readAll maxBytes resp.body with
        | error e => simpa [hb] using not_audited_of_logs_eq_nil rfl
        | ok respBody =>
            refine ⟨fun _ => ⟨resp, respBody, rfl, hb⟩, fun _ => ?_⟩
            simp only [hb]
            exact ⟨auditEvent env claims r model name resp _, rfl, rfl, rfl⟩
  · rw [if_neg hp]
    exact ⟨fun h => absurd h (not_audited_of_logs_eq_nil rfl), fun h => absurd h.1 hp⟩

/-- **A chat request is audited exactly when it completes.** -/
theorem audited_iff (claims : Claims) (r : NetHttp.Request) :
    Audited claims (handleChatCompletions lib p env claims r) ↔ Completes lib p env r := by
  constructor
  · intro h
    rcases handleChatCompletions_cases lib p env claims r with
      ⟨body, m, url, modifiedBody, hb, hm, hu, hj, heq⟩ | ⟨hl, -⟩
    · rw [heq] at h
      obtain ⟨hup, hans⟩ := (serveProxy_audited_iff _ _ _ _ _ _).mp h
      rw [upgradeType_rewrite] at hup
      exact ⟨⟨body, m, modifiedBody, hb, hm, hj⟩, exists_lookup_selectUpstream_iff.mp ⟨url, hu⟩,
        hup, hans⟩
    · exact absurd h (not_audited_of_logs_eq_nil hl)
  · rintro ⟨⟨body, m, modifiedBody, hb, hm, hj⟩, hne, hup, hans⟩
    obtain ⟨url, hu⟩ : ∃ u, p.upstreams.lookup (selectUpstream p env) = some u :=
      exists_lookup_selectUpstream_iff.mpr hne
    simp only [handleChatCompletions, hb, hm, hu, hj]
    refine (serveProxy_audited_iff _ _ _ _ _ _).mpr ⟨?_, hans⟩
    rw [upgradeType_rewrite]
    exact hup

end Auditing

/-- Libraries that know one key, one token that verifies under it, and the JSON texts of an empty
object and of nothing else. -/
def sampleLibrary : Library ℕ where
  x509 :=
    { decode := fun _ => some ("PUBLIC KEY", [])
      parsePKIXPublicKey := fun _ => .ok 65537
      parsePKCS1PublicKey := fun _ => .error "asn1: structure error"
      parseCertificate := fun _ => .error "x509: malformed certificate"
      kind := fun _ => .rsa }
  decodeToken token :=
    if token = "eyJhbGciOiJSUzI1NiJ9.eyJwcm9qZWN0X2lkIjoicDEifQ.c2ln" then
      .ok ⟨.rsa, "RS256", ⟨"p1", "", "", []⟩, fun key => key = 65537, fun _ => true⟩
    else .error "token is malformed"
  json :=
    { unmarshal := fun b => if b = [123, 125] then .ok (some []) else .error "invalid character"
      marshal := fun _ => .ok [123, 125] }
  parseURL _ := .ok ⟨"https", "api.openai.com", "", ""⟩
  connectRedis _ _ := .ok ()
  connectAudit _ := .ok ()

/-- A proxy with one upstream and a key. -/
def sampleProxy : LLMProxy ℕ :=
  ⟨[("openai", ⟨"https", "api.openai.com", "", ""⟩)], Limiter.new, some 65537⟩

/-- A moment at which Redis counts three requests and the upstream answers `200`. -/
def sampleEnv : Env where
  clock := 1700000000000
  redis := .ok 3
  start := 1
  latencyMs := 12
  pick := 0
  http2 := false
  upstream := .ok ⟨200, Header.empty, ⟨[123, 125], none⟩⟩
  redisPing := true
  auditPing := true
  metrics := ""

/-- A chat request with the given body. -/
def sampleRequest (body : Bytes) : NetHttp.Request where
  method := "POST"
  host := "gateway"
  path := "/v1/chat/completions"
  rawQuery := ""
  header := (Header.empty.set "Authorization"
    "Bearer eyJhbGciOiJSUzI1NiJ9.eyJwcm9qZWN0X2lkIjoicDEifQ.c2ln").set "X-AppGate-Project" "p1"
  body := ⟨body, none⟩
  transferEncoding := []
  trailer := fun _ => none
  remoteIP := some "10.0.0.1"

/-- A chat request whose body is not JSON gets a `400` and leaves no audit record. -/
theorem invalid_json_is_not_audited :
    ¬ Audited ⟨"p1", "anonymous", "", []⟩
      (handleChatCompletions sampleLibrary sampleProxy sampleEnv ⟨"p1", "anonymous", "", []⟩
        (sampleRequest [120])) :=
  not_audited_of_logs_eq_nil rfl

end AppGate.LLMProxy
