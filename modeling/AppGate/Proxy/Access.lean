import AppGate.Lib.Fallible
import AppGate.Proxy.Handler

/-!
# Access to the upstreams

What a request must have passed before the proxy of `internal/proxy/handler.go` sends anything to an
upstream, and what of its credentials is sent.

* `authenticate_eq_ok`, `keyFunc_eq_ok`, `verdict_allowed`: what each middleware lets through;
* `of_mem_sent`: where a request to an upstream comes from;
* `Vetted`: complete authentication, and no credential passed on;
* **`upstream_request_authenticated`**: it holds unless `X-AppGate-Project` is a trailer that is sent;
* `project_trailer_is_sent`.
-/

set_option autoImplicit false

namespace AppGate.LLMProxy

open NetHttp Fallible

variable {Key : Type}

/-! ## The middlewares -/

theorem authenticate_eq_ok {v : JWTValidator Key} {authHeader : String} {claims : Claims}
    (h : v.authenticate authHeader = .ok claims) :
    ∃ scheme tokenStr key c, splitAuth authHeader = some (scheme, tokenStr) ∧
      toLower scheme = "bearer" ∧ v.publicKey = some key ∧
      v.parseWithClaims key tokenStr = .ok (c, true) ∧ claims = c.fill := by
  unfold JWTValidator.authenticate at h
  split_ifs at h
  split at h
  next => cases h
  next scheme tokenStr hs =>
    split_ifs at h with hb
    split at h
    next => cases h
    next key hk =>
      split at h
      next => cases h
      next c valid hp =>
        split_ifs at h with hv
        cases h
        exact ⟨scheme, tokenStr, key, c, hs, not_not.mp hb, hk, hv ▸ hp, rfl⟩

theorem keyFunc_eq_ok {publicKey key : Key} {token : Token Key}
    (h : keyFunc publicKey token = .ok key) :
    key = publicKey ∧ (token.method = .rsa ∨ token.method = .ecdsa) := by
  unfold keyFunc at h
  split at h
  next hm => cases h; exact ⟨rfl, .inl hm⟩
  next hm => cases h; exact ⟨rfl, .inr hm⟩
  next => cases h

theorem parseWithClaims_eq_ok {decode : String → Except String (Token Key)} {clock : ℕ}
    {kf : Token Key → Except String Key} {tokenStr : String} {c : Claims} {valid : Bool}
    (h : parseWithClaims decode clock kf tokenStr = .ok (c, valid)) :
    ∃ token key, decode tokenStr = .ok token ∧ kf token = .ok key ∧ token.verify key = true ∧
      token.timely clock = true ∧ token.claims = c := by
  unfold parseWithClaims at h
  split at h
  next => cases h
  next token ht =>
    split at h
    next => cases h
    next key hk =>
      split_ifs at h with hv hc
      cases h
      exact ⟨token, key, ht, hk, hv, hc, rfl⟩

theorem verdict_allowed {l : Limiter} {pipeline : Except String ℤ} {clock : ℕ}
    (h : (l.verdict pipeline clock).allowed = true) :
    (∃ count, pipeline = .ok count ∧ count ≤ l.burst) ∨ ∃ e, pipeline = .error e := by
  cases pipeline with
  | error e => exact .inr ⟨e, rfl⟩
  | ok count => exact .inl ⟨count, rfl, of_decide_eq_true h⟩

theorem reply_eq_next {l : Limiter} {claims c : Claims} {v : Verdict}
    {headers : List (String × String)} (h : l.reply claims v = .next c headers) :
    v.allowed = true ∧ c = claims := by
  unfold Limiter.reply at h
  split_ifs at h with hv
  cases h
  exact ⟨hv, rfl⟩

theorem wrap_eq_ok {α : Type} {text : String} {x : Except String α} {a : α}
    (h : wrap text x = .ok a) : x = .ok a := by
  cases x with
  | error e => cases h
  | ok b => exact h

theorem newLLMProxy_eq_ok {lib : Library Key} {cfg : Config} {p : LLMProxy Key}
    (h : newLLMProxy lib cfg = .ok p) :
    p.rateLimiter = Limiter.new ∧ newJWTValidator lib.x509 cfg.jwtPublicKey = .ok p.publicKey := by
  obtain ⟨us, -, h⟩ := bind_eq_ok.mp h
  obtain ⟨_, -, h⟩ := bind_eq_ok.mp h
  obtain ⟨_, -, h⟩ := bind_eq_ok.mp h
  obtain ⟨key, hk, h⟩ := bind_eq_ok.mp h
  rw [← Except.ok.inj h]
  exact ⟨rfl, wrap_eq_ok hk⟩

/-! ## Requests sent upstream -/

section Sent

variable {lib : Library Key} {p : LLMProxy Key} {env : Env} {out : Outgoing}

theorem mem_sent_serveProxy {claims : Claims} {r : NetHttp.Request} {model name : String}
    {target : URL} {modifiedBody : Bytes}
    (h : out ∈ (serveProxy lib env claims r model name target modifiedBody).sent) :
    outgoing target r modifiedBody = some out := by
  unfold serveProxy at h
  cases ho : outgoing target r modifiedBody with
  | none => simp [ho] at h
  | some o =>
      have hmem : out ∈ [o] := by
        rw [ho] at h
        dsimp only at h
        split at h
        · exact h
        · split at h <;> exact h
      rw [List.mem_singleton.mp hmem]

/-- The body and the target of a request sent for a chat request. -/
theorem mem_sent_handleChatCompletions {claims : Claims} {r : NetHttp.Request}
    (h : out ∈ (handleChatCompletions lib p env claims r).sent) :
    ∃ body m url modifiedBody, readAll maxBytes r.body = .ok body ∧
      lib.json.unmarshal body = .ok m ∧ p.upstreams.lookup (selectUpstream p env) = some url ∧
      lib.json.marshal (clampMaxTokens m) = .ok modifiedBody ∧
      outgoing url (rewrite r (selectUpstream p env) modifiedBody) modifiedBody = some out := by
  rcases handleChatCompletions_cases lib p env claims r with
    ⟨body, m, url, modifiedBody, hb, hm, hu, hj, heq⟩ | ⟨-, hs⟩
  · rw [heq] at h
    exact ⟨body, m, url, modifiedBody, hb, hm, hu, hj, mem_sent_serveProxy h⟩
  · rw [hs] at h
    cases h

/-- The middlewares passed by a request whose handler runs. -/
theorem mem_sent_apiChain {r : NetHttp.Request} {next : Claims → Handled}
    (h : out ∈ (apiChain lib p env r next).sent) :
    ∃ claims, (validator lib p env).authenticate (r.header.get "Authorization") = .ok claims ∧
      (p.rateLimiter.verdict env.redis env.clock).allowed = true ∧ out ∈ (next claims).sent := by
  unfold apiChain at h
  split at h
  next => cases h
  next claims hc =>
    split at h
    next => cases h
    next c headers hr =>
      obtain ⟨hv, rfl⟩ := reply_eq_next hr
      exact ⟨c, hc, hv, h⟩

theorem mem_sent_serveHTTP {fallback : NetHttp.Request → Response} {r : NetHttp.Request}
    (h : out ∈ (serveHTTP lib p env fallback r).sent) :
    r.method = "POST" ∧ r.path = "/v1/chat/completions" ∧
      out ∈ (apiChain lib p env r fun claims => handleChatCompletions lib p env claims r).sent := by
  unfold serveHTTP handleReady at h
  split_ifs at h with h1 h2 h2' h3 h4 h5 h6
  · cases h
  · cases h
  · cases h
  · cases h
  · exact ⟨h4.1, h4.2, h⟩
  · obtain ⟨-, -, -, hm⟩ := mem_sent_apiChain h
    cases hm
  · obtain ⟨-, -, -, hm⟩ := mem_sent_apiChain h
    cases hm
  · cases h

/-- The rewriting forgets the client's `Authorization` header. -/
theorem rewrite_congr {r r' : NetHttp.Request} (hr : r' = { r with header := r'.header })
    (hh : r.header.AgreeOff "Authorization" r'.header) (name : String) (modifiedBody : Bytes) :
    rewrite r' name modifiedBody = rewrite r name modifiedBody := by
  rw [hr]
  simp only [rewrite]
  rw [(hh.set).set_eq]

theorem rewrite_values_project (r : NetHttp.Request) (name : String) (modifiedBody : Bytes) :
    (rewrite r name modifiedBody).header.values (lower "X-AppGate-Project") = [] := by
  simp [rewrite, Header.del]

end Sent

/-- What has been checked of a request before `out` goes to the transport, and what of its
credentials the upstream gets. -/
structure Vetted (lib : Library Key) (cfg : Config) (p : LLMProxy Key) (env : Env)
    (fallback : NetHttp.Request → Response) (r : NetHttp.Request) (out : Outgoing) : Prop where
  route : r.method = "POST" ∧ r.path = "/v1/chat/completions"
  /-- A bearer token that verifies under the configured key by an RSA or ECDSA method, in time. -/
  token : ∃ scheme tokenStr key token,
    splitAuth (r.header.get "Authorization") = some (scheme, tokenStr) ∧
    toLower scheme = "bearer" ∧
    newJWTValidator lib.x509 cfg.jwtPublicKey = .ok (some key) ∧
    lib.decodeToken tokenStr = .ok token ∧
    (token.method = .rsa ∨ token.method = .ecdsa) ∧
    token.verify key = true ∧ token.timely env.clock = true
  /-- Within the burst, or on an error of Redis. -/
  rate : (∃ count, env.redis = .ok count ∧ count ≤ 150) ∨ ∃ e, env.redis = .error e
  /-- Neither in front of the body nor behind it. -/
  project : ∀ name, lower name = lower "X-AppGate-Project" →
    out.header.values (lower name) = [] ∧ out.sentTrailer env.http2 name = []
  /-- A request that differs only in its `Authorization` header goes on as the same request. -/
  credential : ∀ env' r' out', env'.pick = env.pick → r' = { r with header := r'.header } →
    r.header.AgreeOff "Authorization" r'.header →
    out' ∈ (serveHTTP lib p env' fallback r').sent → out' = out

section

variable {lib : Library Key} {cfg : Config} {p : LLMProxy Key} {env : Env}
  {fallback : NetHttp.Request → Response} {r : NetHttp.Request} {out : Outgoing}

/-- Where a request that reaches the transport comes from, all of its way. -/
theorem of_mem_sent (h : out ∈ (serveHTTP lib p env fallback r).sent) :
    (r.method = "POST" ∧ r.path = "/v1/chat/completions") ∧
      (∃ claims, (validator lib p env).authenticate (r.header.get "Authorization") = .ok claims) ∧
      (p.rateLimiter.verdict env.redis env.clock).allowed = true ∧
      ∃ body m url modifiedBody, readAll maxBytes r.body = .ok body ∧
        lib.json.unmarshal body = .ok m ∧ p.upstreams.lookup (selectUpstream p env) = some url ∧
        lib.json.marshal (clampMaxTokens m) = .ok modifiedBody ∧
        outgoing url (rewrite r (selectUpstream p env) modifiedBody) modifiedBody = some out := by
  obtain ⟨hmethod, hpath, hs⟩ := mem_sent_serveHTTP h
  obtain ⟨claims, hauth, hallow, hs⟩ := mem_sent_apiChain hs
  exact ⟨⟨hmethod, hpath⟩, ⟨claims, hauth⟩, hallow, mem_sent_handleChatCompletions hs⟩

/-- Two requests that differ only in `Authorization` go on as one. -/
theorem eq_of_agreeOff {env' : Env} {r' : NetHttp.Request} {out' : Outgoing}
    (h : out ∈ (serveHTTP lib p env fallback r).sent) (hpick : env'.pick = env.pick)
    (hr : r' = { r with header := r'.header }) (hh : r.header.AgreeOff "Authorization" r'.header)
    (h' : out' ∈ (serveHTTP lib p env' fallback r').sent) : out' = out := by
  obtain ⟨-, -, -, body, m, url, modifiedBody, hb, hm, hu, hj, hout⟩ := of_mem_sent h
  obtain ⟨-, -, -, body', m', url', modifiedBody', hb', hm', hu', hj', hout'⟩ := of_mem_sent h'
  -- both requests are rewritten to the same one, with the same body and target
  have hsel : selectUpstream p env' = selectUpstream p env := by simp [selectUpstream, hpick]
  have hbody : r'.body = r.body := by rw [hr]
  rw [hbody, hb] at hb'
  cases hb'
  rw [hm] at hm'
  cases hm'
  rw [hj] at hj'
  cases hj'
  rw [hsel, hu] at hu'
  cases hu'
  rw [hsel, rewrite_congr hr hh, hout] at hout'
  exact (Option.some.inj hout').symm

theorem values_project_of_mem_sent (h : out ∈ (serveHTTP lib p env fallback r).sent) :
    out.header.values (lower "X-AppGate-Project") = [] := by
  obtain ⟨-, -, -, body, m, url, modifiedBody, -, -, -, -, hout⟩ := of_mem_sent h
  exact outgoing_values hout (rewrite_values_project _ _ _) (by decide)

/-- The trailers of a request go on with it. -/
theorem sentTrailer_of_mem_sent (h : out ∈ (serveHTTP lib p env fallback r).sent) (name : String) :
    out.sentTrailer env.http2 name =
      if sendsTrailers env.http2 r.transferEncoding then (r.trailer (lower name)).getD []
      else [] := by
  obtain ⟨-, -, -, body, m, url, modifiedBody, -, -, -, -, hout⟩ := of_mem_sent h
  exact sentTrailer_of_outgoing hout env.http2 name

theorem token_of_mem_sent (hp : newLLMProxy lib cfg = .ok p)
    (h : out ∈ (serveHTTP lib p env fallback r).sent) :
    ∃ scheme tokenStr key token,
      splitAuth (r.header.get "Authorization") = some (scheme, tokenStr) ∧
      toLower scheme = "bearer" ∧
      newJWTValidator lib.x509 cfg.jwtPublicKey = .ok (some key) ∧
      lib.decodeToken tokenStr = .ok token ∧
      (token.method = .rsa ∨ token.method = .ecdsa) ∧
      token.verify key = true ∧ token.timely env.clock = true := by
  obtain ⟨-, ⟨claims, hauth⟩, -⟩ := of_mem_sent h
  obtain ⟨scheme, tokenStr, key, c, hsplit, hbearer, hk, hparse, -⟩ := authenticate_eq_ok hauth
  obtain ⟨token, key', hdec, hkf, hver, htime, -⟩ := parseWithClaims_eq_ok hparse
  obtain ⟨rfl, hmeth⟩ := keyFunc_eq_ok hkf
  refine ⟨scheme, tokenStr, key', token, hsplit, hbearer, ?_, hdec, hmeth, hver, htime⟩
  rw [(newLLMProxy_eq_ok hp).2, ← hk]
  rfl

/-- **Complete authentication.** A request reaches an upstream only after all checks, and nothing of
its credentials goes with it, if and only if the transport sends no trailer `X-AppGate-Project`. -/
theorem upstream_request_authenticated (hp : newLLMProxy lib cfg = .ok p)
    (h : out ∈ (serveHTTP lib p env fallback r).sent) :
    Vetted lib cfg p env fallback r out ↔
      (sendsTrailers env.http2 r.transferEncoding = true →
        (r.trailer (lower "X-AppGate-Project")).getD [] = []) := by
  have htrailer := sentTrailer_of_mem_sent h
  constructor
  · intro hauth hsends
    have hnone := (hauth.project "X-AppGate-Project" rfl).2
    rwa [htrailer, if_pos hsends] at hnone
  · intro hnone
    refine ⟨(of_mem_sent h).1, token_of_mem_sent hp h, ?_, fun name hname => ⟨?_, ?_⟩, ?_⟩
    · have hallow := (of_mem_sent h).2.2.1
      rw [(newLLMProxy_eq_ok hp).1] at hallow
      exact verdict_allowed hallow
    · rw [hname]
      exact values_project_of_mem_sent h
    · rw [htrailer, hname]
      split_ifs with hsends
      · exact hnone hsends
      · rfl
    · exact fun env' r' out' hpick hr hh h' => eq_of_agreeOff h hpick hr hh h'

end

/-- The configuration of `sampleProxy`. -/
def sampleConfig : Config :=
  ⟨"redis:6379", "", "", "-----BEGIN PUBLIC KEY-----", [("openai", "https://api.openai.com")]⟩

theorem upstream_request_authenticated_sample :
    newLLMProxy sampleLibrary sampleConfig = .ok sampleProxy ∧
      ∃ out, (serveHTTP sampleLibrary sampleProxy sampleEnv (fun _ => ⟨404, "", []⟩)
          (sampleRequest [123, 125])).sent = [out] ∧
        Vetted sampleLibrary sampleConfig sampleProxy sampleEnv (fun _ => ⟨404, "", []⟩)
          (sampleRequest [123, 125]) out := by
  have hlen : (serveHTTP sampleLibrary sampleProxy sampleEnv (fun _ => ⟨404, "", []⟩)
      (sampleRequest [123, 125])).sent.length = 1 := by decide
  obtain ⟨out, ho⟩ := List.length_eq_one_iff.mp hlen
  have hmem : out ∈ (serveHTTP sampleLibrary sampleProxy sampleEnv (fun _ => ⟨404, "", []⟩)
      (sampleRequest [123, 125])).sent := by simp [ho]
  exact ⟨rfl, out, ho, (upstream_request_authenticated
    (show newLLMProxy sampleLibrary sampleConfig = .ok sampleProxy from rfl) hmem).mpr
      fun _ => rfl⟩

/-- A chat request in chunks, with the project behind its body. -/
def chunkedRequest : NetHttp.Request :=
  { sampleRequest [123, 125] with
    transferEncoding := ["chunked"]
    trailer := fun name => if name = "x-appgate-project" then some ["p1"] else none }

/-- The handler deletes the header of the project, and not the trailer. -/
theorem project_trailer_is_sent :
    newLLMProxy sampleLibrary sampleConfig = .ok sampleProxy ∧
      ∃ out, (serveHTTP sampleLibrary sampleProxy sampleEnv (fun _ => ⟨404, "", []⟩)
          chunkedRequest).sent = [out] ∧
        out.sentTrailer sampleEnv.http2 "X-AppGate-Project" = ["p1"] ∧
        ¬ Vetted sampleLibrary sampleConfig sampleProxy sampleEnv (fun _ => ⟨404, "", []⟩)
          chunkedRequest out := by
  have hlen : (serveHTTP sampleLibrary sampleProxy sampleEnv (fun _ => ⟨404, "", []⟩)
      chunkedRequest).sent.length = 1 := by decide
  obtain ⟨out, ho⟩ := List.length_eq_one_iff.mp hlen
  have hmem : out ∈ (serveHTTP sampleLibrary sampleProxy sampleEnv (fun _ => ⟨404, "", []⟩)
      chunkedRequest).sent := by simp [ho]
  have htrailer : out.sentTrailer sampleEnv.http2 "X-AppGate-Project" = ["p1"] := by
    rw [sentTrailer_of_mem_sent hmem]
    decide
  refine ⟨rfl, out, ho, htrailer, fun hauth => ?_⟩
  rw [(hauth.project "X-AppGate-Project" rfl).2] at htrailer
  cases htrailer

end AppGate.LLMProxy
