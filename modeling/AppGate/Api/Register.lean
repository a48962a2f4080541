import AppGate.Api.Decoder
import AppGate.Proxy.Tokens

/-!
# Credentials of the control plane

The endpoints of the control plane that hand out tokens: `HandleToken` and `HandleRefresh` of
`internal/auth/auth.go`, and `HandleDevPortalRegister` of `internal/api/api.go`. The last two sign
with Ed25519 or not at all.

* `RegisterRequest`, `readRegisterRequest`, `handleDevPortalRegister`, `handleRefresh`;
* `Handed`, `handed_cases`: the tokens in the answers;
* `validateToken_handed`, `parseToken_handed`, `gateway_handed`, `rustGateway_handed`: each
  validator;
* **`handed_rejected`**: no validator of the repository takes any of these tokens.
-/

set_option autoImplicit false

namespace AppGate.Api

open Json Fallible GoStruct GoClaims ControlPlane
open NetHttp (httpError)

/-! ## The request -/

/-- `RegisterRequest`. -/
structure RegisterRequest where
  projectName : String
  model : String
  llmModelName : String
  providerKey : String
  providerURL : String
  monthlySpendUSD : ℚ
  rateLimitRPS : ℤ
  rateLimitRPM : ℤ
  rateLimitBurst : ℤ
  webhookURL : String
  tags : List (String × String)

/-- A `float64`. -/
def float64 (frac : LLMProxy.Fractions) : Item ℚ
  | old, .null => .ok old
  | _, .number n =>
    match LLMProxy.convertNumber frac n with
    | some x => .ok x
    | none => .error "cannot unmarshal number into Go value of type float64"
  | _, _ => .error "cannot unmarshal into Go value of type float64"

def registerNames : List String :=
  ["project_name", "model", "llm_model_name", "provider_key", "provider_url", "monthly_spend_usd",
    "rate_limit_rps", "rate_limit_rpm", "rate_limit_burst", "webhook_url", "tags"]

def readRegisterRequest (frac : LLMProxy.Fractions) (v : Value) :
    Except String RegisterRequest := do
  let fields ← structFields v
  let text (name : String) := field registerNames string "" name fields
  let int (name : String) := field registerNames integer 0 name fields
  return ⟨← text "project_name", ← text "model", ← text "llm_model_name", ← text "provider_key",
    ← text "provider_url", ← field registerNames (float64 frac) 0 "monthly_spend_usd" fields,
    ← int "rate_limit_rps", ← int "rate_limit_rpm", ← int "rate_limit_burst", ← text "webhook_url",
    ← field registerNames stringMap [] "tags" fields⟩

/-! ## The endpoints -/

section

variable {Priv Pub : Type} (c : Jwt.Crypto Priv Pub) (frac : LLMProxy.Fractions)
  (format : Instant → String)

/-- The claims of `HandleDevPortalRegister`. -/
def registerClaims (now : Instant) (clientID secretID : String) : RegisteredClaims where
  id := secretID
  issuer := "appgate-control-plane"
  subject := clientID
  audience := ["appgate-gateway"]
  issuedAt := now
  notBefore := now.add (-thirtySeconds)
  expiresAt := now.add 86400000000000

/-- `HandleDevPortalRegister` at time `now`, for fresh identifiers: the body of an answer 201. -/
def handleDevPortalRegister (signingKey : Priv) (now : Instant) (clientID secretID : String)
    (method : String) (body : List UInt8) : Except LLMProxy.Response Value :=
  if method ≠ "POST" then .error (httpError "\x7b\"error\":\"method_not_allowed\"\x7d" 405)
  else
    match decode body >>= readRegisterRequest frac with
    | .error _ => .error (httpError ("\x7b\"error\":\"invalid_json\"," ++
        "\"message\":\"Request body is not valid JSON\"\x7d") 400)
    | .ok req =>
      if req.projectName = "" ∨ req.model = "" ∨ req.providerURL = "" then
        .error (httpError ("\x7b\"error\":\"validation_error\"," ++
          "\"message\":\"project_name, model, and provider_url are required\"\x7d") 400)
      else
        let token := Jwt.sign c signingKey ⟨.edDSA, some "appgate-signing-key-v1"⟩
          (.object (registerClaims now clientID secretID).fields)
        .ok (.object [("client_id", .string clientID), ("client_secret_id", .string secretID),
          ("jwt_token", .string (String.ofList token)),
          ("expires_at", .string (format (now.add 86400000000000))),
          ("token_type", .string "Bearer"), ("issuer", .string "appgate-control-plane")])

/-- `HandleRefresh`. -/
def handleRefresh : Value :=
  .object [("token", .string "refreshed"), ("token_type", .string "bearer")]

/-! ## Tokens in the answers -/

/-- The token at a name of an answer. -/
def tokenAt (name : String) : Value → Option (List Char)
  | .object fields =>
    match fields.lookup name with
    | some (.string s) => some s.toList
    | _ => none
  | _ => none

/-- The tokens that the endpoints hand out. -/
inductive Handed : List Char → Prop
  | token {key : Option Priv} {now : Instant} {id subject : String} {token : List Char}
      (h : tokenAt "token" (Service.handleToken c key now id subject) = some token) : Handed token
  | refresh {token : List Char} (h : tokenAt "token" handleRefresh = some token) : Handed token
  | register {signingKey : Priv} {now : Instant} {clientID secretID method : String}
      {body : List UInt8} {answer : Value} {token : List Char}
      (h : handleDevPortalRegister c frac format signingKey now clientID secretID method body =
        .ok answer)
      (ht : tokenAt "jwt_token" answer = some token) : Handed token

/-- A token signed with Ed25519, for somebody. -/
def EdSigned (token : List Char) : Prop :=
  ∃ (key : Priv) (kid : Option String) (cl : RegisteredClaims), cl.audience ≠ [] ∧
    token = Jwt.sign c key ⟨.edDSA, kid⟩ (.object cl.fields)

variable {c frac format}

theorem register_eq_ok {signingKey : Priv} {now : Instant} {clientID secretID method : String}
    {body : List UInt8} {answer : Value} (h : handleDevPortalRegister c frac format signingKey now
      clientID secretID method body = .ok answer) :
    ∃ token, tokenAt "jwt_token" answer = some token ∧ EdSigned c token := by
  unfold handleDevPortalRegister at h
  split_ifs at h
  split at h
  · cases h
  · split_ifs at h
    cases h
    refine ⟨_, ?_, signingKey, some "appgate-signing-key-v1",
      registerClaims now clientID secretID, List.cons_ne_nil _ _, rfl⟩
    simp [tokenAt]

theorem tokenAt_handleToken (key : Option Priv) (now : Instant) (id subject : String) :
    ∃ token, tokenAt "token" (Service.handleToken c key now id subject) = some token ∧
      (EdSigned c token ∨ '.' ∉ token) := by
  cases key with
  | none => exact ⟨"dev-token".toList, by simp [Service.handleToken, tokenAt], .inr (by decide)⟩
  | some key =>
      refine ⟨_, ?_, .inl ⟨key, some "appgate-key-v1", Service.claims "https://appgate.example.com"
        "appgate-gateway" now id subject, List.cons_ne_nil _ _, rfl⟩⟩
      simp [Service.handleToken, tokenAt]

theorem tokenAt_handleRefresh : tokenAt "token" handleRefresh = some "refreshed".toList := by
  simp [handleRefresh, tokenAt]

/-- **What is handed out.** A token is signed with Ed25519 or has no segments. -/
theorem handed_cases {token : List Char} (h : Handed c frac format token) :
    EdSigned c token ∨ '.' ∉ token := by
  cases h with
  | @token key now id subject _ h =>
      obtain ⟨token', ht', hcases⟩ := tokenAt_handleToken (c := c) key now id subject
      rwa [Option.some.inj (h.symm.trans ht')]
  | refresh h =>
      rw [Option.some.inj (h.symm.trans tokenAt_handleRefresh)]
      exact .inr (by decide)
  | register h ht =>
      obtain ⟨token', ht', hsigned⟩ := register_eq_ok h
      rw [Option.some.inj (ht.symm.trans ht')]
      exact .inl hsigned

/-! ## The validators -/

/-- What `golang-jwt` reads of a token that was handed out has the method of Ed25519. -/
theorem method_of_handed {α : Type} {fl : Floats} {claims : List UInt8 → Except String α}
    {token : List Char} (h : Handed c frac format token) {t : GoJwt.Token α} {s : GoJwt.Segments}
    (hp : GoJwt.parseUnverified ⟨readAlg fl, claims⟩ token = .ok (t, s)) :
    t.alg = "EdDSA" ∧ t.method = .of .edDSA := by
  rcases handed_cases h with ⟨key, kid, cl, -, hsigned⟩ | hdot
  · rw [hsigned] at hp
    exact GoJwt.method_of_parseUnverified_sign (header_json fl claims ⟨.edDSA, kid⟩) hp
  · obtain ⟨e, he⟩ := GoJwt.parseUnverified_of_dot_notMem hdot
    cases he.symm.trans hp

theorem validateToken_handed {fl : Floats} {key : Priv} {issuer audience : String} {now : Instant}
    {token : List Char} (h : Handed c frac format token) (cl : ParsedClaims) :
    (newJWTVerifier c key issuer audience).validateToken c fl now token ≠ .ok cl := by
  intro hv
  obtain ⟨t, -, ht⟩ := validateToken_eq_ok.mp hv
  obtain ⟨s, hp, hm, -⟩ := GoJwt.parseWithClaims_eq_ok_iff.mp ht
  have hmem := hm ["RS256", "ES256"] rfl
  rw [(method_of_handed h hp).1] at hmem
  exact absurd hmem (by decide)

theorem parseToken_handed {fl : Floats} {schemes : LLMProxy.Schemes Priv Pub} {key : Pub}
    {now : Instant} {token : List Char} (h : Handed c frac format token)
    (t : GoJwt.Token LLMProxy.TokenClaims) :
    LLMProxy.parseToken fl schemes now key (String.ofList token) ≠ .ok t := by
  intro ht
  obtain ⟨s, hp, hm, -⟩ := LLMProxy.parseToken_eq_ok_iff.mp ht
  rw [String.toList_ofList] at hp
  rw [(method_of_handed h hp).2] at hm
  rcases hm with hm | hm <;> cases hm

/-- A text without a dot is no token. -/
theorem split_of_dot_notMem {token : List Char} (h : '.' ∉ token) :
    Jwt.split token = .error "InvalidToken" := by
  have hdrop : token.reverse.dropWhile (· ≠ '.') = [] := by
    rw [List.dropWhile_eq_nil_iff]
    intro x hx
    exact decide_eq_true fun hd => h (hd ▸ List.mem_reverse.mp hx)
  simp only [Jwt.split, Jwt.rsplit, hdrop]

theorem gateway_handed {v : Gateway.JwtValidator Pub}
    (hkey : ∀ key, v.staticKey = some key → c.family key = .rsa) {token : List Char}
    (h : Handed c frac format token) (t : ℕ) : ∃ e, v.validate c t token = .error e := by
  rcases handed_cases h with ⟨key, kid, cl, -, hsigned⟩ | hdot
  · rw [hsigned, Gateway.JwtValidator.validate, Jwt.decodeHeader_sign, ok_bind]
    cases hv : v.staticKey with
    | none => exact ⟨_, rfl⟩
    | some pub =>
        -- the algorithm of the token does not fit the key
        have hany : ([Jwt.Algorithm.edDSA].any fun a => a.family ≠ c.family pub) = true := by
          simp [Jwt.Algorithm.family, hkey pub hv]
        have hs : Jwt.verifySignature c pub { v.validation with algorithms := [.edDSA] }
            (Jwt.sign c key ⟨.edDSA, kid⟩ (.object cl.fields)) = .error "InvalidAlgorithm" := by
          rw [Jwt.verifySignature, if_neg (by simp), if_pos hany]
        exact ⟨"InvalidAlgorithm", by simp only [Jwt.decode, hs, error_bind]⟩
  · have hheader : Jwt.decodeHeader token = .error "InvalidToken" := by
      rw [Jwt.decodeHeader, split_of_dot_notMem hdot]
      rfl
    exact ⟨_, by rw [Gateway.JwtValidator.validate, hheader, error_bind]⟩

theorem rustGateway_handed (v : RustGateway.JwtValidator Pub) {token : List Char}
    (h : Handed c frac format token) (t : ℕ) : ∃ e, v.validate c t token = .error e := by
  rcases handed_cases h with ⟨key, kid, cl, haud, hsigned⟩ | hdot
  · rw [hsigned]
    exact RustGateway.validate_fields_fails v key ⟨.edDSA, kid⟩ haud t
  · obtain ⟨e, he⟩ : ∃ e, Jwt.verifySignature c v.decodingKey v.validation token = .error e := by
      rw [Jwt.verifySignature, split_of_dot_notMem hdot]
      split_ifs
      · exact ⟨_, rfl⟩
      · exact ⟨_, rfl⟩
      · exact ⟨_, rfl⟩
    exact ⟨_, by rw [RustGateway.JwtValidator.validate, Jwt.decode, he]; rfl⟩

/-- The key of the gateway is one that was read from a file. -/
theorem staticKey_of_new {fromRsaPem : List UInt8 → Except String Pub}
    {file : Option (Except String (List UInt8))} {issuer audience : String}
    {v : Gateway.JwtValidator Pub}
    (hv : Gateway.JwtValidator.new fromRsaPem file issuer audience = .ok v) {key : Pub}
    (hk : v.staticKey = some key) : ∃ pem, fromRsaPem pem = .ok key := by
  unfold Gateway.JwtValidator.new at hv
  rcases file with _ | read
  · cases hv
    cases hk
  · cases read with
    | error e => cases hv
    | ok pem =>
        obtain ⟨staticKey, hs, hv⟩ := bind_eq_ok.mp hv
        obtain ⟨pub, hpub, rfl⟩ := map_eq_ok.mp hs
        cases hv
        exact ⟨pem, (Option.some.inj hk) ▸ hpub⟩

/-- **No validator takes a token that is handed out.** Whatever keys the endpoints sign with and
whatever a client asks for, the tokens of `HandleToken`, `HandleRefresh` and
`HandleDevPortalRegister` are rejected at every time: by `JWTService`, by the proxy, by the gateway
with an RSA key or without one, and by the Rust gateway with any key. -/
theorem handed_rejected {fromRsaPem : List UInt8 → Except String Pub}
    (hpem : ∀ pem pub, fromRsaPem pem = .ok pub → c.family pub = .rsa)
    {file : Option (Except String (List UInt8))} {issuer audience : String}
    {v : Gateway.JwtValidator Pub}
    (hv : Gateway.JwtValidator.new fromRsaPem file issuer audience = .ok v) {token : List Char}
    (h : Handed c frac format token) :
    (∀ fl key now cl,
        (newJWTVerifier c key issuer audience).validateToken c fl now token ≠ .ok cl) ∧
      (∀ fl (schemes : LLMProxy.Schemes Priv Pub) key now t,
        LLMProxy.parseToken fl schemes now key (String.ofList token) ≠ .ok t) ∧
      (∀ t, ∃ e, v.validate c t token = .error e) ∧
      ∀ (w : RustGateway.JwtValidator Pub) t, ∃ e, w.validate c t token = .error e := by
  have hkey : ∀ key, v.staticKey = some key → c.family key = .rsa := fun key hk =>
    let ⟨pem, hread⟩ := staticKey_of_new hv hk
    hpem pem key hread
  exact ⟨fun fl key now cl => validateToken_handed h cl,
    fun fl schemes key now t => parseToken_handed h t, gateway_handed hkey h,
    fun w => rustGateway_handed w h⟩

/-! ## A registration -/

/-- The JSON of a registration. -/
def sampleRegistration : Value :=
  .object [("project_name", .string "demo"), ("model", .string "gpt-4o"),
    ("provider_url", .string "https://api.example.com")]

/-- `strconv` on the integers of the samples. -/
def sampleFractions : LLMProxy.Fractions := sampleFloats.toFractions

/-- What a registration at the sample time is answered with. -/
def sampleAnswer : Except LLMProxy.Response Value :=
  handleDevPortalRegister textCrypto sampleFractions (fun _ => "2023-11-15T22:13:20Z") .ed
    sampleTime "client-1" "secret-1" "POST" (Utf8.encode (print goEscaper sampleRegistration))

theorem sampleAnswer_eq_ok : ∃ answer, sampleAnswer = .ok answer := by
  have hstops : Stops [] := by
    intro c hc
    cases hc
  have hdecode : decode (Utf8.encode (print goEscaper sampleRegistration)) =
      .ok sampleRegistration := by
    have h : decode (Utf8.encode (print goEscaper sampleRegistration ++ [])) = _ :=
      decode_print goEscaper rfl (by decide) hstops
    rwa [List.append_nil] at h
  have hread : ∃ req, readRegisterRequest sampleFractions sampleRegistration = .ok req ∧
      req.projectName = "demo" ∧ req.model = "gpt-4o" ∧
      req.providerURL = "https://api.example.com" := by
    simp [readRegisterRequest, sampleRegistration, structFields, field, valuesOf, fieldOf,
      registerNames, string]
  obtain ⟨req, hreq, hname, hmodel, hurl⟩ := hread
  simp [sampleAnswer, handleDevPortalRegister, hdecode, hreq, hname, hmodel, hurl]

/-- The token of a registration is rejected half an hour later. -/
theorem handed_rejected_sample :
    ∃ answer token, sampleAnswer = .ok answer ∧ tokenAt "jwt_token" answer = some token ∧
      ∃ e, (gatewayValidator Jwt.Family.rsa "appgate-control-plane" "appgate-gateway").validate
        textCrypto 1700001800 token = .error e := by
  obtain ⟨answer, hanswer⟩ := sampleAnswer_eq_ok
  obtain ⟨token, htoken, -⟩ := register_eq_ok hanswer
  have hpem : ∀ pem pub, readOnly rsaPem .rsa pem = .ok pub → textCrypto.family pub = .rsa := by
    intro pem pub h
    unfold readOnly at h
    split_ifs at h
    exact (Except.ok.inj h).symm
  have hread : readOnly rsaPem .rsa rsaPem = .ok Jwt.Family.rsa := if_pos rfl
  exact ⟨answer, token, hanswer, htoken,
    (handed_rejected hpem (new_eq_ok hread) (.register hanswer htoken)).2.2.1 1700001800⟩

end

end AppGate.Api
