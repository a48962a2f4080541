import AppGate.Auth.Service
import AppGate.Proxy.Access

/-!
# Tokens of the proxy

How `JWTValidator.Middleware` of `internal/auth/jwt.go` reads a token with `golang-jwt`. The key is
an RSA or an ECDSA key; no method, issuer or audience is asked for.

* `TokenClaims`, `decodeClaims`: the claims of an app's token;
* `Schemes`, `verifyKey`, `tokenKeyFunc`, `tokenValidator`: the validator;
* **`tokenValidator_refines`**: it is the validator of the handler, with its decoder filled in;
* **`authenticate_createToken`**: what the proxy makes of the control plane's tokens.
-/

set_option autoImplicit false

namespace AppGate.LLMProxy

open Json Fallible GoStruct GoClaims ControlPlane

/-! ## The validator -/

/-- `Claims` with the embedded `jwt.RegisteredClaims`. -/
structure TokenClaims where
  app : Claims
  registered : GoClaims.Registered
  deriving DecidableEq, Repr

def tokenNames : List String := ["project_id", "user_id", "team", "scopes"] ++ registeredNames

section

variable {Priv Pub : Type} (fl : Floats)

def decodeClaims (data : List UInt8) : Except String TokenClaims := do
  let fields ← fieldsOf data
  let scopes ← field tokenNames strings ([], []) "scopes" fields
  return ⟨⟨← field tokenNames string "" "project_id" fields,
    ← field tokenNames string "" "user_id" fields, ← field tokenNames string "" "team" fields,
    scopes.1⟩, ← readRegistered fl tokenNames fields⟩

/-- Signatures, with ES512. -/
structure Schemes (Priv Pub : Type) extends Jwt.Crypto Priv Pub where
  verifyES512 : Pub → List Char → List UInt8 → Bool

variable (c : Schemes Priv Pub)

/-- `token.Method.Verify` under a public key: the method wants a key of its own type. -/
def verifyKey (key : Pub) : GoJwt.SigningMethod → List Char → List UInt8 → Bool
  | .of alg, text, signature => alg.family = c.family key && c.verify key alg text signature
  | .es512, text, signature => c.family key = .ec && c.verifyES512 key text signature
  | .unsecured, _, _ => false

/-- The type of a method. -/
def methodType : GoJwt.SigningMethod → SigningMethod
  | .unsecured => .unsecured
  | .es512 => .ecdsa
  | .of .hs256 | .of .hs384 | .of .hs512 => .hmac
  | .of .rs256 | .of .rs384 | .of .rs512 => .rsa
  | .of .ps256 | .of .ps384 | .of .ps512 => .rsaPSS
  | .of .es256 | .of .es384 => .ecdsa
  | .of .edDSA => .ed25519

/-- The key function of the middleware. -/
def tokenKeyFunc (publicKey : Pub) (token : GoJwt.Token TokenClaims) : Except String Pub :=
  match methodType token.method with
  | .rsa | .ecdsa => .ok publicKey
  | _ => .error ("unexpected signing method: " ++ token.alg)

/-- The options of `jwt.ParseWithClaims` without any. -/
def tokenParser : GoJwt.Parser := ⟨none, ⟨0, [], ""⟩⟩

/-- `jwt.ParseWithClaims` at time `now`, as the middleware calls it. -/
def parseToken (now : Instant) (key : Pub) (tokenStr : String) :
    Except String (GoJwt.Token TokenClaims) :=
  GoJwt.parseWithClaims clock (verifyKey c) (·.registered.checked) tokenParser
    ⟨readAlg fl, decodeClaims fl⟩ now (tokenKeyFunc key) tokenStr.toList

/-- The validator of the middleware at time `now`. -/
def tokenValidator (now : Instant) (publicKey : Option Pub) : JWTValidator Pub where
  publicKey := publicKey
  parseWithClaims key tokenStr :=
    (parseToken fl c now key tokenStr).map fun t => (t.claims.app, true)

/-- A clock in milliseconds. -/
def ofMillis (ms : ℕ) : Instant :=
  { Instant.ofUnix (ms / 1000 : ℕ) with
    nsec := (ms % 1000 * 1000000 : ℕ)
    nsec_fits := by omega }

/-- A token as the handler sees it. -/
def tokenOf (t : GoJwt.Token TokenClaims) (s : GoJwt.Segments) : Token Pub where
  method := methodType t.method
  alg := t.alg
  claims := t.claims.app
  verify key := (Base64.decodeRawURL s.signature).any fun signature =>
    verifyKey c key t.method s.text signature
  timely ms := tokenParser.validator.validate clock (ofMillis ms) t.claims.registered.checked = []

/-- The decoder of tokens that the handler takes as a parameter. -/
def decodeToken (tokenStr : String) : Except String (Token Pub) :=
  (GoJwt.parseUnverified ⟨readAlg fl, decodeClaims fl⟩ tokenStr.toList).map fun p =>
    tokenOf c p.1 p.2

/-! ## The validator of the handler -/

variable {fl c}

theorem tokenKeyFunc_eq_ok {publicKey key : Pub} {token : GoJwt.Token TokenClaims} :
    tokenKeyFunc publicKey token = .ok key ↔
      key = publicKey ∧ (methodType token.method = .rsa ∨ methodType token.method = .ecdsa) := by
  unfold tokenKeyFunc
  cases methodType token.method <;> simp [eq_comm]

theorem parseToken_eq_ok_iff {now : Instant} {key : Pub} {tokenStr : String}
    {t : GoJwt.Token TokenClaims} :
    parseToken fl c now key tokenStr = .ok t ↔
      ∃ s, GoJwt.parseUnverified ⟨readAlg fl, decodeClaims fl⟩ tokenStr.toList = .ok (t, s) ∧
        (methodType t.method = .rsa ∨ methodType t.method = .ecdsa) ∧
        (∃ signature, Base64.decodeRawURL s.signature = some signature ∧
          verifyKey c key t.method s.text signature = true) ∧
        tokenParser.validator.validate clock now t.claims.registered.checked = [] := by
  rw [parseToken, GoJwt.parseWithClaims_eq_ok_iff]
  constructor
  · rintro ⟨s, hp, -, ⟨signature, key', hsig, hk, hv⟩, herr⟩
    obtain ⟨rfl, hm⟩ := tokenKeyFunc_eq_ok.mp hk
    exact ⟨s, hp, hm, ⟨signature, hsig, hv⟩, herr⟩
  · rintro ⟨s, hp, hm, ⟨signature, hsig, hv⟩, herr⟩
    refine ⟨s, hp, ?_, ⟨signature, key, hsig, tokenKeyFunc_eq_ok.mpr ⟨rfl, hm⟩, hv⟩, herr⟩
    intro methods h
    cases h

theorem valid_of_parseWithClaims {decode : String → Except String (Token Pub)} {ms : ℕ}
    {kf : Token Pub → Except String Pub} {tokenStr : String} {claims : Claims} {valid : Bool}
    (h : parseWithClaims decode ms kf tokenStr = .ok (claims, valid)) : valid = true := by
  unfold parseWithClaims at h
  split at h
  next => cases h
  next =>
    split at h
    next => cases h
    next =>
      split_ifs at h
      cases h
      rfl

/-- The handler's parser with its decoder filled in accepts what `golang-jwt` accepts. -/
theorem parseWithClaims_decodeToken {ms : ℕ} {key : Pub} {tokenStr : String} {claims : Claims}
    {valid : Bool} :
    parseWithClaims (decodeToken fl c) ms (keyFunc key) tokenStr = .ok (claims, valid) ↔
      valid = true ∧ ∃ t, parseToken fl c (ofMillis ms) key tokenStr = .ok t ∧
        t.claims.app = claims := by
  constructor
  · intro h
    obtain ⟨token, key', hd, hk, hv, ht, rfl⟩ := parseWithClaims_eq_ok h
    obtain ⟨⟨t, s⟩, hp, rfl⟩ := map_eq_ok.mp hd
    obtain ⟨rfl, hm⟩ := keyFunc_eq_ok hk
    exact ⟨valid_of_parseWithClaims h, t, parseToken_eq_ok_iff.mpr
      ⟨s, hp, hm, (Option.any_eq_true _ _).mp hv, of_decide_eq_true ht⟩, rfl⟩
  · rintro ⟨rfl, t, ht, rfl⟩
    obtain ⟨s, hp, hm, hv, herr⟩ := parseToken_eq_ok_iff.mp ht
    have hd : decodeToken fl c tokenStr = .ok (tokenOf c t s) := by
      rw [decodeToken, hp]
      rfl
    have hk : keyFunc key (tokenOf c t s) = .ok key := by
      rcases hm with hm | hm <;> simp [keyFunc, tokenOf, hm]
    have hverify : (tokenOf c t s).verify key = true := (Option.any_eq_true _ _).mpr hv
    have htimely : (tokenOf c t s).timely ms = true := decide_eq_true herr
    simp only [parseWithClaims, hd, hk, if_pos hverify, if_pos htimely]
    rfl

/-- Validators with one key that accept the same tokens answer alike. -/
theorem authenticate_congr {v w : JWTValidator Pub} (hkey : v.publicKey = w.publicKey)
    (h : ∀ key tokenStr p, v.parseWithClaims key tokenStr = .ok p ↔
      w.parseWithClaims key tokenStr = .ok p) (authHeader : String) :
    v.authenticate authHeader = w.authenticate authHeader := by
  unfold JWTValidator.authenticate
  rw [hkey]
  cases splitAuth authHeader with
  | none => rfl
  | some p =>
      cases w.publicKey with
      | none => rfl
      | some key =>
          have hkey := h key p.2
          cases hv : v.parseWithClaims key p.2 <;> cases hw : w.parseWithClaims key p.2 <;>
            simp_all

/-- **The decoder filled in.** With `golang-jwt` for the decoder, the validator of the handler is
`tokenValidator`. -/
theorem tokenValidator_refines (lib : Library Pub) (p : LLMProxy Pub) (env : Env)
    (authHeader : String) (hlib : lib.decodeToken = decodeToken fl c) :
    (validator lib p env).authenticate authHeader =
      (tokenValidator fl c (ofMillis env.clock) p.publicKey).authenticate authHeader := by
  have hkey : (validator lib p env).publicKey =
      (tokenValidator fl c (ofMillis env.clock) p.publicKey).publicKey := rfl
  refine authenticate_congr hkey (fun key tokenStr q => ?_) authHeader
  obtain ⟨claims, valid⟩ := q
  rw [validator, hlib, parseWithClaims_decodeToken]
  simp only [tokenValidator, map_eq_ok, Prod.mk.injEq]
  constructor
  · rintro ⟨rfl, t, ht, rfl⟩
    exact ⟨t, ht, rfl, rfl⟩
  · rintro ⟨t, ht, rfl, rfl⟩
    exact ⟨rfl, t, ht, rfl⟩

/-! ## Tokens of the control plane -/

/-- An app's claims in a token of `JWTService`: there are none. -/
theorem decodeClaims_json {cl : ControlPlane.Claims} (hexp : Exact cl.expiresAt)
    (hnbf : Exact cl.notBefore) (hiat : Exact cl.issuedAt) :
    decodeClaims fl (GoJwt.textOf cl.json) =
      .ok ⟨⟨"", "", "", []⟩, cl.parsed.toRegistered⟩ := by
  have hnames : registeredNames ⊆ tokenNames := List.subset_append_right _ _
  have hplain := plain_extra (show Plain tokenNames "roles" by decide) (by decide) cl
  have hnd := nodup_extra cl
  have hnone {name : String} (h : name ∉ ["roles", "scope"]) : cl.extra.lookup name = none := by
    rw [List.lookup_eq_none_iff]
    intro f hf
    have hmem : f.1 ∈ ["roles", "scope"] := by
      simp only [ControlPlane.Claims.extra, List.mem_cons, List.not_mem_nil, or_false] at hf
      rcases hf with rfl | rfl <;> simp
    have hne : name ≠ f.1 := fun heq => h (heq ▸ hmem)
    simpa using hne
  have happ {α : Type} (item : Item α) (zero : α) {name : String} (hname : name ∈ tokenNames)
      (h : name ∉ registeredNames) (h' : name ∉ ["roles", "scope"]) :
      field tokenNames item zero name (cl.fields ++ cl.extra) = .ok zero := by
    rw [field_extra _ hnames hplain hnd item zero hname h, hnone h', store_none]
  rw [decodeClaims, fieldsOf_json, ok_bind,
    happ strings _ (show "scopes" ∈ tokenNames by decide) (by decide) (by decide), ok_bind,
    happ string _ (show "project_id" ∈ tokenNames by decide) (by decide) (by decide), ok_bind,
    happ string _ (show "user_id" ∈ tokenNames by decide) (by decide) (by decide), ok_bind,
    happ string _ (show "team" ∈ tokenNames by decide) (by decide) (by decide), ok_bind,
    readRegistered_fields cl.toRegisteredClaims hnames hplain hnd hexp hnbf hiat]
  rfl

variable {key : Priv} {issuer audience : String} {now issuedAt : Instant}

/-- The dates of a new token, without leeway. -/
theorem validate_parsed (hnow : Ordinary issuedAt) (id identityID : String)
    (roles : Option (List String)) (scope : String) (ttl : Int64) :
    tokenParser.validator.validate clock now ((newJWTService key issuer audience).claims issuedAt id
        identityID roles scope ttl).parsed.checked = [] ↔
      (issuedAt.nanos - 30000000000) / 1000000000 * 1000000000 ≤ now.nanos ∧
        now.nanos < (issuedAt.nanos + ttl.toInt) / 1000000000 * 1000000000 := by
  have hskew : (-thirtySeconds).toInt = -30000000000 := by decide
  have hzero : (0 : Int64).toInt = 0 := by decide
  have hneg : (-0 : Int64) = 0 := by decide
  obtain ⟨hexp, hexp'⟩ := unix_add_ordinary hnow ttl
  obtain ⟨hnbf, hnbf'⟩ := unix_add_ordinary hnow (-thirtySeconds)
  rw [GoJwt.validate_eq_nil_iff]
  simp only [tokenParser, GoClaims.Registered.checked, ControlPlane.Claims.parsed,
    JWTService.claims, newJWTService, clock, Option.some.injEq, forall_eq', Bool.eq_false_iff,
    ne_eq, before_iff, hneg, nanos_ofUnix_add hexp', nanos_ofUnix_add hnbf', hzero, true_or,
    and_true]
  rw [hexp, hnbf, hskew]
  omega

/-- A token of `JWTService` is decided by its dates. -/
theorem parseToken_createToken (hc : c.Correct) (hrsa : c.family (c.publicKey key) = .rsa)
    (hnow : Ordinary issuedAt) (id identityID : String) (roles : Option (List String))
    (scope : String) (ttl : Int64) (t : GoJwt.Token TokenClaims) :
    parseToken fl c now (c.publicKey key) (String.ofList ((newJWTService key issuer
        audience).createToken c.toCrypto issuedAt id identityID roles scope ttl)) = .ok t ↔
      t = ⟨Jwt.Algorithm.rs256.name, .of .rs256, ⟨⟨"", "", "", []⟩, ((newJWTService key issuer
        audience).claims issuedAt id identityID roles scope ttl).parsed.toRegistered⟩⟩ ∧
      (issuedAt.nanos - 30000000000) / 1000000000 * 1000000000 ≤ now.nanos ∧
        now.nanos < (issuedAt.nanos + ttl.toInt) / 1000000000 * 1000000000 := by
  have hheader := header_json fl (decodeClaims fl) ⟨.rs256, some "appgate-signing-key-v1"⟩
  have hcl : (⟨readAlg fl, decodeClaims fl⟩ : GoJwt.Readers TokenClaims).claims
      (GoJwt.textOf ((newJWTService key issuer audience).claims issuedAt id identityID roles scope
        ttl).json) = .ok ⟨⟨"", "", "", []⟩, ((newJWTService key issuer audience).claims issuedAt id
          identityID roles scope ttl).parsed.toRegistered⟩ :=
    decodeClaims_json (unix_add_ordinary hnow _).2 (unix_add_ordinary hnow _).2
      (exact_of_ordinary hnow)
  have hmethods : ∀ methods, tokenParser.validMethods = some methods →
      Jwt.Algorithm.rs256.name ∈ methods := by
    intro methods h
    cases h
  have hkey (claims : TokenClaims) : tokenKeyFunc (c.publicKey key)
      ⟨Jwt.Algorithm.rs256.name, .of .rs256, claims⟩ = .ok (c.publicKey key) := rfl
  have hverify (text : List Char) : verifyKey c (c.publicKey key) (.of .rs256) text
      (c.sign key .rs256 text) = true := by
    simp [verifyKey, hrsa, hc key .rs256 text hrsa.symm, Jwt.Algorithm.family]
  rw [← validate_parsed hnow id identityID roles scope ttl, parseToken, String.toList_ofList]
  exact GoJwt.parseWithClaims_sign hheader hcl hmethods (hkey _) hverify t

/-- **Tokens of the control plane at the proxy.** Under the same key the proxy lets every token of
`JWTService` in from `nbf` on until `exp`, whatever issuer and audience it names, and whatever its
subject and its roles are, as the user `anonymous` of the project `default`. -/
theorem authenticate_createToken (hc : c.Correct) (hrsa : c.family (c.publicKey key) = .rsa)
    (hnow : Ordinary issuedAt) (id identityID : String) (roles : Option (List String))
    (scope : String) (ttl : Int64) :
    let token := (newJWTService key issuer audience).createToken c.toCrypto issuedAt id identityID
      roles scope ttl
    (tokenValidator fl c now (some (c.publicKey key))).authenticate
        ("Bearer " ++ String.ofList token) =
      if (issuedAt.nanos - 30000000000) / 1000000000 * 1000000000 ≤ now.nanos ∧
          now.nanos < (issuedAt.nanos + ttl.toInt) / 1000000000 * 1000000000 then
        .ok ⟨"default", "anonymous", "", []⟩
      else .error (NetHttp.httpError "\x7b\"error\":\"invalid token\"\x7d" 401) := by
  intro token
  have hiff (t : GoJwt.Token TokenClaims) :
      parseToken fl c now (c.publicKey key) (String.ofList token) = .ok t ↔ _ :=
    parseToken_createToken hc hrsa hnow id identityID roles scope ttl t
  have hsplit := splitAuth_bearer token
  have hne : "Bearer " ++ String.ofList token ≠ "" := by
    intro h
    rw [h] at hsplit
    cases hsplit
  have hbearer : toLower "Bearer" = "bearer" := by decide
  simp only [JWTValidator.authenticate, if_neg hne, hsplit, hbearer, ne_eq, not_true_eq_false,
    if_false, tokenValidator]
  split_ifs with hw
  · rw [(hiff _).mpr ⟨rfl, hw⟩]
    rfl
  · cases ht : parseToken fl c now (c.publicKey key) (String.ofList token) with
    | error e => rfl
    | ok t => exact absurd ((hiff t).mp ht).2 hw

/-- The schemes of the samples. -/
def textSchemes : Schemes Jwt.Family Jwt.Family := ⟨textCrypto, fun _ _ _ => false⟩

/-- A token for another audience lets its bearer in. -/
theorem authenticate_createToken_now :
    (tokenValidator sampleFloats textSchemes sampleTime (some .rsa)).authenticate
        ("Bearer " ++ String.ofList
          ((newJWTService Jwt.Family.rsa "appgate" "appgate-gateway").createToken textCrypto
            sampleTime "id-1" "alice" (some ["dev"]) "chat" 3600000000000)) =
      .ok ⟨"default", "anonymous", "", []⟩ := by
  have hw : (sampleTime.nanos - 30000000000) / 1000000000 * 1000000000 ≤ sampleTime.nanos ∧
      sampleTime.nanos < (sampleTime.nanos + (3600000000000 : Int64).toInt) / 1000000000 *
        1000000000 := by
    decide
  exact (authenticate_createToken (c := textSchemes) textCrypto_correct rfl ordinary_sampleTime
    "id-1" "alice" (some ["dev"]) "chat" 3600000000000).trans (if_pos hw)

end

end AppGate.LLMProxy
