import AppGate.Auth.GoClaims
import AppGate.Auth.Validate

/-!
# `JWTService` checks tokens

`ValidateToken`, `Middleware` and `RequireRole` of `control-plane/internal/auth/jwt.go`. The list of
allowed algorithms names ES256, but the key is an RSA key.

* `ParsedClaims`, `decodeClaims`: the claims of a token;
* `JWTVerifier`, `JWTVerifier.validateToken`: the part of `JWTService` that checks;
* `JWTVerifier.middleware`, `requireRole`, `guarded`: the handlers in front of another one;
* **`validateToken_eq_ok_iff`**: what an accepted token proves;
* **`validateToken_createToken`**: the service accepts its own tokens, and when;
* **`guarded_eq`**: which requests reach a handler behind a role.
-/

set_option autoImplicit false

namespace AppGate

namespace ControlPlane

open Json Fallible GoStruct GoClaims
open NetHttp (httpError)

/-! ## Claims -/

/-- `Claims`, as they are read: dates may be missing. -/
structure ParsedClaims extends GoClaims.Registered where
  roles : List String
  scope : String
  metadata : List (String × String)
  deriving DecidableEq, Repr

/-- The names of the fields of `Claims`, those of the embedded struct first. -/
def claimsNames : List String := registeredNames ++ ["roles", "scope", "metadata"]

section

variable {Priv Pub : Type} (c : Jwt.Crypto Priv Pub) (fl : Floats)

def decodeClaims (data : List UInt8) : Except String ParsedClaims := do
  let fields ← fieldsOf data
  let registered ← readRegistered fl claimsNames fields
  let roles ← field claimsNames strings ([], []) "roles" fields
  return ⟨registered, roles.1, ← field claimsNames string "" "scope" fields,
    ← field claimsNames stringMap [] "metadata" fields⟩

/-! ## The service -/

/-- `JWTService` with the key and the algorithms it checks tokens by. -/
structure JWTVerifier (Priv Pub : Type) extends JWTService Priv where
  verifyingKey : Pub
  allowedAlgs : List String

/-- `NewJWTService`, with these. -/
def newJWTVerifier (signingKey : Priv) (issuer audience : String) : JWTVerifier Priv Pub :=
  ⟨newJWTService signingKey issuer audience, c.publicKey signingKey, ["RS256", "ES256"]⟩

/-- `token.Method.Verify` under an `*rsa.PublicKey`; the other methods want keys of other types. -/
def rsaVerify (key : Pub) : GoJwt.SigningMethod → List Char → List UInt8 → Bool
  | .of alg, text, signature => alg.family = .rsa && c.verify key alg text signature
  | _, _, _ => false

namespace JWTVerifier

variable (s : JWTVerifier Priv Pub)

/-- The key function of `ValidateToken`. -/
def keyFunc (token : GoJwt.Token ParsedClaims) : Except String Pub :=
  if token.method ∈ [.of .rs256, .of .rs384, .of .rs512] ∨
      token.method ∈ [.of .es256, .of .es384, .es512] then
    if token.alg ∈ s.allowedAlgs then .ok s.verifyingKey
    else .error ("signing algorithm " ++ token.alg ++ " not allowed")
  else .error ("unexpected signing method: " ++ token.alg)

/-- The options of `ValidateToken`. -/
def parser : GoJwt.Parser := ⟨some s.allowedAlgs, ⟨s.clockSkew, [s.audience], s.issuer⟩⟩

/-- `ValidateToken` at time `now`. -/
def validateToken (now : Instant) (token : List Char) : Except String ParsedClaims :=
  match GoJwt.parseWithClaims clock (rsaVerify c) (·.checked) s.parser
      ⟨readAlg fl, decodeClaims fl⟩ now s.keyFunc token with
  | .error e => .error ("token validation failed: " ++ e)
  | .ok t => .ok t.claims

/-! ## The handlers -/

/-- `Middleware` in front of a handler that gets the claims. -/
def middleware (now : Instant) (authHeader : String) (next : ParsedClaims → LLMProxy.Response) :
    LLMProxy.Response :=
  if authHeader = "" then httpError "\x7b\"error\":\"missing authorization header\"\x7d" 401
  else
    match LLMProxy.splitAuth authHeader with
    | none => httpError "\x7b\"error\":\"invalid authorization header format\"\x7d" 401
    | some (scheme, token) =>
      if ¬ equalFold scheme "bearer" then
        httpError "\x7b\"error\":\"invalid authorization header format\"\x7d" 401
      else
        match s.validateToken c fl now token.toList with
        | .error _ => httpError "\x7b\"error\":\"invalid or expired token\"\x7d" 401
        | .ok claims => next claims

end JWTVerifier

/-- `RequireRole`, on the claims in the context. -/
def requireRole (role : String) (claims : Option ParsedClaims)
    (next : ParsedClaims → LLMProxy.Response) : LLMProxy.Response :=
  match claims with
  | none => httpError "\x7b\"error\":\"unauthorized\"\x7d" 403
  | some claims =>
    if role ∈ claims.roles then next claims
    else httpError "\x7b\"error\":\"forbidden\"\x7d" 403

/-- A handler behind both. -/
def JWTVerifier.guarded (s : JWTVerifier Priv Pub) (role : String) (now : Instant)
    (authHeader : String) (next : ParsedClaims → LLMProxy.Response) : LLMProxy.Response :=
  s.middleware c fl now authHeader fun claims => requireRole role (some claims) next

/-! ## What an accepted token proves -/

/-- The parts of a token with an RS256 header, and its claims. -/
def Presents (token : List Char) (s : GoJwt.Segments) (cl : ParsedClaims) : Prop :=
  GoJwt.splitToken token = some s ∧
    (∃ bs, Base64.decodeRawURL s.header = some bs ∧ readAlg fl bs = .ok (some "RS256")) ∧
    ∃ bs, Base64.decodeRawURL s.claims = some bs ∧ decodeClaims fl bs = .ok cl

/-- The signature is one of RS256 under the key. -/
def SignedBy (pub : Pub) (s : GoJwt.Segments) : Prop :=
  ∃ signature, Base64.decodeRawURL s.signature = some signature ∧
    c.verify pub .rs256 s.text signature = true

/-- The dates that are there allow the time, up to half a minute. -/
def Current (now : Instant) (cl : ParsedClaims) : Prop :=
  (∀ exp, cl.expiresAt = some exp → now.before (exp.add thirtySeconds) = true) ∧
    ∀ nbf, cl.notBefore = some nbf → now.before (nbf.add (-thirtySeconds)) = false

/-- From the issuer, if one is set, and for the audience. -/
def AddressedTo (issuer audience : String) (cl : ParsedClaims) : Prop :=
  cl.audience ≠ [""] ∧ audience ∈ cl.audience ∧ (issuer = "" ∨ cl.issuer = issuer)

variable {c fl} {key : Priv} {issuer audience : String} {now : Instant}

theorem validateToken_eq_ok {s : JWTVerifier Priv Pub} {token : List Char} {cl : ParsedClaims} :
    s.validateToken c fl now token = .ok cl ↔ ∃ t, t.claims = cl ∧
      GoJwt.parseWithClaims clock (rsaVerify c) (·.checked) s.parser ⟨readAlg fl, decodeClaims fl⟩
        now s.keyFunc token = .ok t := by
  unfold JWTVerifier.validateToken
  cases GoJwt.parseWithClaims clock (rsaVerify c) (·.checked) s.parser
      ⟨readAlg fl, decodeClaims fl⟩ now s.keyFunc token with
  | error e => simp
  | ok t => simp

theorem rsaVerify_of {pub : Pub} {alg : Jwt.Algorithm} {text : List Char}
    {signature : List UInt8} : rsaVerify c pub (.of alg) text signature = true ↔
      alg.family = .rsa ∧ c.verify pub alg text signature = true := by
  simp [rsaVerify]

/-- Of the two allowed methods, an RSA key verifies only one. -/
theorem eq_rs256_of_verify {t : GoJwt.Token ParsedClaims} {pub : Pub} {text : List Char}
    {signature : List UInt8} (ha : t.alg ∈ ["RS256", "ES256"])
    (hm : GoJwt.getSigningMethod t.alg = some t.method)
    (hv : rsaVerify c pub t.method text signature = true) :
    t.alg = "RS256" ∧ c.verify pub .rs256 text signature = true := by
  obtain ⟨alg, method, claims⟩ := t
  rcases List.mem_cons.mp ha with rfl | ha
  · obtain rfl : GoJwt.SigningMethod.of .rs256 = method :=
      Option.some.inj ((GoJwt.getSigningMethod_name .rs256).symm.trans hm)
    exact ⟨rfl, (rsaVerify_of.mp hv).2⟩
  · obtain rfl := List.mem_singleton.mp ha
    obtain rfl : GoJwt.SigningMethod.of .es256 = method :=
      Option.some.inj ((GoJwt.getSigningMethod_name .es256).symm.trans hm)
    cases hv

/-- The checks of the claims. -/
theorem validate_eq_nil_iff {cl : ParsedClaims} :
    (newJWTVerifier c key issuer audience).parser.validator.validate clock now cl.checked = [] ↔
      Current now cl ∧ AddressedTo issuer audience cl := by
  rw [GoJwt.validate_eq_nil_iff]
  simp [JWTVerifier.parser, newJWTVerifier, newJWTService, GoClaims.Registered.checked, Current,
    AddressedTo, clock, and_assoc]

/-- The key function hands out one key. -/
theorem keyFunc_eq_ok {s : JWTVerifier Priv Pub} {t : GoJwt.Token ParsedClaims} {pub : Pub}
    (h : s.keyFunc t = .ok pub) : pub = s.verifyingKey ∧ t.alg ∈ s.allowedAlgs := by
  unfold JWTVerifier.keyFunc at h
  split_ifs at h with hm ha
  exact ⟨(Except.ok.inj h).symm, ha⟩

/-- **What an accepted token proves.** The service accepts a token if and only if it has an RS256
header, is signed by the service's key, and is current and addressed to the service; the claims are
those of the token. -/
theorem validateToken_eq_ok_iff {token : List Char} {cl : ParsedClaims} :
    (newJWTVerifier c key issuer audience).validateToken c fl now token = .ok cl ↔
      (∃ s, Presents fl token s cl ∧ SignedBy c (c.publicKey key) s) ∧ Current now cl ∧
        AddressedTo issuer audience cl := by
  rw [validateToken_eq_ok]
  constructor
  · rintro ⟨t, rfl, h⟩
    obtain ⟨s, hp, hm, ⟨signature, pub, hsig, hk, hv⟩, herr⟩ := GoJwt.parseWithClaims_eq_ok_iff.mp h
    obtain ⟨hs, hhead, hmethod, hclaims⟩ := GoJwt.parseUnverified_eq_ok_iff.mp hp
    obtain ⟨rfl, ha⟩ := keyFunc_eq_ok hk
    obtain ⟨halg, hverify⟩ := eq_rs256_of_verify ha hmethod hv
    rw [halg] at hhead
    exact ⟨⟨s, ⟨hs, hhead, hclaims⟩, signature, hsig, hverify⟩, validate_eq_nil_iff.mp herr⟩
  · rintro ⟨⟨s, ⟨hs, hhead, hclaims⟩, signature, hsig, hverify⟩, hcl⟩
    have hp : GoJwt.parseUnverified ⟨readAlg fl, decodeClaims fl⟩ token =
        .ok (⟨"RS256", .of .rs256, cl⟩, s) :=
      GoJwt.parseUnverified_eq_ok_iff.mpr
        ⟨hs, hhead, GoJwt.getSigningMethod_name .rs256, hclaims⟩
    refine ⟨⟨"RS256", .of .rs256, cl⟩, rfl, GoJwt.parseWithClaims_eq_ok_iff.mpr
      ⟨s, hp, ?_, ⟨signature, c.publicKey key, hsig, rfl, ?_⟩, validate_eq_nil_iff.mpr hcl⟩⟩
    · intro methods hmethods
      cases hmethods
      exact List.mem_cons_self
    · exact rsaVerify_of.mpr ⟨rfl, hverify⟩

/-! ## Tokens of the service -/

/-- The fields behind the registered ones. -/
def Claims.extra (cl : Claims) : List (String × Value) :=
  [("roles", (cl.roles.map .strings).getD .null), ("scope", .string cl.scope)]

theorem depth_extra (cl : Claims) : ∀ f ∈ cl.extra, f.2.depth ≤ 1 := by
  intro f hf
  rcases List.mem_cons.mp hf with rfl | hf
  · cases hr : cl.roles with
    | none => exact Nat.zero_le 1
    | some roles =>
        refine depth_array_le fun v hv => ?_
        obtain ⟨role, -, rfl⟩ := List.mem_map.mp hv
        exact Nat.le_refl 0
  · rw [List.mem_singleton.mp hf]
    exact Nat.zero_le 1

theorem plain_extra {names : List String} (hroles : Plain names "roles")
    (hscope : Plain names "scope") (cl : Claims) : ∀ f ∈ cl.extra, Plain names f.1 := by
  intro f hf
  rcases List.mem_cons.mp hf with rfl | hf
  · exact hroles
  · rw [List.mem_singleton.mp hf]
    exact hscope

theorem nodup_extra (cl : Claims) : (registeredNames ++ cl.extra.map Prod.fst).Nodup := by
  simp [Claims.extra, registeredNames]

theorem fieldsOf_json (cl : Claims) :
    fieldsOf (GoJwt.textOf cl.json) = .ok (cl.fields ++ cl.extra) :=
  fieldsOf_textOf (Nat.le_trans (depth_fields_le _ (depth_extra cl)) (by decide))

/-- Claims as they are read from a token: dates are whole seconds. -/
def Claims.parsed (cl : Claims) : ParsedClaims :=
  ⟨⟨cl.issuer, cl.subject, cl.audience, some (.ofUnix cl.expiresAt.unix),
    some (.ofUnix cl.notBefore.unix), some (.ofUnix cl.issuedAt.unix), cl.id⟩,
    cl.roles.getD [], cl.scope, []⟩

/-- What is read of the claims that `CreateToken` signs. -/
theorem decodeClaims_json {cl : Claims} (hexp : Exact cl.expiresAt) (hnbf : Exact cl.notBefore)
    (hiat : Exact cl.issuedAt) :
    decodeClaims fl (GoJwt.textOf cl.json) = .ok cl.parsed := by
  have hnames : registeredNames ⊆ claimsNames := List.subset_append_left _ _
  have hplain := plain_extra (show Plain claimsNames "roles" by decide) (by decide) cl
  have hnd := nodup_extra cl
  obtain ⟨roles, hroles, hfst⟩ : ∃ roles, store strings ([], []) (cl.extra.lookup "roles") =
      .ok roles ∧ roles.1 = cl.roles.getD [] := by
    cases hr : cl.roles with
    | none => exact ⟨([], []), by simp [Claims.extra, hr, strings], rfl⟩
    | some roles =>
        obtain ⟨p, hp, hpfst⟩ := map_eq_ok.mp (strings_strings ([], []) roles)
        exact ⟨p, by simp [Claims.extra, hr, hp], hpfst⟩
  rw [decodeClaims, fieldsOf_json, ok_bind,
    readRegistered_fields cl.toRegisteredClaims hnames hplain hnd hexp hnbf hiat, ok_bind,
    field_extra _ hnames hplain hnd strings _ (by decide) (by decide),
    field_extra _ hnames hplain hnd string _ (by decide) (by decide),
    field_extra _ hnames hplain hnd stringMap _ (by decide) (by decide), hroles, ok_bind, hfst]
  simp [Claims.extra, string, Claims.parsed]

/-- The clock of an issuer: after 1970, and so that dates fit into a `float64`. -/
def Ordinary (now : Instant) : Prop :=
  0 ≤ now.nanos ∧ now.nanos < 9007190000000000 * 1000000000

theorem unix_add_ordinary {now : Instant} (h : Ordinary now) (d : Int64) :
    (now.add d).unix = (now.nanos + d.toInt) / 1000000000 ∧ Exact (now.add d) := by
  obtain ⟨hlo, hhi⟩ := h
  have hd := d.le_toInt
  have hd' := d.toInt_lt
  have hunix := unix_add (d := d) hlo (by rw [endOfTime, unixToInternal]; omega)
  refine ⟨hunix, ?_⟩
  rw [Exact, hunix]
  omega

theorem exact_of_ordinary {now : Instant} (h : Ordinary now) : Exact now := by
  obtain ⟨hlo, hhi⟩ := h
  rw [Exact, unix_eq hlo]
  omega

/-- A date that was read, moved by the leeway. -/
theorem nanos_ofUnix_add {sec : ℤ} (h : sec.natAbs < 9007199254740992) (d : Int64) :
    ((Instant.ofUnix sec).add d).nanos = sec * 1000000000 + d.toInt := by
  have hext : (Instant.ofUnix sec).ext = sec + unixToInternal := ext_ofUnix (by omega)
  rw [unixToInternal] at hext
  rw [nanos_add (by omega), nanos_ofUnix (by omega)]

/-- A signed token is decided by its claims. -/
theorem validateToken_sign (hc : c.Correct) (hrsa : c.family (c.publicKey key) = .rsa)
    {kid : Option String} {payload : Value} {cl : ParsedClaims}
    (hcl : decodeClaims fl (GoJwt.textOf payload) = .ok cl) (cl' : ParsedClaims) :
    (newJWTVerifier c key issuer audience).validateToken c fl now
        (Jwt.sign c key ⟨.rs256, kid⟩ payload) = .ok cl' ↔
      cl' = cl ∧ Current now cl ∧ AddressedTo issuer audience cl := by
  have hmethods : ∀ methods, (newJWTVerifier c key issuer audience).parser.validMethods =
      some methods → (Jwt.Algorithm.rs256).name ∈ methods := by
    intro methods h
    cases h
    exact List.mem_cons_self
  have hverify (text : List Char) : rsaVerify c (c.publicKey key) (.of .rs256) text
      (c.sign key .rs256 text) = true := rsaVerify_of.mpr ⟨rfl, hc key .rs256 text hrsa.symm⟩
  have hkey : (newJWTVerifier c key issuer audience).keyFunc
      ⟨Jwt.Algorithm.rs256.name, .of .rs256, cl⟩ = .ok (c.publicKey key) := rfl
  have hheader := header_json fl (decodeClaims fl) ⟨.rs256, kid⟩
  have hsign (t : GoJwt.Token ParsedClaims) :
      GoJwt.parseWithClaims clock (rsaVerify c) (·.checked)
          (newJWTVerifier c key issuer audience).parser ⟨readAlg fl, decodeClaims fl⟩ now
          (newJWTVerifier c key issuer audience).keyFunc (Jwt.sign c key ⟨.rs256, kid⟩ payload) =
        .ok t ↔ t = ⟨Jwt.Algorithm.rs256.name, .of .rs256, cl⟩ ∧
          (newJWTVerifier c key issuer audience).parser.validator.validate clock now
            cl.checked = [] :=
    GoJwt.parseWithClaims_sign hheader hcl hmethods hkey hverify t
  rw [validateToken_eq_ok, ← @validate_eq_nil_iff _ _ c key]
  constructor
  · rintro ⟨t, rfl, ht⟩
    obtain ⟨rfl, herr⟩ := (hsign t).mp ht
    exact ⟨rfl, herr⟩
  · rintro ⟨rfl, herr⟩
    exact ⟨_, rfl, (hsign _).mpr ⟨rfl, herr⟩⟩

/-- The claims of a new token are current around the lifetime they were created with. -/
theorem current_parsed {issuedAt : Instant} (hnow : Ordinary issuedAt) (id identityID : String)
    (roles : Option (List String)) (scope : String) (ttl : Int64) :
    Current now ((newJWTService key issuer audience).claims issuedAt id identityID roles scope
        ttl).parsed ↔
      ((issuedAt.nanos - 30000000000) / 1000000000 - 30) * 1000000000 ≤ now.nanos ∧
        now.nanos < ((issuedAt.nanos + ttl.toInt) / 1000000000 + 30) * 1000000000 := by
  have hskew : (-thirtySeconds).toInt = -30000000000 := by decide
  have hskew' : thirtySeconds.toInt = 30000000000 := by decide
  obtain ⟨hexp, hexp'⟩ := unix_add_ordinary hnow ttl
  obtain ⟨hnbf, hnbf'⟩ := unix_add_ordinary hnow (-thirtySeconds)
  simp only [Current, Claims.parsed, JWTService.claims, newJWTService, Option.some.injEq,
    forall_eq', Bool.eq_false_iff, ne_eq, before_iff, nanos_ofUnix_add hexp',
    nanos_ofUnix_add hnbf', hskew']
  rw [hexp, hnbf, hskew]
  omega

theorem decodeClaims_claims {issuedAt : Instant} (hnow : Ordinary issuedAt) (id identityID : String)
    (roles : Option (List String)) (scope : String) (ttl : Int64) :
    decodeClaims fl (GoJwt.textOf ((newJWTService key issuer audience).claims issuedAt id identityID
        roles scope ttl).json) =
      .ok ((newJWTService key issuer audience).claims issuedAt id identityID roles scope
        ttl).parsed :=
  decodeClaims_json (unix_add_ordinary hnow _).2 (unix_add_ordinary hnow _).2
    (exact_of_ordinary hnow)

theorem addressedTo_parsed (issuedAt : Instant) (id identityID : String)
    (roles : Option (List String)) (scope : String) (ttl : Int64) :
    AddressedTo issuer audience ((newJWTService key issuer audience).claims issuedAt id identityID
      roles scope ttl).parsed ↔ audience ≠ "" := by
  simp [AddressedTo, Claims.parsed, JWTService.claims, newJWTService]

/-- **Tokens of the service.** Whatever its roles, scope and lifetime, a token is accepted by the
service that created it if and only if the service has an audience and the time is from half a
minute before `nbf` to half a minute after `exp`; what is read is what it was created with. -/
theorem validateToken_createToken (hc : c.Correct) (hrsa : c.family (c.publicKey key) = .rsa)
    {issuedAt : Instant} (hnow : Ordinary issuedAt) (id identityID : String)
    (roles : Option (List String)) (scope : String) (ttl : Int64) (cl : ParsedClaims) :
    let service := newJWTVerifier c key issuer audience
    service.validateToken c fl now
        (service.createToken c issuedAt id identityID roles scope ttl) = .ok cl ↔
      (audience ≠ "" ∧
        ((issuedAt.nanos - 30000000000) / 1000000000 - 30) * 1000000000 ≤ now.nanos ∧
        now.nanos < ((issuedAt.nanos + ttl.toInt) / 1000000000 + 30) * 1000000000) ∧
      cl = (service.claims issuedAt id identityID roles scope ttl).parsed := by
  intro service
  have hsign : service.validateToken c fl now
      (service.createToken c issuedAt id identityID roles scope ttl) = .ok cl ↔ _ :=
    validateToken_sign hc hrsa (decodeClaims_claims hnow id identityID roles scope ttl) cl
  rw [hsign, addressedTo_parsed, current_parsed hnow]
  exact ⟨fun ⟨h, hcur, haud⟩ => ⟨⟨haud, hcur⟩, h⟩, fun ⟨⟨haud, hw⟩, h⟩ => ⟨h, hw, haud⟩⟩

/-- `strconv` and `math` on the integers of the samples. -/
def sampleFloats : Floats := ⟨⟨fun _ => none, fun _ => .ofInt 0⟩, fun _ => 0⟩

theorem ordinary_sampleTime : Ordinary sampleTime := ⟨by decide, by decide⟩

/-- A token for one hour is accepted in the thirtieth second after it. -/
theorem validateToken_createToken_late :
    let service := newJWTVerifier textCrypto .rsa "appgate" "appgate-gateway"
    service.validateToken textCrypto sampleFloats (sampleTime.add 3629000000000)
        (service.createToken textCrypto sampleTime "id-1" "alice" (some ["admin"]) "chat"
          3600000000000) =
      .ok (service.claims sampleTime "id-1" "alice" (some ["admin"]) "chat" 3600000000000).parsed :=
  (validateToken_createToken textCrypto_correct rfl ordinary_sampleTime "id-1" "alice"
    (some ["admin"]) "chat" 3600000000000 _).mpr ⟨⟨by decide, by decide, by decide⟩, rfl⟩

/-! ## Requests that reach a handler -/

/-- The request has a bearer token that is signed by the key, current, addressed to the service, and
names the role; its claims are `cl`. -/
def Admitted (c : Jwt.Crypto Priv Pub) (fl : Floats) (pub : Pub) (issuer audience role : String)
    (now : Instant) (authHeader : String) (cl : ParsedClaims) : Prop :=
  ∃ scheme token, LLMProxy.splitAuth authHeader = some (scheme, token) ∧
    equalFold scheme "bearer" = true ∧
    ((∃ s, Presents fl token.toList s cl ∧ SignedBy c pub s) ∧ Current now cl ∧
      AddressedTo issuer audience cl) ∧ role ∈ cl.roles

theorem splitAuth_empty : LLMProxy.splitAuth "" = none := rfl

/-- **Requests behind a role.** A handler behind the two middlewares answers every request that is
admitted, with the claims of its token; any other request is answered with 401 or 403, whatever the
handler is. -/
theorem guarded_eq (role authHeader : String) :
    (∀ cl, Admitted c fl (c.publicKey key) issuer audience role now authHeader cl → ∀ next,
      (newJWTVerifier c key issuer audience).guarded c fl role now authHeader next = next cl) ∧
    ((¬ ∃ cl, Admitted c fl (c.publicKey key) issuer audience role now authHeader cl) →
      ∃ r : LLMProxy.Response, (r.status = 401 ∨ r.status = 403) ∧ ∀ next,
        (newJWTVerifier c key issuer audience).guarded c fl role now authHeader next = r) := by
  constructor
  · rintro cl ⟨scheme, token, hsplit, hscheme, hvalid, hrole⟩ next
    have hne : authHeader ≠ "" := by
      rintro rfl
      cases splitAuth_empty.symm.trans hsplit
    have hok := validateToken_eq_ok_iff.mpr hvalid
    simp only [JWTVerifier.guarded, JWTVerifier.middleware, if_neg hne, hsplit, hscheme,
      not_true_eq_false, if_false, hok, requireRole, if_pos hrole]
  · intro h
    unfold JWTVerifier.guarded JWTVerifier.middleware
    by_cases hne : authHeader = ""
    · exact ⟨_, .inl rfl, fun next => if_pos hne⟩
    · simp only [if_neg hne]
      cases hsplit : LLMProxy.splitAuth authHeader with
      | none => exact ⟨_, .inl rfl, fun next => rfl⟩
      | some p =>
          obtain ⟨scheme, token⟩ := p
          by_cases hscheme : equalFold scheme "bearer" = true
          · cases hok : (newJWTVerifier c key issuer audience).validateToken c fl now
                token.toList with
            | error e =>
                simp only [hscheme, hok, not_true_eq_false, if_false]
                exact ⟨_, .inl rfl, fun next => rfl⟩
            | ok cl =>
                -- the token is accepted, so it is the role that is missing
                have hrole : role ∉ cl.roles := fun hrole =>
                  h ⟨cl, scheme, token, hsplit, hscheme, validateToken_eq_ok_iff.mp hok, hrole⟩
                simp only [hscheme, hok, not_true_eq_false, if_false, requireRole,
                  if_neg hrole]
                exact ⟨_, .inr rfl, fun next => rfl⟩
          · simp only [if_pos hscheme]
            exact ⟨_, .inl rfl, fun next => rfl⟩

theorem splitAuth_bearer (token : List Char) :
    LLMProxy.splitAuth ("Bearer " ++ String.ofList token) =
      some ("Bearer", String.ofList token) := by
  simp [LLMProxy.splitAuth, List.span, List.span.loop]

/-- The token of an administrator reaches the handler for administrators. -/
theorem guarded_admin :
    let service := newJWTVerifier textCrypto .rsa "appgate" "appgate-gateway"
    let token := service.createToken textCrypto sampleTime "id-1" "alice" (some ["admin"]) "chat"
      3600000000000
    service.guarded textCrypto sampleFloats "admin" sampleTime ("Bearer " ++ String.ofList token)
      (fun cl => ⟨200, cl.subject, []⟩) = ⟨200, "alice", []⟩ := by
  intro service token
  have hok : service.validateToken textCrypto sampleFloats sampleTime token =
      .ok (service.claims sampleTime "id-1" "alice" (some ["admin"]) "chat"
        3600000000000).parsed :=
    (validateToken_sign textCrypto_correct rfl
      (decodeClaims_claims ordinary_sampleTime "id-1" "alice" (some ["admin"]) "chat"
        3600000000000) _).mpr
      ⟨rfl, (current_parsed ordinary_sampleTime _ _ _ _ _).mpr ⟨by decide, by decide⟩,
        (addressedTo_parsed _ _ _ _ _ _).mpr (by decide)⟩
  have hlist : (String.ofList token).toList = token := String.toList_ofList
  exact (guarded_eq "admin" ("Bearer " ++ String.ofList token)).1 _
    ⟨"Bearer", String.ofList token, splitAuth_bearer token, rfl,
      validateToken_eq_ok_iff.mp (hlist.symm ▸ hok), List.mem_singleton.mpr rfl⟩ _

end

end ControlPlane

end AppGate
