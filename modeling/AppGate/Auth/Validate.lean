import AppGate.Auth.Issuer

/-!
# Tokens at the gateways

The validators of `gateway/src/jwt.rs` and `rust-gateway/src/jwt.rs`, on the tokens of the control
plane. The audience is a list on the wire: the first validator reads a string or a list, the second
a string only.

* `Gateway.decodeClaims`, `JwtValidator.new`, `JwtValidator.validate`: the gateway;
* `RustGateway.decodeClaims`, `JwtValidator.fromPem`, `JwtValidator.validate`: the Rust gateway;
* **`validate_createToken`**: when the gateway accepts a token of `JWTService`, and what it reads;
* **`validate_issued_fails`**: the Rust gateway rejects every token of `Service`.
-/

set_option autoImplicit false

namespace AppGate

open Json Serde Fallible

/-- The largest `usize`. -/
def maxUsize : ℕ := 18446744073709551615

/-! ## The gateway -/

namespace Gateway

structure Claims where
  sub : String
  iss : String
  aud : List String
  exp : ℕ
  iat : ℕ
  nbf : Option ℕ
  jti : Option String
  roles : Option (List String)
  scope : Option String
  tenantId : Option String
  deriving DecidableEq, Repr

structure ValidatedToken where
  identityId : String
  roles : List String
  scope : String
  tokenId : String
  tenantId : Option String
  expiry : ℕ
  deriving DecidableEq, Repr

/-- A string or a list of strings. -/
def deserializeAudience : Value → Except String (List String)
  | .string s => .ok [s]
  | v => vec string v

def decodeClaims (v : Value) : Except String Claims := do
  let get ← structOf
    ["sub", "iss", "aud", "exp", "iat", "nbf", "jti", "roles", "scope", "tenant_id"] v
  return ⟨← requiredField string "sub" get, ← requiredField string "iss" get,
    ← requiredField deserializeAudience "aud" get,
    ← requiredField (unsigned maxUsize) "exp" get, ← requiredField (unsigned maxUsize) "iat" get,
    ← optionalField (unsigned maxUsize) "nbf" get, ← optionalField string "jti" get,
    ← optionalField (vec string) "roles" get, ← optionalField string "scope" get,
    ← optionalField string "tenant_id" get⟩

structure JwtValidator (Pub : Type) where
  staticKey : Option Pub
  validation : Jwt.Validation

section Validator

variable {Priv Pub : Type}

/-- `JwtValidator::new`. There is no `file` if the path is empty or does not exist. -/
def JwtValidator.new (fromRsaPem : List UInt8 → Except String Pub)
    (file : Option (Except String (List UInt8))) (issuer audience : String) :
    Except String (JwtValidator Pub) := do
  let staticKey ← match file with
    | some (.ok pem) => (fromRsaPem pem).map some
    | some (.error _) => .error "Failed to read JWT key"
    | none => .ok none
  return ⟨staticKey, { Jwt.Validation.new .rs256 with
    issuer := some [issuer], audience := some [audience], leeway := 0 }⟩

/-- `JwtValidator::validate` at time `now`: the algorithm is that of the token's own header. -/
def JwtValidator.validate (c : Jwt.Crypto Priv Pub) (v : JwtValidator Pub) (now : ℕ)
    (token : List Char) : Except String ValidatedToken := do
  let header ← Jwt.decodeHeader token
  match v.staticKey with
  | none => .error "No key available"
  | some key =>
    let claims ← Jwt.decode c key { v.validation with algorithms := [header.alg] } now
      decodeClaims token
    return ⟨claims.sub, claims.roles.getD [], claims.scope.getD "", claims.jti.getD "",
      claims.tenantId, claims.exp⟩

end Validator

end Gateway

/-! ## The Rust gateway -/

namespace RustGateway

structure Claims where
  sub : String
  iss : String
  aud : String
  exp : ℕ
  iat : ℕ
  deriving DecidableEq, Repr

def decodeClaims (v : Value) : Except String Claims := do
  let get ← structOf ["sub", "iss", "aud", "exp", "iat"] v
  return ⟨← requiredField string "sub" get, ← requiredField string "iss" get,
    ← requiredField string "aud" get, ← requiredField (unsigned maxUsize) "exp" get,
    ← requiredField (unsigned maxUsize) "iat" get⟩

structure JwtValidator (Pub : Type) where
  decodingKey : Pub
  validation : Jwt.Validation

/-- The readers of PEM files of `DecodingKey`. -/
structure PemReaders (Pub : Type) where
  fromEdPem : List UInt8 → Except String Pub
  fromRsaPem : List UInt8 → Except String Pub
  fromEcPem : List UInt8 → Except String Pub

section Validator

variable {Priv Pub : Type}

/-- `from_pem`: the first of the readers that takes the file; always EdDSA. -/
def JwtValidator.fromPem (r : PemReaders Pub) (pem : List UInt8) (issuer audience : String) :
    Except String (JwtValidator Pub) := do
  let decodingKey ← (((r.fromEdPem pem).orElseLazy fun _ => r.fromRsaPem pem).orElseLazy
    fun _ => r.fromEcPem pem).mapError ("Unsupported PEM format: " ++ ·)
  return ⟨decodingKey, { Jwt.Validation.new .edDSA with
    issuer := some [issuer], audience := some [audience], validateExp := true,
    validateNbf := false }⟩

/-- `validate` at time `now`. Of the token's data only the claims are kept. -/
def JwtValidator.validate (c : Jwt.Crypto Priv Pub) (v : JwtValidator Pub) (now : ℕ)
    (token : List Char) : Except String Claims :=
  (Jwt.decode c v.decodingKey v.validation now decodeClaims token).mapError
    ("JWT validation failed: " ++ ·)

end Validator

end RustGateway

/-! ## Tokens of `JWTService` at the gateway -/

section RoundTrip

open ControlPlane

theorem unsigned_unix {t : Instant} (h : 0 ≤ t.unix) :
    unsigned maxUsize (.int t.unix) = .ok t.unix.toNat := by
  have hlt := unix_lt t
  exact unsigned_int h (by simp only [maxUsize]; omega)

theorem unsigned_neg {n : ℤ} (h : n < 0) : ∃ e, unsigned maxUsize (.int n) = .error e := by
  obtain ⟨k, rfl⟩ := Int.eq_negSucc_of_lt_zero h
  exact ⟨_, rfl⟩

/-- The claims the gateway reads, if there is a subject: all of them, or an error of `exp`. -/
theorem decodeClaims_json {cl : ControlPlane.Claims} {audience : String} (hiss : cl.issuer ≠ "")
    (hsub : cl.subject ≠ "") (haud : cl.audience = [audience]) (hnbf : 0 ≤ cl.notBefore.unix)
    (hiat : 0 ≤ cl.issuedAt.unix) :
    Gateway.decodeClaims cl.json =
      (unsigned maxUsize (.int cl.expiresAt.unix)).map fun exp =>
        ⟨cl.subject, cl.issuer, [audience], exp, cl.issuedAt.unix.toNat,
          some cl.notBefore.unix.toNat, if cl.id = "" then none else some cl.id, cl.roles,
          some cl.scope, none⟩ := by
  have hr : option (vec string) ((cl.roles.map Value.strings).getD .null) = .ok cl.roles := by
    cases cl.roles <;> simp
  have ha : Gateway.deserializeAudience (.strings [audience]) = .ok [audience] := vec_strings _
  cases hx : unsigned maxUsize (.int cl.expiresAt.unix) <;> by_cases hid : cl.id = "" <;>
    simp [Gateway.decodeClaims, ControlPlane.Claims.json, RegisteredClaims.fields, structOf,
      omitString, omitStrings, requiredField, optionalField, string, unsigned_unix, hiss, hsub,
      haud, hnbf, hiat, ha, hid, hx, hr]

/-- Without a subject there is no field `sub`. -/
theorem decodeClaims_json_of_subject_eq {cl : ControlPlane.Claims} (hsub : cl.subject = "") :
    ∃ e, Gateway.decodeClaims cl.json = .error e := by
  have hl : (cl.fields ++ [("roles", (cl.roles.map Value.strings).getD .null),
      ("scope", .string cl.scope)]).lookup "sub" = none := by
    by_cases hiss : cl.issuer = "" <;> by_cases haud : cl.audience = [] <;>
      by_cases hid : cl.id = "" <;>
      simp [RegisteredClaims.fields, omitString, omitStrings, hiss, hsub, haud, hid]
  cases hg : structOf
      ["sub", "iss", "aud", "exp", "iat", "nbf", "jti", "roles", "scope", "tenant_id"] cl.json with
  | error e => exact ⟨e, by simp [Gateway.decodeClaims, hg]⟩
  | ok get =>
      have hget : get "sub" = none := by
        rw [← hl, structOf_object_eq_ok hg]
      exact ⟨"missing field sub", by simp [Gateway.decodeClaims, hg, requiredField, hget]⟩

/-- What the gateway requires of an RS256 token, for an issuer and an audience. -/
def gatewayValidation (issuer audience : String) : Jwt.Validation :=
  ⟨[.rs256], some [issuer], some [audience], 0, true, false⟩

/-- The registered claims pass a validator for the same issuer and audience until `exp`. -/
theorem validateClaims_json {cl : ControlPlane.Claims} {audience : String} (hiss : cl.issuer ≠ "")
    (haud : cl.audience = [audience]) (hexp : 0 ≤ cl.expiresAt.unix) (now : ℕ) :
    Jwt.validateClaims (gatewayValidation cl.issuer audience) now cl.json =
      if cl.expiresAt.unix < now then .error "ExpiredSignature" else .ok () := by
  obtain ⟨k, hk⟩ := Int.eq_ofNat_of_zero_le hexp
  have hx : (Number.ofInt k).toNat? = some k := Number.toNat?_ofNat k
  by_cases hsub : cl.subject = "" <;> by_cases hid : cl.id = "" <;>
    simp [Jwt.validateClaims, gatewayValidation, ControlPlane.Claims.json,
      RegisteredClaims.fields, structOf, omitString, omitStrings, Jwt.numericClaim,
      Jwt.stringsClaim, Jwt.accepts, Jwt.acceptsAudience, Value.int, Value.strings, string,
      Except.toOption, hiss, hsub, haud, hid, hk, hx]

variable {Priv Pub : Type} {c : Jwt.Crypto Priv Pub} {key : Priv} {issuer audience : String}

/-- The validator for a key, an issuer and an audience. -/
def gatewayValidator (key : Pub) (issuer audience : String) : Gateway.JwtValidator Pub :=
  ⟨some key, gatewayValidation issuer audience⟩

theorem new_eq_ok {fromRsaPem : List UInt8 → Except String Pub} {pem : List UInt8} {pub : Pub}
    (h : fromRsaPem pem = .ok pub) :
    Gateway.JwtValidator.new fromRsaPem (some (.ok pem)) issuer audience =
      .ok (gatewayValidator pub issuer audience) := by
  simp [Gateway.JwtValidator.new, h, gatewayValidator, gatewayValidation, Jwt.Validation.new]

/-- A token signed with the validator's RSA key is decided by its claims. -/
theorem validate_sign (hc : c.Correct) (hrsa : c.family (c.publicKey key) = .rsa)
    (kid : Option String) (payload : Value) (t : ℕ) :
    (gatewayValidator (c.publicKey key) issuer audience).validate c t
        (Jwt.sign c key ⟨.rs256, kid⟩ payload) =
      (Gateway.decodeClaims payload >>= fun claims =>
        Jwt.validateClaims (gatewayValidation issuer audience) t payload >>=
          fun _ => .ok claims) >>= fun claims =>
        .ok ⟨claims.sub, claims.roles.getD [], claims.scope.getD "", claims.jti.getD "",
          claims.tenantId, claims.exp⟩ := by
  have hfam : ∀ a ∈ (gatewayValidation issuer audience).algorithms,
      a.family = c.family (c.publicKey key) := by
    intro a ha
    rw [List.mem_singleton.mp ha, hrsa]
    rfl
  have hd := Jwt.decode_sign hc (h := ⟨.rs256, kid⟩) hfam (List.mem_singleton.mpr rfl) t
    Gateway.decodeClaims payload
  -- the algorithm of the header is the one the validator was made for
  have hval : { gatewayValidation issuer audience with algorithms := [.rs256] } =
      gatewayValidation issuer audience := rfl
  simp only [Gateway.JwtValidator.validate, Jwt.decodeHeader_sign, ok_bind, gatewayValidator, hval,
    hd]
  rfl

/-- Claims with a subject are accepted until `exp`. -/
theorem validate_claims_eq_ok (hc : c.Correct) (hrsa : c.family (c.publicKey key) = .rsa)
    (cl : ControlPlane.Claims) (hiss : cl.issuer ≠ "") (hsub : cl.subject ≠ "")
    (haud : cl.audience = [audience]) (hnbf : 0 ≤ cl.notBefore.unix) (hiat : 0 ≤ cl.issuedAt.unix)
    {t : ℕ} (ht : (t : ℤ) ≤ cl.expiresAt.unix) (kid : Option String) :
    (gatewayValidator (c.publicKey key) cl.issuer audience).validate c t
        (Jwt.sign c key ⟨.rs256, kid⟩ cl.json) =
      .ok ⟨cl.subject, cl.roles.getD [], cl.scope, cl.id, none, cl.expiresAt.unix.toNat⟩ := by
  have hexp : 0 ≤ cl.expiresAt.unix := by omega
  have hid : (if cl.id = "" then none else some cl.id).getD "" = cl.id := by
    split_ifs with h
    · exact h.symm
    · rfl
  rw [validate_sign hc hrsa, decodeClaims_json hiss hsub haud hnbf hiat, unsigned_unix hexp, map_ok,
    ok_bind, validateClaims_json hiss haud hexp, if_neg (by omega)]
  simp [hid]

/-- Claims without a subject, or after `exp`, are rejected. -/
theorem validate_claims_eq_error (hc : c.Correct) (hrsa : c.family (c.publicKey key) = .rsa)
    (cl : ControlPlane.Claims) (hiss : cl.issuer ≠ "") (haud : cl.audience = [audience])
    (hnbf : 0 ≤ cl.notBefore.unix) (hiat : 0 ≤ cl.issuedAt.unix) {t : ℕ}
    (h : ¬ (cl.subject ≠ "" ∧ (t : ℤ) ≤ cl.expiresAt.unix)) (kid : Option String) :
    ∃ e, (gatewayValidator (c.publicKey key) cl.issuer audience).validate c t
      (Jwt.sign c key ⟨.rs256, kid⟩ cl.json) = .error e := by
  rw [validate_sign hc hrsa]
  by_cases hsub : cl.subject = ""
  · obtain ⟨e, he⟩ := decodeClaims_json_of_subject_eq hsub
    exact ⟨e, by rw [he]; rfl⟩
  · have ht : cl.expiresAt.unix < t := Int.not_le.mp fun ht => h ⟨hsub, ht⟩
    rw [decodeClaims_json hiss hsub haud hnbf hiat]
    by_cases hexp : 0 ≤ cl.expiresAt.unix
    · rw [unsigned_unix hexp, map_ok, ok_bind, validateClaims_json hiss haud hexp, if_pos ht]
      exact ⟨_, rfl⟩
    · obtain ⟨e, he⟩ := unsigned_neg (Int.not_le.mp hexp)
      exact ⟨e, by rw [he]; rfl⟩

/-- The dates before `exp` of a token signed half a minute after 1970 or later. -/
theorem dates_nonneg {now : Instant} (hnow : 30000000000 ≤ now.nanos) :
    0 ≤ (now.add (-thirtySeconds)).unix ∧ 0 ≤ now.unix := by
  have hskew : (-thirtySeconds).toInt = -30000000000 := by decide
  have hend : now.nanos + (-thirtySeconds).toInt < endOfTime := by
    have := now.ext_fits
    have := now.nsec_fits
    simp only [hskew, Instant.nanos, endOfTime, unixToInternal]
    omega
  rw [unix_add (by omega) hend, unix_eq (by omega), hskew]
  omega

/-- **Tokens of `JWTService` at the gateway.** With the same RSA key, issuer and audience, a token
is accepted if and only if it has an identity and has not expired, and then its identity, roles,
scope and expiry are those it was created with. -/
theorem validate_createToken (hc : c.Correct) (hrsa : c.family (c.publicKey key) = .rsa)
    (hiss : issuer ≠ "") {fromRsaPem : List UInt8 → Except String Pub} {pem : List UInt8}
    (hpem : fromRsaPem pem = .ok (c.publicKey key)) {v : Gateway.JwtValidator Pub}
    (hv : Gateway.JwtValidator.new fromRsaPem (some (.ok pem)) issuer audience = .ok v)
    {now : Instant} (hnow : 30000000000 ≤ now.nanos) (id identityID : String)
    (roles : Option (List String)) (scope : String) (ttl : Int64) (t : ℕ) :
    let exp := (now.add ttl).unix
    let token := (newJWTService key issuer audience).createToken c now id identityID roles scope ttl
    ((∃ tok, v.validate c t token = .ok tok) ↔ identityID ≠ "" ∧ (t : ℤ) ≤ exp) ∧
      (∀ tok, v.validate c t token = .ok tok → tok.identityId = identityID ∧
        tok.roles = roles.getD [] ∧ tok.scope = scope ∧ (tok.expiry : ℤ) = exp) ∧
      (now.nanos + ttl.toInt < endOfTime → exp = (now.nanos + ttl.toInt) / 1000000000) := by
  intro exp token
  obtain ⟨hnbf, hiat⟩ := dates_nonneg hnow
  obtain rfl : gatewayValidator (c.publicKey key) issuer audience = v :=
    Except.ok.inj ((new_eq_ok hpem).symm.trans hv)
  have hok (h : identityID ≠ "" ∧ (t : ℤ) ≤ exp) :
      (gatewayValidator (c.publicKey key) issuer audience).validate c t token =
        .ok ⟨identityID, roles.getD [], scope, id, none, exp.toNat⟩ :=
    validate_claims_eq_ok hc hrsa
      ((newJWTService key issuer audience).claims now id identityID roles scope ttl)
      hiss h.1 rfl hnbf hiat h.2 _
  have herr (h : ¬ (identityID ≠ "" ∧ (t : ℤ) ≤ exp)) :
      ∃ e, (gatewayValidator (c.publicKey key) issuer audience).validate c t token = .error e :=
    validate_claims_eq_error hc hrsa
      ((newJWTService key issuer audience).claims now id identityID roles scope ttl)
      hiss rfl hnbf hiat h _
  have hiff (tok : Gateway.ValidatedToken)
      (htok : (gatewayValidator (c.publicKey key) issuer audience).validate c t token = .ok tok) :
      identityID ≠ "" ∧ (t : ℤ) ≤ exp := by
    by_contra h
    obtain ⟨e, he⟩ := herr h
    cases he.symm.trans htok
  refine ⟨⟨fun ⟨tok, htok⟩ => hiff tok htok, fun h => ⟨_, hok h⟩⟩, fun tok htok => ?_,
    unix_add (by omega)⟩
  have h := hiff tok htok
  obtain rfl := Except.ok.inj ((hok h).symm.trans htok)
  exact ⟨rfl, rfl, rfl, Int.toNat_of_nonneg (by omega)⟩

/-- A scheme that signs with the text itself: keys are families. -/
def textCrypto : Jwt.Crypto Jwt.Family Jwt.Family where
  publicKey key := key
  family key := key
  sign _ _ message := (String.ofList message).toUTF8.data.toList
  verify key alg message signature :=
    alg.family = key && signature = (String.ofList message).toUTF8.data.toList

theorem textCrypto_correct : textCrypto.Correct := by
  intro key alg message h
  simpa [textCrypto] using h

/-- A time in November 2023. -/
def sampleTime : Instant := ⟨63835596800, 500000000, by decide, by decide⟩

/-- An RSA public key. -/
def rsaPem : List UInt8 :=
  ("-----BEGIN PUBLIC KEY-----\n" ++
    "MFwwDQYJKoZIhvcNAQEBBQADSwAwSAJBAKj34GkxFhD90vcNLYLInFEX6Ppy1tPf\n" ++
    "9Cnzj4p4WGeKLs1Pt8QuKUpRKfFLfRYC9AIKjbJTWit+CqvjWYzvQwECAwEAAQ==\n" ++
    "-----END PUBLIC KEY-----\n").toUTF8.data.toList

/-- A reader that takes one file only. -/
def readOnly (pem : List UInt8) (family : Jwt.Family) (file : List UInt8) :
    Except String Jwt.Family :=
  if file = pem then .ok family else .error "InvalidKeyFormat"

/-- A token for one hour is accepted in its last second, and not a second later. -/
theorem validate_createToken_last_second :
    let v := gatewayValidator Jwt.Family.rsa "appgate" "appgate-gateway"
    let token := (newJWTService Jwt.Family.rsa "appgate" "appgate-gateway").createToken textCrypto
      sampleTime "id-1" "alice" (some ["dev"]) "chat" 3600000000000
    (∃ tok, v.validate textCrypto 1700003600 token = .ok tok) ∧
      ¬ ∃ tok, v.validate textCrypto 1700003601 token = .ok tok := by
  intro v token
  have hexp : (sampleTime.add 3600000000000).unix = 1700003600 := by decide
  have hpem : readOnly rsaPem .rsa rsaPem = .ok (textCrypto.publicKey .rsa) := if_pos rfl
  have hnew : Gateway.JwtValidator.new (readOnly rsaPem .rsa) (some (.ok rsaPem)) "appgate"
      "appgate-gateway" = .ok v := new_eq_ok hpem
  have hiss : "appgate" ≠ "" := by decide
  have hnow : 30000000000 ≤ sampleTime.nanos := by decide
  have hiff (t : ℕ) : (∃ tok, v.validate textCrypto t token = .ok tok) ↔
      "alice" ≠ "" ∧ (t : ℤ) ≤ (sampleTime.add 3600000000000).unix :=
    (validate_createToken textCrypto_correct rfl hiss hpem hnew hnow "id-1" "alice" (some ["dev"])
      "chat" 3600000000000 t).1
  simp only [hexp] at hiff
  exact ⟨(hiff 1700003600).mpr (by decide), fun h => absurd ((hiff 1700003601).mp h).2 (by decide)⟩

end RoundTrip

/-! ## Tokens of `Service` at the Rust gateway -/

namespace RustGateway

open ControlPlane

theorem lookup_aud {cl : RegisteredClaims} (haud : cl.audience ≠ []) :
    cl.fields.lookup "aud" = some (.strings cl.audience) := by
  by_cases hiss : cl.issuer = "" <;> by_cases hsub : cl.subject = "" <;>
    simp [RegisteredClaims.fields, omitString, omitStrings, hiss, hsub, haud]

/-- A list is no string: claims with an audience are not read. -/
theorem decodeClaims_fields_ne_ok {cl : RegisteredClaims} (haud : cl.audience ≠ [])
    (claims : Claims) : decodeClaims (.object cl.fields) ≠ .ok claims := by
  intro h
  obtain ⟨get, hget, h⟩ := bind_eq_ok.mp h
  obtain ⟨_, -, h⟩ := bind_eq_ok.mp h
  obtain ⟨_, -, h⟩ := bind_eq_ok.mp h
  obtain ⟨aud, h, -⟩ := bind_eq_ok.mp h
  rw [requiredField, structOf_object_eq_ok hget, lookup_aud haud] at h
  cases h

section Rejected

variable {Priv Pub : Type} {c : Jwt.Crypto Priv Pub}

/-- No validator takes a signed token whose audience is a list. -/
theorem validate_fields_fails (v : JwtValidator Pub) (key : Priv) (h : Jwt.Header)
    {cl : RegisteredClaims} (haud : cl.audience ≠ []) (t : ℕ) :
    ∃ e, v.validate c t (Jwt.sign c key h (.object cl.fields)) = .error e := by
  rw [JwtValidator.validate]
  cases hd : Jwt.decode c v.decodingKey v.validation t decodeClaims
      (Jwt.sign c key h (.object cl.fields)) with
  | error e => exact ⟨_, rfl⟩
  | ok claims => exact absurd (Jwt.decode_sign_eq_ok hd) (decodeClaims_fields_ne_ok haud claims)

theorem fromPem_eq_ok {r : PemReaders Pub} {pem : List UInt8} {issuer audience : String}
    {v : JwtValidator Pub} (hv : JwtValidator.fromPem r pem issuer audience = .ok v) :
    v.validation.algorithms = [.edDSA] := by
  obtain ⟨key, -, hv⟩ := bind_eq_ok.mp hv
  rw [← Except.ok.inj hv]
  rfl

/-- Under a key of another family no token at all is accepted. -/
theorem validate_of_family_ne {v : JwtValidator Pub} (halg : v.validation.algorithms = [.edDSA])
    (hfam : c.family v.decodingKey ≠ .ed) (t : ℕ) (token : List Char) :
    v.validate c t token = .error "JWT validation failed: InvalidAlgorithm" := by
  have hany : (v.validation.algorithms.any fun a => a.family ≠ c.family v.decodingKey) = true := by
    simp [halg, Jwt.Algorithm.family, hfam.symm]
  have hs : Jwt.verifySignature c v.decodingKey v.validation token = .error "InvalidAlgorithm" := by
    rw [Jwt.verifySignature, if_neg (by simp [halg]), if_pos hany]
  rw [JwtValidator.validate, Jwt.decode, hs]
  rfl

/-- **The Rust gateway rejects the tokens of `HandleToken`.** Whatever key `from_pem` has read and
whatever signed it, a token with the claims of `HandleToken` for the same issuer and audience is
rejected at every time; under a key that is not Ed25519 every token is. -/
theorem validate_issued_fails {r : PemReaders Pub} {pem : List UInt8} {issuer audience : String}
    {v : JwtValidator Pub} (hv : JwtValidator.fromPem r pem issuer audience = .ok v) (key : Priv)
    (h : Jwt.Header) (now : Instant) (id subject : String) (t : ℕ) :
    (∃ e, v.validate c t
      (Jwt.sign c key h (.object (Service.claims issuer audience now id subject).fields)) =
        .error e) ∧
      (c.family v.decodingKey ≠ .ed → ∀ token,
        v.validate c t token = .error "JWT validation failed: InvalidAlgorithm") :=
  ⟨validate_fields_fails v key h (List.cons_ne_nil _ _) t,
    fun hfam token => validate_of_family_ne (fromPem_eq_ok hv) hfam t token⟩

end Rejected

/-- An Ed25519 public key. -/
def edPem : List UInt8 :=
  ("-----BEGIN PUBLIC KEY-----\n" ++
    "MCowBQYDK2VwAyEAGb9ECWmEzf6FQbrBZ9w7lshQhqowtrbLDFw4rXAxZuE=\n" ++
    "-----END PUBLIC KEY-----\n").toUTF8.data.toList

/-- Readers that take one Ed25519 and one RSA key. -/
def sampleReaders : PemReaders Jwt.Family where
  fromEdPem := readOnly edPem .ed
  fromRsaPem := readOnly rsaPem .rsa
  fromEcPem _ := .error "InvalidKeyFormat"

/-- The validator for the issuer and the audience of `HandleToken`. -/
def sampleValidator (key : Jwt.Family) : JwtValidator Jwt.Family :=
  ⟨key, ⟨[.edDSA], some ["https://appgate.example.com"], some ["appgate-gateway"], 60, true, false⟩⟩

theorem fromPem_edPem :
    JwtValidator.fromPem sampleReaders edPem "https://appgate.example.com" "appgate-gateway" =
      .ok (sampleValidator .ed) := by
  have hread : sampleReaders.fromEdPem edPem = .ok .ed := by
    simp [sampleReaders, readOnly]
  rw [JwtValidator.fromPem, hread]
  rfl

theorem validate_issued_fails_ed :
    ∃ e, (sampleValidator .ed).validate textCrypto 1700000000
      (Jwt.sign textCrypto .ed ⟨.edDSA, some "appgate-key-v1"⟩ (.object (Service.claims
        "https://appgate.example.com" "appgate-gateway" sampleTime "id-1" "alice").fields)) =
          .error e :=
  (validate_issued_fails fromPem_edPem .ed ⟨.edDSA, some "appgate-key-v1"⟩ sampleTime "id-1"
    "alice" 1700000000).1

/-- The token in an answer of `HandleToken`, signed with the private key of the validator's key, is
rejected an hour before it expires. -/
theorem handleToken_token_is_rejected :
    textCrypto.Correct ∧
      JwtValidator.fromPem sampleReaders edPem "https://appgate.example.com" "appgate-gateway" =
        .ok (sampleValidator (textCrypto.publicKey .ed)) ∧
      ∃ token, Service.handleToken textCrypto (some .ed) sampleTime "id-1" "alice" =
          .object [("expires_in", .string "3600"), ("token", .string (String.ofList token)),
            ("token_type", .string "bearer")] ∧
        (1700000000 : ℤ) < (Service.claims "https://appgate.example.com" "appgate-gateway"
          sampleTime "id-1" "alice").expiresAt.unix ∧
        ∃ e, (sampleValidator (textCrypto.publicKey .ed)).validate textCrypto 1700000000 token =
          .error e :=
  ⟨textCrypto_correct, fromPem_edPem, _, rfl, by decide,
    validate_fields_fails _ _ _ (List.cons_ne_nil _ _) _⟩

end RustGateway

end AppGate
