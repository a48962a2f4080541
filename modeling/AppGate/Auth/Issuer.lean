import AppGate.Lib.Jwt

/-!
# Tokens of the control plane

The two issuers of the control plane: `JWTService` (`control-plane/internal/auth/jwt.go`) signs with
RSA, `Service` (`control-plane/internal/auth/auth.go`) with Ed25519. Clock and identifiers are
arguments.

* `Instant`, `Instant.add`, `Instant.unix`: the times of `time.Time`; `unix_eq`, `unix_add`;
* `RegisteredClaims`, `RegisteredClaims.fields`, `Claims`, `Claims.json`: what is signed;
* `JWTService`, `JWTService.createToken`, `Service.claims`, `Service.handleToken`: the issuers.
-/

set_option autoImplicit false

namespace AppGate

namespace ControlPlane

open Json

/-! ## Times -/

/-- Seconds from the start of year 1 to the Unix epoch. -/
def unixToInternal : ℤ := 62135596800

/-- A `time.Time`: seconds since the start of year 1 in 64 bits, and nanoseconds. -/
structure Instant where
  ext : ℤ
  nsec : ℤ
  ext_fits : -9223372036854775808 ≤ ext ∧ ext ≤ 9223372036854775807
  nsec_fits : 0 ≤ nsec ∧ nsec < 1000000000
  deriving DecidableEq, Repr

/-- Seconds that do not fit are set to the end of the range. -/
def saturate (sec : ℤ) : ℤ :=
  if 9223372036854775807 < sec then 9223372036854775807
  else if sec < -9223372036854775808 then -9223372036854775807
  else sec

theorem saturate_fits (sec : ℤ) :
    -9223372036854775808 ≤ saturate sec ∧ saturate sec ≤ 9223372036854775807 := by
  unfold saturate
  split_ifs <;> omega

/-- `Time.Add`. -/
def Instant.add (t : Instant) (d : Int64) : Instant where
  ext := saturate (t.ext + (t.nsec + d.toInt) / 1000000000)
  nsec := (t.nsec + d.toInt) % 1000000000
  ext_fits := saturate_fits _
  nsec_fits := ⟨Int.emod_nonneg _ (by decide), Int.emod_lt_of_pos _ (by decide)⟩

/-- `Time.Unix`, in 64 bits. -/
def Instant.unix (t : Instant) : ℤ := Int.bmod (t.ext - unixToInternal) 18446744073709551616

/-- Nanoseconds since the Unix epoch. -/
def Instant.nanos (t : Instant) : ℤ := (t.ext - unixToInternal) * 1000000000 + t.nsec

/-- The first nanosecond after the last `time.Time`. -/
def endOfTime : ℤ := (9223372036854775808 - unixToInternal) * 1000000000

theorem unix_lt (t : Instant) : t.unix < 9223372036854775808 := by
  unfold Instant.unix
  have := @Int.bmod_lt (t.ext - unixToInternal) 18446744073709551616 (by decide)
  omega

theorem unix_eq {t : Instant} (h : 0 ≤ t.nanos) : t.unix = t.nanos / 1000000000 := by
  have ht := t.ext_fits
  obtain ⟨hn, hn'⟩ := t.nsec_fits
  simp only [Instant.nanos, unixToInternal] at h
  simp only [Instant.unix, Instant.nanos, unixToInternal]
  rw [Int.bmod_eq_of_le] <;> omega

/-- After 1970, a time plus a duration is the date of that nanosecond, up to the end of time. -/
theorem unix_add {t : Instant} {d : Int64} (h : 0 ≤ t.nanos)
    (hend : t.nanos + d.toInt < endOfTime) :
    (t.add d).unix = (t.nanos + d.toInt) / 1000000000 := by
  have hd := d.le_toInt
  obtain ⟨hn, hn'⟩ := t.nsec_fits
  have ht := t.ext_fits
  simp only [endOfTime, Instant.nanos, unixToInternal] at h hend
  have hs : saturate (t.ext + (t.nsec + d.toInt) / 1000000000) =
      t.ext + (t.nsec + d.toInt) / 1000000000 := by
    rw [saturate, if_neg (by omega), if_neg (by omega)]
  simp only [Instant.unix, Instant.add, Instant.nanos, unixToInternal, hs]
  rw [Int.bmod_eq_of_le] <;> omega

/-! ## Claims -/

/-- `jwt.RegisteredClaims`, with its dates set. -/
structure RegisteredClaims where
  issuer : String
  subject : String
  audience : List String
  expiresAt : Instant
  notBefore : Instant
  issuedAt : Instant
  id : String
  deriving DecidableEq, Repr

/-- The fields on the wire: empty strings and lists are left out, dates are whole seconds. -/
def RegisteredClaims.fields (c : RegisteredClaims) : List (String × Value) :=
  omitString "iss" c.issuer ++ omitString "sub" c.subject ++ omitStrings "aud" c.audience ++
    [("exp", .int c.expiresAt.unix), ("nbf", .int c.notBefore.unix),
      ("iat", .int c.issuedAt.unix)] ++
    omitString "jti" c.id

/-- `Claims`. The roles may be a nil list. -/
structure Claims extends RegisteredClaims where
  roles : Option (List String)
  scope : String
  deriving DecidableEq, Repr

def Claims.json (c : Claims) : Value :=
  .object (c.fields ++ [("roles", (c.roles.map .strings).getD .null), ("scope", .string c.scope)])

/-! ## The issuers -/

section Issuers

variable {Priv Pub : Type}

/-- The part of `JWTService` that signs. -/
structure JWTService (Priv : Type) where
  signingKey : Priv
  issuer : String
  audience : String
  clockSkew : Int64

/-- Thirty seconds. -/
def thirtySeconds : Int64 := 30000000000

/-- `NewJWTService`. -/
def newJWTService (signingKey : Priv) (issuer audience : String) : JWTService Priv :=
  ⟨signingKey, issuer, audience, thirtySeconds⟩

/-- The claims that `CreateToken` signs. -/
def JWTService.claims (s : JWTService Priv) (now : Instant) (id identityID : String)
    (roles : Option (List String)) (scope : String) (ttl : Int64) : Claims where
  id := id
  issuer := s.issuer
  audience := [s.audience]
  subject := identityID
  issuedAt := now
  notBefore := now.add (-s.clockSkew)
  expiresAt := now.add ttl
  roles := roles
  scope := scope

/-- `CreateToken` at time `now` with token identifier `id`. -/
def JWTService.createToken (c : Jwt.Crypto Priv Pub) (s : JWTService Priv) (now : Instant)
    (id identityID : String) (roles : Option (List String)) (scope : String) (ttl : Int64) :
    List Char :=
  Jwt.sign c s.signingKey ⟨.rs256, some "appgate-signing-key-v1"⟩
    (s.claims now id identityID roles scope ttl).json

/-- The claims of a token of `HandleToken`, for an issuer and an audience. -/
def Service.claims (issuer audience : String) (now : Instant) (id subject : String) :
    RegisteredClaims where
  id := id
  issuer := issuer
  subject := subject
  audience := [audience]
  issuedAt := now
  notBefore := now.add (-thirtySeconds)
  expiresAt := now.add 3600000000000

/-- The body `HandleToken` answers with at time `now`, for fresh `id` and `subject`. -/
def Service.handleToken (c : Jwt.Crypto Priv Pub) (key : Option Priv) (now : Instant)
    (id subject : String) : Value :=
  match key with
  | some key =>
    let token := Jwt.sign c key ⟨.edDSA, some "appgate-key-v1"⟩ (.object
      (Service.claims "https://appgate.example.com" "appgate-gateway" now id subject).fields)
    .object [("expires_in", .string "3600"), ("token", .string (String.ofList token)),
      ("token_type", .string "bearer")]
  | none => .object [("token", .string "dev-token"), ("token_type", .string "bearer")]

end Issuers

end ControlPlane

end AppGate
