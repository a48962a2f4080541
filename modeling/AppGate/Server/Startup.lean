import AppGate.Auth.Validate
import AppGate.Breaker.Lockout
import AppGate.Lib.Envy

/-!
# How the rust-gateway starts

`GatewayConfig::from_env` in `rust-gateway/src/config.rs`, `JwtValidator::new` in `jwt.rs`, and
`main` up to the point where the server runs. The configuration has sections, which are structs,
and is read with `envy`, which is a parameter.

* `GatewayConfig` and its sections, with what `serde` derives for them;
* `GatewayConfig.fromEntries`, `fromEnv`: the configuration from the environment;
* `JwtValidator.new`, `Outcome`, `main`;
* `fromEntries_eq_ok`, `defaultSections_fromEnv`, `fromEnv_of_section`: no variable sets a section,
  and one that names a section discards all others;
* **`main_exits`**: the process ends before it serves, in every environment.
-/

set_option autoImplicit false

namespace AppGate.RustGateway

open Fallible Serde

/-! ## The configuration -/

def u32 (v : Json.Value) : Except String UInt32 := (unsigned (2 ^ 32 - 1) v).map Nat.toUInt32

/-- A `u64`, or a `usize`. -/
def u64 (v : Json.Value) : Except String UInt64 := (unsigned (2 ^ 64 - 1) v).map Nat.toUInt64

structure TlsConfig where
  enabled : Bool := false
  certPath : Option String := none
  keyPath : Option String := none
  minVersion : Option String := none
  deriving DecidableEq, Repr

def TlsConfig.deserialize (v : Json.Value) : Except String TlsConfig := do
  let get ← structOf ["enabled", "cert_path", "key_path", "min_version"] v
  return {
    enabled := ← defaultField boolean true "enabled" get
    certPath := ← optionalField string "cert_path" get
    keyPath := ← optionalField string "key_path" get
    minVersion := ← optionalField string "min_version" get }

structure JwtConfig where
  enabled : Bool := false
  jwksUrl : Option String := none
  issuer : Option String := none
  audience : Option String := none
  keyPath : Option String := none
  deriving DecidableEq, Repr

def JwtConfig.deserialize (v : Json.Value) : Except String JwtConfig := do
  let get ← structOf ["enabled", "jwks_url", "issuer", "audience", "key_path"] v
  return {
    enabled := ← requiredField boolean "enabled" get
    jwksUrl := ← optionalField string "jwks_url" get
    issuer := ← optionalField string "issuer" get
    audience := ← optionalField string "audience" get
    keyPath := ← optionalField string "key_path" get }

structure RateLimitConfig where
  enabled : Bool := false
  requestsPerSecond : UInt64 := 0
  burstSize : UInt32 := 0
  windowSecs : UInt64 := 0
  deriving DecidableEq, Repr

def RateLimitConfig.deserialize (v : Json.Value) : Except String RateLimitConfig := do
  let get ← structOf ["enabled", "requests_per_second", "burst_size", "window_secs"] v
  return {
    enabled := ← requiredField boolean "enabled" get
    requestsPerSecond := ← defaultField u64 100 "requests_per_second" get
    burstSize := ← defaultField u32 150 "burst_size" get
    windowSecs := ← defaultField u64 60 "window_secs" get }

structure UpstreamConfig where
  defaultUrl : String := ""
  connectTimeoutMs : Option UInt64 := none
  readTimeoutMs : Option UInt64 := none
  keepaliveDurationSecs : Option UInt64 := none
  maxConnections : Option UInt64 := none
  deriving DecidableEq, Repr

def UpstreamConfig.deserialize (v : Json.Value) : Except String UpstreamConfig := do
  let get ← structOf ["default_url", "connect_timeout_ms", "read_timeout_ms",
    "keepalive_duration_secs", "max_connections"] v
  return {
    defaultUrl := ← defaultField string "" "default_url" get
    connectTimeoutMs := ← optionalField u64 "connect_timeout_ms" get
    readTimeoutMs := ← optionalField u64 "read_timeout_ms" get
    keepaliveDurationSecs := ← optionalField u64 "keepalive_duration_secs" get
    maxConnections := ← optionalField u64 "max_connections" get }

structure AuditConfig where
  endpoint : String := ""
  deriving DecidableEq, Repr

def AuditConfig.deserialize (v : Json.Value) : Except String AuditConfig := do
  let get ← structOf ["endpoint"] v
  return { endpoint := ← defaultField string "/v1/audit/batch" "endpoint" get }

structure CacheConfig where
  enabled : Bool := false
  ttlSecs : Option UInt64 := none
  maxSize : Option UInt64 := none
  deriving DecidableEq, Repr

def CacheConfig.deserialize (v : Json.Value) : Except String CacheConfig := do
  let get ← structOf ["enabled", "ttl_secs", "max_size"] v
  return {
    enabled := ← defaultField boolean true "enabled" get
    ttlSecs := ← optionalField u64 "ttl_secs" get
    maxSize := ← optionalField u64 "max_size" get }

def circuitBreakerDeserialize (v : Json.Value) : Except String Breaker.CircuitBreakerConfig := do
  let get ← structOf ["failure_threshold", "recovery_timeout_ms", "half_open_max_calls"] v
  return {
    failureThreshold := ← defaultField u32 5 "failure_threshold" get
    recoveryTimeoutMs := ← defaultField u64 30000 "recovery_timeout_ms" get
    halfOpenMaxCalls := ← defaultField u32 3 "half_open_max_calls" get }

/-- `GatewayConfig` and its `Default`. The sections have derived defaults: the functions that
`serde` is given for their fields apply when a section is read, not when it is absent. -/
structure GatewayConfig where
  bindAddr : String := "0.0.0.0"
  port : UInt16 := 8080
  tls : TlsConfig := {}
  jwt : JwtConfig := {}
  rateLimit : RateLimitConfig := {}
  upstream : UpstreamConfig := {}
  audit : AuditConfig := {}
  cache : CacheConfig := {}
  circuitBreaker : Breaker.CircuitBreakerConfig := .default
  logLevel : String := "info"
  controlPlaneUrl : String := "http://appgate-control-plane:8080"
  environment : String := "production"
  deriving DecidableEq, Repr

section

variable (e : Envy)

/-- What `serde` derives for `GatewayConfig`, on the map of `envy`. Which error comes first is seen
in a log line only. -/
def GatewayConfig.fromEntries (m : List (String × String)) : Except String GatewayConfig := do
  let dflt : GatewayConfig := {}
  return {
    bindAddr := ← entry e.string dflt.bindAddr "bind_addr" m
    port := ← entry e.u16 dflt.port "port" m
    tls := ← entry (fun v => TlsConfig.deserialize (e.shown v)) dflt.tls "tls" m
    jwt := ← entry (fun v => JwtConfig.deserialize (e.shown v)) dflt.jwt "jwt" m
    rateLimit :=
      ← entry (fun v => RateLimitConfig.deserialize (e.shown v)) dflt.rateLimit "rate_limit" m
    upstream := ← entry (fun v => UpstreamConfig.deserialize (e.shown v)) dflt.upstream "upstream" m
    audit := ← entry (fun v => AuditConfig.deserialize (e.shown v)) dflt.audit "audit" m
    cache := ← entry (fun v => CacheConfig.deserialize (e.shown v)) dflt.cache "cache" m
    circuitBreaker :=
      ← entry (fun v => circuitBreakerDeserialize (e.shown v)) dflt.circuitBreaker
        "circuit_breaker" m
    logLevel := ← entry e.string dflt.logLevel "log_level" m
    controlPlaneUrl := ← entry e.string dflt.controlPlaneUrl "control_plane_url" m
    environment := ← entry e.string dflt.environment "environment" m }

/-- `GatewayConfig::from_env`. -/
def fromEnv (vars : Vars) : GatewayConfig :=
  match GatewayConfig.fromEntries e (e.entries vars) with
  | .ok cfg => cfg
  | .error _ => {}

end

/-! ## The process -/

section

variable {Pub : Type} (r : PemReaders Pub) (files : String → Except String (List UInt8))

/-- `JwtValidator::new`. -/
def JwtValidator.new (config : JwtConfig) : Except String (JwtValidator Pub) :=
  let issuer := config.issuer.getD "appgate"
  let audience := config.audience.getD "appgate-gateway"
  match config.keyPath, config.jwksUrl with
  | some keyPath, _ => do
    let pem ← (files keyPath).mapError
      ("Failed to read JWT public key " ++ keyPath ++ ": " ++ ·)
    fromPem r pem issuer audience
  | none, some jwksUrl =>
    .error ("JWKS loading from " ++ jwksUrl ++ " is not supported in this build " ++
      "(auto-start disabled); configure APPGATE_JWT_KEY_PATH with the PEM public key")
  | none, none =>
    .error "no JWT key source configured (set APPGATE_JWT_KEY_PATH or APPGATE_JWT_JWKS_URL)"

/-- What becomes of the process. -/
inductive Outcome (Pub : Type) where
  | exit (code : ℕ)
  /-- The server runs with a configuration and a validator. -/
  | serving (cfg : GatewayConfig) (jwtValidator : JwtValidator Pub)

/-- `main`, up to the server. -/
def main (e : Envy) (vars : Vars) : Outcome Pub :=
  let cfg := fromEnv e vars
  match JwtValidator.new r files cfg.jwt with
  | .ok jwtValidator => .serving cfg jwtValidator
  | .error _ => .exit 1

end

/-! ## What the environment can set -/

/-- The names of the sections. -/
def sectionNames : List String :=
  ["tls", "jwt", "rate_limit", "upstream", "audit", "cache", "circuit_breaker"]

/-- The sections are the default ones. -/
structure DefaultSections (cfg : GatewayConfig) : Prop where
  tls : cfg.tls = {}
  jwt : cfg.jwt = {}
  rateLimit : cfg.rateLimit = {}
  upstream : cfg.upstream = {}
  audit : cfg.audit = {}
  cache : cfg.cache = {}
  circuitBreaker : cfg.circuitBreaker = ⟨0, 0, 0⟩

variable {e : Envy} {vars : Vars}

theorem fromEntries_eq_ok (he : e.Flat) {cfg : GatewayConfig}
    (h : GatewayConfig.fromEntries e (e.entries vars) = .ok cfg) :
    DefaultSections cfg ∧ ∀ v ∈ vars, e.lower v.1 ∉ sectionNames := by
  obtain ⟨bindAddr, -, h⟩ := bind_eq_ok.mp h
  obtain ⟨port, -, h⟩ := bind_eq_ok.mp h
  obtain ⟨tls, htls, h⟩ := bind_eq_ok.mp h
  obtain ⟨jwt, hjwt, h⟩ := bind_eq_ok.mp h
  obtain ⟨rateLimit, hrate, h⟩ := bind_eq_ok.mp h
  obtain ⟨upstream, hupstream, h⟩ := bind_eq_ok.mp h
  obtain ⟨audit, haudit, h⟩ := bind_eq_ok.mp h
  obtain ⟨cache, hcache, h⟩ := bind_eq_ok.mp h
  obtain ⟨circuitBreaker, hbreaker, h⟩ := bind_eq_ok.mp h
  obtain ⟨logLevel, -, h⟩ := bind_eq_ok.mp h
  obtain ⟨controlPlaneUrl, -, h⟩ := bind_eq_ok.mp h
  obtain ⟨environment, -, h⟩ := bind_eq_ok.mp h
  cases h
  -- the derived visitor of each section refuses a text
  have ht := Envy.not_mem_of_entry he (fun _ => ⟨_, rfl⟩) htls
  have hj := Envy.not_mem_of_entry he (fun _ => ⟨_, rfl⟩) hjwt
  have hr := Envy.not_mem_of_entry he (fun _ => ⟨_, rfl⟩) hrate
  have hu := Envy.not_mem_of_entry he (fun _ => ⟨_, rfl⟩) hupstream
  have ha := Envy.not_mem_of_entry he (fun _ => ⟨_, rfl⟩) haudit
  have hc := Envy.not_mem_of_entry he (fun _ => ⟨_, rfl⟩) hcache
  have hb := Envy.not_mem_of_entry he (fun _ => ⟨_, rfl⟩) hbreaker
  refine ⟨⟨ht.2, hj.2, hr.2, hu.2, ha.2, hc.2, hb.2⟩, fun v hv => ?_⟩
  simp [sectionNames, ht.1 v hv, hj.1 v hv, hr.1 v hv, hu.1 v hv, ha.1 v hv, hc.1 v hv, hb.1 v hv]

theorem defaultSections_fromEnv (he : e.Flat) (vars : Vars) : DefaultSections (fromEnv e vars) := by
  unfold fromEnv
  split
  next cfg h => exact (fromEntries_eq_ok he h).1
  next => exact ⟨rfl, rfl, rfl, rfl, rfl, rfl, rfl⟩

/-- A variable with the name of a section discards all the others. -/
theorem fromEnv_of_section (he : e.Flat) {v : String × String} (hv : v ∈ vars)
    (hname : e.lower v.1 ∈ sectionNames) : fromEnv e vars = {} := by
  unfold fromEnv
  split
  next cfg h => exact absurd hname ((fromEntries_eq_ok he h).2 v hv)
  next => rfl

/-- **The process never serves.** With a crate `envy` for which all variables are texts, in every
environment and with every file system: the sections of the configuration are the default ones; a
variable with the name of a section discards all other variables; and `main` exits with code 1, for
want of a key. -/
theorem main_exits {Pub : Type} (r : PemReaders Pub)
    (files : String → Except String (List UInt8)) (he : e.Flat) (vars : Vars) :
    DefaultSections (fromEnv e vars) ∧
      (∀ v ∈ vars, e.lower v.1 ∈ sectionNames → fromEnv e vars = {}) ∧
      main r files e vars = .exit 1 := by
  have hsections := defaultSections_fromEnv he vars
  refine ⟨hsections, fun v hv hname => fromEnv_of_section he hv hname, ?_⟩
  simp only [main, hsections.jwt]
  rfl

/-- A file for the key and a port: the port is read, the file is not. -/
def keyAndPort : Vars := [("JWT_KEY_PATH", "/etc/appgate/jwt/verify.pem"), ("PORT", "8443")]

theorem main_exits_keyAndPort :
    fromEnv Envy.texts keyAndPort = { port := 8443 } ∧
      main (⟨fun _ => .error "", fun _ => .error "", fun _ => .ok ()⟩ : PemReaders Unit)
        (fun _ => .ok []) Envy.texts keyAndPort = .exit 1 :=
  ⟨by decide, (main_exits _ _ Envy.texts_flat keyAndPort).2.2⟩

end AppGate.RustGateway
