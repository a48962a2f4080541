import AppGate.Lib.Fallible
import AppGate.Lib.Ip

/-!
# SSRF protection

`gateway/src/ssrf.rs` and `rust-gateway/src/ssrf.rs`. Both parse the URL, compare the host with a
list of names and test an IP host against ranges of `std::net`; the gateway tests more ranges and
then an allow-list. The `url` crate is a parameter.

* `Url`, `UrlCrate`: what the two functions read of a parsed URL;
* `checkBlockedHosts`, `checkInternalIp`, `checkPrivateIp`, `checkApproved`: the checks;
* `SSRFDefense.validateUpstream`, `SsrfGuard.validateUrl`, and when they return `Ok`:
  **`validateUpstream_eq_ok`**, **`validateUrl_eq_ok`**.
-/

set_option autoImplicit false

namespace AppGate.Ssrf

open Ip Fallible

/-- `url::Host`. -/
inductive Host where
  | domain (name : String)
  | ipv4 (ip : Ipv4Addr)
  | ipv6 (ip : Ipv6Addr)
  deriving DecidableEq, Repr

/-- `url::Url`: the scheme and the host, which `file:` and `data:` URLs may not have. -/
structure Url where
  scheme : String
  host : Option Host
  deriving DecidableEq, Repr

/-- The `url` crate: `Url::parse`, and the text of an IPv6 address without its brackets. -/
structure UrlCrate where
  parse : String → Option Url
  ipv6Text : Ipv6Addr → String

/-- The text of a host. -/
def UrlCrate.hostText (U : UrlCrate) : Host → String
  | .domain name => name
  | .ipv4 ip => ip.text
  | .ipv6 ip => "[" ++ U.ipv6Text ip ++ "]"

/-- `Url::host_str`. -/
def UrlCrate.hostStr (U : UrlCrate) (u : Url) : Option String := u.host.map U.hostText

/-- The IP address of a host. -/
def Host.ip : Host → Option IpAddr
  | .ipv4 ip => some (.v4 ip)
  | .ipv6 ip => some (.v6 ip)
  | .domain _ => none

/-- `parsed.host().and_then(..)`: the host, if it is an IP address. -/
def Url.ip (u : Url) : Option IpAddr := u.host.bind Host.ip

/-- `BLOCKED_HOSTS`. -/
def blockedHosts : List String := ["localhost", "127.0.0.1", "::1", "0.0.0.0"]

/-! ## The checks -/

/-- Fail with `err` unless the condition holds. -/
def require (cond : Bool) (err : String) : Except String Unit :=
  if cond then .ok () else .error err

/-- `Url::parse(url).map_err(|_| "invalid_url")`. -/
def UrlCrate.parseUrl (U : UrlCrate) (url : String) : Except String Url :=
  match U.parse url with
  | some u => .ok u
  | none => .error "invalid_url"

/-- The host is not one of `BLOCKED_HOSTS`. -/
def checkBlockedHosts (U : UrlCrate) (u : Url) : Except String Unit :=
  match U.hostStr u with
  | some host => require (host ∉ blockedHosts) "ssrf_localhost_blocked"
  | none => .ok ()

/-- `ip.is_loopback() || ip.is_unspecified() || ip.is_multicast()`. -/
def isBlockedIp (ip : IpAddr) : Bool := ip.isLoopback || ip.isUnspecified || ip.isMulticast

/-- The IP ranges both functions refuse. -/
def checkInternalIp (u : Url) : Except String Unit :=
  match u.ip with
  | some ip => require (!isBlockedIp ip) "ssrf_internal_ip_blocked"
  | none => .ok ()

/-- The IPv4 ranges only the gateway refuses. -/
def checkPrivateIp (u : Url) : Except String Unit :=
  match u.ip with
  | some (.v4 ip) => do
    require (!ip.isPrivate) "ssrf_private_ip_blocked"
    require (!ip.isLinkLocal) "ssrf_link_local_blocked"
  | _ => .ok ()

/-! ## The gateway -/

/-- `SSRFDefense`. -/
structure SSRFDefense where
  approvedDomains : List String
  enabled : Bool
  deriving DecidableEq, Repr

namespace SSRFDefense

/-- `SSRFDefense::new_with_defaults`. -/
def newWithDefaults : SSRFDefense := ⟨["api.openai.com", "api.anthropic.com"], true⟩

/-- `SSRFDefense::set_enabled`. -/
def setEnabled (self : SSRFDefense) (enabled : Bool) : SSRFDefense := { self with enabled }

/-- `SSRFDefense::approve_domain`. -/
def approveDomain (self : SSRFDefense) (domain : String) : SSRFDefense :=
  { self with approvedDomains := self.approvedDomains.insert domain }

/-- `host == d || host.ends_with(&format!(".{}", d))` for some approved `d`. -/
def approves (self : SSRFDefense) (host : String) : Bool :=
  self.approvedDomains.any fun d => host = d || ("." ++ d).toList.isSuffixOf host.toList

/-- The approved domains, if the list is not empty. -/
def checkApproved (U : UrlCrate) (self : SSRFDefense) (u : Url) : Except String Unit :=
  if self.approvedDomains.isEmpty then .ok ()
  else
    match U.hostStr u with
    | some host => require (self.approves host) "ssrf_domain_not_approved"
    | none => .ok ()

/-- `SSRFDefense::validate_upstream`. -/
def validateUpstream (U : UrlCrate) (self : SSRFDefense) (url : String) : Except String Unit :=
  if !self.enabled then .ok ()
  else do
    let parsed ← U.parseUrl url
    checkBlockedHosts U parsed
    checkInternalIp parsed
    checkPrivateIp parsed
    checkApproved U self parsed

end SSRFDefense

/-! ## The Rust gateway -/

/-- `SsrfGuard::validate_url`. -/
def SsrfGuard.validateUrl (U : UrlCrate) (input : String) : Except String Unit := do
  let parsed ← U.parseUrl input
  checkBlockedHosts U parsed
  checkInternalIp parsed

/-! ## When they return `Ok` -/

theorem require_eq_ok {cond : Bool} {err : String} : require cond err = .ok () ↔ cond = true := by
  cases cond <;> simp [require]

theorem parseUrl_eq_ok {U : UrlCrate} {url : String} {u : Url} :
    U.parseUrl url = .ok u ↔ U.parse url = some u := by
  unfold UrlCrate.parseUrl
  cases U.parse url <;> simp

theorem checkBlockedHosts_eq_ok {U : UrlCrate} {u : Url} :
    checkBlockedHosts U u = .ok () ↔ ∀ h, u.host = some h → U.hostText h ∉ blockedHosts := by
  unfold checkBlockedHosts UrlCrate.hostStr
  cases u.host <;> simp [require_eq_ok]

theorem checkInternalIp_eq_ok {u : Url} :
    checkInternalIp u = .ok () ↔ ∀ ip, u.ip = some ip → isBlockedIp ip = false := by
  unfold checkInternalIp
  cases u.ip <;> simp [require_eq_ok]

theorem checkPrivateIp_eq_ok {u : Url} :
    checkPrivateIp u = .ok () ↔
      ∀ ip, u.ip = some (.v4 ip) → ip.isPrivate = false ∧ ip.isLinkLocal = false := by
  unfold checkPrivateIp
  cases u.ip with
  | none => simp
  | some ip =>
      cases ip with
      | v4 ip => simp [seq_eq_ok, require_eq_ok]
      | v6 ip => simp

namespace SSRFDefense

theorem checkApproved_eq_ok {U : UrlCrate} {self : SSRFDefense} {u : Url}
    (hne : self.approvedDomains ≠ []) :
    checkApproved U self u = .ok () ↔
      ∀ h, u.host = some h → self.approves (U.hostText h) = true := by
  have hempty : self.approvedDomains.isEmpty = false := by simpa using hne
  unfold checkApproved UrlCrate.hostStr
  cases u.host <;> simp [hempty, require_eq_ok]

/-- **What `validate_upstream` checked.** -/
theorem validateUpstream_eq_ok {U : UrlCrate} {self : SSRFDefense} {url : String}
    (hen : self.enabled = true) :
    self.validateUpstream U url = .ok () ↔ ∃ u, U.parse url = some u ∧
      checkBlockedHosts U u = .ok () ∧ checkInternalIp u = .ok () ∧
      checkPrivateIp u = .ok () ∧ self.checkApproved U u = .ok () := by
  unfold validateUpstream
  rw [hen, if_neg (by decide), bind_eq_ok]
  simp only [parseUrl_eq_ok, seq_eq_ok]

end SSRFDefense

/-- **What `validate_url` checked.** -/
theorem validateUrl_eq_ok {U : UrlCrate} {input : String} :
    SsrfGuard.validateUrl U input = .ok () ↔ ∃ u, U.parse input = some u ∧
      checkBlockedHosts U u = .ok () ∧ checkInternalIp u = .ok () := by
  unfold SsrfGuard.validateUrl
  rw [bind_eq_ok]
  simp only [parseUrl_eq_ok, seq_eq_ok]

end AppGate.Ssrf
