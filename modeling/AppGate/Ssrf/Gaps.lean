import AppGate.Ssrf.Model

/-!
# What the SSRF checks let through

Every check of the two functions is behind the kind of host it looks at, and what none of them
looks at is accepted.

* `internal`, `unchecked`: the internal ranges, and those no check of `validate_url` tests;
  **`blocksInternal_iff`**: an internal address is refused exactly when it is not one of the latter.
* `FailClosed`, `ApprovedLiteral`, **`failClosed_iff`**: `validate_upstream` accepts approved
  domains only, except for URLs without a host and for IP literals that are approved as text.
-/

set_option autoImplicit false

namespace AppGate.Ssrf

open Ip

/-! ## Internal addresses -/

/-- Loopback, unspecified, multicast, private or link-local. -/
def internalV4 (ip : Ipv4Addr) : Bool :=
  ip.isLoopback || ip.isUnspecified || ip.isMulticast || ip.isPrivate || ip.isLinkLocal

/-- The internal addresses of both families, IPv4-mapped ones included. -/
def internal : IpAddr → Bool
  | .v4 ip => internalV4 ip
  | .v6 ip => ip.isLoopback || ip.isUnspecified || ip.isMulticast || ip.isUniqueLocal ||
      ip.isUnicastLinkLocal || ip.toIpv4Mapped.any internalV4

/-- The internal addresses that `is_loopback`, `is_unspecified` and `is_multicast` leave out. -/
def unchecked : IpAddr → Bool
  | .v4 ip => ip.isPrivate || ip.isLinkLocal
  | .v6 ip => ip.isUniqueLocal || ip.isUnicastLinkLocal || ip.toIpv4Mapped.any internalV4

theorem internal_eq (ip : IpAddr) : internal ip = (isBlockedIp ip || unchecked ip) := by
  cases ip with
  | v4 ip =>
      simp only [internal, internalV4, isBlockedIp, unchecked, IpAddr.isLoopback,
        IpAddr.isUnspecified, IpAddr.isMulticast, Bool.or_assoc]
  | v6 ip =>
      simp only [internal, isBlockedIp, unchecked, IpAddr.isLoopback, IpAddr.isUnspecified,
        IpAddr.isMulticast, Bool.or_assoc]

theorem isBlockedIp_of_private {ip : Ipv4Addr} (h : ip.isPrivate = true ∨ ip.isLinkLocal = true) :
    isBlockedIp (.v4 ip) = false := by
  obtain ⟨a, b, c, d⟩ := ip
  have ha : a = 10 ∨ a = 172 ∨ a = 192 ∨ a = 169 := by
    rcases h with h | h
    · simp only [Ipv4Addr.isPrivate, Bool.or_eq_true, Bool.and_eq_true, decide_eq_true_eq] at h
      rcases h with (h | h) | h
      · exact .inl h
      · exact .inr (.inl h.1.1)
      · exact .inr (.inr (.inl h.1))
    · simp only [Ipv4Addr.isLinkLocal, Bool.and_eq_true, decide_eq_true_eq] at h
      exact .inr (.inr (.inr h.1))
  rcases ha with rfl | rfl | rfl | rfl <;>
    simp [isBlockedIp, IpAddr.isLoopback, IpAddr.isUnspecified, IpAddr.isMulticast,
      Ipv4Addr.isLoopback, Ipv4Addr.isUnspecified, Ipv4Addr.isMulticast]

theorem isBlockedIp_of_mapped {ip : Ipv6Addr} {v4 : Ipv4Addr} (h : ip.toIpv4Mapped = some v4) :
    isBlockedIp (.v6 ip) = false := by
  unfold Ipv6Addr.toIpv4Mapped at h
  split_ifs at h with hz
  obtain ⟨h0, -, -, -, -, h5⟩ := hz
  obtain ⟨s0, s1, s2, s3, s4, s5, s6, s7⟩ := ip
  simp only at h0 h5
  subst h0 h5
  simp [isBlockedIp, IpAddr.isLoopback, IpAddr.isUnspecified, IpAddr.isMulticast,
    Ipv6Addr.isLoopback, Ipv6Addr.isUnspecified, Ipv6Addr.isMulticast]

/-- A first segment that is not zero is neither loopback nor unspecified. -/
theorem isBlockedIp_of_segment {ip : Ipv6Addr} (h : ip.s0 ≠ 0) (hm : ip.isMulticast = false) :
    isBlockedIp (.v6 ip) = false := by
  have hl : ip.isLoopback = false := by
    simp only [Ipv6Addr.isLoopback, decide_eq_false_iff_not]
    rintro rfl
    exact h rfl
  have hu : ip.isUnspecified = false := by
    simp only [Ipv6Addr.isUnspecified, decide_eq_false_iff_not]
    rintro rfl
    exact h rfl
  simp [isBlockedIp, IpAddr.isLoopback, IpAddr.isUnspecified, IpAddr.isMulticast, hl, hu, hm]

/-- **The unchecked ranges are disjoint from the checked ones.** -/
theorem isBlockedIp_of_unchecked {ip : IpAddr} (h : unchecked ip = true) :
    isBlockedIp ip = false := by
  cases ip with
  | v4 ip =>
      rw [unchecked, Bool.or_eq_true] at h
      exact isBlockedIp_of_private h
  | v6 ip =>
      rw [unchecked, Bool.or_eq_true, Bool.or_eq_true] at h
      rcases h with (h | h) | h
      · refine isBlockedIp_of_segment ?_ (not_multicast_of_uniqueLocal h)
        intro h0
        rw [Ipv6Addr.isUniqueLocal, h0] at h
        revert h
        decide
      · refine isBlockedIp_of_segment ?_ (not_multicast_of_linkLocal h)
        intro h0
        rw [Ipv6Addr.isUnicastLinkLocal, h0] at h
        revert h
        decide
      · cases hv4 : ip.toIpv4Mapped with
        | none =>
            rw [hv4] at h
            cases h
        | some v4 => exact isBlockedIp_of_mapped hv4

/-! ## Blocked texts -/

theorem text_ne_of_mem (ip : Ipv4Addr) {s : String} (ch : Char) (hmem : ch ∈ s.toList)
    (hdot : ch ≠ '.') (hdigit : ch.isDigit = false) : ip.text ≠ s := by
  rintro rfl
  rcases text_char hmem with h | h
  · exact hdot h
  · rw [hdigit] at h
    cases h

theorem bracket_notMem_blockedHosts (t : String) : "[" ++ t ++ "]" ∉ blockedHosts := by
  intro h
  have hhead : ("[" ++ t ++ "]").toList.head? = some '[' := by simp
  simp only [blockedHosts, List.mem_cons, List.not_mem_nil, or_false] at h
  rcases h with h | h | h | h <;> rw [h] at hhead <;> revert hhead <;> decide

/-- The listed hosts that are IP addresses are in a checked range; a bracketed host is never
listed. -/
theorem isBlockedIp_of_mem {U : UrlCrate} {h : Host} {ip : IpAddr} (hip : h.ip = some ip)
    (hmem : U.hostText h ∈ blockedHosts) : isBlockedIp ip = true := by
  cases h with
  | domain name => cases hip
  | ipv6 v6 => exact absurd hmem (bracket_notMem_blockedHosts _)
  | ipv4 v4 =>
      cases hip
      simp only [UrlCrate.hostText, blockedHosts, List.mem_cons, List.not_mem_nil, or_false] at hmem
      rcases hmem with h | h | h | h
      · exact absurd h (text_ne_of_mem v4 'l' (by decide) (by decide) (by decide))
      · have hv4 : v4 = ⟨127, 0, 0, 1⟩ := text_inj (h.trans (by decide))
        rw [hv4]
        decide
      · exact absurd h (text_ne_of_mem v4 ':' (by decide) (by decide) (by decide))
      · have hv4 : v4 = ⟨0, 0, 0, 0⟩ := text_inj (h.trans (by decide))
        rw [hv4]
        decide

/-! ## The Rust gateway -/

/-- **Internal addresses.** For a URL whose host is an IP address, `validate_url` returns `Ok` only
for addresses that are not internal exactly when the address is not in a range that no check tests:
private, link-local or unique-local, or IPv4-mapped from an internal address. -/
theorem blocksInternal_iff (U : UrlCrate) (input : String) (u : Url) (ip : IpAddr)
    (hparse : U.parse input = some u) (hip : u.ip = some ip) :
    (SsrfGuard.validateUrl U input = .ok () → internal ip = false) ↔ unchecked ip = false := by
  rw [internal_eq, Bool.or_eq_false_iff, validateUrl_eq_ok]
  constructor
  · intro h
    by_contra hun
    have hblocked := isBlockedIp_of_unchecked (by simpa using hun)
    refine hun (h ⟨u, hparse, checkBlockedHosts_eq_ok.mpr ?_, checkInternalIp_eq_ok.mpr ?_⟩).2
    · intro host hhost hmem
      rw [Url.ip, hhost] at hip
      rw [isBlockedIp_of_mem hip hmem] at hblocked
      cases hblocked
    · intro ip' hip'
      rw [hip] at hip'
      cases hip'
      exact hblocked
  · rintro hun ⟨u', hparse', -, hinternal⟩
    obtain rfl : u = u' := Option.some.inj (hparse.symm.trans hparse')
    exact ⟨checkInternalIp_eq_ok.mp hinternal ip hip, hun⟩

/-- Some URLs as the `url` crate parses them. -/
def someUrls : UrlCrate where
  parse
    | "http://10.0.0.1/" => some ⟨"http", some (.ipv4 ⟨10, 0, 0, 1⟩)⟩
    | "http://8.8.8.8/" => some ⟨"http", some (.ipv4 ⟨8, 8, 8, 8⟩)⟩
    | "file:///etc/passwd" => some ⟨"file", none⟩
    | "https://eu.api.openai.com/v1" => some ⟨"https", some (.domain "eu.api.openai.com")⟩
    | _ => none
  ipv6Text ip := String.intercalate ":"
    ([ip.s0, ip.s1, ip.s2, ip.s3, ip.s4, ip.s5, ip.s6, ip.s7].map fun s =>
      String.ofList (Nat.toDigits 16 s.toNat))

/-- A public address is accepted. -/
theorem blocksInternal_public :
    SsrfGuard.validateUrl someUrls "http://8.8.8.8/" = .ok () ∧
      internal (.v4 ⟨8, 8, 8, 8⟩) = false :=
  have hok : SsrfGuard.validateUrl someUrls "http://8.8.8.8/" = .ok () := by decide
  ⟨hok, (blocksInternal_iff someUrls "http://8.8.8.8/" ⟨"http", some (.ipv4 ⟨8, 8, 8, 8⟩)⟩
    (.v4 ⟨8, 8, 8, 8⟩) (by decide) rfl).mpr (by decide) hok⟩

/-- A private address is accepted. -/
theorem accepts_private :
    ¬ (SsrfGuard.validateUrl someUrls "http://10.0.0.1/" = .ok () →
      internal (.v4 ⟨10, 0, 0, 1⟩) = false) := by
  decide

/-! ## The gateway -/

namespace SSRFDefense

/-- The name is an approved domain or ends in one after a dot. -/
def Approved (self : SSRFDefense) (name : String) : Prop :=
  ∃ d ∈ self.approvedDomains, name = d ∨ ∃ sub, name = sub ++ "." ++ d

theorem endsWith_iff (host d : String) :
    ("." ++ d).toList.isSuffixOf host.toList = true ↔ ∃ sub, host = sub ++ "." ++ d := by
  rw [List.isSuffixOf_iff_suffix]
  constructor
  · rintro ⟨t, ht⟩
    refine ⟨String.ofList t, ?_⟩
    apply String.toList_inj.mp
    rw [← ht]
    simp
  · rintro ⟨sub, rfl⟩
    refine ⟨sub.toList, ?_⟩
    simp

theorem approves_iff (self : SSRFDefense) (name : String) :
    self.approves name = true ↔ self.Approved name := by
  simp only [approves, Approved, List.any_eq_true, Bool.or_eq_true, decide_eq_true_eq,
    endsWith_iff]

/-- `Ok` is returned only for a URL whose host is a domain that is approved and not blocked. -/
def FailClosed (U : UrlCrate) (self : SSRFDefense) (url : String) : Prop :=
  self.validateUpstream U url = .ok () →
    ∃ u name, U.parse url = some u ∧ u.host = some (.domain name) ∧ self.Approved name ∧
      name ∉ blockedHosts

/-- The IP addresses the gateway refuses. -/
def refusesIp : IpAddr → Bool
  | .v4 ip => isBlockedIp (.v4 ip) || ip.isPrivate || ip.isLinkLocal
  | .v6 ip => isBlockedIp (.v6 ip)

/-- The host is an IP literal that no range refuses and that is approved as text. -/
def ApprovedLiteral (U : UrlCrate) (self : SSRFDefense) (h : Host) : Prop :=
  ∃ ip, h.ip = some ip ∧ refusesIp ip = false ∧ self.Approved (U.hostText h)

theorem checkIp_eq_ok {u : Url} :
    checkInternalIp u = .ok () ∧ checkPrivateIp u = .ok () ↔
      ∀ ip, u.ip = some ip → refusesIp ip = false := by
  rw [checkInternalIp_eq_ok, checkPrivateIp_eq_ok]
  constructor
  · rintro ⟨hi, hp⟩ ip hip
    have hb := hi ip hip
    cases ip with
    | v4 ip =>
        obtain ⟨hpr, hll⟩ := hp ip hip
        rw [refusesIp, hb, hpr, hll]
        rfl
    | v6 ip => exact hb
  · intro h
    refine ⟨fun ip hip => ?_, fun ip hip => ?_⟩
    · have hr := h ip hip
      cases ip with
      | v4 ip =>
          rw [refusesIp, Bool.or_eq_false_iff, Bool.or_eq_false_iff] at hr
          exact hr.1.1
      | v6 ip => exact hr
    · have hr := h (.v4 ip) hip
      rw [refusesIp, Bool.or_eq_false_iff, Bool.or_eq_false_iff] at hr
      exact ⟨hr.1.2, hr.2⟩

variable {U : UrlCrate} {self : SSRFDefense} {url : String}

/-- When an enabled gateway with approved domains returns `Ok`. -/
theorem validateUpstream_iff (hen : self.enabled = true) (hne : self.approvedDomains ≠ []) :
    self.validateUpstream U url = .ok () ↔ ∃ u, U.parse url = some u ∧
      ∀ h, u.host = some h → U.hostText h ∉ blockedHosts ∧
        (∀ ip, h.ip = some ip → refusesIp ip = false) ∧ self.Approved (U.hostText h) := by
  have hip : ∀ {u : Url} {h : Host}, u.host = some h → u.ip = h.ip := by
    intro u h hh
    rw [Url.ip, hh]
    rfl
  rw [validateUpstream_eq_ok hen]
  constructor
  · rintro ⟨u, hparse, hblocked, hinternal, hprivate, happroved⟩
    refine ⟨u, hparse, fun h hh => ⟨checkBlockedHosts_eq_ok.mp hblocked h hh, ?_, ?_⟩⟩
    · rw [← hip hh]
      exact checkIp_eq_ok.mp ⟨hinternal, hprivate⟩
    · exact (approves_iff _ _).mp ((checkApproved_eq_ok hne).mp happroved h hh)
  · rintro ⟨u, hparse, h⟩
    have hips : ∀ ip, u.ip = some ip → refusesIp ip = false := by
      intro ip hu
      cases hh : u.host with
      | none =>
          rw [Url.ip, hh] at hu
          cases hu
      | some host => exact (h host hh).2.1 ip ((hip hh).symm.trans hu)
    obtain ⟨hinternal, hprivate⟩ := checkIp_eq_ok.mpr hips
    exact ⟨u, hparse, checkBlockedHosts_eq_ok.mpr fun host hh => (h host hh).1, hinternal, hprivate,
      (checkApproved_eq_ok hne).mpr fun host hh => (approves_iff _ _).mpr (h host hh).2.2⟩

/-- Every check is behind a host, so nothing refuses a URL without one. -/
theorem validateUpstream_hostless (hen : self.enabled = true) (hne : self.approvedDomains ≠ [])
    {u : Url} (hparse : U.parse url = some u) (hh : u.host = none) :
    self.validateUpstream U url = .ok () := by
  refine (validateUpstream_iff hen hne).mpr ⟨u, hparse, fun h hu => ?_⟩
  rw [hh] at hu
  cases hu

/-- An approved IP literal passes the list of names too: those of its entries that are addresses
are in a refused range. -/
theorem validateUpstream_literal (hen : self.enabled = true) (hne : self.approvedDomains ≠ [])
    {u : Url} {h : Host} (hparse : U.parse url = some u) (hh : u.host = some h)
    (hlit : ApprovedLiteral U self h) : self.validateUpstream U url = .ok () := by
  obtain ⟨ip, hip, hrefuses, happroved⟩ := hlit
  have hblocked : U.hostText h ∉ blockedHosts := by
    intro hmem
    have hb := isBlockedIp_of_mem hip hmem
    cases ip <;> simp [refusesIp, hb] at hrefuses
  refine (validateUpstream_iff hen hne).mpr ⟨u, hparse, fun h' hu => ?_⟩
  rw [hh] at hu
  cases hu
  refine ⟨hblocked, fun ip' hip' => ?_, happroved⟩
  rw [hip] at hip'
  cases hip'
  exact hrefuses

theorem FailClosed.domain (h : FailClosed U self url) {u : Url} (hparse : U.parse url = some u)
    (hok : self.validateUpstream U url = .ok ()) : ∃ name, u.host = some (.domain name) := by
  obtain ⟨u', name, hparse', hhost, -⟩ := h hok
  obtain rfl : u = u' := Option.some.inj (hparse.symm.trans hparse')
  exact ⟨name, hhost⟩

/-- **The allow-list is fail-closed** exactly for the URLs that do not parse, or that have a host
which is not an IP literal approved as text and outside every refused range. -/
theorem failClosed_iff (U : UrlCrate) (self : SSRFDefense) (hen : self.enabled = true)
    (hne : self.approvedDomains ≠ []) (url : String) :
    FailClosed U self url ↔
      ∀ u, U.parse url = some u → ∃ h, u.host = some h ∧ ¬ ApprovedLiteral U self h := by
  constructor
  · intro hclosed u hparse
    cases hh : u.host with
    | none =>
        obtain ⟨name, hname⟩ :=
          hclosed.domain hparse (validateUpstream_hostless hen hne hparse hh)
        rw [hh] at hname
        cases hname
    | some h =>
        refine ⟨h, rfl, fun hlit => ?_⟩
        obtain ⟨name, hname⟩ :=
          hclosed.domain hparse (validateUpstream_literal hen hne hparse hh hlit)
        rw [hh] at hname
        cases hname
        obtain ⟨ip, hip, -⟩ := hlit
        cases hip
  · intro h hok
    obtain ⟨u, hparse, hchecks⟩ := (validateUpstream_iff hen hne).mp hok
    obtain ⟨host, hh, hlit⟩ := h u hparse
    obtain ⟨hblocked, hips, happroved⟩ := hchecks host hh
    cases hip : host.ip with
    | some ip => exact absurd ⟨ip, hip, hips ip hip, happroved⟩ hlit
    | none =>
        cases host with
        | domain name => exact ⟨u, name, hparse, hh, happroved, hblocked⟩
        | ipv4 ip => cases hip
        | ipv6 ip => cases hip

/-- A subdomain of an approved domain. -/
theorem failClosed_subdomain : FailClosed someUrls newWithDefaults "https://eu.api.openai.com/v1" :=
  (failClosed_iff someUrls newWithDefaults rfl (by decide) _).mpr fun u hu => by
    have hparse : someUrls.parse "https://eu.api.openai.com/v1" =
        some ⟨"https", some (.domain "eu.api.openai.com")⟩ := rfl
    rw [hparse] at hu
    cases hu
    exact ⟨_, rfl, fun ⟨_, hip, _⟩ => nomatch hip⟩

/-- A URL without a host is accepted. -/
theorem accepts_hostless : ¬ FailClosed someUrls newWithDefaults "file:///etc/passwd" := by
  intro h
  obtain ⟨u, name, hparse, hhost, -⟩ := h (by decide)
  have hfile : someUrls.parse "file:///etc/passwd" = some ⟨"file", none⟩ := rfl
  rw [hfile] at hparse
  cases hparse
  cases hhost

end SSRFDefense

end AppGate.Ssrf
