import AppGate.Lib.Text

/-!
# IP addresses

`std::net::IpAddr`: the address ranges its predicates name, and the dotted text of an IPv4 address.

* `Ipv4Addr`, `Ipv6Addr`, `IpAddr` and their ranges; `toIpv4Mapped`: `::ffff:a.b.c.d`;
* `and_submask`, `not_multicast_of_uniqueLocal`, `not_multicast_of_linkLocal`: ranges given by
  masks;
* **`text_inj`**, `text_char`: a dotted text determines its octets.
-/

set_option autoImplicit false

namespace Ip

/-- `Ipv4Addr`. -/
structure Ipv4Addr where
  a : UInt8
  b : UInt8
  c : UInt8
  d : UInt8
  deriving DecidableEq, Repr

namespace Ipv4Addr

/-- `127.0.0.0/8`. -/
def isLoopback (ip : Ipv4Addr) : Bool := ip.a = 127

/-- `0.0.0.0`. -/
def isUnspecified (ip : Ipv4Addr) : Bool := ip = ⟨0, 0, 0, 0⟩

/-- `224.0.0.0/4`. -/
def isMulticast (ip : Ipv4Addr) : Bool := 224 ≤ ip.a && ip.a ≤ 239

/-- `10.0.0.0/8`, `172.16.0.0/12` and `192.168.0.0/16`. -/
def isPrivate (ip : Ipv4Addr) : Bool :=
  ip.a = 10 || (ip.a = 172 && 16 ≤ ip.b && ip.b ≤ 31) || (ip.a = 192 && ip.b = 168)

/-- `169.254.0.0/16`. -/
def isLinkLocal (ip : Ipv4Addr) : Bool := ip.a = 169 && ip.b = 254

/-- The dotted text. -/
def text (ip : Ipv4Addr) : String :=
  toString ip.a.toNat ++ "." ++ toString ip.b.toNat ++ "." ++ toString ip.c.toNat ++ "." ++
    toString ip.d.toNat

end Ipv4Addr

/-- `Ipv6Addr`, as eight segments. -/
structure Ipv6Addr where
  s0 : UInt16
  s1 : UInt16
  s2 : UInt16
  s3 : UInt16
  s4 : UInt16
  s5 : UInt16
  s6 : UInt16
  s7 : UInt16
  deriving DecidableEq, Repr

namespace Ipv6Addr

/-- `::1`. -/
def isLoopback (ip : Ipv6Addr) : Bool := ip = ⟨0, 0, 0, 0, 0, 0, 0, 1⟩

/-- `::`. -/
def isUnspecified (ip : Ipv6Addr) : Bool := ip = ⟨0, 0, 0, 0, 0, 0, 0, 0⟩

/-- `ff00::/8`. -/
def isMulticast (ip : Ipv6Addr) : Bool := ip.s0 &&& 0xff00 = 0xff00

/-- `fc00::/7`. -/
def isUniqueLocal (ip : Ipv6Addr) : Bool := ip.s0 &&& 0xfe00 = 0xfc00

/-- `fe80::/10`. -/
def isUnicastLinkLocal (ip : Ipv6Addr) : Bool := ip.s0 &&& 0xffc0 = 0xfe80

/-- `Ipv6Addr::to_ipv4_mapped`: the address behind `::ffff:a.b.c.d`. -/
def toIpv4Mapped (ip : Ipv6Addr) : Option Ipv4Addr :=
  if ip.s0 = 0 ∧ ip.s1 = 0 ∧ ip.s2 = 0 ∧ ip.s3 = 0 ∧ ip.s4 = 0 ∧ ip.s5 = 0xffff then
    some ⟨(ip.s6 >>> 8).toUInt8, ip.s6.toUInt8, (ip.s7 >>> 8).toUInt8, ip.s7.toUInt8⟩
  else none

end Ipv6Addr

/-- `IpAddr`. -/
inductive IpAddr where
  | v4 (ip : Ipv4Addr)
  | v6 (ip : Ipv6Addr)
  deriving DecidableEq, Repr

namespace IpAddr

/-- `IpAddr::is_loopback`. -/
def isLoopback : IpAddr → Bool
  | v4 ip => ip.isLoopback
  | v6 ip => ip.isLoopback

/-- `IpAddr::is_unspecified`. -/
def isUnspecified : IpAddr → Bool
  | v4 ip => ip.isUnspecified
  | v6 ip => ip.isUnspecified

/-- `IpAddr::is_multicast`. -/
def isMulticast : IpAddr → Bool
  | v4 ip => ip.isMulticast
  | v6 ip => ip.isMulticast

end IpAddr

/-! ## Ranges -/

theorem and_submask {x m n v : UInt16} (h : x &&& m = v) (hn : m &&& n = n) :
    x &&& n = v &&& n := by
  rw [← h, UInt16.and_assoc, hn]

theorem not_multicast_of_uniqueLocal {ip : Ipv6Addr} (h : ip.isUniqueLocal = true) :
    ip.isMulticast = false := by
  simp only [Ipv6Addr.isUniqueLocal, Ipv6Addr.isMulticast, decide_eq_true_eq,
    decide_eq_false_iff_not] at h ⊢
  intro hm
  have := and_submask (n := 0xfe00) hm (by decide)
  rw [h] at this
  revert this
  decide

theorem not_multicast_of_linkLocal {ip : Ipv6Addr} (h : ip.isUnicastLinkLocal = true) :
    ip.isMulticast = false := by
  simp only [Ipv6Addr.isUnicastLinkLocal, Ipv6Addr.isMulticast, decide_eq_true_eq,
    decide_eq_false_iff_not] at h ⊢
  rw [and_submask (n := 0xff00) h (by decide)]
  decide

/-! ## Texts -/

theorem dot_notMem_toString (n : ℕ) : '.' ∉ (toString n).toList :=
  Text.notMem_toString (by decide) n

theorem octet_inj {x y : UInt8} (h : (toString x.toNat).toList = (toString y.toNat).toList) :
    x = y :=
  UInt8.toNat_inj.mp (Text.toString_inj (String.toList_inj.mp h))

theorem toList_text (ip : Ipv4Addr) : ip.text.toList =
    (toString ip.a.toNat).toList ++ '.' :: ((toString ip.b.toNat).toList ++
      '.' :: ((toString ip.c.toNat).toList ++ '.' :: (toString ip.d.toNat).toList)) := by
  simp [Ipv4Addr.text]

/-- **A dotted text determines its octets.** -/
theorem text_inj {ip ip' : Ipv4Addr} (h : ip.text = ip'.text) : ip = ip' := by
  have hlist := congrArg String.toList h
  rw [toList_text, toList_text] at hlist
  obtain ⟨ha, hlist⟩ := Text.append_sep_inj (dot_notMem_toString _) (dot_notMem_toString _) hlist
  obtain ⟨hb, hlist⟩ := Text.append_sep_inj (dot_notMem_toString _) (dot_notMem_toString _) hlist
  obtain ⟨hc, hd⟩ := Text.append_sep_inj (dot_notMem_toString _) (dot_notMem_toString _) hlist
  obtain ⟨a, b, c, d⟩ := ip
  obtain ⟨a', b', c', d'⟩ := ip'
  rw [Ipv4Addr.mk.injEq]
  exact ⟨octet_inj ha, octet_inj hb, octet_inj hc, octet_inj hd⟩

/-- A dotted text has digits and dots only. -/
theorem text_char {ip : Ipv4Addr} {ch : Char} (h : ch ∈ ip.text.toList) :
    ch = '.' ∨ ch.isDigit = true := by
  rw [toList_text] at h
  simp only [List.mem_append, List.mem_cons] at h
  rcases h with h | rfl | h | rfl | h | rfl | h
  · exact .inr (Text.isDigit_of_mem_toString h)
  · exact .inl rfl
  · exact .inr (Text.isDigit_of_mem_toString h)
  · exact .inl rfl
  · exact .inr (Text.isDigit_of_mem_toString h)
  · exact .inl rfl
  · exact .inr (Text.isDigit_of_mem_toString h)

end Ip
