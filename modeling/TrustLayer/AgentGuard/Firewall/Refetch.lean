import TrustLayer.Library.Subnet

/-!
# The guard of the fetch

A host is refused when it resolves to an internal address.  IPv6 has the IPv4
addresses among its own, in two forms.
-/

namespace TrustLayer.AgentGuard.Firewall

open TrustLayer.Library

/-! ## Addresses -/

structure Ipv4Addr where
  a : UInt8
  b : UInt8
  c : UInt8
  d : UInt8
  deriving DecidableEq

/-- The address by its segments. -/
structure Ipv6Addr where
  s0 : UInt16
  s1 : UInt16
  s2 : UInt16
  s3 : UInt16
  s4 : UInt16
  s5 : UInt16
  s6 : UInt16
  s7 : UInt16
  deriving DecidableEq

inductive IpAddr where
  | v4 (address : Ipv4Addr)
  | v6 (address : Ipv6Addr)
  deriving DecidableEq

structure SocketAddr where
  ip : IpAddr
  port : UInt16
  deriving DecidableEq

namespace Ipv4Addr

def isLoopback (v4 : Ipv4Addr) : Bool :=
  v4.a == 127

def isPrivate (v4 : Ipv4Addr) : Bool :=
  v4.a == 10 || (v4.a == 172 && (16 ≤ v4.b && v4.b ≤ 31)) ||
    (v4.a == 192 && v4.b == 168)

def isLinkLocal (v4 : Ipv4Addr) : Bool :=
  v4.a == 169 && v4.b == 254

def isUnspecified (v4 : Ipv4Addr) : Bool :=
  v4 == ⟨0, 0, 0, 0⟩

/-- The address in two segments. -/
def ofSegments (ab cd : UInt16) : Ipv4Addr :=
  ⟨(ab >>> 8).toUInt8, ab.toUInt8, (cd >>> 8).toUInt8, cd.toUInt8⟩

/-- The address as a number. -/
def number (v4 : Ipv4Addr) : Nat :=
  v4.a.toNat * 2 ^ 24 + v4.b.toNat * 2 ^ 16 + v4.c.toNat * 2 ^ 8 + v4.d.toNat

end Ipv4Addr

namespace Ipv6Addr

def isLoopback (v6 : Ipv6Addr) : Bool :=
  v6 == ⟨0, 0, 0, 0, 0, 0, 0, 1⟩

def isUnspecified (v6 : Ipv6Addr) : Bool :=
  v6 == ⟨0, 0, 0, 0, 0, 0, 0, 0⟩

/-- The IPv4 address of a compatible or a mapped address. -/
def toIpv4 (v6 : Ipv6Addr) : Option Ipv4Addr :=
  if v6.s0 = 0 ∧ v6.s1 = 0 ∧ v6.s2 = 0 ∧ v6.s3 = 0 ∧ v6.s4 = 0 ∧
      (v6.s5 = 0 ∨ v6.s5 = 0xffff) then
    some (.ofSegments v6.s6 v6.s7)
  else none

def number (v6 : Ipv6Addr) : Nat :=
  v6.s0.toNat * 2 ^ 112 + v6.s1.toNat * 2 ^ 96 + v6.s2.toNat * 2 ^ 80 +
    v6.s3.toNat * 2 ^ 64 + v6.s4.toNat * 2 ^ 48 + v6.s5.toNat * 2 ^ 32 +
    v6.s6.toNat * 2 ^ 16 + v6.s7.toNat

end Ipv6Addr

/-! ## The guard -/

structure SsrfRejected where
  reason : Str
  deriving DecidableEq

def reject (reason : String) : Except SsrfRejected Unit :=
  .error ⟨reason.toList⟩

def checkV4 (v4 : Ipv4Addr) : Except SsrfRejected Unit :=
  if v4 = ⟨169, 254, 169, 254⟩ then
    reject "cloud metadata endpoint (169.254.169.254)"
  else if v4.isLoopback then reject "loopback address (127.0.0.0/8)"
  else if v4.isPrivate then
    reject "RFC1918 private address (10/8, 172.16/12, 192.168/16)"
  else if v4.isLinkLocal then reject "link-local address (169.254.0.0/16)"
  else if v4.isUnspecified then reject "unspecified address (0.0.0.0)"
  else .ok ()

def checkV6 (v6 : Ipv6Addr) : Except SsrfRejected Unit :=
  if v6 = ⟨0xfd00, 0x0ec2, 0, 0, 0, 0, 0, 0x254⟩ then
    reject "cloud metadata endpoint (fd00:ec2::254)"
  else if v6.isLoopback then reject "loopback address (::1)"
  else if v6.isUnspecified then reject "unspecified address (::)"
  else
    match v6.toIpv4 with
    | some mapped => checkV4 mapped
    | none =>
        if v6.s0 &&& 0xffc0 = 0xfe80 then
          reject "link-local address (fe80::/10)"
        else if v6.s0 &&& 0xfe00 = 0xfc00 then
          reject "RFC4193 unique-local address (fc00::/7)"
        else .ok ()

def ssrfCheckIp : (ip : IpAddr) → Except SsrfRejected Unit
  | .v4 v4 => checkV4 v4
  | .v6 v6 => checkV6 v6

/-- The loop over the addresses of a host. -/
def checkAddrs (first : Option IpAddr) :
    List SocketAddr → Except SsrfRejected (Option IpAddr)
  | [] => .ok first
  | sa :: addrs => do
      ssrfCheckIp sa.ip
      checkAddrs (first.or (some sa.ip)) addrs

/-- What a host resolves to, or the text of an error. -/
abbrev Resolver := Str → Except Str (List SocketAddr)

def ssrfCheck (resolve : Resolver) (host : Str) : Except SsrfRejected IpAddr :=
  match resolve host with
  | .error _ => .error ⟨"host did not resolve".toList⟩
  | .ok addrs => do
      match ← checkAddrs none addrs with
      | none => .error ⟨"host did not resolve to any address".toList⟩
      | some ip => .ok ip

/-! ## The resolver of the client -/

inductive ErrorKind where
  | other
  | permissionDenied
  | notFound
  deriving DecidableEq

structure IoError where
  kind : ErrorKind
  text : Str
  deriving DecidableEq

def ssrfMarker : Str := "agentguard-ssrf:".toList

/-- The netloc without its port. -/
def hostOf (netloc : Str) : Str :=
  if ':' ∈ netloc then
    (netloc.reverse.dropWhile (· ≠ ':')).tail.reverse
  else netloc

/-- The first refusal in the list. -/
def refusal : List SocketAddr → Option SsrfRejected
  | [] => none
  | sa :: addrs =>
      match ssrfCheckIp sa.ip with
      | .error rejected => some rejected
      | .ok () => refusal addrs

def ssrfResolver (resolve : Resolver) (netloc : Str) :
    Except IoError (List SocketAddr) :=
  match resolve netloc with
  | .error text => .error ⟨.other, text⟩
  | .ok addrs =>
      match refusal addrs with
      | some rejected =>
          .error ⟨.permissionDenied, ssrfMarker ++ hostOf netloc ++
            ": ".toList ++ rejected.reason⟩
      | none =>
          if addrs = [] then .error ⟨.notFound, "host did not resolve".toList⟩
          else .ok addrs

/-! ## Internal addresses -/

/-- `10/8`, `172.16/12`, `192.168/16`, `127/8`, `169.254/16` and `0.0.0.0`. -/
def internalV4 : List (Subnet 32) :=
  [⟨(Ipv4Addr.mk 10 0 0 0).number, 8⟩, ⟨(Ipv4Addr.mk 172 16 0 0).number, 12⟩,
    ⟨(Ipv4Addr.mk 192 168 0 0).number, 16⟩, ⟨(Ipv4Addr.mk 127 0 0 0).number, 8⟩,
    ⟨(Ipv4Addr.mk 169 254 0 0).number, 16⟩, ⟨(Ipv4Addr.mk 0 0 0 0).number, 32⟩]

/-- `::`, `::1`, `fe80::/10` and `fc00::/7`. -/
def internalV6 : List (Subnet 128) :=
  [⟨0, 128⟩, ⟨1, 128⟩, ⟨0xfe80 * 2 ^ 112, 10⟩, ⟨0xfc00 * 2 ^ 112, 7⟩]

/-- The IPv4-compatible and the IPv4-mapped form. -/
def Embeds (v6 : Ipv6Addr) (v4 : Ipv4Addr) : Prop :=
  v6.number = v4.number ∨ v6.number = 0xffff * 2 ^ 32 + v4.number

inductive Internal : IpAddr → Prop
  | v4 {v4 : Ipv4Addr} (net : Subnet 32) :
      net ∈ internalV4 → net.Contains v4.number → Internal (.v4 v4)
  | v6 {v6 : Ipv6Addr} (net : Subnet 128) :
      net ∈ internalV6 → net.Contains v6.number → Internal (.v6 v6)
  | embedded {v6 : Ipv6Addr} {v4 : Ipv4Addr} :
      Embeds v6 v4 → Internal (.v4 v4) → Internal (.v6 v6)

variable {v4 other : Ipv4Addr} {v6 : Ipv6Addr}

/-! ## IPv4 -/

theorem Ipv4Addr.number_lt (v4 : Ipv4Addr) : v4.number < 2 ^ 32 := by
  have a := v4.a.toNat_lt
  have b := v4.b.toNat_lt
  have c := v4.c.toNat_lt
  have d := v4.d.toNat_lt
  rw [number]
  omega

theorem Ipv4Addr.number_inj (same : v4.number = other.number) : v4 = other := by
  obtain ⟨a, b, c, d⟩ := v4
  obtain ⟨a', b', c', d'⟩ := other
  have bounds := And.intro (And.intro b.toNat_lt c.toNat_lt) d.toNat_lt
  have others := And.intro (And.intro b'.toNat_lt c'.toNat_lt) d'.toNat_lt
  simp only [number] at same
  simp only [mk.injEq, ← UInt8.toNat_inj]
  omega

namespace Ipv4Addr

theorem number_div_octet (v4 : Ipv4Addr) : v4.number / 2 ^ 24 = v4.a.toNat := by
  have b := v4.b.toNat_lt
  have c := v4.c.toNat_lt
  have d := v4.d.toNat_lt
  rw [number]
  omega

theorem number_div_octets (v4 : Ipv4Addr) :
    v4.number / 2 ^ 16 = v4.a.toNat * 2 ^ 8 + v4.b.toNat := by
  have c := v4.c.toNat_lt
  have d := v4.d.toNat_lt
  rw [number]
  omega

theorem contains_octet {a : UInt8} :
    (⟨(mk a 0 0 0).number, 8⟩ : Subnet 32).Contains v4.number ↔ v4.a = a := by
  change v4.number / 2 ^ 24 = (mk a 0 0 0).number / 2 ^ 24 ↔ _
  rw [number_div_octet, number_div_octet]
  exact UInt8.toNat_inj

theorem contains_octets {a b : UInt8} :
    (⟨(mk a b 0 0).number, 16⟩ : Subnet 32).Contains v4.number ↔
      v4.a = a ∧ v4.b = b := by
  change v4.number / 2 ^ 16 = (mk a b 0 0).number / 2 ^ 16 ↔ _
  rw [number_div_octets, number_div_octets, ← UInt8.toNat_inj, ← UInt8.toNat_inj]
  change _ = a.toNat * 2 ^ 8 + b.toNat ↔ _
  have small := v4.b.toNat_lt
  have other := b.toNat_lt
  omega

theorem contains_address :
    (⟨other.number, 32⟩ : Subnet 32).Contains v4.number ↔ v4 = other := by
  change v4.number / 2 ^ 0 = other.number / 2 ^ 0 ↔ _
  rw [Nat.pow_zero, Nat.div_one, Nat.div_one]
  exact ⟨number_inj, congrArg number⟩

/-- `172.16/12`, which ends inside an octet. -/
theorem contains_172 :
    (⟨(mk 172 16 0 0).number, 12⟩ : Subnet 32).Contains v4.number ↔
      v4.a = 172 ∧ 16 ≤ v4.b ∧ v4.b ≤ 31 := by
  have blocks : v4.number / 2 ^ 20 = v4.number / 2 ^ 16 / 2 ^ 4 := by
    rw [Nat.div_div_eq_div_mul, ← Nat.pow_add]
  change v4.number / 2 ^ 20 = 172 * 16 + 1 ↔ _
  rw [blocks, number_div_octets, ← UInt8.toNat_inj, UInt8.le_iff_toNat_le,
    UInt8.le_iff_toNat_le]
  change _ ↔ v4.a.toNat = 172 ∧ 16 ≤ v4.b.toNat ∧ v4.b.toNat ≤ 31
  have small := v4.b.toNat_lt
  omega

end Ipv4Addr

theorem internal_v4_iff :
    Internal (.v4 v4) ↔ v4.isLoopback = true ∨ v4.isPrivate = true ∨
      v4.isLinkLocal = true ∨ v4.isUnspecified = true := by
  have inNetwork : Internal (.v4 v4) ↔
      ∃ net ∈ internalV4, net.Contains v4.number := by
    constructor
    · intro isInternal
      cases isInternal with
      | v4 net member contains => exact ⟨net, member, contains⟩
    · intro ⟨net, member, contains⟩
      exact .v4 net member contains
  rw [inNetwork]
  simp only [internalV4, List.exists_mem_cons_iff, List.not_mem_nil, false_and,
    exists_false, or_false, Ipv4Addr.contains_octet, Ipv4Addr.contains_octets,
    Ipv4Addr.contains_address, Ipv4Addr.contains_172, Ipv4Addr.isLoopback,
    Ipv4Addr.isPrivate, Ipv4Addr.isLinkLocal, Ipv4Addr.isUnspecified,
    Bool.or_eq_true, Bool.and_eq_true, beq_iff_eq, decide_eq_true_eq]
  tauto

theorem checkV4_eq_ok_iff : checkV4 v4 = .ok () ↔ ¬ Internal (.v4 v4) := by
  rw [internal_v4_iff, checkV4]
  split_ifs with metadata loopback isPrivate linkLocal unspecified
  · subst metadata
    exact iff_of_false nofun fun outside => outside (by decide)
  · exact iff_of_false nofun fun outside => outside (.inl loopback)
  · exact iff_of_false nofun fun outside => outside (.inr (.inl isPrivate))
  · exact iff_of_false nofun fun outside =>
      outside (.inr (.inr (.inl linkLocal)))
  · exact iff_of_false nofun fun outside =>
      outside (.inr (.inr (.inr unspecified)))
  · apply iff_of_true rfl
    rintro (found | found | found | found)
    · exact loopback found
    · exact isPrivate found
    · exact linkLocal found
    · exact unspecified found

/-! ## IPv6 -/

theorem Ipv6Addr.number_inj {v6 other : Ipv6Addr} (same : v6.number = other.number) :
    v6 = other := by
  obtain ⟨s0, s1, s2, s3, s4, s5, s6, s7⟩ := v6
  obtain ⟨t0, t1, t2, t3, t4, t5, t6, t7⟩ := other
  have bounds := And.intro (And.intro (And.intro s1.toNat_lt s2.toNat_lt)
    (And.intro s3.toNat_lt s4.toNat_lt)) (And.intro (And.intro s5.toNat_lt
      s6.toNat_lt) s7.toNat_lt)
  have others := And.intro (And.intro (And.intro t1.toNat_lt t2.toNat_lt)
    (And.intro t3.toNat_lt t4.toNat_lt)) (And.intro (And.intro t5.toNat_lt
      t6.toNat_lt) t7.toNat_lt)
  simp only [number] at same
  simp only [mk.injEq, ← UInt16.toNat_inj]
  omega

theorem Ipv4Addr.number_ofSegments (ab cd : UInt16) :
    (ofSegments ab cd).number = ab.toNat * 2 ^ 16 + cd.toNat := by
  have bytes : ∀ segment : UInt16,
      (segment >>> 8).toUInt8.toNat * 2 ^ 8 + segment.toUInt8.toNat =
        segment.toNat := by
    intro segment
    have small := segment.toNat_lt
    rw [UInt16.toNat_toUInt8, UInt16.toNat_toUInt8, UInt16.toNat_shiftRight]
    change segment.toNat >>> 8 % 256 * 256 + segment.toNat % 256 = _
    rw [Nat.shiftRight_eq_div_pow]
    omega
  rw [← bytes ab, ← bytes cd, number, ofSegments, Nat.add_mul, Nat.mul_assoc,
    ← Nat.pow_add]
  exact Nat.add_assoc _ _ _

theorem toIpv4_eq_some_iff : v6.toIpv4 = some v4 ↔ Embeds v6 v4 := by
  have small := v4.number_lt
  obtain ⟨s0, s1, s2, s3, s4, s5, s6, s7⟩ := v6
  have bounds := And.intro s5.toNat_lt (And.intro s6.toNat_lt s7.toNat_lt)
  have same : Ipv4Addr.ofSegments s6 s7 = v4 ↔
      s6.toNat * 2 ^ 16 + s7.toNat = v4.number := by
    rw [← Ipv4Addr.number_ofSegments]
    exact ⟨congrArg Ipv4Addr.number, Ipv4Addr.number_inj⟩
  rw [Embeds, Ipv6Addr.toIpv4, Option.ite_none_right_eq_some, Option.some.injEq,
    same]
  simp only [Ipv6Addr.number, ← UInt16.toNat_inj]
  simp only [UInt16.reduceToNat]
  omega

theorem Ipv6Addr.number_div_segment (v6 : Ipv6Addr) :
    v6.number / 2 ^ 112 = v6.s0.toNat := by
  have bounds := And.intro (And.intro (And.intro v6.s1.toNat_lt v6.s2.toNat_lt)
    (And.intro v6.s3.toNat_lt v6.s4.toNat_lt)) (And.intro (And.intro
      v6.s5.toNat_lt v6.s6.toNat_lt) v6.s7.toNat_lt)
  rw [number]
  omega

/-- A network that ends inside the first segment. -/
theorem contains_segment {base length : Nat} (within : length ≤ 16) :
    (⟨base * 2 ^ 112, length⟩ : Subnet 128).Contains v6.number ↔
      (⟨base, length⟩ : Subnet 16).Contains v6.s0.toNat := by
  have split : 2 ^ (128 - length) = 2 ^ 112 * 2 ^ (16 - length) := by
    rw [← Nat.pow_add]
    congr 1
    omega
  change v6.number / 2 ^ (128 - length) = base * 2 ^ 112 / 2 ^ (128 - length) ↔
    v6.s0.toNat / 2 ^ (16 - length) = base / 2 ^ (16 - length)
  rw [split, ← Nat.div_div_eq_div_mul, ← Nat.div_div_eq_div_mul,
    v6.number_div_segment, Nat.mul_div_cancel _ (Nat.two_pow_pos 112)]

theorem contains_fe80 :
    (⟨0xfe80 * 2 ^ 112, 10⟩ : Subnet 128).Contains v6.number ↔
      v6.s0 &&& 0xffc0 = 0xfe80 := by
  rw [contains_segment (by decide), ← UInt16.toNat_inj, UInt16.toNat_and]
  exact (Subnet.masked_eq_iff v6.s0.toNat_lt (by decide)).symm

theorem contains_fc00 :
    (⟨0xfc00 * 2 ^ 112, 7⟩ : Subnet 128).Contains v6.number ↔
      v6.s0 &&& 0xfe00 = 0xfc00 := by
  rw [contains_segment (by decide), ← UInt16.toNat_inj, UInt16.toNat_and]
  exact (Subnet.masked_eq_iff v6.s0.toNat_lt (by decide)).symm

theorem Ipv6Addr.contains_address {other : Ipv6Addr} :
    (⟨other.number, 128⟩ : Subnet 128).Contains v6.number ↔ v6 = other := by
  change v6.number / 2 ^ 0 = other.number / 2 ^ 0 ↔ _
  rw [Nat.pow_zero, Nat.div_one, Nat.div_one]
  exact ⟨number_inj, congrArg number⟩

theorem internal_v6_iff :
    Internal (.v6 v6) ↔ v6.isLoopback = true ∨ v6.isUnspecified = true ∨
      (∃ mapped, v6.toIpv4 = some mapped ∧ Internal (.v4 mapped)) ∨
      v6.s0 &&& 0xffc0 = 0xfe80 ∨ v6.s0 &&& 0xfe00 = 0xfc00 := by
  have networks : (∃ net ∈ internalV6, net.Contains v6.number) ↔
      v6.isUnspecified = true ∨ v6.isLoopback = true ∨
        v6.s0 &&& 0xffc0 = 0xfe80 ∨ v6.s0 &&& 0xfe00 = 0xfc00 := by
    rw [← contains_fe80, ← contains_fc00, Ipv6Addr.isUnspecified, beq_iff_eq,
      ← Ipv6Addr.contains_address, Ipv6Addr.isLoopback, beq_iff_eq,
      ← Ipv6Addr.contains_address]
    simp only [internalV6, List.exists_mem_cons_iff, List.not_mem_nil,
      false_and, exists_false, or_false]
    exact Iff.rfl
  constructor
  · intro isInternal
    cases isInternal with
    | v6 net member contains =>
        have found := networks.mp ⟨net, member, contains⟩
        tauto
    | embedded embeds isInternal =>
        exact .inr (.inr (.inl ⟨_, toIpv4_eq_some_iff.mpr embeds, isInternal⟩))
  · have ofNetwork : (∃ net ∈ internalV6, net.Contains v6.number) →
        Internal (.v6 v6) := by
      intro ⟨net, member, contains⟩
      exact .v6 net member contains
    rintro (loopback | unspecified | ⟨mapped, found, isInternal⟩ | local6 | ula)
    · exact ofNetwork (networks.mpr (.inr (.inl loopback)))
    · exact ofNetwork (networks.mpr (.inl unspecified))
    · exact .embedded (toIpv4_eq_some_iff.mp found) isInternal
    · exact ofNetwork (networks.mpr (.inr (.inr (.inl local6))))
    · exact ofNetwork (networks.mpr (.inr (.inr (.inr ula))))

/-- The forms of IPv4 addresses begin with zeros. -/
theorem segment_of_toIpv4 {mapped : Ipv4Addr} (found : v6.toIpv4 = some mapped) :
    v6.s0 = 0 := by
  rw [Ipv6Addr.toIpv4, Option.ite_none_right_eq_some] at found
  exact found.1.1

theorem checkV6_eq_ok_iff : checkV6 v6 = .ok () ↔ ¬ Internal (.v6 v6) := by
  rw [internal_v6_iff, checkV6]
  by_cases metadata : v6 = ⟨0xfd00, 0x0ec2, 0, 0, 0, 0, 0, 0x254⟩
  · have ula : v6.s0 &&& 0xfe00 = 0xfc00 := by
      rw [metadata]
      decide
    rw [if_pos metadata]
    exact iff_of_false nofun fun outside =>
      outside (.inr (.inr (.inr (.inr ula))))
  rw [if_neg metadata]
  by_cases loopback : v6.isLoopback = true
  · rw [if_pos loopback]
    exact iff_of_false nofun fun outside => outside (.inl loopback)
  rw [if_neg loopback]
  by_cases unspecified : v6.isUnspecified = true
  · rw [if_pos unspecified]
    exact iff_of_false nofun fun outside => outside (.inr (.inl unspecified))
  rw [if_neg unspecified]
  cases found : v6.toIpv4 with
  | some mapped =>
      -- the masks reject nothing that begins with zeros
      have zero := segment_of_toIpv4 found
      rw [checkV4_eq_ok_iff]
      simp [loopback, unspecified, zero]
  | none =>
      split_ifs with local6 ula
      · exact iff_of_false nofun fun outside =>
          outside (.inr (.inr (.inr (.inl local6))))
      · exact iff_of_false nofun fun outside =>
          outside (.inr (.inr (.inr (.inr ula))))
      · simp [loopback, unspecified, local6, ula]

theorem ssrfCheckIp_eq_ok_iff {ip : IpAddr} :
    ssrfCheckIp ip = .ok () ↔ ¬ Internal ip := by
  cases ip with
  | v4 v4 => exact checkV4_eq_ok_iff
  | v6 v6 => exact checkV6_eq_ok_iff

theorem exists_error_iff {ip : IpAddr} :
    (∃ rejected, ssrfCheckIp ip = .error rejected) ↔ Internal ip := by
  rw [← not_iff_not, ← ssrfCheckIp_eq_ok_iff]
  cases ssrfCheckIp ip with
  | error rejected => simp
  | ok => simp

/-! ## Lists of addresses -/

theorem refusal_eq_none_iff {addrs : List SocketAddr} :
    refusal addrs = none ↔ ∀ addr ∈ addrs, ¬ Internal addr.ip := by
  induction addrs with
  | nil => simp [refusal]
  | cons addr addrs induction =>
      rw [refusal, List.forall_mem_cons, ← induction, ← ssrfCheckIp_eq_ok_iff]
      cases ssrfCheckIp addr.ip with
      | error rejected => simp
      | ok => simp

/-- Only the addresses of a host that is public throughout are given out. -/
theorem ssrfResolver_eq_ok_iff {resolve : Resolver} {netloc : Str}
    {addrs : List SocketAddr} :
    ssrfResolver resolve netloc = .ok addrs ↔
      resolve netloc = .ok addrs ∧ addrs ≠ [] ∧
        ∀ addr ∈ addrs, ¬ Internal addr.ip := by
  rw [ssrfResolver]
  cases resolve netloc with
  | error text => simp
  | ok found =>
      simp only [Except.ok.injEq]
      cases refused : refusal found with
      | some rejected =>
          apply iff_of_false nofun
          rintro ⟨rfl, -, outside⟩
          rw [refusal_eq_none_iff.mpr outside] at refused
          cases refused
      | none =>
          have outside := refusal_eq_none_iff.mp refused
          split_ifs with empty
          · apply iff_of_false nofun
            rintro ⟨rfl, some, -⟩
            exact some empty
          · rw [Except.ok.injEq]
            constructor
            · rintro rfl
              exact ⟨rfl, empty, outside⟩
            · exact And.left

theorem refusal_eq_some {addrs : List SocketAddr} {rejected : SsrfRejected}
    (refused : refusal addrs = some rejected) :
    ∃ addr ∈ addrs, ssrfCheckIp addr.ip = .error rejected := by
  induction addrs with
  | nil => cases refused
  | cons addr addrs induction =>
      rw [refusal] at refused
      cases checked : ssrfCheckIp addr.ip with
      | error reason =>
          rw [checked] at refused
          obtain rfl := Option.some.inj refused
          exact ⟨addr, List.mem_cons_self, checked⟩
      | ok =>
          rw [checked] at refused
          obtain ⟨other, member, isRefused⟩ := induction refused
          exact ⟨other, List.mem_cons_of_mem _ member, isRefused⟩

/-- A single internal address refuses the host. -/
theorem ssrfResolver_of_internal {resolve : Resolver} {netloc : Str}
    {addrs : List SocketAddr} (resolved : resolve netloc = .ok addrs)
    (mixed : ∃ addr ∈ addrs, Internal addr.ip) :
    ∃ addr ∈ addrs, ∃ rejected, ssrfCheckIp addr.ip = .error rejected ∧
      ssrfResolver resolve netloc =
        .error ⟨.permissionDenied, ssrfMarker ++ hostOf netloc ++
          ": ".toList ++ rejected.reason⟩ := by
  cases refused : refusal addrs with
  | none =>
      obtain ⟨addr, member, isInternal⟩ := mixed
      exact absurd isInternal (refusal_eq_none_iff.mp refused addr member)
  | some rejected =>
      obtain ⟨addr, member, isRefused⟩ := refusal_eq_some refused
      refine ⟨addr, member, rejected, isRefused, ?_⟩
      simp only [ssrfResolver, resolved, refused]

theorem checkAddrs_eq_ok_iff {first answer : Option IpAddr}
    {addrs : List SocketAddr} :
    checkAddrs first addrs = .ok answer ↔
      (∀ addr ∈ addrs, ¬ Internal addr.ip) ∧
        first.or (addrs.head?.map SocketAddr.ip) = answer := by
  induction addrs generalizing first with
  | nil => simp [checkAddrs]
  | cons addr addrs induction =>
      rw [checkAddrs, List.forall_mem_cons, ← ssrfCheckIp_eq_ok_iff]
      cases ssrfCheckIp addr.ip with
      | error rejected => simp [bind, Except.bind]
      | ok =>
          change checkAddrs _ addrs = _ ↔ _
          rw [induction, Option.or_assoc]
          simp

theorem ssrfCheck_eq_ok_iff {resolve : Resolver} {host : Str} {ip : IpAddr} :
    ssrfCheck resolve host = .ok ip ↔
      ∃ addrs, resolve host = .ok addrs ∧
        (∀ addr ∈ addrs, ¬ Internal addr.ip) ∧
        addrs.head?.map SocketAddr.ip = some ip := by
  rw [ssrfCheck]
  cases resolve host with
  | error text => simp
  | ok addrs =>
      simp only [Except.ok.injEq, exists_eq_left']
      cases checked : checkAddrs none addrs with
      | error rejected =>
          apply iff_of_false nofun
          intro found
          have accepted : checkAddrs none addrs = .ok (some ip) :=
            checkAddrs_eq_ok_iff.mpr found
          rw [checked] at accepted
          cases accepted
      | ok answer =>
          obtain ⟨outside, same⟩ := checkAddrs_eq_ok_iff.mp checked
          rw [Option.none_or] at same
          rw [same]
          cases answer with
          | none => simp [bind, Except.bind]
          | some first =>
              change Except.ok first = Except.ok ip ↔ _
              rw [Except.ok.injEq, Option.some.injEq]
              exact (and_iff_right outside).symm

/-- An address is rejected exactly when it is internal, a host is accepted
exactly when none of its addresses is, and one internal address among others
refuses it. -/
theorem guard_exact (resolve : Resolver) :
    (∀ ip, (∃ rejected, ssrfCheckIp ip = .error rejected) ↔ Internal ip) ∧
    (∀ netloc addrs, ssrfResolver resolve netloc = .ok addrs ↔
      resolve netloc = .ok addrs ∧ addrs ≠ [] ∧
        ∀ addr ∈ addrs, ¬ Internal addr.ip) ∧
    (∀ netloc addrs, resolve netloc = .ok addrs →
      (∃ addr ∈ addrs, Internal addr.ip) →
      ∃ addr ∈ addrs, ∃ rejected, ssrfCheckIp addr.ip = .error rejected ∧
        ssrfResolver resolve netloc =
          .error ⟨.permissionDenied, ssrfMarker ++ hostOf netloc ++
            ": ".toList ++ rejected.reason⟩) ∧
    ∀ host ip, ssrfCheck resolve host = .ok ip ↔
      ∃ addrs, resolve host = .ok addrs ∧
        (∀ addr ∈ addrs, ¬ Internal addr.ip) ∧
        addrs.head?.map SocketAddr.ip = some ip := by
  refine ⟨fun ip => exists_error_iff, fun netloc addrs => ssrfResolver_eq_ok_iff,
    ?_, fun host ip => ssrfCheck_eq_ok_iff⟩
  intro netloc addrs resolved mixed
  exact ssrfResolver_of_internal resolved mixed

end TrustLayer.AgentGuard.Firewall
