import Mathlib.Tactic

/-!
# Addresses and byte order

The address types of `include/common/types.h`, the protocol numbers of
`include/common/comm_defns.h` and the one byte-order function the data plane
uses. An address is the C structure, family tag and union included: the union is
sixteen bytes read as four 32-bit words, an IPv4 address lives in the first of
them and leaves the other three alone, so two equal IPv4 addresses need not be
equal structures. `ipAddressEq` is the comparison the code makes.

Ports are kept as the code keeps them, sixteen raw bits as loaded from the
header on a little-endian host. `htons` is the byte swap between that reading
and the number.
-/

/-- The family tag of an IPv4 address. -/
def afInet : ℕ := 2

/-- The family tag of an IPv6 address. -/
def afInet6 : ℕ := 10

/-- The transport protocol numbers of the IP header. The ICMP ones are the
placeholders of the source. -/
def protoNull : UInt8 := 0

@[inherit_doc protoNull] def protoIcmp : UInt8 := 88

@[inherit_doc protoNull] def protoIcmpv6 : UInt8 := 99

@[inherit_doc protoNull] def protoTcp : UInt8 := 6

@[inherit_doc protoNull] def protoUdp : UInt8 := 17

/-- The protocol numbers of the Ethernet header, as loaded on a little-endian
host. -/
def protoIp : UInt16 := 0x08

@[inherit_doc protoIp] def protoArp : UInt16 := 0x608

/-- `struct ip_address`: the family and the union, as four words. -/
structure IpAddress where
  /-- `AF_INET` or `AF_INET6`. -/
  family : ℕ
  /-- `addr.ip6[0]`, which is also `addr.ip4`. -/
  ip6_0 : UInt32
  /-- `addr.ip6[1]`. -/
  ip6_1 : UInt32
  /-- `addr.ip6[2]`. -/
  ip6_2 : UInt32
  /-- `addr.ip6[3]`. -/
  ip6_3 : UInt32
deriving DecidableEq, Repr, Inhabited

namespace IpAddress

/-- The IPv4 reading of the union. -/
def ip4 (a : IpAddress) : UInt32 := a.ip6_0

end IpAddress

/-- `struct net_address`: an address and a port. -/
structure NetAddress where
  /-- The address. -/
  ip : IpAddress
  /-- The port, as loaded from the header. -/
  port : UInt16
deriving DecidableEq, Repr, Inhabited

/-- `ip_address_init_v4`, over the garbage the union held before. -/
def ipAddressInitV4 (garbage : IpAddress) (ip4 : UInt32) : IpAddress :=
  { garbage with family := afInet, ip6_0 := ip4 }

/-- The IPv4 address with this word, the rest of the union zero. -/
def IpAddress.v4 (ip4 : UInt32) : IpAddress := ipAddressInitV4 ⟨0, 0, 0, 0, 0⟩ ip4

/-- The address `10.0.0.x`. -/
def netTen (x : UInt32) : IpAddress := IpAddress.v4 (x * 0x1000000 + 10)

/-- `ip_address_is_ipv4`. -/
def ipAddressIsIpv4 (ip : IpAddress) : Bool := ip.family == afInet

/-- `ip_address_eq`: equal families, and the words that count for the family
equal. -/
def ipAddressEq (ip1 ip2 : IpAddress) : Bool :=
  if ip1.family == ip2.family then
    if ip1.family == afInet then ip1.ip4 == ip2.ip4
    else ip1.ip6_0 == ip2.ip6_0 && ip1.ip6_1 == ip2.ip6_1
      && ip1.ip6_2 == ip2.ip6_2 && ip1.ip6_3 == ip2.ip6_3
  else false

/-- What the comparison compares: the family, and one word or all four. -/
theorem ipAddressEq_iff {a b : IpAddress} :
    ipAddressEq a b = true ↔
      a.family = b.family ∧ a.ip6_0 = b.ip6_0 ∧
        (a.family ≠ afInet →
          a.ip6_1 = b.ip6_1 ∧ a.ip6_2 = b.ip6_2 ∧ a.ip6_3 = b.ip6_3) := by
  unfold ipAddressEq IpAddress.ip4
  by_cases hf : a.family = b.family
  · by_cases h4 : a.family = afInet
    · simp [hf, hf ▸ h4]
    · simp [hf, show ¬ b.family = afInet from hf ▸ h4, and_assoc]
  · simp [hf]

@[simp] theorem ipAddressEq_refl (a : IpAddress) : ipAddressEq a a = true :=
  ipAddressEq_iff.mpr ⟨rfl, rfl, fun _ => ⟨rfl, rfl, rfl⟩⟩

theorem ipAddressEq_symm {a b : IpAddress} (h : ipAddressEq a b = true) :
    ipAddressEq b a = true := by
  obtain ⟨hf, h0, hr⟩ := ipAddressEq_iff.mp h
  refine ipAddressEq_iff.mpr ⟨hf.symm, h0.symm, fun hb => ?_⟩
  obtain ⟨h1, h2, h3⟩ := hr (hf ▸ hb)
  exact ⟨h1.symm, h2.symm, h3.symm⟩

theorem ipAddressEq_trans {a b c : IpAddress} (hab : ipAddressEq a b = true)
    (hbc : ipAddressEq b c = true) : ipAddressEq a c = true := by
  obtain ⟨hf, h0, hr⟩ := ipAddressEq_iff.mp hab
  obtain ⟨kf, k0, kr⟩ := ipAddressEq_iff.mp hbc
  refine ipAddressEq_iff.mpr ⟨hf.trans kf, h0.trans k0, fun ha => ?_⟩
  obtain ⟨h1, h2, h3⟩ := hr ha
  obtain ⟨k1, k2, k3⟩ := kr (hf ▸ ha)
  exact ⟨h1.trans k1, h2.trans k2, h3.trans k3⟩

/-! ## Byte order -/

/-- `htons` on a little-endian host, and `ntohs`: the two bytes swapped. -/
def htons (x : UInt16) : UInt16 := x % 256 * 256 + x / 256

theorem toNat_ofNat_u16 {i : ℕ} (h : i < 65536) : (UInt16.ofNat i).toNat = i :=
  UInt16.toNat_ofNat_of_lt' h

theorem toNat_htons (x : UInt16) :
    (htons x).toNat = x.toNat % 256 * 256 + x.toNat / 256 := by
  have hx := x.toNat_lt
  simp only [htons, UInt16.toNat_add, UInt16.toNat_mul, UInt16.toNat_mod,
    UInt16.toNat_div, UInt16.toNat_ofNat, Nat.reducePow, Nat.reduceMod]
  omega

@[simp] theorem htons_htons (x : UInt16) : htons (htons x) = x := by
  have hx := x.toNat_lt
  rw [← UInt16.toNat_inj, toNat_htons, toNat_htons]
  omega

theorem htons_injective : Function.Injective htons :=
  Function.Involutive.injective htons_htons

/-- The swapped port is zero only for port zero. -/
theorem htons_eq_zero {x : UInt16} : htons x = 0 ↔ x = 0 :=
  ⟨fun h => htons_injective (h.trans rfl), fun h => h.symm ▸ rfl⟩
