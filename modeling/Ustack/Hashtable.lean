import Ustack.Types

/-!
# The Jenkins hash and the address hashes

`include/common/jhash.h` and the two hash functions of
`include/common/hashtable.h`, over wrapping 32-bit words. Every table of the
program – connections, virtual servers, local addresses, routes – takes its
bucket from one of them, under the seed `hash_rand` drawn at start-up.

The tables compare keys with `ipAddressEq` and choose buckets by hash, so a
lookup is exact only because equal addresses hash equally
(`ipAddressHash_congr`, `ipPortProtoHash_congr`).
-/

/-- `JHASH_GOLDEN_RATIO`. -/
def jhashGoldenRatio : UInt32 := 0x9e3779b9

/-- `__jhash_mix`: the three words mixed in place. -/
def jhashMix (a b c : UInt32) : UInt32 × UInt32 × UInt32 :=
  let a := a - b; let a := a - c; let a := a ^^^ (c >>> 13)
  let b := b - c; let b := b - a; let b := b ^^^ (a <<< 8)
  let c := c - a; let c := c - b; let c := c ^^^ (b >>> 13)
  let a := a - b; let a := a - c; let a := a ^^^ (c >>> 12)
  let b := b - c; let b := b - a; let b := b ^^^ (a <<< 16)
  let c := c - a; let c := c - b; let c := c ^^^ (b >>> 5)
  let a := a - b; let a := a - c; let a := a ^^^ (c >>> 3)
  let b := b - c; let b := b - a; let b := b ^^^ (a <<< 10)
  let c := c - a; let c := c - b; let c := c ^^^ (b >>> 15)
  (a, b, c)

/-- The byte `k[i]` shifted into its place of a word. -/
def jhashByte (k : ℕ → UInt8) (i : ℕ) (shift : UInt32) : UInt32 :=
  (k i).toUInt32 <<< shift

/-- The word the four bytes from `k[i]` make, least significant first. -/
def jhashWord (k : ℕ → UInt8) (i : ℕ) : UInt32 :=
  jhashByte k i 0 + jhashByte k (i + 1) 8 + jhashByte k (i + 2) 16
    + jhashByte k (i + 3) 24

/-- The loop of `jhash`, once for each full block of twelve bytes. -/
def jhashBlocks : ℕ → (ℕ → UInt8) → UInt32 → UInt32 → UInt32 →
    (ℕ → UInt8) × UInt32 × UInt32 × UInt32
  | 0, k, a, b, c => (k, a, b, c)
  | n + 1, k, a, b, c =>
    let (a, b, c) := jhashMix (a + jhashWord k 0) (b + jhashWord k 4)
      (c + jhashWord k 8)
    jhashBlocks n (fun i => k (i + 12)) a b c

/-- The switch of `jhash` over the last `len < 12` bytes, every case falling
through to the next. -/
def jhashTail (len : ℕ) (k : ℕ → UInt8) (a b c : UInt32) :
    UInt32 × UInt32 × UInt32 :=
  let tail (i : ℕ) (shift : UInt32) := if i < len then jhashByte k i shift else 0
  (a + tail 3 24 + tail 2 16 + tail 1 8 + tail 0 0,
    b + tail 7 24 + tail 6 16 + tail 5 8 + tail 4 0,
    c + tail 10 24 + tail 9 16 + tail 8 8)

/-- `jhash`: the hash of the first `length` bytes of `key`. -/
def jhash (key : ℕ → UInt8) (length : ℕ) (initval : UInt32) : UInt32 :=
  let (k, a, b, c) :=
    jhashBlocks (length / 12) key jhashGoldenRatio jhashGoldenRatio initval
  let (a, b, c) := jhashTail (length % 12) k a b (c + UInt32.ofNat length)
  (jhashMix a b c).2.2

/-- `jhash_3words`. -/
def jhash3words (a b c initval : UInt32) : UInt32 :=
  (jhashMix (a + jhashGoldenRatio) (b + jhashGoldenRatio) (c + initval)).2.2

/-- `jhash_1word`. -/
def jhash1word (a initval : UInt32) : UInt32 := jhash3words a 0 0 initval

namespace IpAddress

/-- The sixteen bytes of the union on a little-endian host. -/
def bytes (ip : IpAddress) (i : ℕ) : UInt8 :=
  let word := if i / 4 = 0 then ip.ip6_0 else if i / 4 = 1 then ip.ip6_1
    else if i / 4 = 2 then ip.ip6_2 else ip.ip6_3
  (word >>> UInt32.ofNat (8 * (i % 4))).toUInt8

end IpAddress

/-- `ip_address_hash`. The length handed to `jhash` for an IPv6 address is 4, and
`jhash` counts bytes. -/
def ipAddressHash (hashRand : UInt32) (ip : IpAddress) : UInt32 :=
  if ip.family == afInet then jhash1word ip.ip4 hashRand
  else jhash ip.bytes 4 hashRand

/-- `ip_port_proto_hash`. -/
def ipPortProtoHash (hashRand : UInt32) (ip : IpAddress) (port proto : UInt32) :
    UInt32 :=
  if ip.family == afInet then jhash3words ip.ip4 port proto hashRand
  else jhash ip.bytes 4 (jhashGoldenRatio + port + proto + hashRand)

/-- Addresses the code finds equal have the same bytes, where IPv6 ones are
hashed. -/
theorem bytes_congr {a b : IpAddress} (h : ipAddressEq a b = true)
    (h6 : a.family ≠ afInet) : a.bytes = b.bytes := by
  obtain ⟨-, h0, hr⟩ := ipAddressEq_iff.mp h
  obtain ⟨h1, h2, h3⟩ := hr h6
  funext i
  simp only [IpAddress.bytes, h0, h1, h2, h3]

/-- **Equal addresses hash equally.** -/
theorem ipAddressHash_congr {a b : IpAddress} (seed : UInt32)
    (h : ipAddressEq a b = true) : ipAddressHash seed a = ipAddressHash seed b := by
  obtain ⟨hf, h0, -⟩ := ipAddressEq_iff.mp h
  unfold ipAddressHash
  by_cases h4 : a.family = afInet
  · simp [h4, hf ▸ h4, IpAddress.ip4, h0]
  · simp [h4, show ¬ b.family = afInet from hf ▸ h4, bytes_congr h h4]

/-- **Equal addresses hash equally**, with a port and a protocol. -/
theorem ipPortProtoHash_congr {a b : IpAddress} (seed port proto : UInt32)
    (h : ipAddressEq a b = true) :
    ipPortProtoHash seed a port proto = ipPortProtoHash seed b port proto := by
  obtain ⟨hf, h0, -⟩ := ipAddressEq_iff.mp h
  unfold ipPortProtoHash
  by_cases h4 : a.family = afInet
  · simp [h4, hf ▸ h4, IpAddress.ip4, h0]
  · simp [h4, show ¬ b.family = afInet from hf ▸ h4, bytes_congr h h4]
