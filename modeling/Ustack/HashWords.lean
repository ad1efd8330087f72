import Ustack.Hashtable

/-!
# How much of an IPv6 address is hashed

The hash functions of `include/common/hashtable.h` hand `jhash` the length 4 for
an IPv6 address, and the comment beside it counts in words: *ipv6 size is 4 * 32
bit*. But `jhash` counts bytes, so what is hashed is the first word, and all the
addresses of a /32 share one value (`hashesFirstWord_of_four`). Lookups stay
right, since buckets are searched with `ipAddressEq`; what suffers is the spread
over buckets and, by the dispatcher, over processes.

`HashesInFull` says what hashing the whole address means. The hash over sixteen
bytes has the property under every seed (`hashesInFull_sixteen`), the code under
none (`ipAddressHash_never_inFull`).
-/

namespace IpAddress

/-- The word `addr.ip6[j]`. -/
def word (ip : IpAddress) (j : ℕ) : UInt32 :=
  if j = 0 then ip.ip6_0 else if j = 1 then ip.ip6_1 else if j = 2 then ip.ip6_2
  else ip.ip6_3

/-- An IPv6 address. -/
def IsIpv6 (ip : IpAddress) : Prop := ip.family = afInet6

/-- The IPv6 address of four words. -/
def v6 (w0 w1 w2 w3 : UInt32) : IpAddress := ⟨afInet6, w0, w1, w2, w3⟩

theorem bytes_eq (ip : IpAddress) (i : ℕ) :
    ip.bytes i = (ip.word (i / 4) >>> UInt32.ofNat (8 * (i % 4))).toUInt8 := rfl

end IpAddress

/-! ## The Jenkins hash over words -/

/-- A word is the sum of its bytes, each in its place. -/
theorem sum_bytes_eq (w : UInt32) :
    (w >>> 0).toUInt8.toUInt32 <<< 0 + (w >>> 8).toUInt8.toUInt32 <<< 8
      + (w >>> 16).toUInt8.toUInt32 <<< 16 + (w >>> 24).toUInt8.toUInt32 <<< 24 = w := by
  have hw := w.toNat_lt
  rw [← UInt32.toNat_inj]
  simp only [UInt32.toNat_add, UInt32.toNat_shiftLeft, UInt32.toNat_shiftRight,
    UInt8.toNat_toUInt32, UInt32.toNat_toUInt8, UInt32.toNat_ofNat, Nat.shiftLeft_eq,
    Nat.shiftRight_eq_div_pow, Nat.reducePow, Nat.reduceMod]
  omega

/-- The word `jhash` makes of four bytes of an address is a word of the address. -/
theorem jhashWord_bytes (ip : IpAddress) (j : ℕ) :
    jhashWord (fun i => ip.bytes (4 * j + i)) 0 = ip.word j := by
  have hdiv : ∀ i < 4, (4 * j + i) / 4 = j ∧ (4 * j + i) % 4 = i := fun i hi => by omega
  conv_rhs => rw [← sum_bytes_eq (ip.word j)]
  simp only [jhashWord, jhashByte, IpAddress.bytes_eq, hdiv 0 (by omega), hdiv 1 (by omega),
    hdiv 2 (by omega), hdiv 3 (by omega)]
  rfl

/-- The switch of `jhash` with four bytes left adds them to the first word. -/
theorem jhashTail_four (k : ℕ → UInt8) (a b c : UInt32) :
    jhashTail 4 k a b c = (a + jhashWord k 0, b, c) := by
  simp only [jhashTail, jhashWord, Nat.reduceLT, if_true, if_false, UInt32.add_zero,
    Nat.zero_add]
  generalize jhashByte k 0 0 = x0
  generalize jhashByte k 1 8 = x1
  generalize jhashByte k 2 16 = x2
  generalize jhashByte k 3 24 = x3
  rw [UInt32.add_comm (x0 + x1 + x2), UInt32.add_comm (x0 + x1), UInt32.add_comm x0,
    ← UInt32.add_assoc, ← UInt32.add_assoc, ← UInt32.add_assoc]

/-- **Four bytes of an address are its first word.** -/
theorem jhash_bytes_four (ip : IpAddress) (initval : UInt32) :
    jhash ip.bytes 4 initval
      = (jhashMix (jhashGoldenRatio + ip.ip6_0) jhashGoldenRatio (initval + 4)).2.2 := by
  have h0 : jhashWord ip.bytes 0 = ip.ip6_0 := jhashWord_bytes ip 0
  show (jhashMix (jhashTail 4 ip.bytes jhashGoldenRatio jhashGoldenRatio (initval + 4)).1
    (jhashTail 4 ip.bytes jhashGoldenRatio jhashGoldenRatio (initval + 4)).2.1
    (jhashTail 4 ip.bytes jhashGoldenRatio jhashGoldenRatio (initval + 4)).2.2).2.2 = _
  rw [jhashTail_four, h0]

/-- **Sixteen bytes are all four words**: three in the block of twelve bytes, the last one in
what is left. -/
theorem jhash_bytes_sixteen (ip : IpAddress) (initval : UInt32) :
    jhash ip.bytes 16 initval
      = (jhashMix
        ((jhashMix (jhashGoldenRatio + ip.ip6_0) (jhashGoldenRatio + ip.ip6_1)
          (initval + ip.ip6_2)).1 + ip.ip6_3)
        (jhashMix (jhashGoldenRatio + ip.ip6_0) (jhashGoldenRatio + ip.ip6_1)
          (initval + ip.ip6_2)).2.1
        ((jhashMix (jhashGoldenRatio + ip.ip6_0) (jhashGoldenRatio + ip.ip6_1)
          (initval + ip.ip6_2)).2.2 + 16)).2.2 := by
  have h0 : jhashWord ip.bytes 0 = ip.ip6_0 := jhashWord_bytes ip 0
  have h1 : jhashWord ip.bytes 4 = ip.ip6_1 := jhashWord_bytes ip 1
  have h2 : jhashWord ip.bytes 8 = ip.ip6_2 := jhashWord_bytes ip 2
  have h3 : jhashWord (fun i => ip.bytes (i + 12)) 0 = ip.ip6_3 := jhashWord_bytes ip 3
  set m := jhashMix (jhashGoldenRatio + ip.ip6_0) (jhashGoldenRatio + ip.ip6_1)
    (initval + ip.ip6_2) with hm
  have hsplit : jhash ip.bytes 16 initval
      = (jhashMix (jhashTail 4 (fun i => ip.bytes (i + 12)) m.1 m.2.1 (m.2.2 + 16)).1
        (jhashTail 4 (fun i => ip.bytes (i + 12)) m.1 m.2.1 (m.2.2 + 16)).2.1
        (jhashTail 4 (fun i => ip.bytes (i + 12)) m.1 m.2.1 (m.2.2 + 16)).2.2).2.2 := by
    rw [hm, ← h0, ← h1, ← h2]
    rfl
  rw [hsplit, jhashTail_four, h3]

/-! ## Hashing in full -/

/-- The hash depends on a word of IPv6 addresses: two that differ in it alone hash
differently. -/
def DependsOnWord (hash : IpAddress → UInt32) (j : ℕ) : Prop :=
  ∃ a b : IpAddress, a.IsIpv6 ∧ b.IsIpv6 ∧ (∀ i < 4, i ≠ j → a.word i = b.word i)
    ∧ hash a ≠ hash b

/-- **IPv6 addresses are hashed in full**, from an initial value. -/
structure HashesInFull (hash : IpAddress → UInt32) (initval : UInt32) : Prop where
  /-- The hash is the Jenkins hash of all sixteen bytes. -/
  sixteen : ∀ ip : IpAddress, ip.IsIpv6 → hash ip = jhash ip.bytes 16 initval
  /-- It depends on each word. -/
  words : ∀ j < 4, DependsOnWord hash j
  /-- It is not a function of the first word. -/
  beyond_first : ∃ a b : IpAddress, a.IsIpv6 ∧ b.IsIpv6 ∧ a.word 0 = b.word 0 ∧ hash a ≠ hash b
  /-- Equal addresses hash equally. -/
  congr : ∀ a b, ipAddressEq a b = true → hash a = hash b

theorem isIpv6_v6 (w0 w1 w2 w3 : UInt32) : (IpAddress.v6 w0 w1 w2 w3).IsIpv6 := rfl

theorem IpAddress.IsIpv6.not_ipv4 {ip : IpAddress} (h : ip.IsIpv6) : ¬ ip.family = afInet := by
  rw [h]
  decide

/-- The initial value is added to the third word, so it only shifts it. -/
theorem jhash_sixteen_shift (w0 w1 w2 w3 initval : UInt32) :
    jhash (IpAddress.v6 w0 w1 (w2 - initval) w3).bytes 16 initval
      = jhash (IpAddress.v6 w0 w1 w2 w3).bytes 16 0 := by
  have hshift : initval + (w2 - initval) = 0 + w2 := by
    rw [UInt32.add_comm, UInt32.sub_add_cancel, UInt32.zero_add]
  rw [jhash_bytes_sixteen, jhash_bytes_sixteen]
  unfold IpAddress.v6
  dsimp only
  rw [hshift]

/-- The hash of an address with the length the comment of the source means. -/
def sixteenHash (initval : UInt32) (ip : IpAddress) : UInt32 :=
  if ip.family == afInet then jhash1word ip.ip4 initval else jhash ip.bytes 16 initval

theorem sixteenHash_ipv6 {ip : IpAddress} (h : ip.IsIpv6) (initval : UInt32) :
    sixteenHash initval ip = jhash ip.bytes 16 initval :=
  if_neg (by rw [beq_iff_eq]; exact h.not_ipv4)

/-- Addresses it tells apart from one initial value have counterparts it tells apart from
another. -/
theorem sixteenHash_ne (initval : UInt32) {w0 w1 w2 w3 : UInt32}
    (h : jhash (IpAddress.v6 w0 w1 w2 w3).bytes 16 0 ≠ jhash (IpAddress.v6 0 0 0 0).bytes 16 0) :
    sixteenHash initval (IpAddress.v6 w0 w1 (w2 - initval) w3)
      ≠ sixteenHash initval (IpAddress.v6 0 0 (0 - initval) 0) := by
  rwa [sixteenHash_ipv6 (isIpv6_v6 ..), sixteenHash_ipv6 (isIpv6_v6 ..), jhash_sixteen_shift,
    jhash_sixteen_shift]

/-- **Sixteen bytes are hashed in full**, from any initial value. -/
theorem hashesInFull_sixteen (initval : UInt32) :
    HashesInFull (sixteenHash initval) initval where
  sixteen ip hip := sixteenHash_ipv6 hip initval
  words j hj := by
    have hcases : j = 0 ∨ j = 1 ∨ j = 2 ∨ j = 3 := by omega
    obtain rfl | rfl | rfl | rfl := hcases
    · refine ⟨IpAddress.v6 1 0 (0 - initval) 0, IpAddress.v6 0 0 (0 - initval) 0, isIpv6_v6 ..,
        isIpv6_v6 .., fun i _ hij => ?_, sixteenHash_ne initval (by decide +kernel)⟩
      simp [IpAddress.word, IpAddress.v6, hij]
    · refine ⟨IpAddress.v6 0 1 (0 - initval) 0, IpAddress.v6 0 0 (0 - initval) 0, isIpv6_v6 ..,
        isIpv6_v6 .., fun i _ hij => ?_, sixteenHash_ne initval (by decide +kernel)⟩
      simp [IpAddress.word, IpAddress.v6, hij]
    · refine ⟨IpAddress.v6 0 0 (1 - initval) 0, IpAddress.v6 0 0 (0 - initval) 0, isIpv6_v6 ..,
        isIpv6_v6 .., fun i _ hij => ?_, sixteenHash_ne initval (by decide +kernel)⟩
      simp [IpAddress.word, IpAddress.v6, hij]
    · refine ⟨IpAddress.v6 0 0 (0 - initval) 1, IpAddress.v6 0 0 (0 - initval) 0, isIpv6_v6 ..,
        isIpv6_v6 .., fun i hi hij => ?_, sixteenHash_ne initval (by decide +kernel)⟩
      have hi3 : i = 0 ∨ i = 1 ∨ i = 2 := by omega
      obtain rfl | rfl | rfl := hi3 <;> rfl
  beyond_first :=
    ⟨IpAddress.v6 0 0 (0 - initval) 1, IpAddress.v6 0 0 (0 - initval) 0, isIpv6_v6 ..,
      isIpv6_v6 .., rfl, sixteenHash_ne initval (by decide +kernel)⟩
  congr a b hab := by
    obtain ⟨hf, h0, -⟩ := ipAddressEq_iff.mp hab
    unfold sixteenHash
    by_cases h4 : a.family = afInet
    · simp [h4, hf ▸ h4, IpAddress.ip4, h0]
    · simp [h4, show ¬ b.family = afInet from hf ▸ h4, bytes_congr hab h4]

/-! ## What the code hashes -/

/-- **IPv6 addresses are hashed by their first word**: of hashing in full only the last part
is left. -/
structure HashesFirstWord (hash : IpAddress → UInt32) (initval : UInt32) : Prop where
  /-- Addresses with one first word hash equally. -/
  first_word : ∀ a b : IpAddress, a.IsIpv6 → b.IsIpv6 → a.word 0 = b.word 0 → hash a = hash b
  /-- Some address has another hash than its sixteen bytes. -/
  not_sixteen : ∃ ip : IpAddress, ip.IsIpv6 ∧ hash ip ≠ jhash ip.bytes 16 initval
  /-- The hash depends on no other word. -/
  not_words : ∀ j < 4, 0 < j → ¬ DependsOnWord hash j
  /-- Equal addresses hash equally. -/
  congr : ∀ a b, ipAddressEq a b = true → hash a = hash b

theorem HashesFirstWord.not_inFull {hash : IpAddress → UInt32} {initval : UInt32}
    (h : HashesFirstWord hash initval) : ¬ HashesInFull hash initval := by
  intro hfull
  obtain ⟨ip, hip, hne⟩ := h.not_sixteen
  exact hne (hfull.sixteen ip hip)

/-- What hashes four bytes of an IPv6 address hashes its first word. -/
theorem hashesFirstWord_of_four {hash : IpAddress → UInt32} {initval : UInt32}
    (hfour : ∀ ip : IpAddress, ip.IsIpv6 → hash ip = jhash ip.bytes 4 initval)
    (hcongr : ∀ a b, ipAddressEq a b = true → hash a = hash b) :
    HashesFirstWord hash initval := by
  have hfirst : ∀ a b : IpAddress, a.IsIpv6 → b.IsIpv6 → a.word 0 = b.word 0 →
      hash a = hash b := by
    intro a b ha hb h0
    have hword : a.ip6_0 = b.ip6_0 := h0
    rw [hfour a ha, hfour b hb, jhash_bytes_four, jhash_bytes_four, hword]
  refine ⟨hfirst, ?_, fun j _ hpos => ?_, hcongr⟩
  · -- two addresses that sixteen bytes tell apart and four do not: one of them is hashed wrong
    obtain ⟨a, b, ha, hb, h0, hne⟩ := (hashesInFull_sixteen initval).beyond_first
    rw [sixteenHash_ipv6 ha, sixteenHash_ipv6 hb] at hne
    by_cases hea : hash a = jhash a.bytes 16 initval
    · exact ⟨b, hb, fun heb => hne (by rw [← hea, ← heb, hfirst a b ha hb h0])⟩
    · exact ⟨a, ha, hea⟩
  · rintro ⟨a, b, ha, hb, hsame, hne⟩
    exact hne (hfirst a b ha hb (hsame 0 (by omega) hpos.ne))

theorem ipAddressHash_ipv6 {ip : IpAddress} (h : ip.IsIpv6) (seed : UInt32) :
    ipAddressHash seed ip = jhash ip.bytes 4 seed :=
  if_neg (by rw [beq_iff_eq]; exact h.not_ipv4)

theorem ipPortProtoHash_ipv6 {ip : IpAddress} (h : ip.IsIpv6) (seed port proto : UInt32) :
    ipPortProtoHash seed ip port proto
      = jhash ip.bytes 4 (jhashGoldenRatio + port + proto + seed) :=
  if_neg (by rw [beq_iff_eq]; exact h.not_ipv4)

/-- **IPv6 addresses are never hashed in full**: under every seed, and with every port and
protocol, the hash is that of the first word. -/
theorem ipAddressHash_never_inFull (seed port proto : UInt32) :
    (HashesFirstWord (ipAddressHash seed) seed ∧ ¬ HashesInFull (ipAddressHash seed) seed)
      ∧ HashesFirstWord (fun ip => ipPortProtoHash seed ip port proto)
          (jhashGoldenRatio + port + proto + seed)
        ∧ ¬ HashesInFull (fun ip => ipPortProtoHash seed ip port proto)
          (jhashGoldenRatio + port + proto + seed) := by
  have haddress : HashesFirstWord (ipAddressHash seed) seed :=
    hashesFirstWord_of_four (fun _ h => ipAddressHash_ipv6 h seed)
      (fun _ _ h => ipAddressHash_congr seed h)
  have htriple : HashesFirstWord (fun ip => ipPortProtoHash seed ip port proto)
      (jhashGoldenRatio + port + proto + seed) :=
    hashesFirstWord_of_four (fun _ h => ipPortProtoHash_ipv6 h seed port proto)
      (fun _ _ h => ipPortProtoHash_congr seed port proto h)
  exact ⟨⟨haddress, haddress.not_inFull⟩, htriple, htriple.not_inFull⟩

/-- The address `2001:db8::x`. -/
def docNet (x : UInt32) : IpAddress := IpAddress.v6 0xb80d0120 0 0 (x * 0x1000000)

/-- **Two hosts of a network**: sixteen bytes tell them apart, the code does not, and hashes
neither in full. -/
theorem hosts_hash_alike :
    ipAddressEq (docNet 1) (docNet 2) = false
      ∧ ipAddressHash 0 (docNet 1) = ipAddressHash 0 (docNet 2)
      ∧ jhash (docNet 1).bytes 16 0 ≠ jhash (docNet 2).bytes 16 0
      ∧ ipAddressHash 0 (docNet 1) ≠ jhash (docNet 1).bytes 16 0
      ∧ ipPortProtoHash 0 (docNet 1) 80 6 = ipPortProtoHash 0 (docNet 2) 80 6
      ∧ ipPortProtoHash 0 (docNet 1) 80 6
        ≠ jhash (docNet 1).bytes 16 (jhashGoldenRatio + 80 + 6 + 0) := by
  decide +kernel
