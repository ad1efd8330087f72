import Ustack.OnesComplement
import Ustack.Parser
import Ustack.Translation

/-!
# Whether checksums verify

The checksums of `src/checksum.c` against the sum by which a receiver verifies them:
`Verifies`, over the bytes of the header, or of the pseudo header and the segment.

A checksum is written where zero was summed, and it is the complement of the sum, so the
sum with it is a multiple of `65535`. For this it only matters that what was summed is
what is verified. Of an IPv4 packet it is. Of an IPv6 packet the code reads the protocol
nine bytes into the network header, where IPv4 has it: there stands the second byte of
the source address.
-/

/-- The `n` bytes of a block from an offset. -/
def block (m : Memory) (off : ℕ) : ℕ → List UInt8
  | 0 => []
  | n + 1 => m off :: block m (off + 1) n

/-! ## Sums of words -/

section Words

variable {m m' : Memory} {off n : ℕ}

theorem toNat_load16 (m : Memory) (off : ℕ) :
    (load16 m off).toNat = (m off).toNat + (m (off + 1)).toNat * 256 := by
  have h0 := (m off).toNat_lt
  have h1 := (m (off + 1)).toNat_lt
  simp only [load16, UInt16.toNat_add, UInt16.toNat_mul, UInt8.toNat_toUInt16,
    UInt16.toNat_ofNat, Nat.reducePow, Nat.reduceMod]
  omega

/-- The halves of a word are its two little-endian words. -/
theorem sumHalves_load32 (m : Memory) (off : ℕ) :
    sumHalves (load32 m off) = littleSum (block m off 4) := by
  have h0 := (m off).toNat_lt
  have h1 := (m (off + 1)).toNat_lt
  have h2 := (m (off + 2)).toNat_lt
  have h3 := (m (off + 3)).toNat_lt
  have hload : (load32 m off).toNat = (m off).toNat + (m (off + 1)).toNat * 256
      + (m (off + 2)).toNat * 65536 + (m (off + 3)).toNat * 16777216 := by
    simp only [load32, UInt32.toNat_add, UInt32.toNat_mul, UInt8.toNat_toUInt32,
      UInt32.toNat_ofNat, Nat.reducePow, Nat.reduceMod]
    omega
  simp only [sumHalves, hload, block, littleSum, Nat.add_assoc, Nat.reduceAdd]
  omega

theorem length_block (m : Memory) (off n : ℕ) : (block m off n).length = n := by
  induction n generalizing off with
  | zero => rfl
  | succ n ih => rw [block, List.length_cons, ih]

theorem block_add (m : Memory) (off a b : ℕ) :
    block m off (a + b) = block m off a ++ block m (off + a) b := by
  induction a generalizing off with
  | zero => simp [block]
  | succ a ih =>
    rw [Nat.succ_add, block, block, ih, List.cons_append, Nat.add_assoc off 1 a, Nat.add_comm 1 a]

/-- The sum of the code is the little-endian sum. -/
theorem sumWords_eq (m : Memory) (off n : ℕ) : sumWords m off n = littleSum (block m off n) := by
  fun_induction sumWords m off n with
  | case1 => rfl
  | case2 => rfl
  | case3 off n ih => rw [ih, toNat_load16, block, block, littleSum]

theorem block_congr (h : Agree m m' off n) : block m off n = block m' off n := by
  induction n generalizing off with
  | zero => rfl
  | succ n ih =>
    rw [block, block, h.sub (p := off + 1) (k := n) (by omega) (by omega) |> ih]
    exact congrArg (· :: _) (h 0 (Nat.zero_lt_succ n))

theorem littleSum_block_two (m : Memory) (off : ℕ) :
    littleSum (block m off 2) = (load16 m off).toNat := by
  rw [toNat_load16]
  rfl

/-- A sum, split at the word at an even offset. -/
theorem sumWords_split (m : Memory) (off : ℕ) {k : ℕ} (h : 2 * k + 2 ≤ n) :
    sumWords m off n = littleSum (block m off (2 * k)) + (load16 m (off + 2 * k)).toNat
      + littleSum (block m (off + 2 * k + 2) (n - (2 * k + 2))) := by
  have heven : ∀ o a, Even a → Even (block m o a).length := fun o a ha =>
    (length_block m o a).symm ▸ ha
  have hn : n = 2 * k + (2 + (n - (2 * k + 2))) := by omega
  rw [sumWords_eq]
  conv_lhs => rw [hn]
  rw [block_add, block_add, littleSum_append (heven _ _ (even_two_mul k)),
    littleSum_append (heven _ _ even_two), littleSum_block_two]
  simp only [Nat.add_assoc]

/-- A word stored where zero was counts in the sum. -/
theorem sumWords_store16 (off : ℕ) {k : ℕ} (h : 2 * k + 2 ≤ n)
    (hzero : load16 m (off + 2 * k) = 0) (v : UInt16) :
    sumWords (store16 m (off + 2 * k) v) off n = sumWords m off n + v.toNat := by
  have hbefore : block (store16 m (off + 2 * k) v) off (2 * k) = block m off (2 * k) :=
    block_congr (agree_storeBytes _ _ (Or.inl le_rfl))
  have hafter : block (store16 m (off + 2 * k) v) (off + 2 * k + 2) (n - (2 * k + 2))
      = block m (off + 2 * k + 2) (n - (2 * k + 2)) :=
    block_congr (agree_storeBytes _ _ (Or.inr le_rfl))
  rw [sumWords_split _ off h, sumWords_split m off h, hbefore, hafter, load16_store16, hzero]
  simp only [UInt16.toNat_zero]
  omega

end Words

/-! ## The complement of a sum -/

/-- The folded sum is the sum modulo `65535`, and zero for zero only. -/
theorem foldCarries_spec (n : ℕ) :
    foldCarries n ≤ 65535 ∧ foldCarries n ≡ n [MOD 65535] ∧ (foldCarries n = 0 ↔ n = 0) := by
  fun_induction foldCarries n with
  | case1 n h => exact ⟨by omega, rfl, Iff.rfl⟩
  | case2 n h ih =>
    obtain ⟨hle, hmod, hzero⟩ := ih
    have hfold : n / 65536 + n % 65536 ≡ n [MOD 65535] := by
      unfold Nat.ModEq
      omega
    exact ⟨hle, hmod.trans hfold, hzero.trans (by omega)⟩

theorem toNat_checksum (m : Memory) (buffer size init : ℕ) :
    (checksum m buffer size init).toNat
      = 65535 - foldCarries (init + sumWords m buffer size) := by
  have hle := (foldCarries_spec (init + sumWords m buffer size)).1
  rw [checksum, UInt16.toNat_not, UInt16.toNat_ofNat_of_lt' (Nat.lt_succ_of_le hle)]
  rfl

/-- A sum and the complement of what it folds to. -/
theorem add_complement (n : ℕ) :
    n + (65535 - foldCarries n) ≠ 0 ∧ 65535 ∣ n + (65535 - foldCarries n) := by
  obtain ⟨hle, hmod, hzero⟩ := foldCarries_spec n
  refine ⟨fun h => ?_, ?_⟩
  · have hn : n = 0 := by omega
    have hfold := hzero.mpr hn
    omega
  · rw [Nat.dvd_iff_mod_eq_zero]
    unfold Nat.ModEq at hmod
    omega

/-- What folds to `65535`. -/
theorem foldCarries_eq_iff (n : ℕ) : foldCarries n = 65535 ↔ n ≠ 0 ∧ 65535 ∣ n := by
  obtain ⟨hle, hmod, hzero⟩ := foldCarries_spec n
  rw [← hmod.dvd_iff dvd_rfl, Ne, ← hzero]
  constructor
  · intro h
    rw [h]
    exact ⟨by decide, dvd_rfl⟩
  · rintro ⟨hne, hd⟩
    exact le_antisymm hle (Nat.le_of_dvd (Nat.pos_of_ne_zero hne) hd)

/-- **A checksum stored where zero was summed completes the sum.** -/
theorem sumWords_checksum (m : Memory) (off : ℕ) {n k : ℕ} (h : 2 * k + 2 ≤ n) (init : ℕ) :
    init + sumWords (store16 (store16 m (off + 2 * k) 0) (off + 2 * k)
        (checksum (store16 m (off + 2 * k) 0) off n init)) off n
      = (init + sumWords (store16 m (off + 2 * k) 0) off n)
        + (65535 - foldCarries (init + sumWords (store16 m (off + 2 * k) 0) off n)) := by
  rw [sumWords_store16 off h (load16_store16 _ _ _), toNat_checksum, Nat.add_assoc]

/-! ## What is verified -/

/-- A length as two bytes. -/
def bytesLength (len : ℕ) : List UInt8 := [UInt8.ofNat (len / 256), UInt8.ofNat (len % 256)]

/-- The pseudo header of IPv4: source, destination, zero, protocol and length. -/
def pseudoHeader4 (m : Memory) (len : ℕ) : List UInt8 :=
  block m 26 4 ++ block m 30 4 ++ [0, m 23] ++ bytesLength len

/-- The pseudo header of IPv6: source, destination, length and next header. -/
def pseudoHeader6 (m : Memory) (len : ℕ) : List UInt8 :=
  block m 22 16 ++ block m 38 16 ++ [0, 0] ++ bytesLength len ++ [0, 0, 0, m 20]

theorem littleSum_bytesLength {len : ℕ} (h : len < 65536) :
    littleSum (bytesLength len) = len / 256 + len % 256 * 256 := by
  have hhi : (UInt8.ofNat (len / 256)).toNat = len / 256 :=
    UInt8.toNat_ofNat_of_lt' (by show len / 256 < 256; omega)
  have hlo : (UInt8.ofNat (len % 256)).toNat = len % 256 :=
    UInt8.toNat_ofNat_of_lt' (Nat.mod_lt _ (by decide))
  rw [bytesLength, littleSum, littleSum, hhi, hlo, Nat.add_zero]

theorem even_pseudoHeader4 (m : Memory) (len : ℕ) : Even (pseudoHeader4 m len).length := by
  simp only [pseudoHeader4, bytesLength, List.length_append, length_block, List.length_cons,
    List.length_nil]
  decide

theorem littleSum_pseudoHeader4 (m : Memory) {len : ℕ} (h : len < 65536) :
    littleSum (pseudoHeader4 m len)
      = littleSum (block m 26 4) + littleSum (block m 30 4) + (m 23).toNat * 256
        + (len / 256 + len % 256 * 256) := by
  rw [pseudoHeader4, littleSum_append, littleSum_append, littleSum_append,
    littleSum_bytesLength h]
  · simp [littleSum]
  all_goals simp only [List.length_append, length_block, List.length_cons, List.length_nil]
  all_goals decide

theorem pseudoHeader4_congr {m m' : Memory} (h : Agree m m' 0 34) (len : ℕ) :
    pseudoHeader4 m len = pseudoHeader4 m' len := by
  rw [pseudoHeader4, block_congr (h.sub (p := 26) (k := 4) (by decide) (by decide)),
    block_congr (h.sub (p := 30) (k := 4) (by decide) (by decide)),
    show m 23 = m' 23 from h.sub (p := 23) (k := 1) (by decide) (by decide) 0 (by decide)]
  rfl

theorem even_pseudoHeader6 (m : Memory) (len : ℕ) : Even (pseudoHeader6 m len).length := by
  simp only [pseudoHeader6, bytesLength, List.length_append, length_block, List.length_cons,
    List.length_nil]
  decide

theorem littleSum_pseudoHeader6 (m : Memory) {len : ℕ} (h : len < 65536) :
    littleSum (pseudoHeader6 m len)
      = littleSum (block m 22 16) + littleSum (block m 38 16)
        + (len / 256 + len % 256 * 256) + (m 20).toNat * 256 := by
  rw [pseudoHeader6, littleSum_append, littleSum_append, littleSum_append, littleSum_append,
    littleSum_bytesLength h]
  · simp [littleSum]
  all_goals simp only [bytesLength, List.length_append, length_block, List.length_cons,
    List.length_nil]
  all_goals decide

theorem pseudoHeader6_congr {m m' : Memory} (h : Agree m m' 0 54) (len : ℕ) :
    pseudoHeader6 m len = pseudoHeader6 m' len := by
  rw [pseudoHeader6, block_congr (h.sub (p := 22) (k := 16) (by decide) (by decide)),
    block_congr (h.sub (p := 38) (k := 16) (by decide) (by decide)),
    show m 20 = m' 20 from h.sub (p := 20) (k := 1) (by decide) (by decide) 0 (by decide)]
  rfl

theorem toNat_htons_load16 (m : Memory) (off : ℕ) :
    (htons (load16 m off)).toNat = (m off).toNat * 256 + (m (off + 1)).toNat := by
  have h0 := (m off).toNat_lt
  rw [toNat_htons, toNat_load16]
  omega

theorem totalLength_lt (m : Memory) : totalLength m < 65536 := by
  have h0 := (m 16).toNat_lt
  have h1 := (m 17).toNat_lt
  unfold totalLength
  omega

theorem payloadLength_lt (m : Memory) : payloadLength m < 65536 := by
  have h0 := (m 18).toNat_lt
  have h1 := (m 19).toNat_lt
  unfold payloadLength
  omega

/-- A checksum in the transport header leaves the headers before it alone. -/
theorem agree_checksumTransport (check : ℕ) (pkt : Packet) :
    Agree (checksumTransport check pkt).data pkt.data 0 pkt.transport_header := by
  obtain ⟨b, hb⟩ := checksumTransport_eq check pkt
  rw [hb]
  exact agree_storeBytes _ _ (Or.inl (by omega))

section Verify

variable {pkt : Packet} {k : ℕ}

/-- **The header checksum verifies.** -/
theorem verifies_checksumIpv4 (pkt : Packet) :
    Verifies (block (checksumIpv4 pkt).data 14 20) := by
  have hsum : sumWords (checksumIpv4 pkt).data 14 20 = _ :=
    (Nat.zero_add _).symm.trans (sumWords_checksum pkt.data 14 (n := 20) (k := 5) (by decide) 0)
  rw [verifies_iff, ← sumWords_eq, hsum]
  exact add_complement _

/-- The word of the protocol. -/
theorem toNat_protocol (proto : UInt8) : (proto.toUInt16 * 256).toNat = proto.toNat * 256 := by
  have hp := proto.toNat_lt
  simp only [UInt16.toNat_mul, UInt8.toNat_toUInt16, UInt16.toNat_ofNat, Nat.reducePow,
    Nat.reduceMod]
  omega

/-- What the transport checksum of an IPv4 packet is summed over. -/
theorem data_checksumTransport_ipv4 (h4 : packetIsIpv4 pkt = true)
    (hnet : pkt.network_header = 14) (hth : pkt.transport_header = 34)
    (hlen : 20 ≤ totalLength pkt.data) (check : ℕ) :
    (checksumTransport check pkt).data
      = store16 (store16 pkt.data (34 + check) 0) (34 + check)
        (checksum (store16 pkt.data (34 + check) 0) 34 (totalLength pkt.data - 20)
          (littleSum (pseudoHeader4 pkt.data (totalLength pkt.data - 20)))) := by
  have hagree : ∀ o n, o + n ≤ 34 → Agree (store16 pkt.data (34 + check) 0) pkt.data o n :=
    fun o n ho => agree_storeBytes _ _ (Or.inl (by omega))
  have hsize : (htons (load16 pkt.data 16) - 20).toNat = totalLength pkt.data - 20 := by
    have htotal : (htons (load16 pkt.data 16)).toNat = totalLength pkt.data :=
      toNat_htons_load16 _ _
    rw [UInt16.toNat_sub_of_le _ _ (by rw [UInt16.le_iff_toNat_le, htotal]; exact hlen), htotal]
    rfl
  have hlength : (htons (htons (load16 pkt.data 16) - 20)).toNat
      = (totalLength pkt.data - 20) / 256 + (totalLength pkt.data - 20) % 256 * 256 := by
    rw [toNat_htons, hsize, Nat.add_comm]
  rw [littleSum_pseudoHeader4 _ ((Nat.sub_le _ _).trans_lt (totalLength_lt pkt.data))]
  unfold checksumTransport
  dsimp only
  rw [if_pos h4, hnet, hth]
  simp only [Nat.reduceAdd, checksumTcpudp, (hagree 16 2 (by decide)).load16, hsize, hlength,
    show store16 pkt.data (34 + check) 0 23 = pkt.data 23 from hagree 23 1 (by decide) 0 (by decide),
    toNat_protocol, List.range_one, List.map_cons, List.map_nil, List.sum_cons, List.sum_nil,
    Nat.mul_zero, Nat.add_zero, sumHalves_load32, block_congr (hagree 26 4 (by decide)),
    block_congr (hagree 30 4 (by decide))]
  rfl

/-- **The transport checksum of an IPv4 packet verifies.** -/
theorem verifies_checksumTransport_ipv4 (h4 : packetIsIpv4 pkt = true)
    (hnet : pkt.network_header = 14) (hth : pkt.transport_header = 34)
    (hlen : 20 + (2 * k + 2) ≤ totalLength pkt.data) :
    Verifies (pseudoHeader4 (checksumTransport (2 * k) pkt).data (totalLength pkt.data - 20)
      ++ block (checksumTransport (2 * k) pkt).data 34 (totalLength pkt.data - 20)) := by
  have hagree := agree_checksumTransport (2 * k) pkt
  rw [hth] at hagree
  rw [verifies_iff, littleSum_append (even_pseudoHeader4 _ _), ← sumWords_eq,
    pseudoHeader4_congr hagree, data_checksumTransport_ipv4 h4 hnet hth (by omega),
    sumWords_checksum _ _ (by omega)]
  exact add_complement _

/-- What the transport checksum of an IPv6 packet is summed over: the protocol is taken
to be the second byte of the source address. -/
theorem data_checksumTransport_ipv6 (h6 : packetIsIpv4 pkt = false)
    (hnet : pkt.network_header = 14) (hth : pkt.transport_header = 54) (check : ℕ) :
    ∃ init, init + (pkt.data 20).toNat * 256
        = littleSum (pseudoHeader6 pkt.data (payloadLength pkt.data))
          + (pkt.data 23).toNat * 256
      ∧ (checksumTransport check pkt).data
        = store16 (store16 pkt.data (54 + check) 0) (54 + check)
          (checksum (store16 pkt.data (54 + check) 0) 54 (payloadLength pkt.data) init) := by
  have hagree : ∀ o n, o + n ≤ 54 → Agree (store16 pkt.data (54 + check) 0) pkt.data o n :=
    fun o n ho => agree_storeBytes _ _ (Or.inl (by omega))
  have hsize : (htons (load16 pkt.data 18)).toNat = payloadLength pkt.data :=
    toNat_htons_load16 _ _
  have h18 := (pkt.data 18).toNat_lt
  have h19 := (pkt.data 19).toNat_lt
  have hlength : (load16 pkt.data 18).toNat = payloadLength pkt.data / 256
      + payloadLength pkt.data % 256 * 256 := by
    rw [toNat_load16, payloadLength]
    show (pkt.data 18).toNat + (pkt.data 19).toNat * 256 = _
    omega
  have hsplit : ∀ o, littleSum (block pkt.data o 16) = littleSum (block pkt.data o 4)
      + littleSum (block pkt.data (o + 4) 4) + littleSum (block pkt.data (o + 8) 4)
      + littleSum (block pkt.data (o + 12) 4) := by
    intro o
    rw [show 16 = 4 + (4 + (4 + 4)) from rfl, block_add, block_add, block_add,
      littleSum_append, littleSum_append, littleSum_append]
    · simp only [Nat.add_assoc]
    all_goals
      rw [length_block]
      decide
  refine ⟨littleSum (block pkt.data 22 16) + littleSum (block pkt.data 38 16)
    + (pkt.data 23).toNat * 256 + (load16 pkt.data 18).toNat, ?_, ?_⟩
  · rw [littleSum_pseudoHeader6 _ (payloadLength_lt _), hlength]
    omega
  · rw [hsplit 22, hsplit 38]
    unfold checksumTransport
    dsimp only
    rw [if_neg (ne_true_of_eq_false h6), hnet, hth]
    simp only [Nat.reduceAdd, checksumTcpudp, (hagree 18 2 (by decide)).load16, hsize,
      show store16 pkt.data (54 + check) 0 23 = pkt.data 23 from
        hagree 23 1 (by decide) 0 (by decide),
      toNat_protocol, List.range_succ, List.range_zero, List.nil_append, List.cons_append,
      List.map_cons, List.map_nil, List.sum_cons, List.sum_nil, Nat.mul_zero, Nat.add_zero,
      Nat.reduceMul, sumHalves_load32]
    have hblock : ∀ o, o + 4 ≤ 54 →
        block (store16 pkt.data (54 + check) 0) o 4 = block pkt.data o 4 :=
      fun o ho => block_congr (hagree o 4 ho)
    rw [hblock 22 (by decide), hblock 26 (by decide), hblock 30 (by decide),
      hblock 34 (by decide), hblock 38 (by decide), hblock 42 (by decide),
      hblock 46 (by decide), hblock 50 (by decide)]
    refine congrArg (fun init => store16 (store16 pkt.data (54 + check) 0) (54 + check)
      (checksum (store16 pkt.data (54 + check) 0) 54 (payloadLength pkt.data) init)) ?_
    omega

/-- **When the transport checksum of an IPv6 packet verifies**: the next header is the
second byte of the source address. -/
theorem verifies_checksumTransport_ipv6_iff (h6 : packetIsIpv4 pkt = false)
    (hnet : pkt.network_header = 14) (hth : pkt.transport_header = 54)
    (hlen : 2 * k + 2 ≤ payloadLength pkt.data) :
    Verifies (pseudoHeader6 (checksumTransport (2 * k) pkt).data (payloadLength pkt.data)
        ++ block (checksumTransport (2 * k) pkt).data 54 (payloadLength pkt.data))
      ↔ pkt.data 23 = pkt.data 20 := by
  obtain ⟨init, hinit, hdata⟩ := data_checksumTransport_ipv6 h6 hnet hth (2 * k)
  have hagree := agree_checksumTransport (2 * k) pkt
  rw [hth] at hagree
  have hsum := sumWords_checksum pkt.data 54 hlen init
  obtain ⟨hne, hdvd⟩ := add_complement
    (init + sumWords (store16 pkt.data (54 + 2 * k) 0) 54 (payloadLength pkt.data))
  rw [← hsum, ← hdata] at hne hdvd
  rw [verifies_iff, littleSum_append (even_pseudoHeader6 _ _), ← sumWords_eq,
    pseudoHeader6_congr hagree, ← UInt8.toNat_inj]
  generalize littleSum (pseudoHeader6 pkt.data (payloadLength pkt.data)) = pseudo at *
  generalize sumWords (checksumTransport (2 * k) pkt).data 54 (payloadLength pkt.data) = seg at *
  have h20 := (pkt.data 20).toNat_lt
  have h23 := (pkt.data 23).toNat_lt
  constructor
  · -- the sums differ by less than `65535`, so both are multiples only if they are equal
    rintro ⟨-, hd⟩
    omega
  · intro heq
    have hpseudo : pseudo = init := by omega
    rw [hpseudo]
    exact ⟨hne, hdvd⟩

end Verify

/-! ## Forwarded packets -/

theorem totalLength_congr {m m' : Memory} (h16 : m 16 = m' 16) (h17 : m 17 = m' 17) :
    totalLength m = totalLength m' := by
  rw [totalLength, totalLength, h16, h17]

/-- Rewriting leaves the lengths of a packet alone. -/
theorem totalLength_processRewrite (t : Tables) (c : Connection) {pkt : Packet}
    (hf : pkt.IpFields) (is_client : Bool) (h4 : packetIsIpv4 pkt = true) :
    totalLength (processRewrite t c pkt is_client).data = totalLength pkt.data := by
  have hth : pkt.transport_header = 34 := by
    obtain ⟨-, h⟩ | ⟨h6, -⟩ := hf.headers
    · exact h
    · exact absurd (h4.symm.trans h6) (by decide)
  have hkeep : ∀ i, 12 ≤ i → i < 24 →
      (processRewrite t c pkt is_client).data i = pkt.data i := by
    intro i hlo hhi
    refine processRewrite_frame t c hf is_client (fun hre => ?_)
    unfold Packet.Rewritten at hre
    rw [if_pos h4, hth] at hre
    split at hre <;> omega
  exact totalLength_congr (hkeep 16 (by decide) (by decide)) (hkeep 17 (by decide) (by decide))

/-- **The checksums of a forwarded IPv4 packet verify.** The header checksum verifies over
the header, and that of TCP or UDP over the pseudo header and the segment, of any length
and whatever the checksums and addresses were. -/
theorem processConnection_checksums (t : Tables) (cp : ℕ) {pkt : Packet}
    (ha : PacketAccepted pkt) (hip : packetIsIp pkt = true) (h4 : packetIsIpv4 pkt = true)
    (hlen : pkt.protocol_ip = protoTcp ∧ 20 + 20 ≤ totalLength pkt.data
      ∨ pkt.protocol_ip = protoUdp ∧ 20 + 8 ≤ totalLength pkt.data) (is_client : Bool) :
    Verifies (block (processConnection t cp pkt is_client).2.1.data 14 20)
      ∧ Verifies (pseudoHeader4 (processConnection t cp pkt is_client).2.1.data
          (totalLength (processConnection t cp pkt is_client).2.1.data - 20)
        ++ block (processConnection t cp pkt is_client).2.1.data 34
          (totalLength (processConnection t cp pkt is_client).2.1.data - 20)) := by
  have hf := ha.ipFields hip
  have hth : pkt.transport_header = 34 := by
    obtain ⟨-, h⟩ | ⟨h6, -⟩ := hf.headers
    · exact h
    · exact absurd (h4.symm.trans h6) (by decide)
  have htotal := totalLength_processRewrite t (t.conn cp) hf is_client h4
  rw [show (processConnection t cp pkt is_client).2.1
    = processRewrite t (t.conn cp) pkt is_client from rfl]
  -- the packet before its transport checksum is written, which comes last
  obtain ⟨q, k, hout, hhead, hq4, hqnet, hqth, hk⟩ :
      ∃ q k, processRewrite t (t.conn cp) pkt is_client = checksumTransport (2 * k) q
        ∧ Verifies (block q.data 14 20) ∧ packetIsIpv4 q = true ∧ q.network_header = 14
        ∧ q.transport_header = 34 ∧ 20 + (2 * k + 2) ≤ totalLength pkt.data := by
    rw [processRewrite_eq]
    generalize hp : ({ pkt with
      data := macStage t (t.conn cp) pkt is_client (ipStage t (t.conn cp) pkt is_client
        (portStage t (t.conn cp) pkt is_client pkt.data))
      adapter_idx := (t.conn cp).adapterIdx is_client } : Packet) = p
    have hp4 : packetIsIpv4 p = true := by rw [← hp]; exact h4
    have hproto : (checksumIpv4 p).protocol_ip = pkt.protocol_ip := by rw [← hp]; rfl
    have hnet : (checksumIpv4 p).network_header = 14 := by rw [← hp]; exact hf.network_header
    have hth' : (checksumIpv4 p).transport_header = 34 := by rw [← hp]; exact hth
    unfold processSetChecksum
    dsimp only
    rw [if_pos hp4]
    obtain ⟨htcp, hl⟩ | ⟨hudp, hl⟩ := hlen
    · rw [if_pos (show packetIsTcp (checksumIpv4 p) = true from
        beq_iff_eq.mpr (hproto.trans htcp))]
      exact ⟨_, 8, rfl, verifies_checksumIpv4 p, hp4, hnet, hth', by omega⟩
    · have hno : ¬ packetIsTcp (checksumIpv4 p) = true := fun h =>
        absurd ((hproto.trans hudp).symm.trans (beq_iff_eq.mp h)) (by decide)
      rw [if_neg hno]
      exact ⟨_, 3, rfl, verifies_checksumIpv4 p, hp4, hnet, hth', by omega⟩
  have hagree := agree_checksumTransport (2 * k) q
  rw [hqth] at hagree
  rw [hout] at htotal ⊢
  have hqtotal : totalLength q.data = totalLength (checksumTransport (2 * k) q).data :=
    totalLength_congr (hagree 16 (by decide)).symm (hagree 17 (by decide)).symm
  rw [block_congr (hagree.sub (p := 14) (k := 20) (by decide) (by decide)), ← hqtotal]
  exact ⟨hhead, verifies_checksumTransport_ipv4 hq4 hqnet hqth (by omega)⟩

/-- A TCP packet with an odd segment of 23 bytes, from the client of `oneClient`. -/
def oddSegment : Packet :=
  Packet.parsed 0 0 ([0, 0, 0, 0, 0, 1, 0, 0, 0, 0, 0, 2, 8, 0]
    ++ [0x45, 0, 0, 43, 0, 0, 0, 0, 64, 6, 0xab, 0xcd] ++ [10, 0, 0, 3] ++ [10, 0, 0, 1]
    ++ [4, 133, 0, 80, 0, 0, 0, 0, 0, 0, 0, 0, 0x50, 16, 0, 0, 0x12, 0x34, 0, 0] ++ [1, 2, 3])

theorem processConnection_checksums_oddSegment :
    Verifies (block (processConnection (oneClient 1) 0x1fff80 oddSegment true).2.1.data 14 20) :=
  (processConnection_checksums (oneClient 1) 0x1fff80
    (accepted_parsed (by decide)) (by decide) (by decide) (Or.inl (by decide)) true).1

/-! ## IPv6 -/

/-- The checksum of the segment of an IPv6 frame verifies. -/
def Verifies6 (m : Memory) : Prop :=
  Verifies (pseudoHeader6 m (payloadLength m) ++ block m 54 (payloadLength m))

/-- What the parser reads of an IPv6 header: the protocol is its next header. -/
theorem next_header_ipv6 {garbage : UInt16 × UInt16} {raw pkt : Packet}
    (h : packetRecvInitIpv6 garbage raw = (true, pkt)) :
    pkt.protocol_ip = pkt.data 20 ∧ packetIsIpv4 pkt = false := by
  unfold packetRecvInitIpv6 at h
  dsimp only at h
  generalize hp : packetInitPort garbage _ _ _ = res at h
  obtain ⟨ret, mid⟩ := res
  cases ret with
  | false => exact absurd (Prod.ext_iff.mp h).1 Bool.false_ne_true
  | true =>
    obtain ⟨sport, dport, rfl, -⟩ := packetInitPort_spec hp
    obtain rfl := (Prod.ext_iff.mp h).2
    exact ⟨rfl, rfl⟩

/-- The sum that is written as zero: that of a segment which verifies with its checksum
zero. -/
theorem load16_checksumUdp_eq_zero_iff {pkt : Packet} (h6 : packetIsIpv4 pkt = false)
    (hnet : pkt.network_header = 14) (hth : pkt.transport_header = 54)
    (heq : pkt.data 23 = pkt.data 20) :
    load16 (checksumUdp pkt).data 60 = 0 ↔ Verifies6 (store16 pkt.data 60 0) := by
  obtain ⟨init, hinit, hdata⟩ := data_checksumTransport_ipv6 h6 hnet hth 6
  rw [heq] at hinit
  have hagree : Agree (store16 pkt.data 60 0) pkt.data 0 54 :=
    agree_storeBytes _ _ (Or.inl (by decide))
  have hpayload : payloadLength (store16 pkt.data 60 0) = payloadLength pkt.data := rfl
  have hle := (foldCarries_spec (init
    + sumWords (store16 pkt.data 60 0) 54 (payloadLength pkt.data))).1
  rw [checksumUdp, hdata, show (54 + 6 : ℕ) = 60 from rfl, load16_store16, ← UInt16.toNat_inj,
    toNat_checksum, Verifies6, hpayload, verifies_iff,
    littleSum_append (even_pseudoHeader6 _ _), pseudoHeader6_congr hagree, ← sumWords_eq,
    ← Nat.add_right_cancel hinit, ← foldCarries_eq_iff, UInt16.toNat_zero]
  omega

/-- **When the checksum of an IPv6 packet verifies.** The second byte of the source address
is the next header, and of a UDP packet the sum is not one that is written as zero. -/
theorem checksums_ipv6_iff {garbage : UInt16 × UInt16} {raw pkt : Packet}
    (hr : packetRecvInitIpv6 garbage raw = (true, pkt))
    (hlen : pkt.protocol_ip = protoTcp ∧ 20 ≤ payloadLength pkt.data
      ∨ pkt.protocol_ip = protoUdp ∧ 8 ≤ payloadLength pkt.data) :
    (pkt.protocol_ip = protoTcp → Verifies6 (checksumTcp pkt).data)
        ∧ (pkt.protocol_ip = protoUdp →
          Verifies6 (checksumUdp pkt).data ∧ load16 (checksumUdp pkt).data 60 ≠ 0)
      ↔ pkt.data 23 = pkt.data 20
        ∧ (pkt.protocol_ip = protoUdp → ¬ Verifies6 (store16 pkt.data 60 0)) := by
  have hf := ipFields_ipv6 hr
  obtain ⟨-, h6⟩ := next_header_ipv6 hr
  have hnet := hf.network_header
  have hth : pkt.transport_header = 54 := (hf.ipv6 (by simpa [packetIsIpv4] using h6)).2.1
  have hpayload : ∀ check, payloadLength (checksumTransport check pkt).data
      = payloadLength pkt.data := by
    intro check
    have hagree := agree_checksumTransport check pkt
    rw [hth] at hagree
    show _ * 256 + _ = _ * 256 + _
    rw [hagree 18 (by decide), hagree 19 (by decide)]
  obtain ⟨htcp, hl⟩ | ⟨hudp, hl⟩ := hlen
  · have hno : ¬ pkt.protocol_ip = protoUdp := by
      rw [htcp]
      decide
    have hiff := verifies_checksumTransport_ipv6_iff (k := 8) h6 hnet hth (by omega)
    rw [← hpayload] at hiff
    constructor
    · rintro ⟨h, -⟩
      exact ⟨hiff.mp (h htcp), fun hu => absurd hu hno⟩
    · rintro ⟨heq, -⟩
      exact ⟨fun _ => hiff.mpr heq, fun hu => absurd hu hno⟩
  · have hno : ¬ pkt.protocol_ip = protoTcp := by
      rw [hudp]
      decide
    have hiff := verifies_checksumTransport_ipv6_iff (k := 3) h6 hnet hth (by omega)
    rw [← hpayload] at hiff
    constructor
    · rintro ⟨-, h⟩
      have heq := hiff.mp (h hudp).1
      exact ⟨heq, fun _ hv => (h hudp).2
        ((load16_checksumUdp_eq_zero_iff h6 hnet hth heq).mpr hv)⟩
    · rintro ⟨heq, h⟩
      exact ⟨fun ht => absurd ht hno, fun _ => ⟨hiff.mpr heq, fun hz =>
        h hudp ((load16_checksumUdp_eq_zero_iff h6 hnet hth heq).mp hz)⟩⟩

/-- A packet over IPv6, under the one EtherType the parser knows. -/
def ipv6Segment (second : UInt8) : Packet := Packet.parsed 0 0 (ipv6Frame [8, 0] second)

/-- It comes out of the parser of IPv6. -/
theorem parsed_ipv6Segment (second : UInt8) :
    ∃ raw, packetRecvInitIpv6 (0, 0) raw = (true, ipv6Segment second) := by
  have heth : load16 (Packet.received 0 0 (ipv6Frame [8, 0] second)).data 12 = protoIp :=
    (load16_eq_protoIp_iff _).mpr ⟨rfl, rfl⟩
  have hv : ipVersion (Packet.received 0 0 (ipv6Frame [8, 0] second)).data ≠ 4 :=
    show (0x60 : UInt8) / 16 ≠ 4 by decide
  have hkept : (packetRecvInit (0, 0) (Packet.received 0 0 (ipv6Frame [8, 0] second))).1
      = true := by
    have hknown : Known ((Packet.received 0 0 (ipv6Frame [8, 0] second)).data 20) :=
      show Known 6 by decide
    rw [(packetRecvInit_ip (0, 0) heth).1, readHeader, if_neg hv]
    exact decide_eq_true hknown
  refine ⟨_, (packetRecvInit_ipv6 (0, 0) heth hv).symm.trans ?_⟩
  unfold ipv6Segment Packet.parsed
  generalize packetRecvInit (0, 0) (Packet.received 0 0 (ipv6Frame [8, 0] second)) = res at hkept ⊢
  exact Prod.ext hkept rfl

/-- From `fd06::3` the checksum verifies: the second byte of the address is the protocol. -/
theorem checksums_ipv6_iff_segment : Verifies6 (checksumTcp (ipv6Segment 6)).data := by
  obtain ⟨raw, hr⟩ := parsed_ipv6Segment 6
  have hverified := (checksums_ipv6_iff hr (Or.inl (by decide))).mpr
    ⟨by decide, fun h => absurd h (by decide)⟩
  exact hverified.1 (by decide)

/-- From `fd00::3` it does not. -/
theorem ipv6_checksum_not_verified :
    (∃ raw, packetRecvInitIpv6 (0, 0) raw = (true, ipv6Segment 0))
      ∧ (ipv6Segment 0).protocol_ip = protoTcp
      ∧ payloadLength (ipv6Segment 0).data = 20
      ∧ ¬ Verifies6 (checksumTcp (ipv6Segment 0)).data := by
  have hpayload : payloadLength (ipv6Segment 0).data = 20 := by decide
  have h6 : packetIsIpv4 (ipv6Segment 0) = false := by decide
  have hiff := verifies_checksumTransport_ipv6_iff (k := 8) h6 (by decide) (by decide)
    (by decide)
  have hne : ¬ (ipv6Segment 0).data 23 = (ipv6Segment 0).data 20 := by decide
  exact ⟨parsed_ipv6Segment 0, by decide, hpayload, fun h => hne (hiff.mp h)⟩
