import Ustack.ChecksumVerify
import Ustack.Logged

/-!
# The bytes of a frame that are read and written

The parser, the rewriting and the checksums once more, with every load from the frame and
every store to it logged. What they compute is what they compute without the log
(`value_packetRecvInitLogged`, `value_processConnectionLogged`); what they touch is a matter
of a few header fields (`parserReach`, `connectionReach`), none of which is compared with the
length the NIC reported. A frame shorter than its headers is read past its end, and if there is
a connection for it the transport checksum walks as far as the length field of the IP header
says, for a total length below twenty nearly 64 KB (`staysInside_iff`).
-/

/-! ## Loads and stores -/

/-- The offsets of some bytes. -/
def span (off n : ℕ) : List ℕ := List.range' off n

/-- A byte is loaded. -/
def read8 (m : Memory) (off : ℕ) : Logged ℕ UInt8 := ⟨m off, span off 1⟩

/-- A 16-bit word is loaded. -/
def read16 (m : Memory) (off : ℕ) : Logged ℕ UInt16 := ⟨load16 m off, span off 2⟩

/-- A 32-bit word is loaded. -/
def read32 (m : Memory) (off : ℕ) : Logged ℕ UInt32 := ⟨load32 m off, span off 4⟩

/-- An IPv6 address is loaded. -/
def readAddr6 (m : Memory) (off : ℕ) : Logged ℕ IpAddress := ⟨loadAddr6 m off, span off 16⟩

/-- A 16-bit word is stored. -/
def write16 (m : Memory) (off : ℕ) (v : UInt16) : Logged ℕ Memory := ⟨store16 m off v, span off 2⟩

/-- An IPv4 address is stored. -/
def writeAddr4 (m : Memory) (off : ℕ) (ip : IpAddress) : Logged ℕ Memory :=
  ⟨storeAddr4 m off ip, span off 4⟩

/-- An IPv6 address is stored. -/
def writeAddr6 (m : Memory) (off : ℕ) (ip : IpAddress) : Logged ℕ Memory :=
  ⟨storeAddr6 m off ip, span off 16⟩

/-- A MAC address is stored. -/
def writeMac (m : Memory) (off : ℕ) (mac : Mac) : Logged ℕ Memory :=
  ⟨storeMac m off mac, span off 6⟩

/-! ## The parser -/

/-- `__packet_init_port`. -/
def packetInitPortLogged (garbage : UInt16 × UInt16) (pkt : Packet) (header : ℕ)
    (proto : UInt8) : Logged ℕ (Bool × Packet) :=
  let set (sport dport : UInt16) : Bool × Packet :=
    (true, { pkt with
      saddr := { pkt.saddr with port := sport }
      daddr := { pkt.daddr with port := dport } })
  if proto = protoTcp then do
    let sport ← read16 pkt.data header
    let dport ← read16 pkt.data (header + 2)
    return set sport dport
  else if proto = protoUdp then do
    let sport ← read16 pkt.data header
    let dport ← read16 pkt.data (header + 2)
    return set sport dport
  else if proto = protoIcmp then return set garbage.1 garbage.2
  else if proto = protoIcmpv6 then return set garbage.1 garbage.2
  else return (false, pkt)

/-- `packet_recv_init_arp`. -/
def packetRecvInitArpLogged (pkt : Packet) : Logged ℕ (Bool × Packet) := do
  let ap := sizeofEthhdr
  let sip ← read32 pkt.data (ap + 14)
  let tip ← read32 pkt.data (ap + 24)
  return (true, { pkt with
    family := afInet
    protocol_ip := protoNull
    saddr := { pkt.saddr with ip := ipAddressInitV4 pkt.saddr.ip sip }
    daddr := { pkt.daddr with ip := ipAddressInitV4 pkt.daddr.ip tip }
    transport_header := 0
    network_header := ap
    mac_header := 0 })

/-- `packet_recv_init_ipv4`. -/
def packetRecvInitIpv4Logged (garbage : UInt16 × UInt16) (pkt : Packet) :
    Logged ℕ (Bool × Packet) := do
  let ip := sizeofEthhdr
  let protocol ← read8 pkt.data (ip + 9)
  let pkt := { pkt with family := afInet, protocol_ip := protocol }
  let header := ip + sizeofIphdr
  let protocol ← read8 pkt.data (ip + 9)
  let res ← packetInitPortLogged garbage pkt header protocol
  let pkt := res.2
  if res.1 = false then return (false, pkt)
  else do
    let saddr ← read32 pkt.data (ip + 12)
    let daddr ← read32 pkt.data (ip + 16)
    return (true, { pkt with
      saddr := { pkt.saddr with ip := ipAddressInitV4 pkt.saddr.ip saddr }
      daddr := { pkt.daddr with ip := ipAddressInitV4 pkt.daddr.ip daddr }
      transport_header := header
      network_header := ip
      mac_header := 0 })

/-- `packet_recv_init_ipv6`. -/
def packetRecvInitIpv6Logged (garbage : UInt16 × UInt16) (pkt : Packet) :
    Logged ℕ (Bool × Packet) := do
  let ip6 := sizeofEthhdr
  let nexthdr ← read8 pkt.data (ip6 + 6)
  let pkt := { pkt with family := afInet6, protocol_ip := nexthdr }
  let header := ip6 + sizeofIpv6hdr
  let res ← packetInitPortLogged garbage pkt header pkt.protocol_ip
  let pkt := res.2
  if res.1 = false then return (false, pkt)
  else do
    let saddr ← readAddr6 pkt.data (ip6 + 8)
    let daddr ← readAddr6 pkt.data (ip6 + 24)
    return (true, { pkt with
      saddr := { pkt.saddr with ip := saddr }
      daddr := { pkt.daddr with ip := daddr }
      transport_header := header
      network_header := ip6
      mac_header := 0 })

/-- `__packet_recv_init`. -/
def packetRecvInitLogged (garbage : UInt16 × UInt16) (pkt : Packet) :
    Logged ℕ (Bool × Packet) := do
  let h_proto ← read16 pkt.data 12
  let pkt := { pkt with lfq_state := .start, protocol_eth := h_proto }
  if packetIsIp pkt then do
    let version ← read8 pkt.data sizeofEthhdr
    if version / 16 = 4 then packetRecvInitIpv4Logged garbage pkt
    else packetRecvInitIpv6Logged garbage pkt
  else if packetIsArp pkt then packetRecvInitArpLogged pkt
  else return (false, pkt)

/-! ## The checksums -/

/-- The loops of `_checksum` over the words and the odd byte. -/
def sumWordsLogged (m : Memory) (off : ℕ) : ℕ → Logged ℕ ℕ
  | 0 => return 0
  | 1 => do
    let b ← read8 m off
    return b.toNat
  | n + 2 => do
    let w ← read16 m off
    let sum ← sumWordsLogged m (off + 2) n
    return w.toNat + sum

/-- `_checksum`. -/
def checksumLogged (m : Memory) (buffer size init : ℕ) : Logged ℕ UInt16 := do
  let sum ← sumWordsLogged m buffer size
  return ~~~ (UInt16.ofNat (foldCarries (init + sum)))

/-- The loop of `checksum_tcpudp` over the words of the addresses. -/
def sumAddrsLogged (m : Memory) (src dst : ℕ) : List ℕ → Logged ℕ ℕ
  | [] => return 0
  | i :: rest => do
    let s ← read32 m (src + 4 * i)
    let d ← read32 m (dst + 4 * i)
    let sum ← sumAddrsLogged m src dst rest
    return sumHalves s + sumHalves d + sum

/-- `checksum_tcpudp`. -/
def checksumTcpudpLogged (m : Memory) (buffer size src dst ip_len : ℕ) (proto : UInt8)
    (len : UInt16) : Logged ℕ UInt16 := do
  let addrs ← sumAddrsLogged m src dst (List.range ip_len)
  checksumLogged m buffer size (addrs + (proto.toUInt16 * 256).toNat + len.toNat)

/-- `checksum_ipv4`. -/
def checksumIpv4Logged (pkt : Packet) : Logged ℕ Packet := do
  let ip := sizeofEthhdr
  let data ← write16 pkt.data (ip + 10) 0
  let sum ← checksumLogged data ip sizeofIphdr 0
  let data ← write16 data (ip + 10) sum
  return pkt.setData data

/-- The body of `checksum_tcp` and `checksum_udp`. -/
def checksumTransportLogged (check : ℕ) (pkt : Packet) : Logged ℕ Packet := do
  let ip := pkt.network_header
  let header := pkt.transport_header
  let data ← write16 pkt.data (header + check) 0
  let sum ←
    if packetIsIpv4 pkt then do
      let tot_len ← read16 data (ip + 2)
      let size := htons tot_len - 20
      let proto ← read8 data (ip + 9)
      checksumTcpudpLogged data header size.toNat (ip + 12) (ip + 16) 1 proto (htons size)
    else do
      let len ← read16 data (ip + 4)
      let proto ← read8 data (ip + 9)
      checksumTcpudpLogged data header (htons len).toNat (ip + 8) (ip + 24) 4 proto len
  let data ← write16 data (header + check) sum
  return pkt.setData data

/-- `checksum_tcp`. -/
def checksumTcpLogged : Packet → Logged ℕ Packet := checksumTransportLogged 16

/-- `checksum_udp`. -/
def checksumUdpLogged : Packet → Logged ℕ Packet := checksumTransportLogged 6

/-! ## The rewriting -/

/-- The body of the functions that set the ports and the addresses. -/
def rewriteEndsLogged {α : Type} (write : Memory → ℕ → α → Logged ℕ Memory) (source dest : ℕ)
    (ends : Ends α) (fullnat is_client : Bool) (m : Memory) : Logged ℕ Memory :=
  if is_client then do
    let m ← if fullnat then write m source ends.self else pure m
    write m dest ends.server
  else do
    let m ← if fullnat then write m dest ends.client else pure m
    write m source ends.vs

/-- `process_set_tcp_port`. -/
def processSetTcpPortLogged (t : Tables) (c : Connection) (pkt : Packet) (is_client : Bool) :
    Logged ℕ Packet := do
  let data ← rewriteEndsLogged write16 pkt.transport_header (pkt.transport_header + 2)
    (connectionPorts t c) (connectionIsFullnat c) is_client pkt.data
  return pkt.setData data

/-- `process_set_udp_port`. -/
def processSetUdpPortLogged (t : Tables) (c : Connection) (pkt : Packet) (is_client : Bool) :
    Logged ℕ Packet := do
  let data ← rewriteEndsLogged write16 pkt.transport_header (pkt.transport_header + 2)
    (connectionPorts t c) (connectionIsFullnat c) is_client pkt.data
  return pkt.setData data

/-- `process_set_port`. -/
def processSetPortLogged (t : Tables) (c : Connection) (pkt : Packet) (is_client : Bool) :
    Logged ℕ Packet :=
  if connectionIsTcp c then processSetTcpPortLogged t c pkt is_client
  else processSetUdpPortLogged t c pkt is_client

/-- `process_set_ipv4`. -/
def processSetIpv4Logged (t : Tables) (c : Connection) (pkt : Packet) (is_client : Bool) :
    Logged ℕ Packet := do
  let data ← rewriteEndsLogged writeAddr4 (pkt.network_header + 12) (pkt.network_header + 16)
    (connectionAddrs t c) (connectionIsFullnat c) is_client pkt.data
  return pkt.setData data

/-- `process_set_ipv6`. -/
def processSetIpv6Logged (t : Tables) (c : Connection) (pkt : Packet) (is_client : Bool) :
    Logged ℕ Packet := do
  let data ← rewriteEndsLogged writeAddr6 (pkt.network_header + 8) (pkt.network_header + 24)
    (connectionAddrs t c) (connectionIsFullnat c) is_client pkt.data
  return pkt.setData data

/-- `process_set_ip`. -/
def processSetIpLogged (t : Tables) (c : Connection) (pkt : Packet) (is_client : Bool) :
    Logged ℕ Packet :=
  if packetIsIpv4 pkt then processSetIpv4Logged t c pkt is_client
  else processSetIpv6Logged t c pkt is_client

/-- `process_set_mac`. -/
def processSetMacLogged (t : Tables) (c : Connection) (pkt : Packet) (is_client : Bool) :
    Logged ℕ Packet := do
  let ep := pkt.mac_header
  let mac := t.mac (c.adapterIdx is_client).toNat
  let data ← writeMac pkt.data (ep + 6) mac
  let data ← writeMac data ep
    (if is_client then (serverAt t.pool c.server).mac else c.client_mac)
  return pkt.setData data

/-- `process_set_checksum`. -/
def processSetChecksumLogged (pkt : Packet) : Logged ℕ Packet := do
  let pkt ← if packetIsIpv4 pkt then checksumIpv4Logged pkt else pure pkt
  if packetIsTcp pkt then checksumTcpLogged pkt else checksumUdpLogged pkt

/-- `process_connection`. The driver queues the packet by its structure. -/
def processConnectionLogged (t : Tables) (cp : ℕ) (pkt : Packet) (is_client : Bool) :
    Logged ℕ (Verdict × Packet × Tables) := do
  let c := t.conn cp
  let pkt ← processSetPortLogged t c pkt is_client
  let pkt ← processSetIpLogged t c pkt is_client
  let pkt ← processSetMacLogged t c pkt is_client
  let pkt ← processSetChecksumLogged { pkt with adapter_idx := c.adapterIdx is_client }
  return (.stolen, pkt, ngDriverPutPacketToSendBuffer t pkt)

/-! ## What is computed -/

theorem value_read8 (m : Memory) (off : ℕ) : (read8 m off).value = m off := rfl

theorem value_read16 (m : Memory) (off : ℕ) : (read16 m off).value = load16 m off := rfl

theorem value_write16 (m : Memory) (off : ℕ) (v : UInt16) :
    (write16 m off v).value = store16 m off v := rfl

theorem value_writeAddr4 (m : Memory) (off : ℕ) (ip : IpAddress) :
    (writeAddr4 m off ip).value = storeAddr4 m off ip := rfl

theorem value_writeAddr6 (m : Memory) (off : ℕ) (ip : IpAddress) :
    (writeAddr6 m off ip).value = storeAddr6 m off ip := rfl

theorem value_packetInitPortLogged (garbage : UInt16 × UInt16) (pkt : Packet) (header : ℕ)
    (proto : UInt8) :
    (packetInitPortLogged garbage pkt header proto).value
      = packetInitPort garbage pkt header proto := by
  unfold packetInitPortLogged packetInitPort
  dsimp only
  split_ifs <;> rfl

theorem value_packetRecvInitIpv4Logged (garbage : UInt16 × UInt16) (pkt : Packet) :
    (packetRecvInitIpv4Logged garbage pkt).value = packetRecvInitIpv4 garbage pkt := by
  simp only [packetRecvInitIpv4Logged, packetRecvInitIpv4, Logged.value_bind, Logged.value_ite,
    Logged.value_pure, value_packetInitPortLogged]
  rfl

theorem value_packetRecvInitIpv6Logged (garbage : UInt16 × UInt16) (pkt : Packet) :
    (packetRecvInitIpv6Logged garbage pkt).value = packetRecvInitIpv6 garbage pkt := by
  simp only [packetRecvInitIpv6Logged, packetRecvInitIpv6, Logged.value_bind, Logged.value_ite,
    Logged.value_pure, value_packetInitPortLogged]
  rfl

/-- **The log changes nothing in the parser.** -/
theorem value_packetRecvInitLogged (garbage : UInt16 × UInt16) (pkt : Packet) :
    (packetRecvInitLogged garbage pkt).value = packetRecvInit garbage pkt := by
  simp only [packetRecvInitLogged, packetRecvInit, Logged.value_bind, Logged.value_ite,
    value_packetRecvInitIpv4Logged, value_packetRecvInitIpv6Logged]
  rfl

theorem value_sumWordsLogged (m : Memory) (off n : ℕ) :
    (sumWordsLogged m off n).value = sumWords m off n := by
  fun_induction sumWords m off n with
  | case1 off => rfl
  | case2 off => rfl
  | case3 off n ih => exact congrArg ((load16 m off).toNat + ·) ih

theorem value_checksumLogged (m : Memory) (buffer size init : ℕ) :
    (checksumLogged m buffer size init).value = checksum m buffer size init := by
  simp only [checksumLogged, checksum, Logged.value_bind, Logged.value_pure, value_sumWordsLogged]

theorem value_sumAddrsLogged (m : Memory) (src dst : ℕ) (l : List ℕ) :
    (sumAddrsLogged m src dst l).value = (l.map (fun i =>
      sumHalves (load32 m (src + 4 * i)) + sumHalves (load32 m (dst + 4 * i)))).sum := by
  induction l with
  | nil => rfl
  | cons i rest ih =>
    rw [List.map_cons, List.sum_cons, ← ih]
    rfl

theorem value_checksumTcpudpLogged (m : Memory) (buffer size src dst ip_len : ℕ) (proto : UInt8)
    (len : UInt16) :
    (checksumTcpudpLogged m buffer size src dst ip_len proto len).value
      = checksumTcpudp m buffer size src dst ip_len proto len := by
  simp only [checksumTcpudpLogged, checksumTcpudp, Logged.value_bind, value_sumAddrsLogged,
    value_checksumLogged]

theorem value_checksumIpv4Logged (pkt : Packet) :
    (checksumIpv4Logged pkt).value = checksumIpv4 pkt := by
  simp only [checksumIpv4Logged, checksumIpv4, Logged.value_bind, Logged.value_pure,
    value_checksumLogged]
  rfl

theorem value_checksumTransportLogged (check : ℕ) (pkt : Packet) :
    (checksumTransportLogged check pkt).value = checksumTransport check pkt := by
  simp only [checksumTransportLogged, checksumTransport, Logged.value_bind, Logged.value_ite,
    Logged.value_pure, value_checksumTcpudpLogged]
  split <;> rfl

theorem value_rewriteEndsLogged {α : Type} {write : Memory → ℕ → α → Logged ℕ Memory}
    {store : Memory → ℕ → α → Memory} (hw : ∀ m off a, (write m off a).value = store m off a)
    (source dest : ℕ) (ends : Ends α) (fullnat is_client : Bool) (m : Memory) :
    (rewriteEndsLogged write source dest ends fullnat is_client m).value
      = rewriteEnds store source dest ends fullnat is_client m := by
  simp only [rewriteEndsLogged, rewriteEnds, Logged.value_bind, Logged.value_ite,
    Logged.value_pure, hw]
  cases is_client <;> cases fullnat <;> rfl

theorem value_processSetPortLogged (t : Tables) (c : Connection) (pkt : Packet)
    (is_client : Bool) :
    (processSetPortLogged t c pkt is_client).value = processSetPort t c pkt is_client := by
  simp only [processSetPortLogged, processSetPort, processSetTcpPortLogged, processSetTcpPort,
    processSetUdpPortLogged, processSetUdpPort, Logged.value_bind, Logged.value_ite,
    Logged.value_pure, value_rewriteEndsLogged value_write16]

theorem value_processSetIpLogged (t : Tables) (c : Connection) (pkt : Packet)
    (is_client : Bool) :
    (processSetIpLogged t c pkt is_client).value = processSetIp t c pkt is_client := by
  simp only [processSetIpLogged, processSetIp, processSetIpv4Logged, processSetIpv4,
    processSetIpv6Logged, processSetIpv6, Logged.value_bind, Logged.value_ite,
    Logged.value_pure, value_rewriteEndsLogged value_writeAddr4,
    value_rewriteEndsLogged value_writeAddr6]

theorem value_processSetChecksumLogged (pkt : Packet) :
    (processSetChecksumLogged pkt).value = processSetChecksum pkt := by
  simp only [processSetChecksumLogged, processSetChecksum, checksumTcpLogged, checksumTcp,
    checksumUdpLogged, checksumUdp, Logged.value_bind, Logged.value_ite, Logged.value_pure,
    value_checksumIpv4Logged, value_checksumTransportLogged]
  cases packetIsIpv4 pkt <;> rfl

/-- **The log changes nothing in the rewriting.** -/
theorem value_processConnectionLogged (t : Tables) (cp : ℕ) (pkt : Packet) (is_client : Bool) :
    (processConnectionLogged t cp pkt is_client).value = processConnection t cp pkt is_client := by
  simp only [processConnectionLogged, processConnection, processRewrite, Logged.value_bind,
    Logged.value_pure, value_processSetPortLogged, value_processSetIpLogged,
    value_processSetChecksumLogged]
  rfl

/-! ## What is touched -/

section Touched

variable {len : ℕ}

theorem forall_span (off n : ℕ) : (∀ i ∈ span off n, i < len) ↔ n = 0 ∨ off + n ≤ len := by
  constructor
  · intro h
    cases n with
    | zero => exact .inl rfl
    | succ n =>
      refine .inr (h (off + n) ?_)
      rw [span, List.mem_range'_1]
      exact ⟨Nat.le_add_right _ _, Nat.lt_succ_self _⟩
  · intro h i hi
    rw [span, List.mem_range'_1] at hi
    rcases h with rfl | h
    · exact absurd hi.2 (not_lt.mpr hi.1)
    · exact hi.2.trans_le h

/-- What touches some bytes, and at least one, stays below a length that they end within. -/
theorem all_touches {α : Type} {x : Logged ℕ α} {off n : ℕ} (hx : x.log = span off n)
    (hn : n ≠ 0) : x.All (· < len) ↔ off + n ≤ len := by
  rw [Logged.All, hx, forall_span, or_iff_right hn]

variable (m : Memory) (off : ℕ)

@[simp]
theorem all_read8 : (read8 m off).All (· < len) ↔ off + 1 ≤ len := all_touches rfl (by decide)

@[simp]
theorem all_read16 : (read16 m off).All (· < len) ↔ off + 2 ≤ len := all_touches rfl (by decide)

@[simp]
theorem all_read32 : (read32 m off).All (· < len) ↔ off + 4 ≤ len := all_touches rfl (by decide)

@[simp]
theorem all_readAddr6 : (readAddr6 m off).All (· < len) ↔ off + 16 ≤ len :=
  all_touches rfl (by decide)

@[simp]
theorem all_write16 (v : UInt16) : (write16 m off v).All (· < len) ↔ off + 2 ≤ len :=
  all_touches rfl (by decide)

@[simp]
theorem all_writeAddr4 (ip : IpAddress) : (writeAddr4 m off ip).All (· < len) ↔ off + 4 ≤ len :=
  all_touches rfl (by decide)

@[simp]
theorem all_writeAddr6 (ip : IpAddress) : (writeAddr6 m off ip).All (· < len) ↔ off + 16 ≤ len :=
  all_touches rfl (by decide)

@[simp]
theorem all_writeMac (mac : Mac) : (writeMac m off mac).All (· < len) ↔ off + 6 ≤ len :=
  all_touches rfl (by decide)

end Touched

/-! ### By the parser -/

section Parser

variable {len : ℕ}

/-- One past the last byte the port step reads. -/
theorem all_packetInitPortLogged (garbage : UInt16 × UInt16) (pkt : Packet) (header : ℕ)
    (proto : UInt8) :
    (packetInitPortLogged garbage pkt header proto).All (· < len)
      ↔ (HasPorts proto → header + 4 ≤ len) := by
  unfold packetInitPortLogged
  dsimp only
  by_cases htcp : proto = protoTcp
  · have hp : HasPorts proto := .inl htcp
    simp only [if_pos htcp, Logged.all_bind, Logged.all_pure, all_read16, hp, forall_const,
      and_true]
    omega
  · by_cases hudp : proto = protoUdp
    · have hp : HasPorts proto := .inr hudp
      simp only [if_neg htcp, if_pos hudp, Logged.all_bind, Logged.all_pure, all_read16, hp,
        forall_const, and_true]
      omega
    · have hp : ¬HasPorts proto := not_or.mpr ⟨htcp, hudp⟩
      simp only [if_neg htcp, if_neg hudp, Logged.all_ite, Logged.all_pure, ite_self, hp,
        false_implies]

/-- The port step says whether it knows the protocol. -/
theorem packetInitPort_fst (garbage : UInt16 × UInt16) (pkt : Packet) (header : ℕ)
    (proto : UInt8) : (packetInitPort garbage pkt header proto).1 = decide (Known proto) := by
  rw [packetInitPort_eq]
  by_cases hk : Known proto
  · rw [if_pos hk, decide_eq_true hk]
  · rw [if_neg hk, decide_eq_false hk]

/-- **What the parser touches of an IPv4 frame.** -/
theorem all_packetRecvInitIpv4Logged (garbage : UInt16 × UInt16) (pkt : Packet) :
    (packetRecvInitIpv4Logged garbage pkt).All (· < len)
      ↔ 24 ≤ len ∧ (Known (pkt.data 23) → 34 ≤ len) ∧ (HasPorts (pkt.data 23) → 38 ≤ len) := by
  have h23 : pkt.data (sizeofEthhdr + 9) = pkt.data 23 := rfl
  simp only [packetRecvInitIpv4Logged, Logged.all_bind, Logged.all_ite, Logged.all_pure, all_read8,
    all_read32, all_packetInitPortLogged, value_packetInitPortLogged, packetInitPort_fst,
    value_read8, h23]
  simp only [sizeofEthhdr, sizeofIphdr]
  by_cases hp : HasPorts (pkt.data 23)
  · have hk : Known (pkt.data 23) := .inl hp
    simp only [hp, hk, decide_true, Bool.true_eq_false, if_false, forall_const, and_true]
    omega
  · by_cases hk : Known (pkt.data 23)
    · simp only [hp, hk, decide_true, Bool.true_eq_false, if_false, forall_const, false_implies,
        true_and, and_true]
      omega
    · simp only [hp, hk, decide_false, if_true, false_implies, and_true, and_self]

/-- **What the parser touches of an IPv6 frame.** -/
theorem all_packetRecvInitIpv6Logged (garbage : UInt16 × UInt16) (pkt : Packet) :
    (packetRecvInitIpv6Logged garbage pkt).All (· < len)
      ↔ 21 ≤ len ∧ (Known (pkt.data 20) → 54 ≤ len) ∧ (HasPorts (pkt.data 20) → 58 ≤ len) := by
  have h20 : pkt.data (sizeofEthhdr + 6) = pkt.data 20 := rfl
  simp only [packetRecvInitIpv6Logged, Logged.all_bind, Logged.all_ite, Logged.all_pure, all_read8,
    all_readAddr6, all_packetInitPortLogged, value_packetInitPortLogged, packetInitPort_fst,
    value_read8, h20]
  simp only [sizeofEthhdr, sizeofIpv6hdr]
  by_cases hp : HasPorts (pkt.data 20)
  · have hk : Known (pkt.data 20) := .inl hp
    simp only [hp, hk, decide_true, Bool.true_eq_false, if_false, forall_const, and_true]
    omega
  · by_cases hk : Known (pkt.data 20)
    · simp only [hp, hk, decide_true, Bool.true_eq_false, if_false, forall_const, false_implies,
        true_and, and_true]
      omega
    · simp only [hp, hk, decide_false, if_true, false_implies, and_true, and_self]

/-- Ports are read for two of the known protocols, and addresses for all of them. -/
theorem portsReach_le {proto : UInt8} {short header : ℕ} (h : short ≤ header) :
    (if HasPorts proto then header + 4 else if Known proto then header else short) ≤ len
      ↔ short ≤ len ∧ (Known proto → header ≤ len) ∧ (HasPorts proto → header + 4 ≤ len) := by
  by_cases hp : HasPorts proto
  · have hk : Known proto := .inl hp
    simp only [hp, hk, if_true, forall_const]
    omega
  · by_cases hk : Known proto
    · simp only [hp, hk, if_true, if_false, forall_const, false_implies, and_true]
      omega
    · simp only [hp, hk, if_false, false_implies, and_true]

/-- One past the last byte the parser touches. -/
def parserReach (m : Memory) : ℕ :=
  if load16 m 12 = protoIp then
    if HasPorts (readHeader m).protocol then (readHeader m).transport_header + 4
    else if Known (readHeader m).protocol then (readHeader m).transport_header
    else if ipVersion m = 4 then 24 else 21
  else if load16 m 12 = protoArp then 42 else 14

/-- **What the parser touches.** -/
theorem all_packetRecvInitLogged (garbage : UInt16 × UInt16) (raw : Packet) :
    (packetRecvInitLogged garbage raw).All (· < len) ↔ parserReach raw.data ≤ len := by
  have hver : raw.data sizeofEthhdr / 16 = ipVersion raw.data := rfl
  by_cases heth : load16 raw.data 12 = protoIp
  · simp only [packetRecvInitLogged, Logged.all_bind, all_read16, value_read16, packetIsIp, heth,
      beq_self_eq_true, if_true, all_read8, value_read8, hver, parserReach, readHeader]
    by_cases hv : ipVersion raw.data = 4
    · simp only [hv, if_true, all_packetRecvInitIpv4Logged, sizeofEthhdr]
      show _ ↔ (if HasPorts (raw.data 23) then 34 + 4 else if Known (raw.data 23) then 34 else 24) ≤ len
      rw [portsReach_le (by decide)]
      exact ⟨fun h => h.2.2, fun h => ⟨le_trans (by decide) h.1, le_trans (by decide) h.1, h⟩⟩
    · simp only [hv, if_false, all_packetRecvInitIpv6Logged, sizeofEthhdr]
      show _ ↔ (if HasPorts (raw.data 20) then 54 + 4 else if Known (raw.data 20) then 54 else 21) ≤ len
      rw [portsReach_le (by decide)]
      exact ⟨fun h => h.2.2, fun h => ⟨le_trans (by decide) h.1, le_trans (by decide) h.1, h⟩⟩
  · have hip : (load16 raw.data 12 == protoIp) = false := beq_false_of_ne heth
    simp only [packetRecvInitLogged, Logged.all_bind, all_read16, value_read16, packetIsIp, hip,
      Bool.false_eq_true, if_false, packetIsArp, parserReach, heth]
    by_cases harp : load16 raw.data 12 = protoArp
    · simp only [harp, beq_self_eq_true, if_true, packetRecvInitArpLogged, Logged.all_bind,
        all_read32, Logged.all_pure, sizeofEthhdr, and_true]
      omega
    · simp only [beq_false_of_ne harp, Bool.false_eq_true, if_false, Logged.all_pure, harp,
        and_true]

end Parser

/-! ### By the checksums -/

section Checksums

variable {len : ℕ}

/-- **The walk of `_checksum`** touches its whole range. -/
theorem all_sumWordsLogged (m : Memory) (off n : ℕ) :
    (sumWordsLogged m off n).All (· < len) ↔ n = 0 ∨ off + n ≤ len := by
  fun_induction sumWordsLogged m off n with
  | case1 off => simp
  | case2 off => simp
  | case3 off n ih =>
    simp only [Logged.all_bind, all_read16, Logged.all_pure, and_true, ih]
    omega

theorem all_sumAddrsLogged (m : Memory) {src dst : ℕ} {l : List ℕ}
    (hl : ∀ i ∈ l, src + 4 * i + 4 ≤ len ∧ dst + 4 * i + 4 ≤ len) :
    (sumAddrsLogged m src dst l).All (· < len) := by
  induction l with
  | nil => simp [sumAddrsLogged]
  | cons i rest ih =>
    obtain ⟨hi, hrest⟩ := List.forall_mem_cons.mp hl
    simp only [sumAddrsLogged, Logged.all_bind, all_read32, Logged.all_pure, and_true]
    exact ⟨hi.1, hi.2, ih hrest⟩

/-- The pseudo header is before the segment. -/
theorem all_checksumTcpudpLogged (m : Memory) {buffer size src dst ip_len : ℕ} (proto : UInt8)
    (n : UInt16) (hsrc : src + 4 * ip_len ≤ len) (hdst : dst + 4 * ip_len ≤ len) :
    (checksumTcpudpLogged m buffer size src dst ip_len proto n).All (· < len)
      ↔ size = 0 ∨ buffer + size ≤ len := by
  have haddrs : (sumAddrsLogged m src dst (List.range ip_len)).All (· < len) := by
    refine all_sumAddrsLogged m (fun i hi => ?_)
    have hi := List.mem_range.mp hi
    omega
  simp only [checksumTcpudpLogged, checksumLogged, Logged.all_bind, Logged.all_pure, and_true,
    all_sumWordsLogged, haddrs, true_and]

theorem all_checksumIpv4Logged (pkt : Packet) :
    (checksumIpv4Logged pkt).All (· < len) ↔ 34 ≤ len := by
  simp only [checksumIpv4Logged, checksumLogged, Logged.all_bind, Logged.all_pure, all_write16,
    all_sumWordsLogged, sizeofEthhdr, sizeofIphdr, and_true]
  omega

/-- The bytes of the segment that the transport checksum walks over. -/
def segmentSize (is_ipv4 : Bool) (m : Memory) : ℕ :=
  if is_ipv4 then (totalLength m + 65516) % 65536 else payloadLength m

/-- The size of the segment of an IPv4 packet, as `checksum_tcp` takes it. -/
theorem toNat_segmentSize (m : Memory) :
    (htons (load16 m 16) - 20).toNat = segmentSize true m := by
  have htotal : (htons (load16 m 16)).toNat = totalLength m := toNat_htons_load16 m 16
  rw [UInt16.toNat_sub, htotal, Nat.add_comm, show UInt16.toNat 20 = 20 from rfl, segmentSize,
    if_pos rfl, show 2 ^ 16 - 20 = 65516 from rfl, show 2 ^ 16 = 65536 from rfl]

/-- **What the transport checksum touches**: the segment, as long as the header says, and the
checksum in it. -/
theorem all_checksumTransportLogged {check : ℕ} {pkt : Packet} (hnet : pkt.network_header = 14)
    (hh : packetIsIpv4 pkt = true ∧ pkt.transport_header = 34
      ∨ packetIsIpv4 pkt = false ∧ pkt.transport_header = 54) :
    (checksumTransportLogged check pkt).All (· < len)
      ↔ pkt.transport_header + max (check + 2) (segmentSize (packetIsIpv4 pkt) pkt.data) ≤ len := by
  have hagree : Agree (store16 pkt.data (pkt.transport_header + check) 0) pkt.data 0
      pkt.transport_header := agree_storeBytes _ _ (Or.inl (by omega))
  by_cases hcheck : pkt.transport_header + (check + 2) ≤ len
  · obtain ⟨h4, hth⟩ | ⟨h6, hth⟩ := hh
    · rw [hth] at hagree hcheck ⊢
      have hlen := (hagree.sub (p := 16) (k := 2) (by decide) (by decide)).load16
      simp only [checksumTransportLogged, Logged.all_bind, Logged.all_pure, all_write16, h4, if_true,
        all_read16, all_read8, value_write16, value_read16, hnet, hth, and_true]
      simp only [Nat.reduceAdd, hlen, toNat_segmentSize]
      rw [all_checksumTcpudpLogged _ _ _ (by omega) (by omega)]
      omega
    · rw [hth] at hagree hcheck ⊢
      have hlen := (hagree.sub (p := 18) (k := 2) (by decide) (by decide)).load16
      have hsize : (htons (load16 pkt.data 18)).toNat = segmentSize false pkt.data :=
        toNat_htons_load16 _ _
      simp only [checksumTransportLogged, Logged.all_bind, Logged.all_pure, all_write16, h6,
        Bool.false_eq_true, if_false, all_read16, all_read8, value_write16, value_read16, hnet, hth,
        and_true]
      simp only [Nat.reduceAdd, hlen, hsize]
      rw [all_checksumTcpudpLogged _ _ _ (by omega) (by omega)]
      omega
  · -- the checksum itself does not fit
    simp only [checksumTransportLogged, Logged.all_bind, all_write16]
    omega

end Checksums

/-! ### By the rewriting -/

section Rewriting

variable {len : ℕ}

/-- What rewriting the ends touches, if it fits the later of the two. -/
theorem all_rewriteEndsLogged {α : Type} {write : Memory → ℕ → α → Logged ℕ Memory} {n : ℕ}
    (hw : ∀ m off a, (write m off a).All (· < len) ↔ off + n ≤ len) {source dest : ℕ}
    (hs : source + n ≤ len) (hd : dest + n ≤ len) (ends : Ends α) (fullnat is_client : Bool)
    (m : Memory) :
    (rewriteEndsLogged write source dest ends fullnat is_client m).All (· < len) := by
  cases is_client <;> cases fullnat <;> simp [rewriteEndsLogged, hw, hs, hd]

theorem segmentSize_congr {is_ipv4 : Bool} {m m' : Memory} (h : Agree m m' 16 4) :
    segmentSize is_ipv4 m = segmentSize is_ipv4 m' := by
  have h16 : m 16 = m' 16 := h 0 (by decide)
  have h17 : m 17 = m' 17 := h 1 (by decide)
  have h18 : m 18 = m' 18 := h 2 (by decide)
  have h19 : m 19 = m' 19 := h 3 (by decide)
  simp only [segmentSize, totalLength, payloadLength, h16, h17, h18, h19]

/-- The bytes of a transport header up to the end of its checksum. -/
def checkEnd (proto : UInt8) : ℕ := if proto = protoTcp then 18 else 8

theorem checkEnd_eq (pkt : Packet) :
    checkEnd pkt.protocol_ip = if packetIsTcp pkt then 16 + 2 else 6 + 2 := by
  unfold checkEnd packetIsTcp
  by_cases htcp : pkt.protocol_ip = protoTcp
  · rw [if_pos htcp, if_pos (beq_iff_eq.mpr htcp)]
  · rw [if_neg htcp, if_neg (fun h => htcp (beq_iff_eq.mp h))]

/-- What the checksum of the protocol of a packet touches. -/
theorem all_checksumTcpOrUdpLogged {pkt : Packet} (hnet : pkt.network_header = 14)
    (hh : packetIsIpv4 pkt = true ∧ pkt.transport_header = 34
      ∨ packetIsIpv4 pkt = false ∧ pkt.transport_header = 54) :
    (if packetIsTcp pkt then checksumTcpLogged pkt else checksumUdpLogged pkt).All (· < len)
      ↔ pkt.transport_header + max (checkEnd pkt.protocol_ip)
        (segmentSize (packetIsIpv4 pkt) pkt.data) ≤ len := by
  rw [checkEnd_eq]
  cases packetIsTcp pkt with
  | true => exact all_checksumTransportLogged hnet hh
  | false => exact all_checksumTransportLogged hnet hh

theorem all_processSetChecksumLogged {pkt : Packet} (hnet : pkt.network_header = 14)
    (hh : packetIsIpv4 pkt = true ∧ pkt.transport_header = 34
      ∨ packetIsIpv4 pkt = false ∧ pkt.transport_header = 54) :
    (processSetChecksumLogged pkt).All (· < len)
      ↔ pkt.transport_header + max (checkEnd pkt.protocol_ip)
        (segmentSize (packetIsIpv4 pkt) pkt.data) ≤ len := by
  obtain ⟨h4, hth⟩ | ⟨h6, hth⟩ := id hh
  · have hsize : segmentSize (packetIsIpv4 pkt) (checksumIpv4 pkt).data
        = segmentSize (packetIsIpv4 pkt) pkt.data := by
      obtain ⟨b, hb⟩ := checksumIpv4_eq pkt
      rw [hb]
      exact segmentSize_congr (agree_storeBytes _ _ (Or.inl (by decide)))
    have htransport : (if packetIsTcp (checksumIpv4 pkt) then checksumTcpLogged (checksumIpv4 pkt)
          else checksumUdpLogged (checksumIpv4 pkt)).All (· < len)
        ↔ pkt.transport_header + max (checkEnd pkt.protocol_ip)
          (segmentSize (packetIsIpv4 pkt) pkt.data) ≤ len := by
      rw [← hsize]
      exact all_checksumTcpOrUdpLogged hnet hh
    -- the header checksum stands before the segment
    have hhead : pkt.transport_header + max (checkEnd pkt.protocol_ip)
        (segmentSize (packetIsIpv4 pkt) pkt.data) ≤ len → 34 ≤ len := fun h =>
      hth.ge.trans ((Nat.le_add_right _ _).trans h)
    simp only [processSetChecksumLogged, if_pos h4, Logged.all_bind, all_checksumIpv4Logged,
      value_checksumIpv4Logged, htransport]
    exact and_iff_right_of_imp hhead
  · simp only [processSetChecksumLogged, h6, Bool.false_eq_true, if_false, Logged.all_bind,
      Logged.all_pure, Logged.value_pure, true_and]
    exact h6 ▸ all_checksumTcpOrUdpLogged hnet hh

theorem all_processSetPortLogged (t : Tables) (c : Connection) {pkt : Packet} (is_client : Bool)
    (h : pkt.transport_header + 4 ≤ len) :
    (processSetPortLogged t c pkt is_client).All (· < len) := by
  have hends : (rewriteEndsLogged write16 pkt.transport_header (pkt.transport_header + 2)
      (connectionPorts t c) (connectionIsFullnat c) is_client pkt.data).All (· < len) :=
    all_rewriteEndsLogged all_write16 (by omega) (by omega) _ _ _ _
  unfold processSetPortLogged processSetTcpPortLogged processSetUdpPortLogged
  simp only [Logged.all_bind, Logged.all_pure, and_true, hends, ite_self]

theorem all_processSetIpLogged (t : Tables) (c : Connection) {pkt : Packet} (is_client : Bool)
    (hnet : pkt.network_header = 14)
    (hh : packetIsIpv4 pkt = true ∧ pkt.transport_header = 34
      ∨ packetIsIpv4 pkt = false ∧ pkt.transport_header = 54)
    (h : pkt.transport_header ≤ len) :
    (processSetIpLogged t c pkt is_client).All (· < len) := by
  unfold processSetIpLogged processSetIpv4Logged processSetIpv6Logged
  obtain ⟨h4, hth⟩ | ⟨h6, hth⟩ := hh
  · simp only [if_pos h4, Logged.all_bind, Logged.all_pure, and_true]
    exact all_rewriteEndsLogged all_writeAddr4 (by omega) (by omega) _ _ _ _
  · simp only [h6, Bool.false_eq_true, if_false, Logged.all_bind, Logged.all_pure, and_true]
    exact all_rewriteEndsLogged all_writeAddr6 (by omega) (by omega) _ _ _ _

theorem all_processSetMacLogged (t : Tables) (c : Connection) {pkt : Packet} (is_client : Bool)
    (hmac : pkt.mac_header = 0) (h : 12 ≤ len) :
    (processSetMacLogged t c pkt is_client).All (· < len) := by
  simp only [processSetMacLogged, Logged.all_bind, all_writeMac, Logged.all_pure, and_true, hmac]
  omega

/-- The packet that `process_connection` sets the checksums of. -/
theorem value_beforeChecksums (t : Tables) (c : Connection) (pkt : Packet) (is_client : Bool) :
    { processSetMac t c (processSetIp t c (processSetPort t c pkt is_client) is_client) is_client with
        adapter_idx := c.adapterIdx is_client }
      = { pkt with
        data := macStage t c pkt is_client (ipStage t c pkt is_client
          (portStage t c pkt is_client pkt.data))
        adapter_idx := c.adapterIdx is_client } := by
  rw [processSetPort_eq, processSetIp_eq]
  rfl

/-- **What `process_connection` touches of a packet.** -/
theorem all_processConnectionLogged (t : Tables) (cp : ℕ) {pkt : Packet} (hf : pkt.IpFields)
    (is_client : Bool) :
    (processConnectionLogged t cp pkt is_client).All (· < len)
      ↔ pkt.transport_header + max (checkEnd pkt.protocol_ip)
        (segmentSize (packetIsIpv4 pkt) pkt.data) ≤ len := by
  set c := t.conn cp with hc
  have hnet := hf.network_header
  have hmac := hf.mac_header
  set p : Packet := { pkt with
    data := macStage t c pkt is_client (ipStage t c pkt is_client
      (portStage t c pkt is_client pkt.data))
    adapter_idx := c.adapterIdx is_client } with hp
  -- the lengths in the headers are not rewritten
  have hlengths : Agree p.data pkt.data 16 4 := by
    intro i hi
    have hip : ¬ if packetIsIpv4 pkt then 24 ≤ 16 + i ∧ 16 + i < 34
        else 22 ≤ 16 + i ∧ 16 + i < 54 := by
      split <;> omega
    have hth : 16 + i + 1 ≤ pkt.transport_header := by
      obtain ⟨-, h⟩ | ⟨-, h⟩ := hf.headers <;> omega
    exact (((agree_macStage hf _ (by omega)).trans (agree_ipStage_byte hf _ hip)).trans
      (agree_portStage _ hth)) 0 Nat.zero_lt_one
  have hcheck : (processSetChecksumLogged p).All (· < len)
      ↔ pkt.transport_header + max (checkEnd pkt.protocol_ip)
        (segmentSize (packetIsIpv4 pkt) pkt.data) ≤ len := by
    rw [← segmentSize_congr hlengths]
    exact all_processSetChecksumLogged hnet hf.headers
  have hchecksums := value_beforeChecksums t c pkt is_client
  have hmacvalue : ∀ q, (processSetMacLogged t c q is_client).value
      = processSetMac t c q is_client := fun _ => rfl
  have hend : 8 ≤ checkEnd pkt.protocol_ip := by
    unfold checkEnd
    split <;> decide
  simp only [processConnectionLogged, Logged.all_bind, Logged.all_pure, and_true,
    value_processSetPortLogged, value_processSetIpLogged, hmacvalue, ← hc, hchecksums, ← hp, hcheck]
  refine ⟨fun h => h.2.2.2, fun h => ⟨?_, ?_, ?_, h⟩⟩
  · exact all_processSetPortLogged t c is_client (by omega)
  · rw [processSetPort_eq]
    refine all_processSetIpLogged t c is_client hnet hf.headers ?_
    show pkt.transport_header ≤ len
    omega
  · rw [processSetPort_eq, processSetIp_eq]
    refine all_processSetMacLogged t c is_client hmac ?_
    obtain ⟨-, hth⟩ | ⟨-, hth⟩ := hf.headers <;> omega

end Rewriting

/-! ## Inside the frame -/

/-- **A frame is read and written inside.** The parser touches no byte past the length that was
received, and nor does `process_connection`, where `process_ip_packet` comes to call it for the
packet the parser made of the frame. -/
structure StaysInside (malloc : Option ℕ) (t : Tables) (garbage : UInt16 × UInt16)
    (raw : Packet) : Prop where
  /-- The parser stays inside. -/
  parser : (packetRecvInitLogged garbage raw).All (· < raw.len.toNat)
  /-- The rewriting and the checksums stay inside. -/
  process : ∀ {pkt : Packet} {cp : ℕ} {is_client : Bool} {t' : Tables}, KeptAsIp garbage raw pkt →
    processFindConnection malloc t pkt = (.connection cp is_client, t') →
      (processConnectionLogged t' cp pkt is_client).All (· < raw.len.toNat)

/-- A connection is there for a packet, or is made for it. -/
def HasConnection (malloc : Option ℕ) (t : Tables) (pkt : Packet) : Prop :=
  ∃ cp is_client t', processFindConnection malloc t pkt = (.connection cp is_client, t')

/-- **One past the last byte that `process_connection` touches of a frame**: the end of what the
transport checksum is stored to, or of the segment, as long as the IP header says. -/
def connectionReach (m : Memory) : ℕ :=
  (readHeader m).transport_header + max (checkEnd (readHeader m).protocol)
    (segmentSize (ipVersion m = 4) m)

/-- What `process_connection` touches of a packet kept as IP. -/
theorem KeptAsIp.all_touched {garbage : UInt16 × UInt16} {raw pkt : Packet}
    (h : KeptAsIp garbage raw pkt) (t : Tables) (cp : ℕ) (is_client : Bool) (len : ℕ) :
    (processConnectionLogged t cp pkt is_client).All (· < len)
      ↔ connectionReach raw.data ≤ len := by
  obtain ⟨heth, hk, hheader, -⟩ := h.spec
  have hf : pkt.IpFields := PacketAccepted.ipFields ⟨garbage, raw, h.1⟩ h.2
  have hdata : pkt.data = raw.data := by
    have hkeeps := (packetRecvInit_keeps garbage raw).1
    rwa [h.1] at hkeeps
  have hth : pkt.transport_header = (readHeader raw.data).transport_header :=
    congrArg Header.transport_header hheader
  have hproto : pkt.protocol_ip = (readHeader raw.data).protocol := congrArg Header.protocol hheader
  have hv : packetIsIpv4 pkt = decide (ipVersion raw.data = 4) := by
    have hfamily : pkt.family = (readHeader raw.data).family := congrArg Header.family hheader
    rw [packetIsIpv4, hfamily, readHeader]
    by_cases hv : ipVersion raw.data = 4
    · rw [if_pos hv, decide_eq_true hv]
      rfl
    · rw [if_neg hv, decide_eq_false hv]
      rfl
  rw [all_processConnectionLogged t cp hf, connectionReach, hth, hproto, hv, hdata]

/-- **A frame is read and written inside exactly if it is long enough**: as long as the headers
the parser reads and, if it is kept as IP and there is a connection for it, as the segment that
the IP header announces. -/
theorem staysInside_iff (malloc : Option ℕ) (t : Tables) (garbage : UInt16 × UInt16)
    (raw : Packet) :
    StaysInside malloc t garbage raw
      ↔ parserReach raw.data ≤ raw.len.toNat
        ∧ ∀ pkt, KeptAsIp garbage raw pkt → HasConnection malloc t pkt →
          connectionReach raw.data ≤ raw.len.toNat := by
  constructor
  · intro h
    refine ⟨(all_packetRecvInitLogged garbage raw).mp h.parser, fun pkt hkept hfound => ?_⟩
    obtain ⟨cp, is_client, t', hfind⟩ := hfound
    exact (hkept.all_touched t' cp is_client _).mp (h.process hkept hfind)
  · rintro ⟨hparser, hprocess⟩
    refine ⟨(all_packetRecvInitLogged garbage raw).mpr hparser, ?_⟩
    intro pkt cp is_client t' hkept hfind
    exact (hkept.all_touched t' cp is_client _).mpr
      (hprocess pkt hkept ⟨cp, is_client, t', hfind⟩)

/-- A frame of 60 bytes with a TCP segment from `10.0.0.3` port 1157 to port 80 of `10.0.0.1`,
whose total length is zero. -/
def zeroTotalLength : Packet :=
  Packet.received 0 0 ((ipv4Frame 6 [10, 0, 0, 3] [10, 0, 0, 1] [4, 133] [0, 80] 2).set 17 0
    ++ [0, 0, 0, 0, 0, 0])

/-- **A total length of zero** is kept, and with a connection the checksum walks nearly 64 KB
past a frame of 60 bytes. -/
theorem zero_length_walks_past :
    KeptAsIp (0, 0) zeroTotalLength (packetRecvInit (0, 0) zeroTotalLength).2
      ∧ zeroTotalLength.len = 60
      ∧ ∃ t', processFindConnection none (oneClient 1) (packetRecvInit (0, 0) zeroTotalLength).2
          = (.connection 0x1fff80 true, t')
        ∧ ¬ StaysInside none (oneClient 1) (0, 0) zeroTotalLength
        ∧ ∃ i ∈ (processConnectionLogged t' 0x1fff80
            (packetRecvInit (0, 0) zeroTotalLength).2 true).log, 65549 ≤ i := by
  have hkept : KeptAsIp (0, 0) zeroTotalLength (packetRecvInit (0, 0) zeroTotalLength).2 :=
    ⟨Prod.ext (by decide) rfl, by decide⟩
  have hfind : (processFindConnection none (oneClient 1)
      (packetRecvInit (0, 0) zeroTotalLength).2).1 = .connection 0x1fff80 true := by
    decide +kernel
  have hreach : connectionReach zeroTotalLength.data = 65550 := by decide +kernel
  refine ⟨hkept, by decide, _, Prod.ext hfind rfl, fun h => ?_, ?_⟩
  · have htouched := (hkept.all_touched _ 0x1fff80 true _).mp (h.process hkept (Prod.ext hfind rfl))
    rw [hreach] at htouched
    exact absurd htouched (by decide)
  · by_contra hnone
    push Not at hnone
    have htouched := (hkept.all_touched _ 0x1fff80 true 65549).mp hnone
    rw [hreach] at htouched
    exact absurd htouched (by decide)
