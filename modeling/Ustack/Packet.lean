import Ustack.Bytes
import Ustack.Hashtable

/-!
# Packets and the parser

`struct packet` and the parsing half of `src/packet.c`. A packet is its frame,
one block of memory, and the fields the parser sets beside it; header offsets
are offsets into the frame.

The parser reads the same places whatever the frame says about them: the
transport header stands twenty bytes after an IPv4 header, the header-length
nibble is not looked at, and a frame whose EtherType is IPv4's with another
version is read as IPv6. For the two ICMP protocols the ports are never
assigned, and what the uninitialised locals held is a parameter
(`packetInitPort`).

`PacketAccepted` is what the rest of the program may assume of a packet it is
given: it came out of the parser with success.
-/

/-- A MAC address. -/
abbrev Mac := Fin 6 → UInt8

/-- The MAC address at an offset of a frame. -/
def loadMac (m : Memory) (off : ℕ) : Mac := fun i => m (off + i)

/-- `memcpy` of a MAC address into a frame. -/
def storeMac (m : Memory) (off : ℕ) (mac : Mac) : Memory :=
  storeBytes m off 6 (fun i => if h : i < 6 then mac ⟨i, h⟩ else 0)

@[simp] theorem loadMac_storeMac (m : Memory) (off : ℕ) (mac : Mac) :
    loadMac (storeMac m off mac) off = mac := by
  funext i
  rw [loadMac, storeMac, storeBytes_add i.isLt, dif_pos i.isLt]

/-- `enum lfq_state`: why a packet is in a queue between processes. -/
inductive LfqState
  /-- `LFQ_START`: received from the net. -/
  | start
  /-- `LFQ_DISPATCH`: sent to another process to be processed. -/
  | dispatch
  /-- `LFQ_RECLAIM`: returned to its owner by another process. -/
  | reclaim
  /-- `LFQ_XMIT`: sent to another process to be transmitted. -/
  | xmit
  /-- `LFQ_END`: not active. -/
  | end_
deriving DecidableEq

/-- What a handler says of a packet: whether the caller is to free it. -/
inductive Verdict
  /-- `PACKET_ACCEPT`: nobody wanted it. -/
  | accept
  /-- `PACKET_DROP`: it is to be dropped. -/
  | drop
  /-- `PACKET_STOLEN`: it is the driver's now. -/
  | stolen
deriving DecidableEq

/-- `struct packet`, with its frame. -/
structure Packet where
  /-- The physical address of the frame, which names the packet. -/
  phys : ℕ
  /-- The length of the frame. -/
  len : UInt16
  /-- The EtherType, as loaded. -/
  protocol_eth : UInt16
  /-- The protocol of the IP header. -/
  protocol_ip : UInt8
  /-- `AF_INET` or `AF_INET6`. -/
  family : ℕ
  /-- The adapter the packet came in on, then the one it leaves by. -/
  adapter_idx : UInt8
  /-- The state of the packet in a queue between processes. -/
  lfq_state : LfqState
  /-- The process the packet belongs to. -/
  id : ℕ
  /-- The source address and port. -/
  saddr : NetAddress
  /-- The destination address and port. -/
  daddr : NetAddress
  /-- The offset of the transport header. -/
  transport_header : ℕ
  /-- The offset of the network header. -/
  network_header : ℕ
  /-- The offset of the Ethernet header. -/
  mac_header : ℕ
  /-- The frame. -/
  data : Memory

/-- `PACKET_IS_IP`: both versions of IP. -/
def packetIsIp (pkt : Packet) : Bool := pkt.protocol_eth == protoIp

/-- `PACKET_IS_ARP`. -/
def packetIsArp (pkt : Packet) : Bool := pkt.protocol_eth == protoArp

/-- `PACKET_IS_IPV4`. -/
def packetIsIpv4 (pkt : Packet) : Bool := pkt.family == afInet

/-- `PACKET_IS_TCP`. -/
def packetIsTcp (pkt : Packet) : Bool := pkt.protocol_ip == protoTcp

/-- `packet_set_lfq_state`. -/
def packetSetLfqState (pkt : Packet) (s : LfqState) : Packet := { pkt with lfq_state := s }

/-- A packet with its frame replaced. -/
def Packet.setData (pkt : Packet) (data : Memory) : Packet := { pkt with data := data }

/-! ## The parser -/

/-- The size of `struct ethhdr`. -/
def sizeofEthhdr : ℕ := 14

/-- The size of `struct iphdr`. -/
def sizeofIphdr : ℕ := 20

/-- The size of `struct ipv6hdr`. -/
def sizeofIpv6hdr : ℕ := 40

/-- `__packet_init_port`: the ports of a TCP or UDP header. `garbage` is what
the locals `sport` and `dport` hold when no branch assigns them. -/
def packetInitPort (garbage : UInt16 × UInt16) (pkt : Packet) (header : ℕ)
    (proto : UInt8) : Bool × Packet :=
  let set (sport dport : UInt16) : Bool × Packet :=
    (true, { pkt with
      saddr := { pkt.saddr with port := sport }
      daddr := { pkt.daddr with port := dport } })
  if proto = protoTcp then set (load16 pkt.data header) (load16 pkt.data (header + 2))
  else if proto = protoUdp then
    set (load16 pkt.data header) (load16 pkt.data (header + 2))
  else if proto = protoIcmp then set garbage.1 garbage.2
  else if proto = protoIcmpv6 then set garbage.1 garbage.2
  else (false, pkt)

/-- `packet_recv_init_arp`. -/
def packetRecvInitArp (pkt : Packet) : Bool × Packet :=
  let ap := sizeofEthhdr
  (true, { pkt with
    family := afInet
    protocol_ip := protoNull
    saddr := { pkt.saddr with
      ip := ipAddressInitV4 pkt.saddr.ip (load32 pkt.data (ap + 14)) }
    daddr := { pkt.daddr with
      ip := ipAddressInitV4 pkt.daddr.ip (load32 pkt.data (ap + 24)) }
    transport_header := 0
    network_header := ap
    mac_header := 0 })

/-- `packet_recv_init_ipv4`. -/
def packetRecvInitIpv4 (garbage : UInt16 × UInt16) (pkt : Packet) : Bool × Packet :=
  let ip := sizeofEthhdr
  let protocol := pkt.data (ip + 9)
  let pkt := { pkt with family := afInet, protocol_ip := protocol }
  let header := ip + sizeofIphdr
  let (ret, pkt) := packetInitPort garbage pkt header protocol
  if ret = false then (false, pkt)
  else (true, { pkt with
    saddr := { pkt.saddr with
      ip := ipAddressInitV4 pkt.saddr.ip (load32 pkt.data (ip + 12)) }
    daddr := { pkt.daddr with
      ip := ipAddressInitV4 pkt.daddr.ip (load32 pkt.data (ip + 16)) }
    transport_header := header
    network_header := ip
    mac_header := 0 })

/-- An IPv6 address of the frame. -/
def loadAddr6 (m : Memory) (off : ℕ) : IpAddress where
  family := afInet6
  ip6_0 := load32 m off
  ip6_1 := load32 m (off + 4)
  ip6_2 := load32 m (off + 8)
  ip6_3 := load32 m (off + 12)

/-- `packet_recv_init_ipv6`. -/
def packetRecvInitIpv6 (garbage : UInt16 × UInt16) (pkt : Packet) : Bool × Packet :=
  let ip6 := sizeofEthhdr
  let pkt := { pkt with family := afInet6, protocol_ip := pkt.data (ip6 + 6) }
  let header := ip6 + sizeofIpv6hdr
  let (ret, pkt) := packetInitPort garbage pkt header pkt.protocol_ip
  if ret = false then (false, pkt)
  else (true, { pkt with
    saddr := { pkt.saddr with ip := loadAddr6 pkt.data (ip6 + 8) }
    daddr := { pkt.daddr with ip := loadAddr6 pkt.data (ip6 + 24) }
    transport_header := header
    network_header := ip6
    mac_header := 0 })

/-- `__packet_recv_init`: success, and the packet with its fields set. -/
def packetRecvInit (garbage : UInt16 × UInt16) (pkt : Packet) : Bool × Packet :=
  let pkt := { pkt with lfq_state := .start, protocol_eth := load16 pkt.data 12 }
  if packetIsIp pkt then
    -- the version is the high nibble of the first byte of the IP header
    if pkt.data sizeofEthhdr / 16 = 4 then packetRecvInitIpv4 garbage pkt
    else packetRecvInitIpv6 garbage pkt
  else if packetIsArp pkt then packetRecvInitArp pkt
  else (false, pkt)

/-- **What the parser lets through.** -/
def PacketAccepted (pkt : Packet) : Prop :=
  ∃ garbage raw, packetRecvInit garbage raw = (true, pkt)

/-! ## What the fields of an accepted packet are -/

/-- The fields of an accepted IP packet, all read off its frame. -/
structure Packet.IpFields (pkt : Packet) : Prop where
  /-- The Ethernet header starts the frame. -/
  mac_header : pkt.mac_header = 0
  /-- The network header follows it. -/
  network_header : pkt.network_header = 14
  /-- IPv4: the addresses are words of the header, the transport header stands
  at its end. -/
  ipv4 : pkt.family = afInet → pkt.transport_header = 34
    ∧ pkt.saddr.ip.family = afInet ∧ pkt.saddr.ip.ip4 = load32 pkt.data 26
    ∧ pkt.daddr.ip.family = afInet ∧ pkt.daddr.ip.ip4 = load32 pkt.data 30
  /-- Not IPv4: the same with the sixteen bytes of IPv6 addresses. -/
  ipv6 : pkt.family ≠ afInet → pkt.family = afInet6 ∧ pkt.transport_header = 54
    ∧ pkt.saddr.ip = loadAddr6 pkt.data 22 ∧ pkt.daddr.ip = loadAddr6 pkt.data 38
  /-- The ports of TCP and UDP are the first words of the transport header. -/
  ports : pkt.protocol_ip = protoTcp ∨ pkt.protocol_ip = protoUdp →
    pkt.saddr.port = load16 pkt.data pkt.transport_header
      ∧ pkt.daddr.port = load16 pkt.data (pkt.transport_header + 2)

/-- What the port step leaves alone, and what it sets. -/
theorem packetInitPort_spec {garbage : UInt16 × UInt16} {pkt out : Packet}
    {header : ℕ} {proto : UInt8}
    (h : packetInitPort garbage pkt header proto = (true, out)) :
    ∃ sport dport, out = { pkt with
        saddr := { pkt.saddr with port := sport }
        daddr := { pkt.daddr with port := dport } }
      ∧ (proto = protoTcp ∨ proto = protoUdp →
        sport = load16 pkt.data header ∧ dport = load16 pkt.data (header + 2)) := by
  unfold packetInitPort at h
  dsimp only at h
  split at h
  · exact ⟨_, _, (Prod.ext_iff.mp h).2.symm, fun _ => ⟨rfl, rfl⟩⟩
  rename_i htcp
  split at h
  · exact ⟨_, _, (Prod.ext_iff.mp h).2.symm, fun _ => ⟨rfl, rfl⟩⟩
  rename_i hudp
  have hno {P : Prop} : proto = protoTcp ∨ proto = protoUdp → P :=
    fun hp => absurd hp (not_or.mpr ⟨htcp, hudp⟩)
  split at h
  · exact ⟨_, _, (Prod.ext_iff.mp h).2.symm, hno⟩
  split at h
  · exact ⟨_, _, (Prod.ext_iff.mp h).2.symm, hno⟩
  · exact absurd (Prod.ext_iff.mp h).1 Bool.false_ne_true

theorem ipFields_ipv4 {garbage : UInt16 × UInt16} {raw pkt : Packet}
    (h : packetRecvInitIpv4 garbage raw = (true, pkt)) : pkt.IpFields := by
  unfold packetRecvInitIpv4 at h
  dsimp only at h
  generalize hp : packetInitPort garbage _ _ _ = res at h
  obtain ⟨ret, mid⟩ := res
  cases ret with
  | false => exact absurd (Prod.ext_iff.mp h).1 Bool.false_ne_true
  | true =>
    obtain ⟨sport, dport, rfl, hports⟩ := packetInitPort_spec hp
    simp only [Bool.true_eq_false, if_false, Prod.mk.injEq, true_and] at h
    subst h
    exact ⟨rfl, rfl, fun _ => ⟨rfl, rfl, rfl, rfl, rfl⟩, fun h6 => absurd rfl h6, hports⟩

theorem ipFields_ipv6 {garbage : UInt16 × UInt16} {raw pkt : Packet}
    (h : packetRecvInitIpv6 garbage raw = (true, pkt)) : pkt.IpFields := by
  unfold packetRecvInitIpv6 at h
  dsimp only at h
  generalize hp : packetInitPort garbage _ _ _ = res at h
  obtain ⟨ret, mid⟩ := res
  cases ret with
  | false => exact absurd (Prod.ext_iff.mp h).1 Bool.false_ne_true
  | true =>
    obtain ⟨sport, dport, rfl, hports⟩ := packetInitPort_spec hp
    simp only [Bool.true_eq_false, if_false, Prod.mk.injEq, true_and] at h
    subst h
    have h64 : afInet6 ≠ afInet := by decide
    exact ⟨rfl, rfl, fun h4 => absurd h4 h64, fun _ => ⟨rfl, rfl, rfl, rfl⟩, hports⟩

/-- The parser keeps the frame, the EtherType it loaded and the identity of the
packet. -/
theorem packetRecvInit_keeps (garbage : UInt16 × UInt16) (raw : Packet) :
    (packetRecvInit garbage raw).2.data = raw.data
      ∧ (packetRecvInit garbage raw).2.protocol_eth = load16 raw.data 12
      ∧ (packetRecvInit garbage raw).2.phys = raw.phys
      ∧ (packetRecvInit garbage raw).2.id = raw.id
      ∧ (packetRecvInit garbage raw).2.adapter_idx = raw.adapter_idx
      ∧ (packetRecvInit garbage raw).2.lfq_state = .start := by
  have hport : ∀ (p : Packet) (hd : ℕ) (pr : UInt8),
      (packetInitPort garbage p hd pr).2.data = p.data
        ∧ (packetInitPort garbage p hd pr).2.protocol_eth = p.protocol_eth
        ∧ (packetInitPort garbage p hd pr).2.phys = p.phys
        ∧ (packetInitPort garbage p hd pr).2.id = p.id
        ∧ (packetInitPort garbage p hd pr).2.adapter_idx = p.adapter_idx
        ∧ (packetInitPort garbage p hd pr).2.lfq_state = p.lfq_state := by
    intro p hd pr
    unfold packetInitPort
    dsimp only
    split_ifs <;> exact ⟨rfl, rfl, rfl, rfl, rfl, rfl⟩
  unfold packetRecvInit
  dsimp only
  split_ifs
  · unfold packetRecvInitIpv4
    dsimp only
    split <;> exact hport _ _ _
  · unfold packetRecvInitIpv6
    dsimp only
    split <;> exact hport _ _ _
  · exact ⟨rfl, rfl, rfl, rfl, rfl, rfl⟩
  · exact ⟨rfl, rfl, rfl, rfl, rfl, rfl⟩

/-- **The fields of an accepted IP packet are read off its frame.** -/
theorem PacketAccepted.ipFields {pkt : Packet} (h : PacketAccepted pkt)
    (hip : packetIsIp pkt = true) : pkt.IpFields := by
  obtain ⟨garbage, raw, hr⟩ := h
  have heth : pkt.protocol_eth = load16 raw.data 12 := by
    have hk := (packetRecvInit_keeps garbage raw).2.1
    rwa [hr] at hk
  rw [packetIsIp, heth] at hip
  unfold packetRecvInit at hr
  simp only [packetIsIp, hip, if_true] at hr
  split at hr
  · exact ipFields_ipv4 hr
  · exact ipFields_ipv6 hr

/-- The two addresses of an accepted IP packet are of the packet's family. -/
theorem Packet.IpFields.family_eq {pkt : Packet} (h : pkt.IpFields) :
    pkt.saddr.ip.family = pkt.family ∧ pkt.daddr.ip.family = pkt.family := by
  by_cases hf : pkt.family = afInet
  · obtain ⟨-, hs, -, hd, -⟩ := h.ipv4 hf
    exact ⟨hs.trans hf.symm, hd.trans hf.symm⟩
  · obtain ⟨h6, -, hs, hd⟩ := h.ipv6 hf
    rw [hs, hd, h6]
    exact ⟨rfl, rfl⟩

/-! ## Received frames -/

/-- An IPv4 frame with a TCP or UDP header is let through. -/
theorem accepted_ipv4 {garbage : UInt16 × UInt16} {raw : Packet}
    (heth : load16 raw.data 12 = protoIp) (hver : raw.data 14 / 16 = 4)
    (hproto : raw.data 23 = protoTcp ∨ raw.data 23 = protoUdp) :
    (packetRecvInit garbage raw).1 = true := by
  have h23 : raw.data (sizeofEthhdr + 9) = raw.data 23 := rfl
  have h14 : raw.data sizeofEthhdr = raw.data 14 := rfl
  simp only [packetRecvInit, packetIsIp, heth, h14, hver, beq_self_eq_true, if_true,
    packetRecvInitIpv4, packetInitPort, h23]
  rcases hproto with h | h
  · simp [h]
  · simp [h, protoUdp, protoTcp]

/-- A packet structure of process `id` holding a received frame, none of its
other fields set. -/
def Packet.received (id : ℕ) (adapter_idx : UInt8) (frame : List UInt8) : Packet where
  phys := 0
  len := UInt16.ofNat frame.length
  protocol_eth := 0
  protocol_ip := 0
  family := 0
  adapter_idx := adapter_idx
  lfq_state := .end_
  id := id
  saddr := default
  daddr := default
  transport_header := 0
  network_header := 0
  mac_header := 0
  data := fun i => frame.getD i 0

/-- An Ethernet, IPv4 and TCP or UDP header: source and destination addresses
and ports are the bytes on the wire, the last two bytes the TCP flags. -/
def ipv4Frame (proto : UInt8) (src dst : List UInt8) (sport dport : List UInt8)
    (flags : UInt8) : List UInt8 :=
  [0, 0, 0, 0, 0, 1, 0, 0, 0, 0, 0, 2, 8, 0]
    ++ [0x45, 0, 0, 40, 0, 0, 0, 0, 64, proto, 0, 0] ++ src ++ dst
    ++ sport ++ dport ++ [0, 0, 0, 0, 0, 0, 0, 0, 0x50, flags, 0, 0, 0, 0, 0, 0]

/-- An Ethernet and IPv6 header and a TCP segment without data, of an EtherType and from an
address `fdxx::3`. -/
def ipv6Frame (eth : List UInt8) (second : UInt8) : List UInt8 :=
  [0, 0, 0, 0, 0, 1, 0, 0, 0, 0, 0, 2] ++ eth
    ++ [0x60, 0, 0, 0, 0, 20, 6, 64] ++ [0xfd, second, 0, 0, 0, 0, 0, 0, 0, 0, 0, 0, 0, 0, 0, 3]
    ++ [0xfd, 0, 0, 0, 0, 0, 0, 0, 0, 0, 0, 0, 0, 0, 0, 1]
    ++ [4, 133, 0, 80, 0, 0, 0, 0, 0, 0, 0, 0, 0x50, 16, 0, 0, 0, 0, 0, 0]

/-- What the parser makes of a received frame. -/
def Packet.parsed (id : ℕ) (adapter_idx : UInt8) (frame : List UInt8) : Packet :=
  (packetRecvInit (0, 0) (Packet.received id adapter_idx frame)).2

theorem accepted_parsed {id : ℕ} {adapter_idx : UInt8} {frame : List UInt8}
    (h : (packetRecvInit (0, 0) (Packet.received id adapter_idx frame)).1 = true) :
    PacketAccepted (Packet.parsed id adapter_idx frame) :=
  ⟨(0, 0), _, Prod.ext h rfl⟩

theorem accepted_ipv4Frame (id : ℕ) (adapter_idx : UInt8) {proto : UInt8}
    (src dst sport dport : List UInt8) (flags : UInt8)
    (h : proto = protoTcp ∨ proto = protoUdp) :
    PacketAccepted
      (Packet.parsed id adapter_idx (ipv4Frame proto src dst sport dport flags)) := by
  refine accepted_parsed (accepted_ipv4 ?_ ?_ ?_)
  · simp [Packet.received, ipv4Frame, load16, protoIp]
  · simp only [Packet.received, ipv4Frame, List.nil_append, List.cons_append,
      List.getD_cons_succ, List.getD_cons_zero]
    decide
  · simpa [Packet.received, ipv4Frame] using h

/-- A TCP packet between two addresses `10.0.0.x`, with its ports as bytes on the
wire and its flags. -/
def tcpPacket (src dst : UInt8) (sport dport : List UInt8) (flags : UInt8) : Packet :=
  Packet.parsed 0 0 (ipv4Frame 6 [10, 0, 0, src] [10, 0, 0, dst] sport dport flags)

theorem accepted_tcpPacket (src dst : UInt8) (sport dport : List UInt8) (flags : UInt8) :
    PacketAccepted (tcpPacket src dst sport dport flags) :=
  accepted_ipv4Frame 0 0 _ _ _ _ _ (Or.inl rfl)

/-- It is a TCP packet. -/
theorem tcpPacket_isTcp (src dst : UInt8) (sport dport : List UInt8) (flags : UInt8) :
    packetIsIp (tcpPacket src dst sport dport flags) = true
      ∧ packetIsTcp (tcpPacket src dst sport dport flags) = true := by
  simp [tcpPacket, Packet.parsed, Packet.received, ipv4Frame, packetRecvInit, packetIsIp,
    load16, protoIp, packetRecvInitIpv4, packetInitPort, sizeofEthhdr, sizeofIphdr,
    packetIsTcp, protoTcp]
