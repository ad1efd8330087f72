import Ustack.Packet

/-!
# The parser and a reference parse

What `packet_init_and_filter` of `src/packet.c` keeps as IP and the fields it gives it,
against a parse of Ethernet, IPv4 and IPv6 as the protocols have them (`refParse`).

The parser gives what the reference gives on IPv4 frames of TCP and UDP without options
(`parsedAsReference_iff`). It knows one EtherType for both versions, so no IPv6 frame is
kept, and a frame of another version under the EtherType of IPv4 is read as IPv6. Options
are not looked at: the ports of a packet with options are words of its options. Of the two
placeholder ICMP protocols the ports are whatever the stack held.

A frame is its bytes below the length the NIC reported. Behind them the buffer holds what
earlier frames left there (`Packet.Holds`), and the parser does not look at the length: of a
frame that ends in its headers the rest of the fields are those of an earlier frame.
-/

/-- `packet_init_and_filter`: the packets kept, and `drop_out` with the others at its end.
With each packet stands what the uninitialised ports hold for it. -/
def packetInitAndFilter :
    List ((UInt16 × UInt16) × Packet) → List Packet → List Packet × List Packet
  | [], drop_out => ([], drop_out)
  | (garbage, pos) :: head, drop_out =>
    let (ret, pkt) := packetRecvInit garbage pos
    if ret then
      let (kept, drop_out) := packetInitAndFilter head drop_out
      (pkt :: kept, drop_out)
    else packetInitAndFilter head (drop_out ++ [pkt])

/-- What is kept is what the parser lets through. -/
theorem mem_packetInitAndFilter {pkt : Packet} (head : List ((UInt16 × UInt16) × Packet))
    (drop_out : List Packet) :
    pkt ∈ (packetInitAndFilter head drop_out).1
      ↔ ∃ p ∈ head, packetRecvInit p.1 p.2 = (true, pkt) := by
  induction head generalizing drop_out with
  | nil => simp [packetInitAndFilter]
  | cons p head ih =>
    obtain ⟨garbage, pos⟩ := p
    simp only [packetInitAndFilter, List.exists_mem_cons_iff]
    generalize packetRecvInit garbage pos = res
    obtain ⟨ret, q⟩ := res
    cases ret with
    | true => simp [ih, eq_comm]
    | false => simp [ih]

/-- The parser keeps the packet it made of a raw one, as IP. -/
def KeptAsIp (garbage : UInt16 × UInt16) (raw pkt : Packet) : Prop :=
  packetRecvInit garbage raw = (true, pkt) ∧ packetIsIp pkt = true

/-! ## The fields -/

/-- An address as far as it is compared: the rest of the union of an IPv4 address zero. -/
def IpAddress.normal (a : IpAddress) : IpAddress :=
  if a.family = afInet then IpAddress.v4 a.ip4 else a

/-- The fields of an IP packet but the ports. -/
structure Header where
  /-- `AF_INET` or `AF_INET6`. -/
  family : ℕ
  /-- The protocol of the IP header. -/
  protocol : UInt8
  /-- The source address. -/
  saddr : IpAddress
  /-- The destination address. -/
  daddr : IpAddress
  /-- The offset of the Ethernet header. -/
  mac_header : ℕ
  /-- The offset of the network header. -/
  network_header : ℕ
  /-- The offset of the transport header. -/
  transport_header : ℕ

/-- The fields the parser set. -/
def Packet.header (pkt : Packet) : Header where
  family := pkt.family
  protocol := pkt.protocol_ip
  saddr := pkt.saddr.ip.normal
  daddr := pkt.daddr.ip.normal
  mac_header := pkt.mac_header
  network_header := pkt.network_header
  transport_header := pkt.transport_header

/-- The ports the parser set. -/
def Packet.ports (pkt : Packet) : UInt16 × UInt16 := (pkt.saddr.port, pkt.daddr.port)

/-! ## The reference parse -/

/-- The version of an IP header. -/
def ipVersion (m : Memory) : UInt8 := m 14 / 16

/-- The length of an IPv4 header, in words. -/
def ihl (m : Memory) : ℕ := (m 14 % 16).toNat

/-- The total length of an IPv4 header. -/
def totalLength (m : Memory) : ℕ := (m 16).toNat * 256 + (m 17).toNat

/-- The payload length of an IPv6 header. -/
def payloadLength (m : Memory) : ℕ := (m 18).toNat * 256 + (m 19).toNat

/-- The header of an IPv4 frame whose transport header stands at an offset. -/
def header4 (m : Memory) (transport_header : ℕ) : Header where
  family := afInet
  protocol := m 23
  saddr := IpAddress.v4 (load32 m 26)
  daddr := IpAddress.v4 (load32 m 30)
  mac_header := 0
  network_header := 14
  transport_header := transport_header

/-- The header of an IPv6 frame. -/
def header6 (m : Memory) : Header where
  family := afInet6
  protocol := m 20
  saddr := loadAddr6 m 22
  daddr := loadAddr6 m 38
  mac_header := 0
  network_header := 14
  transport_header := 54

/-- The protocols with ports. -/
def HasPorts (proto : UInt8) : Prop := proto = protoTcp ∨ proto = protoUdp

instance : DecidablePred HasPorts := fun _ => inferInstanceAs (Decidable (_ ∨ _))

/-- The two words at the start of a transport header. -/
def portsAt (m : Memory) (header : ℕ) : UInt16 × UInt16 := (load16 m header, load16 m (header + 2))

/-- A header with the ports it has. A frame that ends before them has none to give. -/
def Header.withPorts (len : ℕ) (m : Memory) (h : Header) :
    Option (Header × Option (UInt16 × UInt16)) :=
  if HasPorts h.protocol then
    if h.transport_header + 4 ≤ len then some (h, some (portsAt m h.transport_header)) else none
  else some (h, none)

/-- **The reference parse** of a frame of `len` bytes, as IP. It reads nothing behind the
frame: a frame that ends in its headers has no parse. -/
def refParse (len : ℕ) (m : Memory) : Option (Header × Option (UInt16 × UInt16)) :=
  if 34 ≤ len ∧ m 12 = 0x08 ∧ m 13 = 0x00 ∧ ipVersion m = 4 then
    (header4 m (14 + 4 * ihl m)).withPorts len m
  else if 54 ≤ len ∧ m 12 = 0x86 ∧ m 13 = 0xdd ∧ ipVersion m = 6 then
    (header6 m).withPorts len m
  else none

/-- The size of a TCP or UDP header without options. -/
def transportSize (proto : UInt8) : ℕ := if proto = protoTcp then 20 else 8

/-- A well-formed and unfragmented IPv4 frame of TCP or UDP. -/
structure WellFormed4 (len : ℕ) (m : Memory) : Prop where
  /-- Its EtherType. -/
  ethertype : m 12 = 0x08 ∧ m 13 = 0x00
  /-- Its version. -/
  version : ipVersion m = 4
  /-- Its header has its fixed part. -/
  header_length : 5 ≤ ihl m
  /-- It is the first fragment, and no more follow. -/
  unfragmented : m 20 % 64 = 0 ∧ m 21 = 0
  /-- Its protocol. -/
  protocol : HasPorts (m 23)
  /-- The headers fit the packet. -/
  headers : 4 * ihl m + transportSize (m 23) ≤ totalLength m
  /-- The packet fits the frame. -/
  length : 14 + totalLength m ≤ len

/-- A well-formed IPv6 frame of TCP or UDP without extension headers. -/
structure WellFormed6 (len : ℕ) (m : Memory) : Prop where
  /-- Its EtherType. -/
  ethertype : m 12 = 0x86 ∧ m 13 = 0xdd
  /-- Its version. -/
  version : ipVersion m = 6
  /-- Its next header. -/
  protocol : HasPorts (m 20)
  /-- The transport header fits the packet. -/
  headers : transportSize (m 20) ≤ payloadLength m
  /-- The packet fits the frame. -/
  length : 54 + payloadLength m ≤ len

/-- A packet structure holds a frame of `len` bytes. Behind the frame its data area is as
earlier frames left it. -/
structure Packet.Holds (raw : Packet) (len : UInt16) (m : Memory) : Prop where
  /-- The length, as the driver set it. -/
  len_eq : raw.len = len
  /-- The bytes of the frame. -/
  data : Agree raw.data m 0 len.toNat

/-- **The parser parses a frame as the reference does**, whatever stands behind it. -/
structure ParsedAsReference (len : UInt16) (m : Memory) : Prop where
  /-- What it says of a frame it keeps as IP is determined by the bytes of the frame. -/
  determined : ∀ {garbage garbage' : UInt16 × UInt16} {raw raw' pkt pkt' : Packet},
    raw.Holds len m → raw'.Holds len m → KeptAsIp garbage raw pkt → KeptAsIp garbage' raw' pkt' →
      pkt.header = pkt'.header ∧ pkt.ports = pkt'.ports
  /-- It is what the reference says. -/
  reference : ∀ {garbage : UInt16 × UInt16} {raw pkt : Packet},
    raw.Holds len m → KeptAsIp garbage raw pkt →
      ∃ ports, refParse len.toNat m = some (pkt.header, ports) ∧ ∀ p ∈ ports, pkt.ports = p
  /-- It keeps the well-formed frames. -/
  kept : WellFormed4 len.toNat m ∨ WellFormed6 len.toNat m →
    ∀ (garbage : UInt16 × UInt16) (raw : Packet), raw.Holds len m →
      ∃ pkt, KeptAsIp garbage raw pkt

/-! ## What the parser keeps -/

/-- The protocols the parser knows. -/
def Known (proto : UInt8) : Prop := HasPorts proto ∨ proto = protoIcmp ∨ proto = protoIcmpv6

instance : DecidablePred Known := fun _ => inferInstanceAs (Decidable (_ ∨ _ ∨ _))

/-- The ports, as the parser sets them. -/
def portsOr (garbage : UInt16 × UInt16) (m : Memory) (header : ℕ) (proto : UInt8) :
    UInt16 × UInt16 :=
  if HasPorts proto then portsAt m header else garbage

/-- The port step knows the known protocols, and sets the ports. -/
theorem packetInitPort_eq (garbage : UInt16 × UInt16) (pkt : Packet) (header : ℕ)
    (proto : UInt8) :
    packetInitPort garbage pkt header proto
      = if Known proto then
          (true, { pkt with
            saddr := { pkt.saddr with port := (portsOr garbage pkt.data header proto).1 }
            daddr := { pkt.daddr with port := (portsOr garbage pkt.data header proto).2 } })
        else (false, pkt) := by
  unfold packetInitPort
  dsimp only
  split_ifs with htcp hudp hicmp hicmp6 hk hk hk hk hk
  all_goals simp_all [portsOr, portsAt, HasPorts, Known]

/-- The header the parser reads of an IP frame. -/
def readHeader (m : Memory) : Header := if ipVersion m = 4 then header4 m 34 else header6 m

theorem normal_ipAddressInitV4 (garbage : IpAddress) (ip4 : UInt32) :
    (ipAddressInitV4 garbage ip4).normal = IpAddress.v4 ip4 :=
  if_pos rfl

theorem normal_loadAddr6 (m : Memory) (off : ℕ) : (loadAddr6 m off).normal = loadAddr6 m off :=
  if_neg (show ¬ afInet6 = afInet by decide)

theorem packetRecvInitIpv4_spec (garbage : UInt16 × UInt16) (raw : Packet) :
    (packetRecvInitIpv4 garbage raw).1 = decide (Known (raw.data 23))
      ∧ (Known (raw.data 23) →
        (packetRecvInitIpv4 garbage raw).2.header = header4 raw.data 34
        ∧ (packetRecvInitIpv4 garbage raw).2.ports
          = portsOr garbage raw.data 34 (raw.data 23)) := by
  have h23 : raw.data (sizeofEthhdr + 9) = raw.data 23 := rfl
  unfold packetRecvInitIpv4
  dsimp only
  rw [packetInitPort_eq, h23]
  by_cases hk : Known (raw.data 23)
  · rw [if_pos hk]
    refine ⟨(decide_eq_true hk).symm, fun _ => ⟨?_, rfl⟩⟩
    show Header.mk _ _ (IpAddress.normal _) (IpAddress.normal _) _ _ _ = _
    rw [if_neg Bool.true_eq_false.mp, normal_ipAddressInitV4, normal_ipAddressInitV4]
    rfl
  · rw [if_neg hk]
    exact ⟨(decide_eq_false hk).symm, fun h => absurd h hk⟩

theorem packetRecvInitIpv6_spec (garbage : UInt16 × UInt16) (raw : Packet) :
    (packetRecvInitIpv6 garbage raw).1 = decide (Known (raw.data 20))
      ∧ (Known (raw.data 20) →
        (packetRecvInitIpv6 garbage raw).2.header = header6 raw.data
        ∧ (packetRecvInitIpv6 garbage raw).2.ports
          = portsOr garbage raw.data 54 (raw.data 20)) := by
  have h20 : raw.data (sizeofEthhdr + 6) = raw.data 20 := rfl
  unfold packetRecvInitIpv6
  dsimp only
  rw [packetInitPort_eq, h20]
  by_cases hk : Known (raw.data 20)
  · rw [if_pos hk]
    refine ⟨(decide_eq_true hk).symm, fun _ => ⟨?_, rfl⟩⟩
    show Header.mk _ _ (IpAddress.normal _) (IpAddress.normal _) _ _ _ = _
    rw [if_neg Bool.true_eq_false.mp, normal_loadAddr6, normal_loadAddr6]
    rfl
  · rw [if_neg hk]
    exact ⟨(decide_eq_false hk).symm, fun h => absurd h hk⟩

/-- **What the parser does with a frame under the EtherType of IP.** It is kept if its
protocol is known, with the header read off it. -/
theorem packetRecvInit_ip (garbage : UInt16 × UInt16) {raw : Packet}
    (heth : load16 raw.data 12 = protoIp) :
    (packetRecvInit garbage raw).1 = decide (Known (readHeader raw.data).protocol)
      ∧ (Known (readHeader raw.data).protocol →
        (packetRecvInit garbage raw).2.header = readHeader raw.data
        ∧ (packetRecvInit garbage raw).2.ports = portsOr garbage raw.data
          (readHeader raw.data).transport_header (readHeader raw.data).protocol) := by
  have h14 : raw.data sizeofEthhdr / 16 = ipVersion raw.data := rfl
  simp only [packetRecvInit, packetIsIp, heth, beq_self_eq_true, if_true, h14, readHeader]
  split
  · exact packetRecvInitIpv4_spec garbage _
  · exact packetRecvInitIpv6_spec garbage _

/-- A frame of another version than four is IPv6 to the parser. -/
theorem packetRecvInit_ipv6 (garbage : UInt16 × UInt16) {raw : Packet}
    (heth : load16 raw.data 12 = protoIp) (hv : ipVersion raw.data ≠ 4) :
    packetRecvInit garbage raw = packetRecvInitIpv6 garbage
      { raw with lfq_state := .start, protocol_eth := load16 raw.data 12 } := by
  have hip : packetIsIp { raw with lfq_state := .start, protocol_eth := load16 raw.data 12 }
      = true := beq_iff_eq.mpr heth
  unfold packetRecvInit
  dsimp only
  rw [if_pos hip]
  exact if_neg hv

/-- What is kept as IP: its EtherType, and its fields. -/
theorem KeptAsIp.spec {garbage : UInt16 × UInt16} {raw pkt : Packet}
    (h : KeptAsIp garbage raw pkt) :
    load16 raw.data 12 = protoIp ∧ Known (readHeader raw.data).protocol
      ∧ pkt.header = readHeader raw.data
      ∧ pkt.ports = portsOr garbage raw.data (readHeader raw.data).transport_header
        (readHeader raw.data).protocol := by
  obtain ⟨hr, hip⟩ := h
  have heth : load16 raw.data 12 = protoIp := by
    have hk := (packetRecvInit_keeps garbage raw).2.1
    rw [hr] at hk
    exact hk.symm.trans (beq_iff_eq.mp hip)
  obtain ⟨hret, hfields⟩ := packetRecvInit_ip garbage heth
  rw [hr] at hret hfields
  have hk := of_decide_eq_true hret.symm
  exact ⟨heth, hk, hfields hk⟩

theorem exists_keptAsIp (garbage : UInt16 × UInt16) {raw : Packet}
    (heth : load16 raw.data 12 = protoIp) (hk : Known (readHeader raw.data).protocol) :
    ∃ pkt, KeptAsIp garbage raw pkt := by
  refine ⟨_, Prod.ext ((packetRecvInit_ip garbage heth).1.trans (decide_eq_true hk)) rfl, ?_⟩
  rw [packetIsIp, (packetRecvInit_keeps garbage raw).2.1, heth]
  rfl

/-! ## Against the reference -/

/-- The EtherType of IP, as bytes. -/
theorem load16_eq_protoIp_iff (m : Memory) :
    load16 m 12 = protoIp ↔ m 12 = 0x08 ∧ m 13 = 0x00 := by
  have h0 := (m 12).toNat_lt
  have h1 := (m 13).toNat_lt
  simp only [load16, protoIp, ← UInt16.toNat_inj, ← UInt8.toNat_inj, UInt16.toNat_add,
    UInt16.toNat_mul, UInt8.toNat_toUInt16, UInt16.toNat_ofNat, UInt8.toNat_ofNat,
    Nat.reduceAdd, Nat.reducePow, Nat.reduceMod]
  omega

/-- A packet structure with a frame in it. -/
def Packet.holding (len : UInt16) (m : Memory) : Packet :=
  { Packet.received 0 0 [] with len := len, data := m }

theorem portsOr_of_hasPorts {proto : UInt8} (h : HasPorts proto) (garbage : UInt16 × UInt16)
    (m : Memory) (header : ℕ) : portsOr garbage m header proto = portsAt m header :=
  if_pos h

/-- The header of an IPv4 frame lies in its first 34 bytes. -/
theorem header4_congr {m m' : Memory} {len : ℕ} (h : Agree m m' 0 len) (hlen : 34 ≤ len)
    (transport_header : ℕ) : header4 m transport_header = header4 m' transport_header := by
  have hproto : m 23 = m' 23 := by simpa using h 23 (by omega)
  have hsaddr : load32 m 26 = load32 m' 26 := (h.sub (by omega) (by omega)).load32
  have hdaddr : load32 m 30 = load32 m' 30 := (h.sub (by omega) (by omega)).load32
  rw [header4, header4, hproto, hsaddr, hdaddr]

/-- The ports lie in the first four bytes of the transport header. -/
theorem portsAt_congr {m m' : Memory} {len header : ℕ} (h : Agree m m' 0 len)
    (hlen : header + 4 ≤ len) : portsAt m header = portsAt m' header :=
  Prod.ext (h.sub (by omega) (by omega)).load16 (h.sub (by omega) (by omega)).load16

/-- A header with its ports is that header. -/
theorem Header.withPorts_eq_some {len : ℕ} {m : Memory} {h h' : Header}
    {ports : Option (UInt16 × UInt16)} (hparse : h.withPorts len m = some (h', ports)) :
    h = h' ∧ (HasPorts h.protocol → h.transport_header + 4 ≤ len) := by
  unfold Header.withPorts at hparse
  split at hparse
  · rename_i hp
    split at hparse
    · rename_i hlen
      exact ⟨congrArg Prod.fst (Option.some.inj hparse), fun _ => hlen⟩
    · exact absurd hparse.symm (Option.some_ne_none _)
  · rename_i hp
    exact ⟨congrArg Prod.fst (Option.some.inj hparse), fun h => absurd h hp⟩

/-- **What the reference parses under the EtherType of IP** is of version 4 and as long as
its header, and as its ports. -/
theorem refParse_ip {len : ℕ} {m : Memory} {h : Header} {ports : Option (UInt16 × UInt16)}
    (hparse : refParse len m = some (h, ports)) (heth : 12 < len → m 12 = 0x08) :
    34 ≤ len ∧ ipVersion m = 4 ∧ header4 m (14 + 4 * ihl m) = h
      ∧ (HasPorts (m 23) → 14 + 4 * ihl m + 4 ≤ len) := by
  unfold refParse at hparse
  split at hparse
  · rename_i h4
    obtain ⟨hheader, hlen⟩ := Header.withPorts_eq_some hparse
    exact ⟨h4.1, h4.2.2.2, hheader, hlen⟩
  · split at hparse
    · rename_i h6
      have h12 := heth (by omega)
      rw [h6.2.1] at h12
      exact absurd h12 (by decide)
    · exact absurd hparse.symm (Option.some_ne_none _)

/-! ### Behind the frame -/

/-- A frame whose buffer held a TCP segment, over either version, before. -/
def overOldFrame (len : ℕ) (m : Memory) : Memory := fun i =>
  if i < len then m i
  else if i = 12 then 0x08 else if i = 13 then 0x00 else if i = 14 then 0x45
  else if i = 20 ∨ i = 23 then protoTcp
  else 0

theorem overOldFrame_of_lt {len i : ℕ} (m : Memory) (h : i < len) :
    overOldFrame len m i = m i :=
  if_pos h

/-- The frame is in it. -/
theorem holds_overOldFrame (len : UInt16) (m : Memory) :
    (Packet.holding len (overOldFrame len.toNat m)).Holds len m :=
  ⟨rfl, fun i hi => overOldFrame_of_lt m (by omega)⟩

/-- The EtherType of a frame may be that of IP: it is, as far as the frame shows it. -/
def MayBeIp (len : ℕ) (m : Memory) : Prop := (12 < len → m 12 = 0x08) ∧ (13 < len → m 13 = 0x00)

/-- **A frame shows the headers the parser reads of it**, and they are plain ones. If its
EtherType may be that of IP it shows its version. If that is 4 it shows its protocol, which is
no placeholder, and if there are ports it shows them and has no options. A frame of another
version shows that the protocol, where IPv6 has it, is unknown. -/
def HeadersShown (len : ℕ) (m : Memory) : Prop :=
  MayBeIp len m →
    14 < len
    ∧ (ipVersion m = 4 → 23 < len ∧ (m 23 ≠ protoIcmp ∧ m 23 ≠ protoIcmpv6)
      ∧ (HasPorts (m 23) → 37 < len ∧ ihl m = 5))
    ∧ (ipVersion m ≠ 4 → 20 < len ∧ ¬ Known (m 20))

/-- Over the old frame, it is. -/
theorem MayBeIp.load16_overOldFrame {len : ℕ} {m : Memory} (h : MayBeIp len m) :
    load16 (overOldFrame len m) 12 = protoIp := by
  refine (load16_eq_protoIp_iff _).mpr ⟨?_, ?_⟩
  · by_cases hlen : 12 < len
    · exact (overOldFrame_of_lt m hlen).trans (h.1 hlen)
    · rw [overOldFrame, if_neg hlen]
      rfl
  · by_cases hlen : 13 < len
    · exact (overOldFrame_of_lt m hlen).trans (h.2 hlen)
    · rw [overOldFrame, if_neg hlen]
      rfl

/-- A version the frame does not show is four there. -/
theorem ipVersion_overOldFrame (len : ℕ) (m : Memory) :
    ipVersion (overOldFrame len m) = if 14 < len then ipVersion m else 4 := by
  split
  · rename_i hlen
    rw [ipVersion, overOldFrame_of_lt m hlen, ipVersion]
  · rename_i hlen
    rw [ipVersion, overOldFrame, if_neg hlen]
    rfl

/-- A protocol the frame does not show is that of TCP. -/
theorem overOldFrame_protocol (len : ℕ) (m : Memory) {i : ℕ} (hi : i = 20 ∨ i = 23) :
    overOldFrame len m i = if i < len then m i else protoTcp := by
  obtain rfl | rfl := hi
  · rfl
  · rfl

section Reference

variable {len : UInt16} {m : Memory}

/-- A frame with the EtherType of IP whose protocol is known over an old frame is kept, and so
parsed: it is of version 4 and as long as its headers, and the ports are set. -/
theorem ParsedAsReference.parsed (h : ParsedAsReference len m) (heth : MayBeIp len.toNat m)
    (hk : Known (readHeader (overOldFrame len.toNat m)).protocol) :
    34 ≤ len.toNat ∧ ipVersion m = 4 ∧ HasPorts (m 23) ∧ 37 < len.toNat ∧ ihl m = 5 := by
  have hholds := holds_overOldFrame len m
  have hload : load16 (Packet.holding len (overOldFrame len.toNat m)).data 12 = protoIp :=
    heth.load16_overOldFrame
  obtain ⟨pkt, hkept⟩ := exists_keptAsIp (0, 0) hload hk
  obtain ⟨pkt', hkept'⟩ := exists_keptAsIp (1, 1) hload hk
  obtain ⟨ports, hparse, -⟩ := h.reference hholds hkept
  obtain ⟨hlen, hv, hheader, hports⟩ := refParse_ip hparse heth.1
  have hread : readHeader (overOldFrame len.toNat m) = header4 (overOldFrame len.toNat m) 34 :=
    if_pos (by rw [ipVersion_overOldFrame, if_pos (by omega), hv])
  have hproto : (readHeader (overOldFrame len.toNat m)).protocol = m 23 := by
    rw [hread]
    exact overOldFrame_of_lt m (by omega)
  -- of a placeholder protocol the ports would be whatever the stack held
  have hp : HasPorts (m 23) := by
    by_contra hno
    have hports' := hkept.spec.2.2.2.symm.trans
      ((h.determined hholds hholds hkept hkept').2.trans hkept'.spec.2.2.2)
    rw [show (Packet.holding len (overOldFrame len.toNat m)).data = overOldFrame len.toNat m
      from rfl, hproto, portsOr, portsOr, if_neg hno, if_neg hno] at hports'
    exact absurd hports' (by decide)
  have htransport : 14 + 4 * ihl m = 34 :=
    congrArg Header.transport_header (hheader.trans (hkept.spec.2.2.1.trans hread))
  have hend := hports hp
  exact ⟨hlen, hv, hp, by omega, by omega⟩

/-- A frame that is parsed as the reference does shows its headers: over the old frame, what it
does not show is that of a TCP segment. -/
theorem ParsedAsReference.headersShown (h : ParsedAsReference len m) :
    HeadersShown len.toNat m := by
  intro heth
  have hparsed := h.parsed heth
  have hversion := ipVersion_overOldFrame len.toNat m
  by_cases hlen : 14 < len.toNat
  · rw [if_pos hlen] at hversion
    refine ⟨hlen, fun hv => ?_, fun hv => ?_⟩
    · have hread : (readHeader (overOldFrame len.toNat m)).protocol
          = if 23 < len.toNat then m 23 else protoTcp := by
        rw [readHeader, if_pos (hversion.trans hv)]
        exact overOldFrame_protocol len.toNat m (.inr rfl)
      rw [hread] at hparsed
      by_cases h23 : 23 < len.toNat
      · rw [if_pos h23] at hparsed
        refine ⟨h23, not_or.mp fun hicmp => ?_, fun hp => (hparsed (.inl hp)).2.2.2⟩
        have hp := (hparsed (.inr hicmp)).2.2.1
        obtain hicmp | hicmp := hicmp <;> rw [hicmp] at hp <;> exact absurd hp (by decide)
      · rw [if_neg h23] at hparsed
        have hend := (hparsed (by decide)).1
        omega
    · have hread : (readHeader (overOldFrame len.toNat m)).protocol
          = if 20 < len.toNat then m 20 else protoTcp := by
        rw [readHeader, if_neg (hversion ▸ hv)]
        exact overOldFrame_protocol len.toNat m (.inl rfl)
      rw [hread] at hparsed
      by_cases h20 : 20 < len.toNat
      · rw [if_pos h20] at hparsed
        exact ⟨h20, fun hk => hv (hparsed hk).2.1⟩
      · rw [if_neg h20] at hparsed
        have hend := (hparsed (by decide)).1
        omega
  · rw [if_neg hlen] at hversion
    have hread : (readHeader (overOldFrame len.toNat m)).protocol = protoTcp := by
      rw [readHeader, if_pos hversion]
      exact (overOldFrame_protocol len.toNat m (.inr rfl)).trans (if_neg (by omega))
    rw [hread] at hparsed
    have hend := (hparsed (by decide)).1
    omega

/-- What is kept of a frame that shows its headers is of version 4, has ports and no options,
and all that was read of it is in the frame. -/
theorem HeadersShown.kept (hright : HeadersShown len.toNat m) {garbage : UInt16 × UInt16}
    {raw pkt : Packet} (hholds : raw.Holds len m) (h : KeptAsIp garbage raw pkt) :
    37 < len.toNat ∧ m 12 = 0x08 ∧ m 13 = 0x00 ∧ ipVersion m = 4 ∧ HasPorts (m 23) ∧ ihl m = 5
      ∧ pkt.header = header4 m 34 ∧ pkt.ports = portsAt m 34 := by
  have hbyte : ∀ i < len.toNat, raw.data i = m i := fun i hi => by
    simpa using hholds.data i hi
  obtain ⟨hload, hk, hheader, hports⟩ := h.spec
  have heth := (load16_eq_protoIp_iff raw.data).mp hload
  obtain ⟨hlen, h4, h6⟩ := hright
    ⟨fun h12 => (hbyte 12 h12).symm.trans heth.1, fun h13 => (hbyte 13 h13).symm.trans heth.2⟩
  have hversion : ipVersion raw.data = ipVersion m := by rw [ipVersion, hbyte 14 hlen, ipVersion]
  by_cases hv : ipVersion m = 4
  · obtain ⟨hlen23, hplaceholder, h4⟩ := h4 hv
    rw [show readHeader raw.data = header4 raw.data 34 from if_pos (hversion.trans hv)]
      at hk hheader hports
    have hk : Known (m 23) := hbyte 23 hlen23 ▸ hk
    have hp : HasPorts (m 23) := hk.resolve_right (not_or.mpr hplaceholder)
    have hp' : HasPorts (raw.data 23) := (hbyte 23 hlen23).symm ▸ hp
    obtain ⟨hlen37, hihl⟩ := h4 hp
    refine ⟨hlen37, (hbyte 12 (by omega)).symm.trans heth.1,
      (hbyte 13 (by omega)).symm.trans heth.2, hv, hp, hihl,
      hheader.trans (header4_congr hholds.data (by omega) 34), hports.trans ?_⟩
    exact (portsOr_of_hasPorts hp' garbage raw.data 34).trans
      (portsAt_congr hholds.data (by omega))
  · obtain ⟨hlen20, hunknown⟩ := h6 hv
    rw [show readHeader raw.data = header6 raw.data from if_neg (hversion ▸ hv)] at hk
    exact absurd (hbyte 20 hlen20 ▸ hk) hunknown

/-- A well-formed IPv4 frame is kept: its headers are in it. -/
theorem WellFormed4.kept (hw : WellFormed4 len.toNat m) (garbage : UInt16 × UInt16)
    {raw : Packet} (hholds : raw.Holds len m) : ∃ pkt, KeptAsIp garbage raw pkt := by
  have hlen : 42 ≤ len.toNat := by
    have hsize : 8 ≤ transportSize (m 23) := by
      unfold transportSize
      split <;> decide
    have hheaders := hw.headers
    have hihl := hw.header_length
    have hfits := hw.length
    omega
  have hbyte : ∀ i < 42, raw.data i = m i := fun i hi => by
    simpa using hholds.data i (by omega)
  refine exists_keptAsIp garbage ((load16_eq_protoIp_iff _).mpr ?_) ?_
  · rw [hbyte 12 (by decide), hbyte 13 (by decide)]
    exact hw.ethertype
  · have hv : ipVersion raw.data = 4 := by
      rw [ipVersion, hbyte 14 (by decide)]
      exact hw.version
    rw [show readHeader raw.data = header4 raw.data 34 from if_pos hv]
    show Known (raw.data 23)
    rw [hbyte 23 (by decide)]
    exact Or.inl hw.protocol

/-- **When the parser parses a frame as the reference does**: if the frame shows its headers, and
is not a well-formed one of IPv6. -/
theorem parsedAsReference_iff (len : UInt16) (m : Memory) :
    ParsedAsReference len m ↔ HeadersShown len.toNat m ∧ ¬ WellFormed6 len.toNat m := by
  constructor
  · intro h
    refine ⟨h.headersShown, fun hw => ?_⟩
    obtain ⟨pkt, hkept⟩ := h.kept (Or.inr hw) (0, 0) (Packet.holding len m)
      ⟨rfl, Agree.refl _ _ _⟩
    have heth := (load16_eq_protoIp_iff m).mp hkept.spec.1
    exact absurd (heth.1.symm.trans hw.ethertype.1) (by decide)
  · rintro ⟨hright, hno6⟩
    refine ⟨?_, ?_, ?_⟩
    · intro garbage garbage' raw raw' pkt pkt' hd hd' h h'
      obtain ⟨-, -, -, -, -, -, hheader, hports⟩ := hright.kept hd h
      obtain ⟨-, -, -, -, -, -, hheader', hports'⟩ := hright.kept hd' h'
      exact ⟨hheader.trans hheader'.symm, hports.trans hports'.symm⟩
    · intro garbage raw pkt hd h
      obtain ⟨hlen, h12, h13, hv, hp, hihl, hheader, hports⟩ := hright.kept hd h
      refine ⟨some (portsAt m 34), ?_, fun p hpm => ?_⟩
      · rw [refParse, if_pos ⟨by omega, h12, h13, hv⟩, hihl, hheader, Header.withPorts,
          if_pos (show HasPorts (header4 m 34).protocol from hp)]
        exact if_pos (show 34 + 4 ≤ len.toNat by omega)
      · rw [hports]
        exact Option.mem_some_iff.mp hpm
    · intro hw garbage raw hholds
      obtain hw | hw := hw
      · exact hw.kept garbage hholds
      · exact absurd hw hno6

end Reference

/-- A TCP segment over IPv6 is well formed, and dropped. -/
theorem ipv6_not_kept :
    WellFormed6 74 (Packet.received 0 0 (ipv6Frame [0x86, 0xdd] 0)).data
      ∧ (packetRecvInit (0, 0) (Packet.received 0 0 (ipv6Frame [0x86, 0xdd] 0))).1 = false
      ∧ ¬ ParsedAsReference 74 (Packet.received 0 0 (ipv6Frame [0x86, 0xdd] 0)).data := by
  have hw : WellFormed6 74 (Packet.received 0 0 (ipv6Frame [0x86, 0xdd] 0)).data :=
    ⟨by decide, by decide, by decide, by decide, by decide⟩
  refine ⟨hw, by decide, fun h => ?_⟩
  obtain ⟨pkt, hkept⟩ := h.kept (Or.inr hw) (0, 0) (Packet.holding 74 _)
    ⟨rfl, Agree.refl _ _ _⟩
  have heth := (load16_eq_protoIp_iff _).mp hkept.spec.1
  exact absurd heth.1 (by decide)
