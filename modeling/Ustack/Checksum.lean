import Ustack.Packet

/-!
# Checksums

`src/checksum.c`. The sum is taken in an `unsigned long`, which a packet cannot
overflow, so it is a natural number here, folded to sixteen bits at the end. TCP
and UDP differ in where their checksum stands.

The word for the protocol is read nine bytes into the network header whatever the
family, and the word of the length is taken from the header as it is, however much
of the packet was received.
-/

/-- The words of `n` bytes of a block, summed; an odd byte is a word of its own. -/
def sumWords (m : Memory) (off : ℕ) : ℕ → ℕ
  | 0 => 0
  | 1 => (m off).toNat
  | n + 2 => (load16 m off).toNat + sumWords m (off + 2) n

/-- The last loop of `_checksum`: the carries folded back in. -/
def foldCarries (cksum : ℕ) : ℕ :=
  if cksum / 65536 = 0 then cksum else foldCarries (cksum / 65536 + cksum % 65536)
termination_by cksum
decreasing_by omega

/-- `_checksum`, and with `init` zero `checksum`. -/
def checksum (m : Memory) (buffer size init : ℕ) : UInt16 :=
  ~~~ (UInt16.ofNat (foldCarries (init + sumWords m buffer size)))

/-- The two halves of a word, summed. -/
def sumHalves (w : UInt32) : ℕ := w.toNat / 65536 + w.toNat % 65536

/-- `checksum_tcpudp`: the pseudo header, then the segment. -/
def checksumTcpudp (m : Memory) (buffer size src dst ip_len : ℕ) (proto : UInt8)
    (len : UInt16) : UInt16 :=
  let addrs := (List.range ip_len).map (fun i =>
    sumHalves (load32 m (src + 4 * i)) + sumHalves (load32 m (dst + 4 * i)))
  checksum m buffer size (addrs.sum + (proto.toUInt16 * 256).toNat + len.toNat)

/-- `checksum_ipv4`. -/
def checksumIpv4 (pkt : Packet) : Packet :=
  let ip := sizeofEthhdr
  let data := store16 pkt.data (ip + 10) 0
  pkt.setData (store16 data (ip + 10) (checksum data ip sizeofIphdr 0))

/-- The body of `checksum_tcp` and `checksum_udp`, for a checksum `check` bytes into
the transport header. -/
def checksumTransport (check : ℕ) (pkt : Packet) : Packet :=
  let ip := pkt.network_header
  let header := pkt.transport_header
  let data := store16 pkt.data (header + check) 0
  let proto := data (ip + 9)
  let sum :=
    if packetIsIpv4 pkt then
      let size := htons (load16 data (ip + 2)) - 20
      checksumTcpudp data header size.toNat (ip + 12) (ip + 16) 1 proto (htons size)
    else
      let len := load16 data (ip + 4)
      checksumTcpudp data header (htons len).toNat (ip + 8) (ip + 24) 4 proto len
  pkt.setData (store16 data (header + check) sum)

/-- `checksum_tcp`. -/
def checksumTcp : Packet → Packet := checksumTransport 16

/-- `checksum_udp`. -/
def checksumUdp : Packet → Packet := checksumTransport 6

/-! ## Only the checksum is stored -/

/-- Of two stores to one range the second counts. -/
theorem storeBytes_storeBytes (m : Memory) (off n : ℕ) (a b : Memory) :
    storeBytes (storeBytes m off n a) off n b = storeBytes m off n b := by
  funext i
  unfold storeBytes
  split <;> rfl

/-- The header checksum is two bytes of the frame. -/
theorem checksumIpv4_eq (pkt : Packet) :
    ∃ b, checksumIpv4 pkt = pkt.setData (storeBytes pkt.data 24 2 b) :=
  ⟨_, congrArg pkt.setData (storeBytes_storeBytes _ _ _ _ _)⟩

/-- The transport checksum is two bytes of the frame. -/
theorem checksumTransport_eq (check : ℕ) (pkt : Packet) :
    ∃ b, checksumTransport check pkt
      = pkt.setData (storeBytes pkt.data (pkt.transport_header + check) 2 b) :=
  ⟨_, congrArg pkt.setData (storeBytes_storeBytes _ _ _ _ _)⟩
