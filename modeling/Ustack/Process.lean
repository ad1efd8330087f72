import Ustack.Arp
import Ustack.Checksum
import Ustack.Lookup

/-!
# Processing a packet

`src/process.c`: which connection a packet belongs to, and what becomes of the
packet. `processFindConnection` is the first half of `process_ip_packet`, up to the
point where it holds a connection or none; `processConnection` is the rewriting. The
flag `is_client` between them says both which hash table is searched and which way
the packet is rewritten.

Towards the server the destination becomes the server's, towards the client the
source becomes the virtual server's, and in full-NAT mode the other end is
rewritten as well: one pattern (`rewriteEnds`) for ports and for the addresses of
both families.
-/

/-! ## Rewriting -/

/-- Store an IPv4 address. -/
def storeAddr4 (m : Memory) (off : ℕ) (ip : IpAddress) : Memory := store32 m off ip.ip4

/-- Store an IPv6 address. -/
def storeAddr6 (m : Memory) (off : ℕ) (ip : IpAddress) : Memory :=
  store32 (store32 (store32 (store32 m off ip.ip6_0) (off + 4) ip.ip6_1) (off + 8) ip.ip6_2)
    (off + 12) ip.ip6_3

/-- The four ends a packet of a connection can have. -/
structure Ends (α : Type*) where
  /-- The self IP or port. -/
  self : α
  /-- The server's. -/
  server : α
  /-- The client's. -/
  client : α
  /-- The virtual server's. -/
  vs : α

/-- The body of the functions that set the ports and the addresses of a packet:
`store` puts an end at the offset of the source or of the destination. -/
def rewriteEnds {α : Type*} (store : Memory → ℕ → α → Memory) (source dest : ℕ)
    (ends : Ends α) (fullnat is_client : Bool) (m : Memory) : Memory :=
  if is_client then
    store (if fullnat then store m source ends.self else m) dest ends.server
  else store (if fullnat then store m dest ends.client else m) source ends.vs

/-- The ports of a connection. -/
def connectionPorts (t : Tables) (c : Connection) : Ends UInt16 where
  self := c.self_port
  server := (serverAt t.pool c.server).addr.port
  client := c.client_port
  vs := (t.vservers.vserver c.vs).port

/-- The vs IP of a connection. The pointer is not null in any connection created
for a packet to a vs IP. -/
def connectionVsIp (t : Tables) (c : Connection) : IpAddress :=
  (t.itf.lip (c.vs_addr.getD 0)).addr

/-- The addresses of a connection. -/
def connectionAddrs (t : Tables) (c : Connection) : Ends IpAddress where
  self := (t.itf.lip c.self_addr).addr
  server := (serverAt t.pool c.server).addr.ip
  client := c.client_addr
  vs := connectionVsIp t c

/-- `process_set_tcp_port`. -/
def processSetTcpPort (t : Tables) (c : Connection) (pkt : Packet) (is_client : Bool) :
    Packet :=
  pkt.setData (rewriteEnds store16 pkt.transport_header (pkt.transport_header + 2)
    (connectionPorts t c) (connectionIsFullnat c) is_client pkt.data)

/-- `process_set_udp_port`. -/
def processSetUdpPort (t : Tables) (c : Connection) (pkt : Packet) (is_client : Bool) :
    Packet :=
  pkt.setData (rewriteEnds store16 pkt.transport_header (pkt.transport_header + 2)
    (connectionPorts t c) (connectionIsFullnat c) is_client pkt.data)

/-- `process_set_port`. -/
def processSetPort (t : Tables) (c : Connection) (pkt : Packet) (is_client : Bool) :
    Packet :=
  if connectionIsTcp c then processSetTcpPort t c pkt is_client
  else processSetUdpPort t c pkt is_client

/-- `process_set_ipv4`. -/
def processSetIpv4 (t : Tables) (c : Connection) (pkt : Packet) (is_client : Bool) :
    Packet :=
  pkt.setData (rewriteEnds storeAddr4 (pkt.network_header + 12) (pkt.network_header + 16)
    (connectionAddrs t c) (connectionIsFullnat c) is_client pkt.data)

/-- `process_set_ipv6`. -/
def processSetIpv6 (t : Tables) (c : Connection) (pkt : Packet) (is_client : Bool) :
    Packet :=
  pkt.setData (rewriteEnds storeAddr6 (pkt.network_header + 8) (pkt.network_header + 24)
    (connectionAddrs t c) (connectionIsFullnat c) is_client pkt.data)

/-- `process_set_ip`. -/
def processSetIp (t : Tables) (c : Connection) (pkt : Packet) (is_client : Bool) :
    Packet :=
  if packetIsIpv4 pkt then processSetIpv4 t c pkt is_client
  else processSetIpv6 t c pkt is_client

/-- The adapter a connection's packets leave by. -/
def Connection.adapterIdx (c : Connection) (is_client : Bool) : UInt8 :=
  if is_client then c.server_adapter_idx else c.client_adapter_idx

/-- `process_set_mac`. -/
def processSetMac (t : Tables) (c : Connection) (pkt : Packet) (is_client : Bool) :
    Packet :=
  let ep := pkt.mac_header
  let mac := t.mac (c.adapterIdx is_client).toNat
  let data := storeMac pkt.data (ep + 6) mac
  pkt.setData (storeMac data ep
    (if is_client then (serverAt t.pool c.server).mac else c.client_mac))

/-- `process_set_checksum`. -/
def processSetChecksum (pkt : Packet) : Packet :=
  let pkt := if packetIsIpv4 pkt then checksumIpv4 pkt else pkt
  if packetIsTcp pkt then checksumTcp pkt else checksumUdp pkt

/-- What `process_connection` makes of a packet. -/
def processRewrite (t : Tables) (c : Connection) (pkt : Packet) (is_client : Bool) :
    Packet :=
  let pkt := processSetPort t c pkt is_client
  let pkt := processSetIp t c pkt is_client
  let pkt := processSetMac t c pkt is_client
  processSetChecksum { pkt with adapter_idx := c.adapterIdx is_client }

/-- `process_connection`: the packet rewritten and handed to the driver. -/
def processConnection (t : Tables) (cp : ℕ) (pkt : Packet) (is_client : Bool) :
    Verdict × Packet × Tables :=
  let pkt := processRewrite t (t.conn cp) pkt is_client
  (.stolen, pkt, ngDriverPutPacketToSendBuffer t pkt)

/-! ## The TCP state of a connection -/

/-- `TCP_INIT`. -/
def tcpInit : UInt8 := 0

/-- `TCP_FIN1`. -/
def tcpFin1 : UInt8 := 1

/-- `TCP_FIN1_ACK`. -/
def tcpFin1Ack : UInt8 := 2

/-- `TCP_FIN2`. -/
def tcpFin2 : UInt8 := 3

/-- `TCP_CLOSED`. -/
def tcpClosed : UInt8 := 5

/-- The flags of a TCP header. -/
def tcpFlags (pkt : Packet) : UInt8 := pkt.data (pkt.transport_header + 13)

/-- `tcp->fin`. -/
def tcpFin (pkt : Packet) : Bool := tcpFlags pkt &&& 1 != 0

/-- `tcp->ack`. -/
def tcpAck (pkt : Packet) : Bool := tcpFlags pkt &&& 16 != 0

/-- The state `tcp_change_state` moves to. -/
def tcpNextState (fin ack : Bool) (state : UInt8) : UInt8 :=
  if fin ∧ state = tcpInit then tcpFin1
  else if ack ∧ state = tcpFin1 then tcpFin1Ack
  else if fin ∧ state = tcpFin1Ack then tcpFin2
  else if ack ∧ state = tcpFin2 then tcpClosed
  else state

/-- `tcp_change_state`: the new state, which is also stored. -/
def tcpChangeState (t : Tables) (pkt : Packet) (cp : ℕ) : UInt8 × Tables :=
  let state := tcpNextState (tcpFin pkt) (tcpAck pkt) (t.conn cp).state
  (state, t.setConn cp (fun c => { c with state := state }))

/-! ## Finding the connection -/

/-- What the first half of `process_ip_packet` comes to. -/
inductive Found
  /-- The packet is for a vs IP and no virtual server is there. -/
  | drop
  /-- There is no connection for the packet. -/
  | none
  /-- The packet is of a connection, rewritten as one from the client or not. -/
  | connection (cp : ℕ) (is_client : Bool)
deriving DecidableEq

/-- A packet to a vs IP: its connection, or a new one. -/
def processFindClient (malloc : Option ℕ) (t : Tables) (pkt : Packet) : Found × Tables :=
  match vserverLookup t.hash_rand t.itf t.vservers pkt.daddr.ip pkt.daddr.port
    pkt.protocol_ip with
  | none => (.drop, t)
  | some vs =>
    match connectionLookup t pkt.saddr.ip pkt.saddr.port pkt.protocol_ip true with
    | (some cp, t) => (.connection cp true, t)
    | (none, t) =>
      match connectionCreate malloc t pkt vs with
      | (some cp, t) => (.connection cp true, t)
      | (none, t) => (.none, t)

/-- A packet not to a vs IP: its connection, if there is one. A destination that is
not a self IP either is taken for a client of a transparent connection. -/
def processFindServer (t : Tables) (pkt : Packet) : Found × Tables :=
  let is_client := (ngInterfaceLookupSelfip t.hash_rand t.itf pkt.daddr.ip).isNone
  match connectionLookup t pkt.daddr.ip pkt.daddr.port pkt.protocol_ip is_client with
  | (some cp, t) => (.connection cp is_client, t)
  | (none, t) => (.none, t)

/-- The first half of `process_ip_packet`. -/
def processFindConnection (malloc : Option ℕ) (t : Tables) (pkt : Packet) :
    Found × Tables :=
  if (ngInterfaceLookupVsip t.hash_rand t.itf pkt.daddr.ip).isSome then
    processFindClient malloc t pkt
  else processFindServer t pkt

/-- The second half of `process_ip_packet`: rewrite, send, and close a connection
whose TCP state says so. -/
def processForward (t : Tables) (cp : ℕ) (pkt : Packet) (is_client : Bool) :
    Verdict × Packet × Tables :=
  let (ret, pkt, t) := processConnection t cp pkt is_client
  if ret ≠ .accept then
    if packetIsTcp pkt then
      let (state, t) := tcpChangeState t pkt cp
      (.stolen, pkt, if state = tcpClosed then connectionFree t cp else t)
    else (.stolen, pkt, t)
  else (.drop, pkt, t)

/-- `process_ip_packet`. -/
def processIpPacket (malloc : Option ℕ) (t : Tables) (pkt : Packet) :
    Verdict × Packet × Tables :=
  match processFindConnection malloc t pkt with
  | (.drop, t) => (.drop, pkt, t)
  | (.none, t) => (.accept, pkt, t)
  | (.connection cp is_client, t) => processForward t cp pkt is_client

/-- `main_process_packets`. -/
def mainProcessPackets (malloc : Option ℕ) (t : Tables) (pkt : Packet) :
    Verdict × Packet × Tables :=
  if packetIsIp pkt then processIpPacket malloc t pkt
  else if packetIsArp pkt then arpHandler t pkt
  else (.drop, pkt, t)
