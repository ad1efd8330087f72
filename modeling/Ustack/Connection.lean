import Ustack.MemPool
import Ustack.Timer
import Ustack.Vserver

/-!
# The connection table

`src/connection.c`. A connection is one structure in four containers at once: the
free list it comes from, the client hash table, the self hash table if it is
full-NAT, and the timer wheel. `Tables` is the state of one process they live in,
and the functions here follow the source, the two lookups included that compare
the protocol with `=` and so assign it.

Structures are named by their addresses; a chunk of fresh memory holds whatever it
held, so `conn` is defined everywhere. What `malloc` returns is a parameter. Three
histories are kept that no function reads: the packets handed to the driver, the
connections created with what they were created for, and the calls of
`connection_free` with whether the connection was then live.
-/

/-- `struct connection`. -/
structure Connection where
  /-- The vs IP the client talks to, null if the lookup found none. -/
  vs_addr : Option ℕ
  /-- The self IP, in full-NAT mode. -/
  self_addr : ℕ
  /-- The server. -/
  server : ServerPtr
  /-- The virtual server. -/
  vs : ℕ
  /-- The address of the client. -/
  client_addr : IpAddress
  /-- The port of the client. -/
  client_port : UInt16
  /-- The port of the self IP, in full-NAT mode. -/
  self_port : UInt16
  /-- The adapter towards the client. -/
  client_adapter_idx : UInt8
  /-- The queue towards the client. -/
  client_queue_idx : UInt8
  /-- The adapter towards the server. -/
  server_adapter_idx : UInt8
  /-- The queue towards the server. -/
  server_queue_idx : UInt8
  /-- The MAC address of the client. -/
  client_mac : Mac
  /-- The TCP state. -/
  state : UInt8
  /-- Bit 0: full-NAT. -/
  flags : UInt8
  /-- TCP or UDP. -/
  protocol : UInt8

/-- `CONNECTION_IS_FULLNAT`. -/
def connectionIsFullnat (cp : Connection) : Bool := cp.flags &&& 1 != 0

/-- `CONNECTION_SET_FULLNAT`. -/
def connectionSetFullnat (cp : Connection) : Connection :=
  { cp with flags := cp.flags ||| 1 }

/-- `CONNECTION_SET_TRANSPARANT`. -/
def connectionSetTransparant (cp : Connection) : Connection :=
  { cp with flags := cp.flags &&& 0xfe }

/-- `CONNECTION_IS_TCP`. -/
def connectionIsTcp (cp : Connection) : Bool := cp.protocol == protoTcp

/-- `CONNECTION_TIMEOUT_SECONDS`. -/
def connectionTimeoutSeconds : ℤ := 60

/-- `CONN_HT_SIZE`. -/
def connHtSize : ℕ := 1024

/-- `sizeof(struct connection)`. -/
def sizeofConnection : ℕ := 128

/-- A connection created: its structure, and the packet and virtual server it was
created for. -/
structure Creation where
  /-- The structure. -/
  cp : ℕ
  /-- The packet. -/
  pkt : Packet
  /-- The virtual server. -/
  vs : ℕ

/-- **The tables of one process.** -/
structure Tables where
  /-- The seed of the hashes. -/
  hash_rand : UInt32
  /-- The local addresses. -/
  itf : Interface
  /-- The routes. -/
  rt : RouteTable
  /-- The virtual servers. -/
  vservers : VserverTable
  /-- The server pools. -/
  pool : ℕ → ServerPool
  /-- `server_list`: every server of every pool. -/
  server_list : List ServerPtr
  /-- The MAC addresses of the adapters. -/
  mac : ℕ → Mac
  /-- The timer wheel. -/
  clock : Clock
  /-- The memory of the connections. -/
  conn_mem_pool : MemPool
  /-- The `connection` structures. -/
  conn : ℕ → Connection
  /-- The connections by client address, port and protocol. -/
  client_hashtable : ℕ → List ℕ
  /-- The full-NAT connections by self address, port and protocol. -/
  self_hashtable : ℕ → List ℕ
  /-- The packets handed to the driver for sending. -/
  sent : List Packet
  /-- The connections created. -/
  created : List Creation
  /-- The calls of `connection_free`, and whether the connection was live. -/
  freed : List (ℕ × Bool)

namespace Tables

/-- Assign fields of the connection at an address. -/
def setConn (t : Tables) (cp : ℕ) (f : Connection → Connection) : Tables :=
  { t with conn := Function.update t.conn cp (f (t.conn cp)) }

/-- The tables with the interface replaced. -/
def setItf (t : Tables) (itf : Interface) : Tables := { t with itf := itf }

/-- The tables with the routes replaced. -/
def setRt (t : Tables) (rt : RouteTable) : Tables := { t with rt := rt }

/-- The tables with the server pools replaced. -/
def setPool (t : Tables) (pool : ℕ → ServerPool) : Tables := { t with pool := pool }

/-- The connections linked in the client hash table. -/
def live (t : Tables) : List ℕ := linked connHtSize t.client_hashtable

/-- The connections linked in the self hash table. -/
def liveSelf (t : Tables) : List ℕ := linked connHtSize t.self_hashtable

/-- The connections whose timer is in the wheel. -/
def timed (t : Tables) : List ℕ :=
  linked t.clock.total_clock_seconds t.clock.timer_table

end Tables

/-! ## Lookup -/

/-- `connection_hashkey`, under `CONN_HT_MASK`. -/
def connectionHashkey (hashRand : UInt32) (ip : IpAddress) (port proto : UInt32) : ℕ :=
  (ipPortProtoHash hashRand ip port proto &&& 1023).toNat

/-- The client's address and port. -/
def Connection.client (cp : Connection) : NetAddress := ⟨cp.client_addr, cp.client_port⟩

/-- The self address and port, its address read through the pointer. -/
def Connection.self (lip : ℕ → LocalIp) (cp : Connection) : NetAddress :=
  ⟨(lip cp.self_addr).addr, cp.self_port⟩

/-- The bucket of a connection by one of its addresses. -/
def Connection.bucket (hashRand : UInt32) (key : Connection → NetAddress)
    (cp : Connection) : ℕ :=
  connectionHashkey hashRand (key cp).ip (key cp).port.toUInt32 cp.protocol.toUInt32

/-- `connection_hashkey_client`. -/
def connectionHashkeyClient (t : Tables) (cp : ℕ) : ℕ :=
  (t.conn cp).bucket t.hash_rand Connection.client

/-- `connection_hashkey_self`. -/
def connectionHashkeySelf (t : Tables) (cp : ℕ) : ℕ :=
  (t.conn cp).bucket t.hash_rand (Connection.self t.itf.lip)

/-- The body of `connection_client_eq` and `connection_self_eq`. The third
operand of the conjunction is an assignment: where address and port agree, the
protocol is overwritten, and the answer is whether it is nonzero. -/
def connectionEq (key : Connection → NetAddress) (ip : IpAddress) (port : UInt16)
    (proto : UInt8) (conn : ℕ → Connection) (cp : ℕ) : Bool × (ℕ → Connection) :=
  if ipAddressEq (key (conn cp)).ip ip && (key (conn cp)).port == port then
    (proto != 0, Function.update conn cp { conn cp with protocol := proto })
  else (false, conn)

/-- `connection_client_eq`. -/
def connectionClientEq : IpAddress → UInt16 → UInt8 → (ℕ → Connection) → ℕ →
    Bool × (ℕ → Connection) := connectionEq Connection.client

/-- `connection_self_eq`. -/
def connectionSelfEq (lip : ℕ → LocalIp) : IpAddress → UInt16 → UInt8 →
    (ℕ → Connection) → ℕ → Bool × (ℕ → Connection) :=
  connectionEq (Connection.self lip)

/-- The loops of `connection_lookup`, down one bucket. -/
def connectionFind (eq : (ℕ → Connection) → ℕ → Bool × (ℕ → Connection)) :
    List ℕ → (ℕ → Connection) → Option ℕ × (ℕ → Connection)
  | [], conn => (none, conn)
  | cp :: rest, conn =>
    let (found, conn) := eq conn cp
    if found then (some cp, conn) else connectionFind eq rest conn

/-- `connection_lookup`, in the client table or in the self table. -/
def connectionLookup (t : Tables) (ip : IpAddress) (port : UInt16) (proto : UInt8)
    (is_client : Bool) : Option ℕ × Tables :=
  let idx := connectionHashkey t.hash_rand ip port.toUInt32 proto.toUInt32
  let (cp, conn) :=
    if is_client then
      connectionFind (connectionClientEq ip port proto) (t.client_hashtable idx) t.conn
    else
      connectionFind (connectionSelfEq t.itf.lip ip port proto) (t.self_hashtable idx)
        t.conn
  (cp, { t with conn := conn })

/-! ## Creation -/

/-- `connection_add`. -/
def connectionAdd (t : Tables) (cp : ℕ) : Tables :=
  let t := { t with
    client_hashtable := bucketAdd t.client_hashtable (connectionHashkeyClient t cp) cp }
  if connectionIsFullnat (t.conn cp) then
    { t with self_hashtable := bucketAdd t.self_hashtable (connectionHashkeySelf t cp) cp }
  else t

/-- `connection_del`. -/
def connectionDel (t : Tables) (cp : ℕ) : Tables :=
  let t := { t with client_hashtable := bucketDel t.client_hashtable cp }
  if connectionIsFullnat (t.conn cp) then
    { t with self_hashtable := bucketDel t.self_hashtable cp }
  else t

/-- `connectoin_put_free`. -/
def connectoinPutFree (t : Tables) (cp : ℕ) : Tables :=
  { t with conn_mem_pool := memPoolFree t.conn_mem_pool cp }

/-- The way back to the client: what `connection_set_route` takes from the packet. -/
def Connection.setClientRoute (c : Connection) (pkt : Packet) : Connection :=
  { c with
    client_mac := loadMac pkt.data (pkt.mac_header + 6)
    client_adapter_idx := pkt.adapter_idx
    client_queue_idx := 0 }

/-- The way to the server: what `connection_set_route` takes from a route, whose
NIC is narrowed to eight bits. -/
def Connection.setServerRoute (c : Connection) (re : RouteEntry) : Connection :=
  { c with
    server_adapter_idx := UInt8.ofNat re.nic_id
    server_queue_idx := 0 }

/-- `connection_set_route`. -/
def connectionSetRoute (t : Tables) (pkt : Packet) (cp : ℕ) (srv : ServerPtr) :
    Bool × Tables :=
  let t := t.setConn cp (fun c => c.setClientRoute pkt)
  let (re, rt) := ngRtLookupRr t.hash_rand t.rt (serverAt t.pool srv).addr.ip
  let t := t.setRt rt
  match re with
  | none => (false, t)
  | some re => (true, t.setConn cp (fun c => c.setServerRoute re))

/-- `connection_set_self_ip_port`: the next self IP of the NIC, and its next
port. -/
def connectionSetSelfIpPort (t : Tables) (cp nic_id : ℕ) (is_ipv4 is_tcp : Bool) :
    Bool × Tables :=
  let (lip, itf) := interfaceGetLipRr t.itf nic_id false is_ipv4
  let t := t.setItf itf
  match lip with
  | none => (false, t)
  | some l =>
    let t := t.setConn cp (fun c => { c with self_addr := l })
    let (port, lip) := lipGetPort is_tcp (t.itf.lip l) 0
    let t := t.setItf (t.itf.setLip l lip)
    if port = 0 then (false, t)
    else (true, t.setConn cp (fun c => { c with self_port := port }))

/-- The fields `connection_create` takes from the virtual server. -/
def Connection.setVs (c : Connection) (vs_addr : Option ℕ) (vs : ℕ) (v : Vserver) :
    Connection :=
  let c := { c with vs_addr := vs_addr, protocol := v.protocol, vs := vs }
  if v.is_fullnat ≠ 0 then connectionSetFullnat c else connectionSetTransparant c

/-- The fields `connection_create` takes from the packet: the client's address, and
for TCP the state it opens in. -/
def Connection.setClient (c : Connection) (pkt : Packet) (is_tcp : Bool) : Connection :=
  let c := { c with client_addr := pkt.saddr.ip, client_port := pkt.saddr.port }
  if is_tcp then { c with state := 0 } else c

/-- `if(step == 0) goto err`: go on after a step that succeeds. -/
def orErr (step : Bool × Tables) (next : Tables → Bool × Tables) : Bool × Tables :=
  if step.1 then next step.2 else (false, step.2)

/-- The selection of a server in `connection_create`. A null server sends the
structure back at once and is not stored. -/
def connectionSetServer (t : Tables) (cp : ℕ) (v : Vserver) : Bool × Tables :=
  let (srv, pool) := serverPoolGetServer t.pool v.pool
  match srv with
  | none => (false, t.setPool pool)
  | some srv => (true, (t.setPool pool).setConn cp (fun c => { c with server := srv }))

/-- The selection of a self address in `connection_create`, in full-NAT mode. -/
def connectionSetSelf (t : Tables) (cp : ℕ) (pkt : Packet) (v : Vserver) :
    Bool × Tables :=
  if connectionIsFullnat (t.conn cp) then
    connectionSetSelfIpPort t cp (t.conn cp).server_adapter_idx.toNat (packetIsIpv4 pkt)
      (vsIsTcp v)
  else (true, t)

/-- What `connection_create` does between taking a structure and linking it. -/
def connectionSetup (t : Tables) (cp : ℕ) (pkt : Packet) (vs : ℕ) : Bool × Tables :=
  let v := t.vservers.vserver vs
  let vs_addr := ngInterfaceLookupVsip t.hash_rand t.itf pkt.daddr.ip
  let t := t.setConn cp (fun c => c.setVs vs_addr vs v)
  orErr (connectionSetServer t cp v) (fun t =>
    orErr (connectionSetRoute t pkt cp (t.conn cp).server) (fun t =>
      orErr (connectionSetSelf t cp pkt v) (fun t =>
        (true, t.setConn cp (fun c => c.setClient pkt (vsIsTcp v))))))

/-- `connection_create`, given what `malloc` would return. -/
def connectionCreate (malloc : Option ℕ) (t : Tables) (pkt : Packet) (vs : ℕ) :
    Option ℕ × Tables :=
  let (cp, conn_mem_pool) := memPoolAlloc malloc t.conn_mem_pool
  let t := { t with conn_mem_pool := conn_mem_pool }
  match cp with
  | none => (none, t)
  | some cp =>
    let (ok, t) := connectionSetup t cp pkt vs
    if ok = false then (none, connectoinPutFree t cp)
    else
      let t := connectionAdd t cp
      (some cp, { t with
        clock := timerAdd t.clock cp connectionTimeoutSeconds
        created := t.created ++ [⟨cp, pkt, vs⟩] })

/-- `connection_free`. -/
def connectionFree (t : Tables) (cp : ℕ) : Tables :=
  let t := { t with freed := t.freed ++ [(cp, decide (cp ∈ t.live))] }
  let c := t.conn cp
  let t :=
    if connectionIsFullnat c then
      let lip := lipPutPort (connectionIsTcp c) (t.itf.lip c.self_addr) c.self_port
      t.setItf (t.itf.setLip c.self_addr lip)
    else t
  let t := { t with clock := timerDel t.clock cp }
  let t := connectionDel t cp
  connectoinPutFree t cp

/-- `connection_timeout`. -/
def connectionTimeout (t : Tables) (cp : ℕ) : Tables := connectionFree t cp

/-- `timer_expire`: every timer of the program is a connection's. -/
def connectionTimerExpire (t : Tables) (now : ℕ) : Tables :=
  timerExpire Tables.clock (fun t clock => { t with clock := clock }) connectionTimeout t
    now

/-- `connection_module_init`, with the other modules initialised and the memory of
the structures as it is. -/
def connectionModuleInit (t : Tables) : Tables :=
  { t with
    conn_mem_pool := memPoolCreate sizeofConnection
    client_hashtable := fun _ => []
    self_hashtable := fun _ => [] }
