import Ustack.Hashtable
import Ustack.Interface
import Ustack.Packet

/-!
# Routes, server pools and virtual servers

`src/route.c`, `src/server_pool.c` and `src/vserver.c`: the tables a new
connection is set up from. A route names the NIC a server is behind, a pool deals
out its servers in turn, and a virtual server is a port and protocol served on
one or more vs IPs out of one pool.

Pools, servers and virtual servers are named by pointers, which are numbers here;
a server is a place in its pool's array. Routes are values: nobody keeps a
pointer to one past the lookup.
-/

/-! ## Routes -/

/-- `struct route_entry`. -/
structure RouteEntry where
  /-- The address of the server. -/
  addr : IpAddress
  /-- The NIC it is behind. -/
  nic_id : ℕ
deriving DecidableEq

/-- `struct route_table`: the buckets of its hash table. -/
abbrev RouteTable := ℕ → List RouteEntry

/-- `rt_hashkey`, under `ROUTE_HT_MASK`. -/
def rtHashkey (hashRand : UInt32) (ip : IpAddress) : ℕ :=
  (ipAddressHash hashRand ip &&& 255).toNat

/-- The test of `__rt_lookup_rr`; no `nic_id` is the `-1` of the source. -/
def routeMatches (ip : IpAddress) (nic_id : Option ℕ) (re : RouteEntry) : Bool :=
  (nic_id.isNone || nic_id == some re.nic_id) && ipAddressEq re.addr ip

/-- `__rt_lookup_rr`: the first matching entry, moved to the end of its bucket if
the lookup goes round. -/
def rtLookup (hashRand : UInt32) (rt : RouteTable) (ip : IpAddress)
    (rr_enable : Bool) (nic_id : Option ℕ) : Option RouteEntry × RouteTable :=
  let idx := rtHashkey hashRand ip
  match (rt idx).find? (routeMatches ip nic_id) with
  | none => (none, rt)
  | some re =>
    (some re,
      if rr_enable then
        Function.update rt idx ((rt idx).eraseP (routeMatches ip nic_id) ++ [re])
      else rt)

/-- `ng_rt_lookup_rr`. -/
def ngRtLookupRr (hashRand : UInt32) (rt : RouteTable) (ip : IpAddress) :
    Option RouteEntry × RouteTable :=
  rtLookup hashRand rt ip true none

/-- `ng_rt_lookup_with_nic_id`. -/
def ngRtLookupWithNicId (hashRand : UInt32) (rt : RouteTable) (ip : IpAddress)
    (nic_id : ℕ) : Option RouteEntry :=
  (rtLookup hashRand rt ip false (some nic_id)).1

/-- `rt_add_entry`: an address already in the table is not added again. -/
def rtAddEntry (hashRand : UInt32) (rt : RouteTable) (re : RouteEntry) : RouteTable :=
  if (rtLookup hashRand rt re.addr false none).1.isSome then rt
  else bucketAdd rt (rtHashkey hashRand re.addr) re

/-- What `rt_add_entry` returns: whether the entry was added. -/
def rtAddEntryRet (hashRand : UInt32) (rt : RouteTable) (re : RouteEntry) : Bool :=
  (rtLookup hashRand rt re.addr false none).1.isNone

/-! ## Server pools -/

/-- `struct server`. -/
structure Server where
  /-- Its address and port. -/
  addr : NetAddress
  /-- Its MAC address. -/
  mac : Mac

/-- `struct server_pool`. -/
structure ServerPool where
  /-- The servers. -/
  server_list : ℕ → Server
  /-- The number of servers. -/
  num : ℕ
  /-- The server to deal out next. -/
  next : ℕ

/-- A pointer to a server: its pool and its place there. -/
abbrev ServerPtr := ℕ × ℕ

/-- `server_pool_get_server`, of the pool at a pointer. -/
def serverPoolGetServer (pool : ℕ → ServerPool) (p : ℕ) :
    Option ServerPtr × (ℕ → ServerPool) :=
  if (pool p).num = 0 then (none, pool)
  else (some (p, (pool p).next),
    Function.update pool p { pool p with next := ((pool p).next + 1) % (pool p).num })

/-- The server at a pointer. -/
def serverAt (pool : ℕ → ServerPool) (srv : ServerPtr) : Server :=
  (pool srv.1).server_list srv.2

/-- `server_set_mac`. -/
def serverSetMac (pool : ℕ → ServerPool) (srv : ServerPtr) (mac : Mac) :
    ℕ → ServerPool :=
  Function.update pool srv.1 { pool srv.1 with
    server_list := Function.update (pool srv.1).server_list srv.2
      { serverAt pool srv with mac := mac } }

/-- `server_pool_add_server`: the place of the new server, whose MAC address is
what the array held there. The test against `MAX_SERVER` has no effect, its `if`
ending in a semicolon. -/
def serverPoolAddServer (p : ServerPool) (addr : NetAddress) : ℕ × ServerPool :=
  (p.num, { p with
    num := p.num + 1
    server_list := Function.update p.server_list p.num
      { p.server_list p.num with addr := addr } })

/-- Dealing out a server changes no server. -/
@[simp] theorem serverAt_serverPoolGetServer (pool : ℕ → ServerPool) (p : ℕ)
    (srv : ServerPtr) :
    serverAt (serverPoolGetServer pool p).2 srv = serverAt pool srv := by
  unfold serverPoolGetServer
  split
  · rfl
  · unfold serverAt
    dsimp only
    by_cases h : srv.1 = p
    · rw [h, Function.update_self]
    · rw [Function.update_of_ne h]

/-! ## Virtual servers -/

/-- `struct vserver`. -/
structure Vserver where
  /-- Its pool. -/
  pool : ℕ
  /-- The number of its addresses. -/
  ip_num : ℕ
  /-- Its port, in network order. -/
  port : UInt16
  /-- TCP or UDP. -/
  protocol : UInt8
  /-- Whether it works in full-NAT mode. -/
  is_fullnat : UInt8

/-- `VS_IS_TCP`. -/
def vsIsTcp (vs : Vserver) : Bool := vs.protocol == protoTcp

/-- `struct vs_lip_node`: a virtual server on one of its addresses. -/
structure VsLipNode where
  /-- The virtual server. -/
  vs : ℕ
  /-- The address. -/
  lip : ℕ
deriving DecidableEq

/-- The virtual servers and their hash table. -/
structure VserverTable where
  /-- The `vserver` structures. -/
  vserver : ℕ → Vserver
  /-- The number of them allocated. -/
  vserver_num : ℕ
  /-- The buckets. -/
  vs_hashtable : ℕ → List VsLipNode

/-- `VS_IP_NUM_MAX`. -/
def vsIpNumMax : ℕ := 16

/-- `vs_hashkey`, under `VS_HT_MASK`. -/
def vsHashkey (hashRand : UInt32) (ip : IpAddress) (port : UInt16) (protocol : UInt8) :
    ℕ :=
  (ipPortProtoHash hashRand ip port.toUInt32 protocol.toUInt32 &&& 127).toNat

/-- `vserver_lookup`: the virtual server of an address, port and protocol. -/
def vserverLookup (hashRand : UInt32) (itf : Interface) (t : VserverTable)
    (ip : IpAddress) (port : UInt16) (protocol : UInt8) : Option ℕ :=
  ((t.vs_hashtable (vsHashkey hashRand ip port protocol)).find? (fun node =>
    ipAddressEq (itf.lip node.lip).addr ip && (t.vserver node.vs).port == port
      && (t.vserver node.vs).protocol == protocol)).map VsLipNode.vs

/-- `vserver_module_init`, over whatever memory the structures get. -/
def vserverModuleInit (vserver : ℕ → Vserver) : VserverTable where
  vserver := vserver
  vserver_num := 0
  vs_hashtable := fun _ => []

/-- `vserver_create`, at the next free pointer. -/
def vserverCreate (t : VserverTable) (pool : ℕ) (port : UInt16) (protocol : UInt8)
    (is_fullnat : UInt8) : ℕ × VserverTable :=
  (t.vserver_num, { t with
    vserver := Function.update t.vserver t.vserver_num
      { pool := pool, ip_num := 0, port := port, protocol := protocol,
        is_fullnat := is_fullnat }
    vserver_num := t.vserver_num + 1 })

/-- `vserver_add_ip`. -/
def vserverAddIp (hashRand : UInt32) (itf : Interface) (t : VserverTable)
    (vs lip : ℕ) : VserverTable :=
  if (t.vserver vs).ip_num < vsIpNumMax then
    { t with
      vserver := Function.update t.vserver vs
        { t.vserver vs with ip_num := (t.vserver vs).ip_num + 1 }
      vs_hashtable := bucketAdd t.vs_hashtable
        (vsHashkey hashRand (itf.lip lip).addr (t.vserver vs).port
          (t.vserver vs).protocol) ⟨vs, lip⟩ }
  else t

/-- A lookup answers a virtual server of the port and protocol asked for. -/
theorem vserverLookup_eq {hashRand : UInt32} {itf : Interface} {t : VserverTable}
    {ip : IpAddress} {port : UInt16} {protocol : UInt8} {vs : ℕ}
    (h : vserverLookup hashRand itf t ip port protocol = some vs) :
    (t.vserver vs).port = port ∧ (t.vserver vs).protocol = protocol := by
  obtain ⟨node, hf, rfl⟩ := Option.map_eq_some_iff.mp h
  have hp := List.find?_some hf
  simp only [Bool.and_eq_true, beq_iff_eq] at hp
  exact ⟨hp.1.2, hp.2⟩
