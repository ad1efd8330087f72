import Ustack.LifeCycle

/-!
# What a connection was created for

A live connection remembers the packet it was created for only through its fields:
the client, the virtual server and the vs IP are those of that packet. The history
of creations says which packet it was (`Tables.Recorded`), for every live connection
of every reachable state.

Client packets are matched to connections by client address and port, as the comment
at the head of `src/connection.c` has it, and the destination takes no part in the
match. So a client port that has a connection keeps its virtual server, whichever
one it sends to next.
-/

/-! ## Lookups that read addresses only -/

/-- Where the addresses are the same, the virtual servers found are. -/
theorem vserverLookup_keeps {itf itf' : Interface} (h : itf.Keeps itf')
    (hashRand : UInt32) (t : VserverTable) (ip : IpAddress) (port : UInt16)
    (protocol : UInt8) :
    vserverLookup hashRand itf' t ip port protocol
      = vserverLookup hashRand itf t ip port protocol := by
  unfold vserverLookup
  simp only [h.addr]

/-- A lookup reads an address only up to what the comparison reads. -/
theorem vserverLookup_congr (hashRand : UInt32) (itf : Interface) (t : VserverTable)
    {a b : IpAddress} (h : ipAddressEq a b = true) (port : UInt16) (protocol : UInt8) :
    vserverLookup hashRand itf t a port protocol
      = vserverLookup hashRand itf t b port protocol := by
  have haddr : ∀ c, ipAddressEq c a = ipAddressEq c b := by
    intro c
    rw [Bool.eq_iff_iff]
    exact ⟨fun hc => ipAddressEq_trans hc h,
      fun hc => ipAddressEq_trans hc (ipAddressEq_symm h)⟩
  unfold vserverLookup vsHashkey
  simp only [haddr, ipPortProtoHash_congr hashRand _ _ h]

theorem ToVserver.mono {t t' : Tables} {pkt : Packet} {vs : ℕ} (h : ToVserver t pkt vs)
    (hrand : t'.hash_rand = t.hash_rand) (hvs : t'.vservers = t.vservers)
    (hitf : t.itf.Keeps t'.itf) : ToVserver t' pkt vs where
  vsip := by
    rw [hrand, ngInterfaceLookupVsip, hitf.lookup]
    exact h.vsip
  lookup := by
    rw [hrand, hvs, vserverLookup_keeps hitf]
    exact h.lookup

/-! ## The record of a connection -/

namespace Tables

/-- **A connection was created for a packet**, and still has that packet's client,
virtual server and vs IP. -/
structure Recorded (t : Tables) (cp : ℕ) (r : Creation) : Prop where
  /-- It is in the history. -/
  mem : r ∈ t.created
  /-- It is the creation of this connection. -/
  cp_eq : r.cp = cp
  /-- The packet was for the connection's virtual server. -/
  toVserver : ToVserver t r.pkt (t.conn cp).vs
  /-- The vs IP is the packet's destination. -/
  vs_addr : (t.conn cp).vs_addr = ngInterfaceLookupVsip t.hash_rand t.itf r.pkt.daddr.ip
  /-- The client is the packet's source. -/
  client : (t.conn cp).client = r.pkt.saddr
  /-- The server is of the virtual server's pool. -/
  server : (t.conn cp).server.1 = (t.vservers.vserver (t.conn cp).vs).pool

end Tables

/-- A new connection is recorded. -/
theorem Created.recorded {t t' : Tables} {cp : ℕ} {pkt : Packet} {vs : ℕ}
    (hc : Created t pkt vs cp t') (hto : ToVserver t pkt vs) :
    t'.Recorded cp ⟨cp, pkt, vs⟩ := by
  have hrand : t'.hash_rand = t.hash_rand := by rw [hc.eq]
  have hvs : t'.vservers = t.vservers := by rw [hc.eq]
  have hlog : t'.created = t.created ++ [⟨cp, pkt, vs⟩] := by rw [hc.eq]
  refine ⟨?_, rfl, ?_, ?_, hc.setUp.client, ?_⟩
  · rw [hlog]
    exact List.mem_append_right _ List.mem_cons_self
  · rw [hc.setUp.vs_eq]
    exact hto.mono hrand hvs hc.itf
  · rw [hc.setUp.vs_addr, hrand, ngInterfaceLookupVsip, ngInterfaceLookupVsip,
      hc.itf.lookup]
  · rw [hc.setUp.server, hc.setUp.vs_eq, hvs]

namespace Tables

/-- **Every live connection was created for some packet.** -/
structure Origin (t : Tables) : Prop where
  /-- The containers agree. -/
  ok : t.Ok
  /-- Every live connection has its record. -/
  recorded : ∀ cp ∈ t.live, ∃ r, t.Recorded cp r

variable {t t' : Tables} {cp : ℕ} {r : Creation}

/-- A record stays one while the configuration and the other fields stay. -/
theorem Recorded.mono (h : t.Recorded cp r) (hrand : t'.hash_rand = t.hash_rand)
    (hvs : t'.vservers = t.vservers) (hitf : t.itf.Keeps t'.itf)
    (hmem : t.created ⊆ t'.created)
    (hconn : ∃ p s, t'.conn cp = { t.conn cp with protocol := p, state := s }) :
    t'.Recorded cp r := by
  obtain ⟨p, s, hconn⟩ := hconn
  refine ⟨hmem h.mem, h.cp_eq, ?_, ?_, ?_, ?_⟩
  · rw [hconn]
    exact h.toVserver.mono hrand hvs hitf
  · rw [hconn, hrand, ngInterfaceLookupVsip, hitf.lookup]
    exact h.vs_addr
  · rw [hconn]
    exact h.client
  · rw [hconn, hvs]
    exact h.server

/-- The vs IP of a recorded connection is one. -/
theorem Recorded.exists_vs_addr (h : t.Recorded cp r) :
    ∃ l, (t.conn cp).vs_addr = some l :=
  Option.isSome_iff_exists.mp (h.vs_addr ▸ h.toVserver.vsip)

theorem conn_self (t : Tables) (cp : ℕ) :
    ∃ p s, t.conn cp = { t.conn cp with protocol := p, state := s } :=
  ⟨(t.conn cp).protocol, (t.conn cp).state, rfl⟩

/-- A new connection is recorded, and the others stay so. -/
theorem Origin.created (h : t.Origin) {pkt : Packet} {vs : ℕ}
    (hto : ToVserver t pkt vs) (hc : Created t pkt vs cp t') : t'.Origin := by
  have hlog : t'.created = t.created ++ [⟨cp, pkt, vs⟩] := by rw [hc.eq]
  have hok' := h.ok.created hc
  refine ⟨hok', fun x hx => ?_⟩
  rw [hok'.mem_live, hc.outstanding, List.mem_cons, ← h.ok.mem_live] at hx
  rcases hx with rfl | hx
  · exact ⟨_, hc.recorded hto⟩
  · obtain ⟨r, hr⟩ := h.recorded x hx
    have hne : x ≠ cp := fun he => hc.fresh (h.ok.mem_live.mp (he ▸ hx))
    refine ⟨r, hr.mono (by rw [hc.eq]) (by rw [hc.eq]) hc.itf ?_ ?_⟩
    · rw [hlog]
      exact List.subset_append_left _ _
    · rw [hc.conn x hne]
      exact t.conn_self x

/-- **That every live connection has its record is stable.** -/
theorem stable_origin : Stable Origin where
  ok _ h := h.ok
  clock _ _ h htable htotal hwheel := by
    refine ⟨h.ok.of_clock htable htotal hwheel, fun x hx => ?_⟩
    obtain ⟨r, hr⟩ := h.recorded x hx
    exact ⟨r, hr.mono rfl rfl (Interface.Keeps.refl _) (List.Subset.refl _) (conn_self _ x)⟩
  assigns t t' h ha := by
    have hlive : t'.live = t.live := by rw [Tables.live, Tables.live, ha.eq]
    have hitf : t'.itf = t.itf := by rw [ha.eq]
    have hlog : t'.created = t.created := by rw [ha.eq]
    refine ⟨h.ok.assigns ha, fun x hx => ?_⟩
    obtain ⟨r, hr⟩ := h.recorded x (hlive ▸ hx)
    exact ⟨r, hr.mono (by rw [ha.eq]) (by rw [ha.eq]) (hitf ▸ Interface.Keeps.refl _)
      (hlog ▸ List.Subset.refl _) (ha.conn x)⟩
  arps t t' h ha := by
    refine ⟨h.ok.arps ha, fun x hx => ?_⟩
    obtain ⟨rt, pool, sent, rfl⟩ : ∃ rt pool sent, t' =
      { t with rt := rt, pool := pool, sent := sent } := ⟨_, _, _, ha⟩
    obtain ⟨r, hr⟩ := h.recorded x hx
    exact ⟨r, hr.mono rfl rfl (Interface.Keeps.refl _) (List.Subset.refl _) (conn_self t x)⟩
  notCreated t t' h hn := by
    have hlog : t'.created = t.created := by rw [hn.eq]
    refine ⟨h.ok.notCreated hn, fun x hx => ?_⟩
    rw [hn.sameConnections.live] at hx
    obtain ⟨r, hr⟩ := h.recorded x hx
    refine ⟨r, hr.mono (by rw [hn.eq]) (by rw [hn.eq]) hn.itf (hlog ▸ List.Subset.refl _) ?_⟩
    rw [hn.conn x (h.ok.mem_live.mp hx)]
    exact t.conn_self x
  created _ _ _ _ _ h hto hc := h.created hto hc
  free t cp h hcp := by
    have hok' := h.ok.free hcp
    refine ⟨hok', fun x hx => ?_⟩
    have hx' : x ∈ t.live := by
      rw [hok'.mem_live, connectionFree_eq] at hx
      exact h.ok.mem_live.mpr (List.mem_of_mem_erase hx)
    obtain ⟨r, hr⟩ := h.recorded x hx'
    refine ⟨r, hr.mono ?_ ?_ (keeps_connectionFree t cp) ?_ ?_⟩ <;> rw [connectionFree_eq]
    · exact List.Subset.refl _
    · exact t.conn_self x

theorem origin_of_reachable (h : processSystem.Reachable t) : t.Origin := by
  refine stable_origin.of_reachable (fun t hs => ⟨hs.ok, fun cp hcp => ?_⟩) h
  obtain ⟨t₀, ht₀⟩ := hs.conn
  rw [ht₀, Tables.live, connectionModuleInit, linked_nil] at hcp
  exact absurd hcp List.not_mem_nil

end Tables

/-! ## The virtual server a packet is forwarded for -/

/-- Two packets have the same destination. -/
def Packet.SameDestination (p q : Packet) : Prop :=
  ipAddressEq p.daddr.ip q.daddr.ip = true ∧ p.daddr.port = q.daddr.port
    ∧ p.protocol_ip = q.protocol_ip

/-- Two packets have the same source. -/
def Packet.SameSource (p q : Packet) : Prop :=
  ipAddressEq p.saddr.ip q.saddr.ip = true ∧ p.saddr.port = q.saddr.port

/-- A virtual server is found by destination. -/
theorem ToVserver.congr {t : Tables} {p q : Packet} {vs vs' : ℕ} (h : ToVserver t p vs)
    (h' : ToVserver t q vs') (hd : p.SameDestination q) : vs = vs' := by
  obtain ⟨hip, hport, hproto⟩ := hd
  have heq := h.lookup
  rw [vserverLookup_congr _ _ _ hip, hport, hproto, h'.lookup] at heq
  exact (Option.some_inj.mp heq).symm

/-- A packet is forwarded when a connection is found for it. -/
theorem exists_of_stolen {malloc : Option ℕ} {t : Tables} {pkt : Packet}
    (h : (processIpPacket malloc t pkt).1 = .stolen) :
    ∃ cp is_client t', processFindConnection malloc t pkt
      = (.connection cp is_client, t') := by
  unfold processIpPacket at h
  generalize processFindConnection malloc t pkt = r at h
  obtain ⟨found, t'⟩ := r
  cases found with
  | drop => exact absurd h (by simp)
  | none => exact absurd h (by simp)
  | connection cp is_client => exact ⟨cp, is_client, t', rfl⟩

theorem stolen_of_find {malloc : Option ℕ} {t : Tables} {pkt : Packet} {cp : ℕ}
    {is_client : Bool}
    (h : (processFindConnection malloc t pkt).1 = .connection cp is_client) :
    (processIpPacket malloc t pkt).1 = .stolen := by
  unfold processIpPacket
  generalize processFindConnection malloc t pkt = r at h
  obtain ⟨found, t'⟩ := r
  obtain rfl : found = .connection cp is_client := h
  exact congrArg Prod.fst (processForward_eq t' cp pkt is_client)

/-- A client with a connection keeps it. -/
theorem ToVserver.find_of_lookup {t : Tables} {pkt : Packet} {V cp : ℕ}
    (hV : ToVserver t pkt V) (malloc : Option ℕ)
    (h : (connectionLookup t pkt.saddr.ip pkt.saddr.port pkt.protocol_ip true).1
      = some cp) :
    processFindConnection malloc t pkt = (.connection cp true,
      t.setProtocol cp pkt.protocol_ip) := by
  obtain ⟨-, -, ht'⟩ := connectionLookup_some h
  generalize hr : connectionLookup t pkt.saddr.ip pkt.saddr.port pkt.protocol_ip true = r
    at h ht'
  obtain ⟨found, t'⟩ := r
  dsimp only at h ht'
  simp only [processFindConnection, hV.vsip, if_true, processFindClient, hV.lookup, hr, h,
    ht']

/-- A packet to a virtual server comes to a connection of its source, which was
created for it or was live before. -/
theorem Tables.Origin.find_client {t t' : Tables} (h : t.Origin) {malloc : Option ℕ}
    (hm : t.conn_mem_pool.MallocOk malloc) {pkt : Packet} {V cp : ℕ} {is_client : Bool}
    (hV : ToVserver t pkt V)
    (hf : processFindConnection malloc t pkt = (.connection cp is_client, t')) :
    is_client = true ∧ t'.hash_rand = t.hash_rand ∧ t'.vservers = t.vservers
      ∧ t.itf.Keeps t'.itf
      ∧ ∃ r, t'.Recorded cp r ∧ r.pkt.SameSource pkt ∧ (cp ∉ t.live → r.pkt = pkt) := by
  have hfinds := finds_processFindConnection h.ok hm pkt
  rw [hf] at hfinds
  dsimp only at hfinds
  cases hfinds with
  | client hvs hlive hsame =>
    have hassign := t.assigns_setProtocol cp pkt.protocol_ip
    obtain ⟨r, hr⟩ := (Tables.stable_origin.assigns _ _ h hassign).recorded cp
      (by rwa [Tables.live_setProtocol])
    refine ⟨rfl, rfl, rfl, Interface.Keeps.refl _, r, hr, ?_, fun hno => absurd hlive hno⟩
    have hclient := hr.client
    rw [Tables.conn_setProtocol] at hclient
    simp only [sameAddr, Bool.and_eq_true, beq_iff_eq] at hsame
    rw [show (t.conn cp).client = r.pkt.saddr from hclient] at hsame
    exact hsame
  | created hvs hassign hc =>
    rename_i t₁ vs
    have h₁ := Tables.stable_origin.assigns _ _ h hassign
    refine ⟨rfl, ?_, ?_, ?_, ⟨cp, pkt, vs⟩, ?_, ⟨ipAddressEq_refl _, rfl⟩, fun _ => rfl⟩
    · rw [hc.eq, hassign.eq]
    · rw [hc.eq, hassign.eq]
    · have hitf : t₁.itf = t.itf := by rw [hassign.eq]
      exact hitf ▸ hc.itf
    · exact (hc.recorded (hvs.assigns hassign))
  | remote hno _ _ _ => exact absurd hV.vsip (by simp [hno])
  | self hno _ _ _ => exact absurd hV.vsip (by simp [hno])

/-- **Where the traffic of a virtual server goes.** A forwarded packet to virtual
server `V` uses a connection that was created for a packet from the same client
address and port: this one, or an earlier one if the connection was live before. The
connection's virtual server, pool and vs IP are those of that packet's destination;
if that is the destination of this packet too, they are `V`, its pool and the local
address of the destination. -/
theorem processIpPacket_vserver {t : Tables} (h : processSystem.Reachable t)
    {malloc : Option ℕ} (hm : t.conn_mem_pool.MallocOk malloc) {pkt : Packet} {V : ℕ}
    (hV : ToVserver t pkt V) (hfwd : (processIpPacket malloc t pkt).1 = .stolen) :
    ∃ cp t' r, processFindConnection malloc t pkt = (.connection cp true, t')
      ∧ t'.Recorded cp r ∧ r.pkt.SameSource pkt ∧ (cp ∉ t.live → r.pkt = pkt)
      ∧ (r.pkt.SameDestination pkt → (t'.conn cp).vs = V
        ∧ (t'.conn cp).server.1 = (t.vservers.vserver V).pool
        ∧ (t'.conn cp).vs_addr
          = ngInterfaceLookupVsip t.hash_rand t.itf pkt.daddr.ip) := by
  obtain ⟨cp, is_client, t', hf⟩ := exists_of_stolen hfwd
  obtain ⟨rfl, hrand, hvs, hitf, r, hr, hsource, hnew⟩ :=
    (Tables.origin_of_reachable h).find_client hm hV hf
  refine ⟨cp, t', r, hf, hr, hsource, hnew, fun hdest => ?_⟩
  have hvsV : (t'.conn cp).vs = V := hr.toVserver.congr (hV.mono hrand hvs hitf) hdest
  refine ⟨hvsV, ?_, ?_⟩
  · rw [hr.server, hvsV, hvs]
  · rw [hr.vs_addr, hrand, ngInterfaceLookupVsip, ngInterfaceLookupVsip, hitf.lookup]
    exact interfaceLookup_congr _ _ hdest.1 _

/-- The first packet of a client goes to the virtual server it is for. -/
theorem processIpPacket_vserver_first :
    ∃ cp t', processFindConnection (some 0x100000) (twoVservers (twoIps 1024 1027) 0)
        (tcpPacket 3 1 [4, 133] [0, 81] 2) = (.connection cp true, t')
      ∧ (t'.conn cp).vs = 1 := by
  obtain ⟨cp, t', r, hf, -, -, hnew, hsame⟩ := processIpPacket_vserver
    (System.Reachable.of_init (started_twoVservers 1024 1027 0))
    (mallocOk_twoVservers _ _ 0x100000)
    (show ToVserver _ (tcpPacket 3 1 [4, 133] [0, 81] 2) 1 from
      ⟨by decide +kernel, by decide +kernel⟩)
    (stolen_of_find (show _ = Found.connection 0x1fff80 true by decide +kernel))
  have hlive : cp ∉ (twoVservers (twoIps 1024 1027) 0).live := by
    rw [Tables.live, twoVservers, connectionModuleInit, linked_nil]
    exact List.not_mem_nil
  refine ⟨cp, t', hf, (hsame ?_).1⟩
  rw [hnew hlive]
  exact ⟨ipAddressEq_refl _, rfl, rfl⟩

/-- **A client port that has a connection to one virtual server is not served by
another**: `10.0.0.3` port 1157, with a connection to port 80, sends to port 81, and
the packet is forwarded on the connection to virtual server 0. -/
theorem second_vserver_not_reached :
    processSystem.Reachable (oneClient 0)
      ∧ PacketAccepted (tcpPacket 3 1 [4, 133] [0, 81] 2)
      ∧ ToVserver (oneClient 0) (tcpPacket 3 1 [4, 133] [0, 81] 2) 1
      ∧ (processIpPacket none (oneClient 0) (tcpPacket 3 1 [4, 133] [0, 81] 2)).1
        = .stolen
      ∧ ∃ cp t', processFindConnection none (oneClient 0)
          (tcpPacket 3 1 [4, 133] [0, 81] 2) = (.connection cp true, t')
        ∧ (t'.conn cp).vs = 0 := by
  have hip : (tcpPacket 3 1 [4, 133] [0, 81] 2).saddr.ip = netTen 3 := by decide +kernel
  have hport : (tcpPacket 3 1 [4, 133] [0, 81] 2).saddr.port = htons 1157 := by
    decide +kernel
  have hproto : (tcpPacket 3 1 [4, 133] [0, 81] 2).protocol_ip = protoTcp := by
    decide +kernel
  have hV : ToVserver (oneClient 0) (tcpPacket 3 1 [4, 133] [0, 81] 2) 1 :=
    ⟨by decide +kernel, by decide +kernel⟩
  have hfound : (connectionLookup (oneClient 0) (tcpPacket 3 1 [4, 133] [0, 81] 2).saddr.ip
      (tcpPacket 3 1 [4, 133] [0, 81] 2).saddr.port
      (tcpPacket 3 1 [4, 133] [0, 81] 2).protocol_ip true).1 = some 0x1fff80 := by
    rw [hip, hport, hproto]
    decide +kernel
  have hf := hV.find_of_lookup none hfound
  refine ⟨reachable_oneClient 0, accepted_tcpPacket _ _ _ _ _, hV,
    stolen_of_find (congrArg Prod.fst hf), 0x1fff80, _, hf, ?_⟩
  rw [Tables.conn_setProtocol]
  dsimp only
  decide +kernel
