import Ustack.Parser
import Ustack.Translation

/-!
# Full NAT, there and back

A packet of a client to a full-NAT virtual server and the packets of its server on the way
back. What the creation of the connection records of the first is what the second is
rewritten with, and nothing assigns it until the connection is freed
(`Tables.KeepsConnection`), so the second rewriting inverts the first.

A packet carries the words of an address at the places of its own family. That these are
the whole address takes that the self IP is of the family of the packet, which the lists of
the NICs see to (`Interface.Families`).
-/

/-! ## The families of the local addresses -/

namespace Interface

/-- A list of a NIC holds addresses of its family. -/
def Families (itf : Interface) : Prop :=
  ∀ k v f, ∀ l ∈ itf.nic k v f, l < itf.lip_num ∧ lipIsIpv4 (itf.lip l) = f

variable {itf itf' : Interface}

theorem Families.keeps (h : itf.Families) (hk : itf.Keeps itf') : itf'.Families := by
  intro k v f l hl
  obtain ⟨hlt, hfam⟩ := h k v f l ((hk.nic k v f).mem_iff.mp hl)
  refine ⟨hk.lip_num ▸ hlt, ?_⟩
  rw [lipIsIpv4, hk.addr]
  exact hfam

theorem Families.create (h : itf.Families) (hashRand : UInt32) (ip : IpAddress)
    (type nic_id : ℕ) : (interfaceCreateLocalIp hashRand itf ip type nic_id).2.Families := by
  set itf' := (interfaceCreateLocalIp hashRand itf ip type nic_id).2 with hitf'
  have hold : ∀ l < itf.lip_num, itf'.lip l = itf.lip l :=
    fun l hl => Function.update_of_ne (Nat.ne_of_lt hl) _ _
  intro k v f l hl
  by_cases hnew : k = (itf'.lip itf.lip_num).nic_id ∧ v = lipIsVsip (itf'.lip itf.lip_num)
      ∧ f = lipIsIpv4 (itf'.lip itf.lip_num)
  · have hlist : itf'.nic k v f = itf.lip_num :: itf.nic k v f := by
      obtain ⟨rfl, rfl, rfl⟩ := hnew
      exact if_pos ⟨rfl, rfl, rfl⟩
    rw [hlist, List.mem_cons] at hl
    obtain rfl | hl := hl
    · exact ⟨Nat.lt_succ_self _, hnew.2.2.symm⟩
    · obtain ⟨hlt, hfam⟩ := h k v f l hl
      exact ⟨Nat.lt_succ_of_lt hlt, by rw [hold l hlt, hfam]⟩
  · have hlist : itf'.nic k v f = itf.nic k v f := if_neg hnew
    obtain ⟨hlt, hfam⟩ := h k v f l (hlist ▸ hl)
    exact ⟨Nat.lt_succ_of_lt hlt, by rw [hold l hlt, hfam]⟩

theorem Families.addLocalIps (h : itf.Families) (hashRand : UInt32)
    (ips : List (IpAddress × ℕ × ℕ)) : (itf.addLocalIps hashRand ips).Families := by
  induction ips generalizing itf with
  | nil => exact h
  | cons a ips ih => exact ih (h.create hashRand a.1 a.2.1 a.2.2)

end Interface

namespace Tables

/-- **What holds of the addresses of an interface, whatever ports are taken, is stable.** -/
theorem stable_itf {Q : Interface → Prop} (hQ : ∀ i i', Q i → i.Keeps i' → Q i') :
    Stable (fun t => t.Ok ∧ Q t.itf) where
  ok _ h := h.1
  clock _ _ h htable htotal hwheel := ⟨h.1.of_clock htable htotal hwheel, h.2⟩
  assigns t t' h ha := by
    have hitf : t'.itf = t.itf := by rw [ha.eq]
    exact ⟨h.1.assigns ha, hitf ▸ h.2⟩
  arps t t' h ha := by
    have hitf : t'.itf = t.itf := by rw [ha]
    exact ⟨h.1.arps ha, hitf ▸ h.2⟩
  notCreated _ _ h hn := ⟨h.1.notCreated hn, hQ _ _ h.2 hn.itf⟩
  created _ _ _ _ _ h _ hc := ⟨h.1.created hc, hQ _ _ h.2 hc.itf⟩
  free t cp h hcp := ⟨h.1.free hcp, hQ _ _ h.2 (keeps_connectionFree t cp)⟩

theorem families_of_reachable {t : Tables} (h : processSystem.Reachable t) :
    t.itf.Families := by
  refine ((stable_itf (fun _ _ => Interface.Families.keeps)).of_reachable (fun t hs => ?_) h).2
  obtain ⟨num, vs_low, vs_high, self_low, self_high, ips, hitf⟩ := hs.itf
  refine ⟨hs.ok, ?_⟩
  rw [hitf]
  refine Interface.Families.addLocalIps ?_ _ _
  exact fun _ _ _ l hl => absurd hl List.not_mem_nil

end Tables

/-! ## What a creation takes from a packet to a full-NAT virtual server -/

/-- The self IP stands in the list of the family asked for. -/
theorem connectionSetSelfIpPort_mem {t t' : Tables} {cp nic_id : ℕ} {is_ipv4 is_tcp : Bool}
    (h : connectionSetSelfIpPort t cp nic_id is_ipv4 is_tcp = (true, t')) :
    (t'.conn cp).self_addr ∈ t.itf.nic nic_id false is_ipv4 := by
  obtain ⟨-, -, hmem⟩ := interfaceGetLipRr_spec t.itf nic_id false is_ipv4
  unfold connectionSetSelfIpPort at h
  generalize interfaceGetLipRr t.itf nic_id false is_ipv4 = r at h hmem
  obtain ⟨lip, itf⟩ := r
  cases lip with
  | none => exact absurd (Prod.ext_iff.mp h).1 Bool.false_ne_true
  | some l =>
    dsimp only at h
    split at h
    · exact absurd (Prod.ext_iff.mp h).1 Bool.false_ne_true
    · obtain rfl := (Prod.ext_iff.mp h).2
      rw [Tables.conn_setConn_self]
      simp only [Tables.conn_setItf, Tables.conn_setConn_self]
      exact hmem l rfl

/-- The self IP of a new connection is of the family of the packet. -/
theorem connectionSetup_self {t t' : Tables} {cp : ℕ} {pkt : Packet} {vs : ℕ}
    (h : connectionSetup t cp pkt vs = (true, t'))
    (hfull : connectionIsFullnat (t'.conn cp) = true) :
    ∃ k, (t'.conn cp).self_addr ∈ t.itf.nic k false (packetIsIpv4 pkt) := by
  unfold connectionSetup at h
  obtain ⟨t1, h1, h⟩ := orErr_eq_true h
  obtain ⟨t2, h2, h⟩ := orErr_eq_true h
  obtain ⟨t3, h3, h⟩ := orErr_eq_true h
  obtain rfl := (Prod.ext_iff.mp h).2
  have hitf : t2.itf = t.itf :=
    (connectionSetRoute_true h2).1.trans (connectionSetServer_true h1).1
  obtain ⟨state, hclient⟩ := Connection.setClient_eq (t3.conn cp) pkt
    (vsIsTcp (t.vservers.vserver vs))
  rw [Tables.conn_setConn_self, hclient] at hfull ⊢
  unfold connectionSetSelf at h3
  split at h3
  · exact ⟨_, hitf ▸ connectionSetSelfIpPort_mem h3⟩
  · rename_i hno
    obtain rfl := (Prod.ext_iff.mp h3).2
    exact absurd hfull hno

theorem connectionCreate_self {t t' : Tables} {malloc : Option ℕ} {pkt : Packet} {vs cp : ℕ}
    (h : connectionCreate malloc t pkt vs = (some cp, t'))
    (hfull : connectionIsFullnat (t'.conn cp) = true) :
    ∃ k, (t'.conn cp).self_addr ∈ t.itf.nic k false (packetIsIpv4 pkt) := by
  unfold connectionCreate at h
  generalize memPoolAlloc malloc t.conn_mem_pool = r at h
  obtain ⟨node, mp⟩ := r
  cases node with
  | none => exact absurd (Prod.ext_iff.mp h).1 (by simp)
  | some node =>
    dsimp only at h
    generalize hs : connectionSetup { t with conn_mem_pool := mp } node pkt vs = r at h
    obtain ⟨ok, t1⟩ := r
    cases ok with
    | false => exact absurd (Prod.ext_iff.mp h).1 (by simp)
    | true =>
      simp only [Bool.true_eq_false, if_false, connectionAdd_eq] at h
      obtain ⟨hcp, rfl⟩ := Prod.mk.inj h
      obtain rfl := Option.some.inj hcp
      have hself := connectionSetup_self hs
      exact hself hfull

/-! ## What stays of a connection -/

/-- **A connection is what it was** but for its protocol and TCP state, and so are the
addresses and the virtual servers. -/
structure Tables.KeepsConnection (t t' : Tables) (cp : ℕ) : Prop where
  /-- The connection. -/
  conn : ∃ p s, t'.conn cp = { t.conn cp with protocol := p, state := s }
  /-- The addresses. -/
  itf : t.itf.Keeps t'.itf
  /-- The virtual servers. -/
  vservers : t'.vservers = t.vservers

namespace Tables

variable {t t' t'' : Tables} {cp : ℕ}

theorem KeepsConnection.refl (t : Tables) (cp : ℕ) : t.KeepsConnection t cp :=
  ⟨t.conn_self cp, Interface.Keeps.refl _, rfl⟩

theorem KeepsConnection.trans (h : t.KeepsConnection t' cp) (h' : t'.KeepsConnection t'' cp) :
    t.KeepsConnection t'' cp := by
  obtain ⟨p, s, hconn⟩ := h.conn
  obtain ⟨p', s', hconn'⟩ := h'.conn
  exact ⟨⟨p', s', by rw [hconn', hconn]⟩, h.itf.trans h'.itf, h'.vservers.trans h.vservers⟩

/-- The connection is live and what it was in `t₀`, or has been freed since. -/
structure Keeping (t₀ : Tables) (cp : ℕ) (t : Tables) : Prop where
  /-- The containers agree. -/
  ok : t.Ok
  /-- What has been freed since. -/
  kept : ∃ new, t.freed = t₀.freed ++ new
    ∧ ((∀ e ∈ new, e.1 ≠ cp) → cp ∈ t.live ∧ t₀.KeepsConnection t cp)

/-- **A connection stays what it was until it is freed.** -/
theorem stable_keeping (t₀ : Tables) (cp : ℕ) : Stable (Keeping t₀ cp) := by
  have hsame : ∀ t t', Keeping t₀ cp t → t'.Ok → t'.freed = t.freed →
      (cp ∈ t.live → cp ∈ t'.live) → (cp ∈ t.live → t.KeepsConnection t' cp) →
      Keeping t₀ cp t' := by
    intro t t' h hok hfreed hlive hkeeps
    obtain ⟨new, hnew, hk⟩ := h.kept
    refine ⟨hok, new, hfreed.trans hnew, fun hno => ?_⟩
    obtain ⟨hl, hkc⟩ := hk hno
    exact ⟨hlive hl, hkc.trans (hkeeps hl)⟩
  refine ⟨fun _ h => h.ok, ?_, ?_, ?_, ?_, ?_, ?_⟩
  · intro t clock h htable htotal hwheel
    exact hsame _ _ h (h.ok.of_clock htable htotal hwheel) rfl id
      (fun _ => ⟨t.conn_self cp, Interface.Keeps.refl _, rfl⟩)
  · intro t t' h ha
    refine hsame _ _ h (h.ok.assigns ha) (by rw [ha.eq]) ?_ fun _ => ⟨ha.conn cp, ?_, ?_⟩
    · rw [live, live, ha.eq]
      exact id
    · have hitf : t'.itf = t.itf := by rw [ha.eq]
      exact hitf ▸ Interface.Keeps.refl _
    · rw [ha.eq]
  · intro t t' h ha
    obtain ⟨rt, pool, sent, rfl⟩ : ∃ rt pool sent, t' =
      { t with rt := rt, pool := pool, sent := sent } := ⟨_, _, _, ha⟩
    exact hsame _ _ h (h.ok.arps ha) rfl id
      (fun _ => ⟨t.conn_self cp, Interface.Keeps.refl _, rfl⟩)
  · intro t t' h hn
    refine hsame _ _ h (h.ok.notCreated hn) (by rw [hn.eq]) ?_ fun hl => ⟨?_, hn.itf, ?_⟩
    · rw [hn.sameConnections.live]
      exact id
    · rw [hn.conn cp (h.ok.mem_live.mp hl)]
      exact t.conn_self cp
    · rw [hn.eq]
  · intro t pkt vs x t' h _ hc
    have hok' := h.ok.created hc
    refine hsame _ _ h hok' (by rw [hc.eq]) ?_ fun hl => ⟨?_, hc.itf, ?_⟩
    · rw [hok'.mem_live, hc.outstanding, h.ok.mem_live]
      exact List.mem_cons_of_mem x
    · have hne : cp ≠ x := fun he => hc.fresh (he ▸ h.ok.mem_live.mp hl)
      rw [hc.conn cp hne]
      exact t.conn_self cp
    · rw [hc.eq]
  · intro t x h hx
    obtain ⟨new, hnew, hk⟩ := h.kept
    have hok' := h.ok.free hx
    refine ⟨hok', new ++ [(x, decide (x ∈ t.live))], ?_, fun hno => ?_⟩
    · rw [connectionFree_eq, ← List.append_assoc, ← hnew]
    · obtain ⟨hl, hkc⟩ := hk (fun e he => hno e (List.mem_append_left _ he))
      have hne : cp ≠ x := fun he =>
        hno _ (List.mem_append_right _ (List.mem_singleton_self _)) he.symm
      refine ⟨?_, hkc.trans ⟨?_, keeps_connectionFree t x, ?_⟩⟩
      · rw [hok'.mem_live, connectionFree_eq]
        exact (List.mem_erase_of_ne hne).mpr (h.ok.mem_live.mp hl)
      · rw [connectionFree_eq]
        exact t.conn_self cp
      · rw [connectionFree_eq]

end Tables

/-! ## The ends of the packets -/

/-- A packet of a family carries an address: it is of the family, and its words stand in the
frame. -/
def Carries (is_ipv4 : Bool) (frame ip : IpAddress) : Prop :=
  ipAddressIsIpv4 ip = is_ipv4 ∧ frame = addrAs is_ipv4 ip

/-- The address of a frame is what the frame carries of it. -/
theorem addrAs_frameAddr {is_ipv4 : Bool} {m : Memory} {off4 off6 : ℕ} {ip : IpAddress}
    (h : ipAddressEq (frameAddr is_ipv4 m off4 off6) ip = true) :
    addrAs is_ipv4 ip = frameAddr is_ipv4 m off4 off6 := by
  obtain ⟨hfam, h0, hrest⟩ := ipAddressEq_iff.mp h
  cases is_ipv4 with
  | true => exact congrArg IpAddress.v4 h0.symm
  | false =>
    have h64 : afInet6 ≠ afInet := by decide
    obtain ⟨h1, h2, h3⟩ := hrest h64
    show IpAddress.mk afInet6 ip.ip6_0 ip.ip6_1 ip.ip6_2 ip.ip6_3 = _
    rw [← h0, ← h1, ← h2, ← h3]
    rfl

/-- **A packet on its way to the server.** -/
structure SentToServer (t : Tables) (c : Connection) (pkt out : Packet) : Prop where
  /-- The source is the self IP. -/
  source_ip : Carries (packetIsIpv4 pkt) out.frameSource.ip (t.itf.lip c.self_addr).addr
  /-- The source is the self port. -/
  source_port : out.frameSource.port = c.self_port
  /-- The destination is the server. -/
  dest_ip : Carries (packetIsIpv4 pkt) out.frameDest.ip (serverAt t.pool c.server).addr.ip
  /-- It is the server's port. -/
  dest_port : out.frameDest.port = (serverAt t.pool c.server).addr.port
  /-- It comes from the MAC address of the adapter. -/
  source_mac : loadMac out.data (out.mac_header + 6) = t.mac c.server_adapter_idx.toNat
  /-- It goes to the MAC address of the server. -/
  dest_mac : loadMac out.data out.mac_header = (serverAt t.pool c.server).mac
  /-- It leaves by the adapter of the server. -/
  adapter_idx : out.adapter_idx = c.server_adapter_idx
  /-- No other byte is changed. -/
  frame : ∀ i, ¬ pkt.Rewritten i → out.data i = pkt.data i

/-- **A packet on its way back to the client**, which sent `p`. -/
structure SentBack (p pkt out : Packet) : Prop where
  /-- The source is what the client sent to. -/
  source : out.frameSource = p.frameDest
  /-- The destination is what the client sent from. -/
  dest : out.frameDest = p.frameSource
  /-- It goes to the MAC address the client's packet came from. -/
  dest_mac : loadMac out.data out.mac_header = loadMac p.data (p.mac_header + 6)
  /-- It leaves by the adapter the client's packet came in on. -/
  adapter_idx : out.adapter_idx = p.adapter_idx
  /-- No other byte is changed. -/
  frame : ∀ i, ¬ pkt.Rewritten i → out.data i = pkt.data i

section Ends

variable {t t₂ : Tables} {cp : ℕ} {p r : Packet}

/-- A packet of a full-NAT connection whose self IP and server are of its family is sent to
the server. -/
theorem sentToServer_processRewrite {c : Connection} (hf : p.IpFields)
    (hfull : connectionIsFullnat c = true)
    (hself : ipAddressIsIpv4 (t.itf.lip c.self_addr).addr = packetIsIpv4 p)
    (hserver : (serverAt t.pool c.server).addr.ip.family = p.family) :
    SentToServer t c p (processRewrite t c p true) := by
  have htr := translated_processRewrite t c hf true
  have hframe := fun i => processRewrite_frame t c hf true (i := i)
  generalize processRewrite t c p true = out at htr hframe
  refine ⟨⟨hself, ?_⟩, ?_, ⟨?_, ?_⟩, ?_, ?_, ?_, congrArg Packet.adapter_idx htr.eq, hframe⟩
  · rw [htr.source_ip, if_pos rfl, if_pos hfull]
    rfl
  · rw [htr.source_port, if_pos rfl, if_pos hfull]
    rfl
  · rw [ipAddressIsIpv4, hserver]
    rfl
  · rw [htr.dest_ip, if_pos rfl]
    rfl
  · rw [htr.dest_port, if_pos rfl]
    rfl
  · exact htr.source_mac
  · rw [htr.dest_mac, if_pos rfl]

/-- **A packet back to the client is sent as one from where the client sent to**, whatever
its ends were. -/
theorem sentBack_processRewrite {c : Connection} (hp : p.IpFields)
    (hproto : HasPorts p.protocol_ip) (hr : r.IpFields) (hfam : r.family = p.family)
    (hfull : connectionIsFullnat c = true)
    (hvs_ip : ipAddressEq p.daddr.ip (connectionVsIp t c) = true)
    (hvs_port : (t.vservers.vserver c.vs).port = p.daddr.port) (hclient : c.client = p.saddr)
    (hmac : c.client_mac = loadMac p.data (p.mac_header + 6))
    (hadapter : c.client_adapter_idx = p.adapter_idx) :
    SentBack p r (processRewrite t c r false) := by
  have htr := translated_processRewrite t c hr false
  have hframe := fun i => processRewrite_frame t c hr false (i := i)
  generalize processRewrite t c r false = out at htr hframe
  obtain ⟨hsource, hdest, hports⟩ := hp.frame_eq
  obtain ⟨hsport, hdport⟩ := hports hproto
  have h4 : packetIsIpv4 r = packetIsIpv4 p := by rw [packetIsIpv4, hfam, packetIsIpv4]
  refine ⟨?_, ?_, htr.dest_mac.trans hmac, ?_, hframe⟩
  · have hip : out.frameSource.ip = p.frameDest.ip := by
      rw [htr.source_ip, h4]
      exact addrAs_frameAddr (ipAddressEq_trans hdest hvs_ip)
    have hport : out.frameSource.port = p.frameDest.port := by
      rw [htr.source_port, hdport]
      exact hvs_port
    exact congrArg₂ NetAddress.mk hip hport
  · have hip : out.frameDest.ip = p.frameSource.ip := by
      rw [htr.dest_ip, h4]
      refine (if_pos hfull).trans (addrAs_frameAddr ?_)
      rw [show (connectionAddrs t c).client = p.saddr.ip from congrArg NetAddress.ip hclient]
      exact hsource
    have hport : out.frameDest.port = p.frameSource.port := by
      rw [htr.dest_port, hsport]
      exact (if_pos hfull).trans (congrArg NetAddress.port hclient)
    exact congrArg₂ NetAddress.mk hip hport
  · exact (congrArg Packet.adapter_idx htr.eq).trans hadapter

end Ends

/-- **The states from the creation of a connection for a packet until it is freed**: the
tables just after, and those of any run of the process after that packet is forwarded in
which nobody frees it. -/
inductive Tables.UntilFreed (t : Tables) (cp : ℕ) (p : Packet) : Tables → Prop
  /-- Just after. -/
  | created : UntilFreed t cp p t
  /-- After a run. -/
  | later {ls : List ProcessLabel} {t₂ : Tables} {new : List (ℕ × Bool)}
      (hrun : processSystem.Run (processForward t cp p true).2.2 ls t₂)
      (hfreed : t₂.freed = t.freed ++ new) (hopen : ∀ e ∈ new, e.1 ≠ cp) :
      UntilFreed t cp p t₂

theorem Tables.UntilFreed.keeps {t t₂ : Tables} {cp : ℕ} {p : Packet}
    (h : t.UntilFreed cp p t₂) (hok : t.Ok) (hcp : cp ∈ t.live) : t.KeepsConnection t₂ cp := by
  cases h with
  | created => exact .refl t cp
  | later hrun hfreed hopen =>
    have hstable := Tables.stable_keeping t cp
    have hstart : Tables.Keeping t cp t :=
      ⟨hok, [], (List.append_nil _).symm, fun _ => ⟨hcp, .refl t cp⟩⟩
    have hend := hrun.invariant hstable.step (hstable.forward hstart hcp p true)
    obtain ⟨new, hnew, hkept⟩ := hend.kept
    obtain rfl : new = _ := List.append_cancel_left (hnew.symm.trans hfreed)
    exact (hkept hopen).2

/-- **Full-NAT translation is inverted on the way back.** A packet of a client to a full-NAT
virtual server, of its servers' family, for which a connection is created, goes to the
server of the connection from its self address; and until the connection is freed every
packet of that family, of the server, goes back as one from where the client sent to, to
where it sent from. In both directions no byte is changed but the MAC addresses, the
addresses and ports and the checksums. -/
theorem processConnection_inverted {t t' : Tables} (h : processSystem.Reachable t)
    {malloc : Option ℕ} (hm : t.conn_mem_pool.MallocOk malloc) {p : Packet}
    (hp : PacketAccepted p) (hip : packetIsIp p = true) (hproto : HasPorts p.protocol_ip)
    {V : ℕ} (hV : ToVserver t p V) (hfull : (t.vservers.vserver V).is_fullnat ≠ 0) {cp : ℕ}
    (hc : connectionCreate malloc t p V = (some cp, t'))
    (hfam : (serverAt t'.pool (t'.conn cp).server).addr.ip.family = p.family) :
    ((processConnection t' cp p true).2.2.sent
        = t'.sent ++ [(processConnection t' cp p true).2.1]
      ∧ SentToServer t' (t'.conn cp) p (processConnection t' cp p true).2.1)
    ∧ ∀ t₂, t'.UntilFreed cp p t₂ → ∀ r, PacketAccepted r → packetIsIp r = true →
        r.family = p.family →
        (processConnection t₂ cp r false).2.2.sent
            = t₂.sent ++ [(processConnection t₂ cp r false).2.1]
          ∧ SentBack p r (processConnection t₂ cp r false).2.1 := by
  have hok := Tables.ok_of_reachable h
  have hspec := connectionCreate_spec hok.mem hm hok.ranges p V
  rw [hc] at hspec
  dsimp only at hspec
  have hok' := hok.created hspec
  have hlive : cp ∈ t'.live := by
    rw [hok'.mem_live, hspec.outstanding]
    exact List.mem_cons_self
  have hset := hspec.setUp
  have hfullc : connectionIsFullnat (t'.conn cp) = true :=
    hset.fullnat.trans (bne_iff_ne.mpr hfull)
  have hpf := hp.ipFields hip
  refine ⟨⟨rfl, sentToServer_processRewrite hpf hfullc ?_ hfam⟩, ?_⟩
  · -- the self IP is from the list of the packet's family
    obtain ⟨k, hmem⟩ := connectionCreate_self hc hfullc
    obtain ⟨-, hself⟩ := Tables.families_of_reachable h k _ _ _ hmem
    rw [ipAddressIsIpv4, hspec.itf.addr]
    exact hself
  · intro t₂ huntil r hr hrip hrfam
    have hkeeps := huntil.keeps hok' hlive
    obtain ⟨proto, state, hconn⟩ := hkeeps.conn
    obtain ⟨l, hl⟩ := Option.isSome_iff_exists.mp hV.vsip
    refine ⟨rfl, sentBack_processRewrite hpf hproto (hr.ipFields hrip) hrfam
      ?_ ?_ ?_ ?_ ?_ ?_⟩
    · rw [hconn]
      exact hfullc
    · rw [connectionVsIp, hconn]
      dsimp only
      rw [hset.vs_addr, hl, hkeeps.itf.addr, Option.getD_some, hspec.itf.addr]
      exact interfaceLookup_eq hl
    · rw [hkeeps.vservers, hconn, hspec.eq]
      dsimp only
      rw [hset.vs_eq]
      exact (vserverLookup_eq hV.lookup).1
    · rw [hconn]
      exact hset.client
    · rw [hconn]
      exact hset.mac
    · rw [hconn]
      exact hset.adapter

/-- The first packet of a client in full-NAT mode goes to the server, and back. -/
theorem processConnection_inverted_first :
    SentBack (tcpPacket 3 1 [4, 133] [0, 80] 2) (tcpPacket 4 2 [0, 80] [0, 4] 16)
      (processConnection (connectionCreate (some 0x100000) (twoVservers (twoIps 1024 1027) 1)
        (tcpPacket 3 1 [4, 133] [0, 80] 2) 0).2 0x1fff80
        (tcpPacket 4 2 [0, 80] [0, 4] 16) false).2.1 := by
  have hback := (processConnection_inverted
    (System.Reachable.of_init (started_twoVservers 1024 1027 1))
    (mallocOk_twoVservers _ _ 0x100000) (accepted_tcpPacket 3 1 [4, 133] [0, 80] 2)
    (tcpPacket_isTcp 3 1 [4, 133] [0, 80] 2).1 (Or.inl (by decide +kernel))
    (V := 0) ⟨by decide +kernel, by decide +kernel⟩ (by decide +kernel)
    (Prod.ext (by decide +kernel) rfl) (by decide +kernel)).2
  exact (hback _ .created (tcpPacket 4 2 [0, 80] [0, 4] 16) (accepted_tcpPacket _ _ _ _ _)
    (tcpPacket_isTcp _ _ _ _ _).1 (by decide +kernel)).2
