import Ustack.Connection

/-!
# Setting up a connection

What `connection_create` does, told once for all later proofs. Between taking a
structure and linking it, a creation assigns that structure and goes round
servers, routes and addresses (`Tables.SetsUp`); it may stop at four places, and
by then has taken no port it does not give the connection. So every creation is
one of two things: `NotCreated`, after which the tables are as they were but for
whose turn it is, or `Created`, which says what the new connection is and where
it is linked.
-/

/-! ## The steps of a creation -/

namespace Tables

@[simp] theorem conn_setConn_self (t : Tables) (cp : ℕ) (f : Connection → Connection) :
    (t.setConn cp f).conn cp = f (t.conn cp) := Function.update_self _ _ _

@[simp] theorem itf_setConn (t : Tables) (cp : ℕ) (f : Connection → Connection) :
    (t.setConn cp f).itf = t.itf := rfl

@[simp] theorem conn_setItf (t : Tables) (itf : Interface) :
    (t.setItf itf).conn = t.conn := rfl

@[simp] theorem itf_setItf (t : Tables) (itf : Interface) :
    (t.setItf itf).itf = itf := rfl

@[simp] theorem conn_setRt (t : Tables) (rt : RouteTable) :
    (t.setRt rt).conn = t.conn := rfl

@[simp] theorem conn_setPool (t : Tables) (pool : ℕ → ServerPool) :
    (t.setPool pool).conn = t.conn := rfl

theorem conn_setConn_of_ne (t : Tables) {cp x : ℕ} (h : x ≠ cp)
    (f : Connection → Connection) : (t.setConn cp f).conn x = t.conn x :=
  Function.update_of_ne h _ _

/-- The part of a creation that comes before linking assigns the structure being
set up, goes round servers, routes and addresses, and takes ports. -/
structure SetsUp (t t' : Tables) (cp : ℕ) : Prop where
  /-- Nothing else is assigned. -/
  eq : t' = { t with conn := t'.conn, pool := t'.pool, rt := t'.rt, itf := t'.itf }
  /-- No other connection is assigned. -/
  conn : ∀ x, x ≠ cp → t'.conn x = t.conn x
  /-- The servers stay what they are. -/
  server : ∀ srv, serverAt t'.pool srv = serverAt t.pool srv
  /-- The addresses stay where they are. -/
  itf : t.itf.Keeps t'.itf

variable {a t : Tables} {cp : ℕ}

theorem SetsUp.refl (t : Tables) (cp : ℕ) : SetsUp t t cp :=
  ⟨rfl, fun _ _ => rfl, fun _ => rfl, Interface.Keeps.refl _⟩

theorem SetsUp.setConn (h : SetsUp a t cp) (f : Connection → Connection) :
    SetsUp a (t.setConn cp f) cp :=
  ⟨by conv_lhs => rw [h.eq]
      rfl,
    fun x hx => (t.conn_setConn_of_ne hx f).trans (h.conn x hx), h.server, h.itf⟩

theorem SetsUp.setRt (h : SetsUp a t cp) (rt : RouteTable) : SetsUp a (t.setRt rt) cp :=
  ⟨by conv_lhs => rw [h.eq]
      rfl, h.conn, h.server, h.itf⟩

theorem SetsUp.setItf (h : SetsUp a t cp) {itf : Interface} (hk : t.itf.Keeps itf) :
    SetsUp a (t.setItf itf) cp :=
  ⟨by conv_lhs => rw [h.eq]
      rfl, h.conn, h.server, h.itf.trans hk⟩

theorem SetsUp.setPool (h : SetsUp a t cp) {pool : ℕ → ServerPool}
    (hp : ∀ srv, serverAt pool srv = serverAt t.pool srv) :
    SetsUp a (t.setPool pool) cp :=
  ⟨by conv_lhs => rw [h.eq]
      rfl, h.conn, fun srv => (hp srv).trans (h.server srv), h.itf⟩

end Tables

section Setup

variable {a t : Tables} {cp : ℕ}

theorem orErr_eq_true {step : Bool × Tables} {next : Tables → Bool × Tables}
    {t' : Tables} (h : orErr step next = (true, t')) :
    ∃ t, step = (true, t) ∧ next t = (true, t') := by
  unfold orErr at h
  split at h
  · rename_i hs
    exact ⟨step.2, Prod.ext hs rfl, h⟩
  · exact absurd (congrArg Prod.fst h) Bool.false_ne_true

/-- A step that succeeds or fails at its end: one of the two is where it fails. -/
theorem orErr_eq_false {step : Bool × Tables} {next : Tables → Bool × Tables}
    {t' : Tables} (h : orErr step next = (false, t')) :
    step = (false, t') ∨ ∃ t, step = (true, t) ∧ next t = (false, t') := by
  unfold orErr at h
  split at h
  · rename_i hs
    exact Or.inr ⟨step.2, Prod.ext hs rfl, h⟩
  · rename_i hs
    have h2 : step.2 = t' := (Prod.ext_iff.mp h).2
    exact Or.inl (Prod.ext (by simpa using hs) h2)

theorem Tables.SetsUp.andThen {step : Bool × Tables} {next : Tables → Bool × Tables}
    (h : a.SetsUp step.2 cp) (hnext : ∀ t, a.SetsUp t cp → a.SetsUp (next t).2 cp) :
    a.SetsUp (orErr step next).2 cp := by
  unfold orErr
  split
  · exact hnext _ h
  · exact h

theorem Tables.SetsUp.setServer (h : a.SetsUp t cp) (v : Vserver) :
    a.SetsUp (connectionSetServer t cp v).2 cp := by
  have hpool := serverAt_serverPoolGetServer t.pool v.pool
  unfold connectionSetServer
  dsimp only
  split
  · exact h.setPool hpool
  · dsimp only
    exact (h.setPool hpool).setConn _

theorem Tables.SetsUp.setRoute (h : a.SetsUp t cp) (pkt : Packet) (srv : ServerPtr) :
    a.SetsUp (connectionSetRoute t pkt cp srv).2 cp := by
  unfold connectionSetRoute
  dsimp only
  split <;> dsimp only
  · exact (h.setConn _).setRt _
  · exact ((h.setConn _).setRt _).setConn _

theorem Tables.SetsUp.setSelfIpPort (h : a.SetsUp t cp) (nic_id : ℕ)
    (is_ipv4 is_tcp : Bool) :
    a.SetsUp (connectionSetSelfIpPort t cp nic_id is_ipv4 is_tcp).2 cp := by
  obtain ⟨hkeeps, -, -⟩ := interfaceGetLipRr_spec t.itf nic_id false is_ipv4
  unfold connectionSetSelfIpPort
  dsimp only
  split
  · exact h.setItf hkeeps
  · split <;> dsimp only
    · exact ((h.setItf hkeeps).setConn _).setItf (Interface.keeps_setLip _ _ _ _)
    · exact (((h.setItf hkeeps).setConn _).setItf
        (Interface.keeps_setLip _ _ _ _)).setConn _

theorem Tables.SetsUp.setSelf (h : a.SetsUp t cp) (pkt : Packet) (v : Vserver) :
    a.SetsUp (connectionSetSelf t cp pkt v).2 cp := by
  unfold connectionSetSelf
  split
  · exact h.setSelfIpPort _ _ _
  · exact h

/-- **A creation touches nothing but the structure it sets up**, the turns of
servers, routes and addresses, and port ranges, until it links the structure. -/
theorem setsUp_connectionSetup (t : Tables) (cp : ℕ) (pkt : Packet) (vs : ℕ) :
    t.SetsUp (connectionSetup t cp pkt vs).2 cp := by
  unfold connectionSetup
  refine (((Tables.SetsUp.refl t cp).setConn _).setServer _).andThen (fun t h => ?_)
  refine (h.setRoute _ _).andThen (fun t h => ?_)
  refine (h.setSelf _ _).andThen (fun t h => ?_)
  dsimp only
  exact h.setConn _

end Setup

/-! ## What a successful setup makes -/

theorem or_one_and_one (x : UInt8) : (x ||| 1) &&& 1 = 1 := by
  rw [← UInt8.toNat_inj]
  simp [UInt8.toNat_or, UInt8.toNat_and]

theorem and_fe_and_one (x : UInt8) : (x &&& 0xfe) &&& 1 = 0 := by
  rw [UInt8.and_assoc, show (0xfe &&& 1 : UInt8) = 0 from rfl, UInt8.and_zero]

/-- The mode is the virtual server's, whatever the flags were. -/
theorem connectionIsFullnat_setVs (c : Connection) (vs_addr : Option ℕ) (vs : ℕ)
    (v : Vserver) : connectionIsFullnat (c.setVs vs_addr vs v) = (v.is_fullnat != 0) := by
  unfold Connection.setVs
  dsimp only
  split
  · rename_i h
    rw [connectionIsFullnat, connectionSetFullnat, or_one_and_one]
    exact (bne_iff_ne.mpr h).symm
  · rename_i h
    rw [connectionIsFullnat, connectionSetTransparant, and_fe_and_one, not_not.mp h]

section Setup

variable {t t' : Tables} {cp : ℕ}

theorem connectionSetServer_true {v : Vserver}
    (h : connectionSetServer t cp v = (true, t')) :
    t'.itf = t.itf ∧ ∃ srv : ServerPtr, srv.1 = v.pool
      ∧ t'.conn cp = { t.conn cp with server := srv } := by
  unfold connectionSetServer serverPoolGetServer at h
  dsimp only at h
  by_cases hnum : (t.pool v.pool).num = 0
  · rw [if_pos hnum] at h
    exact absurd (Prod.ext_iff.mp h).1 Bool.false_ne_true
  · rw [if_neg hnum] at h
    dsimp only at h
    obtain rfl := (Prod.ext_iff.mp h).2
    refine ⟨rfl, (v.pool, (t.pool v.pool).next), rfl, ?_⟩
    simp only [Tables.conn_setConn_self, Tables.conn_setPool]

theorem connectionSetRoute_true {pkt : Packet} {srv : ServerPtr}
    (h : connectionSetRoute t pkt cp srv = (true, t')) :
    t'.itf = t.itf ∧ ∃ re,
      t'.conn cp = ((t.conn cp).setClientRoute pkt).setServerRoute re := by
  unfold connectionSetRoute at h
  dsimp only at h
  split at h
  · exact absurd (Prod.ext_iff.mp h).1 Bool.false_ne_true
  · rename_i re _
    obtain rfl := (Prod.ext_iff.mp h).2
    refine ⟨rfl, re, ?_⟩
    simp only [Tables.conn_setConn_self, Tables.conn_setRt]

end Setup

/-- A connection took the next port of a range of the self IP it was given. -/
structure Connection.Took (c : Connection) (itf itf' : Interface) (is_tcp : Bool) :
    Prop where
  /-- The self IP is in the list of a NIC. -/
  mem_nic : ∃ k f, c.self_addr ∈ itf.nic k false f
  /-- The port. -/
  port_eq : c.self_port
    = (portRangeGetPort1 ((itf.lip c.self_addr).range is_tcp)).1
  /-- It is a port. -/
  port_ne : c.self_port ≠ 0
  /-- The addresses afterwards. -/
  lip_eq : itf'.lip = (itf.setLip c.self_addr ((itf.lip c.self_addr).setRange is_tcp
    (portRangeGetPort1 ((itf.lip c.self_addr).range is_tcp)).2)).lip

theorem connectionSetSelfIpPort_true {t t' : Tables} {cp nic_id : ℕ}
    {is_ipv4 is_tcp : Bool}
    (h : connectionSetSelfIpPort t cp nic_id is_ipv4 is_tcp = (true, t')) :
    (t'.conn cp).Took t.itf t'.itf is_tcp
      ∧ ∃ l port, t'.conn cp = { t.conn cp with self_addr := l, self_port := port } := by
  obtain ⟨-, hlip, hmem⟩ := interfaceGetLipRr_spec t.itf nic_id false is_ipv4
  unfold connectionSetSelfIpPort at h
  generalize interfaceGetLipRr t.itf nic_id false is_ipv4 = r at h hlip hmem
  obtain ⟨lip, itf⟩ := r
  cases lip with
  | none => exact absurd (Prod.ext_iff.mp h).1 Bool.false_ne_true
  | some l =>
    dsimp only at hlip hmem
    simp only [Tables.itf_setConn, Tables.itf_setItf, lipGetPort_zero, hlip] at h
    by_cases hport : (portRangeGetPort1 ((t.itf.lip l).range is_tcp)).1 = 0
    · rw [if_pos hport] at h
      exact absurd (Prod.ext_iff.mp h).1 Bool.false_ne_true
    · rw [if_neg hport] at h
      obtain rfl := (Prod.ext_iff.mp h).2
      have hc : ∀ port, (((((t.setItf itf).setConn cp (fun c => { c with self_addr := l })).setItf
          (itf.setLip l ((t.itf.lip l).setRange is_tcp
            (portRangeGetPort1 ((t.itf.lip l).range is_tcp)).2))).setConn cp
          (fun c => { c with self_port := port })).conn cp)
          = { t.conn cp with self_addr := l, self_port := port } := by
        intro port
        simp only [Tables.conn_setConn_self, Tables.conn_setItf]
      refine ⟨?_, l, _, hc _⟩
      rw [hc]
      refine ⟨⟨nic_id, is_ipv4, hmem l rfl⟩, rfl, hport, ?_⟩
      funext l'
      show (itf.setLip l _).lip l' = (t.itf.setLip l _).lip l'
      simp only [Interface.setLip, hlip]

/-- A setup that fails after taking a self IP got no port from it, and a range of
ports that are not zero is then as it was. -/
theorem connectionSetSelfIpPort_false {t t' : Tables} {cp nic_id : ℕ}
    {is_ipv4 is_tcp : Bool} (hok : t.itf.RangesOk)
    (h : connectionSetSelfIpPort t cp nic_id is_ipv4 is_tcp = (false, t')) :
    t'.itf.lip = t.itf.lip := by
  obtain ⟨-, hlip, -⟩ := interfaceGetLipRr_spec t.itf nic_id false is_ipv4
  unfold connectionSetSelfIpPort at h
  generalize interfaceGetLipRr t.itf nic_id false is_ipv4 = r at h hlip
  obtain ⟨lip, itf⟩ := r
  cases lip with
  | none =>
    obtain rfl := (Prod.ext_iff.mp h).2
    exact hlip
  | some l =>
    dsimp only at hlip
    simp only [Tables.itf_setConn, Tables.itf_setItf, lipGetPort_zero, hlip] at h
    by_cases hport : (portRangeGetPort1 ((t.itf.lip l).range is_tcp)).1 = 0
    · rw [if_pos hport] at h
      obtain rfl := (Prod.ext_iff.mp h).2
      rw [PortRange.getPort1_eq_zero (hok l is_tcp).2 hport]
      show Function.update itf.lip l _ = t.itf.lip
      rw [LocalIp.setRange_range, hlip, Function.update_eq_self]
    · rw [if_neg hport] at h
      exact absurd (Prod.ext_iff.mp h).1.symm Bool.false_ne_true

theorem Connection.setVs_eq (c : Connection) (vs_addr : Option ℕ) (vs : ℕ) (v : Vserver) :
    ∃ flags, c.setVs vs_addr vs v
      = { c with vs_addr := vs_addr, protocol := v.protocol, vs := vs, flags := flags } := by
  unfold Connection.setVs
  dsimp only
  split
  · exact ⟨c.flags ||| 1, rfl⟩
  · exact ⟨c.flags &&& 0xfe, rfl⟩

theorem Connection.setClient_eq (c : Connection) (pkt : Packet) (is_tcp : Bool) :
    ∃ state, c.setClient pkt is_tcp
      = { c with client_addr := pkt.saddr.ip, client_port := pkt.saddr.port
                 state := state } := by
  cases is_tcp
  · exact ⟨c.state, rfl⟩
  · exact ⟨0, rfl⟩

/-- **What a connection is set up as.** -/
structure SetUp (t : Tables) (pkt : Packet) (vs : ℕ) (itf' : Interface)
    (c : Connection) : Prop where
  /-- It belongs to the virtual server. -/
  vs_eq : c.vs = vs
  /-- The vs IP is the destination of the packet. -/
  vs_addr : c.vs_addr = ngInterfaceLookupVsip t.hash_rand t.itf pkt.daddr.ip
  /-- The protocol is the virtual server's. -/
  protocol : c.protocol = (t.vservers.vserver vs).protocol
  /-- The mode is the virtual server's. -/
  fullnat : connectionIsFullnat c = ((t.vservers.vserver vs).is_fullnat != 0)
  /-- The client is the source of the packet. -/
  client : c.client = pkt.saddr
  /-- The server is of the virtual server's pool. -/
  server : c.server.1 = (t.vservers.vserver vs).pool
  /-- The way back is to where the packet came from. -/
  mac : c.client_mac = loadMac pkt.data (pkt.mac_header + 6)
  /-- By the adapter it came in on. -/
  adapter : c.client_adapter_idx = pkt.adapter_idx
  /-- In full-NAT mode it took a port. -/
  took : connectionIsFullnat c = true → c.Took t.itf itf' (connectionIsTcp c)
  /-- In transparent mode it took none. -/
  kept : connectionIsFullnat c = false → itf'.lip = t.itf.lip

theorem connectionSetup_true {t t' : Tables} {cp : ℕ} {pkt : Packet} {vs : ℕ}
    (h : connectionSetup t cp pkt vs = (true, t')) :
    SetUp t pkt vs t'.itf (t'.conn cp) := by
  unfold connectionSetup at h
  obtain ⟨t1, h1, h⟩ := orErr_eq_true h
  obtain ⟨t2, h2, h⟩ := orErr_eq_true h
  obtain ⟨t3, h3, h⟩ := orErr_eq_true h
  obtain rfl := (Prod.ext_iff.mp h).2
  obtain ⟨hitf1, srv, hsrv, hc1⟩ := connectionSetServer_true h1
  obtain ⟨hitf2, re, hc2⟩ := connectionSetRoute_true h2
  have hfull := connectionIsFullnat_setVs (t.conn cp)
    (ngInterfaceLookupVsip t.hash_rand t.itf pkt.daddr.ip) vs (t.vservers.vserver vs)
  obtain ⟨flags, hvs⟩ := Connection.setVs_eq (t.conn cp)
    (ngInterfaceLookupVsip t.hash_rand t.itf pkt.daddr.ip) vs (t.vservers.vserver vs)
  rw [Tables.conn_setConn_self] at hc1
  have hitf : t2.itf = t.itf := hitf2.trans hitf1
  unfold connectionSetSelf at h3
  dsimp only
  rw [Tables.conn_setConn_self, Tables.itf_setConn]
  obtain ⟨state, hclient⟩ := Connection.setClient_eq (t3.conn cp) pkt
    (vsIsTcp (t.vservers.vserver vs))
  rw [hclient]
  rw [hvs] at hc1 hfull
  rw [hc1] at hc2
  have hc2full : connectionIsFullnat (t2.conn cp)
      = ((t.vservers.vserver vs).is_fullnat != 0) := by rw [hc2]; exact hfull
  by_cases hf : connectionIsFullnat (t2.conn cp) = true
  · rw [if_pos hf] at h3
    obtain ⟨htook, l, port, hc3⟩ := connectionSetSelfIpPort_true h3
    rw [hitf] at htook
    rw [hc3] at htook ⊢
    rw [hc2] at htook hf hc2full ⊢
    exact ⟨rfl, rfl, rfl, hc2full, rfl, hsrv, rfl, rfl,
      fun _ => ⟨htook.mem_nic, htook.port_eq, htook.port_ne, htook.lip_eq⟩,
      fun hno => absurd (hf.symm.trans hno) (by decide)⟩
  · rw [if_neg hf] at h3
    obtain rfl := (Prod.ext_iff.mp h3).2
    dsimp only
    rw [hc2] at hf hc2full ⊢
    exact ⟨rfl, rfl, rfl, hc2full, rfl, hsrv, rfl, rfl, fun hyes => absurd hyes hf,
      fun _ => by rw [hitf]⟩

/-- **A setup that fails leaves every port where it was.** -/
theorem connectionSetup_false {t t' : Tables} {cp : ℕ} {pkt : Packet} {vs : ℕ}
    (hok : t.itf.RangesOk) (h : connectionSetup t cp pkt vs = (false, t')) :
    t'.itf.lip = t.itf.lip := by
  unfold connectionSetup at h
  rcases orErr_eq_false h with h | ⟨t1, h1, h⟩
  · unfold connectionSetServer at h
    dsimp only at h
    split at h
    · obtain rfl := (Prod.ext_iff.mp h).2
      rfl
    · exact absurd (Prod.ext_iff.mp h).1.symm Bool.false_ne_true
  obtain ⟨hitf1, -⟩ := connectionSetServer_true h1
  rcases orErr_eq_false h with h | ⟨t2, h2, h⟩
  · unfold connectionSetRoute at h
    dsimp only at h
    split at h
    · obtain rfl := (Prod.ext_iff.mp h).2
      exact congrArg Interface.lip hitf1
    · exact absurd (Prod.ext_iff.mp h).1.symm Bool.false_ne_true
  obtain ⟨hitf2, -⟩ := connectionSetRoute_true h2
  have hitf : t2.itf = t.itf := hitf2.trans hitf1
  rcases orErr_eq_false h with h | ⟨t3, h3, h⟩
  · unfold connectionSetSelf at h
    split at h
    · exact (connectionSetSelfIpPort_false (hitf ▸ hok) h).trans
        (congrArg Interface.lip hitf)
    · exact absurd (Prod.ext_iff.mp h).1.symm Bool.false_ne_true
  · exact absurd (Prod.ext_iff.mp h).1.symm Bool.false_ne_true

/-! ## Creating and freeing -/

/-- **A creation that fails**: nothing is linked, no port is taken, and the
structure taken, if any, is back in the pool. -/
structure NotCreated (t t' : Tables) : Prop where
  /-- The tables that may differ. -/
  eq : t' = { t with
    conn := t'.conn, pool := t'.pool, rt := t'.rt, itf := t'.itf,
    conn_mem_pool := t'.conn_mem_pool }
  /-- The live connections are not assigned. -/
  conn : ∀ x ∈ t.conn_mem_pool.outstanding, t'.conn x = t.conn x
  /-- The servers stay what they are. -/
  server : ∀ srv, serverAt t'.pool srv = serverAt t.pool srv
  /-- The addresses stay where they are. -/
  itf : t.itf.Keeps t'.itf
  /-- The ports stay where they are. -/
  lip : t'.itf.lip = t.itf.lip
  /-- The memory handed out is the same. -/
  outstanding : t'.conn_mem_pool.outstanding = t.conn_mem_pool.outstanding
  /-- The memory is accounted for. -/
  mem : t'.conn_mem_pool.Ok

/-- **A creation that succeeds**: a structure not handed out before is set up and
linked. -/
structure Created (t : Tables) (pkt : Packet) (vs cp : ℕ) (t' : Tables) : Prop where
  /-- The tables that may differ. -/
  eq : t' = { t with
    conn := t'.conn, pool := t'.pool, rt := t'.rt, itf := t'.itf,
    conn_mem_pool := t'.conn_mem_pool,
    client_hashtable := bucketAdd t.client_hashtable
      ((t'.conn cp).bucket t.hash_rand Connection.client) cp
    self_hashtable := if connectionIsFullnat (t'.conn cp) then
      bucketAdd t.self_hashtable
        ((t'.conn cp).bucket t.hash_rand (Connection.self t'.itf.lip)) cp
      else t.self_hashtable
    clock := timerAdd t.clock cp connectionTimeoutSeconds
    created := t.created ++ [⟨cp, pkt, vs⟩] }
  /-- No other connection is assigned. -/
  conn : ∀ x, x ≠ cp → t'.conn x = t.conn x
  /-- The servers stay what they are. -/
  server : ∀ srv, serverAt t'.pool srv = serverAt t.pool srv
  /-- The addresses stay where they are. -/
  itf : t.itf.Keeps t'.itf
  /-- The connection is set up. -/
  setUp : SetUp t pkt vs t'.itf (t'.conn cp)
  /-- The structure was not handed out. -/
  fresh : cp ∉ t.conn_mem_pool.outstanding
  /-- Now it is. -/
  outstanding : t'.conn_mem_pool.outstanding = cp :: t.conn_mem_pool.outstanding
  /-- The memory is accounted for. -/
  mem : t'.conn_mem_pool.Ok

theorem connectionAdd_eq (t : Tables) (cp : ℕ) :
    connectionAdd t cp = { t with
      client_hashtable := bucketAdd t.client_hashtable
        ((t.conn cp).bucket t.hash_rand Connection.client) cp
      self_hashtable := if connectionIsFullnat (t.conn cp) then
        bucketAdd t.self_hashtable
          ((t.conn cp).bucket t.hash_rand (Connection.self t.itf.lip)) cp
        else t.self_hashtable } := by
  unfold connectionAdd
  dsimp only
  split <;> rfl

section Create

variable {t : Tables} {malloc : Option ℕ}

/-- **Every creation succeeds or fails in full.** -/
theorem connectionCreate_spec (hmem : t.conn_mem_pool.Ok)
    (hm : t.conn_mem_pool.MallocOk malloc) (hok : t.itf.RangesOk) (pkt : Packet)
    (vs : ℕ) :
    (match (connectionCreate malloc t pkt vs).1 with
      | none => NotCreated t (connectionCreate malloc t pkt vs).2
      | some cp => Created t pkt vs cp (connectionCreate malloc t pkt vs).2) := by
  have hmem' := hmem.alloc hm
  have hout := MemPool.outstanding_alloc (p := t.conn_mem_pool) malloc
  have hfresh : ∀ node, (memPoolAlloc malloc t.conn_mem_pool).1 = some node →
      node ∉ t.conn_mem_pool.outstanding := fun node => hmem.alloc_notMem hm
  unfold connectionCreate
  generalize memPoolAlloc malloc t.conn_mem_pool = r at hmem' hout hfresh
  obtain ⟨cp, mp⟩ := r
  cases cp with
  | none =>
    exact ⟨rfl, fun _ _ => rfl, fun _ => rfl, Interface.Keeps.refl _, rfl, hout, hmem'⟩
  | some cp =>
    dsimp only at hmem' hout hfresh ⊢
    have hsets := setsUp_connectionSetup { t with conn_mem_pool := mp } cp pkt vs
    have htrue := fun t' =>
      @connectionSetup_true { t with conn_mem_pool := mp } t' cp pkt vs
    have hfalse := fun t' =>
      @connectionSetup_false { t with conn_mem_pool := mp } t' cp pkt vs hok
    generalize connectionSetup { t with conn_mem_pool := mp } cp pkt vs = r
      at hsets htrue hfalse
    obtain ⟨ok, t1⟩ := r
    obtain ⟨conn, pool, rt, itf, rfl⟩ : ∃ conn pool rt itf, t1 = { t with
        conn_mem_pool := mp, conn := conn, pool := pool, rt := rt, itf := itf } :=
      ⟨_, _, _, _, hsets.eq⟩
    cases ok with
    | false =>
      have hlip := hfalse _ rfl
      simp only [if_true]
      refine ⟨rfl, fun x hx => hsets.conn x (fun he => hfresh cp rfl (he ▸ hx)),
        hsets.server, hsets.itf, hlip, ?_, ?_⟩
      · show mp.outstanding.erase cp = _
        rw [hout, List.erase_cons_head]
      · exact hmem'.free (hout ▸ List.mem_cons_self)
    | true =>
      have hset := htrue _ rfl
      simp only [Bool.true_eq_false, if_false, connectionAdd_eq]
      exact ⟨rfl, hsets.conn, hsets.server, hsets.itf, ⟨hset.vs_eq, hset.vs_addr,
        hset.protocol, hset.fullnat, hset.client, hset.server, hset.mac, hset.adapter,
        hset.took, hset.kept⟩, hfresh cp rfl, hout, hmem'⟩

end Create
