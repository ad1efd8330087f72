import Ustack.FullNat
import Ustack.TcpClose

/-!
# Flows keep their servers

A client packet is forwarded on the connection found for its address and port, so a flow stays
with its server while its connection stays. A connection is put into the timer wheel once, when
it is created, `CONNECTION_TIMEOUT_SECONDS` ahead of the hand, and no packet moves it: so what
counts is the time since its creation, not the time since the last packet of the flow.

`watchSystem` is a process that is watched: how many slots the hand has moved, and what every
structure was used for since its last creation. In every run a flow keeps its connection for
`CONNECTION_TIMEOUT_SECONDS` ticks (`flow_keeps_server`), and a flow that goes on may change
its server then (`busy_flow_changes_server`).
-/

/-! ## Finding a connection for an accepted packet -/

/-- The parser lets no IP packet of protocol zero through. -/
theorem PacketAccepted.protocol_ne_zero {pkt : Packet} (h : PacketAccepted pkt)
    (hip : packetIsIp pkt = true) : pkt.protocol_ip ≠ 0 := by
  obtain ⟨garbage, raw, hr⟩ := h
  have hkept : KeptAsIp garbage raw pkt := ⟨hr, hip⟩
  obtain ⟨-, hknown, hheader, -⟩ := hkept.spec
  intro hzero
  have hproto : (readHeader raw.data).protocol = 0 :=
    (congrArg Header.protocol hheader).symm.trans hzero
  rw [hproto] at hknown
  exact absurd hknown (by decide)

/-- A lookup that answers none found no connection of the address and port, and assigned
nothing. -/
theorem connectionLookup_none {t : Tables} {ip : IpAddress} {port : UInt16} {proto : UInt8}
    {is_client : Bool} (hproto : proto ≠ 0)
    (h : (connectionLookup t ip port proto is_client).1 = none) :
    (connectionLookup t ip port proto is_client).2 = t
      ∧ ∀ y ∈ t.searchedBucket ip port proto is_client,
        sameAddr (t.key is_client) ip port t.conn y = false := by
  rw [Tables.connectionLookup_eq] at h ⊢
  have hnone : (t.searchedBucket ip port proto is_client).find?
      (sameAddr (t.key is_client) ip port t.conn) = none := by
    refine Option.eq_none_iff_forall_not_mem.mpr (fun x hx => ?_)
    rw [connectionFind_some hproto hx] at h
    exact absurd h (by simp)
  rw [connectionFind_none hnone]
  exact ⟨rfl, fun y hy => Bool.eq_false_iff.mpr (List.find?_eq_none.mp hnone y hy)⟩

/-- A lookup that answers a connection found it in the bucket it searched. -/
theorem connectionLookup_mem {t : Tables} {ip : IpAddress} {port : UInt16} {proto : UInt8}
    {is_client : Bool} {cp : ℕ} (hproto : proto ≠ 0)
    (h : (connectionLookup t ip port proto is_client).1 = some cp) :
    cp ∈ t.searchedBucket ip port proto is_client := by
  rw [Tables.connectionLookup_eq] at h
  obtain hnone | ⟨x, hx⟩ := Option.eq_none_or_eq_some
    ((t.searchedBucket ip port proto is_client).find?
      (sameAddr (t.key is_client) ip port t.conn))
  · rw [connectionFind_none hnone] at h
    exact absurd h (by simp)
  · rw [connectionFind_some hproto hx] at h
    obtain rfl := Option.some_inj.mp h
    exact List.mem_of_find?_eq_some hx

/-- **How the search for an accepted packet ends**, and what the tables are then. -/
inductive Searches (malloc : Option ℕ) (t : Tables) (pkt : Packet) : Found → Tables → Prop
  /-- Without a connection, and nothing is assigned. -/
  | nothing {found : Found} (hno : ∀ cp is_client, found ≠ .connection cp is_client) :
      Searches malloc t pkt found t
  /-- Without a connection, because none could be created. -/
  | notCreated {V : ℕ} {t' : Tables} (hc : connectionCreate malloc t pkt V = (none, t')) :
      Searches malloc t pkt .none t'
  /-- With a new connection, there being none of the client in the bucket. -/
  | created {V cp : ℕ} {t' : Tables} (hV : ToVserver t pkt V)
      (hnone : ∀ y ∈ t.searchedBucket pkt.saddr.ip pkt.saddr.port pkt.protocol_ip true,
        sameAddr Connection.client pkt.saddr.ip pkt.saddr.port t.conn y = false)
      (hc : connectionCreate malloc t pkt V = (some cp, t')) :
      Searches malloc t pkt (.connection cp true) t'
  /-- With a connection that was there; for a packet to a vs IP one of its client, in the
  bucket. -/
  | found {cp : ℕ} {is_client : Bool} (hlive : cp ∈ t.live)
      (hclient : (ngInterfaceLookupVsip t.hash_rand t.itf pkt.daddr.ip).isSome = true →
        is_client = true
          ∧ cp ∈ t.searchedBucket pkt.saddr.ip pkt.saddr.port pkt.protocol_ip true
          ∧ sameAddr Connection.client pkt.saddr.ip pkt.saddr.port t.conn cp = true) :
      Searches malloc t pkt (.connection cp is_client) (t.setProtocol cp pkt.protocol_ip)

theorem searches_processFindConnection {malloc : Option ℕ} {t : Tables} (h : t.Ok)
    {pkt : Packet} (hproto : pkt.protocol_ip ≠ 0) :
    Searches malloc t pkt (processFindConnection malloc t pkt).1
      (processFindConnection malloc t pkt).2 := by
  unfold processFindConnection
  split
  · rename_i hvsip
    unfold processFindClient
    split
    · exact .nothing (fun _ _ => by simp)
    · rename_i V hV
      have hsome := fun cp =>
        @connectionLookup_some t pkt.saddr.ip pkt.saddr.port pkt.protocol_ip true cp
      have hmem := fun cp =>
        @connectionLookup_mem t pkt.saddr.ip pkt.saddr.port pkt.protocol_ip true cp hproto
      have hnone := @connectionLookup_none t pkt.saddr.ip pkt.saddr.port pkt.protocol_ip true
        hproto
      generalize connectionLookup t pkt.saddr.ip pkt.saddr.port pkt.protocol_ip true = r
        at hsome hmem hnone
      obtain ⟨found, t₁⟩ := r
      cases found with
      | some cp =>
        obtain ⟨hlive, hsame, rfl⟩ := hsome cp rfl
        rw [Tables.searched_true] at hlive
        exact .found hlive (fun _ => ⟨rfl, hmem cp rfl, hsame⟩)
      | none =>
        obtain ⟨rfl, hno⟩ := hnone rfl
        dsimp only
        generalize hc : connectionCreate malloc t₁ pkt V = r
        obtain ⟨created, t'⟩ := r
        cases created with
        | none => exact .notCreated hc
        | some cp => exact .created ⟨hvsip, hV⟩ hno hc
  · rename_i hvsip
    unfold processFindServer
    dsimp only
    generalize (ngInterfaceLookupSelfip t.hash_rand t.itf pkt.daddr.ip).isNone = is_client
    have hsome := fun cp =>
      @connectionLookup_some t pkt.daddr.ip pkt.daddr.port pkt.protocol_ip is_client cp
    have hnone := @connectionLookup_none t pkt.daddr.ip pkt.daddr.port pkt.protocol_ip
      is_client hproto
    generalize connectionLookup t pkt.daddr.ip pkt.daddr.port pkt.protocol_ip is_client = r
      at hsome hnone
    obtain ⟨found, t₁⟩ := r
    cases found with
    | none =>
      obtain ⟨rfl, -⟩ := hnone rfl
      exact .nothing (fun _ _ => by simp)
    | some cp =>
      obtain ⟨hmem, -, rfl⟩ := hsome cp rfl
      refine .found ?_ (fun hyes => absurd hyes hvsip)
      cases is_client with
      | true => rwa [Tables.searched_true] at hmem
      | false =>
        rw [Tables.searched_false] at hmem
        exact (h.mem_liveSelf.mp hmem).1

/-- A connection of a TCP virtual server opens in the initial state. -/
theorem connectionCreate_state {t t' : Tables} {malloc : Option ℕ} {pkt : Packet} {V cp : ℕ}
    (h : connectionCreate malloc t pkt V = (some cp, t'))
    (htcp : vsIsTcp (t.vservers.vserver V) = true) : (t'.conn cp).state = tcpInit := by
  unfold connectionCreate at h
  generalize memPoolAlloc malloc t.conn_mem_pool = r at h
  obtain ⟨node, mp⟩ := r
  cases node with
  | none => exact absurd (Prod.ext_iff.mp h).1 (by simp)
  | some node =>
    dsimp only at h
    generalize hs : connectionSetup { t with conn_mem_pool := mp } node pkt V = r at h
    obtain ⟨ok, t1⟩ := r
    cases ok with
    | false => exact absurd (Prod.ext_iff.mp h).1 (by simp)
    | true =>
      simp only [Bool.true_eq_false, if_false, connectionAdd_eq] at h
      obtain ⟨hcp, rfl⟩ := Prod.mk.inj h
      obtain rfl := Option.some.inj hcp
      show (t1.conn node).state = tcpInit
      unfold connectionSetup at hs
      obtain ⟨t2, -, hs⟩ := orErr_eq_true hs
      obtain ⟨t3, -, hs⟩ := orErr_eq_true hs
      obtain ⟨t4, -, hs⟩ := orErr_eq_true hs
      obtain rfl := (Prod.ext_iff.mp hs).2
      rw [Tables.conn_setConn_self, htcp]
      rfl

/-! ## A process that is watched -/

/-- A packet forwarded on a connection. -/
structure Forwarding where
  /-- The packet. -/
  pkt : Packet
  /-- It was one to a vs IP. -/
  to_vs : Bool
  /-- The connection, as it was found. -/
  conn : Connection

/-- A packet that closes no connection: it is no TCP segment, or one without FIN on a
connection to a TCP virtual server. -/
def Forwarding.Quiet (vservers : VserverTable) (f : Forwarding) : Prop :=
  packetIsTcp f.pkt = true →
    tcpFin f.pkt = false ∧ vsIsTcp (vservers.vserver f.conn.vs) = true

/-- What a structure was used for since it was last made a connection. -/
structure Life where
  /-- The ticks before. -/
  born : ℕ
  /-- The packets forwarded on it. -/
  forwarded : List Forwarding

/-- **A process that is watched.** -/
structure Watched where
  /-- The tables of the process. -/
  tables : Tables
  /-- How many slots the hand of the wheel has moved. -/
  ticks : ℕ
  /-- What each structure was used for. -/
  life : ℕ → Life

/-- What is noted of an IP packet: the connection it is forwarded on, a new one if it was not
live before. -/
def Watched.note (w : Watched) (malloc : Option ℕ) (pkt : Packet) : ℕ → Life :=
  match processFindConnection malloc w.tables pkt with
  | (.connection cp _, t) =>
    let life := if cp ∈ w.tables.live then w.life cp else ⟨w.ticks, []⟩
    let to_vs := (ngInterfaceLookupVsip w.tables.hash_rand w.tables.itf pkt.daddr.ip).isSome
    Function.update w.life cp
      { life with forwarded := life.forwarded ++ [⟨pkt, to_vs, t.conn cp⟩] }
  | _ => w.life

section Note

variable {w : Watched} {malloc : Option ℕ} {pkt : Packet} {t : Tables} {cp : ℕ}
  {is_client : Bool}

/-- A packet of a connection that was live is one more forwarded on it. -/
theorem Watched.note_of_live
    (h : processFindConnection malloc w.tables pkt = (.connection cp is_client, t))
    (hcp : cp ∈ w.tables.live) : w.note malloc pkt = Function.update w.life cp
      { w.life cp with forwarded := (w.life cp).forwarded ++ [⟨pkt,
        (ngInterfaceLookupVsip w.tables.hash_rand w.tables.itf pkt.daddr.ip).isSome,
        t.conn cp⟩] } := by
  simp only [note, h, if_pos hcp]

/-- A packet of a new connection is the first forwarded on it. -/
theorem Watched.note_of_new
    (h : processFindConnection malloc w.tables pkt = (.connection cp is_client, t))
    (hcp : cp ∉ w.tables.live) : w.note malloc pkt = Function.update w.life cp
      ⟨w.ticks, [⟨pkt,
        (ngInterfaceLookupVsip w.tables.hash_rand w.tables.itf pkt.daddr.ip).isSome,
        t.conn cp⟩]⟩ := by
  simp only [note, h, if_neg hcp, List.nil_append]

/-- A packet of no connection is not noted. -/
theorem Watched.note_of_not {found : Found}
    (h : processFindConnection malloc w.tables pkt = (found, t))
    (hno : ∀ cp is_client, found ≠ .connection cp is_client) :
    w.note malloc pkt = w.life := by
  cases found with
  | drop => simp only [note, h]
  | none => simp only [note, h]
  | connection cp ic => exact absurd rfl (hno cp ic)

end Note

/-- What a step of the process makes of a watch. -/
def Watched.next (w : Watched) : ProcessLabel → Watched
  | .packet malloc pkt =>
    { tables := (mainProcessPackets malloc w.tables pkt).2.2
      ticks := w.ticks
      life := if packetIsIp pkt then w.note malloc pkt else w.life }
  | .timer now =>
    { tables := connectionTimerExpire w.tables now
      ticks := w.ticks + timerTicks w.tables.clock now
      life := w.life }

theorem Watched.life_next_packet (w : Watched) (malloc : Option ℕ) (pkt : Packet) :
    (w.next (.packet malloc pkt)).life
      = if packetIsIp pkt then w.note malloc pkt else w.life := rfl

theorem Watched.life_next_timer (w : Watched) (now : ℕ) :
    (w.next (.timer now)).life = w.life := rfl

/-- **Every run of a process, watched.** -/
def watchSystem : System Watched ProcessLabel where
  init w := w.tables.Started ∧ w.ticks = 0 ∧ ∀ x, (w.life x).forwarded = []
  step w l w' := processSystem.step w.tables l w'.tables ∧ w' = w.next l

/-- **Watching a process does not keep it from anything.** -/
theorem exists_watched {t : Tables} (h : processSystem.Reachable t) :
    ∃ w, watchSystem.Reachable w ∧ w.tables = t := by
  refine System.invariant (P := fun t => ∃ w, watchSystem.Reachable w ∧ w.tables = t)
    (fun t hs => ⟨⟨t, 0, fun _ => ⟨0, []⟩⟩, .of_init ⟨hs, rfl, fun _ => rfl⟩, rfl⟩) ?_ h
  rintro _ l t' ⟨w, hw, rfl⟩ hst
  have htables : (w.next l).tables = t' := by
    cases l with
    | packet malloc pkt => exact hst.2.2.symm
    | timer now => exact hst.2.symm
  exact ⟨w.next l, hw.step ⟨htables ▸ hst, rfl⟩, htables⟩

/-! ## What stays of a connection and its places -/

namespace Tables

/-- **What does not concern a connection**: its fields but the protocol, its slot and its
bucket stay, and nothing with its address and port comes into its bucket. -/
structure Spares (t t' : Tables) (x : ℕ) : Prop where
  /-- The seed of the hashes. -/
  hash_rand : t'.hash_rand = t.hash_rand
  /-- The virtual servers. -/
  vservers : t'.vservers = t.vservers
  /-- The hand. -/
  hand : t'.clock.next_clock_second = t.clock.next_clock_second
  /-- The wheel. -/
  total : t'.clock.total_clock_seconds = t.clock.total_clock_seconds
  /-- The connection. -/
  conn : ∃ p, t'.conn x = { t.conn x with protocol := p }
  /-- Its slot. -/
  slot : ∀ i, x ∈ t.clock.timer_table i → x ∈ t'.clock.timer_table i
  /-- Its bucket. -/
  bucket : ∀ b, x ∈ t.client_hashtable b ↔ x ∈ t'.client_hashtable b
  /-- The others of its bucket. -/
  others : ∀ b < connHtSize, ∀ y, x ∈ t.client_hashtable b → y ∈ t'.client_hashtable b →
    sameAddr Connection.client (t.conn x).client.ip (t.conn x).client.port t'.conn y = true →
    y ∈ t.client_hashtable b ∧ sameAddr Connection.client (t.conn x).client.ip
      (t.conn x).client.port t.conn y = true

variable {t t' t'' : Tables} {x y cp : ℕ}

theorem Spares.refl (t : Tables) (x : ℕ) : t.Spares t x :=
  ⟨rfl, rfl, rfl, rfl, ⟨_, rfl⟩, fun _ h => h, fun _ => Iff.rfl, fun _ _ _ _ h hs => ⟨h, hs⟩⟩

theorem Spares.client_eq (h : t.Spares t' x) : (t'.conn x).client = (t.conn x).client := by
  obtain ⟨p, hx⟩ := h.conn
  rw [hx]
  rfl

theorem Spares.trans (h : t.Spares t' x) (h' : t'.Spares t'' x) : t.Spares t'' x := by
  obtain ⟨p, hx⟩ := h.conn
  obtain ⟨p', hx'⟩ := h'.conn
  refine ⟨h'.hash_rand.trans h.hash_rand, h'.vservers.trans h.vservers, h'.hand.trans h.hand,
    h'.total.trans h.total, ⟨p', by rw [hx', hx]⟩, fun i hi => h'.slot i (h.slot i hi),
    fun b => (h.bucket b).trans (h'.bucket b), fun b hb y hxb hyb hs => ?_⟩
  obtain ⟨hyb', hs'⟩ := h'.others b hb y ((h.bucket b).mp hxb) hyb (by rwa [h.client_eq])
  rw [h.client_eq] at hs'
  exact h.others b hb y hxb hyb' hs'

/-- Whether an address and port are a connection's is no matter of its protocol and state. -/
theorem sameAddr_congr {ip : IpAddress} {port : UInt16} {conn conn' : ℕ → Connection}
    (h : (conn' y).client = (conn y).client) :
    sameAddr Connection.client ip port conn' y = sameAddr Connection.client ip port conn y := by
  rw [sameAddr, sameAddr, h]

/-- Where only connections are assigned, and no client, a connection is spared that keeps its
state. -/
theorem Spares.of_conn {conn : ℕ → Connection} (hc : ∀ y, (conn y).client = (t.conn y).client)
    (hx : ∃ p, conn x = { t.conn x with protocol := p }) :
    t.Spares { t with conn := conn } x :=
  ⟨rfl, rfl, rfl, rfl, hx, fun _ h => h, fun _ => Iff.rfl,
    fun _ _ y _ hy hs => ⟨hy, sameAddr_congr (hc y) ▸ hs⟩⟩

theorem spares_setProtocol (t : Tables) (cp : ℕ) (p : UInt8) (x : ℕ) :
    t.Spares (t.setProtocol cp p) x := by
  have hall : ∀ y, ∃ p', (t.setProtocol cp p).conn y = { t.conn y with protocol := p' } := by
    intro y
    by_cases hy : y = cp
    · exact ⟨p, by rw [hy, conn_setProtocol]⟩
    · exact ⟨(t.conn y).protocol, conn_setConn_of_ne t hy _⟩
  refine Spares.of_conn (fun y => ?_) (hall x)
  obtain ⟨p', hy⟩ := hall y
  exact (congrArg Connection.client hy).trans rfl

/-- Assigning the state of another connection, or the state it has. -/
theorem spares_setConn_state (t : Tables) (cp : ℕ) {s : UInt8}
    (h : x = cp → s = (t.conn cp).state) :
    t.Spares (t.setConn cp (fun c => { c with state := s })) x := by
  refine Spares.of_conn (fun y => ?_) ?_
  · by_cases hy : y = cp
    · rw [hy, Function.update_self]
      rfl
    · rw [Function.update_of_ne hy]
  · by_cases hx : x = cp
    · exact ⟨(t.conn x).protocol, by rw [hx, Function.update_self, h hx]⟩
    · exact ⟨(t.conn x).protocol, Function.update_of_ne hx _ _⟩

theorem Spares.of_arps (ha : t.Arps t') (x : ℕ) : t.Spares t' x := by
  obtain ⟨rt, pool, sent, rfl⟩ : ∃ rt pool sent, t' =
    { t with rt := rt, pool := pool, sent := sent } := ⟨_, _, _, ha⟩
  exact ⟨rfl, rfl, rfl, rfl, ⟨_, rfl⟩, fun _ h => h, fun _ => Iff.rfl,
    fun _ _ _ _ h hs => ⟨h, hs⟩⟩

theorem live_of_bucket {b : ℕ} (hb : b < connHtSize) (hy : y ∈ t.client_hashtable b) :
    y ∈ t.live := mem_linked.mpr ⟨b, hb, hy⟩

/-- A creation that fails spares the live connections. -/
theorem Ok.spares_notCreated (h : t.Ok) (hn : NotCreated t t') (hx : x ∈ t.live) :
    t.Spares t' x := by
  have hconn : ∀ y ∈ t.live, t'.conn y = t.conn y :=
    fun y hy => hn.conn y (h.mem_live.mp hy)
  have hclient : t'.client_hashtable = t.client_hashtable := by rw [hn.eq]
  have hclock : t'.clock = t.clock := by rw [hn.eq]
  refine ⟨by rw [hn.eq], by rw [hn.eq], by rw [hclock], by rw [hclock],
    ⟨_, hconn x hx⟩, fun i hi => by rwa [hclock], fun b => by rw [hclient],
    fun b hb y hxb hyb hs => ?_⟩
  rw [hclient] at hyb
  exact ⟨hyb, sameAddr_congr (congrArg _ (hconn y (live_of_bucket hb hyb))) ▸ hs⟩

/-- Freeing another connection spares one. -/
theorem spares_free (t : Tables) {cp : ℕ} (hne : x ≠ cp) : t.Spares (connectionFree t cp) x := by
  rw [connectionFree_eq]
  refine ⟨rfl, rfl, rfl, rfl, ⟨_, rfl⟩, fun i hi => ?_, fun b => ?_, fun b hb y hxb hyb hs => ?_⟩
  · exact (List.mem_erase_of_ne hne).mpr hi
  · exact (List.mem_erase_of_ne hne).symm
  · exact ⟨List.mem_of_mem_erase hyb, hs⟩

end Tables

/-! ## A new connection and its bucket -/

namespace Tables

variable {t t' : Tables} {pkt : Packet} {V cp x : ℕ}

/-- The bucket a client packet is looked up in. -/
def clientBucket (t : Tables) (pkt : Packet) : ℕ :=
  connectionHashkey t.hash_rand pkt.saddr.ip pkt.saddr.port.toUInt32
    pkt.protocol_ip.toUInt32

theorem clientBucket_lt (t : Tables) (pkt : Packet) : t.clientBucket pkt < connHtSize :=
  lt_of_le_of_lt (UInt32.toNat_and _ _ ▸ Nat.and_le_right) (by decide)

/-- A new connection stands in the bucket its packet was looked up in. -/
theorem created_bucket (hV : ToVserver t pkt V) (hc : Created t pkt V cp t') :
    t'.client_hashtable = bucketAdd t.client_hashtable (t.clientBucket pkt) cp := by
  have hproto : (t'.conn cp).protocol = pkt.protocol_ip :=
    hc.setUp.protocol.trans (vserverLookup_eq hV.lookup).2
  have hbucket : (t'.conn cp).bucket t.hash_rand Connection.client = t.clientBucket pkt := by
    rw [Connection.bucket, hc.setUp.client, hproto]
    rfl
  rw [← hbucket, hc.eq]

/-- A connection created for a client that has none in the bucket spares the others. -/
theorem Ok.spares_created (h : t.Ok) (hV : ToVserver t pkt V) (hc : Created t pkt V cp t')
    (hnone : ∀ y ∈ t.client_hashtable (t.clientBucket pkt),
      sameAddr Connection.client pkt.saddr.ip pkt.saddr.port t.conn y = false)
    (hx : x ∈ t.live) : t.Spares t' x := by
  have hne : ∀ y ∈ t.live, y ≠ cp := fun y hy he => hc.fresh (h.mem_live.mp (he ▸ hy))
  have hclient := created_bucket hV hc
  have hclock : t'.clock = timerAdd t.clock cp connectionTimeoutSeconds := by rw [hc.eq]
  refine ⟨by rw [hc.eq], by rw [hc.eq], by rw [hclock]; rfl, by rw [hclock]; rfl,
    ⟨_, hc.conn x (hne x hx)⟩, fun i hi => ?_, fun b => ?_, fun b hb y hxb hyb hs => ?_⟩
  · rw [hclock]
    exact mem_bucketAdd_of_mem hi
  · rw [hclient]
    refine ⟨mem_bucketAdd_of_mem, fun hxb => ?_⟩
    exact (mem_bucketAdd hxb).resolve_left (fun he => hne x hx he.1)
  · rw [hclient] at hyb
    obtain ⟨rfl, rfl⟩ | hyb := mem_bucketAdd hyb
    · -- the client of the new connection has no other here
      have hno := hnone x hxb
      rw [sameAddr, hc.setUp.client, Bool.and_eq_true, beq_iff_eq] at hs
      obtain ⟨hip, hport⟩ := hs
      have hyes : sameAddr Connection.client pkt.saddr.ip pkt.saddr.port t.conn x = true := by
        rw [sameAddr, Bool.and_eq_true, beq_iff_eq]
        exact ⟨ipAddressEq_symm hip, hport.symm⟩
      exact absurd hyes (Bool.eq_false_iff.mp hno)
    · exact ⟨hyb, sameAddr_congr
        (congrArg _ (hc.conn y (hne y (live_of_bucket hb hyb)))) ▸ hs⟩

end Tables

/-! ## A connection in use -/

/-- A packet was forwarded on a connection: it is what it was found as, and for a client packet
it is a connection of that client, in the bucket of the packet. -/
structure Forwarding.Of (t : Tables) (x : ℕ) (f : Forwarding) : Prop where
  /-- The connection. -/
  conn : ∃ p s, t.conn x = { f.conn with protocol := p, state := s }
  /-- A client packet. -/
  client : f.to_vs = true →
    sameAddr Connection.client f.pkt.saddr.ip f.pkt.saddr.port t.conn x = true
      ∧ x ∈ t.client_hashtable (t.clientBucket f.pkt)

/-- **A connection in use**, after so many ticks of the process: it is in its slot, as far
ahead of the hand as its time is not over, nothing in its bucket is of its client, and no FIN
was seen on it. -/
structure Flowing (t : Tables) (ticks : ℕ) (l : Life) (x : ℕ) : Prop where
  /-- It is live. -/
  live : x ∈ t.live
  /-- It was created before. -/
  born_le : l.born ≤ ticks
  /-- Its timer. -/
  slot : x ∈ t.clock.timer_table
    ((t.clock.next_clock_second + (l.born + connectionTimeoutSeconds.toNat - ticks))
      % t.clock.total_clock_seconds)
  /-- The others of its bucket. -/
  only : ∀ b < connHtSize, ∀ y, x ∈ t.client_hashtable b → y ∈ t.client_hashtable b →
    sameAddr Connection.client (t.conn x).client.ip (t.conn x).client.port t.conn y = true →
    y = x
  /-- Its TCP state. -/
  state : vsIsTcp (t.vservers.vserver (t.conn x).vs) = true → (t.conn x).state = tcpInit
  /-- The packets forwarded on it. -/
  of : ∀ f ∈ l.forwarded, f.Of t x

section Flowing

variable {t t' : Tables} {n : ℕ} {l : Life} {x : ℕ} {f : Forwarding}

theorem Forwarding.Of.spares (h : f.Of t x) (hs : t.Spares t' x) : f.Of t' x := by
  obtain ⟨p, s, hx⟩ := h.conn
  obtain ⟨p', hx'⟩ := hs.conn
  refine ⟨⟨p', s, by rw [hx', hx]⟩, fun hto => ?_⟩
  obtain ⟨hsame, hmem⟩ := h.client hto
  have hbucket : t'.clientBucket f.pkt = t.clientBucket f.pkt := by
    rw [Tables.clientBucket, hs.hash_rand, Tables.clientBucket]
  rw [Tables.sameAddr_congr hs.client_eq, hbucket]
  exact ⟨hsame, (hs.bucket _).mp hmem⟩

/-- What does not concern a connection in use leaves it in use. -/
theorem Flowing.spares (h : Flowing t n l x) (hs : t.Spares t' x) : Flowing t' n l x := by
  obtain ⟨p, hx⟩ := hs.conn
  refine ⟨?_, h.born_le, ?_, fun b hb y hxb hyb hsame => ?_, fun htcp => ?_,
    fun f hf => (h.of f hf).spares hs⟩
  · obtain ⟨b, hb, hxb⟩ := mem_linked.mp h.live
    exact mem_linked.mpr ⟨b, hb, (hs.bucket b).mp hxb⟩
  · rw [hs.hand, hs.total]
    exact hs.slot _ h.slot
  · rw [hs.client_eq] at hsame
    obtain ⟨hyb', hsame'⟩ := hs.others b hb y ((hs.bucket b).mpr hxb) hyb hsame
    exact h.only b hb y ((hs.bucket b).mpr hxb) hyb' hsame'
  · rw [hx, hs.vservers] at htcp
    rw [hx]
    exact h.state htcp

/-- **A packet that closes no connection leaves its connection in use**, and the others. -/
theorem spares_processForward (t : Tables) {cp : ℕ} {pkt : Packet} (hp : PacketAccepted pkt)
    (hip : packetIsIp pkt = true) (is_client : Bool)
    (h : x = cp → packetIsTcp pkt = true →
      tcpFin pkt = false ∧ (t.conn cp).state = tcpInit) :
    t.Spares (processForward t cp pkt is_client).2.2 x := by
  rw [processForward_eq]
  dsimp only
  have htcp : packetIsTcp (processRewrite t (t.conn cp) pkt is_client) = packetIsTcp pkt := by
    rw [processRewrite_fields]
    rfl
  have hfin : packetIsTcp pkt = true →
      tcpFin (processRewrite t (t.conn cp) pkt is_client) = tcpFin pkt := by
    intro hyes
    rw [tcpFin, TcpSegment.tcpFlags_processRewrite ⟨is_client, is_client, pkt, hp, hip, hyes⟩,
      tcpFin]
  generalize processRewrite t (t.conn cp) pkt is_client = out at htcp hfin
  have harps : t.Arps (ngDriverPutPacketToSendBuffer t out) := rfl
  have hsent := Tables.Spares.of_arps harps x
  rw [htcp]
  split
  · rename_i hyes
    have hinit : x = cp → tcpNextState (tcpFin out) (tcpAck out) (t.conn cp).state
        = (t.conn cp).state := by
      intro hx
      obtain ⟨hno, hstate⟩ := h hx hyes
      rw [hfin hyes, hno, hstate]
      exact (tcpNextState_eq false (tcpAck out)).1
    have hstate := hsent.trans (Tables.spares_setConn_state
      (ngDriverPutPacketToSendBuffer t out) cp hinit)
    split
    · rename_i hclosed
      refine hstate.trans (Tables.spares_free _ (fun hx => ?_))
      -- the state of a connection in use is not closed
      rw [tcpChangeState] at hclosed
      have hopen := (hinit hx).symm.trans hclosed
      rw [(h hx hyes).2] at hopen
      exact absurd hopen (by decide)
    · exact hstate
  · exact hsent

end Flowing

/-! ## What a watch sees -/

namespace Tables

/-- The wheel has its slots, and the virtual servers are the given ones. -/
structure Wheel (vservers : VserverTable) (t : Tables) : Prop where
  /-- The containers agree. -/
  ok : t.Ok
  /-- The slots. -/
  total : t.clock.total_clock_seconds = defaultSeconds.toNat
  /-- The virtual servers. -/
  vservers : t.vservers = vservers

theorem stable_wheel (V : VserverTable) : Stable (Wheel V) where
  ok _ h := h.ok
  clock _ _ h htable htotal hwheel :=
    ⟨h.ok.of_clock htable htotal hwheel, htotal.trans h.total, h.vservers⟩
  assigns t t' h ha := by
    refine ⟨h.ok.assigns ha, ?_, ?_⟩ <;> rw [ha.eq]
    · exact h.total
    · exact h.vservers
  arps t t' h ha := by
    refine ⟨h.ok.arps ha, ?_, ?_⟩ <;> rw [ha]
    · exact h.total
    · exact h.vservers
  notCreated t t' h hn := by
    refine ⟨h.ok.notCreated hn, ?_, ?_⟩ <;> rw [hn.eq]
    · exact h.total
    · exact h.vservers
  created t pkt vs cp t' h _ hc := by
    refine ⟨h.ok.created hc, ?_, ?_⟩ <;> rw [hc.eq]
    · exact h.total
    · exact h.vservers
  free t cp h hcp := by
    refine ⟨h.ok.free hcp, ?_, ?_⟩ <;> rw [connectionFree_eq]
    · exact h.total
    · exact h.vservers

theorem live_connectionFree_subset {t : Tables} (h : t.Ok) {cp : ℕ} :
    (connectionFree t cp).live ⊆ t.live := by
  rw [h.live_connectionFree]
  exact List.erase_subset

end Tables

/-- **What a watch has seen is so**: every live connection was used, and one whose time is not
over and that saw no FIN is in use. -/
structure Watching (V : VserverTable) (life : ℕ → Life) (t : Tables) (n : ℕ) : Prop where
  /-- The wheel. -/
  wheel : t.Wheel V
  /-- Every live connection was used. -/
  used : ∀ x ∈ t.live, (life x).forwarded ≠ []
  /-- The connections in use. -/
  flowing : ∀ x, (life x).forwarded ≠ [] →
    n < (life x).born + connectionTimeoutSeconds.toNat →
    (∀ f ∈ (life x).forwarded, f.Quiet V) → Flowing t n (life x) x

section Watching

variable {V : VserverTable} {life : ℕ → Life} {t t' : Tables} {n : ℕ}

/-- What does not concern the connections in use. -/
theorem Watching.spares (h : Watching V life t n) (hw : t'.Wheel V) (hlive : t'.live ⊆ t.live)
    (hs : ∀ x, Flowing t n (life x) x → (∀ f ∈ (life x).forwarded, f.Quiet V) →
      n < (life x).born + connectionTimeoutSeconds.toNat → t.Spares t' x) :
    Watching V life t' n where
  wheel := hw
  used x hx := h.used x (hlive hx)
  flowing x hne htime hquiet :=
    (h.flowing x hne htime hquiet).spares (hs x (h.flowing x hne htime hquiet) hquiet htime)

/-- The timer of a connection in use is not in the slot of the hand. -/
theorem Flowing.notMem_hand (hw : t.Wheel V) {l : Life} {x : ℕ} (h : Flowing t n l x)
    (htime : n < l.born + connectionTimeoutSeconds.toNat) :
    x ∉ t.clock.timer_table t.clock.next_clock_second := by
  intro hmem
  have hnodup : t.timed.Nodup := hw.ok.timer.nodup_iff.mpr hw.ok.mem.nodup_outstanding
  have hpos : 0 < t.clock.total_clock_seconds := Nat.zero_lt_of_lt hw.ok.wheel
  have hslot := eq_of_mem_linked hnodup hw.ok.wheel (Nat.mod_lt _ hpos) hmem h.slot
  have htotal : t.clock.total_clock_seconds = 300 := hw.total
  have hborn := h.born_le
  have hseconds : connectionTimeoutSeconds.toNat = 60 := rfl
  have hhand : (t.clock.next_clock_second + 0) % t.clock.total_clock_seconds
      = (t.clock.next_clock_second + (l.born + connectionTimeoutSeconds.toNat - n))
        % t.clock.total_clock_seconds := (Nat.mod_eq_of_lt hw.ok.wheel).trans hslot
  have hzero := add_mod_inj hpos (by omega) hhand
  omega

/-- **The connections freed by a tick are those whose time is over.** -/
theorem Watching.tick (h : Watching V life t n) :
    Watching V life (timerTick Tables.clock (fun t clock => { t with clock := clock })
      connectionTimeout t) (n + 1) := by
  refine Tables.timerTick_step (Q := fun s => Watching V life s (n + 1))
    (fun s cp hs hcp => ?_) ?_
  · have hlive : cp ∈ s.live := by
      exact hs.wheel.ok.mem_timed.mp (mem_linked.mpr ⟨_, hs.wheel.ok.wheel, hcp⟩)
    refine hs.spares ((Tables.stable_wheel V).free s cp hs.wheel hlive)
      (Tables.live_connectionFree_subset hs.wheel.ok) (fun x hx _ htime => ?_)
    refine Tables.spares_free s (fun he => hx.notMem_hand hs.wheel htime ?_)
    rw [he]
    exact hcp
  · have hnext := wrapNext_eq_mod h.wheel.ok.wheel
    refine ⟨(Tables.stable_wheel V).clock t _ h.wheel rfl rfl (wrapNext_lt h.wheel.ok.wheel),
      h.used, fun x hne htime hquiet => ?_⟩
    have hx := h.flowing x hne (Nat.lt_of_succ_lt htime) hquiet
    refine ⟨hx.live, hx.born_le.trans (Nat.le_succ n), ?_, hx.only, hx.state, fun f hf => ?_⟩
    · have hslot := hx.slot
      have hahead : t.clock.next_clock_second + 1
            + ((life x).born + connectionTimeoutSeconds.toNat - (n + 1))
          = t.clock.next_clock_second
            + ((life x).born + connectionTimeoutSeconds.toNat - n) := by omega
      dsimp only
      rw [hnext, Nat.mod_add_mod, hahead]
      exact hslot
    · exact ⟨(hx.of f hf).conn, (hx.of f hf).client⟩

/-- **An expiry**, of as many ticks. -/
theorem Watching.timer (h : Watching V life t n) (now : ℕ) :
    Watching V life (connectionTimerExpire t now) (n + timerTicks t.clock now) := by
  refine timerExpire_counted Tables.clock (fun t clock => { t with clock := clock })
    connectionTimeout (P := fun n t => Watching V life t n) (fun _ _ hs => hs.tick)
    (fun n s _ _ _ hs => ?_) h now
  exact ⟨(Tables.stable_wheel V).clock s _ hs.wheel rfl rfl hs.wheel.ok.wheel, hs.used,
    fun x hne htime hquiet =>
      have hx := hs.flowing x hne htime hquiet
      ⟨hx.live, hx.born_le, hx.slot, hx.only, hx.state,
        fun f hf => ⟨(hx.of f hf).conn, (hx.of f hf).client⟩⟩⟩

end Watching

/-! ## A packet, watched -/

section Packet

variable {V : VserverTable} {t t' : Tables} {n : ℕ} {l : Life} {x cp vs : ℕ} {pkt : Packet}

theorem Flowing.append (h : Flowing t n l x) {f : Forwarding} (hf : f.Of t x) :
    Flowing t n { l with forwarded := l.forwarded ++ [f] } x where
  live := h.live
  born_le := h.born_le
  slot := h.slot
  only := h.only
  state := h.state
  of g hg := by
    obtain hg | hg := List.mem_append.mp hg
    · exact h.of g hg
    · rw [List.mem_singleton.mp hg]
      exact hf

/-- **A new connection is in use**, and was used for its packet. -/
theorem Created.flowing (hw : t.Wheel V) (hV : ToVserver t pkt vs) (hc : Created t pkt vs cp t')
    (hnone : ∀ y ∈ t.client_hashtable (t.clientBucket pkt),
      sameAddr Connection.client pkt.saddr.ip pkt.saddr.port t.conn y = false)
    (hstate : vsIsTcp (t.vservers.vserver vs) = true → (t'.conn cp).state = tcpInit) :
    Flowing t' n ⟨n, [⟨pkt, true, t'.conn cp⟩]⟩ cp := by
  have hok' := hw.ok.created hc
  have hclient := Tables.created_bucket hV hc
  have hbucket : t'.clientBucket pkt = t.clientBucket pkt := by
    rw [Tables.clientBucket, hc.eq, Tables.clientBucket]
  have hmem : cp ∈ t'.client_hashtable (t.clientBucket pkt) := by
    rw [hclient]
    exact mem_bucketAdd_self _ _ _
  have htotal : t.clock.total_clock_seconds = 300 := hw.total
  have hclock : t'.clock = { t.clock with
      timer_table := bucketAdd t.clock.timer_table
        ((t.clock.next_clock_second + connectionTimeoutSeconds.toNat)
          % t.clock.total_clock_seconds) cp } := by
    rw [hc.eq]
    exact timerAdd_eq (htotal ▸ (by decide)) cp
  have hfresh : ∀ b < connHtSize, cp ∉ t.client_hashtable b := fun b hb hcp =>
    hc.fresh (hw.ok.mem_live.mp (Tables.live_of_bucket hb hcp))
  refine ⟨mem_linked.mpr ⟨_, t.clientBucket_lt pkt, hmem⟩, le_refl n, ?_,
    fun b hb y hxb hyb hsame => ?_, fun htcp => ?_, fun f hf => ?_⟩
  · rw [hclock]
    dsimp only
    rw [Nat.add_sub_cancel_left]
    exact mem_bucketAdd_self _ _ _
  · -- the bucket is the new connection's, which held none of its client
    rw [hclient] at hxb hyb
    obtain ⟨-, rfl⟩ := (Tables.mem_bucketAdd hxb).resolve_right (hfresh b hb)
    obtain ⟨rfl, -⟩ | hyb := Tables.mem_bucketAdd hyb
    · rfl
    · have hne : y ≠ cp := fun he => hfresh _ hb (he ▸ hyb)
      rw [hc.setUp.client, Tables.sameAddr_congr (congrArg _ (hc.conn y hne))] at hsame
      exact absurd hsame (Bool.eq_false_iff.mp (hnone y hyb))
  · refine hstate ?_
    have hvservers : t'.vservers = t.vservers := by rw [hc.eq]
    rw [hc.setUp.vs_eq, hvservers] at htcp
    exact htcp
  · rw [List.mem_singleton.mp hf]
    refine ⟨⟨_, _, rfl⟩, fun _ => ⟨?_, hbucket.symm ▸ hmem⟩⟩
    rw [sameAddr, hc.setUp.client, ipAddressEq_refl, beq_self_eq_true]
    rfl

end Packet

/-- A new connection is live, with those that were. -/
theorem Tables.Wheel.live_created {V : VserverTable} {t t' : Tables} {pkt : Packet} {vs cp : ℕ}
    (hw : t.Wheel V) (hV : ToVserver t pkt vs) (hc : Created t pkt vs cp t') (x : ℕ) :
    x ∈ t'.live ↔ x = cp ∨ x ∈ t.live := by
  have hwheel' := (Tables.stable_wheel V).created _ _ _ _ _ hw hV hc
  rw [hwheel'.ok.mem_live, hc.outstanding, List.mem_cons, hw.ok.mem_live]

/-- **A new connection is seen** with its first packet. -/
theorem Watching.created {V : VserverTable} {life : ℕ → Life} {t t' : Tables} {n : ℕ}
    (h : Watching V life t n) {pkt : Packet} {vs cp : ℕ} (hV : ToVserver t pkt vs)
    (hc : Created t pkt vs cp t')
    (hnone : ∀ y ∈ t.client_hashtable (t.clientBucket pkt),
      sameAddr Connection.client pkt.saddr.ip pkt.saddr.port t.conn y = false)
    (hstate : vsIsTcp (t.vservers.vserver vs) = true → (t'.conn cp).state = tcpInit) :
    Watching V (Function.update life cp ⟨n, [⟨pkt, true, t'.conn cp⟩]⟩) t' n := by
  have hnew : cp ∉ t.live := fun hcp => hc.fresh (h.wheel.ok.mem_live.mp hcp)
  refine ⟨(Tables.stable_wheel V).created _ _ _ _ _ h.wheel hV hc, fun x hx => ?_, fun x => ?_⟩
  · obtain rfl | hx := (h.wheel.live_created hV hc x).mp hx
    · rw [Function.update_self]
      exact List.cons_ne_nil _ _
    · rw [Function.update_of_ne (ne_of_mem_of_not_mem hx hnew)]
      exact h.used x hx
  · by_cases hx : x = cp
    · rw [hx, Function.update_self]
      exact fun _ _ _ => hc.flowing h.wheel hV hnone hstate
    · rw [Function.update_of_ne hx]
      intro hne htime hquiet
      have hfl := h.flowing x hne htime hquiet
      exact hfl.spares (h.wheel.ok.spares_created hV hc hnone hfl.live)

/-- **A packet of a live connection is seen**; looking it up may assign its protocol. -/
theorem Watching.append {V : VserverTable} {life : ℕ → Life} {t : Tables} {n : ℕ}
    (h : Watching V life t n) {cp : ℕ} (hlive : cp ∈ t.live) (protocol : UInt8) {f : Forwarding}
    (hf : f.Of (t.setProtocol cp protocol) cp) :
    Watching V (Function.update life cp
        { life cp with forwarded := (life cp).forwarded ++ [f] })
      (t.setProtocol cp protocol) n := by
  refine ⟨(Tables.stable_wheel V).assigns _ _ h.wheel (t.assigns_setProtocol cp protocol),
    fun x hx => ?_, fun x => ?_⟩
  · by_cases hxc : x = cp
    · rw [hxc, Function.update_self]
      exact List.append_ne_nil_of_right_ne_nil _ (List.cons_ne_nil _ _)
    · rw [Function.update_of_ne hxc]
      exact h.used x hx
  · by_cases hxc : x = cp
    · rw [hxc, Function.update_self]
      intro _ htime hquiet
      have hfl := (h.flowing cp (h.used cp hlive) htime
        (fun f hf => hquiet f (List.mem_append_left _ hf))).spares
          (Tables.spares_setProtocol t cp protocol cp)
      exact hfl.append hf
    · rw [Function.update_of_ne hxc]
      intro hne htime hquiet
      exact (h.flowing x hne htime hquiet).spares (Tables.spares_setProtocol _ _ _ _)

/-- **Finding a connection is seen.** -/
theorem Watching.find {V : VserverTable} {w : Watched} (h : Watching V w.life w.tables w.ticks)
    {malloc : Option ℕ} (hm : w.tables.conn_mem_pool.MallocOk malloc) {pkt : Packet}
    (hproto : pkt.protocol_ip ≠ 0) :
    Watching V (w.note malloc pkt) (processFindConnection malloc w.tables pkt).2 w.ticks
      ∧ ∀ cp is_client, (processFindConnection malloc w.tables pkt).1
          = .connection cp is_client →
        cp ∈ (processFindConnection malloc w.tables pkt).2.live
          ∧ ∃ f ∈ (w.note malloc pkt cp).forwarded, f.pkt = pkt
            ∧ f.conn = (processFindConnection malloc w.tables pkt).2.conn cp := by
  have hok := h.wheel.ok
  have hsearch := @searches_processFindConnection malloc w.tables hok pkt hproto
  have hspec := fun vs => connectionCreate_spec hok.mem hm hok.ranges pkt vs
  generalize hr : processFindConnection malloc w.tables pkt = r at hsearch
  obtain ⟨found, t'⟩ := r
  dsimp only at hsearch ⊢
  cases hsearch with
  | nothing hno =>
    rw [Watched.note_of_not hr hno]
    exact ⟨h, fun cp ic hc => absurd hc (hno cp ic)⟩
  | @notCreated vs _ hc =>
    have hn := hspec vs
    rw [hc] at hn
    have hno : ∀ cp ic, Found.none ≠ .connection cp ic := fun _ _ => by simp
    have hlive : t'.live ⊆ w.tables.live := by
      rw [hn.sameConnections.live]
      exact List.Subset.refl _
    rw [Watched.note_of_not hr hno]
    exact ⟨h.spares ((Tables.stable_wheel V).notCreated _ _ h.wheel hn) hlive
      (fun x hx _ _ => hok.spares_notCreated hn hx.live), fun cp ic hc => absurd hc (hno cp ic)⟩
  | @created vs cp _ hV hnone hc =>
    have hcr := hspec vs
    rw [hc] at hcr
    dsimp only at hcr
    have hnew : cp ∉ w.tables.live := fun hcp => hcr.fresh (hok.mem_live.mp hcp)
    rw [Watched.note_of_new hr hnew, hV.vsip]
    refine ⟨h.created hV hcr hnone (connectionCreate_state hc), fun x ic hx => ?_⟩
    obtain ⟨rfl, -⟩ := Found.connection.inj hx
    refine ⟨(h.wheel.live_created hV hcr cp).mpr (Or.inl rfl), ⟨pkt, true, t'.conn cp⟩, ?_,
      rfl, rfl⟩
    rw [Function.update_self]
    exact List.mem_singleton_self _
  | @found cp ic hlive hclient =>
    rw [Watched.note_of_live hr hlive]
    refine ⟨h.append hlive pkt.protocol_ip ⟨⟨_, _, rfl⟩, fun hto => ?_⟩, fun x ic hx => ?_⟩
    · obtain ⟨-, hmem, hsame⟩ := hclient hto
      refine ⟨?_, hmem⟩
      rw [Tables.sameAddr_congr
        (Tables.spares_setProtocol w.tables cp pkt.protocol_ip cp).client_eq]
      exact hsame
    · obtain ⟨rfl, -⟩ := Found.connection.inj hx
      rw [Function.update_self]
      exact ⟨hlive, _, List.mem_append_right _ (List.mem_singleton_self _), rfl, rfl⟩

/-- Forwarding makes no connection live. -/
theorem live_processForward_subset {t : Tables} (h : t.Ok) (cp : ℕ) (pkt : Packet)
    (is_client : Bool) : (processForward t cp pkt is_client).2.2.live ⊆ t.live := by
  rw [processForward_eq]
  dsimp only
  generalize processRewrite t (t.conn cp) pkt is_client = out
  have hsent : (ngDriverPutPacketToSendBuffer t out).Ok := h.arps rfl
  have hok : (tcpChangeState (ngDriverPutPacketToSendBuffer t out) out cp).2.Ok :=
    hsent.assigns (Tables.assigns_setConn_state _ _ _)
  split
  · split
    · exact Tables.live_connectionFree_subset hok
    · exact List.Subset.refl _
  · exact List.Subset.refl _

/-- **Forwarding is seen**: a connection that the packet does not close stays in use. -/
theorem Watching.forward {V : VserverTable} {life : ℕ → Life} {t : Tables} {n : ℕ}
    (h : Watching V life t n) {cp : ℕ} (hcp : cp ∈ t.live) {pkt : Packet}
    (hp : PacketAccepted pkt) (hip : packetIsIp pkt = true) (is_client : Bool)
    (hnoted : ∃ f ∈ (life cp).forwarded, f.pkt = pkt ∧ f.conn = t.conn cp) :
    Watching V life (processForward t cp pkt is_client).2.2 n := by
  refine h.spares ((Tables.stable_wheel V).forward h.wheel hcp pkt is_client)
    (live_processForward_subset h.wheel.ok cp pkt is_client)
    (fun x hx hquiet _ => spares_processForward t hp hip is_client ?_)
  rintro rfl htcp
  obtain ⟨f, hf, rfl, hconn⟩ := hnoted
  obtain ⟨hfin, hvs⟩ := hquiet f hf htcp
  rw [hconn, ← h.wheel.vservers] at hvs
  exact ⟨hfin, hx.state hvs⟩

/-- **Every step is seen.** -/
theorem Watching.step {V : VserverTable} (w : Watched) (l : ProcessLabel) (w' : Watched)
    (h : Watching V w.life w.tables w.ticks) (hst : watchSystem.step w l w') :
    Watching V w'.life w'.tables w'.ticks := by
  cases l with
  | packet malloc pkt =>
    obtain ⟨⟨hp, hm, -⟩, rfl⟩ := hst
    unfold Watched.next mainProcessPackets
    dsimp only
    by_cases hip : packetIsIp pkt = true
    · rw [if_pos hip, if_pos hip, processIpPacket]
      obtain ⟨hfind, hnoted⟩ := h.find hm (hp.protocol_ne_zero hip)
      generalize processFindConnection malloc w.tables pkt = r at hfind hnoted
      obtain ⟨found, t'⟩ := r
      cases found with
      | drop => exact hfind
      | none => exact hfind
      | connection cp is_client =>
        obtain ⟨hcp, hf⟩ := hnoted cp is_client rfl
        exact hfind.forward hcp hp hip is_client hf
    · rw [if_neg hip, if_neg hip]
      split
      · have harps := (arpHandler_spec w.tables pkt).1
        have hlive : (arpHandler w.tables pkt).2.2.live ⊆ w.tables.live := by
          rw [Tables.live, harps]
          exact List.Subset.refl _
        exact h.spares ((Tables.stable_wheel V).arps _ _ h.wheel harps) hlive
          (fun x _ _ _ => .of_arps harps x)
      · exact h
  | timer now =>
    obtain ⟨-, rfl⟩ := hst
    exact h.timer now

/-- **What a watch has seen is so in every run.** -/
theorem watching_of_reachable {w : Watched} (h : watchSystem.Reachable w) :
    Watching w.tables.vservers w.life w.tables w.ticks := by
  have hstart : ∃ V, Watching V w.life w.tables w.ticks := by
    obtain ⟨s, ls, ⟨hstart, -, hnone⟩, hrun⟩ := h
    refine ⟨s.tables.vservers, hrun.invariant Watching.step
      (P := fun w => Watching s.tables.vservers w.life w.tables w.ticks) ⟨⟨hstart.ok, ?_, rfl⟩,
        fun x hx => ?_, fun x hne => absurd (hnone x) hne⟩⟩
    · obtain ⟨now, hclock⟩ := hstart.clock
      rw [hclock]
      rfl
    · obtain ⟨t₀, ht₀⟩ := hstart.conn
      rw [ht₀, Tables.live, connectionModuleInit, linked_nil] at hx
      exact absurd hx List.not_mem_nil
  obtain ⟨V, hV⟩ := hstart
  exact hV.wheel.vservers ▸ hV

/-- A flow finds the connection it uses. -/
theorem Flowing.find {t : Tables} {n : ℕ} {l : Life} {cp : ℕ} (h : Flowing t n l cp)
    {f : Forwarding} (hf : f ∈ l.forwarded) (hto : f.to_vs = true) {pkt : Packet} {vs : ℕ}
    (hV : ToVserver t pkt vs) (hproto : pkt.protocol_ip ≠ 0) (hsource : f.pkt.SameSource pkt)
    (hsame : f.pkt.protocol_ip = pkt.protocol_ip) (malloc : Option ℕ) :
    processFindConnection malloc t pkt
      = (.connection cp true, t.setProtocol cp pkt.protocol_ip) := by
  obtain ⟨hclient, hmem⟩ := (h.of f hf).client hto
  obtain ⟨hip, hport⟩ := hsource
  have hbucket : t.clientBucket f.pkt = t.clientBucket pkt := by
    rw [Tables.clientBucket, hport, hsame, connectionHashkey, ipPortProtoHash_congr _ _ _ hip]
    rfl
  rw [sameAddr, Bool.and_eq_true, beq_iff_eq] at hclient
  have hmatch : sameAddr Connection.client pkt.saddr.ip pkt.saddr.port t.conn cp = true := by
    rw [sameAddr, Bool.and_eq_true, beq_iff_eq]
    exact ⟨ipAddressEq_trans hclient.1 hip, hclient.2.trans hport⟩
  refine hV.find_of_lookup malloc ?_
  rw [hbucket] at hmem
  obtain hnone | ⟨y, hy⟩ := Option.eq_none_or_eq_some
    (connectionLookup t pkt.saddr.ip pkt.saddr.port pkt.protocol_ip true).1
  · have hno := (connectionLookup_none hproto hnone).2 cp hmem
    exact absurd hmatch (Bool.eq_false_iff.mp hno)
  · -- what is found is of the client, and only the connection in use is
    obtain ⟨-, hyes, -⟩ := connectionLookup_some hy
    rw [hy, h.only _ (t.clientBucket_lt pkt) y hmem (connectionLookup_mem hproto hy) ?_]
    rw [sameAddr, Bool.and_eq_true, beq_iff_eq] at hyes hmatch ⊢
    exact ⟨ipAddressEq_trans hyes.1 (ipAddressEq_symm hmatch.1), hyes.2.trans hmatch.2.symm⟩

/-- **A flow keeps its server for `CONNECTION_TIMEOUT_SECONDS`.** In every run, a client packet
of a flow that had a packet forwarded on a connection, fewer than so many ticks after the
connection was created, and with no FIN of its client or server on it since, is forwarded on the
same connection: to the same server, from the same self IP and port. -/
theorem flow_keeps_server {w : Watched} (h : watchSystem.Reachable w) {cp : ℕ}
    (htime : w.ticks < (w.life cp).born + connectionTimeoutSeconds.toNat)
    (hquiet : ∀ f ∈ (w.life cp).forwarded, f.Quiet w.tables.vservers)
    {f : Forwarding} (hf : f ∈ (w.life cp).forwarded) (hto : f.to_vs = true)
    {pkt : Packet} (hp : PacketAccepted pkt) (hip : packetIsIp pkt = true)
    {vs : ℕ} (hV : ToVserver w.tables pkt vs) (hsource : f.pkt.SameSource pkt)
    (hdest : f.pkt.SameDestination pkt) (malloc : Option ℕ) :
    ∃ t', processFindConnection malloc w.tables pkt = (.connection cp true, t')
      ∧ (processIpPacket malloc w.tables pkt).1 = .stolen
      ∧ (t'.conn cp).server = f.conn.server
      ∧ connectionIsFullnat (t'.conn cp) = connectionIsFullnat f.conn
      ∧ (t'.conn cp).self_addr = f.conn.self_addr
      ∧ (t'.conn cp).self_port = f.conn.self_port := by
  have hflow := (watching_of_reachable h).flowing cp (List.ne_nil_of_mem hf) htime hquiet
  have hfind := hflow.find hf hto hV (hp.protocol_ne_zero hip) hsource hdest.2.2 malloc
  obtain ⟨p, s, hconn⟩ := (hflow.of f hf).conn
  refine ⟨_, hfind, stolen_of_find (congrArg Prod.fst hfind), ?_⟩
  rw [Tables.conn_setProtocol, hconn]
  exact ⟨rfl, rfl, rfl, rfl⟩

/-! ## A busy flow -/

/-- A process with one pool of two servers, `10.0.0.4` and `10.0.0.5`. -/
def twoServers : Tables :=
  connectionModuleInit { twoVservers (twoIps 1024 1027) 0 with
    rt := rtAddEntry 0 (rtAddEntry 0 (fun _ => []) ⟨netTen 4, 0⟩) ⟨netTen 5, 0⟩
    pool := fun _ => ⟨fun i => if i = 0 then serverTen 4 (fun _ => 4) else
      serverTen 5 (fun _ => 5), 2, 0⟩
    server_list := [(0, 0), (0, 1)] }

theorem started_twoServers : twoServers.Started where
  itf := ⟨1, 1024, 65535, 1024, 1027, _, rfl⟩
  clock := ⟨0, rfl⟩
  conn := ⟨_, rfl⟩
  sent := rfl
  created := rfl
  freed := rfl

/-- A segment with ACK alone from `10.0.0.3` port 1157 to the virtual server. -/
def busyPacket : Packet := tcpPacket 3 1 [4, 133] [0, 80] 16

/-- A watch that begins. -/
def busyStart : Watched := ⟨twoServers, 0, fun _ => ⟨0, []⟩⟩

/-- The first segment, and thirty ticks. -/
def busyFirst : Watched := (busyStart.next (.packet (some 0x100000) busyPacket)).next (.timer 78001)

/-- The second, and thirty-five ticks. -/
def busySecond : Watched := (busyFirst.next (.packet none busyPacket)).next (.timer 169001)

/-- The watch is of two runs, one after the other. -/
theorem run_busy : watchSystem.Run busyStart
      [.packet (some 0x100000) busyPacket, .timer 78001] busyFirst
    ∧ watchSystem.Run busyFirst [.packet none busyPacket, .timer 169001] busySecond := by
  have haccepted : PacketAccepted busyPacket := accepted_tcpPacket _ _ _ _ _
  have hnone : ∀ mp : MemPool, mp.MallocOk none := fun mp => by simp [MemPool.MallocOk]
  refine ⟨(System.Run.single (t := busyStart.next (.packet (some 0x100000) busyPacket)) ?_).snoc ?_,
    (System.Run.single (t := busyFirst.next (.packet none busyPacket)) ?_).snoc ?_⟩
  · exact ⟨⟨haccepted, fun _ _ _ hc => absurd hc List.not_mem_nil, rfl⟩, rfl⟩
  · exact ⟨⟨by decide +kernel, rfl⟩, rfl⟩
  · exact ⟨⟨haccepted, hnone _, rfl⟩, rfl⟩
  · exact ⟨⟨by decide +kernel, rfl⟩, rfl⟩

/-- The second segment of the flow goes to the server of the first. -/
theorem flow_keeps_server_busy :
    ∃ t', processFindConnection none busyFirst.tables busyPacket
        = (.connection 0x1fff80 true, t')
      ∧ (t'.conn 0x1fff80).server = (0, 0) := by
  have hlife : (busyFirst.life 0x1fff80).forwarded = [⟨busyPacket, true,
      (processFindConnection (some 0x100000) busyStart.tables busyPacket).2.conn 0x1fff80⟩] := by
    have hfind : processFindConnection (some 0x100000) busyStart.tables busyPacket
        = (.connection 0x1fff80 true,
          (processFindConnection (some 0x100000) busyStart.tables busyPacket).2) :=
      Prod.ext (by decide +kernel) rfl
    have hnew : 0x1fff80 ∉ busyStart.tables.live := by decide +kernel
    have hvs : (ngInterfaceLookupVsip busyStart.tables.hash_rand busyStart.tables.itf
        busyPacket.daddr.ip).isSome = true := by decide +kernel
    rw [busyFirst, Watched.life_next_timer, Watched.life_next_packet,
      if_pos (show packetIsIp busyPacket = true by decide +kernel), Watched.note_of_new hfind hnew, hvs,
      Function.update_self]
  have hquiet : ∀ f ∈ (busyFirst.life 0x1fff80).forwarded,
      f.Quiet busyFirst.tables.vservers := by
    rw [hlife]
    intro f hf _
    rw [List.mem_singleton.mp hf]
    exact ⟨by decide +kernel, by decide +kernel⟩
  obtain ⟨t', hfind, -, hserver, -⟩ := flow_keeps_server
    ⟨busyStart, _, ⟨started_twoServers, rfl, fun _ => rfl⟩, run_busy.1⟩
    (show busyFirst.ticks < (busyFirst.life 0x1fff80).born + _ by decide +kernel) hquiet
    (hlife ▸ List.mem_singleton_self _) rfl (accepted_tcpPacket 3 1 [4, 133] [0, 80] 16)
    (tcpPacket_isTcp _ _ _ _ _).1
    (show ToVserver busyFirst.tables busyPacket 0 from ⟨by decide +kernel, by decide +kernel⟩)
    ⟨ipAddressEq_refl _, rfl⟩ ⟨ipAddressEq_refl _, rfl, rfl⟩ none
  exact ⟨t', hfind, hserver.trans (by decide +kernel)⟩

/-- **A flow that goes on may change its server**: `10.0.0.3` port 1157 sends a segment, a
second thirty seconds later, and a third thirty-five seconds after that. No segment carries FIN
or RST and all are forwarded; the second goes to `10.0.0.4`, on the connection of the first, and
the third to `10.0.0.5`, the connection having been freed sixty seconds after its creation. -/
theorem busy_flow_changes_server :
    watchSystem.init busyStart
      ∧ watchSystem.Run busyStart [.packet (some 0x100000) busyPacket, .timer 78001] busyFirst
      ∧ watchSystem.Run busyFirst [.packet none busyPacket, .timer 169001] busySecond
      ∧ PacketAccepted busyPacket ∧ packetIsIp busyPacket = true
      ∧ tcpFlags busyPacket &&& 5 = 0
      ∧ ToVserver busyFirst.tables busyPacket 0 ∧ ToVserver busySecond.tables busyPacket 0
      ∧ busySecond.ticks < busyFirst.ticks + connectionTimeoutSeconds.toNat
      ∧ (processIpPacket none busyFirst.tables busyPacket).1 = .stolen
      ∧ (processIpPacket none busySecond.tables busyPacket).1 = .stolen
      ∧ ∃ cp t cp' t', processFindConnection none busyFirst.tables busyPacket
          = (.connection cp true, t)
        ∧ processFindConnection none busySecond.tables busyPacket = (.connection cp' true, t')
        ∧ (serverAt t.pool (t.conn cp).server).addr.ip.ip6_0
          ≠ (serverAt t'.pool (t'.conn cp').server).addr.ip.ip6_0 := by
  have hfirst : (processFindConnection none busyFirst.tables busyPacket).1
      = .connection 0x1fff80 true := by decide +kernel
  have hsecond : (processFindConnection none busySecond.tables busyPacket).1
      = .connection 0x1fff80 true := by decide +kernel
  exact ⟨⟨started_twoServers, rfl, fun _ => rfl⟩, run_busy.1, run_busy.2,
    accepted_tcpPacket _ _ _ _ _, (tcpPacket_isTcp _ _ _ _ _).1, by decide +kernel,
    ⟨by decide +kernel, by decide +kernel⟩, ⟨by decide +kernel, by decide +kernel⟩,
    by decide +kernel, stolen_of_find hfirst, stolen_of_find hsecond,
    0x1fff80, _, 0x1fff80, _, Prod.ext hfirst rfl, Prod.ext hsecond rfl, by decide +kernel⟩
