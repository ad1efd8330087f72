import Ustack.Process

/-!
# The life of a connection

A process is handed packets and readings of the clock, in any order
(`processSystem`). What one packet can do to the tables is told once, by
`Finds`, which lists the ways the first half of `process_ip_packet` ends, and by
`processForward_eq`. From these a property of the tables survives every packet as
soon as it survives a short list of changes (`Stable`), and then it holds in every
reachable state.

The containers of a connection are the first such property: client hash table, timer
wheel and memory pool hold the same connections, each once, whichever way they come
and go.
-/

/-! ## What a lookup leaves behind -/

namespace Tables

/-- Nothing is assigned but protocols and TCP states of connections. -/
structure Assigns (t t' : Tables) : Prop where
  /-- Nothing else is assigned. -/
  eq : t' = { t with conn := t'.conn }
  /-- Only these two fields are. -/
  conn : ∀ x, ∃ p s, t'.conn x = { t.conn x with protocol := p, state := s }

variable {t t' : Tables} {cp : ℕ}

theorem Assigns.refl (t : Tables) : t.Assigns t :=
  ⟨rfl, fun x => ⟨(t.conn x).protocol, (t.conn x).state, rfl⟩⟩

theorem Assigns.fullnat (h : t.Assigns t') (x : ℕ) :
    connectionIsFullnat (t'.conn x) = connectionIsFullnat (t.conn x) := by
  obtain ⟨p, s, hx⟩ := h.conn x
  rw [hx]
  rfl

theorem live_setConn (t : Tables) (cp : ℕ) (f : Connection → Connection) :
    (t.setConn cp f).live = t.live := rfl

/-- What a lookup does to the connection it answers. -/
def setProtocol (t : Tables) (cp : ℕ) (p : UInt8) : Tables :=
  t.setConn cp (fun c => { c with protocol := p })

theorem live_setProtocol (t : Tables) (cp : ℕ) (p : UInt8) :
    (t.setProtocol cp p).live = t.live := rfl

theorem conn_setProtocol (t : Tables) (cp : ℕ) (p : UInt8) :
    (t.setProtocol cp p).conn cp = { t.conn cp with protocol := p } :=
  conn_setConn_self t cp _

/-- Assigning a protocol to one connection. -/
theorem assigns_setProtocol (t : Tables) (cp : ℕ) (p : UInt8) :
    t.Assigns (t.setProtocol cp p) := by
  refine ⟨rfl, fun x => ?_⟩
  by_cases hx : x = cp
  · exact ⟨p, (t.conn x).state, by rw [hx, conn_setProtocol]⟩
  · exact ⟨(t.conn x).protocol, (t.conn x).state, conn_setConn_of_ne t hx _⟩

/-- Assigning a TCP state to one connection. -/
theorem assigns_setConn_state (t : Tables) (cp : ℕ) (s : UInt8) :
    t.Assigns (t.setConn cp (fun c => { c with state := s })) := by
  refine ⟨rfl, fun x => ?_⟩
  by_cases hx : x = cp
  · exact ⟨(t.conn x).protocol, s, by rw [hx, conn_setConn_self]⟩
  · exact ⟨(t.conn x).protocol, (t.conn x).state, conn_setConn_of_ne t hx _⟩

theorem Ok.assigns (h : t.Ok) (ha : t.Assigns t') : t'.Ok := by
  rw [ha.eq]
  exact h.of_conn ha.fullnat

end Tables

namespace Tables

theorem searched_true (t : Tables) : t.searched true = t.live := if_pos rfl

theorem searched_false (t : Tables) : t.searched false = t.liveSelf :=
  if_neg Bool.false_ne_true

end Tables

section Lookup

variable {t : Tables} {ip : IpAddress} {port : UInt16} {proto : UInt8}
  {is_client : Bool} {cp : ℕ}

theorem assigns_connectionLookup (t : Tables) (ip : IpAddress) (port : UInt16)
    (proto : UInt8) (is_client : Bool) :
    t.Assigns (connectionLookup t ip port proto is_client).2 := by
  rw [Tables.connectionLookup_eq]
  refine ⟨rfl, fun x => ?_⟩
  obtain ⟨p, -, hx⟩ := connectionFind_conn (t.key is_client) ip port proto
    (t.searchedBucket ip port proto is_client) t.conn x
  exact ⟨p, (t.conn x).state, hx⟩

/-- **What a lookup answers** has the address and the port, whatever its protocol
was, and has the protocol asked for from then on. -/
theorem connectionLookup_some
    (h : (connectionLookup t ip port proto is_client).1 = some cp) :
    cp ∈ t.searched is_client ∧ sameAddr (t.key is_client) ip port t.conn cp = true
      ∧ (connectionLookup t ip port proto is_client).2
        = t.setProtocol cp proto := by
  rw [Tables.connectionLookup_eq] at h ⊢
  dsimp only at h ⊢
  have hzero : proto ≠ 0 := by
    rintro rfl
    rw [(connectionFind_zero _ _ _ _ _).1] at h
    exact absurd h (by simp)
  rcases Option.eq_none_or_eq_some ((t.searchedBucket ip port proto is_client).find?
    (sameAddr (t.key is_client) ip port t.conn)) with hnone | ⟨x, hx⟩
  · rw [connectionFind_none hnone] at h
    exact absurd h (by simp)
  · rw [connectionFind_some hzero hx] at h ⊢
    obtain rfl := Option.some_inj.mp h
    refine ⟨?_, List.find?_some hx, rfl⟩
    have hmem := List.mem_of_find?_eq_some hx
    have hidx : connectionHashkey t.hash_rand ip port.toUInt32 proto.toUInt32
        < connHtSize :=
      lt_of_le_of_lt (UInt32.toNat_and _ _ ▸ Nat.and_le_right) (by decide)
    unfold Tables.searchedBucket at hmem
    cases is_client with
    | true =>
      rw [Tables.searched_true, Tables.live]
      exact mem_linked.mpr ⟨_, hidx, hmem⟩
    | false =>
      rw [Tables.searched_false, Tables.liveSelf]
      exact mem_linked.mpr ⟨_, hidx, hmem⟩

end Lookup

/-! ## What finding a connection comes to -/

/-- The packet is for a virtual server, on a vs IP of the interface. -/
structure ToVserver (t : Tables) (pkt : Packet) (vs : ℕ) : Prop where
  /-- Its destination is a vs IP. -/
  vsip : (ngInterfaceLookupVsip t.hash_rand t.itf pkt.daddr.ip).isSome = true
  /-- Its destination is the virtual server's. -/
  lookup : vserverLookup t.hash_rand t.itf t.vservers pkt.daddr.ip pkt.daddr.port
    pkt.protocol_ip = some vs

/-- **The ways the first half of `process_ip_packet` ends.** -/
inductive Finds (t : Tables) (pkt : Packet) : Found → Tables → Prop
  /-- A vs IP without the virtual server. -/
  | drop (hvs : (ngInterfaceLookupVsip t.hash_rand t.itf pkt.daddr.ip).isSome = true)
      (hno : vserverLookup t.hash_rand t.itf t.vservers pkt.daddr.ip pkt.daddr.port
        pkt.protocol_ip = none) : Finds t pkt .drop t
  /-- A packet to a virtual server, from a client with a connection. -/
  | client {vs cp : ℕ} (hvs : ToVserver t pkt vs) (hlive : cp ∈ t.live)
      (hsame : sameAddr Connection.client pkt.saddr.ip pkt.saddr.port t.conn cp = true) :
      Finds t pkt (.connection cp true)
        (t.setProtocol cp pkt.protocol_ip)
  /-- A packet to a virtual server, from a new client. -/
  | created {t₁ t' : Tables} {vs cp : ℕ} (hvs : ToVserver t pkt vs)
      (hassign : t.Assigns t₁) (hcreated : Created t₁ pkt vs cp t') :
      Finds t pkt (.connection cp true) t'
  /-- A packet to a virtual server, from a new client that gets no connection. -/
  | notCreated {t₁ t' : Tables} {vs : ℕ} (hvs : ToVserver t pkt vs)
      (hassign : t.Assigns t₁) (hnot : NotCreated t₁ t') : Finds t pkt .none t'
  /-- A packet to an address that is not ours, and a connection with that client. -/
  | remote {cp : ℕ}
      (hvs : ngInterfaceLookupVsip t.hash_rand t.itf pkt.daddr.ip = none)
      (hself : ngInterfaceLookupSelfip t.hash_rand t.itf pkt.daddr.ip = none)
      (hlive : cp ∈ t.live)
      (hsame : sameAddr Connection.client pkt.daddr.ip pkt.daddr.port t.conn cp = true) :
      Finds t pkt (.connection cp true)
        (t.setProtocol cp pkt.protocol_ip)
  /-- A packet to a self IP, and a connection with that port of it. -/
  | self {cp : ℕ}
      (hvs : ngInterfaceLookupVsip t.hash_rand t.itf pkt.daddr.ip = none)
      (hself : (ngInterfaceLookupSelfip t.hash_rand t.itf pkt.daddr.ip).isSome = true)
      (hlive : cp ∈ t.liveSelf)
      (hsame : sameAddr (Connection.self t.itf.lip) pkt.daddr.ip pkt.daddr.port t.conn cp
        = true) :
      Finds t pkt (.connection cp false)
        (t.setProtocol cp pkt.protocol_ip)
  /-- A packet to another address, and no connection. -/
  | none {t' : Tables} (hvs : ngInterfaceLookupVsip t.hash_rand t.itf pkt.daddr.ip = none)
      (hassign : t.Assigns t') : Finds t pkt .none t'

/-- The tables a virtual server is looked up in are no part of a connection. -/
theorem ToVserver.assigns {t t' : Tables} {pkt : Packet} {vs : ℕ}
    (h : ToVserver t pkt vs) (ha : t.Assigns t') : ToVserver t' pkt vs := by
  rw [ha.eq]
  exact ⟨h.vsip, h.lookup⟩

section Finds

variable {t : Tables} {malloc : Option ℕ}

theorem finds_processFindClient (h : t.Ok) (hm : t.conn_mem_pool.MallocOk malloc)
    {pkt : Packet}
    (hvsip : (ngInterfaceLookupVsip t.hash_rand t.itf pkt.daddr.ip).isSome = true) :
    Finds t pkt (processFindClient malloc t pkt).1 (processFindClient malloc t pkt).2 := by
  unfold processFindClient
  split
  · rename_i hno
    exact .drop hvsip hno
  · rename_i vs hvs
    have hto : ToVserver t pkt vs := ⟨hvsip, hvs⟩
    have hassign := assigns_connectionLookup t pkt.saddr.ip pkt.saddr.port
      pkt.protocol_ip true
    have hsome := fun cp =>
      @connectionLookup_some t pkt.saddr.ip pkt.saddr.port pkt.protocol_ip true cp
    generalize connectionLookup t pkt.saddr.ip pkt.saddr.port pkt.protocol_ip true = r
      at hassign hsome
    obtain ⟨found, t₁⟩ := r
    cases found with
    | some cp =>
      obtain ⟨hlive, hsame, ht₁⟩ := hsome cp rfl
      rw [Tables.searched_true] at hlive
      dsimp only at ht₁ ⊢
      rw [ht₁]
      exact .client hto hlive hsame
    | none =>
      dsimp only at hassign
      have hok₁ : t₁.Ok := h.assigns hassign
      have hpool : t₁.conn_mem_pool = t.conn_mem_pool := by rw [hassign.eq]
      have hspec := connectionCreate_spec hok₁.mem (hpool ▸ hm) hok₁.ranges pkt vs
      dsimp only
      generalize connectionCreate malloc t₁ pkt vs = r at hspec
      obtain ⟨created, t'⟩ := r
      cases created with
      | none => exact .notCreated hto hassign hspec
      | some cp => exact .created hto hassign hspec

theorem finds_processFindServer {pkt : Packet}
    (hvsip : ngInterfaceLookupVsip t.hash_rand t.itf pkt.daddr.ip = none) :
    Finds t pkt (processFindServer t pkt).1 (processFindServer t pkt).2 := by
  unfold processFindServer
  dsimp only
  generalize hc : (ngInterfaceLookupSelfip t.hash_rand t.itf pkt.daddr.ip).isNone
    = is_client
  have hassign := assigns_connectionLookup t pkt.daddr.ip pkt.daddr.port
    pkt.protocol_ip is_client
  have hsome := fun cp =>
    @connectionLookup_some t pkt.daddr.ip pkt.daddr.port pkt.protocol_ip is_client cp
  generalize connectionLookup t pkt.daddr.ip pkt.daddr.port pkt.protocol_ip is_client = r
    at hassign hsome
  obtain ⟨found, t₁⟩ := r
  cases found with
  | none => exact .none hvsip hassign
  | some cp =>
    obtain ⟨hmem, hsame, ht₁⟩ := hsome cp rfl
    dsimp only at ht₁ ⊢
    rw [ht₁]
    cases is_client with
    | true =>
      rw [Tables.searched_true] at hmem
      exact .remote hvsip (Option.isNone_iff_eq_none.mp hc) hmem hsame
    | false =>
      rw [Tables.searched_false] at hmem
      exact .self hvsip (by rw [← Option.not_isNone, hc]; rfl) hmem hsame

/-- **Every packet's search ends in one of these ways.** -/
theorem finds_processFindConnection (h : t.Ok) (hm : t.conn_mem_pool.MallocOk malloc)
    (pkt : Packet) :
    Finds t pkt (processFindConnection malloc t pkt).1
      (processFindConnection malloc t pkt).2 := by
  unfold processFindConnection
  split
  · rename_i hvsip
    exact finds_processFindClient h hm hvsip
  · rename_i hvsip
    exact finds_processFindServer (Option.not_isSome_iff_eq_none.mp hvsip)

end Finds

/-- **Forwarding**: the packet is rewritten and sent, and the connection is freed if
its TCP state is then closed. -/
theorem processForward_eq (t : Tables) (cp : ℕ) (pkt : Packet) (is_client : Bool) :
    processForward t cp pkt is_client
      = (.stolen, processRewrite t (t.conn cp) pkt is_client,
        let out := processRewrite t (t.conn cp) pkt is_client
        let t := ngDriverPutPacketToSendBuffer t out
        if packetIsTcp out then
          if (tcpChangeState t out cp).1 = tcpClosed then
            connectionFree (tcpChangeState t out cp).2 cp
          else (tcpChangeState t out cp).2
        else t) := by
  unfold processForward processConnection
  simp only [reduceCtorEq, ne_eq, not_false_eq_true, if_true]
  split <;> rfl

/-! ## What every packet keeps -/

/-- **A property of the tables that survives what packets and timers do to them.** -/
structure Stable (P : Tables → Prop) : Prop where
  /-- It says the containers agree. -/
  ok : ∀ t, P t → t.Ok
  /-- Another wheel with the same timers. -/
  clock : ∀ t clock, P t → clock.timer_table = t.clock.timer_table →
    clock.total_clock_seconds = t.clock.total_clock_seconds →
    clock.next_clock_second < clock.total_clock_seconds → P { t with clock := clock }
  /-- Protocols and TCP states assigned. -/
  assigns : ∀ t t', P t → t.Assigns t' → P t'
  /-- Routes and servers changed, packets sent. -/
  arps : ∀ t t', P t → t.Arps t' → P t'
  /-- A creation that fails. -/
  notCreated : ∀ t t', P t → NotCreated t t' → P t'
  /-- A creation that succeeds. -/
  created : ∀ t pkt vs cp t', P t → ToVserver t pkt vs → Created t pkt vs cp t' → P t'
  /-- A live connection freed. -/
  free : ∀ t cp, P t → cp ∈ t.live → P (connectionFree t cp)

namespace Stable

variable {P : Tables → Prop} {t : Tables}

theorem timerExpire (hP : Stable P) (h : P t) (now : ℕ) :
    P (connectionTimerExpire t now) :=
  Tables.timerExpire_invariant hP.ok hP.clock hP.free h now

/-- **Finding a connection keeps it**, and the connection found is live. -/
theorem find (hP : Stable P) (h : P t) {malloc : Option ℕ}
    (hm : t.conn_mem_pool.MallocOk malloc) (pkt : Packet) :
    P (processFindConnection malloc t pkt).2
      ∧ ∀ cp is_client, (processFindConnection malloc t pkt).1
          = .connection cp is_client →
        cp ∈ (processFindConnection malloc t pkt).2.live := by
  have hfinds := finds_processFindConnection (hP.ok t h) hm pkt
  generalize processFindConnection malloc t pkt = r at hfinds
  obtain ⟨found, t'⟩ := r
  dsimp only at hfinds ⊢
  cases hfinds with
  | drop => exact ⟨h, fun _ _ hc => absurd hc (by simp)⟩
  | none _ ha => exact ⟨hP.assigns _ _ h ha, fun _ _ hc => absurd hc (by simp)⟩
  | notCreated _ ha hn =>
    exact ⟨hP.notCreated _ _ (hP.assigns _ _ h ha) hn, fun _ _ hc => absurd hc (by simp)⟩
  | client _ hlive =>
    refine ⟨hP.assigns _ _ h (t.assigns_setProtocol _ _), fun cp ic hc => ?_⟩
    obtain ⟨rfl, -⟩ := Found.connection.inj hc
    rwa [Tables.live_setProtocol]
  | remote _ _ hlive =>
    refine ⟨hP.assigns _ _ h (t.assigns_setProtocol _ _), fun cp ic hc => ?_⟩
    obtain ⟨rfl, -⟩ := Found.connection.inj hc
    rwa [Tables.live_setProtocol]
  | self _ _ hlive =>
    refine ⟨hP.assigns _ _ h (t.assigns_setProtocol _ _), fun cp ic hc => ?_⟩
    obtain ⟨rfl, -⟩ := Found.connection.inj hc
    rw [Tables.live_setProtocol]
    exact ((hP.ok t h).mem_liveSelf.mp hlive).1
  | created hvs ha hc =>
    have h' := hP.created _ _ _ _ _ (hP.assigns _ _ h ha) (hvs.assigns ha) hc
    refine ⟨h', fun cp ic hcp => ?_⟩
    obtain ⟨rfl, -⟩ := Found.connection.inj hcp
    rw [(hP.ok t' h').mem_live, hc.outstanding]
    exact List.mem_cons_self

/-- **Forwarding a packet of a live connection keeps it.** -/
theorem forward (hP : Stable P) (h : P t) {cp : ℕ} (hcp : cp ∈ t.live) (pkt : Packet)
    (is_client : Bool) : P (processForward t cp pkt is_client).2.2 := by
  rw [processForward_eq]
  dsimp only
  generalize processRewrite t (t.conn cp) pkt is_client = out
  have hsent : P (ngDriverPutPacketToSendBuffer t out) := hP.arps _ _ h rfl
  have hstate : P (tcpChangeState (ngDriverPutPacketToSendBuffer t out) out cp).2 :=
    hP.assigns _ _ hsent (Tables.assigns_setConn_state _ _ _)
  split
  · split
    · refine hP.free _ _ hstate ?_
      rw [tcpChangeState, Tables.live_setConn]
      exact hcp
    · exact hstate
  · exact hsent

/-- **Whatever the packet, processing it keeps it.** -/
theorem process (hP : Stable P) (h : P t) {malloc : Option ℕ}
    (hm : t.conn_mem_pool.MallocOk malloc) (pkt : Packet) :
    P (mainProcessPackets malloc t pkt).2.2 := by
  unfold mainProcessPackets processIpPacket
  split
  · obtain ⟨hfind, hlive⟩ := hP.find h hm pkt
    generalize processFindConnection malloc t pkt = r at hfind hlive
    obtain ⟨found, t'⟩ := r
    cases found with
    | drop => exact hfind
    | none => exact hfind
    | connection cp is_client => exact hP.forward hfind (hlive cp is_client rfl) pkt is_client
  · split
    · exact hP.arps _ _ h (arpHandler_spec t pkt).1
    · exact h

end Stable

/-! ## Every run of a process -/

/-- What happens next to a process. -/
inductive ProcessLabel
  /-- A packet is processed, `malloc` being what a new chunk of memory would be. -/
  | packet (malloc : Option ℕ) (pkt : Packet)
  /-- The timers are expired at a reading of the clock. -/
  | timer (now : ℕ)

/-- **A process**: packets the parser let through, and timers, in any order. -/
def processSystem : System Tables ProcessLabel where
  init := Tables.Started
  step t l t' :=
    match l with
    | .packet malloc pkt => PacketAccepted pkt ∧ t.conn_mem_pool.MallocOk malloc
        ∧ t' = (mainProcessPackets malloc t pkt).2.2
    | .timer now => t.clock.now ≤ now ∧ t' = connectionTimerExpire t now

/-- **Every step keeps a stable property.** -/
theorem Stable.step {P : Tables → Prop} (hP : Stable P) (t : Tables) (l : ProcessLabel)
    (t' : Tables) (h : P t) (hst : processSystem.step t l t') : P t' := by
  cases l with
  | packet malloc pkt =>
    obtain ⟨-, hm, rfl⟩ := hst
    exact hP.process h hm pkt
  | timer now =>
    obtain ⟨-, rfl⟩ := hst
    exact hP.timerExpire h now

/-- **A stable property that holds at the start holds in every reachable state.** -/
theorem Stable.of_reachable {P : Tables → Prop} (hP : Stable P)
    (hinit : ∀ t, t.Started → P t) {t : Tables} (h : processSystem.Reachable t) : P t :=
  System.invariant hinit hP.step h

/-- **That the containers agree is stable.** -/
theorem stable_ok : Stable Tables.Ok where
  ok _ h := h
  clock _ _ h htable htotal hwheel := h.of_clock htable htotal hwheel
  assigns _ _ h ha := h.assigns ha
  arps _ _ h ha := h.arps ha
  notCreated _ _ h hn := h.notCreated hn
  created _ _ _ _ _ h _ hc := h.created hc
  free _ _ h hcp := h.free hcp

theorem Tables.ok_of_reachable {t : Tables} (h : processSystem.Reachable t) : t.Ok :=
  stable_ok.of_reachable (fun _ => Tables.Started.ok) h

/-- The same connections are linked in the same containers, and every port is where
it was. -/
structure Tables.SameConnections (t t' : Tables) : Prop where
  /-- The client hash table. -/
  live : t'.live = t.live
  /-- The self hash table. -/
  liveSelf : t'.liveSelf = t.liveSelf
  /-- The timer wheel. -/
  timed : t'.timed = t.timed
  /-- The structures handed out. -/
  outstanding : t'.conn_mem_pool.outstanding = t.conn_mem_pool.outstanding
  /-- The ports. -/
  range : ∀ l b, (t'.itf.lip l).range b = (t.itf.lip l).range b

theorem NotCreated.sameConnections {t t' : Tables} (h : NotCreated t t') :
    t.SameConnections t' := by
  refine ⟨?_, ?_, ?_, h.outstanding, fun l b => by rw [h.lip]⟩
  · rw [Tables.live, Tables.live, h.eq]
  · rw [Tables.liveSelf, Tables.liveSelf, h.eq]
  · rw [Tables.timed, Tables.timed, h.eq]

/-- **The life of a connection is the same in every container.** In every state a
process can reach, the client hash table, the timer wheel and the structures taken
from the pool are the same connections, each linked once; the self hash table links
those in full-NAT mode, each once; only live connections were ever freed; and a
creation that fails, on the tables as they are or as a lookup left them, changes no
container and no port range. -/
theorem processSystem_containers {t : Tables} (h : processSystem.Reachable t) :
    (t.live.Nodup ∧ t.timed.Nodup ∧ t.liveSelf.Nodup ∧ t.conn_mem_pool.outstanding.Nodup)
      ∧ (∀ cp, (cp ∈ t.live ↔ cp ∈ t.timed)
        ∧ (cp ∈ t.live ↔ cp ∈ t.conn_mem_pool.outstanding)
        ∧ (cp ∈ t.liveSelf ↔ cp ∈ t.live ∧ connectionIsFullnat (t.conn cp) = true))
      ∧ (∀ e ∈ t.freed, e.2 = true)
      ∧ ∀ t₁, t.Assigns t₁ → ∀ malloc, t.conn_mem_pool.MallocOk malloc → ∀ pkt vs,
        (connectionCreate malloc t₁ pkt vs).1 = none →
          t₁.SameConnections (connectionCreate malloc t₁ pkt vs).2 := by
  have hok := Tables.ok_of_reachable h
  refine ⟨⟨hok.nodup, ?_, ?_, hok.mem.nodup_outstanding⟩,
    fun cp => ⟨hok.mem_timed.symm, hok.mem_live, hok.mem_liveSelf⟩, hok.freed,
    fun t₁ ha malloc hm pkt vs hnone => ?_⟩
  · exact hok.timer.nodup_iff.mpr hok.mem.nodup_outstanding
  · exact hok.self.nodup_iff.mpr (hok.mem.nodup_outstanding.filter _)
  · have hok₁ := hok.assigns ha
    have hpool : t₁.conn_mem_pool = t.conn_mem_pool := by rw [ha.eq]
    have hspec := connectionCreate_spec hok₁.mem (hpool ▸ hm) hok₁.ranges pkt vs
    rw [hnone] at hspec
    exact hspec.sameConnections

/-- The tables after `10.0.0.3` port 1157 has opened a connection to port 80, in the
mode of `is_fullnat`. -/
def oneClient (is_fullnat : UInt8) : Tables :=
  (mainProcessPackets (some 0x100000) (twoVservers (twoIps 1024 1027) is_fullnat)
    (tcpPacket 3 1 [4, 133] [0, 80] 2)).2.2

theorem reachable_oneClient (is_fullnat : UInt8) :
    processSystem.Reachable (oneClient is_fullnat) :=
  (System.Reachable.of_init (started_twoVservers 1024 1027 is_fullnat)).step
    (show processSystem.step _ (.packet (some 0x100000) _) _ from
      ⟨accepted_tcpPacket _ _ _ _ _, mallocOk_twoVservers _ _ _, rfl⟩)

/-- One full-NAT connection is in all four. -/
theorem processSystem_containers_oneClient :
    0x1fff80 ∈ (oneClient 1).liveSelf ∧ 0x1fff80 ∈ (oneClient 1).timed := by
  have hself : 0x1fff80 ∈ (oneClient 1).liveSelf := by decide +kernel
  obtain ⟨-, hall, -⟩ := processSystem_containers (reachable_oneClient 1)
  obtain ⟨htimed, -, hfull⟩ := hall 0x1fff80
  exact ⟨hself, htimed.mp (hfull.mp hself).1⟩
