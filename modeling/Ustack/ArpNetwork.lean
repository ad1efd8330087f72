import Ustack.ArpRoutes
import Ustack.Conservation
import Ustack.Network

/-!
# ARP among hosts that run this program

The requests of `arp_send_request`, which `rt_find_server_route` sends before the loop of
`main_loop`, and what becomes of them on a wire to which hosts are connected that run this
program: a host that has the address asked for answers (`arp_response`), and who takes the
answer learns a route and a MAC address from it (`arp_server_route`).

What a frame says is an `ArpMessage`. A request says what is asked for, an answer says the
request back with the answering host as its sender, and what a host takes of a frame is what
the frame says. On top of that are two results. Nothing false is learned: in any order of
steps, whatever other packets and timers the hosts process, a server has the MAC address it
had at the start or one of a host that has its address (`arpNetwork_honest`). And an exchange
gets there: the request reaches a host that has the address, and its answer leaves a route and
its MAC address (`arp_exchange`).
-/

/-! ## Requests -/

/-- `all_mac`. -/
def allMac : Mac := fun _ => 0xff

/-- `zero_mac`. -/
def zeroMac : Mac := fun _ => 0

/-- `sizeof(struct arppack)`. -/
def sizeofArppack : ℕ := 28

/-- The frame `arp_send_request` makes in the memory of a free packet. -/
def arpRequestFrame (data : Memory) (src_mac : Mac) (src_ip addr : UInt32) : Memory :=
  let ep := 0
  let ap := sizeofEthhdr
  let data := storeMac data ep allMac
  let data := storeMac data (ep + 6) src_mac
  let data := store16 data (ep + 12) protoArp
  let data := store16 data ap 0x0100
  let data := store16 data (ap + 2) 0x0008
  let data := storeBytes data (ap + 4) 1 (fun _ => 6)
  let data := storeBytes data (ap + 5) 1 (fun _ => 4)
  let data := store16 data (ap + 6) arpRequestOp
  let data := storeMac data (ap + 8) src_mac
  let data := store32 data (ap + 14) src_ip
  let data := storeMac data (ap + 18) zeroMac
  store32 data (ap + 24) addr

/-- The address `arp_send_request` asks from: the next vs IP of the NIC, or the next self IP
if it has none. -/
def arpSourceIp (itf : Interface) (nic_id : ℕ) : Option ℕ × Interface :=
  match interfaceGetLipRr itf nic_id true true with
  | (some lip, itf) => (some lip, itf)
  | (none, itf) => interfaceGetLipRr itf nic_id false true

/-- `arp_send_request`, with the free packets. -/
def arpSendRequest (packet : ℕ → Packet) (pp : PacketPool) (t : Tables) (addr : IpAddress)
    (nic_id : ℕ) : Bool × PacketPool × Tables :=
  let (lip, itf) := arpSourceIp t.itf nic_id
  let t := t.setItf itf
  match lip with
  | none => (false, pp, t)
  | some lip =>
    let (pkt, pp) := packetPoolGet pp
    match pkt with
    | none => (false, pp, t)
    | some pos =>
      let src_ip := (t.itf.lip lip).addr
      let data := arpRequestFrame (packet pos).data (t.mac nic_id) src_ip.ip4 addr.ip4
      let pkt := { packet pos with
        data := data
        len := UInt16.ofNat (sizeofArppack + sizeofEthhdr)
        adapter_idx := UInt8.ofNat nic_id }
      (true, pp, ngDriverPutPacketToSendBuffer t pkt)

/-- `rt_find_server_route`, with `num` adapters. -/
def rtFindServerRoute (packet : ℕ → Packet) (num : ℕ) (pp : PacketPool) (t : Tables) :
    PacketPool × Tables :=
  t.server_list.foldl (fun st srv =>
    (List.range num).foldl (fun st i =>
      let (pp, t) := st
      (arpSendRequest packet pp t (serverAt t.pool srv).addr.ip i).2) st) (pp, t)

/-! ## What a frame says -/

/-- **An ARP message.** -/
structure ArpMessage where
  /-- `ar_op`, as loaded. -/
  op : UInt16
  /-- `ar_sha`. -/
  sha : Mac
  /-- `ar_sip`, as loaded. -/
  sip : UInt32
  /-- `ar_tha`. -/
  tha : Mac
  /-- `ar_tip`, as loaded. -/
  tip : UInt32

/-- The message of a frame. -/
def arpMessage (m : Memory) : ArpMessage where
  op := load16 m 20
  sha := loadMac m 22
  sip := load32 m 28
  tha := loadMac m 32
  tip := load32 m 38

/-- The answer of a host with a MAC address: the sender is the target now, and the sender is
what was asked for. -/
def ArpMessage.answer (a : ArpMessage) (hwaddr : Mac) : ArpMessage where
  op := arpReplyOp
  sha := hwaddr
  sip := a.tip
  tha := a.sha
  tip := a.sip

section Loads

variable {m bytes : Memory} {off n p : ℕ}

/-- A store outside a MAC address does not change it. -/
theorem loadMac_storeBytes (h : p + 6 ≤ off ∨ off + n ≤ p) :
    loadMac (storeBytes m off n bytes) p = loadMac m p :=
  agree_loadMac (agree_storeBytes m bytes h)

/-- A store outside a word does not change it. -/
theorem load32_storeBytes (h : p + 4 ≤ off ∨ off + n ≤ p) :
    load32 (storeBytes m off n bytes) p = load32 m p :=
  (agree_storeBytes m bytes h).load32

/-- A store outside a word does not change it. -/
theorem load16_storeBytes (h : p + 2 ≤ off ∨ off + n ≤ p) :
    load16 (storeBytes m off n bytes) p = load16 m p :=
  (agree_storeBytes m bytes h).load16

/-- What was stored is loaded. -/
theorem loadMac_storeBytes_self (m : Memory) (off : ℕ) (mac : Mac) :
    loadMac (storeBytes m off 6 (fun i => if h : i < 6 then mac ⟨i, h⟩ else 0)) off = mac :=
  loadMac_storeMac m off mac

theorem load32_storeBytes_self (m : Memory) (off : ℕ) (v : UInt32) :
    load32 (storeBytes m off 4 (bytes32 v)) off = v := load32_store32 m off v

theorem load16_storeBytes_self (m : Memory) (off : ℕ) (v : UInt16) :
    load16 (storeBytes m off 2 (bytes16 v)) off = v := load16_store16 m off v

/-- What was copied is loaded. -/
theorem loadMac_copied {src : ℕ} (h : 6 ≤ n) :
    loadMac (storeBytes m off n (loadBytes m src)) off = loadMac m src := by
  funext i
  have hi : (i : ℕ) < n := lt_of_lt_of_le i.isLt h
  show storeBytes m off n (loadBytes m src) (off + i) = m (src + i)
  rw [storeBytes_add hi]
  rfl

theorem load32_copied {src : ℕ} (hlo : off ≤ p) (hhi : p + 4 ≤ off + n) :
    load32 (storeBytes m off n (loadBytes m src)) p = load32 m (src + (p - off)) := by
  have hbyte : ∀ i < 4, storeBytes m off n (loadBytes m src) (p + i) = m (src + (p - off) + i) := by
    intro i hi
    rw [show p + i = off + (p - off + i) by omega, storeBytes_add (by omega), loadBytes,
      Nat.add_assoc]
  have h0 := hbyte 0 (by omega)
  rw [Nat.add_zero, Nat.add_zero] at h0
  rw [load32, load32, h0, hbyte 1 (by omega), hbyte 2 (by omega), hbyte 3 (by omega)]

end Loads

/-- **What a request says.** -/
theorem arpMessage_arpRequestFrame (data : Memory) (src_mac : Mac) (src_ip addr : UInt32) :
    arpMessage (arpRequestFrame data src_mac src_ip addr)
      = ⟨arpRequestOp, src_mac, src_ip, zeroMac, addr⟩ := by
  unfold arpMessage arpRequestFrame
  dsimp only
  simp (disch := omega) only [store16, store32, storeMac, sizeofEthhdr, Nat.reduceAdd,
    load16_storeBytes, load32_storeBytes, loadMac_storeBytes, loadMac_storeBytes_self,
    load32_storeBytes_self, load16_storeBytes_self]

/-- A frame with the EtherType of ARP. -/
theorem load16_arpRequestFrame (data : Memory) (src_mac : Mac) (src_ip addr : UInt32) :
    load16 (arpRequestFrame data src_mac src_ip addr) 12 = protoArp := by
  unfold arpRequestFrame
  dsimp only
  simp (disch := omega) only [store16, store32, storeMac, sizeofEthhdr, Nat.reduceAdd,
    load16_storeBytes, load16_storeBytes_self]

/-- The Ethernet header of a request. -/
theorem loadMac_arpRequestFrame (data : Memory) (src_mac : Mac) (src_ip addr : UInt32) :
    loadMac (arpRequestFrame data src_mac src_ip addr) 0 = allMac
      ∧ loadMac (arpRequestFrame data src_mac src_ip addr) 6 = src_mac := by
  unfold arpRequestFrame
  dsimp only
  constructor <;>
    simp (disch := omega) only [store16, store32, storeMac, sizeofEthhdr, Nat.reduceAdd,
      loadMac_storeBytes, loadMac_storeBytes_self]

/-- **What an answer says.** -/
theorem arpMessage_arpReplyFrame {pkt : Packet} (hnet : pkt.network_header = 14)
    (hmac : pkt.mac_header = 0) (hwaddr : Mac) :
    arpMessage (arpReplyFrame pkt hwaddr) = (arpMessage pkt.data).answer hwaddr := by
  unfold arpMessage arpReplyFrame ArpMessage.answer
  rw [hnet, hmac]
  dsimp only
  simp (disch := omega) only [store16, store32, storeMac, Nat.reduceAdd, Nat.zero_add,
    load16_storeBytes, load32_storeBytes, loadMac_storeBytes, loadMac_storeBytes_self,
    load32_storeBytes_self, load16_storeBytes_self, loadMac_copied, load32_copied, Nat.reduceSub]

/-- An answer goes to where the request came from. -/
theorem loadMac_arpReplyFrame {pkt : Packet} (hnet : pkt.network_header = 14)
    (hmac : pkt.mac_header = 0) (hwaddr : Mac) :
    loadMac (arpReplyFrame pkt hwaddr) 0 = loadMac pkt.data 6 := by
  unfold arpReplyFrame
  rw [hnet, hmac]
  dsimp only
  simp (disch := omega) only [store16, store32, storeMac, Nat.reduceAdd, Nat.zero_add,
    loadMac_storeBytes, loadMac_storeBytes_self]

/-- An answer keeps the EtherType. -/
theorem load16_arpReplyFrame {pkt : Packet} (hnet : pkt.network_header = 14)
    (hmac : pkt.mac_header = 0) (hwaddr : Mac) :
    load16 (arpReplyFrame pkt hwaddr) 12 = load16 pkt.data 12 := by
  unfold arpReplyFrame
  rw [hnet, hmac]
  dsimp only
  simp (disch := omega) only [store16, store32, storeMac, Nat.reduceAdd, Nat.zero_add,
    load16_storeBytes]

/-! ## What a host takes of a frame -/

/-- A host takes a frame as an ARP packet. -/
def TakenAs (m : Memory) (pkt : Packet) : Prop :=
  ∃ garbage raw, raw.data = m ∧ packetRecvInit garbage raw = (true, pkt)
    ∧ packetIsArp pkt = true

/-- What an ARP packet has in common with its frame. -/
structure TakenAs.Spec (m : Memory) (pkt : Packet) : Prop where
  /-- The frame. -/
  data : pkt.data = m
  /-- Its EtherType. -/
  ethertype : load16 m 12 = protoArp
  /-- The message follows the Ethernet header. -/
  network_header : pkt.network_header = 14
  /-- The Ethernet header starts the frame. -/
  mac_header : pkt.mac_header = 0
  /-- The sender. -/
  saddr : ipAddressEq pkt.saddr.ip (IpAddress.v4 (arpMessage m).sip) = true

/-- A frame with the EtherType of ARP is taken. -/
theorem packetRecvInit_arp (garbage : UInt16 × UInt16) {raw : Packet}
    (heth : load16 raw.data 12 = protoArp) :
    packetRecvInit garbage raw = packetRecvInitArp
      { raw with lfq_state := .start, protocol_eth := protoArp } := by
  unfold packetRecvInit
  dsimp only
  rw [heth]
  rfl

theorem TakenAs.spec {m : Memory} {pkt : Packet} (h : TakenAs m pkt) : TakenAs.Spec m pkt := by
  obtain ⟨garbage, raw, rfl, hr, harp⟩ := h
  obtain ⟨hdata, heth, -⟩ := packetRecvInit_keeps garbage raw
  rw [hr] at hdata heth
  have heth' : load16 raw.data 12 = protoArp := heth.symm.trans (beq_iff_eq.mp harp)
  rw [packetRecvInit_arp garbage heth'] at hr
  obtain rfl := (Prod.ext_iff.mp hr).2
  exact ⟨rfl, heth', rfl, rfl, ipAddressEq_iff.mpr ⟨rfl, rfl, fun h => absurd rfl h⟩⟩

/-- Every host takes a frame with the EtherType of ARP. -/
theorem exists_takenAs (garbage : UInt16 × UInt16) {raw : Packet}
    (heth : load16 raw.data 12 = protoArp) :
    ∃ pkt, packetRecvInit garbage raw = (true, pkt) ∧ TakenAs raw.data pkt
      ∧ pkt.adapter_idx = raw.adapter_idx := by
  have hr := packetRecvInit_arp garbage heth
  refine ⟨_, hr, ⟨garbage, raw, rfl, hr, rfl⟩, rfl⟩

/-! ## What a host does with a message -/

/-- The host has an address. -/
def Tables.Holds (t : Tables) (ip : IpAddress) : Prop :=
  (ngInterfaceLookupIp t.hash_rand t.itf ip).isSome = true

section Handler

variable {t : Tables} {m : Memory} {pkt : Packet}

theorem TakenAs.Spec.request_iff (h : TakenAs.Spec m pkt) :
    isArpRequest pkt = true ↔ (arpMessage m).op = arpRequestOp := by
  rw [isArpRequest, h.data, h.network_header]
  exact beq_iff_eq

theorem TakenAs.Spec.reply_iff (h : TakenAs.Spec m pkt) :
    isArpReply pkt = true ↔ (arpMessage m).op = arpReplyOp := by
  rw [isArpReply, h.data, h.network_header]
  exact beq_iff_eq

/-- **A host answers a request** for an address it has and routes. -/
theorem arpHandler_request (h : TakenAs.Spec m pkt) (hop : (arpMessage m).op = arpRequestOp)
    (hholds : t.Holds (IpAddress.v4 (arpMessage m).tip)) {re : RouteEntry}
    (hre : (ngRtLookupRr t.hash_rand t.rt (IpAddress.v4 (arpMessage m).tip)).1 = some re) :
    (arpHandler t pkt).1 = .stolen
      ∧ (arpHandler t pkt).2.1.data = arpReplyFrame pkt (t.mac re.nic_id) := by
  have htip : load32 pkt.data (pkt.network_header + 24) = (arpMessage m).tip := by
    rw [h.data, h.network_header]
    rfl
  have hload : load16 pkt.data (pkt.network_header + 6) = arpRequestOp := by
    rw [h.data, h.network_header]
    exact hop
  obtain ⟨lip, hlip⟩ := Option.isSome_iff_exists.mp hholds
  have hresponse : arpResponse t pkt = (true,
      { pkt.setData (arpReplyFrame pkt (t.mac re.nic_id)) with
        adapter_idx := UInt8.ofNat re.nic_id },
      t.setRt (ngRtLookupRr t.hash_rand t.rt (IpAddress.v4 (arpMessage m).tip)).2) := by
    rw [arpResponse, htip]
    dsimp only
    rw [hlip]
    dsimp only
    rw [if_neg (not_not.mpr hload), hre]
    rfl
  rw [arpHandler, if_pos (h.request_iff.mpr hop), hresponse]
  exact ⟨rfl, rfl⟩

/-- **What a host sends of its own** is an answer, with a MAC address of its own, to a request
for an address it has. -/
theorem arpHandler_stolen (h : TakenAs.Spec m pkt) (hstolen : (arpHandler t pkt).1 = .stolen) :
    t.Holds (IpAddress.v4 (arpMessage m).tip)
      ∧ ∃ nic_id, (arpHandler t pkt).2.1.data = arpReplyFrame pkt (t.mac nic_id) := by
  have htip : load32 pkt.data (pkt.network_header + 24) = (arpMessage m).tip := by
    rw [h.data, h.network_header]
    rfl
  have hno : Verdict.accept ≠ Verdict.stolen := by decide
  rw [arpHandler] at hstolen ⊢
  by_cases hreq : isArpRequest pkt = true
  · rw [if_pos hreq] at hstolen ⊢
    have hload : load16 pkt.data (pkt.network_header + 6) = arpRequestOp := beq_iff_eq.mp hreq
    unfold arpResponse at hstolen ⊢
    rw [htip] at hstolen ⊢
    dsimp only at hstolen ⊢
    cases hlip : ngInterfaceLookupIp t.hash_rand t.itf (IpAddress.v4 (arpMessage m).tip) with
    | none =>
      rw [hlip] at hstolen
      exact absurd hstolen hno
    | some lip =>
      rw [hlip] at hstolen
      dsimp only at hstolen ⊢
      rw [if_neg (not_not.mpr hload)] at hstolen ⊢
      have hholds : t.Holds (IpAddress.v4 (arpMessage m).tip) := by
        rw [Tables.Holds, hlip]
        rfl
      generalize ngRtLookupRr t.hash_rand t.rt (IpAddress.v4 (arpMessage m).tip) = r at hstolen ⊢
      obtain ⟨re, rt⟩ := r
      cases re with
      | none => exact absurd hstolen hno
      | some re => exact ⟨hholds, re.nic_id, rfl⟩
  · rw [if_neg hreq] at hstolen
    split at hstolen <;> exact absurd hstolen hno

/-- A request teaches nothing of the servers. -/
theorem pool_arpHandler (h : isArpReply pkt = false) : (arpHandler t pkt).2.2.pool = t.pool := by
  have hresponse : (arpResponse t pkt).2.2.pool = t.pool := by
    unfold arpResponse
    dsimp only
    split
    · rfl
    · split
      · rfl
      · split <;> rfl
  rw [arpHandler]
  split
  · generalize arpResponse t pkt = r at hresponse
    obtain ⟨sent, pkt', t'⟩ := r
    cases sent <;> exact hresponse
  · rw [h]
    rfl

/-- **What a host learns of a server**: the MAC address announced, if the packet is from the
address of the server. -/
theorem server_foldl_arpServerRouteTo (servers : List ServerPtr) (t : Tables) (pkt : Packet)
    (srv : ServerPtr) :
    (serverAt (servers.foldl (arpServerRouteTo pkt) t).pool srv).addr = (serverAt t.pool srv).addr
      ∧ ((serverAt (servers.foldl (arpServerRouteTo pkt) t).pool srv).mac
          = (serverAt t.pool srv).mac
        ∨ ipAddressEq (serverAt t.pool srv).addr.ip pkt.saddr.ip = true
          ∧ (serverAt (servers.foldl (arpServerRouteTo pkt) t).pool srv).mac = pkt.announced) := by
  induction servers generalizing t with
  | nil => exact ⟨rfl, Or.inl rfl⟩
  | cons s servers ih =>
    have hone : (serverAt (arpServerRouteTo pkt t s).pool srv).addr = (serverAt t.pool srv).addr
        ∧ ((serverAt (arpServerRouteTo pkt t s).pool srv).mac = (serverAt t.pool srv).mac
          ∨ ipAddressEq (serverAt t.pool srv).addr.ip pkt.saddr.ip = true
            ∧ (serverAt (arpServerRouteTo pkt t s).pool srv).mac = pkt.announced) := by
      cases hsender : t.isSender pkt s with
      | false =>
        rw [arpServerRouteTo_of_not hsender]
        exact ⟨rfl, Or.inl rfl⟩
      | true =>
        by_cases hroute : HasRoute t.hash_rand t.rt pkt.saddr.ip pkt.nic
        · rw [arpServerRouteTo_of_route hroute]
          exact ⟨rfl, Or.inl rfl⟩
        · rw [arpServerRouteTo_of_sender hsender hroute]
          dsimp only
          rw [serverAt_serverSetMac]
          by_cases hs : srv = s
          · subst hs
            rw [if_pos rfl]
            exact ⟨rfl, Or.inr ⟨hsender, rfl⟩⟩
          · rw [if_neg hs]
            exact ⟨rfl, Or.inl rfl⟩
    obtain ⟨haddr, hmac⟩ := ih (arpServerRouteTo pkt t s)
    obtain ⟨haddr1, hmac1⟩ := hone
    refine ⟨haddr.trans haddr1, ?_⟩
    obtain hmac | ⟨hip, hmac⟩ := hmac
    · obtain hmac1 | ⟨hip1, hmac1⟩ := hmac1
      · exact Or.inl (hmac.trans hmac1)
      · exact Or.inr ⟨hip1, hmac.trans hmac1⟩
    · exact Or.inr ⟨haddr1 ▸ hip, hmac⟩

/-- **What an answer teaches**: there is a route to the servers with the address it is from,
and if there was none before it is by the NIC the answer came in on, and one of them has the
MAC address announced. -/
theorem arpHandler_reply (h : TakenAs.Spec m pkt)
    (hop : (arpMessage m).op = arpReplyOp) {srv : ServerPtr} (hsrv : srv ∈ t.server_list)
    (hip : ipAddressEq (serverAt t.pool srv).addr.ip (IpAddress.v4 (arpMessage m).sip) = true) :
    (∃ nic_id, HasRoute t.hash_rand (arpHandler t pkt).2.2.rt (serverAt t.pool srv).addr.ip nic_id)
      ∧ ((∀ nic_id, ¬ HasRoute t.hash_rand t.rt (serverAt t.pool srv).addr.ip nic_id) →
        HasRoute t.hash_rand (arpHandler t pkt).2.2.rt (serverAt t.pool srv).addr.ip pkt.nic
          ∧ ∃ first ∈ t.server_list,
            ipAddressEq (serverAt t.pool first).addr.ip (serverAt t.pool srv).addr.ip = true
            ∧ (serverAt (arpHandler t pkt).2.2.pool first).mac = (arpMessage m).sha) := by
  have hnot : ¬ isArpRequest pkt = true := by
    rw [h.request_iff, hop]
    decide
  have hhandler : (arpHandler t pkt).2.2 = t.server_list.foldl (arpServerRouteTo pkt) t := by
    rw [arpHandler, if_neg hnot, if_pos (h.reply_iff.mpr hop)]
    rfl
  have hannounced : pkt.announced = (arpMessage m).sha := by
    rw [Packet.announced, h.data, h.network_header]
    rfl
  have hsender : ipAddressEq (serverAt t.pool srv).addr.ip pkt.saddr.ip = true :=
    ipAddressEq_trans hip (ipAddressEq_symm h.saddr)
  rw [hhandler]
  by_cases hroute : ∃ nic_id, HasRoute t.hash_rand t.rt pkt.saddr.ip nic_id
  · -- there is a route already
    obtain ⟨nic_id, hroute⟩ := hroute
    have hr := hroute.congr (ipAddressEq_symm hsender)
    rw [foldl_rt_of_other hroute]
    exact ⟨⟨nic_id, hr⟩, fun hno => absurd hr (hno nic_id)⟩
  · -- the first server of the address is given one
    have hno : ∀ nic_id, ¬ HasRoute t.hash_rand t.rt pkt.saddr.ip nic_id := not_exists.mp hroute
    obtain ⟨first, hfirst⟩ : ∃ first, t.server_list.find? (t.isSender pkt) = some first :=
      Option.isSome_iff_exists.mp (List.find?_isSome.mpr ⟨srv, hsrv, hsender⟩)
    have hsender_first : t.isSender pkt first = true := List.find?_some hfirst
    have hfrom : ipAddressEq (serverAt t.pool first).addr.ip pkt.saddr.ip = true := hsender_first
    have hsame : ipAddressEq (serverAt t.pool first).addr.ip (serverAt t.pool srv).addr.ip = true :=
      ipAddressEq_trans hfrom (ipAddressEq_symm hsender)
    have hadded : HasRoute t.hash_rand
        (rtAddEntry t.hash_rand t.rt ⟨(serverAt t.pool first).addr.ip, pkt.nic⟩)
        (serverAt t.pool srv).addr.ip pkt.nic :=
      (hasRoute_rtAddEntry (fun nic_id hr => hno nic_id (hr.congr hfrom))).mpr
        (Or.inr ⟨hsame, rfl⟩)
    rw [foldl_of_no_route hno, hfirst]
    refine ⟨⟨_, hadded⟩, fun _ => ⟨hadded, first, List.mem_of_find?_eq_some hfirst, hsame, ?_⟩⟩
    dsimp only
    rw [serverAt_serverSetMac, if_pos rfl]
    exact hannounced

end Handler

/-! ## What else a host does -/

/-- **The same host**: its addresses, its adapters and what it knows of its servers are the
same. -/
structure Tables.SameHost (t t' : Tables) : Prop where
  /-- The addresses. -/
  itf : t.itf.Keeps t'.itf
  /-- The seed of the hashes. -/
  hash_rand : t'.hash_rand = t.hash_rand
  /-- The MAC addresses of the adapters. -/
  mac : t'.mac = t.mac
  /-- The servers. -/
  server : ∀ srv, serverAt t'.pool srv = serverAt t.pool srv

namespace Tables

variable {t t' t'' : Tables}

theorem SameHost.refl (t : Tables) : t.SameHost t :=
  ⟨Interface.Keeps.refl _, rfl, rfl, fun _ => rfl⟩

theorem SameHost.trans (h : t.SameHost t') (h' : t'.SameHost t'') : t.SameHost t'' :=
  ⟨h.itf.trans h'.itf, h'.hash_rand.trans h.hash_rand, h'.mac.trans h.mac,
    fun srv => (h'.server srv).trans (h.server srv)⟩

/-- The addresses of a host. -/
theorem holds_keeps (hitf : t.itf.Keeps t'.itf) (hrand : t'.hash_rand = t.hash_rand)
    (ip : IpAddress) : t'.Holds ip ↔ t.Holds ip := by
  rw [Holds, Holds, ngInterfaceLookupIp, ngInterfaceLookupIp, ngInterfaceLookupSelfip,
    ngInterfaceLookupVsip, hrand, hitf.lookup, hitf.lookup]
  rfl

theorem Holds.congr {a b : IpAddress} (hab : ipAddressEq a b = true) (h : t.Holds a) :
    t.Holds b := by
  rw [Holds, ngInterfaceLookupIp, ngInterfaceLookupSelfip, ngInterfaceLookupVsip] at h ⊢
  rwa [← interfaceLookup_congr _ _ hab, ← interfaceLookup_congr _ _ hab]

theorem Assigns.sameHost (h : t.Assigns t') : t.SameHost t' := by
  rw [h.eq]
  exact ⟨Interface.Keeps.refl _, rfl, rfl, fun _ => rfl⟩

theorem sameHost_connectionFree (t : Tables) (cp : ℕ) : t.SameHost (connectionFree t cp) := by
  refine ⟨keeps_connectionFree t cp, ?_, ?_, fun srv => ?_⟩ <;> rw [connectionFree_eq]

/-- Forwarding a packet. -/
theorem sameHost_processForward (t : Tables) (cp : ℕ) (pkt : Packet) (is_client : Bool) :
    t.SameHost (processForward t cp pkt is_client).2.2 := by
  rw [processForward_eq]
  dsimp only
  generalize processRewrite t (t.conn cp) pkt is_client = out
  have hstate : t.SameHost (tcpChangeState (ngDriverPutPacketToSendBuffer t out) out cp).2 :=
    ⟨Interface.Keeps.refl _, rfl, rfl, fun _ => rfl⟩
  split
  · split
    · exact hstate.trans (sameHost_connectionFree _ cp)
    · exact hstate
  · exact ⟨Interface.Keeps.refl _, rfl, rfl, fun _ => rfl⟩

/-- Finding the connection of a packet. -/
theorem sameHost_processFindConnection {malloc : Option ℕ} (h : t.Ok)
    (hm : t.conn_mem_pool.MallocOk malloc) (pkt : Packet) :
    t.SameHost (processFindConnection malloc t pkt).2 := by
  have hfinds := finds_processFindConnection h hm pkt
  generalize processFindConnection malloc t pkt = r at hfinds
  obtain ⟨found, t'⟩ := r
  dsimp only at hfinds ⊢
  cases hfinds with
  | drop => exact SameHost.refl t
  | client => exact (t.assigns_setProtocol _ _).sameHost
  | remote => exact (t.assigns_setProtocol _ _).sameHost
  | self => exact (t.assigns_setProtocol _ _).sameHost
  | none _ ha => exact ha.sameHost
  | created _ ha hc =>
    exact ha.sameHost.trans ⟨hc.itf, by rw [hc.eq], by rw [hc.eq], hc.server⟩
  | notCreated _ ha hn =>
    exact ha.sameHost.trans ⟨hn.itf, by rw [hn.eq], by rw [hn.eq], hn.server⟩

/-- An IP packet. -/
theorem sameHost_processIpPacket {malloc : Option ℕ} (h : t.Ok)
    (hm : t.conn_mem_pool.MallocOk malloc) (pkt : Packet) :
    t.SameHost (processIpPacket malloc t pkt).2.2 := by
  have hfind := sameHost_processFindConnection h hm pkt
  unfold processIpPacket
  generalize processFindConnection malloc t pkt = r at hfind
  obtain ⟨found, t'⟩ := r
  cases found with
  | drop => exact hfind
  | none => exact hfind
  | connection cp is_client => exact hfind.trans (sameHost_processForward t' cp pkt is_client)

/-- The timers: they send nothing. -/
theorem sameHost_connectionTimerExpire (h : t.Ok) (now : ℕ) :
    t.SameHost (connectionTimerExpire t now) ∧ (connectionTimerExpire t now).sent = t.sent := by
  refine (timerExpire_invariant (P := fun t' => t'.Ok ∧ t.SameHost t' ∧ t'.sent = t.sent)
    (fun _ h => h.1) (fun t' clock h' htable htotal hwheel => ?_) (fun t' cp h' hcp => ?_)
    ⟨h, SameHost.refl t, rfl⟩ now).2
  · obtain ⟨hok, hsame, hsent⟩ := h'
    exact ⟨hok.of_clock htable htotal hwheel,
      hsame.trans ⟨Interface.Keeps.refl _, rfl, rfl, fun _ => rfl⟩, hsent⟩
  · obtain ⟨hok, hsame, hsent⟩ := h'
    refine ⟨hok.free hcp, hsame.trans (sameHost_connectionFree t' cp), ?_⟩
    rw [connectionFree_eq]
    exact hsent

end Tables

/-! ## Sending requests -/

/-- A request: a frame with the EtherType of ARP that asks. -/
def IsRequest (m : Memory) : Prop :=
  load16 m 12 = protoArp ∧ (arpMessage m).op = arpRequestOp

/-- **What sending requests does**: the host stays what it is, and sends requests. -/
structure Asks (t t' : Tables) : Prop where
  /-- The containers agree. -/
  ok : t.Ok → t'.Ok
  /-- The host is the same. -/
  same : t.SameHost t'
  /-- Only requests are sent. -/
  sent : ∃ reqs : List Packet, t'.sent = t.sent ++ reqs ∧ ∀ q ∈ reqs, IsRequest q.data

section Ask

variable {t t' t'' : Tables}

theorem Asks.refl (t : Tables) : Asks t t :=
  ⟨id, Tables.SameHost.refl t, [], (List.append_nil _).symm, fun _ h => absurd h List.not_mem_nil⟩

theorem Asks.trans (h : Asks t t') (h' : Asks t' t'') : Asks t t'' := by
  obtain ⟨reqs, hsent, hreqs⟩ := h.sent
  obtain ⟨reqs', hsent', hreqs'⟩ := h'.sent
  refine ⟨fun hok => h'.ok (h.ok hok), h.same.trans h'.same, reqs ++ reqs', ?_, fun q hq => ?_⟩
  · rw [hsent', hsent, List.append_assoc]
  · exact (List.mem_append.mp hq).elim (hreqs q) (hreqs' q)

/-- Steps that ask, one after the other. -/
theorem Asks.foldl {α β : Type*} {f : β × Tables → α → β × Tables}
    (hf : ∀ st a, Asks st.2 (f st a).2) (l : List α) (st : β × Tables) :
    Asks st.2 (l.foldl f st).2 := by
  induction l generalizing st with
  | nil => exact Asks.refl _
  | cons a l ih => exact (hf st a).trans (ih (f st a))

/-- The addresses are asked from in turn. -/
theorem arpSourceIp_spec (itf : Interface) (nic_id : ℕ) :
    itf.Keeps (arpSourceIp itf nic_id).2 ∧ (arpSourceIp itf nic_id).2.lip = itf.lip := by
  have hvs := interfaceGetLipRr_spec itf nic_id true true
  unfold arpSourceIp
  generalize interfaceGetLipRr itf nic_id true true = r at hvs
  obtain ⟨lip, itf'⟩ := r
  obtain ⟨hkeeps, hlip, -⟩ := hvs
  cases lip with
  | some lip => exact ⟨hkeeps, hlip⟩
  | none =>
    obtain ⟨hkeeps', hlip', -⟩ := interfaceGetLipRr_spec itf' nic_id false true
    exact ⟨hkeeps.trans hkeeps', hlip'.trans hlip⟩

/-- One request. -/
theorem asks_arpSendRequest (packet : ℕ → Packet) (pp : PacketPool) (t : Tables)
    (addr : IpAddress) (nic_id : ℕ) :
    Asks t (arpSendRequest packet pp t addr nic_id).2.2 := by
  obtain ⟨hkeeps, hlip⟩ := arpSourceIp_spec t.itf nic_id
  unfold arpSendRequest
  generalize arpSourceIp t.itf nic_id = r at hkeeps hlip
  obtain ⟨lip, itf⟩ := r
  have hitf : Asks t (t.setItf itf) := by
    refine ⟨fun hok => ⟨hok.mem, hok.client, hok.timer, hok.self, hok.wheel, ?_, hok.freed⟩,
      ⟨hkeeps, rfl, rfl, fun _ => rfl⟩, [], (List.append_nil _).symm,
      fun _ h => absurd h List.not_mem_nil⟩
    intro l b
    have hranges := hok.ranges l b
    rwa [← hlip] at hranges
  cases lip with
  | none => exact hitf
  | some lip =>
    dsimp only
    generalize packetPoolGet pp = r
    obtain ⟨pos, pp'⟩ := r
    cases pos with
    | none => exact hitf
    | some pos =>
      refine hitf.trans ⟨fun hok => hok.arps rfl,
        ⟨Interface.Keeps.refl _, rfl, rfl, fun _ => rfl⟩, [_], rfl, fun q hq => ?_⟩
      obtain rfl := List.mem_singleton.mp hq
      refine ⟨load16_arpRequestFrame _ _ _ _, ?_⟩
      exact congrArg ArpMessage.op (arpMessage_arpRequestFrame _ _ _ _)

/-- **Looking for the servers** sends nothing but requests. -/
theorem asks_rtFindServerRoute (packet : ℕ → Packet) (num : ℕ) (pp : PacketPool) (t : Tables) :
    Asks t (rtFindServerRoute packet num pp t).2 :=
  Asks.foldl (fun st srv => Asks.foldl (fun st i =>
    asks_arpSendRequest packet st.1 st.2 (serverAt st.2.pool srv).addr.ip i) (List.range num) st)
    t.server_list (pp, t)

end Ask

/-! ## Every server is asked for -/

/-- The adapter has an address to ask from. -/
def Interface.HasIpv4 (itf : Interface) (nic_id : ℕ) : Prop :=
  nic_id < itf.num ∧ ∃ v, itf.nic nic_id v true ≠ []

/-- **A request of a host** for an address, by an adapter. -/
structure Asked (t : Tables) (addr : IpAddress) (nic_id : ℕ) (q : Packet) : Prop where
  /-- It is a request. -/
  request : IsRequest q.data
  /-- It goes to everybody. -/
  dest_mac : loadMac q.data 0 = allMac
  /-- It comes from the adapter. -/
  source_mac : loadMac q.data 6 = t.mac nic_id
  /-- The sender is the adapter, -/
  sha : (arpMessage q.data).sha = t.mac nic_id
  /-- with an address of its own. -/
  sip : ∃ v, ∃ l ∈ t.itf.nic nic_id v true, (arpMessage q.data).sip = (t.itf.lip l).addr.ip4
  /-- The address is asked for. -/
  tip : (arpMessage q.data).tip = addr.ip4
  /-- It leaves by the adapter. -/
  adapter_idx : q.adapter_idx = UInt8.ofNat nic_id
  /-- It is as long as a request. -/
  len : q.len = 42

section Asked

variable {t t' : Tables} {packet : ℕ → Packet} {pp : PacketPool}

theorem Asked.of_same (hs : t.SameHost t') {addr : IpAddress} {nic_id : ℕ} {q : Packet}
    (h : Asked t' addr nic_id q) : Asked t addr nic_id q := by
  obtain ⟨v, l, hl, hsip⟩ := h.sip
  have hmac := congrFun hs.mac nic_id
  refine ⟨h.request, h.dest_mac, h.source_mac.trans hmac, h.sha.trans hmac, ⟨v, l, ?_, ?_⟩, h.tip,
    h.adapter_idx, h.len⟩
  · exact (hs.itf.nic nic_id v true).mem_iff.mp hl
  · rw [hsip, hs.itf.addr]

theorem hasIpv4_keeps {itf itf' : Interface} (h : itf.Keeps itf') {nic_id : ℕ}
    (hip : itf.HasIpv4 nic_id) : itf'.HasIpv4 nic_id := by
  obtain ⟨hnum, v, hne⟩ := hip
  refine ⟨h.num ▸ hnum, v, fun hnil => hne ?_⟩
  have hperm := h.nic nic_id v true
  rw [hnil] at hperm
  exact hperm.nil_eq.symm

/-- An adapter with an IPv4 address asks from it. -/
theorem arpSourceIp_isSome {itf : Interface} {nic_id : ℕ} (h : itf.HasIpv4 nic_id) :
    ∃ l, (arpSourceIp itf nic_id).1 = some l ∧ ∃ v, l ∈ itf.nic nic_id v true := by
  obtain ⟨hnum, v, hne⟩ := h
  have hget : ∀ v, itf.nic nic_id v true ≠ [] →
      ∃ l, (interfaceGetLipRr itf nic_id v true).1 = some l := by
    intro v hne
    obtain ⟨l, rest, hlist⟩ := List.exists_cons_of_ne_nil hne
    refine ⟨l, ?_⟩
    rw [interfaceGetLipRr, if_neg (Nat.not_le.mpr hnum), hlist]
  have hmem : ∀ v l, (interfaceGetLipRr itf nic_id v true).1 = some l → l ∈ itf.nic nic_id v true :=
    fun v l => (interfaceGetLipRr_spec itf nic_id v true).2.2 l
  unfold arpSourceIp
  by_cases hvs : itf.nic nic_id true true = []
  · have hnone : interfaceGetLipRr itf nic_id true true = (none, itf) := by
      rw [interfaceGetLipRr, if_neg (Nat.not_le.mpr hnum), hvs]
    cases v with
    | true => exact absurd hvs hne
    | false =>
      obtain ⟨l, hl⟩ := hget false hne
      rw [hnone]
      exact ⟨l, hl, false, hmem false l hl⟩
  · obtain ⟨l, hl⟩ := hget true hvs
    have hl' := hmem true l hl
    generalize interfaceGetLipRr itf nic_id true true = r at hl
    obtain ⟨lip, itf'⟩ := r
    obtain rfl : lip = some l := hl
    exact ⟨l, rfl, true, hl'⟩

/-- **A request is sent**, if there is a packet and an address for it. -/
theorem arpSendRequest_asked (hpp : pp.Counted) (hnum : 0 < pp.num) {nic_id : ℕ}
    (hip : t.itf.HasIpv4 nic_id) (addr : IpAddress) :
    ∃ q, (arpSendRequest packet pp t addr nic_id).2.2.sent = t.sent ++ [q] ∧ Asked t addr nic_id q
      ∧ (arpSendRequest packet pp t addr nic_id).2.1.Counted
      ∧ (arpSendRequest packet pp t addr nic_id).2.1.num + 1 = pp.num := by
  obtain ⟨l, hl, v, hmem⟩ := arpSourceIp_isSome hip
  have hlip := (arpSourceIp_spec t.itf nic_id).2
  obtain ⟨hcounted, hlist⟩ := hpp.get
  have hget : (packetPoolGet pp).1 = pp.list.head? ∧ (packetPoolGet pp).2.num + 1 = pp.num := by
    rw [packetPoolGet, if_pos hnum]
    exact ⟨rfl, Nat.sub_add_cancel hnum⟩
  unfold arpSendRequest
  generalize arpSourceIp t.itf nic_id = r at hl hlip
  obtain ⟨lip, itf⟩ := r
  obtain rfl : lip = some l := hl
  dsimp only
  generalize packetPoolGet pp = r at hcounted hget
  obtain ⟨pos, pp'⟩ := r
  obtain ⟨pkt, rest, hcons⟩ : ∃ pkt rest, pp.list = pkt :: rest := by
    refine List.exists_cons_of_ne_nil fun hnil => ?_
    have hzero : pp.num = 0 := by rw [show pp.num = pp.list.length from hpp, hnil]; rfl
    omega
  obtain rfl : pos = some pkt := hget.1.trans (by rw [hcons]; rfl)
  dsimp only at hcounted hget ⊢
  have hmessage := arpMessage_arpRequestFrame (packet pkt).data (t.mac nic_id)
    (itf.lip l).addr.ip4 addr.ip4
  obtain ⟨hdest, hsource⟩ := loadMac_arpRequestFrame (packet pkt).data (t.mac nic_id)
    (itf.lip l).addr.ip4 addr.ip4
  refine ⟨_, rfl, ⟨⟨load16_arpRequestFrame _ _ _ _, congrArg ArpMessage.op hmessage⟩, hdest,
    hsource, congrArg ArpMessage.sha hmessage, ⟨v, l, hmem, ?_⟩,
    congrArg ArpMessage.tip hmessage, rfl, rfl⟩, hcounted, hget.2⟩
  rw [← hlip]
  exact congrArg ArpMessage.sip hmessage

/-- The servers and the adapters, in the order of the loops. -/
theorem rtFindServerRoute_eq (packet : ℕ → Packet) (num : ℕ) (pp : PacketPool) (t : Tables) :
    rtFindServerRoute packet num pp t
      = (t.server_list.flatMap fun srv => (List.range num).map fun i => (srv, i)).foldl
        (fun st a => (arpSendRequest packet st.1 st.2 (serverAt st.2.pool a.1).addr.ip a.2).2)
        (pp, t) := by
  rw [List.foldl_flatMap]
  simp only [List.foldl_map]
  rfl

/-- **Every server is asked for on every adapter**, once, in the order of the loops. -/
theorem rtFindServerRoute_asks (packet : ℕ → Packet) (t : Tables) {num : ℕ} {pp : PacketPool}
    (hpp : pp.Counted) (hnum : t.server_list.length * num ≤ pp.num)
    (hip : ∀ i < num, t.itf.HasIpv4 i) :
    ∃ reqs, (rtFindServerRoute packet num pp t).2.sent = t.sent ++ reqs
      ∧ List.Forall₂ (fun a q => Asked t (serverAt t.pool a.1).addr.ip a.2 q)
        (t.server_list.flatMap fun srv => (List.range num).map fun i => (srv, i)) reqs := by
  rw [rtFindServerRoute_eq]
  have hlength : (t.server_list.flatMap fun srv =>
      (List.range num).map fun i => (srv, i)).length ≤ pp.num := by
    simpa [List.length_flatMap] using hnum
  have hnics : ∀ a ∈ t.server_list.flatMap fun srv => (List.range num).map fun i => (srv, i),
      t.itf.HasIpv4 a.2 := by
    intro a ha
    obtain ⟨srv, -, ha⟩ := List.mem_flatMap.mp ha
    obtain ⟨i, hi, rfl⟩ := List.mem_map.mp ha
    exact hip i (List.mem_range.mp hi)
  generalize (t.server_list.flatMap fun srv => (List.range num).map fun i => (srv, i)) = l
    at hlength hnics
  clear hip hnum
  induction l generalizing pp t with
  | nil => exact ⟨[], (List.append_nil _).symm, List.Forall₂.nil⟩
  | cons a l ih =>
    have hpos : 0 < pp.num := lt_of_lt_of_le (Nat.succ_pos l.length) hlength
    obtain ⟨q, hsent, hq, hcounted, hleft⟩ := @arpSendRequest_asked t packet pp hpp hpos _
      (hnics a List.mem_cons_self) (serverAt t.pool a.1).addr.ip
    have hsame := (asks_arpSendRequest packet pp t (serverAt t.pool a.1).addr.ip a.2).same
    rw [List.foldl_cons]
    generalize arpSendRequest packet pp t (serverAt t.pool a.1).addr.ip a.2 = r
      at hsent hcounted hleft hsame
    obtain ⟨ok, pp', t'⟩ := r
    dsimp only at hsent hcounted hleft hsame ⊢
    obtain ⟨reqs, hsent', hreqs⟩ := ih t' hcounted (by
        rw [List.length_cons] at hlength
        omega)
      (fun b hb => hasIpv4_keeps hsame.itf (hnics b (List.mem_cons_of_mem a hb)))
    refine ⟨q :: reqs, ?_, List.Forall₂.cons hq (hreqs.imp fun b q hb => ?_)⟩
    · rw [hsent', hsent, List.append_assoc]
      rfl
    · rw [hsame.server] at hb
      exact hb.of_same hsame

/-- A process with the server `10.0.0.4` and no route to it. -/
def askingForFour : Tables :=
  connectionModuleInit { twoVservers (twoIps 1024 1027) 0 with rt := fun _ => [] }

/-- A process with the address `10.0.0.4`. -/
def answeringAsFour : Tables :=
  connectionModuleInit { twoVservers ((interfaceModuleInit 1 1024 65535 1024 1027).addLocalIps 0
      [(netTen 4, vsIpT, 0)]) 0 with mac := fun _ _ => 7 }

theorem started_askingForFour : askingForFour.Started where
  itf := ⟨1, 1024, 65535, 1024, 1027, _, rfl⟩
  clock := ⟨0, rfl⟩
  conn := ⟨_, rfl⟩
  sent := rfl
  created := rfl
  freed := rfl

theorem started_answeringAsFour : answeringAsFour.Started where
  itf := ⟨1, 1024, 65535, 1024, 1027, _, rfl⟩
  clock := ⟨0, rfl⟩
  conn := ⟨_, rfl⟩
  sent := rfl
  created := rfl
  freed := rfl

theorem hasIpv4_askingForFour : askingForFour.itf.HasIpv4 0 :=
  ⟨by decide, true, by decide +kernel⟩

theorem holds_answeringAsFour : answeringAsFour.Holds (netTen 4) := by
  show (ngInterfaceLookupIp _ _ _).isSome = true
  decide +kernel

theorem hasRoute_answeringAsFour :
    HasRoute answeringAsFour.hash_rand answeringAsFour.rt (netTen 4) 0 :=
  ngRtLookupWithNicId_isSome_iff.mp (by decide +kernel)

theorem not_hasRoute_askingForFour (nic_id : ℕ) :
    ¬ HasRoute askingForFour.hash_rand askingForFour.rt (netTen 4) nic_id := by
  rintro ⟨re, hre, -⟩
  exact absurd hre List.not_mem_nil

/-- The first process, with one free packet, after it has looked for its servers. -/
def askedForFour : Tables :=
  (rtFindServerRoute (fun _ => replyOfFour 0 0) 1 ⟨1, [0]⟩ askingForFour).2

/-- A process with two adapters, `10.0.0.1` on the first and `10.0.0.2` on the second, and the
servers `10.0.0.4` and `10.0.0.5`, the latest in front. -/
def askingForTwo : Tables :=
  { askingForFour with
    itf := (interfaceModuleInit 2 1024 65535 1024 1027).addLocalIps 0
      [(netTen 1, vsIpT, 0), (netTen 2, vsIpT, 1)]
    pool := fun _ => ⟨fun i => serverTen (if i = 0 then 4 else 5) (fun _ => 4), 2, 0⟩
    server_list := [(0, 1), (0, 0)]
    mac := fun nic_id _ => UInt8.ofNat nic_id }

theorem rtFindServerRoute_asks_two :
    ∃ q₀ q₁ q₂ q₃, (rtFindServerRoute (fun _ => replyOfFour 0 0) 2 ⟨4, [0, 1, 2, 3]⟩
        askingForTwo).2.sent = [q₀, q₁, q₂, q₃]
      ∧ Asked askingForTwo (netTen 5) 0 q₀ ∧ Asked askingForTwo (netTen 5) 1 q₁
      ∧ Asked askingForTwo (netTen 4) 0 q₂ ∧ Asked askingForTwo (netTen 4) 1 q₃ := by
  have hip : ∀ i < 2, askingForTwo.itf.HasIpv4 i := by
    intro i hi
    refine ⟨hi, true, ?_⟩
    obtain rfl | rfl : i = 0 ∨ i = 1 := by omega
    · decide +kernel
    · decide +kernel
  obtain ⟨reqs, hsent, hreqs⟩ := @rtFindServerRoute_asks (fun _ => replyOfFour 0 0) askingForTwo 2
    ⟨4, [0, 1, 2, 3]⟩ rfl (le_refl 4) hip
  rw [hsent]
  -- the loop over the adapters is the inner one
  cases hreqs with
  | cons h₀ hreqs =>
    cases hreqs with
    | cons h₁ hreqs =>
      cases hreqs with
      | cons h₂ hreqs =>
        cases hreqs with
        | cons h₃ hreqs =>
          cases hreqs with
          | nil => exact ⟨_, _, _, _, rfl, h₀, h₁, h₂, h₃⟩

end Asked

/-- An ARP packet is for the handler. -/
theorem mainProcessPackets_arp {m : Memory} {pkt : Packet} (h : TakenAs m pkt)
    (malloc : Option ℕ) (t : Tables) : mainProcessPackets malloc t pkt = arpHandler t pkt := by
  obtain ⟨garbage, raw, -, hr, harp⟩ := h
  have hnot : ¬ packetIsIp pkt = true := by
    rw [packetIsIp, beq_iff_eq, beq_iff_eq.mp harp]
    decide
  rw [mainProcessPackets, if_neg hnot, if_pos harp]

/-! ## The network -/

/-- What a host does besides ARP. -/
inductive HostAct
  /-- It looks for the routes to its servers. -/
  | find (packet : ℕ → Packet) (num : ℕ) (pp : PacketPool)
  /-- It processes an IP packet, from anywhere. -/
  | ip (malloc : Option ℕ) (pkt : Packet)
  /-- It expires its timers. -/
  | timer (now : ℕ)

/-- What a host has sent in a step. -/
def Tables.Sends (t t' : Tables) (out : List Memory) : Prop :=
  ∃ pkts : List Packet, t'.sent = t.sent ++ pkts ∧ out = pkts.map Packet.data

/-- **Hosts that run this program**, on one wire. ARP packets are taken from the wire, IP
packets may come from anywhere. -/
def arpProtocol {ι : Type*} (start : ι → Tables) : Protocol ι Tables Memory HostAct where
  init i t := t = start i ∧ t.Started
  act _ t a t' out := t.Sends t' out ∧
    match a with
    | .find packet num pp => t' = (rtFindServerRoute packet num pp t).2
    | .ip malloc pkt => PacketAccepted pkt ∧ packetIsIp pkt = true
        ∧ t.conn_mem_pool.MallocOk malloc ∧ t' = (mainProcessPackets malloc t pkt).2.2
    | .timer now => t.clock.now ≤ now ∧ t' = connectionTimerExpire t now
  receive _ t m t' out := t.Sends t' out ∧ ∃ pkt, TakenAs m pkt
    ∧ t' = (mainProcessPackets none t pkt).2.2

section Honest

variable {ι : Type*} (start : ι → Tables)

/-- The MAC address is one of a host that has the address. -/
def MacOf (ip : IpAddress) (mac : Mac) : Prop :=
  ∃ j, (start j).Holds ip ∧ ∃ nic_id, mac = (start j).mac nic_id

/-- **A message is honest**: an answer names a host that has the address it is from. -/
def Honest (m : Memory) : Prop :=
  load16 m 12 = protoArp → (arpMessage m).op = arpReplyOp →
    MacOf start (IpAddress.v4 (arpMessage m).sip) (arpMessage m).sha

/-- **A host has learned nothing false.** -/
structure Learned (i : ι) (t : Tables) : Prop where
  /-- The containers agree. -/
  ok : t.Ok
  /-- The addresses are those of the start. -/
  itf : (start i).itf.Keeps t.itf
  /-- The seed of the hashes is that of the start. -/
  hash_rand : t.hash_rand = (start i).hash_rand
  /-- The MAC addresses of the adapters are those of the start. -/
  mac : t.mac = (start i).mac
  /-- A server has the MAC address of the start, or one of a host that has its address. -/
  server : ∀ srv, (serverAt t.pool srv).mac = (serverAt (start i).pool srv).mac
    ∨ MacOf start (serverAt t.pool srv).addr.ip (serverAt t.pool srv).mac

variable {start} {i : ι} {t t' : Tables}

theorem Learned.same (h : Learned start i t) (hs : t.SameHost t') (hok : t'.Ok) :
    Learned start i t' := by
  refine ⟨hok, h.itf.trans hs.itf, hs.hash_rand.trans h.hash_rand, hs.mac.trans h.mac,
    fun srv => ?_⟩
  rw [hs.server]
  exact h.server srv

/-- **An ARP packet teaches nothing false**, if its frame is honest. -/
theorem Learned.taught (h : Learned start i t) {m : Memory} (hm : Honest start m)
    {pkt : Packet} (hpkt : TakenAs.Spec m pkt) : Learned start i (arpHandler t pkt).2.2 := by
  have harps := (arpHandler_spec t pkt).1
  have hitf : (arpHandler t pkt).2.2.itf = t.itf := by rw [harps]
  have hmac : (arpHandler t pkt).2.2.mac = t.mac := by rw [harps]
  refine ⟨h.ok.arps harps, hitf.symm ▸ h.itf, harps.hash_rand.trans h.hash_rand,
    hmac.trans h.mac, fun srv => ?_⟩
  cases hreply : isArpReply pkt with
  | false =>
    rw [pool_arpHandler hreply]
    exact h.server srv
  | true =>
    have hop := hpkt.reply_iff.mp hreply
    have hnot : ¬ isArpRequest pkt = true := by
      rw [hpkt.request_iff, hop]
      decide
    have hpool : (arpHandler t pkt).2.2 = t.server_list.foldl (arpServerRouteTo pkt) t := by
      rw [arpHandler, if_neg hnot, if_pos hreply]
      rfl
    rw [hpool]
    obtain ⟨haddr, hsrv⟩ := server_foldl_arpServerRouteTo t.server_list t pkt srv
    rw [haddr]
    obtain hsame | ⟨hip, hannounced⟩ := hsrv
    · rw [hsame]
      exact h.server srv
    · -- the MAC address announced is one of a host that has the address of the sender
      obtain ⟨j, hholds, nic_id, hsha⟩ := hm hpkt.ethertype hop
      refine Or.inr ⟨j, hholds.congr (ipAddressEq_symm (ipAddressEq_trans hip hpkt.saddr)),
        nic_id, hannounced.trans ?_⟩
      rw [Packet.announced, hpkt.data, hpkt.network_header]
      exact hsha

/-- **A host answers honestly.** -/
theorem Learned.honest (h : Learned start i t) {m : Memory} {pkt : Packet}
    (hpkt : TakenAs.Spec m pkt) (hstolen : (arpHandler t pkt).1 = .stolen) :
    Honest start (arpHandler t pkt).2.1.data := by
  obtain ⟨hholds, nic_id, hdata⟩ := arpHandler_stolen hpkt hstolen
  intro _ _
  rw [hdata, arpMessage_arpReplyFrame hpkt.network_header hpkt.mac_header, hpkt.data]
  refine ⟨i, (Tables.holds_keeps h.itf h.hash_rand _).mp hholds, nic_id, ?_⟩
  rw [← h.mac]
  rfl

/-- What was sent, if it is known what the host has sent by now. -/
theorem Tables.Sends.eq {out : List Memory} (h : t.Sends t' out) {pkts : List Packet}
    (hsent : t'.sent = t.sent ++ pkts) : out = pkts.map Packet.data := by
  obtain ⟨pkts', hsent', rfl⟩ := h
  rw [List.append_cancel_left (hsent'.symm.trans hsent)]

/-- A packet that is forwarded is IP still. -/
theorem load16_processIpPacket {malloc : Option ℕ} {pkt : Packet} (hp : PacketAccepted pkt)
    (hip : packetIsIp pkt = true) (hstolen : (processIpPacket malloc t pkt).1 = .stolen) :
    load16 (processIpPacket malloc t pkt).2.1.data 12 = protoIp := by
  obtain ⟨cp, is_client, t₁, hfind⟩ := exists_of_stolen hstolen
  have hout : (processIpPacket malloc t pkt).2.1
      = processRewrite t₁ (t₁.conn cp) pkt is_client := by
    rw [processIpPacket, hfind]
    dsimp only
    rw [processForward_eq]
  have hf := hp.ipFields hip
  have hbyte : ∀ b, 12 ≤ b → b < 22 →
      (processRewrite t₁ (t₁.conn cp) pkt is_client).data b = pkt.data b := fun b hlo hhi =>
    processRewrite_frame t₁ (t₁.conn cp) hf is_client (hf.not_rewritten hlo (Or.inl hhi))
  have heth : load16 pkt.data 12 = protoIp := by
    obtain ⟨garbage, raw, hr⟩ := hp
    obtain ⟨hdata, heth, -⟩ := packetRecvInit_keeps garbage raw
    rw [hr] at hdata heth
    rw [show pkt.data = raw.data from hdata, ← heth]
    exact beq_iff_eq.mp hip
  rw [hout, ← heth]
  exact load16_congr (hbyte 12 (by omega) (by omega)) (hbyte 13 (by omega) (by omega))

variable (start) in
/-- **Every host relies on the honesty of the others, and is honest.** -/
theorem guarantees_arpProtocol : (arpProtocol start).Guarantees (Learned start) (Honest start) where
  init i t := by
    rintro ⟨rfl, hstarted⟩
    exact ⟨hstarted.ok, Interface.Keeps.refl _, rfl, rfl, fun _ => Or.inl rfl⟩
  act i t a t' out h hact := by
    obtain ⟨hsends, hact⟩ := hact
    cases a with
    | find packet num pp =>
      obtain rfl : t' = (rtFindServerRoute packet num pp t).2 := hact
      have hasks := asks_rtFindServerRoute packet num pp t
      obtain ⟨reqs, hsent, hreqs⟩ := hasks.sent
      refine ⟨h.same hasks.same (hasks.ok h.ok), fun m hm _ hop => ?_⟩
      -- a request is no answer
      rw [hsends.eq hsent] at hm
      obtain ⟨q, hq, rfl⟩ := List.mem_map.mp hm
      rw [(hreqs q hq).2] at hop
      exact absurd hop (by decide)
    | ip malloc pkt =>
      obtain ⟨hp, hip, hm, rfl⟩ := hact
      have hprocess : mainProcessPackets malloc t pkt = processIpPacket malloc t pkt := if_pos hip
      have hok' := stable_ok.process h.ok hm pkt
      obtain ⟨-, hsent⟩ := mainProcessPackets_spec malloc t pkt
      rw [hprocess] at hsends hok' hsent ⊢
      refine ⟨h.same (Tables.sameHost_processIpPacket h.ok hm pkt) hok', fun m hm' harp => ?_⟩
      rw [hsends.eq hsent] at hm'
      split at hm'
      · rename_i hstolen
        obtain rfl := List.mem_singleton.mp hm'
        rw [load16_processIpPacket hp hip hstolen] at harp
        exact absurd harp (by decide)
      · exact absurd hm' List.not_mem_nil
    | timer now =>
      obtain ⟨-, rfl⟩ := hact
      have hok' := h.ok.timerExpire now
      obtain ⟨hsame, hsent⟩ := Tables.sameHost_connectionTimerExpire h.ok now
      refine ⟨h.same hsame hok', fun m hm => ?_⟩
      rw [@Tables.Sends.eq t _ out hsends [] (hsent.trans (List.append_nil _).symm)] at hm
      exact absurd hm List.not_mem_nil
  receive i t m t' out h hm hreceive := by
    obtain ⟨hsends, pkt, htaken, rfl⟩ := hreceive
    have hpkt := htaken.spec
    have hprocess := mainProcessPackets_arp htaken none t
    rw [hprocess] at hsends ⊢
    refine ⟨h.taught hm hpkt, fun q hq => ?_⟩
    rw [hsends.eq (arpHandler_spec t pkt).2.1] at hq
    split at hq
    · rename_i hstolen
      obtain rfl := List.mem_singleton.mp hq
      exact h.honest hpkt hstolen
    · exact absurd hq List.not_mem_nil

end Honest

/-! ## Nothing false is learned -/

/-- **No server is given a MAC address of a host that does not have its address.** In any order
of steps of hosts that run this program, with ARP frames lost, delayed, reordered and taken
more than once, and any IP packets and timers in between, the MAC address a host knows of a
server is the one it started with or that of an adapter of a host with the server's address. -/
theorem arpNetwork_honest {ι : Type*} [DecidableEq ι] (start : ι → Tables)
    {s : NetworkState ι Tables Memory} (h : (arpProtocol start).system.Reachable s) (i : ι)
    (srv : ServerPtr) :
    (serverAt (s.host i).pool srv).mac = (serverAt (start i).pool srv).mac
      ∨ ∃ j, (s.host j).Holds (serverAt (s.host i).pool srv).addr.ip
        ∧ ∃ nic_id, (serverAt (s.host i).pool srv).mac = (s.host j).mac nic_id := by
  have hlearned := ((guarantees_arpProtocol start).invariant h).1
  refine ((hlearned i).server srv).imp_right ?_
  rintro ⟨j, hholds, nic_id, hmac⟩
  refine ⟨j, (Tables.holds_keeps (hlearned j).itf (hlearned j).hash_rand _).mpr hholds, nic_id, ?_⟩
  rw [hmac, (hlearned j).mac]

/-- The two processes on a wire. -/
def askAndAnswer : Bool → Tables
  | false => askingForFour
  | true => answeringAsFour

theorem arpNetwork_honest_four :
    ∃ s, (arpProtocol askAndAnswer).system.Reachable s
      ∧ (serverAt (s.host false).pool (0, 0)).mac = (fun _ => 7)
      ∧ ∃ j, (s.host j).Holds (serverAt (s.host false).pool (0, 0)).addr.ip
        ∧ ∃ nic_id, (serverAt (s.host false).pool (0, 0)).mac = (s.host j).mac nic_id := by
  have hstart : (arpProtocol askAndAnswer).system.Reachable ⟨askAndAnswer, []⟩ := by
    refine System.Reachable.of_init ⟨fun i => ⟨rfl, ?_⟩, rfl⟩
    cases i with
    | false => exact started_askingForFour
    | true => exact started_answeringAsFour
  -- the first one asks
  obtain ⟨q, hsent, hq, -, -⟩ := @arpSendRequest_asked askingForFour (fun _ => replyOfFour 0 0)
    ⟨1, [0]⟩ rfl Nat.one_pos 0 hasIpv4_askingForFour (netTen 4)
  have hasked := @Protocol.reachable_act _ _ _ _ _ _ _ false askedForFour [q.data] hstart
    (HostAct.find (fun _ => replyOfFour 0 0) 1 ⟨1, [0]⟩) ⟨⟨[q], hsent, rfl⟩, rfl⟩
  -- the second one answers
  have htip : IpAddress.v4 (arpMessage q.data).tip = netTen 4 := congrArg IpAddress.v4 hq.tip
  obtain ⟨r, -, hr, -⟩ := exists_takenAs (0, 0) hq.request.1
  obtain ⟨re, hre⟩ := Option.isSome_iff_exists.mp
    (rtLookup_isSome_iff.mpr ⟨0, hasRoute_answeringAsFour⟩)
  obtain ⟨hstolen, hdata⟩ := arpHandler_request hr.spec hq.request.2
    (htip ▸ holds_answeringAsFour) (htip ▸ hre)
  have hsent' : (mainProcessPackets none answeringAsFour r).2.2.sent
      = answeringAsFour.sent ++ [(arpHandler answeringAsFour r).2.1] := by
    rw [mainProcessPackets_arp hr, (arpHandler_spec answeringAsFour r).2.1, if_pos hstolen]
  have hanswered := @Protocol.reachable_receive _ _ _ _ _ _ _ true _ _ hasked q.data
    (List.mem_singleton_self _) ⟨⟨_, hsent', rfl⟩, r, hr, rfl⟩
  -- the first one takes the answer
  have hnet := hr.spec.network_header
  have hmac := hr.spec.mac_header
  have hmessage := arpMessage_arpReplyFrame hnet hmac (answeringAsFour.mac re.nic_id)
  have heth := load16_arpReplyFrame hnet hmac (answeringAsFour.mac re.nic_id)
  rw [← hdata, hr.spec.data] at hmessage heth
  obtain ⟨a, -, ha, -⟩ := exists_takenAs (0, 0) (heth.trans hq.request.1)
  have hsip : IpAddress.v4 (arpMessage (arpHandler answeringAsFour r).2.1.data).sip = netTen 4 :=
    (congrArg (fun a => IpAddress.v4 a.sip) hmessage).trans htip
  obtain ⟨-, hlearn⟩ := @arpHandler_reply askedForFour _ _ ha.spec
    (congrArg ArpMessage.op hmessage) (0, 0) (List.mem_singleton_self _)
    (by rw [hsip]; decide +kernel)
  obtain ⟨-, first, hfirst, -, hsha⟩ := hlearn not_hasRoute_askingForFour
  obtain rfl := List.mem_singleton.mp hfirst
  have hlearned := @Protocol.reachable_receive _ _ _ _ _ _ _ false _ _ hanswered _
    (List.mem_append_right _ (List.mem_singleton_self _))
    ⟨⟨_, (mainProcessPackets_spec none _ _).2, rfl⟩, a, ha, rfl⟩
  have hseven : (serverAt (mainProcessPackets none askedForFour a).2.2.pool (0, 0)).mac
      = fun _ => 7 := by
    rw [mainProcessPackets_arp ha, hsha, hmessage]
    rfl
  refine ⟨_, hlearned, hseven,
    (arpNetwork_honest askAndAnswer hlearned false (0, 0)).resolve_left fun hfour => ?_⟩
  have hbyte : (7 : UInt8) = 4 := congrFun (hseven.symm.trans hfour) 0
  exact absurd hbyte (by decide)

/-! ## An exchange -/

/-- **An exchange gets there.** A request of a host is taken by every host, and one that has
the address and a route to it answers, to the asking adapter, with the MAC address of an
adapter it routes the address by. The answer is taken by every host, and one with servers of
that address has a route to them then; if it had none, it is by the NIC the answer came in on,
and the first of them has that MAC address. -/
theorem arp_exchange {t tg : Tables} {addr : IpAddress} (h4 : addr.family = afInet) {nic_id : ℕ}
    {req : Packet} (hreq : Asked t addr nic_id req) (hholds : tg.Holds addr)
    (hroute : ∃ k, HasRoute tg.hash_rand tg.rt addr k) (garbage : UInt16 × UInt16) {raw : Packet}
    (hraw : raw.data = req.data) (malloc : Option ℕ) :
    ∃ q, packetRecvInit garbage raw = (true, q) ∧ (mainProcessPackets malloc tg q).1 = .stolen
      ∧ loadMac (mainProcessPackets malloc tg q).2.1.data 0 = t.mac nic_id
      ∧ ∃ k, HasRoute tg.hash_rand tg.rt addr k ∧ ∀ (garbage' : UInt16 × UInt16) (raw' : Packet),
        raw'.data = (mainProcessPackets malloc tg q).2.1.data →
        ∃ r, packetRecvInit garbage' raw' = (true, r) ∧ ∀ (tl : Tables) (malloc' : Option ℕ),
          ∀ srv ∈ tl.server_list, ipAddressEq (serverAt tl.pool srv).addr.ip addr = true →
          (∃ k', HasRoute tl.hash_rand (mainProcessPackets malloc' tl r).2.2.rt addr k')
          ∧ ((∀ k', ¬ HasRoute tl.hash_rand tl.rt addr k') →
            HasRoute tl.hash_rand (mainProcessPackets malloc' tl r).2.2.rt addr
              raw'.adapter_idx.toNat
            ∧ ∃ first ∈ tl.server_list,
              ipAddressEq (serverAt tl.pool first).addr.ip addr = true
              ∧ (serverAt (mainProcessPackets malloc' tl r).2.2.pool first).mac = tg.mac k) := by
  have hv4 : ipAddressEq addr (IpAddress.v4 addr.ip4) = true :=
    ipAddressEq_iff.mpr ⟨h4, rfl, fun hno => absurd h4 hno⟩
  obtain ⟨q, hrq, htq, -⟩ := exists_takenAs garbage (hraw ▸ hreq.request.1)
  rw [hraw] at htq
  have hq := htq.spec
  -- the request is answered
  obtain ⟨re, hre⟩ : ∃ re, (ngRtLookupRr tg.hash_rand tg.rt (IpAddress.v4 addr.ip4)).1 = some re :=
    Option.isSome_iff_exists.mp (rtLookup_isSome_iff.mpr
      (hroute.imp fun _ hr => hr.congr hv4))
  have hrk : HasRoute tg.hash_rand tg.rt addr re.nic_id :=
    (hasRoute_of_lookup hre).congr (ipAddressEq_symm hv4)
  rw [← hreq.tip] at hre hv4
  obtain ⟨hstolen, hdata⟩ := arpHandler_request hq hreq.request.2 (hholds.congr hv4) hre
  rw [← mainProcessPackets_arp htq malloc tg] at hstolen hdata
  have hmessage := arpMessage_arpReplyFrame hq.network_header hq.mac_header (tg.mac re.nic_id)
  have hdest := loadMac_arpReplyFrame hq.network_header hq.mac_header (tg.mac re.nic_id)
  have heth := load16_arpReplyFrame hq.network_header hq.mac_header (tg.mac re.nic_id)
  rw [← hdata, hq.data] at hmessage hdest heth
  refine ⟨q, hrq, hstolen, hdest.trans hreq.source_mac, re.nic_id, hrk,
    fun garbage' raw' hraw' => ?_⟩
  -- and the answer is taken
  obtain ⟨r, hrr, htr, hadapter⟩ :=
    exists_takenAs garbage' (show load16 raw'.data 12 = protoArp by rw [hraw', heth, hq.ethertype])
  refine ⟨r, hrr, fun tl malloc' srv hsrv hip => ?_⟩
  rw [hraw'] at htr
  rw [mainProcessPackets_arp htr malloc' tl]
  have hsip : (arpMessage (mainProcessPackets malloc tg q).2.1.data).sip
      = (arpMessage req.data).tip :=
    congrArg ArpMessage.sip hmessage
  have hsha : (arpMessage (mainProcessPackets malloc tg q).2.1.data).sha = tg.mac re.nic_id :=
    congrArg ArpMessage.sha hmessage
  rw [← hsip] at hv4
  obtain ⟨hsome, hfirst⟩ := arpHandler_reply htr.spec (congrArg ArpMessage.op hmessage) hsrv
    (ipAddressEq_trans hip hv4)
  refine ⟨hsome.imp fun _ hr => hr.congr hip, fun hno => ?_⟩
  obtain ⟨hnic, first, hmem, hsame, hmac⟩ :=
    hfirst (fun k' hr => hno k' (hr.congr hip))
  refine ⟨?_, first, hmem, ipAddressEq_trans hsame hip, hmac.trans hsha⟩
  rw [← hadapter]
  exact hnic.congr hip

theorem arp_exchange_four :
    ∃ req q r, Asked askingForFour (netTen 4) 0 req ∧ packetRecvInit (0, 0) req = (true, q)
      ∧ (mainProcessPackets none answeringAsFour q).1 = .stolen
      ∧ packetRecvInit (0, 0) (mainProcessPackets none answeringAsFour q).2.1 = (true, r)
      ∧ (serverAt (mainProcessPackets none askingForFour r).2.2.pool (0, 0)).mac = fun _ => 7 := by
  obtain ⟨req, -, hreq, -, -⟩ := @arpSendRequest_asked askingForFour (fun _ => replyOfFour 0 0)
    ⟨1, [0]⟩ rfl Nat.one_pos 0 hasIpv4_askingForFour (netTen 4)
  obtain ⟨q, hq, hstolen, -, k, -, hanswer⟩ := @arp_exchange _ _ _ rfl _ _ hreq
    holds_answeringAsFour ⟨0, hasRoute_answeringAsFour⟩ (0, 0) req rfl none
  obtain ⟨r, hr, htaken⟩ := hanswer (0, 0) (mainProcessPackets none answeringAsFour q).2.1 rfl
  obtain ⟨-, hlearn⟩ := htaken askingForFour none (0, 0) (List.mem_singleton_self _)
    (by decide +kernel)
  obtain ⟨-, first, hfirst, -, hmac⟩ := hlearn not_hasRoute_askingForFour
  obtain rfl := List.mem_singleton.mp hfirst
  exact ⟨req, q, r, hreq, hq, hstolen, hr, hmac⟩
