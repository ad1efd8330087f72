import Ustack.Containers

/-!
# ARP

The handler of `src/arp.c`. A request for an address of ours is answered in place:
the packet that asked is rewritten and sent back. A reply is read only if it comes
from a server: it gives the server a route, and with the route its MAC address.

An answered request is handed to the driver and is the driver's from then on;
every other packet stays the caller's (`arpHandler_spec`). None of it touches a
connection (`Tables.Arps`).
-/

/-- `ng_driver_put_packet_to_send_buffer`. -/
def ngDriverPutPacketToSendBuffer (t : Tables) (pkt : Packet) : Tables :=
  { t with sent := t.sent ++ [pkt] }

/-- `ng_interface_lookup_ip`. -/
def ngInterfaceLookupIp (hashRand : UInt32) (itf : Interface) (ip : IpAddress) :
    Option ℕ :=
  (ngInterfaceLookupSelfip hashRand itf ip).or (ngInterfaceLookupVsip hashRand itf ip)

/-- `ARP_REQUEST_OP`, as loaded. -/
def arpRequestOp : UInt16 := 0x100

/-- `ARP_REPLY_OP`, as loaded. -/
def arpReplyOp : UInt16 := 0x200

/-- `is_arp_request`. -/
def isArpRequest (pkt : Packet) : Bool :=
  load16 pkt.data (pkt.network_header + 6) == arpRequestOp

/-- `is_arp_reply`. -/
def isArpReply (pkt : Packet) : Bool :=
  load16 pkt.data (pkt.network_header + 6) == arpReplyOp

/-- The frame `arp_response` makes of a request: the sender becomes the target, and
the sender is the address asked for with the MAC address `hwaddr`. -/
def arpReplyFrame (pkt : Packet) (hwaddr : Mac) : Memory :=
  let ap := pkt.network_header
  let ep := pkt.mac_header
  let tmp := load32 pkt.data (ap + 24)
  -- the hardware address and the IP address are copied in one `memcpy`
  let data := storeBytes pkt.data (ap + 18) 10 (loadBytes pkt.data (ap + 8))
  let data := storeMac data (ap + 8) hwaddr
  let data := store32 data (ap + 14) tmp
  let data := store16 data (ap + 6) arpReplyOp
  let data := storeMac data ep (loadMac data (ep + 6))
  storeMac data (ep + 6) hwaddr

/-- `arp_response`. -/
def arpResponse (t : Tables) (pkt : Packet) : Bool × Packet × Tables :=
  let ip := IpAddress.v4 (load32 pkt.data (pkt.network_header + 24))
  match ngInterfaceLookupIp t.hash_rand t.itf ip with
  | none => (false, pkt, t)
  | some _ =>
    if load16 pkt.data (pkt.network_header + 6) ≠ arpRequestOp then (false, pkt, t)
    else
      let (re, rt) := ngRtLookupRr t.hash_rand t.rt ip
      let t := t.setRt rt
      match re with
      | none => (false, pkt, t)
      | some re =>
        let pkt := pkt.setData (arpReplyFrame pkt (t.mac re.nic_id))
        (true, { pkt with adapter_idx := UInt8.ofNat re.nic_id }, t)

/-- The body of the loop of `arp_server_route`. -/
def arpServerRouteTo (pkt : Packet) (t : Tables) (srv : ServerPtr) : Tables :=
  let srv_ip := (serverAt t.pool srv).addr.ip
  let nic_id := pkt.adapter_idx.toNat
  if ipAddressEq srv_ip pkt.saddr.ip then
    if (ngRtLookupWithNicId t.hash_rand t.rt srv_ip nic_id).isNone then
      let t := t.setRt (rtAddEntry t.hash_rand t.rt ⟨srv_ip, nic_id⟩)
      t.setPool (serverSetMac t.pool srv (loadMac pkt.data (pkt.network_header + 8)))
    else t
  else t

/-- `arp_server_route`. -/
def arpServerRoute (t : Tables) (pkt : Packet) : Tables :=
  t.server_list.foldl (arpServerRouteTo pkt) t

/-- `arp_handler`. -/
def arpHandler (t : Tables) (pkt : Packet) : Verdict × Packet × Tables :=
  if isArpRequest pkt then
    let (sent, pkt, t) := arpResponse t pkt
    if sent then (.stolen, pkt, ngDriverPutPacketToSendBuffer t pkt) else (.accept, pkt, t)
  else if isArpReply pkt then (.accept, pkt, arpServerRoute t pkt)
  else (.accept, pkt, t)

/-! ## What ARP touches -/

/-- Routes and servers may differ, and packets may have been sent. -/
def Tables.Arps (t t' : Tables) : Prop :=
  t' = { t with rt := t'.rt, pool := t'.pool, sent := t'.sent }

section Arps

variable {t t' t'' : Tables}

theorem Tables.Arps.trans (h : t.Arps t') (h' : t'.Arps t'') : t.Arps t'' := by
  obtain ⟨rt, pool, sent, rfl⟩ : ∃ rt pool sent, t' =
    { t with rt := rt, pool := pool, sent := sent } := ⟨_, _, _, h⟩
  exact h'

/-- One server's route touches routes and servers. -/
theorem arps_arpServerRouteTo (pkt : Packet) (t : Tables) (srv : ServerPtr) :
    t.Arps (arpServerRouteTo pkt t srv) ∧ (arpServerRouteTo pkt t srv).sent = t.sent := by
  unfold arpServerRouteTo
  dsimp only
  split
  · split <;> exact ⟨rfl, rfl⟩
  · exact ⟨rfl, rfl⟩

theorem arps_arpServerRoute (t : Tables) (pkt : Packet) :
    t.Arps (arpServerRoute t pkt) ∧ (arpServerRoute t pkt).sent = t.sent := by
  unfold arpServerRoute
  generalize t.server_list = servers
  induction servers generalizing t with
  | nil => exact ⟨rfl, rfl⟩
  | cons srv servers ih =>
    obtain ⟨h, hsent⟩ := arps_arpServerRouteTo pkt t srv
    obtain ⟨h', hsent'⟩ := ih (arpServerRouteTo pkt t srv)
    exact ⟨h.trans h', hsent'.trans hsent⟩

/-- A response keeps the identity of the packet. -/
theorem arpResponse_spec (t : Tables) (pkt : Packet) :
    t.Arps (arpResponse t pkt).2.2 ∧ (arpResponse t pkt).2.2.sent = t.sent
      ∧ (arpResponse t pkt).2.1 = { pkt with
          data := (arpResponse t pkt).2.1.data
          adapter_idx := (arpResponse t pkt).2.1.adapter_idx } := by
  unfold arpResponse
  dsimp only
  split
  · exact ⟨rfl, rfl, rfl⟩
  · split
    · exact ⟨rfl, rfl, rfl⟩
    · split <;> exact ⟨rfl, rfl, rfl⟩

/-- **ARP hands the driver the packets it calls stolen, and no others.** -/
theorem arpHandler_spec (t : Tables) (pkt : Packet) :
    t.Arps (arpHandler t pkt).2.2
      ∧ (arpHandler t pkt).2.2.sent = t.sent
        ++ (if (arpHandler t pkt).1 = .stolen then [(arpHandler t pkt).2.1] else [])
      ∧ (arpHandler t pkt).2.1 = { pkt with
          data := (arpHandler t pkt).2.1.data
          adapter_idx := (arpHandler t pkt).2.1.adapter_idx } := by
  unfold arpHandler
  split
  · obtain ⟨harps, hsent, hpkt⟩ := arpResponse_spec t pkt
    generalize arpResponse t pkt = r at harps hsent hpkt
    obtain ⟨ok, pkt', t'⟩ := r
    dsimp only at harps hsent hpkt ⊢
    cases ok with
    | true =>
      refine ⟨harps.trans rfl, ?_, hpkt⟩
      simp only [if_true, ngDriverPutPacketToSendBuffer, hsent]
    | false =>
      refine ⟨harps, ?_, hpkt⟩
      simp [hsent]
  · split
    · obtain ⟨harps, hsent⟩ := arps_arpServerRoute t pkt
      exact ⟨harps, by simp [hsent], rfl⟩
    · exact ⟨rfl, by simp, rfl⟩

/-- What ARP touches is no part of the containers. -/
theorem Tables.Ok.arps (h : t.Ok) (ha : t.Arps t') : t'.Ok := by
  obtain ⟨rt, pool, sent, rfl⟩ : ∃ rt pool sent, t' =
    { t with rt := rt, pool := pool, sent := sent } := ⟨_, _, _, ha⟩
  exact ⟨h.mem, h.client, h.timer, h.self, h.wheel, h.ranges, h.freed⟩

end Arps
