import Ustack.Origin

/-!
# What a packet is translated to

The frame `process_connection` sends, read back: source and destination, the MAC
address it goes to and the adapter it leaves by. The rewriting stores to a dozen
places of one block, and each is read back by the same two facts, that a store is
read back where it was made and nowhere else (`Stores`).

A reply of a transparent server is addressed to the client, which is no address of
ours, and the search takes it for a packet *of* the client: `is_client` is set, and
with it the direction of the rewriting. So the reply is not sent on to the client
under the vs IP; it goes back to its server.
-/

/-! ## Stores and loads of one width -/

/-- `store` and `load` work on `n` bytes: what is stored is read back as `enc` says,
and a store elsewhere changes nothing. -/
structure Stores {α β : Type*} (n : ℕ) (store : Memory → ℕ → α → Memory)
    (load : Memory → ℕ → β) (enc : α → β) : Prop where
  /-- What is stored is read back. -/
  load_store : ∀ m off x, load (store m off x) off = enc x
  /-- The rest is not stored to. -/
  agree : ∀ m off x p k, p + k ≤ off ∨ off + n ≤ p → Agree (store m off x) m p k
  /-- A load reads the bytes of its range. -/
  load_congr : ∀ m m' off, Agree m m' off n → load m off = load m' off

theorem stores_store16 : Stores 2 store16 load16 id where
  load_store := load16_store16
  agree _ _ _ _ _ h := agree_storeBytes _ _ h
  load_congr _ _ _ h := h.load16

theorem stores_storeAddr4 : Stores 4 storeAddr4 load32 IpAddress.ip4 where
  load_store m off ip := load32_store32 m off ip.ip4
  agree _ _ _ _ _ h := agree_storeBytes _ _ h
  load_congr _ _ _ h := h.load32

theorem agree_loadAddr6 {m m' : Memory} {off : ℕ} (h : Agree m m' off 16) :
    loadAddr6 m off = loadAddr6 m' off := by
  rw [loadAddr6, loadAddr6, (h.sub (le_refl off) (by omega) : Agree m m' off 4).load32,
    (h.sub (by omega) (by omega) : Agree m m' (off + 4) 4).load32,
    (h.sub (by omega) (by omega) : Agree m m' (off + 8) 4).load32,
    (h.sub (by omega) (by omega) : Agree m m' (off + 12) 4).load32]

theorem stores_storeAddr6 :
    Stores 16 storeAddr6 loadAddr6 (fun ip => { ip with family := afInet6 }) where
  load_store m off ip := by
    have h : ∀ m p q v, q + 4 ≤ p → load32 (store32 m p v) q = load32 m q :=
      fun m p q v hq => (agree_storeBytes _ _ (Or.inl hq)).load32
    have h0 : load32 (storeAddr6 m off ip) off = ip.ip6_0 := by
      rw [storeAddr6, h _ _ _ _ (by omega), h _ _ _ _ (by omega), h _ _ _ _ (by omega),
        load32_store32]
    have h1 : load32 (storeAddr6 m off ip) (off + 4) = ip.ip6_1 := by
      rw [storeAddr6, h _ _ _ _ (by omega), h _ _ _ _ (by omega), load32_store32]
    have h2 : load32 (storeAddr6 m off ip) (off + 8) = ip.ip6_2 := by
      rw [storeAddr6, h _ _ _ _ (by omega), load32_store32]
    have h3 : load32 (storeAddr6 m off ip) (off + 12) = ip.ip6_3 := by
      rw [storeAddr6, load32_store32]
    rw [loadAddr6, h0, h1, h2, h3]
  agree m off ip p k h := by
    unfold storeAddr6
    refine (agree_storeBytes _ _ (by omega)).trans ?_
    refine (agree_storeBytes _ _ (by omega)).trans ?_
    refine (agree_storeBytes _ _ (by omega)).trans ?_
    exact agree_storeBytes _ _ (by omega)
  load_congr _ _ _ h := agree_loadAddr6 h

section RewriteEnds

variable {α β : Type*} {n source dest : ℕ} {store : Memory → ℕ → α → Memory}
  {load : Memory → ℕ → β} {enc : α → β}

/-- The source after rewriting. -/
theorem Stores.source_rewriteEnds (h : Stores n store load enc)
    (hd : source + n ≤ dest ∨ dest + n ≤ source) (ends : Ends α)
    (fullnat is_client : Bool) (m : Memory) :
    load (rewriteEnds store source dest ends fullnat is_client m) source
      = if is_client then (if fullnat then enc ends.self else load m source)
        else enc ends.vs := by
  cases is_client with
  | true =>
    simp only [rewriteEnds, if_true]
    rw [h.load_congr _ _ _ (h.agree _ dest _ source n hd)]
    cases fullnat with
    | true => exact h.load_store _ _ _
    | false => rfl
  | false =>
    simp only [rewriteEnds, Bool.false_eq_true, if_false]
    exact h.load_store _ _ _

/-- The destination after rewriting. -/
theorem Stores.dest_rewriteEnds (h : Stores n store load enc)
    (hd : source + n ≤ dest ∨ dest + n ≤ source) (ends : Ends α)
    (fullnat is_client : Bool) (m : Memory) :
    load (rewriteEnds store source dest ends fullnat is_client m) dest
      = if is_client then enc ends.server
        else if fullnat then enc ends.client else load m dest := by
  cases is_client with
  | true =>
    simp only [rewriteEnds, if_true]
    exact h.load_store _ _ _
  | false =>
    simp only [rewriteEnds, Bool.false_eq_true, if_false]
    rw [h.load_congr _ _ _ (h.agree _ source _ dest n hd.symm)]
    cases fullnat with
    | true => exact h.load_store _ _ _
    | false => rfl

/-- Nothing else is rewritten. -/
theorem Stores.agree_rewriteEnds (h : Stores n store load enc) {p k : ℕ}
    (hs : p + k ≤ source ∨ source + n ≤ p) (hd : p + k ≤ dest ∨ dest + n ≤ p)
    (ends : Ends α) (fullnat is_client : Bool) (m : Memory) :
    Agree (rewriteEnds store source dest ends fullnat is_client m) m p k := by
  unfold rewriteEnds
  cases is_client <;> cases fullnat <;> simp only [if_true, Bool.false_eq_true, if_false]
  · exact h.agree _ _ _ _ _ hs
  · exact (h.agree _ _ _ _ _ hs).trans (h.agree _ _ _ _ _ hd)
  · exact h.agree _ _ _ _ _ hd
  · exact (h.agree _ _ _ _ _ hd).trans (h.agree _ _ _ _ _ hs)

end RewriteEnds

/-! ## The ends of a frame -/

/-- An address as a packet of a family carries it. -/
def addrAs (is_ipv4 : Bool) (ip : IpAddress) : IpAddress :=
  if is_ipv4 then IpAddress.v4 ip.ip4 else { ip with family := afInet6 }

/-- The address in a frame, where one of the family stands. -/
def frameAddr (is_ipv4 : Bool) (m : Memory) (off4 off6 : ℕ) : IpAddress :=
  if is_ipv4 then IpAddress.v4 (load32 m off4) else loadAddr6 m off6

/-- The source in the frame of a packet. -/
def Packet.frameSource (pkt : Packet) : NetAddress where
  ip := frameAddr (packetIsIpv4 pkt) pkt.data (pkt.network_header + 12)
    (pkt.network_header + 8)
  port := load16 pkt.data pkt.transport_header

/-- The destination in the frame of a packet. -/
def Packet.frameDest (pkt : Packet) : NetAddress where
  ip := frameAddr (packetIsIpv4 pkt) pkt.data (pkt.network_header + 16)
    (pkt.network_header + 24)
  port := load16 pkt.data (pkt.transport_header + 2)

/-- An address is read from its four or sixteen bytes. -/
theorem frameAddr_congr {is_ipv4 : Bool} {m m' : Memory} {off4 off6 : ℕ}
    (h4 : is_ipv4 = true → Agree m m' off4 4)
    (h6 : is_ipv4 = false → Agree m m' off6 16) :
    frameAddr is_ipv4 m off4 off6 = frameAddr is_ipv4 m' off4 off6 := by
  cases is_ipv4 with
  | true => exact congrArg IpAddress.v4 (h4 rfl).load32
  | false => exact agree_loadAddr6 (h6 rfl)

/-! ## The stages of the rewriting -/

section Stages

variable (t : Tables) (c : Connection) (pkt : Packet) (is_client : Bool)

/-- The frame with its ports set. -/
def portStage (m : Memory) : Memory :=
  rewriteEnds store16 pkt.transport_header (pkt.transport_header + 2)
    (connectionPorts t c) (connectionIsFullnat c) is_client m

/-- The frame with its addresses set. -/
def ipStage (m : Memory) : Memory :=
  if packetIsIpv4 pkt then
    rewriteEnds storeAddr4 (pkt.network_header + 12) (pkt.network_header + 16)
      (connectionAddrs t c) (connectionIsFullnat c) is_client m
  else
    rewriteEnds storeAddr6 (pkt.network_header + 8) (pkt.network_header + 24)
      (connectionAddrs t c) (connectionIsFullnat c) is_client m

/-- The frame with its MAC addresses set. -/
def macStage (m : Memory) : Memory :=
  storeMac (storeMac m (pkt.mac_header + 6) (t.mac (c.adapterIdx is_client).toNat))
    pkt.mac_header (if is_client then (serverAt t.pool c.server).mac else c.client_mac)

/-- TCP and UDP ports stand in the same place. -/
theorem processSetPort_eq :
    processSetPort t c pkt is_client
      = pkt.setData (portStage t c pkt is_client pkt.data) := by
  unfold processSetPort
  split <;> rfl

theorem processSetIp_eq (m : Memory) :
    processSetIp t c (pkt.setData m) is_client = pkt.setData (ipStage t c pkt is_client m) := by
  show (if packetIsIpv4 pkt then _ else _) = _
  unfold ipStage
  split <;> rfl

/-- Ports, addresses and MAC addresses are set in the frame, one after the other. -/
theorem processRewrite_eq :
    processRewrite t c pkt is_client = processSetChecksum { pkt with
      data := macStage t c pkt is_client (ipStage t c pkt is_client
        (portStage t c pkt is_client pkt.data))
      adapter_idx := c.adapterIdx is_client } := by
  unfold processRewrite
  rw [processSetPort_eq]
  dsimp only
  rw [processSetIp_eq]
  rfl

variable {t c pkt is_client}

/-- The headers of an accepted packet, family by family. -/
theorem Packet.IpFields.headers (hf : pkt.IpFields) :
    packetIsIpv4 pkt = true ∧ pkt.transport_header = 34
      ∨ packetIsIpv4 pkt = false ∧ pkt.transport_header = 54 := by
  by_cases h4 : pkt.family = afInet
  · exact Or.inl ⟨beq_iff_eq.mpr h4, (hf.ipv4 h4).1⟩
  · exact Or.inr ⟨beq_eq_false_iff_ne.mpr h4, (hf.ipv6 h4).2.1⟩

/-- The addresses stand below the transport header. -/
theorem agree_ipStage (hf : pkt.IpFields) (m : Memory) {p k : ℕ}
    (hp : pkt.transport_header ≤ p) : Agree (ipStage t c pkt is_client m) m p k := by
  have hnet := hf.network_header
  unfold ipStage
  rcases hf.headers with ⟨h4, hth⟩ | ⟨h4, hth⟩
  · rw [if_pos h4]
    exact stores_storeAddr4.agree_rewriteEnds (by omega) (by omega) _ _ _ _
  · rw [if_neg (ne_true_of_eq_false h4)]
    exact stores_storeAddr6.agree_rewriteEnds (by omega) (by omega) _ _ _ _

/-- The source address after the addresses are set. -/
theorem source_ipStage (m : Memory) :
    frameAddr (packetIsIpv4 pkt) (ipStage t c pkt is_client m) (pkt.network_header + 12)
        (pkt.network_header + 8)
      = if is_client then
          (if connectionIsFullnat c then addrAs (packetIsIpv4 pkt) (connectionAddrs t c).self
            else frameAddr (packetIsIpv4 pkt) m (pkt.network_header + 12)
              (pkt.network_header + 8))
        else addrAs (packetIsIpv4 pkt) (connectionAddrs t c).vs := by
  unfold ipStage frameAddr addrAs
  cases packetIsIpv4 pkt with
  | true =>
    simp only [if_true]
    rw [stores_storeAddr4.source_rewriteEnds (by omega)]
    split
    · split <;> rfl
    · rfl
  | false =>
    simp only [Bool.false_eq_true, if_false]
    exact stores_storeAddr6.source_rewriteEnds (by omega) _ _ _ _

/-- The destination address after the addresses are set. -/
theorem dest_ipStage (m : Memory) :
    frameAddr (packetIsIpv4 pkt) (ipStage t c pkt is_client m) (pkt.network_header + 16)
        (pkt.network_header + 24)
      = if is_client then addrAs (packetIsIpv4 pkt) (connectionAddrs t c).server
        else if connectionIsFullnat c then
          addrAs (packetIsIpv4 pkt) (connectionAddrs t c).client
        else frameAddr (packetIsIpv4 pkt) m (pkt.network_header + 16)
          (pkt.network_header + 24) := by
  unfold ipStage frameAddr addrAs
  cases packetIsIpv4 pkt with
  | true =>
    simp only [if_true]
    rw [stores_storeAddr4.dest_rewriteEnds (by omega)]
    split
    · rfl
    · split <;> rfl
  | false =>
    simp only [Bool.false_eq_true, if_false]
    exact stores_storeAddr6.dest_rewriteEnds (by omega) _ _ _ _

/-- The ports stand at the start of the transport header. -/
theorem agree_portStage (m : Memory) {p k : ℕ} (hp : p + k ≤ pkt.transport_header) :
    Agree (portStage t c pkt is_client m) m p k :=
  stores_store16.agree_rewriteEnds (Or.inl (by omega)) (Or.inl (by omega)) _ _ _ _

/-- The MAC addresses stand at the start of the frame. -/
theorem agree_macStage (hf : pkt.IpFields) (m : Memory) {p k : ℕ} (hp : 12 ≤ p) :
    Agree (macStage t c pkt is_client m) m p k := by
  have hmac := hf.mac_header
  unfold macStage storeMac
  refine (agree_storeBytes _ _ ?_).trans (agree_storeBytes _ _ ?_) <;> omega

end Stages

/-- The checksums are two bytes of an IPv4 header and two bytes of the transport
header. -/
theorem agree_processSetChecksum {pkt : Packet} {p k : ℕ}
    (hip : packetIsIpv4 pkt = true → p + k ≤ 24 ∨ 26 ≤ p)
    (htcp : packetIsTcp pkt = true →
      p + k ≤ pkt.transport_header + 16 ∨ pkt.transport_header + 18 ≤ p)
    (hudp : packetIsTcp pkt = false →
      p + k ≤ pkt.transport_header + 6 ∨ pkt.transport_header + 8 ≤ p) :
    processSetChecksum pkt = pkt.setData (processSetChecksum pkt).data
      ∧ Agree (processSetChecksum pkt).data pkt.data p k := by
  have htransport : ∀ (check : ℕ) (q : Packet),
      (p + k ≤ q.transport_header + check ∨ q.transport_header + check + 2 ≤ p) →
      ∃ data, checksumTransport check q = q.setData data ∧ Agree data q.data p k := by
    intro check q hq
    obtain ⟨b, hb⟩ := checksumTransport_eq check q
    exact ⟨_, hb, agree_storeBytes _ _ hq⟩
  have hheader : ∃ data, (if packetIsIpv4 pkt then checksumIpv4 pkt else pkt)
      = pkt.setData data ∧ Agree data pkt.data p k := by
    split
    · rename_i h4
      obtain ⟨b, hb⟩ := checksumIpv4_eq pkt
      exact ⟨_, hb, agree_storeBytes _ _ (hip h4)⟩
    · exact ⟨pkt.data, rfl, Agree.refl _ _ _⟩
  obtain ⟨d, hd, hagree⟩ := hheader
  unfold processSetChecksum
  rw [hd]
  dsimp only
  split
  · rename_i h
    obtain ⟨data, hdata, h⟩ := htransport 16 (pkt.setData d) (htcp h)
    rw [checksumTcp, hdata]
    exact ⟨rfl, h.trans hagree⟩
  · rename_i h
    obtain ⟨data, hdata, h⟩ := htransport 6 (pkt.setData d) (hudp (eq_false_of_ne_true h))
    rw [checksumUdp, hdata]
    exact ⟨rfl, h.trans hagree⟩

/-- **What rewriting makes of a packet.** -/
structure Translated (t : Tables) (c : Connection) (pkt : Packet) (is_client : Bool)
    (out : Packet) : Prop where
  /-- Only the frame and the adapter are assigned. -/
  eq : out = { pkt with data := out.data, adapter_idx := c.adapterIdx is_client }
  /-- The source address. -/
  source_ip : out.frameSource.ip = if is_client then
      (if connectionIsFullnat c then addrAs (packetIsIpv4 pkt) (connectionAddrs t c).self
        else pkt.frameSource.ip)
    else addrAs (packetIsIpv4 pkt) (connectionAddrs t c).vs
  /-- The source port. -/
  source_port : out.frameSource.port = if is_client then
      (if connectionIsFullnat c then (connectionPorts t c).self else pkt.frameSource.port)
    else (connectionPorts t c).vs
  /-- The destination address. -/
  dest_ip : out.frameDest.ip = if is_client then
      addrAs (packetIsIpv4 pkt) (connectionAddrs t c).server
    else if connectionIsFullnat c then addrAs (packetIsIpv4 pkt) (connectionAddrs t c).client
    else pkt.frameDest.ip
  /-- The destination port. -/
  dest_port : out.frameDest.port = if is_client then (connectionPorts t c).server
    else if connectionIsFullnat c then (connectionPorts t c).client else pkt.frameDest.port
  /-- The MAC address it comes from. -/
  source_mac : loadMac out.data (out.mac_header + 6) = t.mac (c.adapterIdx is_client).toNat
  /-- The MAC address it goes to. -/
  dest_mac : loadMac out.data out.mac_header
    = if is_client then (serverAt t.pool c.server).mac else c.client_mac

/-- A MAC address is read from its six bytes. -/
theorem agree_loadMac {m m' : Memory} {off : ℕ} (h : Agree m m' off 6) :
    loadMac m off = loadMac m' off :=
  funext (fun i => h i i.isLt)

/-- What a packet is sent with above the Ethernet header is what the addresses and
ports were set to: MAC addresses and checksums stand elsewhere. -/
theorem agree_processRewrite (t : Tables) (c : Connection) {pkt : Packet}
    (hf : pkt.IpFields) (is_client : Bool) {p k : ℕ} (hp : 12 ≤ p)
    (hip : packetIsIpv4 pkt = true → 26 ≤ p) (hth : p + k ≤ pkt.transport_header + 4) :
    Agree (processRewrite t c pkt is_client).data (ipStage t c pkt is_client
      (portStage t c pkt is_client pkt.data)) p k := by
  rw [processRewrite_eq]
  refine Agree.trans (agree_processSetChecksum ?_ (fun _ => Or.inl ?_)
    (fun _ => Or.inl ?_)).2 (agree_macStage hf _ hp)
  · exact fun h => Or.inr (hip h)
  · dsimp only
    omega
  · dsimp only
    omega

/-- Rewriting assigns the frame and the adapter. -/
theorem processRewrite_fields (t : Tables) (c : Connection) (pkt : Packet)
    (is_client : Bool) :
    processRewrite t c pkt is_client = { pkt with
      data := (processRewrite t c pkt is_client).data
      adapter_idx := c.adapterIdx is_client } := by
  rw [processRewrite_eq]
  exact (agree_processSetChecksum (p := 0) (k := 0) (fun _ => Or.inl (by omega))
    (fun _ => Or.inl (by omega)) (fun _ => Or.inl (by omega))).1

/-- The MAC addresses a packet is sent with. -/
theorem loadMac_processRewrite (t : Tables) (c : Connection) {pkt : Packet}
    (hf : pkt.IpFields) (is_client : Bool) {p : ℕ} (hp : p + 6 ≤ 12) :
    loadMac (processRewrite t c pkt is_client).data p
      = loadMac (macStage t c pkt is_client (ipStage t c pkt is_client
        (portStage t c pkt is_client pkt.data))) p := by
  have hth : 34 ≤ pkt.transport_header := by
    rcases hf.headers with ⟨-, h⟩ | ⟨-, h⟩ <;> omega
  rw [processRewrite_eq]
  refine agree_loadMac (agree_processSetChecksum (fun _ => Or.inl (by omega))
    (fun _ => Or.inl ?_) (fun _ => Or.inl ?_)).2
  · dsimp only
    omega
  · dsimp only
    omega

/-- **Rewriting an accepted packet translates it.** -/
theorem translated_processRewrite (t : Tables) (c : Connection) {pkt : Packet}
    (hf : pkt.IpFields) (is_client : Bool) :
    Translated t c pkt is_client (processRewrite t c pkt is_client) := by
  have hfields := processRewrite_fields t c pkt is_client
  have hagree := fun p k => agree_processRewrite t c hf is_client (p := p) (k := k)
  have hmacs := fun p => loadMac_processRewrite t c hf is_client (p := p)
  generalize processRewrite t c pkt is_client = out at hfields hagree hmacs
  have hmac := hf.mac_header
  have hnet := hf.network_header
  have hth : 34 ≤ pkt.transport_header
      ∧ (packetIsIpv4 pkt = false → 54 ≤ pkt.transport_header) := by
    rcases hf.headers with ⟨h4, h⟩ | ⟨h4, h⟩ <;> simp [h4, h]
  have h4_out : packetIsIpv4 out = packetIsIpv4 pkt := by rw [hfields]; rfl
  have hnet_out : out.network_header = pkt.network_header := by rw [hfields]
  have hmac_out : out.mac_header = pkt.mac_header := by rw [hfields]
  have hth_out : out.transport_header = pkt.transport_header := by rw [hfields]
  have hports : ∀ p, pkt.transport_header ≤ p → p + 2 ≤ pkt.transport_header + 4 →
      Agree out.data (portStage t c pkt is_client pkt.data) p 2 := fun p hp hp2 =>
    (hagree p 2 (by omega) (fun _ => by omega) hp2).trans (agree_ipStage hf _ hp)
  refine ⟨hfields, ?_, ?_, ?_, ?_, ?_, ?_⟩
  · rw [Packet.frameSource, h4_out, hnet_out, frameAddr_congr
      (fun h => hagree _ _ (by omega) (fun _ => by omega) (by omega))
      (fun h => hagree _ _ (by omega) (fun h' => absurd (h.symm.trans h') (by decide))
        (by have := hth.2 h; omega)), source_ipStage, frameAddr_congr
      (fun h => agree_portStage _ (by omega))
      (fun h => agree_portStage _ (by have := hth.2 h; omega))]
    rfl
  · rw [Packet.frameSource, hth_out, (hports _ le_rfl (by omega)).load16]
    exact stores_store16.source_rewriteEnds (by omega) _ _ _ _
  · rw [Packet.frameDest, h4_out, hnet_out, frameAddr_congr
      (fun h => hagree _ _ (by omega) (fun _ => by omega) (by omega))
      (fun h => hagree _ _ (by omega) (fun h' => absurd (h.symm.trans h') (by decide))
        (by have := hth.2 h; omega)), dest_ipStage, frameAddr_congr
      (fun h => agree_portStage _ (by omega))
      (fun h => agree_portStage _ (by have := hth.2 h; omega))]
    rfl
  · rw [Packet.frameDest, hth_out, (hports _ (by omega) (by omega)).load16]
    exact stores_store16.dest_rewriteEnds (by omega) _ _ _ _
  · rw [hmac_out, hmacs _ (by omega), macStage, storeMac, hmac]
    refine (agree_loadMac (agree_storeBytes _ _ (Or.inr (by omega)))).trans ?_
    exact loadMac_storeMac _ _ _
  · rw [hmac_out, hmacs _ (by omega), macStage]
    exact loadMac_storeMac _ _ _

/-! ## What rewriting leaves alone -/

/-- The bytes that rewriting may change: the MAC addresses, the addresses of the network
header and the checksum beside those of IPv4, the ports, and the checksum of the
transport header. -/
def Packet.Rewritten (pkt : Packet) (i : ℕ) : Prop :=
  i < 12 ∨ (if packetIsIpv4 pkt then 24 ≤ i ∧ i < 34 else 22 ≤ i ∧ i < 54)
    ∨ (pkt.transport_header ≤ i ∧ i < pkt.transport_header + 4)
    ∨ (if packetIsTcp pkt then
        pkt.transport_header + 16 ≤ i ∧ i < pkt.transport_header + 18
      else pkt.transport_header + 6 ≤ i ∧ i < pkt.transport_header + 8)

/-- The start of the network header is not rewritten. -/
theorem Packet.IpFields.not_rewritten {pkt : Packet} (hf : pkt.IpFields) {i : ℕ} (h12 : 12 ≤ i)
    (h : i < 22 ∨ packetIsIpv4 pkt = true ∧ i < 24) : ¬ pkt.Rewritten i := by
  unfold Packet.Rewritten
  obtain ⟨h4, hth⟩ | ⟨h4, hth⟩ := hf.headers <;> rw [h4, hth] <;> rw [h4] at h <;> split_ifs <;>
    simp at * <;> omega

/-- The addresses are all that is set in the network header. -/
theorem agree_ipStage_byte {t : Tables} {c : Connection} {pkt : Packet} {is_client : Bool}
    (hf : pkt.IpFields) (m : Memory) {i : ℕ}
    (hi : ¬ if packetIsIpv4 pkt then 24 ≤ i ∧ i < 34 else 22 ≤ i ∧ i < 54) :
    Agree (ipStage t c pkt is_client m) m i 1 := by
  have hnet := hf.network_header
  unfold ipStage
  rcases hf.headers with ⟨h4, -⟩ | ⟨h4, -⟩
  · rw [if_pos h4] at hi ⊢
    exact stores_storeAddr4.agree_rewriteEnds (by omega) (by omega) _ _ _ _
  · rw [if_neg (ne_true_of_eq_false h4)] at hi ⊢
    exact stores_storeAddr6.agree_rewriteEnds (by omega) (by omega) _ _ _ _

/-- **Rewriting changes no other byte.** -/
theorem processRewrite_frame (t : Tables) (c : Connection) {pkt : Packet}
    (hf : pkt.IpFields) (is_client : Bool) {i : ℕ} (hi : ¬ pkt.Rewritten i) :
    (processRewrite t c pkt is_client).data i = pkt.data i := by
  unfold Packet.Rewritten at hi
  push Not at hi
  obtain ⟨hmac, hip, hport, hcheck⟩ := hi
  have hports : Agree (portStage t c pkt is_client pkt.data) pkt.data i 1 :=
    stores_store16.agree_rewriteEnds (by omega) (by omega) _ _ _ _
  have hchecksum : Agree (processRewrite t c pkt is_client).data
      (macStage t c pkt is_client (ipStage t c pkt is_client
        (portStage t c pkt is_client pkt.data))) i 1 := by
    rw [processRewrite_eq]
    refine (agree_processSetChecksum (fun h4 => ?_) (fun htcp => ?_) (fun hudp => ?_)).2
    · rw [if_pos (show packetIsIpv4 pkt = true from h4)] at hip
      omega
    · rw [if_pos (show packetIsTcp pkt = true from htcp)] at hcheck
      dsimp only
      omega
    · rw [if_neg (ne_true_of_eq_false (show packetIsTcp pkt = false from hudp))] at hcheck
      dsimp only
      omega
  exact (((hchecksum.trans (agree_macStage hf _ hmac)).trans
    (agree_ipStage_byte hf _ hip)).trans hports) 0 Nat.zero_lt_one

/-! ## Replies in transparent mode -/

theorem packetIsIpv4_iff {pkt : Packet} :
    packetIsIpv4 pkt = true ↔ pkt.family = afInet := beq_iff_eq

/-- The ends in the frame of an accepted packet are its addresses. -/
theorem Packet.IpFields.frame_eq {pkt : Packet} (hf : pkt.IpFields) :
    ipAddressEq pkt.frameSource.ip pkt.saddr.ip = true
      ∧ ipAddressEq pkt.frameDest.ip pkt.daddr.ip = true
      ∧ (pkt.protocol_ip = protoTcp ∨ pkt.protocol_ip = protoUdp →
        pkt.frameSource.port = pkt.saddr.port ∧ pkt.frameDest.port = pkt.daddr.port) := by
  have hnet := hf.network_header
  refine ⟨?_, ?_, fun hp => ⟨(hf.ports hp).1.symm, (hf.ports hp).2.symm⟩⟩ <;>
    by_cases h4 : pkt.family = afInet
  · obtain ⟨-, hfam, hip4, -⟩ := hf.ipv4 h4
    rw [Packet.frameSource, frameAddr, if_pos (packetIsIpv4_iff.mpr h4), hnet]
    exact ipAddressEq_iff.mpr ⟨hfam.symm, hip4.symm, fun h => absurd rfl h⟩
  · obtain ⟨-, -, hs, -⟩ := hf.ipv6 h4
    rw [Packet.frameSource, frameAddr, if_neg (packetIsIpv4_iff.not.mpr h4), hnet, hs]
    exact ipAddressEq_refl _
  · obtain ⟨-, -, -, hfam, hip4⟩ := hf.ipv4 h4
    rw [Packet.frameDest, frameAddr, if_pos (packetIsIpv4_iff.mpr h4), hnet]
    exact ipAddressEq_iff.mpr ⟨hfam.symm, hip4.symm, fun h => absurd rfl h⟩
  · obtain ⟨-, -, -, hd⟩ := hf.ipv6 h4
    rw [Packet.frameDest, frameAddr, if_neg (packetIsIpv4_iff.not.mpr h4), hnet, hd]
    exact ipAddressEq_refl _

/-- An address carried by a packet of its own family is that address. -/
theorem addrAs_eq {ip : IpAddress} {family : ℕ} (hip : ip.family = family)
    (hfam : family ≠ afInet → family = afInet6) :
    ipAddressEq (addrAs (family == afInet) ip) ip = true := by
  unfold addrAs
  by_cases h4 : family = afInet
  · rw [if_pos (beq_iff_eq.mpr h4)]
    exact ipAddressEq_iff.mpr ⟨(hip.trans h4).symm, rfl, fun h => absurd rfl h⟩
  · rw [if_neg (by simpa using h4)]
    exact ipAddressEq_iff.mpr ⟨((hip.trans (hfam h4)).symm), rfl, fun _ => ⟨rfl, rfl, rfl⟩⟩

/-- Forwarding hands the driver one packet. -/
theorem sent_processForward (t : Tables) (cp : ℕ) (pkt : Packet) (is_client : Bool) :
    (processForward t cp pkt is_client).2.2.sent
      = t.sent ++ [processRewrite t (t.conn cp) pkt is_client] := by
  rw [processForward_eq]
  dsimp only
  split
  · split
    · rw [Tables.connectionFree_eq]
      rfl
    · rfl
  · rfl

/-- A packet of a connection is sent rewritten. -/
theorem sent_processIpPacket {malloc : Option ℕ} {t t' : Tables} {pkt : Packet} {cp : ℕ}
    {is_client : Bool}
    (hf : processFindConnection malloc t pkt = (.connection cp is_client, t')) :
    (processIpPacket malloc t pkt).2.2.sent
      = t'.sent ++ [processRewrite t' (t'.conn cp) pkt is_client] := by
  have heq : processIpPacket malloc t pkt = processForward t' cp pkt is_client := by
    simp only [processIpPacket, hf]
  rw [heq]
  exact sent_processForward t' cp pkt is_client

/-- A packet goes to the client of a connection, from the vs IP and port. -/
structure SentToClient (t : Tables) (c : Connection) (out : Packet) : Prop where
  /-- The source is the vs IP. -/
  source_ip : ipAddressEq out.frameSource.ip (connectionVsIp t c) = true
  /-- The source is the vs port. -/
  source_port : out.frameSource.port = (t.vservers.vserver c.vs).port
  /-- The destination is the client's address. -/
  dest_ip : ipAddressEq out.frameDest.ip c.client_addr = true
  /-- The destination is the client's port. -/
  dest_port : out.frameDest.port = c.client_port
  /-- It goes to the MAC address the client's packet came from. -/
  dest_mac : loadMac out.data out.mac_header = c.client_mac
  /-- It leaves by the adapter the client's packet came in on. -/
  adapter : out.adapter_idx = c.client_adapter_idx

/-- The server of a connection cannot be told from its client and from its virtual
server. -/
structure EndsCoincide (t : Tables) (c : Connection) : Prop where
  /-- The server has the vs IP. -/
  vs_ip : ipAddressEq (serverAt t.pool c.server).addr.ip (connectionVsIp t c) = true
  /-- The server has the vs port. -/
  vs_port : (serverAt t.pool c.server).addr.port = (t.vservers.vserver c.vs).port
  /-- The server has the client's address. -/
  client_ip : ipAddressEq (serverAt t.pool c.server).addr.ip c.client_addr = true
  /-- The server has the client's port. -/
  client_port : (serverAt t.pool c.server).addr.port = c.client_port
  /-- The server has the client's MAC address. -/
  mac : (serverAt t.pool c.server).mac = c.client_mac
  /-- The server is behind the client's adapter. -/
  adapter : c.server_adapter_idx = c.client_adapter_idx

/-- A packet from the server of a connection to its client. -/
structure FromServer (t : Tables) (c : Connection) (pkt : Packet) : Prop where
  /-- It comes from the server's address. -/
  source_ip : ipAddressEq pkt.saddr.ip (serverAt t.pool c.server).addr.ip = true
  /-- It comes from the server's port. -/
  source_port : pkt.saddr.port = (serverAt t.pool c.server).addr.port
  /-- It is addressed to the client. -/
  dest_ip : ipAddressEq pkt.daddr.ip c.client_addr = true
  /-- It is addressed to the client's port. -/
  dest_port : pkt.daddr.port = c.client_port

/-- A packet found to be of a live transparent connection is taken for a packet of
the client, and the search assigned the protocol only. -/
theorem Tables.Ok.find_transparent {t t' : Tables} (h : t.Ok) {malloc : Option ℕ}
    (hm : t.conn_mem_pool.MallocOk malloc) {cp : ℕ} (hcp : cp ∈ t.live)
    (htrans : connectionIsFullnat (t.conn cp) = false) {pkt : Packet} {is_client : Bool}
    (hf : processFindConnection malloc t pkt = (.connection cp is_client, t')) :
    is_client = true
      ∧ t' = t.setProtocol cp pkt.protocol_ip := by
  have hfinds := finds_processFindConnection h hm pkt
  rw [hf] at hfinds
  dsimp only at hfinds
  cases hfinds with
  | client => exact ⟨rfl, rfl⟩
  | remote => exact ⟨rfl, rfl⟩
  | self _ _ hlive _ =>
    exact absurd ((h.mem_liveSelf.mp hlive).2.symm.trans htrans) (by decide)
  | created _ ha hc =>
    refine absurd (h.mem_live.mp hcp) ?_
    have hfresh := hc.fresh
    rwa [ha.eq] at hfresh

/-- The protocol of a connection is not one of its ends. -/
theorem Translated.of_setProtocol {t : Tables} {cp : ℕ} {p : UInt8} {c : Connection}
    {pkt out : Packet} {is_client : Bool}
    (h : Translated (t.setProtocol cp p) { c with protocol := p } pkt is_client out) :
    Translated t c pkt is_client out :=
  ⟨h.eq, h.source_ip, h.source_port, h.dest_ip, h.dest_port, h.source_mac, h.dest_mac⟩

/-- Sent towards the server, a packet of a transparent connection from its server to
its client goes to the client from the virtual server only if the three coincide. -/
theorem Translated.sentToClient_iff {t : Tables} {c : Connection} {pkt out : Packet}
    (ht : Translated t c pkt true out) (hf : pkt.IpFields)
    (hproto : pkt.protocol_ip = protoTcp ∨ pkt.protocol_ip = protoUdp)
    (htrans : connectionIsFullnat c = false) (hs : FromServer t c pkt) :
    SentToClient t c out ↔ EndsCoincide t c := by
  obtain ⟨hsrc, -, hports⟩ := hf.frame_eq
  have hadapter : out.adapter_idx = c.server_adapter_idx :=
    congrArg Packet.adapter_idx ht.eq
  obtain ⟨-, hsrc_ip, hsrc_port, hdst_ip, hdst_port, -, hmac⟩ := ht
  rw [if_pos rfl, htrans, if_neg Bool.false_ne_true] at hsrc_ip hsrc_port
  rw [if_pos rfl] at hdst_ip hdst_port hmac
  rw [(hports hproto).1, hs.source_port] at hsrc_port
  -- the source left as it was is the server, and so is the destination stored
  have hfrom : ipAddressEq out.frameSource.ip (serverAt t.pool c.server).addr.ip = true := by
    rw [hsrc_ip]
    exact ipAddressEq_trans hsrc hs.source_ip
  have hto : ipAddressEq out.frameDest.ip (serverAt t.pool c.server).addr.ip = true := by
    rw [hdst_ip]
    refine addrAs_eq ?_ (fun h4 => (hf.ipv6 h4).1)
    exact (ipAddressEq_iff.mp hs.source_ip).1.symm.trans hf.family_eq.1
  constructor
  · intro h
    exact ⟨ipAddressEq_trans (ipAddressEq_symm hfrom) h.source_ip,
      hsrc_port.symm.trans h.source_port,
      ipAddressEq_trans (ipAddressEq_symm hto) h.dest_ip, hdst_port.symm.trans h.dest_port,
      hmac.symm.trans h.dest_mac, hadapter.symm.trans h.adapter⟩
  · intro h
    exact ⟨ipAddressEq_trans hfrom h.vs_ip, hsrc_port.trans h.vs_port,
      ipAddressEq_trans hto h.client_ip, hdst_port.trans h.client_port,
      hmac.trans h.mac, hadapter.trans h.adapter⟩

/-- **Where replies of transparent servers go.** In every state a process can reach, a
TCP or UDP packet from the server of a live transparent connection to its client,
matched to the connection, is sent; and what is sent goes to the client from the
virtual server, by the client's MAC address and adapter, if and only if server,
client and virtual server have one address, port, MAC address and adapter. -/
theorem processIpPacket_reply_iff {t t' : Tables} (h : processSystem.Reachable t)
    {malloc : Option ℕ} (hm : t.conn_mem_pool.MallocOk malloc) {cp : ℕ}
    (hcp : cp ∈ t.live) (htrans : connectionIsFullnat (t.conn cp) = false) {pkt : Packet}
    (hacc : PacketAccepted pkt) (hip : packetIsIp pkt = true)
    (hproto : pkt.protocol_ip = protoTcp ∨ pkt.protocol_ip = protoUdp)
    (hs : FromServer t (t.conn cp) pkt) {is_client : Bool}
    (hf : processFindConnection malloc t pkt = (.connection cp is_client, t')) :
    (∃ l, (t.conn cp).vs_addr = some l)
      ∧ ∃ out, (processIpPacket malloc t pkt).2.2.sent = t.sent ++ [out]
        ∧ (SentToClient t (t.conn cp) out ↔ EndsCoincide t (t.conn cp)) := by
  have horigin := Tables.origin_of_reachable h
  obtain ⟨r, hr⟩ := horigin.recorded cp hcp
  obtain ⟨rfl, rfl⟩ := horigin.ok.find_transparent hm hcp htrans hf
  have hfields := hacc.ipFields hip
  have ht := translated_processRewrite (t.setProtocol cp pkt.protocol_ip)
    ((t.setProtocol cp pkt.protocol_ip).conn cp) hfields true
  have hsent := sent_processIpPacket hf
  generalize processRewrite (t.setProtocol cp pkt.protocol_ip) _ pkt true = out
    at ht hsent
  rw [Tables.conn_setProtocol] at ht
  exact ⟨hr.exists_vs_addr, out, hsent,
    ht.of_setProtocol.sentToClient_iff hfields hproto htrans hs⟩

/-- A packet to no address of ours is taken to its client's connection. -/
theorem find_of_remote {t : Tables} {pkt : Packet} {cp : ℕ} (malloc : Option ℕ)
    (hvs : ngInterfaceLookupVsip t.hash_rand t.itf pkt.daddr.ip = none)
    (hself : ngInterfaceLookupSelfip t.hash_rand t.itf pkt.daddr.ip = none)
    (h : (connectionLookup t pkt.daddr.ip pkt.daddr.port pkt.protocol_ip true).1
      = some cp) :
    processFindConnection malloc t pkt
      = (.connection cp true, t.setProtocol cp pkt.protocol_ip) := by
  obtain ⟨-, -, ht'⟩ := connectionLookup_some h
  generalize hr : connectionLookup t pkt.daddr.ip pkt.daddr.port pkt.protocol_ip true = r
    at h ht'
  obtain ⟨found, t'⟩ := r
  dsimp only at h ht'
  simp only [processFindConnection, hvs, Option.isSome_none, Bool.false_eq_true, if_false,
    processFindServer, hself, Option.isNone_none, hr, h, ht']

/-- The reply of the server `10.0.0.4` to the client `10.0.0.3` port 1157. -/
def oneReply : Packet := tcpPacket 4 3 [0, 80] [4, 133] 16

theorem accepted_oneReply : PacketAccepted oneReply := accepted_tcpPacket _ _ _ _ _

theorem fromServer_oneReply : FromServer (oneClient 0) ((oneClient 0).conn 0x1fff80) oneReply :=
  ⟨by decide +kernel, by decide +kernel, by decide +kernel, by decide +kernel⟩

theorem find_oneReply : processFindConnection none (oneClient 0) oneReply
    = (.connection 0x1fff80 true, (oneClient 0).setProtocol 0x1fff80 oneReply.protocol_ip) := by
  have hip : oneReply.daddr.ip = netTen 3 := by decide +kernel
  have hport : oneReply.daddr.port = htons 1157 := by decide +kernel
  have hproto : oneReply.protocol_ip = protoTcp := by decide +kernel
  refine find_of_remote none ?_ ?_ ?_
  · rw [hip]
    decide +kernel
  · rw [hip]
    decide +kernel
  · rw [hip, hport, hproto]
    decide +kernel

theorem live_oneClient : 0x1fff80 ∈ (oneClient 0).live
    ∧ connectionIsFullnat ((oneClient 0).conn 0x1fff80) = false :=
  ⟨by decide +kernel, by decide +kernel⟩

/-- The reply of the server is sent. -/
theorem processIpPacket_reply_iff_oneReply :
    ∃ out, (processIpPacket none (oneClient 0) oneReply).2.2.sent
      = (oneClient 0).sent ++ [out] := by
  obtain ⟨-, out, hsent, -⟩ := processIpPacket_reply_iff (reachable_oneClient 0)
    (fun _ hm => absurd hm (by simp)) live_oneClient.1 live_oneClient.2 accepted_oneReply
    (by decide +kernel) (Or.inl (by decide +kernel)) fromServer_oneReply find_oneReply
  exact ⟨out, hsent⟩

/-- **A reply goes back to the server**: the packet sent carries the server's MAC
address, not the client's. -/
theorem reply_not_sent_to_client :
    processSystem.Reachable (oneClient 0) ∧ 0x1fff80 ∈ (oneClient 0).live
      ∧ connectionIsFullnat ((oneClient 0).conn 0x1fff80) = false
      ∧ PacketAccepted oneReply ∧ packetIsIp oneReply = true
      ∧ oneReply.protocol_ip = protoTcp
      ∧ FromServer (oneClient 0) ((oneClient 0).conn 0x1fff80) oneReply
      ∧ (processFindConnection none (oneClient 0) oneReply).1 = .connection 0x1fff80 true
      ∧ ∃ out, (processIpPacket none (oneClient 0) oneReply).2.2.sent
          = (oneClient 0).sent ++ [out]
        ∧ ¬ SentToClient (oneClient 0) ((oneClient 0).conn 0x1fff80) out := by
  have hproto : oneReply.protocol_ip = protoTcp := by decide +kernel
  have hip : packetIsIp oneReply = true := by decide +kernel
  have hfields := accepted_oneReply.ipFields hip
  have ht := translated_processRewrite
    ((oneClient 0).setProtocol 0x1fff80 oneReply.protocol_ip)
    (((oneClient 0).setProtocol 0x1fff80 oneReply.protocol_ip).conn 0x1fff80) hfields true
  have hsent := sent_processIpPacket find_oneReply
  generalize processRewrite ((oneClient 0).setProtocol 0x1fff80 oneReply.protocol_ip) _
    oneReply true = out at ht hsent
  rw [Tables.conn_setProtocol] at ht
  have hiff := ht.of_setProtocol.sentToClient_iff hfields (Or.inl hproto) live_oneClient.2
    fromServer_oneReply
  refine ⟨reachable_oneClient 0, live_oneClient.1, live_oneClient.2, accepted_oneReply, hip,
    hproto, fromServer_oneReply, congrArg Prod.fst find_oneReply, out, hsent, fun h => ?_⟩
  exact absurd (congrFun (hiff.mp h).mac 0) (by decide +kernel)
